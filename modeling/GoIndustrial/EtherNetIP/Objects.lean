import GoIndustrial.EtherNetIP.Router
import Mathlib.Data.List.AList

/-!
# The assembly object and the connection manager

The two objects of `protocol/ethernetip/objects`. The assembly object has buffers of fixed size,
which are read and replaced as a whole; the rest of a request path is an instance segment and,
possibly, an attribute segment. The connection manager keeps a table of connections; a connection is
known by its triad of serial number, vendor and originator serial number, and stored under an
identifier that the manager chooses. Requests to the manager are read field by field.

The callbacks of the connection manager belong to the application. Where the source goes through the
table in the order of a Go map, the table is gone through in the order of its entries; this makes no
difference, as no two entries have one triad.

## Main definitions

* `EtherNetIP.AssemblyObject`, `EtherNetIP.AssemblyObject.handleRequest`.
* `EtherNetIP.ConnectionManager`, `EtherNetIP.ConnectionManager.handleRequest`.
* `EtherNetIP.Adapter`, `EtherNetIP.registerAdapter` : a device with both objects.

## Main results

* `EtherNetIP.ConnectionManager.UniqueTriads.handleRequest` : requests keep triads unique.
* `EtherNetIP.safe_registerAdapter` : neither object panics.
-/

namespace GoIndustrial.EtherNetIP

open GoSlice ByteReader LittleEndian

/-! ### The assembly object -/

/-- The buffers of the instances. -/
structure AssemblyObject where
  instances : UInt32 → Option (List UInt8)

def serviceGetAttributeSingle : UInt8 := 0x0E
def serviceSetAttributeSingle : UInt8 := 0x10

namespace AssemblyObject

def getAttributeSingle (ao : AssemblyObject) (instanceID : UInt32) (attrID : UInt16) :
    Except (Fault Err) (List UInt8) :=
  match ao.instances instanceID with
  | none => throwStatus statusObjectDoesNotExist
  | some data => if attrID = 3 then .ok data else throwStatus statusAttributeNotSupported

/-- The size of a buffer does not change. -/
def setAttributeSingle (ao : AssemblyObject) (instanceID : UInt32) (attrID : UInt16)
    (data : List UInt8) : Except (Fault Err) Unit × AssemblyObject :=
  match ao.instances instanceID with
  | none => (throwStatus statusObjectDoesNotExist, ao)
  | some old =>
    if attrID = 3 then
      if data.length ≠ old.length then (throwStatus statusInvalidAttributeValue, ao)
      else (.ok (), ⟨Function.update ao.instances instanceID (some data)⟩)
    else (throwStatus statusAttributeNotSupported, ao)

/-- The instance segment at the beginning of a path, and what follows. -/
def instanceSegment (pathBytes : List UInt8) : Except (Fault Err) (UInt32 × List UInt8) :=
  if pathBytes.length = 0 then throwStatus statusPathSegmentError
  else do
    let segType ← index pathBytes 0
    if segType = 0x24 then
      if pathBytes.length < 2 then throwStatus statusPathSegmentError
      else
        let instanceID ← index pathBytes 1
        let remainingPath ← sliceFrom pathBytes 2
        return (instanceID.toUInt32, remainingPath)
    else if segType = 0x25 then
      if pathBytes.length < 4 then throwStatus statusPathSegmentError
      else
        let instanceID ← uint16LEAt pathBytes 2
        let remainingPath ← sliceFrom pathBytes 4
        return (instanceID.toUInt32, remainingPath)
    else throwStatus statusPathSegmentError

/-- The attribute segment behind it; without one, or with another segment, the attribute is 0. -/
def attributeSegment (remainingPath : List UInt8) : Except (Fault Err) UInt16 :=
  if 0 < remainingPath.length then do
    let segType ← index remainingPath 0
    if segType = 0x30 then
      if remainingPath.length < 2 then throwStatus statusPathSegmentError
      else
        let attrID ← index remainingPath 1
        return attrID.toUInt16
    else if segType = 0x31 then
      if remainingPath.length < 4 then throwStatus statusPathSegmentError
      else uint16LEAt remainingPath 2
    else return 0
  else return 0

/-- The instance and the attribute of a path. -/
def decodePath (path : List UInt8) : Except (Fault Err) (UInt32 × UInt16) := do
  let (instanceID, remainingPath) ← instanceSegment path
  let attrID ← attributeSegment remainingPath
  return (instanceID, attrID)

def handleRequest : Object AssemblyObject := fun service path data ao =>
  match decodePath path with
  | .error e => (.error e, ao)
  | .ok (instanceID, attrID) =>
    if service = serviceGetAttributeSingle then
      if attrID = 0 then (throwStatus statusPathSegmentError, ao)
      else (ao.getAttributeSingle instanceID attrID, ao)
    else if service = serviceSetAttributeSingle then
      if attrID = 0 then (throwStatus statusPathSegmentError, ao)
      else
        let (result, ao) := ao.setAttributeSingle instanceID attrID data
        (result.map fun _ => [], ao)
    else (throwStatus statusServiceNotSupported, ao)

end AssemblyObject

/-! ### The connection manager -/

def serviceForwardClose : UInt8 := 0x4E
def serviceForwardOpen : UInt8 := 0x54
def extStatusConnectionInUse : UInt16 := 0x0100

structure ForwardOpenRequest where
  priorityTimeTick : UInt8
  timeoutTicks : UInt8
  otConnectionID : UInt32
  toConnectionID : UInt32
  connectionSerialNumber : UInt16
  vendorID : UInt16
  originatorSerialNumber : UInt32
  connectionTimeoutMultiplier : UInt8
  reserved : Vector UInt8 3
  otRPI : UInt32
  otNetworkConnectionParams : UInt16
  toRPI : UInt32
  toNetworkConnectionParams : UInt16
  transportTypeTrigger : UInt8
  connectionPathSize : UInt8
  connectionPath : List UInt8
  deriving DecidableEq, Repr

structure ForwardCloseRequest where
  priorityTimeTick : UInt8
  timeoutTicks : UInt8
  connectionSerialNumber : UInt16
  vendorID : UInt16
  originatorSerialNumber : UInt32
  connectionPathSize : UInt8
  reserved : UInt8
  connectionPath : List UInt8
  deriving DecidableEq, Repr

/-- The path size in the encoding is that of the path, in words cut to a byte. -/
def ForwardOpenRequest.encode (r : ForwardOpenRequest) : List UInt8 :=
  [r.priorityTimeTick] ++ ([r.timeoutTicks] ++ (putUint32 r.otConnectionID ++
    (putUint32 r.toConnectionID ++ (putUint16 r.connectionSerialNumber ++ (putUint16 r.vendorID ++
    (putUint32 r.originatorSerialNumber ++ ([r.connectionTimeoutMultiplier] ++
    (r.reserved.toList ++ (putUint32 r.otRPI ++ (putUint16 r.otNetworkConnectionParams ++
    (putUint32 r.toRPI ++ (putUint16 r.toNetworkConnectionParams ++ ([r.transportTypeTrigger] ++
    ([UInt8.ofNat (r.connectionPath.length / 2)] ++ r.connectionPath))))))))))))))

def ForwardCloseRequest.encode (r : ForwardCloseRequest) : List UInt8 :=
  [r.priorityTimeTick] ++ ([r.timeoutTicks] ++ (putUint16 r.connectionSerialNumber ++
    (putUint16 r.vendorID ++ (putUint32 r.originatorSerialNumber ++
    ([UInt8.ofNat (r.connectionPath.length / 2)] ++ ([r.reserved] ++ r.connectionPath))))))

def readForwardOpen : Reader ForwardOpenRequest := do
  let priorityTimeTick ← uint8
  let timeoutTicks ← uint8
  let otConnectionID ← uint32
  let toConnectionID ← uint32
  let connectionSerialNumber ← uint16
  let vendorID ← uint16
  let originatorSerialNumber ← uint32
  let connectionTimeoutMultiplier ← uint8
  let reserved ← readArray 3
  let otRPI ← uint32
  let otNetworkConnectionParams ← uint16
  let toRPI ← uint32
  let toNetworkConnectionParams ← uint16
  let transportTypeTrigger ← uint8
  let connectionPathSize ← uint8
  let connectionPath ← read (connectionPathSize.toNat * 2)
  return ⟨priorityTimeTick, timeoutTicks, otConnectionID, toConnectionID, connectionSerialNumber,
    vendorID, originatorSerialNumber, connectionTimeoutMultiplier, reserved, otRPI,
    otNetworkConnectionParams, toRPI, toNetworkConnectionParams, transportTypeTrigger,
    connectionPathSize, connectionPath⟩

def readForwardClose : Reader ForwardCloseRequest := do
  let priorityTimeTick ← uint8
  let timeoutTicks ← uint8
  let connectionSerialNumber ← uint16
  let vendorID ← uint16
  let originatorSerialNumber ← uint32
  let connectionPathSize ← uint8
  let reserved ← uint8
  let connectionPath ← read (connectionPathSize.toNat * 2)
  return ⟨priorityTimeTick, timeoutTicks, connectionSerialNumber, vendorID, originatorSerialNumber,
    connectionPathSize, reserved, connectionPath⟩

structure Connection where
  otConnectionID : UInt32
  toConnectionID : UInt32
  connectionSerialNumber : UInt16
  vendorID : UInt16
  originatorSerialNumber : UInt32
  deriving DecidableEq, Repr

/-- The connection has the triad. -/
def Connection.hasTriad (conn : Connection) (connectionSerialNumber vendorID : UInt16)
    (originatorSerialNumber : UInt32) : Bool :=
  conn.connectionSerialNumber == connectionSerialNumber && conn.vendorID == vendorID &&
    conn.originatorSerialNumber == originatorSerialNumber

structure ConnectionManager where
  /-- The open connections by the identifiers that the manager chose. -/
  connections : AList fun _ : UInt32 => Connection
  nextConnID : UInt32

namespace ConnectionManager

def newConnectionManager : ConnectionManager := ⟨∅, 0x80000000⟩

/-- Put a connection into the table, unless its triad is there. -/
def openConnection (cm : ConnectionManager) (req : ForwardOpenRequest) :
    Except CipError Connection × ConnectionManager :=
  if cm.connections.entries.any fun e =>
      e.2.hasTriad req.connectionSerialNumber req.vendorID req.originatorSerialNumber then
    (.error ⟨statusConnectionFailure, [extStatusConnectionInUse]⟩, cm)
  else
    let myConnID := cm.nextConnID + 1
    let conn : Connection := ⟨req.otConnectionID, myConnID, req.connectionSerialNumber,
      req.vendorID, req.originatorSerialNumber⟩
    (.ok conn, ⟨cm.connections.insert myConnID conn, myConnID⟩)

/-- The data of a successful response; the last two bytes are the size of the application reply
and a reserved byte. -/
def forwardOpenResponse (req : ForwardOpenRequest) (conn : Connection) : List UInt8 :=
  putUint32 req.otConnectionID ++ putUint32 conn.toConnectionID ++
    putUint16 req.connectionSerialNumber ++ putUint16 req.vendorID ++
    putUint32 req.originatorSerialNumber ++ putUint32 req.otRPI ++ putUint32 req.toRPI ++ [0, 0]

def handleForwardOpen (reqData : List UInt8) (cm : ConnectionManager) :
    Except (Fault Err) (List UInt8) × ConnectionManager :=
  match decode readForwardOpen reqData with
  | .error e => (.error (.error (.read e)), cm)
  | .ok req =>
    match cm.openConnection req with
    | (.error e, cm) => (.error (.error (.cip e)), cm)
    | (.ok conn, cm) => (.ok (forwardOpenResponse req conn), cm)

/-- Take the connection with the triad out of the table, if there is one. -/
def closeConnection (cm : ConnectionManager) (req : ForwardCloseRequest) :
    Option Connection × ConnectionManager :=
  match cm.connections.entries.find? fun e =>
      e.2.hasTriad req.connectionSerialNumber req.vendorID req.originatorSerialNumber with
  | none => (none, cm)
  | some e => (some e.2, { cm with connections := cm.connections.erase e.1 })

def forwardCloseResponse (req : ForwardCloseRequest) : List UInt8 :=
  putUint16 req.connectionSerialNumber ++ putUint16 req.vendorID ++
    putUint32 req.originatorSerialNumber ++ [0, 0]

/-- A request for a triad that is not in the table succeeds as well. -/
def handleForwardClose (reqData : List UInt8) (cm : ConnectionManager) :
    Except (Fault Err) (List UInt8) × ConnectionManager :=
  match decode readForwardClose reqData with
  | .error e => (.error (.error (.read e)), cm)
  | .ok req => (.ok (forwardCloseResponse req), (cm.closeConnection req).2)

def handleRequest : Object ConnectionManager := fun service _ data cm =>
  if service = serviceForwardOpen then handleForwardOpen data cm
  else if service = serviceForwardClose then handleForwardClose data cm
  else (throwStatus statusServiceNotSupported, cm)

end ConnectionManager

/-! ### Triads -/

namespace ConnectionManager

/-- No two connections of the table have one triad. -/
def UniqueTriads (cm : ConnectionManager) : Prop :=
  cm.connections.entries.Pairwise fun e e' => ¬ e'.2.hasTriad e.2.connectionSerialNumber
    e.2.vendorID e.2.originatorSerialNumber

variable {cm : ConnectionManager}

theorem uniqueTriads_newConnectionManager : newConnectionManager.UniqueTriads := List.Pairwise.nil

theorem UniqueTriads.openConnection (h : cm.UniqueTriads) (req : ForwardOpenRequest) :
    (cm.openConnection req).2.UniqueTriads := by
  rw [ConnectionManager.openConnection]
  split_ifs with hany
  · exact h
  · -- The entry under the new identifier, if there is one, is replaced.
    have hsub : (cm.connections.entries.kerase (cm.nextConnID + 1)).Sublist
        cm.connections.entries := List.kerase_sublist _ _
    refine List.pairwise_cons.mpr ⟨fun e he htriad => hany ?_, h.sublist hsub⟩
    exact List.any_eq_true.mpr ⟨e, hsub.subset he, htriad⟩

theorem UniqueTriads.closeConnection (h : cm.UniqueTriads) (req : ForwardCloseRequest) :
    (cm.closeConnection req).2.UniqueTriads := by
  rw [ConnectionManager.closeConnection]
  split
  · exact h
  · exact h.sublist (List.kerase_sublist _ _)

/-- **Requests keep triads unique**, so that no connection is found in more than one way. -/
theorem UniqueTriads.handleRequest (h : cm.UniqueTriads) (service : UInt8)
    (path data : List UInt8) :
    (ConnectionManager.handleRequest service path data cm).2.UniqueTriads := by
  rw [ConnectionManager.handleRequest]
  split_ifs
  · rw [handleForwardOpen]
    split
    · exact h
    · rename_i req _
      have hopen := h.openConnection req
      split
      · rename_i hresult
        rwa [hresult] at hopen
      · rename_i hresult
        rwa [hresult] at hopen
  · rw [handleForwardClose]
    split
    · exact h
    · exact h.closeConnection _
  · exact h

end ConnectionManager

/-! ### A device with both -/

/-- The state of a device: its assemblies, its connections, and what its other objects keep. -/
structure Adapter (τ : Type) where
  assembly : AssemblyObject
  connMgr : ConnectionManager
  others : τ

def classAssembly : UInt16 := 0x04
def classConnectionMgr : UInt16 := 0x06

/-- The assembly object and the connection manager are registered with a router. -/
def registerAdapter {τ : Type} (router : Router (Adapter τ)) : Router (Adapter τ) :=
  (router.registerObject classAssembly fun service path data a =>
    let (result, assembly) := AssemblyObject.handleRequest service path data a.assembly
    (result, { a with assembly })).registerObject classConnectionMgr
      fun service path data a =>
        let (result, connMgr) := ConnectionManager.handleRequest service path data a.connMgr
        (result, { a with connMgr })

/-! ### No panics -/

namespace AssemblyObject

theorem safe_instanceSegment (path : List UInt8) :
    Safe (instanceSegment path) (fun _ => True) fun _ => True := by
  refine .ite (fun _ => trivial) fun hlen => ?_
  refine (safe_index (Nat.pos_of_ne_zero hlen)).bind fun segType _ => ?_
  refine .ite (fun _ => ?_) fun _ => .ite (fun _ => ?_) fun _ => trivial
  · refine .ite (fun _ => trivial) fun hlen => ?_
    refine (safe_index (Nat.not_lt.mp hlen)).bind fun _ _ => ?_
    exact (safe_sliceFrom (Nat.not_lt.mp hlen)).bind fun _ _ => trivial
  · refine .ite (fun _ => trivial) fun hlen => ?_
    refine (safe_uint16LEAt (Nat.not_lt.mp hlen)).bind fun _ _ => ?_
    exact (safe_sliceFrom (Nat.not_lt.mp hlen)).bind fun _ _ => trivial

theorem safe_attributeSegment (path : List UInt8) :
    Safe (attributeSegment path) (fun _ => True) fun _ => True := by
  refine .ite (fun hlen => ?_) fun _ => trivial
  refine (safe_index hlen).bind fun segType _ => ?_
  refine .ite (fun _ => ?_) fun _ => .ite (fun _ => ?_) fun _ => trivial
  · refine .ite (fun _ => trivial) fun hlen => ?_
    exact (safe_index (Nat.not_lt.mp hlen)).bind fun _ _ => trivial
  · refine .ite (fun _ => trivial) fun hlen => ?_
    exact (safe_uint16LEAt (Nat.not_lt.mp hlen)).imp (fun _ _ => trivial) fun _ => id

theorem safe_decodePath (path : List UInt8) :
    Safe (decodePath path) (fun _ => True) fun _ => True :=
  (safe_instanceSegment path).bind fun p _ => (safe_attributeSegment p.2).bind fun _ _ => trivial

theorem getAttributeSingle_ne_panic (ao : AssemblyObject) (instanceID : UInt32) (attrID : UInt16) :
    ao.getAttributeSingle instanceID attrID ≠ .error .panic := by
  rw [getAttributeSingle]
  split
  · nofun
  · split_ifs <;> nofun

theorem setAttributeSingle_ne_panic (ao : AssemblyObject) (instanceID : UInt32) (attrID : UInt16)
    (data : List UInt8) : (ao.setAttributeSingle instanceID attrID data).1 ≠ .error .panic := by
  rw [setAttributeSingle]
  split
  · nofun
  · split_ifs <;> nofun

theorem handleRequest_ne_panic (service : UInt8) (path data : List UInt8) (ao : AssemblyObject) :
    (handleRequest service path data ao).1 ≠ .error .panic := by
  have hpath := (safe_decodePath path).ne_panic
  rw [handleRequest]
  match decodePath path, hpath with
  | .error (.error e), _ => nofun
  | .ok (instanceID, attrID), _ =>
    dsimp only
    split_ifs
    · nofun
    · exact getAttributeSingle_ne_panic _ _ _
    · nofun
    · have hset := setAttributeSingle_ne_panic ao instanceID attrID data
      match (ao.setAttributeSingle instanceID attrID data).1, hset with
      | .ok _, _ | .error (.error _), _ => nofun
    · nofun

end AssemblyObject

theorem ConnectionManager.handleRequest_ne_panic (service : UInt8) (path data : List UInt8)
    (cm : ConnectionManager) : (handleRequest service path data cm).1 ≠ .error .panic := by
  rw [handleRequest]
  split_ifs
  · rw [handleForwardOpen]
    split
    · nofun
    · split <;> nofun
  · rw [handleForwardClose]
    split <;> nofun
  · nofun

/-- **Neither object panics.** -/
theorem safe_registerAdapter {τ : Type} {router : Router (Adapter τ)} (h : router.Safe) :
    (registerAdapter router).Safe :=
  (h.registerObject (fun _ _ _ a => AssemblyObject.handleRequest_ne_panic _ _ _ a.assembly)
    _).registerObject (fun _ _ _ a => ConnectionManager.handleRequest_ne_panic _ _ _ a.connMgr) _

end GoIndustrial.EtherNetIP
