import GoIndustrial.EtherNetIP.Canonical
import GoIndustrial.EtherNetIP.Objects

/-!
# Explicit access to assemblies

A request for an attribute goes through four places that agree on its path: `BuildPath` writes the
class, the instance and the attribute, each with 8 or 16 bits; the request is encoded and decoded;
the router takes the class off and looks up the object; and the object reads the instance and the
attribute from what is left. Together they reach the object, the instance and the attribute that
were named, for all numbers. For the assembly object it follows that what was set is what is got,
and that nothing else is touched.

## Main definitions

* `EtherNetIP.buildPath` : the path to an attribute.
* `EtherNetIP.Router.send` : a request on its way to an object.
* `EtherNetIP.Adapter.assemblyObject` : the assembly object of a device.

## Main results

* `EtherNetIP.Router.send_buildPath` : the object that a request reaches.
* `EtherNetIP.AssemblyObject.decodePath_attributePath` : the instance and the attribute in its path.
* `EtherNetIP.assembly_access` : reading and writing assemblies.
-/

namespace GoIndustrial.EtherNetIP

open GoSlice LittleEndian ByteReader

/-! ### Paths -/

def addAttribute (path : List UInt8) (attributeID : UInt16) : List UInt8 :=
  path ++ logicalSegment 0x10 attributeID

/-- There is no attribute segment for attribute 0. -/
def buildPath (classID instanceID attributeID : UInt16) : List UInt8 :=
  let p := addInstance (addClass [] classID) instanceID
  if attributeID ≠ 0 then addAttribute p attributeID else p

/-- What is left of a path behind its class. -/
def attributePath (instanceID attributeID : UInt16) : List UInt8 :=
  addAttribute (addInstance [] instanceID) attributeID

theorem buildPath_eq (classID instanceID : UInt16) {attributeID : UInt16} (h : attributeID ≠ 0) :
    buildPath classID instanceID attributeID =
      logicalSegment 0x00 classID ++ attributePath instanceID attributeID := by
  simp only [buildPath, if_pos h, attributePath, addAttribute, addInstance, addClass,
    List.nil_append, List.append_assoc]

theorem length_logicalSegment (logicalType : UInt8) (id : UInt16) :
    (logicalSegment logicalType id).length = 2 ∨ (logicalSegment logicalType id).length = 4 := by
  rw [logicalSegment]
  split_ifs
  · exact .inl rfl
  · exact .inr rfl

/-! ### Segments -/

theorem toUInt16_toUInt8 {id : UInt16} (h : id ≤ 0xFF) : id.toUInt8.toUInt16 = id := by
  apply UInt16.toNat_inj.mp
  rw [UInt8.toNat_toUInt16, UInt16.toNat_toUInt8]
  exact Nat.mod_eq_of_lt (Nat.lt_succ_of_le (UInt16.le_iff_toNat_le.mp h))

theorem toUInt32_toUInt8 {id : UInt16} (h : id ≤ 0xFF) : id.toUInt8.toUInt32 = id.toUInt32 := by
  rw [← UInt8.toUInt32_toUInt16, toUInt16_toUInt8 h]

/-- The router finds the class. -/
theorem target_logicalSegment (classID : UInt16) (rest : List UInt8) :
    target (logicalSegment 0x00 classID ++ rest) = .ok (.object classID rest) := by
  rw [logicalSegment]
  split_ifs with h
  · have htarget : target (0x20 :: classID.toUInt8 :: rest) =
        .ok (.object classID.toUInt8.toUInt16 rest) := rfl
    rwa [toUInt16_toUInt8 h] at htarget
  · have htarget : target (0x21 :: 0x00 :: (putUint16 classID ++ rest)) =
        .ok (.object (LittleEndian.uint16 (putUint16 classID)) rest) := rfl
    rwa [uint16_putUint16] at htarget

/-- The assembly object finds the instance. -/
theorem AssemblyObject.instanceSegment_logicalSegment (instanceID : UInt16) (rest : List UInt8) :
    instanceSegment (logicalSegment 0x04 instanceID ++ rest) = .ok (instanceID.toUInt32, rest) := by
  rw [logicalSegment]
  split_ifs with h
  · have hsegment : instanceSegment (0x24 :: instanceID.toUInt8 :: rest) =
        .ok (instanceID.toUInt8.toUInt32, rest) := rfl
    rwa [toUInt32_toUInt8 h] at hsegment
  · have hsegment : instanceSegment (0x25 :: 0x00 :: (putUint16 instanceID ++ rest)) =
        .ok ((LittleEndian.uint16 (putUint16 instanceID)).toUInt32, rest) := rfl
    rwa [uint16_putUint16] at hsegment

/-- The assembly object finds the attribute. -/
theorem AssemblyObject.attributeSegment_logicalSegment (attributeID : UInt16) :
    attributeSegment (logicalSegment 0x10 attributeID) = .ok attributeID := by
  rw [logicalSegment]
  split_ifs with h
  · have hsegment : attributeSegment [0x30, attributeID.toUInt8] =
        .ok attributeID.toUInt8.toUInt16 := rfl
    rwa [toUInt16_toUInt8 h] at hsegment
  · have hsegment : attributeSegment (0x31 :: 0x00 :: putUint16 attributeID) =
        .ok (LittleEndian.uint16 (putUint16 attributeID)) := rfl
    rwa [uint16_putUint16] at hsegment

theorem AssemblyObject.decodePath_attributePath (instanceID attributeID : UInt16) :
    decodePath (attributePath instanceID attributeID) =
      .ok (instanceID.toUInt32, attributeID) := by
  rw [decodePath, attributePath, addAttribute, addInstance, List.nil_append,
    instanceSegment_logicalSegment]
  change (attributeSegment (logicalSegment 0x10 attributeID) >>= _) = _
  rw [attributeSegment_logicalSegment]
  rfl

/-! ### Requests on their way -/

/-- A request is encoded, decoded on the other side, and dispatched. -/
def Router.send {σ : Type} (router : Router σ) (req : MessageRouterRequest) (s : σ) :
    Except (Fault Err) MessageRouterResponse × σ :=
  match decodeMessageRouterRequest req.encode with
  | .error e => (.error (.error (.read e)), s)
  | .ok req => router.dispatch req s

/-- The request for an attribute. -/
def attributeRequest (service : UInt8) (classID instanceID attributeID : UInt16)
    (data : List UInt8) : MessageRouterRequest :=
  ⟨service, buildPath classID instanceID attributeID, data⟩

theorem wellFormed_attributeRequest (service : UInt8) (classID instanceID : UInt16)
    {attributeID : UInt16} (h : attributeID ≠ 0) (data : List UInt8) :
    (attributeRequest service classID instanceID attributeID data).WellFormed := by
  have hclass := length_logicalSegment 0x00 classID
  have hinstance := length_logicalSegment 0x04 instanceID
  have hattribute := length_logicalSegment 0x10 attributeID
  have hlen : (buildPath classID instanceID attributeID).length =
      (logicalSegment 0x00 classID).length + ((logicalSegment 0x04 instanceID).length +
        (logicalSegment 0x10 attributeID).length) := by
    simp only [buildPath_eq _ _ h, attributePath, addAttribute, addInstance, List.nil_append,
      List.length_append]
  refine ⟨?_, ?_, fun hnil => ?_⟩
  · rw [attributeRequest, hlen]
    omega
  · rw [attributeRequest, hlen]
    omega
  · have hempty := congrArg List.length (List.append_eq_nil_iff.mp hnil).1
    rw [attributeRequest, hlen, List.length_nil] at hempty
    omega

/-- **The object that a request reaches** is the one of its class, and it is called with the path
behind the class. -/
theorem Router.send_buildPath {σ : Type} (router : Router σ) (service : UInt8)
    (classID instanceID : UInt16) {attributeID : UInt16} (h : attributeID ≠ 0)
    (data : List UInt8) (s : σ) :
    router.send (attributeRequest service classID instanceID attributeID data) s =
      match router.objects classID with
      | none => (.ok (statusResponse service statusObjectDoesNotExist []), s)
      | some obj =>
        let (result, s') := obj service (attributePath instanceID attributeID) data s
        (respond service result, s') := by
  rw [send, decodeMessageRouterRequest_encode (wellFormed_attributeRequest _ _ _ h _)]
  dsimp only
  rw [dispatch, attributeRequest, buildPath_eq _ _ h, target_logicalSegment]
  rfl

/-! ### Assemblies -/

/-- The assembly object as an object of a device. -/
def Adapter.assemblyObject {τ : Type} : Object (Adapter τ) := fun service path data a =>
  let (result, assembly) := AssemblyObject.handleRequest service path data a.assembly
  (result, { a with assembly })

theorem objects_registerAdapter {τ : Type} (router : Router (Adapter τ)) :
    (registerAdapter router).objects classAssembly = some Adapter.assemblyObject := rfl

namespace AssemblyObject

variable (ao : AssemblyObject) (instanceID attributeID : UInt16)

theorem handleRequest_get (h : attributeID ≠ 0) (data : List UInt8) :
    handleRequest serviceGetAttributeSingle (attributePath instanceID attributeID) data ao =
      (ao.getAttributeSingle instanceID.toUInt32 attributeID, ao) := by
  rw [handleRequest, decodePath_attributePath]
  dsimp only
  rw [if_pos rfl, if_neg h]

theorem handleRequest_set (h : attributeID ≠ 0) (data : List UInt8) :
    handleRequest serviceSetAttributeSingle (attributePath instanceID attributeID) data ao =
      ((ao.setAttributeSingle instanceID.toUInt32 attributeID data).1.map fun _ => [],
        (ao.setAttributeSingle instanceID.toUInt32 attributeID data).2) := by
  rw [handleRequest, decodePath_attributePath]
  dsimp only
  rw [if_neg (by decide), if_pos rfl, if_neg h]

/-- What `setAttributeSingle` does: it fails and changes nothing, or it replaces the buffer of the
instance by one of the same length. -/
inductive SetSpec (ao : AssemblyObject) (instanceID : UInt32) (attrID : UInt16)
    (data : List UInt8) : Except (Fault Err) Unit × AssemblyObject → Prop
  | failed (e : CipError) (he : e.status ≠ 0) :
    SetSpec ao instanceID attrID data (.error (.error (.cip e)), ao)
  | done (old : List UInt8) (hold : ao.instances instanceID = some old) (hattr : attrID = 3)
      (hlen : data.length = old.length) :
    SetSpec ao instanceID attrID data
      (.ok (), ⟨Function.update ao.instances instanceID (some data)⟩)

theorem setAttributeSingle_spec (ao : AssemblyObject) (instanceID : UInt32) (attrID : UInt16)
    (data : List UInt8) :
    SetSpec ao instanceID attrID data (ao.setAttributeSingle instanceID attrID data) := by
  rw [setAttributeSingle]
  split
  · exact .failed _ (by decide)
  · rename_i old hold
    split_ifs with hattr hlen
    · exact .failed _ (by decide)
    · exact .done old hold hattr (not_not.mp hlen)
    · exact .failed _ (by decide)

end AssemblyObject

namespace Adapter

variable {τ : Type} {router : Router (Adapter τ)} {classID : UInt16}

theorem send_get (hrouter : router.objects classID = some assemblyObject) (instanceID : UInt16)
    {attributeID : UInt16} (h : attributeID ≠ 0) (data : List UInt8) (a : Adapter τ) :
    router.send (attributeRequest serviceGetAttributeSingle classID instanceID attributeID data) a =
      (respond serviceGetAttributeSingle
        (a.assembly.getAttributeSingle instanceID.toUInt32 attributeID), a) := by
  rw [router.send_buildPath _ _ _ h, hrouter]
  dsimp only
  rw [assemblyObject, AssemblyObject.handleRequest_get _ _ _ h]

theorem send_set (hrouter : router.objects classID = some assemblyObject) (instanceID : UInt16)
    {attributeID : UInt16} (h : attributeID ≠ 0) (data : List UInt8) (a : Adapter τ) :
    router.send (attributeRequest serviceSetAttributeSingle classID instanceID attributeID data) a =
      (respond serviceSetAttributeSingle
        ((a.assembly.setAttributeSingle instanceID.toUInt32 attributeID data).1.map fun _ => []),
        { a with assembly :=
          (a.assembly.setAttributeSingle instanceID.toUInt32 attributeID data).2 }) := by
  rw [router.send_buildPath _ _ _ h, hrouter]
  dsimp only
  rw [assemblyObject, AssemblyObject.handleRequest_set _ _ _ h]

/-- After a Set that is answered with success, a Get is answered with the data that was written. -/
theorem send_get_of_set (hrouter : router.objects classID = some assemblyObject)
    {instanceID attributeID : UInt16} (h : attributeID ≠ 0) {data : List UInt8} {a a' : Adapter τ}
    {resp : MessageRouterResponse}
    (hset : router.send (attributeRequest serviceSetAttributeSingle classID instanceID attributeID
      data) a = (.ok resp, a')) (hresp : resp.isSuccess) (data' : List UInt8) :
    router.send (attributeRequest serviceGetAttributeSingle classID instanceID attributeID data')
      a' = (.ok { statusResponse serviceGetAttributeSingle 0 [] with responseData := data },
        a') := by
  rw [send_set hrouter _ h] at hset
  rw [send_get hrouter _ h]
  have hspec := a.assembly.setAttributeSingle_spec instanceID.toUInt32 attributeID data
  generalize a.assembly.setAttributeSingle instanceID.toUInt32 attributeID data = result
    at hset hspec
  obtain ⟨hrespond, rfl⟩ := Prod.mk.inj hset
  cases hspec with
  | failed e he =>
    obtain rfl := Except.ok.inj hrespond
    exact absurd (beq_iff_eq.mp hresp) he
  | done old hold hattr hlen =>
    simp only [AssemblyObject.getAttributeSingle, Function.update_self, if_pos hattr, respond]

/-- A Set leaves all other instances as they are, and keeps the length of every instance. -/
theorem send_set_frame (hrouter : router.objects classID = some assemblyObject)
    (instanceID : UInt16) {attributeID : UInt16} (h : attributeID ≠ 0) (data : List UInt8)
    (a : Adapter τ) :
    let a' := (router.send (attributeRequest serviceSetAttributeSingle classID instanceID
      attributeID data) a).2
    a' = { a with assembly := a'.assembly } ∧
      (∀ id, id ≠ instanceID.toUInt32 → a'.assembly.instances id = a.assembly.instances id) ∧
      ∀ id, (a'.assembly.instances id).map List.length =
        (a.assembly.instances id).map List.length := by
  rw [send_set hrouter _ h]
  have hspec := a.assembly.setAttributeSingle_spec instanceID.toUInt32 attributeID data
  generalize a.assembly.setAttributeSingle instanceID.toUInt32 attributeID data = result at hspec
  cases hspec with
  | failed => exact ⟨rfl, fun _ _ => rfl, fun _ => rfl⟩
  | done old hold _ hlen =>
    refine ⟨rfl, fun id hid => Function.update_of_ne hid _ _, fun id => ?_⟩
    by_cases hid : id = instanceID.toUInt32
    · subst hid
      simp only [Function.update_self, hold, Option.map_some, hlen]
    · exact congrArg _ (Function.update_of_ne hid _ _)

end Adapter

/-- **Explicit access to assemblies.** A request for an attribute other than 0 reaches the object of
its class, with a path that names exactly its instance and attribute. If that is the assembly
object, a Get after a successful Set returns the bytes that were written, and no Set, successful or
not, touches another instance or changes the length of one. -/
theorem assembly_access {τ : Type} (router : Router (Adapter τ))
    (classID instanceID attributeID : UInt16) (h : attributeID ≠ 0) (data : List UInt8)
    (a : Adapter τ) :
    (∀ service obj, router.objects classID = some obj →
      router.send (attributeRequest service classID instanceID attributeID data) a =
        (respond service (obj service (attributePath instanceID attributeID) data a).1,
          (obj service (attributePath instanceID attributeID) data a).2)) ∧
    AssemblyObject.decodePath (attributePath instanceID attributeID) =
      .ok (instanceID.toUInt32, attributeID) ∧
    (router.objects classID = some Adapter.assemblyObject →
      (∀ resp a' data',
        router.send (attributeRequest serviceSetAttributeSingle classID instanceID attributeID
          data) a = (.ok resp, a') → resp.isSuccess →
        router.send (attributeRequest serviceGetAttributeSingle classID instanceID attributeID
          data') a' =
            (.ok { statusResponse serviceGetAttributeSingle 0 [] with responseData := data },
              a')) ∧
      let a' := (router.send (attributeRequest serviceSetAttributeSingle classID instanceID
        attributeID data) a).2
      a' = { a with assembly := a'.assembly } ∧
        (∀ id, id ≠ instanceID.toUInt32 → a'.assembly.instances id = a.assembly.instances id) ∧
        ∀ id, (a'.assembly.instances id).map List.length =
          (a.assembly.instances id).map List.length) := by
  refine ⟨fun service obj hobj => ?_, AssemblyObject.decodePath_attributePath _ _,
    fun hrouter => ⟨fun resp a' data' hset hresp => ?_, ?_⟩⟩
  · rw [router.send_buildPath _ _ _ h, hobj]
  · exact Adapter.send_get_of_set hrouter h hset hresp data'
  · exact Adapter.send_set_frame hrouter instanceID h data a

/-- A device with an assembly whose number has 8 bits, and one whose number has 16. -/
def twoAssemblies : Adapter Unit where
  assembly := ⟨fun id => if id = 100 then some [0, 0] else if id = 300 then some [7] else none⟩
  connMgr := .newConnectionManager
  others := ()

theorem assembly_access_twoAssemblies :
    let router := registerAdapter (newMessageRouter (σ := Adapter Unit))
    let a' := (router.send (attributeRequest serviceSetAttributeSingle classAssembly 300 3 [9])
      twoAssemblies).2
    router.send (attributeRequest serviceGetAttributeSingle classAssembly 300 3 []) a' =
        (.ok { statusResponse serviceGetAttributeSingle 0 [] with responseData := [9] }, a') ∧
      a'.assembly.instances 100 = some [0, 0] := by
  have haccess := (assembly_access (registerAdapter newMessageRouter) classAssembly 300 3
    (by decide) [9] twoAssemblies).2.2 (objects_registerAdapter _)
  exact ⟨haccess.1 _ _ [] rfl rfl, haccess.2.2.1 100 (by decide)⟩

end GoIndustrial.EtherNetIP
