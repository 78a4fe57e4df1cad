import GoIndustrial.EtherNetIP.ConnTable
import GoIndustrial.EtherNetIP.Implicit
import GoIndustrial.EtherNetIP.Session

/-!
# Opening a cyclic connection

`IOScanner.Open` of `protocol/ethernetip/io.go` turns a configuration into a Forward_Open request,
which the connection manager of the adapter reads field by field. Between the two, the sizes go into
the low nine bits of the network connection parameters, next to the flags; the interval is cut to
whole microseconds and to 32 bits; and the length of the path is counted in words, in one byte. None
of this is checked when the request is made. What the manager reads therefore agrees with the
configuration exactly when every part of it fits into its field, and a configuration that does not
fit is opened all the same, except for one: a path of the caller's own without any bytes, which the
manager cannot read.

## Main definitions

* `EtherNetIP.IOConnectionConfig`, `EtherNetIP.Originator`, `EtherNetIP.Originator.openConn`.
* `EtherNetIP.Originator.Agrees` : what a request says is what the configuration says.
* `EtherNetIP.Originator.Negotiated` : whatever adapter accepts the connection has read a request
  that agrees with the configuration.

## Main results

* `EtherNetIP.decode_encode_forwardOpen` : what the manager reads.
* `EtherNetIP.Originator.negotiated_iff` : the configurations that are negotiated.
-/

namespace GoIndustrial.EtherNetIP

open GoSlice ByteReader LittleEndian

/-! ### The scanner -/

def addConnectionPoint (path : List UInt8) (pointID : UInt16) : List UInt8 :=
  path ++ logicalSegment 0x0C pointID

structure IOConnectionConfig where
  otConnectionPoint : UInt16
  toConnectionPoint : UInt16
  configInstance : UInt16
  otSize : UInt16
  toSize : UInt16
  /-- In nanoseconds. -/
  rpi : ℤ
  timeoutMultiplier : UInt8
  runIdleHeader : Bool
  targetAddr : Option UDPAddr
  /-- Replaces the path that is made from the connection points. -/
  connectionPath : Option (List UInt8)
  deriving DecidableEq, Repr

/-- The path of the request. -/
def IOConnectionConfig.connPath (cfg : IOConnectionConfig) : List UInt8 :=
  match cfg.connectionPath with
  | some path => path
  | none =>
    let path := addClass [] classAssembly
    let path := addInstance path (if cfg.configInstance > 0 then cfg.configInstance else 1)
    addConnectionPoint (addConnectionPoint path cfg.otConnectionPoint) cfg.toConnectionPoint

def connParamFixedSize : UInt16 := 0x0000
def connParamVariableSize : UInt16 := 0x0200
def connParamPointToPoint : UInt16 := 0x4000
def connParamMulticast : UInt16 := 0x2000

def connectionSizeFromParams (params : UInt16) : UInt16 := params &&& 0x01FF

/-- A scanner with what it needs to open connections. -/
structure Originator extends IOScanner where
  vendorID : UInt16
  originatorSN : UInt32
  nextOTID : UInt32
  nextSerial : UInt32

/-- Why a connection is not opened. -/
inductive OpenErr
  /-- `Forward_Open send: %w`. -/
  | send (e : SessionErr)
  /-- `Forward_Open failed: general status 0x%02X`, with the first extended status if there is
  one. -/
  | failed (generalStatus : UInt8) (extStatus : Option UInt16)
  /-- `Forward_Open response too short: %d bytes`. -/
  | short (length : ℕ)
  /-- `cannot resolve target UDP address`. -/
  | target
  deriving DecidableEq, Repr

namespace Originator

def newIOScanner (vendorID : UInt16) (originatorSN : UInt32) : Originator :=
  ⟨⟨fun _ => none⟩, vendorID, originatorSN, 0, 0⟩

def forwardOpenRequest (s : Originator) (cfg : IOConnectionConfig) : ForwardOpenRequest where
  priorityTimeTick := 0x0A
  timeoutTicks := 0xF0
  otConnectionID := s.nextOTID + 1
  toConnectionID := 0
  connectionSerialNumber := (s.nextSerial + 1).toUInt16
  vendorID := s.vendorID
  originatorSerialNumber := s.originatorSN
  connectionTimeoutMultiplier := cfg.timeoutMultiplier
  reserved := Vector.replicate 3 0
  -- Go divides towards zero and keeps the low 32 bits.
  otRPI := UInt32.ofNat (cfg.rpi.tdiv 1000 % 2 ^ 32).toNat
  otNetworkConnectionParams := connParamPointToPoint ||| connParamFixedSize ||| cfg.otSize
  toRPI := UInt32.ofNat (cfg.rpi.tdiv 1000 % 2 ^ 32).toNat
  toNetworkConnectionParams := connParamPointToPoint ||| connParamFixedSize ||| cfg.toSize
  transportTypeTrigger := 0x01
  connectionPathSize := 0
  connectionPath := cfg.connPath

def forwardOpenMessage (s : Originator) (cfg : IOConnectionConfig) : MessageRouterRequest where
  service := serviceForwardOpen
  requestPath := addInstance (addClass [] classConnectionMgr) 1
  requestData := (s.forwardOpenRequest cfg).encode

/-- The connection that the response describes. The peer of the TCP session, with port 2222, stands
in for a target address that is not configured. -/
def acceptResponse (s : Originator) (cfg : IOConnectionConfig) (sessionAddr : Option UDPAddr)
    (resp : MessageRouterResponse) (now : ℤ) : Except (Fault OpenErr) IOConn :=
  if !resp.isSuccess then .error (.error (.failed resp.generalStatus resp.extStatus.head?))
  else if resp.responseData.length < 26 then
    .error (.error (.short resp.responseData.length))
  else do
    let toConnID ← uint32LEAt resp.responseData 4
    let api ← uint32LEAt resp.responseData 16
    let otAPI := if api = 0 then cfg.rpi else api.toNat * 1000
    match cfg.targetAddr <|> sessionAddr with
    | none => .error (.error .target)
    | some remoteAddr =>
      return ⟨s.nextOTID + 1, toConnID, (s.nextSerial + 1).toUInt16, s.vendorID, s.originatorSN,
        List.replicate cfg.otSize.toNat 0, List.replicate cfg.toSize.toNat 0, otAPI, 0, now,
        cfg.timeoutMultiplier, cfg.runIdleHeader, remoteAddr⟩

/-- `IOScanner.Open`; `send` is the exchange of a request and a response over the session. Both
counters go on even when the connection is not opened. -/
def openConn (s : Originator)
    (send : MessageRouterRequest → Except SessionErr MessageRouterResponse)
    (sessionAddr : Option UDPAddr) (cfg : IOConnectionConfig) (now : ℤ) :
    Except (Fault OpenErr) IOConn × Originator :=
  let s' := { s with nextOTID := s.nextOTID + 1, nextSerial := s.nextSerial + 1 }
  match send (s.forwardOpenMessage cfg) with
  | .error e => (.error (.error (.send e)), s')
  | .ok resp =>
    match s.acceptResponse cfg sessionAddr resp now with
    | .error e => (.error e, s')
    | .ok conn =>
      (.ok conn, { s' with
        connections := Function.update s.connections conn.toConnectionID (some conn) })

end Originator

/-! ### What the manager reads -/

/-- The number of bytes of the path that the length byte stands for. -/
def countedLength (path : List UInt8) : ℕ := path.length / 2 % 256 * 2

theorem countedLength_le (path : List UInt8) : countedLength path ≤ path.length := by
  rw [countedLength]
  omega

/-- **What the manager reads**: all fields as they were written, and of the path the bytes that its
length byte stands for. Without a path there is nothing to read. -/
theorem decode_encode_forwardOpen (r : ForwardOpenRequest) :
    decode readForwardOpen r.encode =
      if r.connectionPath = [] then .error .eof
      else .ok { r with
        connectionPathSize := UInt8.ofNat (r.connectionPath.length / 2)
        connectionPath := r.connectionPath.take (countedLength r.connectionPath) } := by
  have hcounted : (UInt8.ofNat (r.connectionPath.length / 2)).toNat * 2 =
      countedLength r.connectionPath := by
    rw [UInt8.toNat_ofNat', countedLength]
  rw [decode, readForwardOpen, ForwardOpenRequest.encode,
    (consumes_uint8 _).bind_apply, (consumes_uint8 _).bind_apply, (consumes_uint32 _).bind_apply,
    (consumes_uint32 _).bind_apply, (consumes_uint16 _).bind_apply,
    (consumes_uint16 _).bind_apply, (consumes_uint32 _).bind_apply, (consumes_uint8 _).bind_apply,
    (consumes_readArray _).bind_apply, (consumes_uint32 _).bind_apply,
    (consumes_uint16 _).bind_apply, (consumes_uint32 _).bind_apply,
    (consumes_uint16 _).bind_apply, (consumes_uint8 _).bind_apply, (consumes_uint8 _).bind_apply,
    hcounted]
  split_ifs with hpath
  · rw [hpath]
    rfl
  · rw [bind_apply (read_of_le hpath (countedLength_le _))]
    rfl

/-- The whole path is read when it has whole words that its length byte can count. -/
theorem take_countedLength_eq_self {path : List UInt8} :
    path.take (countedLength path) = path ↔ path.length % 2 = 0 ∧ path.length < 512 := by
  rw [List.take_eq_self_iff, countedLength]
  omega

/-! ### The fields of a request -/

/-- The size is read back when it has no more than nine bits. -/
theorem connectionSizeFromParams_eq_iff {size : UInt16} :
    connectionSizeFromParams (connParamPointToPoint ||| connParamFixedSize ||| size) = size ↔
      size.toNat < 512 := by
  constructor
  · intro h
    rw [← h, connectionSizeFromParams, UInt16.toNat_and]
    exact Nat.lt_of_le_of_lt Nat.and_le_right (by decide)
  · intro h
    have hall : ∀ i : Fin 512, connectionSizeFromParams
        (connParamPointToPoint ||| connParamFixedSize ||| UInt16.ofNat i) = UInt16.ofNat i := by
      decide +kernel
    have hi := hall ⟨size.toNat, h⟩
    rwa [UInt16.ofNat_toNat] at hi

/-- The bits for the type of the connection and for a variable size. -/
def connParamFlags : UInt16 :=
  connParamPointToPoint ||| connParamMulticast ||| connParamVariableSize

/-- A size of nine bits does not touch the flags. -/
theorem flags_of_lt {size : UInt16} (h : size.toNat < 512) :
    (connParamPointToPoint ||| connParamFixedSize ||| size) &&& connParamFlags =
      connParamPointToPoint ||| connParamFixedSize := by
  have hall : ∀ i : Fin 512,
      (connParamPointToPoint ||| connParamFixedSize ||| UInt16.ofNat i) &&& connParamFlags =
        connParamPointToPoint ||| connParamFixedSize := by
    decide +kernel
  have hi := hall ⟨size.toNat, h⟩
  rwa [UInt16.ofNat_toNat] at hi

/-- The interval is read back when it has whole microseconds, and no more than 32 bits of them. -/
theorem rpiMicros_eq_iff {rpi : ℤ} :
    ((UInt32.ofNat (rpi.tdiv 1000 % 2 ^ 32).toNat).toNat : ℤ) * 1000 = rpi ↔
      0 ≤ rpi ∧ rpi < 1000 * 2 ^ 32 ∧ rpi % 1000 = 0 := by
  have hlt : (rpi.tdiv 1000 % 2 ^ 32).toNat < 2 ^ 32 := by omega
  rw [UInt32.toNat_ofNat', Nat.mod_eq_of_lt hlt]
  by_cases hneg : rpi < 0
  · omega
  · rw [Int.tdiv_eq_ediv_of_nonneg (Int.not_lt.mp hneg)]
    omega

/-! ### Agreement -/

/-- Every part of the configuration fits into its field of the request. -/
structure IOConnectionConfig.Representable (cfg : IOConnectionConfig) : Prop where
  otSize : cfg.otSize.toNat < 512
  toSize : cfg.toSize.toNat < 512
  rpi : 0 ≤ cfg.rpi ∧ cfg.rpi < 1000 * 2 ^ 32 ∧ cfg.rpi % 1000 = 0
  path : cfg.connPath.length % 2 = 0 ∧ cfg.connPath.length < 512

/-- The session hands requests to a device and brings its responses back. -/
def Router.Transparent {σ : Type} (router : Router σ) (device : σ)
    (send : MessageRouterRequest → Except SessionErr MessageRouterResponse) : Prop :=
  ∀ req resp, (router.dispatch req device).1 = .ok resp → send req = .ok resp

/-- The request says what the configuration and the connection of the scanner say. -/
structure Agrees (cfg : IOConnectionConfig) (conn : IOConn) (req : ForwardOpenRequest) : Prop where
  otSize : connectionSizeFromParams req.otNetworkConnectionParams = cfg.otSize
  toSize : connectionSizeFromParams req.toNetworkConnectionParams = cfg.toSize
  otFlags : req.otNetworkConnectionParams &&& connParamFlags =
    connParamPointToPoint ||| connParamFixedSize
  toFlags : req.toNetworkConnectionParams &&& connParamFlags =
    connParamPointToPoint ||| connParamFixedSize
  otRPI : (req.otRPI.toNat : ℤ) * 1000 = cfg.rpi
  toRPI : (req.toRPI.toNat : ℤ) * 1000 = cfg.rpi
  serial : req.connectionSerialNumber = conn.connectionSerialNumber
  vendor : req.vendorID = conn.vendorID
  originator : req.originatorSerialNumber = conn.originatorSerialNumber
  multiplier : req.connectionTimeoutMultiplier = cfg.timeoutMultiplier
  path : req.connectionPath = cfg.connPath

namespace Originator

variable {s s' : Originator} {cfg : IOConnectionConfig} {conn : IOConn}

/-- Whatever adapter accepts the connection has read a request that agrees with the
configuration. -/
def Negotiated (s : Originator) (cfg : IOConnectionConfig) : Prop :=
  ∀ (τ : Type) (router : Router (Adapter τ)) (device : Adapter τ)
    (send : MessageRouterRequest → Except SessionErr MessageRouterResponse),
    (registerAdapter router).Transparent device send →
    ∀ sessionAddr now conn s', s.openConn send sessionAddr cfg now = (.ok conn, s') →
      ∃ req, decode readForwardOpen (s.forwardOpenRequest cfg).encode = .ok req ∧
        Agrees cfg conn req

/-- The message goes to the connection manager. -/
theorem dispatch_forwardOpenMessage {τ : Type} (router : Router (Adapter τ)) (device : Adapter τ)
    (s : Originator) (cfg : IOConnectionConfig) :
    ((registerAdapter router).dispatch (s.forwardOpenMessage cfg) device).1 =
      respond serviceForwardOpen
        (device.connMgr.handleForwardOpen (s.forwardOpenRequest cfg).encode).1 := by
  have htarget : target (s.forwardOpenMessage cfg).requestPath =
      .ok (.object classConnectionMgr [0x24, 0x01]) := by
    rfl
  have hservice (data : List UInt8) (cm : ConnectionManager) :
      ConnectionManager.handleRequest serviceForwardOpen [0x24, 0x01] data cm =
        cm.handleForwardOpen data := if_pos rfl
  rw [Router.dispatch, htarget, registerAdapter, Router.registerObject]
  simp only [Function.update_self, Router.call, forwardOpenMessage, hservice]

section

variable {send : MessageRouterRequest → Except SessionErr MessageRouterResponse}
  {sessionAddr : Option UDPAddr} {now : ℤ}

theorem openConn_eq_ok (h : s.openConn send sessionAddr cfg now = (.ok conn, s')) :
    ∃ resp, send (s.forwardOpenMessage cfg) = .ok resp ∧
      s.acceptResponse cfg sessionAddr resp now = .ok conn := by
  rw [openConn] at h
  match hsent : send (s.forwardOpenMessage cfg) with
  | .error e =>
    rw [hsent] at h
    cases h
  | .ok resp =>
    refine ⟨resp, rfl, ?_⟩
    rw [hsent] at h
    match haccept : s.acceptResponse cfg sessionAddr resp now with
    | .error e =>
      simp only [haccept] at h
      cases h
    | .ok conn' =>
      simp only [haccept] at h
      cases h
      rfl

/-- A connection has the numbers of the scanner, and its input is cleared. -/
theorem acceptResponse_eq_ok {resp : MessageRouterResponse}
    (h : s.acceptResponse cfg sessionAddr resp now = .ok conn) :
    resp.isSuccess = true ∧ conn.connectionSerialNumber = (s.nextSerial + 1).toUInt16 ∧
      conn.vendorID = s.vendorID ∧ conn.originatorSerialNumber = s.originatorSN ∧
      conn.inputData = List.replicate cfg.toSize.toNat 0 := by
  rw [acceptResponse] at h
  split_ifs at h with hsuccess hlen
  obtain ⟨toConnID, -, h⟩ := bind_eq_ok.mp h
  obtain ⟨api, -, h⟩ := bind_eq_ok.mp h
  match haddr : cfg.targetAddr <|> sessionAddr with
  | none =>
    simp only [haddr] at h
    cases h
  | some remoteAddr =>
    simp only [haddr] at h
    cases h
    exact ⟨by simpa using hsuccess, rfl, rfl, rfl, rfl⟩

theorem inputData_of_openConn (h : s.openConn send sessionAddr cfg now = (.ok conn, s')) :
    conn.inputData = List.replicate conn.inputData.length 0 := by
  obtain ⟨resp, -, haccept⟩ := openConn_eq_ok h
  obtain ⟨-, -, -, -, hinput⟩ := acceptResponse_eq_ok haccept
  rw [hinput, List.length_replicate]

/-- A success with all the fields is accepted. -/
theorem acceptResponse_of_success (s : Originator) (cfg : IOConnectionConfig)
    (addr : UDPAddr) (now : ℤ) (resp : MessageRouterResponse) (hsuccess : resp.isSuccess = true)
    (hlen : 26 ≤ resp.responseData.length) :
    ∃ conn, s.acceptResponse cfg (some addr) resp now = .ok conn := by
  rw [acceptResponse, if_neg (by simp [hsuccess]), if_neg (Nat.not_lt.mpr hlen),
    uint32LEAt_of_le (by omega), uint32LEAt_of_le (by omega)]
  match cfg.targetAddr with
  | none => exact ⟨_, rfl⟩
  | some _ => exact ⟨_, rfl⟩

/-- The manager has read the request for a connection that is opened. -/
theorem decode_of_openConn {τ : Type} {router : Router (Adapter τ)} {device : Adapter τ}
    (hsend : (registerAdapter router).Transparent device send)
    (h : s.openConn send sessionAddr cfg now = (.ok conn, s')) :
    ∃ req, decode readForwardOpen (s.forwardOpenRequest cfg).encode = .ok req := by
  obtain ⟨resp, hresp, haccept⟩ := openConn_eq_ok h
  match hdecode : decode readForwardOpen (s.forwardOpenRequest cfg).encode with
  | .ok req => exact ⟨req, rfl⟩
  | .error e =>
    have hrefused : ((registerAdapter router).dispatch (s.forwardOpenMessage cfg) device).1 =
        .ok (statusResponse serviceForwardOpen statusServiceNotSupported []) := by
      rw [dispatch_forwardOpenMessage, ConnectionManager.handleForwardOpen, hdecode]
      rfl
    have heq := (hsend _ _ hrefused).symm.trans hresp
    cases heq
    exact absurd (acceptResponse_eq_ok haccept).1 (by decide)

end

/-- What a session brings back from a device; an error of the router becomes an encapsulation
status. -/
def answer {σ : Type} (router : Router σ) (device : σ) (req : MessageRouterRequest) :
    Except SessionErr MessageRouterResponse :=
  match (router.dispatch req device).1 with
  | .ok resp => .ok resp
  | .error _ => .error (.rrDataStatus statusInvalidCommand)

theorem transparent_answer {σ : Type} (router : Router σ) (device : σ) :
    router.Transparent device (answer router device) := by
  intro req resp h
  rw [answer, h]

/-- A device without connections, and the address under which it is reached. -/
def newDevice : Adapter Unit := ⟨⟨fun _ => none⟩, .newConnectionManager, ()⟩

def deviceAddr : UDPAddr := ⟨[127, 0, 0, 1], 2222⟩

/-- A device without connections accepts every request that it can read. -/
theorem openConn_newDevice (s : Originator) (cfg : IOConnectionConfig) {req : ForwardOpenRequest}
    (hdecode : decode readForwardOpen (s.forwardOpenRequest cfg).encode = .ok req) :
    ∃ conn s', s.openConn (answer (registerAdapter newMessageRouter) newDevice)
      (some deviceAddr) cfg 0 = (.ok conn, s') := by
  have hopen : (newDevice.connMgr.handleForwardOpen (s.forwardOpenRequest cfg).encode).1 =
      .ok (ConnectionManager.forwardOpenResponse req (newDevice.connMgr.newConnection req)) := by
    rw [ConnectionManager.handleForwardOpen, hdecode]
    rfl
  generalize hdata : ConnectionManager.forwardOpenResponse req
    (newDevice.connMgr.newConnection req) = data at hopen
  have hlen : data.length = 26 := by
    rw [← hdata]
    rfl
  have hsend : answer (registerAdapter newMessageRouter) newDevice (s.forwardOpenMessage cfg) =
      .ok { statusResponse serviceForwardOpen 0 [] with responseData := data } := by
    rw [answer, dispatch_forwardOpenMessage, hopen]
    rfl
  obtain ⟨conn, hconn⟩ := s.acceptResponse_of_success cfg deviceAddr 0
    { statusResponse serviceForwardOpen 0 [] with responseData := data } rfl hlen.ge
  refine ⟨conn, _, Prod.ext ?_ rfl⟩
  rw [openConn, hsend]
  simp only [hconn]

/-- What the manager reads of the request of a configuration. -/
def received (s : Originator) (cfg : IOConnectionConfig) : ForwardOpenRequest :=
  { s.forwardOpenRequest cfg with
    connectionPathSize := UInt8.ofNat (cfg.connPath.length / 2)
    connectionPath := cfg.connPath.take (countedLength cfg.connPath) }

theorem decode_forwardOpenRequest {req : ForwardOpenRequest} :
    decode readForwardOpen (s.forwardOpenRequest cfg).encode = .ok req ↔
      cfg.connPath ≠ [] ∧ s.received cfg = req := by
  have hdecode : decode readForwardOpen (s.forwardOpenRequest cfg).encode =
      if cfg.connPath = [] then .error .eof else .ok (s.received cfg) :=
    decode_encode_forwardOpen _
  rw [hdecode]
  split_ifs with hpath
  · simp [hpath]
  · simp [hpath]

/-- What is read agrees with the configuration when every part of it fits. -/
theorem agrees_received_iff (hserial : conn.connectionSerialNumber = (s.nextSerial + 1).toUInt16)
    (hvendor : conn.vendorID = s.vendorID)
    (horiginator : conn.originatorSerialNumber = s.originatorSN) :
    Agrees cfg conn (s.received cfg) ↔ cfg.Representable := by
  constructor
  · intro h
    exact ⟨connectionSizeFromParams_eq_iff.mp h.otSize, connectionSizeFromParams_eq_iff.mp h.toSize,
      rpiMicros_eq_iff.mp h.otRPI, take_countedLength_eq_self.mp h.path⟩
  · intro h
    exact ⟨connectionSizeFromParams_eq_iff.mpr h.otSize,
      connectionSizeFromParams_eq_iff.mpr h.toSize, flags_of_lt h.otSize, flags_of_lt h.toSize,
      rpiMicros_eq_iff.mpr h.rpi, rpiMicros_eq_iff.mpr h.rpi, hserial.symm, hvendor.symm,
      horiginator.symm, rfl, take_countedLength_eq_self.mpr h.path⟩

/-- A device without connections opens the connection whenever there is a path. -/
theorem Negotiated.agrees (h : s.Negotiated cfg) (hpath : cfg.connPath ≠ []) :
    ∃ conn : IOConn, conn.connectionSerialNumber = (s.nextSerial + 1).toUInt16 ∧
      conn.vendorID = s.vendorID ∧ conn.originatorSerialNumber = s.originatorSN ∧
      Agrees cfg conn (s.received cfg) := by
  obtain ⟨conn, s', hopen⟩ :=
    s.openConn_newDevice cfg (decode_forwardOpenRequest.mpr ⟨hpath, rfl⟩)
  obtain ⟨req, hreq, hagrees⟩ := h Unit newMessageRouter newDevice _
    (transparent_answer _ _) _ _ _ _ hopen
  obtain ⟨-, rfl⟩ := decode_forwardOpenRequest.mp hreq
  obtain ⟨resp, -, haccept⟩ := openConn_eq_ok hopen
  obtain ⟨-, hserial, hvendor, horiginator, -⟩ := acceptResponse_eq_ok haccept
  exact ⟨conn, hserial, hvendor, horiginator, hagrees⟩

/-- **The configurations that are negotiated**: whatever adapter accepts the connection has read
what is configured exactly when both sizes have no more than nine bits, the interval is a number of
microseconds with no more than 32 bits, and the path has whole words that its length byte can count;
or when the path is empty, as no adapter can read the request then. -/
theorem negotiated_iff (s : Originator) (cfg : IOConnectionConfig) :
    s.Negotiated cfg ↔ cfg.connPath = [] ∨ cfg.Representable := by
  constructor
  · intro h
    by_cases hpath : cfg.connPath = []
    · exact .inl hpath
    · obtain ⟨conn, hserial, hvendor, horiginator, hagrees⟩ := h.agrees hpath
      exact .inr ((agrees_received_iff hserial hvendor horiginator).mp hagrees)
  · intro h τ router device send hsend sessionAddr now conn s' hopen
    obtain ⟨req, hreq⟩ := decode_of_openConn hsend hopen
    obtain ⟨hpath, rfl⟩ := decode_forwardOpenRequest.mp hreq
    obtain ⟨resp, -, haccept⟩ := openConn_eq_ok hopen
    obtain ⟨-, hserial, hvendor, horiginator, -⟩ := acceptResponse_eq_ok haccept
    have hrep := h.resolve_left hpath
    exact ⟨_, hreq, (agrees_received_iff hserial hvendor horiginator).mpr hrep⟩

/-- A connection for 512 bytes is opened as a connection for no bytes, of variable size. -/
theorem not_negotiated_512_bytes :
    let cfg : IOConnectionConfig := ⟨100, 101, 0, 512, 4, 10000000, 0, false, none, none⟩
    let req := (newIOScanner 1 1).received cfg
    decode readForwardOpen ((newIOScanner 1 1).forwardOpenRequest cfg).encode = .ok req ∧
      connectionSizeFromParams req.otNetworkConnectionParams = 0 ∧
      req.otNetworkConnectionParams &&& connParamFlags ≠
        connParamPointToPoint ||| connParamFixedSize ∧
      ¬ (newIOScanner 1 1).Negotiated cfg := by
  intro cfg req
  have hpath : cfg.connPath ≠ [] := by decide
  refine ⟨decode_forwardOpenRequest.mpr ⟨hpath, rfl⟩, by decide, by decide, fun h => ?_⟩
  obtain ⟨conn, -, -, -, hagrees⟩ := h.agrees hpath
  exact absurd hagrees.otSize (by decide)

end Originator

end GoIndustrial.EtherNetIP
