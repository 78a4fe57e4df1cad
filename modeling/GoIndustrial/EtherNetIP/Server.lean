import GoIndustrial.EtherNetIP.Encap
import GoIndustrial.EtherNetIP.Router

/-!
# One round of the server's connection loop

`HandleConn` of `protocol/ethernetip/server.go` reads a header of 24 bytes and the data it
announces, handles the command, and writes a response header with the same command and sender
context and the response data behind it. A connection has one session handle, which
`RegisterSession` replaces by a fresh one from the server's counter; explicit messages are passed to
the router only under that handle. Any error on the way to the router's response ends in an
encapsulation status.

## Main definitions

* `EtherNetIP.Frame`, `EtherNetIP.parseHeader` : what is received.
* `EtherNetIP.Server.handleSendRRData`, `EtherNetIP.Server.handleSendUnitData` : explicit messages.
* `EtherNetIP.Server.handleFrame`, `EtherNetIP.respHeader` : the switch over the commands, and the
  response.
* `EtherNetIP.Server.serve` : a round of the loop on the bytes received.

## Main results

* `EtherNetIP.respHeader_eq` : the response header.
* `EtherNetIP.parseHeader_encode` : the server reads what a client encodes.
* `EtherNetIP.Server.handleFrame_spec` : the outcomes of the switch; a request is routed only under
  the session handle.
-/

namespace GoIndustrial.EtherNetIP

open LittleEndian GoSlice

variable {σ : Type}

/-! ### What is received -/

/-- The fields of a header that the server reads. -/
structure RequestHeader where
  command : UInt16
  dataLen : UInt16
  session : UInt32
  senderContext : Vector UInt8 8
  deriving DecidableEq, Repr

/-- A header and the data behind it. -/
structure Frame extends RequestHeader where
  data : List UInt8
  deriving DecidableEq, Repr

def parseHeader (headerBuf : List UInt8) : Except (Fault Err) RequestHeader := do
  let command ← uint16LEAt headerBuf 0
  let dataLen ← uint16LEAt headerBuf 2
  let session ← uint32LEAt headerBuf 4
  let senderContext ← slice headerBuf 12 20
  return { command, dataLen, session, senderContext := Vector.ofFn fun i => senderContext.getD i 0 }

def maxPacketSize : ℕ := 4096

/-! ### Explicit messages -/

structure Server (σ : Type) where
  router : Router σ
  identity : ListIdentityItem

def errShortData {α : Type} : Except (Fault Err) α := throwStatus statusPathSegmentError

def errNoCPFItem {α : Type} : Except (Fault Err) α := throwStatus statusPathSegmentError

/-- The request in the data of a `SendRRData` frame. -/
def unwrapUnconnected (data : List UInt8) : Except (Fault Err) MessageRouterRequest :=
  if data.length < 6 then errShortData
  else do
    let cpfData ← sliceFrom data 6
    let cpf ← liftRead (decodeCommonPacketFormat cpfData)
    match cpf.findItemByType itemIDUnconnectedMessage with
    | none => errNoCPFItem
    | some item => liftRead (decodeMessageRouterRequest item.data)

/-- A request of a connection, with the connection address and the sequence count. -/
structure ConnectedRequest where
  addr : List UInt8
  seqCount : UInt16
  req : MessageRouterRequest
  deriving DecidableEq, Repr

/-- The request in the data of a `SendUnitData` frame. -/
def unwrapConnected (data : List UInt8) : Except (Fault Err) ConnectedRequest :=
  if data.length < 6 then errShortData
  else do
    let cpfData ← sliceFrom data 6
    let cpf ← liftRead (decodeCommonPacketFormat cpfData)
    match cpf.findItemByType itemIDConnectedAddress with
    | none => errNoCPFItem
    | some addrItem =>
      if addrItem.data.length < 4 then errNoCPFItem
      else
        match cpf.findItemByType itemIDConnectedData with
        | none => errNoCPFItem
        | some dataItem =>
          if dataItem.data.length < 2 then errNoCPFItem
          else
            let seqCount ← uint16LEAt dataItem.data 0
            let pdu ← sliceFrom dataItem.data 2
            let req ← liftRead (decodeMessageRouterRequest pdu)
            return { addr := addrItem.data, seqCount, req }

/-- Six bytes of interface handle and timeout, and the items. -/
def envelope (items : List CPFItem) : List UInt8 :=
  List.replicate 6 0 ++ (newCommonPacketFormat items).encode

def wrapUnconnectedResponse (mrRespBytes : List UInt8) : List UInt8 :=
  envelope [newCPFItem itemIDNullAddress [], newCPFItem itemIDUnconnectedMessage mrRespBytes]

def wrapConnectedResponse (addrData : List UInt8) (seqCount : UInt16) (mrRespBytes : List UInt8) :
    List UInt8 :=
  envelope [newCPFItem itemIDConnectedAddress addrData,
    newCPFItem itemIDConnectedData (putUint16 seqCount ++ mrRespBytes)]

/-- What a handler of explicit messages returns, the state it leaves, and the request that it gave
to the router. -/
structure Handled (σ : Type) where
  result : Except (Fault Err) (List UInt8)
  device : σ
  routed : Option MessageRouterRequest

namespace Server

/-- Give a request to the router and wrap its response. -/
def route (srv : Server σ) (req : MessageRouterRequest) (wrap : List UInt8 → List UInt8) (s : σ) :
    Handled σ :=
  let (result, s) := srv.router.dispatch req s
  ⟨result.map fun resp => wrap resp.encode, s, some req⟩

def handleSendRRData (srv : Server σ) (data : List UInt8) (s : σ) : Handled σ :=
  match unwrapUnconnected data with
  | .error e => ⟨.error e, s, none⟩
  | .ok req => srv.route req wrapUnconnectedResponse s

def handleSendUnitData (srv : Server σ) (data : List UInt8) (s : σ) : Handled σ :=
  match unwrapConnected data with
  | .error e => ⟨.error e, s, none⟩
  | .ok r => srv.route r.req (wrapConnectedResponse r.addr r.seqCount) s

def handleListIdentity (srv : Server σ) : List UInt8 := encodeListIdentityResponse [srv.identity]

/-- The bytes of `"Communications"`. -/
def serviceName : List UInt8 :=
  [0x43, 0x6F, 0x6D, 0x6D, 0x75, 0x6E, 0x69, 0x63, 0x61, 0x74, 0x69, 0x6F, 0x6E, 0x73]

def handleListServices : List UInt8 :=
  encodeListServicesResponse [⟨itemIDListServices, 1, 0x0020, serviceName⟩]

end Server

/-! ### The switch -/

/-- What the handler of a connection sees: the session handle of the connection, the server's
counter and the device. -/
structure View (σ : Type) where
  sessionHandle : UInt32
  nextSession : UInt32
  device : σ

/-- The parts of a response that the switch determines. -/
structure Reply where
  session : UInt32
  status : UInt32
  respData : List UInt8
  deriving DecidableEq, Repr

/-- What the switch leads to: a reply, or `none` when the loop is left. -/
structure Switched (σ : Type) where
  result : Except (Fault Err) (Option Reply)
  view : View σ
  routed : Option MessageRouterRequest

/-- The reply for what a handler of explicit messages returns. -/
def explicitReply (session : UInt32) : Except (Fault Err) (List UInt8) →
    Except (Fault Err) (Option Reply)
  | .ok respData => .ok (some ⟨session, statusSuccess, respData⟩)
  | .error (.error _) => .ok (some ⟨session, statusInvalidCommand, []⟩)
  | .error .panic => .error .panic

namespace Server

/-- An explicit message is handled only under the session handle of the connection. -/
def handleExplicit (handler : List UInt8 → σ → Handled σ) (f : Frame) (v : View σ) : Switched σ :=
  if f.session ≠ v.sessionHandle ∨ v.sessionHandle = 0 then
    ⟨.ok (some ⟨f.session, statusInvalidSessionHandle, []⟩), v, none⟩
  else
    let h := handler f.data v.device
    ⟨explicitReply f.session h.result, { v with device := h.device }, h.routed⟩

/-- The switch over the commands. -/
def handleFrame (srv : Server σ) (f : Frame) (v : View σ) : Switched σ :=
  if f.command = commandRegisterSession then
    let sessionHandle := v.nextSession + 1
    ⟨.ok (some ⟨sessionHandle, statusSuccess, putUint16 1 ++ putUint16 0⟩),
      { v with sessionHandle, nextSession := sessionHandle }, none⟩
  else if f.command = commandUnregisterSession then ⟨.ok none, v, none⟩
  else if f.command = commandListIdentity then
    ⟨.ok (some ⟨f.session, statusSuccess, srv.handleListIdentity⟩), v, none⟩
  else if f.command = commandListServices then
    ⟨.ok (some ⟨f.session, statusSuccess, handleListServices⟩), v, none⟩
  else if f.command = commandSendRRData then handleExplicit srv.handleSendRRData f v
  else if f.command = commandSendUnitData then handleExplicit srv.handleSendUnitData f v
  else ⟨.ok (some ⟨f.session, statusInvalidCommand, []⟩), v, none⟩

end Server

/-- The header in front of the response data. -/
def respHeader (f : Frame) (r : Reply) : Except (Fault Err) (List UInt8) := do
  let buf ← putAt (List.replicate headerSize 0) 0 (putUint16 f.command)
  let buf ← putAt buf 2 (putUint16 (UInt16.ofNat r.respData.length))
  let buf ← putAt buf 4 (putUint32 r.session)
  let buf ← putAt buf 8 (putUint32 r.status)
  let buf ← copyAt buf 12 headerSize f.senderContext.toList
  putAt buf 20 (putUint32 0)

/-- The header that answers a frame. -/
def Frame.answer (f : Frame) (r : Reply) : EncapsulationHeader where
  command := f.command
  length := UInt16.ofNat r.respData.length
  sessionHandle := r.session
  status := r.status
  senderContext := f.senderContext
  options := 0

theorem respHeader_eq (f : Frame) (r : Reply) : respHeader f r = .ok (f.answer r).encode := by
  have hctx : f.senderContext.toList.length = 8 := f.senderContext.length_toList
  -- each field is written where the one before it ends
  refine bind_eq_ok.mpr ⟨_, putAt_replicate [] _ 22 rfl rfl, ?_⟩
  refine bind_eq_ok.mpr ⟨_, putAt_replicate _ _ 20 rfl rfl, ?_⟩
  refine bind_eq_ok.mpr ⟨_, putAt_replicate _ _ 16 rfl rfl, ?_⟩
  refine bind_eq_ok.mpr ⟨_, putAt_replicate _ _ 12 rfl rfl, ?_⟩
  refine bind_eq_ok.mpr ⟨_, copyAt_replicate _ _ rfl rfl (by omega), ?_⟩
  rw [putAt_replicate _ _ 0 (by simp [hctx]) (by simp [hctx]), List.replicate_zero, List.append_nil]
  rfl

/-! ### A round of the loop -/

/-- A round of the loop on the bytes received: the bytes written and the bytes left unread, or
`none` when the loop is left. -/
def Server.serve (srv : Server σ) (bytes : List UInt8) (v : View σ) :
    Except (Fault Err) (Option (List UInt8 × List UInt8)) × View σ :=
  if bytes.length < headerSize then (.ok none, v)
  else
    match parseHeader (bytes.take headerSize) with
    | .error e => (.error e, v)
    | .ok header =>
      let rest := bytes.drop headerSize
      if maxPacketSize < header.dataLen.toNat ∨ rest.length < header.dataLen.toNat then
        (.ok none, v)
      else
        let f : Frame := ⟨header, rest.take header.dataLen.toNat⟩
        let switched := srv.handleFrame f v
        match switched.result with
        | .error e => (.error e, switched.view)
        | .ok none => (.ok none, switched.view)
        | .ok (some r) =>
          ((respHeader f r).map fun buf => some (buf ++ r.respData, rest.drop header.dataLen.toNat),
            switched.view)

/-- The fields of a header as the server reads them. -/
def EncapsulationHeader.request (h : EncapsulationHeader) : RequestHeader :=
  ⟨h.command, h.length, h.sessionHandle, h.senderContext⟩

theorem parseHeader_encode (h : EncapsulationHeader) : parseHeader h.encode = .ok h.request := by
  obtain ⟨command, length, sessionHandle, status, ⟨⟨ctx⟩, hctx⟩, options⟩ := h
  match ctx, hctx with
  | [a, b, c, d, e, f, g, h], _ =>
    have hfields : parseHeader (EncapsulationHeader.encode ⟨command, length, sessionHandle, status,
        ⟨⟨[a, b, c, d, e, f, g, h]⟩, rfl⟩, options⟩) =
        .ok ⟨uint16 (putUint16 command), uint16 (putUint16 length),
          uint32 (putUint32 sessionHandle),
          Vector.ofFn fun i => [a, b, c, d, e, f, g, h].getD i 0⟩ := rfl
    rw [hfields, uint16_putUint16, uint16_putUint16, uint32_putUint32]
    rfl

theorem safe_parseHeader {headerBuf : List UInt8} (h : headerBuf.length = headerSize) :
    Safe (parseHeader headerBuf) (fun _ => True) fun _ => False := by
  rw [headerSize] at h
  refine (safe_uint16LEAt (by omega)).bind fun _ _ => ?_
  refine (safe_uint16LEAt (by omega)).bind fun _ _ => ?_
  refine (safe_uint32LEAt (by omega)).bind fun _ _ => ?_
  exact (safe_slice (by omega) (by omega)).bind fun _ _ => trivial

/-! ### What handling a frame does -/

theorem safe_liftRead {α : Type} (x : Except ByteReader.ReadErr α) :
    Safe (liftRead x) (fun _ => True) fun _ => True := by
  cases x <;> trivial

theorem safe_unwrapUnconnected (data : List UInt8) :
    Safe (unwrapUnconnected data) (fun _ => True) fun _ => True := by
  refine .ite (fun _ => trivial) fun hlen => ?_
  refine (safe_sliceFrom (Nat.not_lt.mp hlen)).bind fun cpfData _ => ?_
  refine (safe_liftRead _).bind fun cpf _ => ?_
  match cpf.findItemByType itemIDUnconnectedMessage with
  | none => trivial
  | some item => exact safe_liftRead _

theorem safe_unwrapConnected (data : List UInt8) :
    Safe (unwrapConnected data) (fun _ => True) fun _ => True := by
  refine .ite (fun _ => trivial) fun hlen => ?_
  refine (safe_sliceFrom (Nat.not_lt.mp hlen)).bind fun cpfData _ => ?_
  refine (safe_liftRead _).bind fun cpf _ => ?_
  match cpf.findItemByType itemIDConnectedAddress with
  | none => trivial
  | some addrItem =>
    refine .ite (fun _ => trivial) fun _ => ?_
    match cpf.findItemByType itemIDConnectedData with
    | none => trivial
    | some dataItem =>
      refine .ite (fun _ => trivial) fun hdata => ?_
      refine (safe_uint16LEAt (Nat.not_lt.mp hdata)).bind fun seqCount _ => ?_
      refine (safe_sliceFrom (Nat.not_lt.mp hdata)).bind fun pdu _ => ?_
      exact (safe_liftRead _).bind fun req _ => trivial

namespace Server

variable {srv : Server σ}

theorem route_ne_panic (h : srv.router.Safe) (req : MessageRouterRequest)
    (wrap : List UInt8 → List UInt8) (s : σ) : (srv.route req wrap s).result ≠ .error .panic := by
  have hdispatch := h.dispatch req s
  simp only [route]
  match (srv.router.dispatch req s).1, hdispatch with
  | .ok _, _ | .error (.error _), _ => nofun

theorem handleSendRRData_ne_panic (h : srv.router.Safe) (data : List UInt8) (s : σ) :
    (srv.handleSendRRData data s).result ≠ .error .panic := by
  have hsafe := (safe_unwrapUnconnected data).ne_panic
  rw [handleSendRRData]
  match unwrapUnconnected data, hsafe with
  | .error (.error e), _ => nofun
  | .ok req, _ => exact route_ne_panic h _ _ _

theorem handleSendUnitData_ne_panic (h : srv.router.Safe) (data : List UInt8) (s : σ) :
    (srv.handleSendUnitData data s).result ≠ .error .panic := by
  have hsafe := (safe_unwrapConnected data).ne_panic
  rw [handleSendUnitData]
  match unwrapConnected data, hsafe with
  | .error (.error e), _ => nofun
  | .ok r, _ => exact route_ne_panic h _ _ _

/-- The outcomes of the switch. -/
inductive SwitchSpec (srv : Server σ) (f : Frame) (v : View σ) : Switched σ → Prop
  | register (hcommand : f.command = commandRegisterSession) (respData : List UInt8) :
    SwitchSpec srv f v ⟨.ok (some ⟨v.nextSession + 1, statusSuccess, respData⟩),
      ⟨v.nextSession + 1, v.nextSession + 1, v.device⟩, none⟩
  | unregister (hcommand : f.command = commandUnregisterSession) :
    SwitchSpec srv f v ⟨.ok none, v, none⟩
  | simple (hcommand : f.command ≠ commandRegisterSession)
    (hunregister : f.command ≠ commandUnregisterSession) (status : UInt32)
    (respData : List UInt8) : SwitchSpec srv f v ⟨.ok (some ⟨f.session, status, respData⟩), v, none⟩
  | explicit (hcommand : f.command = commandSendRRData ∨ f.command = commandSendUnitData)
    (hsession : f.session = v.sessionHandle) (hne : v.sessionHandle ≠ 0) (h : Handled σ)
    (hsafe : srv.router.Safe → h.result ≠ .error .panic) :
    SwitchSpec srv f v
      ⟨explicitReply f.session h.result, { v with device := h.device }, h.routed⟩

theorem handleExplicit_spec {f : Frame} {handler : List UInt8 → σ → Handled σ}
    (hcommand : f.command = commandSendRRData ∨ f.command = commandSendUnitData) (v : View σ)
    (hsafe : srv.router.Safe → (handler f.data v.device).result ≠ .error .panic) :
    SwitchSpec srv f v (handleExplicit handler f v) := by
  rw [handleExplicit]
  split_ifs with hsession
  · refine .simple ?_ ?_ _ _ <;> rcases hcommand with h | h <;> rw [h] <;> decide
  · obtain ⟨hsession, hne⟩ := not_or.mp hsession
    exact .explicit hcommand (not_not.mp hsession) hne _ hsafe

theorem handleFrame_spec (srv : Server σ) (f : Frame) (v : View σ) :
    SwitchSpec srv f v (srv.handleFrame f v) := by
  rw [handleFrame]
  split_ifs with hreg hunreg hid hserv hrr hunit
  · exact .register hreg _
  · exact .unregister hunreg
  · exact .simple hreg hunreg _ _
  · exact .simple hreg hunreg _ _
  · exact handleExplicit_spec (.inl hrr) v fun h => handleSendRRData_ne_panic h _ _
  · exact handleExplicit_spec (.inr hunit) v fun h => handleSendUnitData_ne_panic h _ _
  · exact .simple hreg hunreg _ _

end Server

end GoIndustrial.EtherNetIP
