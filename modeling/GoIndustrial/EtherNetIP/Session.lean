import GoIndustrial.EtherNetIP.Connections

/-!
# Sessions

A client session of `protocol/ethernetip/session.go` over a connection of `conn.go`: requests are
wrapped into the items of the common packet format, a header with the session handle is put in
front, and the reply is taken apart the same way. The other side is any function that gives the
bytes that arrive for the bytes that were written; for a server of this package it is a round of the
loop of the connection.

Both directions use the same layers, so the results are stated layer by layer: a frame that a client
writes is the frame the server handles, the request in it is the request that is routed, and the
response comes back through the same layers. Messages with a connection address and a sequence count
go through an envelope of their own.

## Main definitions

* `EtherNetIP.send`, `EtherNetIP.receive` : the connection.
* `EtherNetIP.register`, `EtherNetIP.sendRRData`, `EtherNetIP.sendCIPRequest` : the session.
* `EtherNetIP.Server.peer` : the server as the other side.
* `EtherNetIP.Registered` : the handle of the session is the one the server gave the connection.

## Main results

* `EtherNetIP.ServerState.run_serve` : a round of the loop is a run of the handler's steps.
* `EtherNetIP.registered_register` : registering makes a registered session.
* `EtherNetIP.sendCIPRequest_of_dispatch`, `EtherNetIP.sendCIPRequest_of_error` : what the session
  gets when the router answers, and when it does not.
* `EtherNetIP.explicit_messages_transparent` : the session gets the router's response.
-/

namespace GoIndustrial.EtherNetIP

open ByteReader LittleEndian GoSlice

variable {σ : Type}

/-! ### The connection -/

/-- Why an exchange fails. -/
inductive SessionErr
  /-- The request cannot be written. -/
  | write
  /-- `failed to read header: %w`. -/
  | readHeader (e : ReadErr)
  /-- `failed to read data: %w`. -/
  | readData (e : ReadErr)
  /-- `register session failed with status: 0x%08X`. -/
  | registerStatus (status : UInt32)
  /-- `RRData command failed with status: 0x%08X`. -/
  | rrDataStatus (status : UInt32)
  /-- `response data too short`. -/
  | short
  /-- `failed to decode CPF: %w`. -/
  | cpf (e : ReadErr)
  /-- `response CPF missing Unconnected Message item`. -/
  | missingItem
  /-- The response itself cannot be decoded. -/
  | response (e : ReadErr)
  deriving DecidableEq, Repr

/-- What arrives from the other side for the bytes written; `none` when they cannot be written. -/
abbrev Peer := List UInt8 → Option (List UInt8)

/-- The header that the client puts in front of data. -/
def sendHeader (cmd : UInt16) (data : List UInt8) (sessionHandle : UInt32) :
    EncapsulationHeader where
  command := cmd
  length := UInt16.ofNat data.length
  sessionHandle := sessionHandle
  status := 0
  senderContext := .replicate 8 0
  options := 0

/-- `TCPConn.Send`: the bytes written. -/
def send (cmd : UInt16) (data : List UInt8) (sessionHandle : UInt32) : List UInt8 :=
  (sendHeader cmd data sessionHandle).encode ++ data

/-- `TCPConn.Receive`: a header, its data, and the bytes left. -/
def receive (input : List UInt8) :
    Except SessionErr (EncapsulationHeader × List UInt8 × List UInt8) :=
  match decodeHeader input with
  | .error e => .error (.readHeader e)
  | .ok (header, input) =>
    if header.length > 0 then
      match readFull header.length.toNat input with
      | .error e => .error (.readData e)
      | .ok (data, input) => .ok (header, data, input)
    else .ok (header, [], input)

/-- Write a frame and read the answer. -/
def exchange (peer : Peer) (cmd : UInt16) (data : List UInt8) (sessionHandle : UInt32) :
    Except SessionErr (EncapsulationHeader × List UInt8 × List UInt8) :=
  match peer (send cmd data sessionHandle) with
  | none => .error .write
  | some input => receive input

/-! ### The session -/

/-- The protocol version and the option flags. -/
def registerSessionData : List UInt8 := putUint16 1 ++ putUint16 0

/-- `Session.Register`: the session handle, and the bytes left. -/
def register (peer : Peer) : Except SessionErr (UInt32 × List UInt8) := do
  let (header, _, input) ← exchange peer commandRegisterSession registerSessionData 0
  if header.status ≠ statusSuccess then .error (.registerStatus header.status)
  else return (header.sessionHandle, input)

/-- The data of a `SendRRData` frame. -/
def unconnectedData (request : List UInt8) : List UInt8 :=
  envelope [newCPFItem itemIDNullAddress [], newCPFItem itemIDUnconnectedMessage request]

/-- The unconnected message in the answer to a `SendRRData` frame. -/
def unconnectedMessage (header : EncapsulationHeader) (respData : List UInt8) :
    Except SessionErr (List UInt8) :=
  if header.status ≠ statusSuccess then .error (.rrDataStatus header.status)
  else if respData.length < 6 then .error .short
  else
    match decodeCommonPacketFormat (respData.drop 6) with
    | .error e => .error (.cpf e)
    | .ok respCPF =>
      match respCPF.findItemByType itemIDUnconnectedMessage with
      | none => .error .missingItem
      | some item => .ok item.data

/-- `Session.SendRRData`: the unconnected message in the answer, and the bytes left. -/
def sendRRData (handle : UInt32) (peer : Peer) (request : List UInt8) :
    Except SessionErr (List UInt8 × List UInt8) := do
  let (header, respData, input) ← exchange peer commandSendRRData (unconnectedData request) handle
  let message ← unconnectedMessage header respData
  return (message, input)

def sendCIPRequest (handle : UInt32) (peer : Peer) (req : MessageRouterRequest) :
    Except SessionErr (MessageRouterResponse × List UInt8) := do
  let (respBytes, input) ← sendRRData handle peer req.encode
  match decodeMessageRouterResponse respBytes with
  | .error e => .error (.response e)
  | .ok resp => return (resp, input)

/-! ### The server as the other side -/

/-- What the server writes in a round of its loop; when it leaves the loop, the connection is closed
and nothing arrives. -/
def Server.peer (srv : Server σ) (v : View σ) : Peer := fun bytes =>
  match (srv.serve bytes v).1 with
  | .ok (some (out, _)) => some out
  | .ok none | .error _ => some []

/-- The handle of the session is the one the server gave the connection; 0 is no session. -/
structure Registered (handle : UInt32) (v : View σ) : Prop where
  eq : handle = v.sessionHandle
  ne_zero : handle ≠ 0

/-- A round of the loop that ends with an answer. -/
theorem Server.serve_eq_some {srv : Server σ} {bytes out input : List UInt8} {v v' : View σ}
    (h : srv.serve bytes v = (.ok (some (out, input)), v')) :
    headerSize ≤ bytes.length ∧ ∃ (header : RequestHeader) (r : Reply),
      parseHeader (bytes.take headerSize) = .ok header ∧
      header.dataLen.toNat ≤ maxPacketSize ∧
      header.dataLen.toNat ≤ (bytes.drop headerSize).length ∧
      let f : Frame := ⟨header, (bytes.drop headerSize).take header.dataLen.toNat⟩
      (srv.handleFrame f v).result = .ok (some r) ∧ out = (f.answer r).encode ++ r.respData ∧
      input = (bytes.drop headerSize).drop header.dataLen.toNat ∧
      v' = (srv.handleFrame f v).view := by
  rw [serve] at h
  split_ifs at h with hlen
  · cases h
  split at h
  · cases h
  rename_i header hheader
  dsimp only at h
  split_ifs at h with hsize
  · cases h
  obtain ⟨hmax, hdata⟩ := not_or.mp hsize
  refine ⟨Nat.not_lt.mp hlen, header, ?_⟩
  split at h
  · cases h
  · cases h
  rename_i r hreply
  rw [respHeader_eq] at h
  obtain ⟨hresult, rfl⟩ := Prod.mk.inj h
  obtain ⟨rfl, rfl⟩ := Prod.mk.inj (Option.some.inj (Except.ok.inj hresult))
  exact ⟨r, hheader, Nat.not_lt.mp hmax, Nat.not_lt.mp hdata, hreply, rfl, rfl, rfl⟩

namespace ServerState

variable {srv : Server σ} {maxClients : ℕ} {device : σ} {s t : ServerState σ} {id : ℕ}
  {c : ServerConn}

theorem step_handler {a : HandlerStep} (hc : s.conns id = some c)
    (h : s.handlerStep srv id c a = some t) :
    (serverSystem srv maxClients device).step s (.handler id a) = some t := by
  change (s.conns id).bind _ = _
  rw [hc]
  exact h

/-- The handler reads a frame. -/
theorem run_read (hc : s.conns id = some c) (hphase : c.phase = .reading)
    (hlen : headerSize ≤ c.input.length) {header : RequestHeader}
    (hheader : parseHeader (c.input.take headerSize) = .ok header)
    (hmax : header.dataLen.toNat ≤ maxPacketSize)
    (hdata : header.dataLen.toNat ≤ (c.input.drop headerSize).length) :
    ∃ t, (serverSystem srv maxClients device).Run (fun _ _ => True) s
        [.handler id .readHeader, .handler id .readData] t ∧
      t.conns id = some { c with
        phase := .received ⟨header, (c.input.drop headerSize).take header.dataLen.toNat⟩
        input := (c.input.drop headerSize).drop header.dataLen.toNat } ∧
      t.nextSession = s.nextSession ∧ t.device = s.device := by
  let c' : ServerConn := { c with phase := .waiting header, input := c.input.drop headerSize }
  have hread : s.handlerStep srv id c .readHeader = some (s.setConn id c' []) := by
    rw [handlerStep, hphase]
    dsimp only
    rw [if_neg (Nat.not_lt.mpr hlen), ServerConn.readHeader, hheader]
    dsimp only
    rw [if_neg (Nat.not_lt.mpr hmax)]
  let f : Frame := ⟨header, (c.input.drop headerSize).take header.dataLen.toNat⟩
  let c'' : ServerConn :=
    { c' with phase := .received f, input := (c.input.drop headerSize).drop header.dataLen.toNat }
  have hreadData : (s.setConn id c' []).handlerStep srv id c' .readData =
      some ((s.setConn id c' []).setConn id c'' [.received f]) := by
    rw [handlerStep]
    dsimp only [c']
    rw [if_neg (Nat.not_lt.mpr hdata)]
  exact ⟨_, .cons trivial (step_handler hc hread) <|
    .cons trivial (step_handler (conns_setConn_self []) hreadData) (.nil _),
    conns_setConn_self [], rfl, rfl⟩

/-- The handler answers a frame. -/
theorem run_answer {f : Frame} {r : Reply} (hc : s.conns id = some c)
    (hphase : c.phase = .received f)
    (hreply : (srv.handleFrame f ⟨c.sessionHandle, s.nextSession, s.device⟩).result =
      .ok (some r)) :
    ∃ t, (serverSystem srv maxClients device).Run (fun _ _ => True) s
        [.handler id .handle, .handler id .writeHeader, .handler id .writeData] t ∧
      let v := (srv.handleFrame f ⟨c.sessionHandle, s.nextSession, s.device⟩).view
      t.conns id = some ⟨.reading, c.input, c.output ++ ((f.answer r).encode ++ r.respData),
        v.sessionHandle⟩ ∧ t.nextSession = v.nextSession ∧ t.device = v.device := by
  let w := srv.handleFrame f ⟨c.sessionHandle, s.nextSession, s.device⟩
  let c' : ServerConn := { c with phase := .replying f r, sessionHandle := w.view.sessionHandle }
  have hhandle : s.handlerStep srv id c .handle = some (s.handle srv id c f) := by
    rw [handlerStep, hphase]
  have hc' : (s.handle srv id c f).conns id = some c' := by
    refine (conns_setConn_self []).trans ?_
    rw [Switched.phase, hreply]
  let c'' : ServerConn :=
    { c' with phase := .writing r.respData, output := c.output ++ (f.answer r).encode }
  have hwrite : (s.handle srv id c f).handlerStep srv id c' .writeHeader =
      some ((s.handle srv id c f).setConn id c'' [.answered (f.answer r).encode]) := by
    rw [handlerStep]
    dsimp only [c']
    rw [respHeader_eq]
  refine ⟨_, .cons trivial (step_handler hc hhandle) <| .cons trivial (step_handler hc' hwrite) <|
    .cons trivial (step_handler (conns_setConn_self []) rfl) (.nil _),
    (conns_setConn_self []).trans ?_, rfl, rfl⟩
  rw [← List.append_assoc]

/-- **A round of the loop** is a run of the steps of the handler. -/
theorem run_serve (hc : s.conns id = some c) (hphase : c.phase = .reading)
    {out input : List UInt8} {v : View σ} (h : srv.serve c.input
      ⟨c.sessionHandle, s.nextSession, s.device⟩ = (.ok (some (out, input)), v)) :
    ∃ steps t, (serverSystem srv maxClients device).Run (fun _ _ => True) s steps t ∧
      t.conns id = some ⟨.reading, input, c.output ++ out, v.sessionHandle⟩ ∧
      t.nextSession = v.nextSession ∧ t.device = v.device := by
  obtain ⟨hlen, header, r, hheader, hmax, hdata, hreply, rfl, rfl, rfl⟩ := Server.serve_eq_some h
  obtain ⟨t, hread, hct, hnext, hdevice⟩ := run_read hc hphase hlen hheader hmax hdata
  rw [← hnext, ← hdevice] at hreply ⊢
  obtain ⟨u, hanswer, hu⟩ := run_answer hct rfl hreply
  exact ⟨_, u, hread.append hanswer, hu⟩

end ServerState

/-! ### Frames -/

theorem receive_encode {header : EncapsulationHeader} {data : List UInt8}
    (h : header.length.toNat = data.length) (tail : List UInt8) :
    receive (header.encode ++ data ++ tail) = .ok (header, data, tail) := by
  rw [receive, List.append_assoc, consumes_decodeHeader header (data ++ tail)]
  dsimp only
  split_ifs with hpos
  · have hread := consumes_readFull data tail
    rw [← h] at hread
    rw [hread]
  · rw [gt_iff_lt, UInt16.lt_iff_toNat_lt, h] at hpos
    obtain rfl := List.length_eq_zero_iff.mp (Nat.le_zero.mp (Nat.not_lt.mp hpos))
    rfl

/-- The frame that the server makes of what a client sends. -/
def sentFrame (cmd : UInt16) (data : List UInt8) (sessionHandle : UInt32) : Frame :=
  ⟨(sendHeader cmd data sessionHandle).request, data⟩

/-- The server handles the frame that the client sent, and answers it. -/
theorem Server.serve_send {srv : Server σ} {cmd : UInt16} {data : List UInt8} {handle : UInt32}
    (hmax : data.length ≤ maxPacketSize) {v : View σ} {r : Reply}
    (hreply : (srv.handleFrame (sentFrame cmd data handle) v).result = .ok (some r)) :
    srv.serve (send cmd data handle) v =
      (.ok (some (((sentFrame cmd data handle).answer r).encode ++ r.respData, [])),
        (srv.handleFrame (sentFrame cmd data handle) v).view) := by
  have hlen : (sendHeader cmd data handle).request.dataLen.toNat = data.length := by
    rw [maxPacketSize] at hmax
    exact Nat.mod_eq_of_lt (by omega)
  have hhead : (send cmd data handle).take headerSize = (sendHeader cmd data handle).encode :=
    List.take_left' (EncapsulationHeader.length_encode _)
  have htail : (send cmd data handle).drop headerSize = data :=
    List.drop_left' (EncapsulationHeader.length_encode _)
  have hshort : ¬ (send cmd data handle).length < headerSize := by
    rw [send, List.length_append, EncapsulationHeader.length_encode]
    omega
  rw [serve, if_neg hshort, hhead, parseHeader_encode]
  dsimp only
  rw [htail, hlen, if_neg (by omega), List.take_length, List.drop_length]
  rw [sentFrame] at hreply ⊢
  rw [hreply]
  dsimp only
  rw [respHeader_eq]
  rfl

/-- The client receives the server's reply. -/
theorem exchange_peer {srv : Server σ} {cmd : UInt16} {data : List UInt8} {handle : UInt32}
    (hmax : data.length ≤ maxPacketSize) {v : View σ} {r : Reply}
    (hreply : (srv.handleFrame (sentFrame cmd data handle) v).result = .ok (some r))
    (hresp : r.respData.length < 65536) :
    exchange (srv.peer v) cmd data handle =
      .ok ((sentFrame cmd data handle).answer r, r.respData, []) := by
  have hlen : ((sentFrame cmd data handle).answer r).length.toNat = r.respData.length :=
    Nat.mod_eq_of_lt hresp
  have hreceive := receive_encode hlen []
  rw [List.append_nil] at hreceive
  rw [exchange, Server.peer, Server.serve_send hmax hreply]
  exact hreceive

/-- **Registering makes a registered session**, unless the server has given all its handles. -/
theorem registered_register (srv : Server σ) (v : View σ) (h : v.nextSession + 1 ≠ 0) :
    ∃ handle, register (srv.peer v) = .ok (handle, []) ∧
      Registered handle (srv.serve (send commandRegisterSession registerSessionData 0) v).2 := by
  have hmax : registerSessionData.length ≤ maxPacketSize := by decide
  have hresp : registerSessionData.length < 65536 := by decide
  have hreply : (srv.handleFrame (sentFrame commandRegisterSession registerSessionData 0)
      v).result = .ok (some ⟨v.nextSession + 1, statusSuccess, registerSessionData⟩) := rfl
  refine ⟨v.nextSession + 1, ?_, ?_⟩
  · rw [register, exchange_peer hmax hreply hresp]
    rfl
  · rw [Server.serve_send hmax hreply]
    exact ⟨rfl, h⟩

/-! ### Envelopes -/

/-- The items of an envelope are found behind its first six bytes. -/
theorem decodeCommonPacketFormat_drop_envelope {a b : CPFItem} (ha : a.IsExact) (hb : b.IsExact) :
    decodeCommonPacketFormat ((envelope [a, b]).drop 6) = .ok (newCommonPacketFormat [a, b]) := by
  have hexact : ∀ item ∈ [a, b], item.IsExact := by simp [ha, hb]
  have h := decodeCommonPacketFormat_encode (by simp) hexact []
  rw [List.append_nil] at h
  rw [envelope, List.drop_left' List.length_replicate, h]

theorem length_envelope {a b : CPFItem} (ha : a.IsExact) (hb : b.IsExact) :
    (envelope [a, b]).length = 16 + a.data.length + b.data.length := by
  simp only [envelope, CommonPacketFormat.encode, newCommonPacketFormat, List.length_append,
    List.length_replicate, length_putUint16, List.flatMap_cons, List.flatMap_nil, ha.encode_eq,
    hb.encode_eq, List.length_nil]
  omega

theorem isExact_nullAddress : (newCPFItem itemIDNullAddress []).IsExact :=
  isExact_newCPFItem (by decide)

/-- The size of a message with the items around it. -/
def unconnectedSize (message : List UInt8) : ℕ := 16 + message.length

theorem length_unconnectedData {message : List UInt8} (h : message.length < 65536) :
    (unconnectedData message).length = unconnectedSize message :=
  length_envelope isExact_nullAddress (isExact_newCPFItem h)

/-- The server finds the request that the client wraps. -/
theorem unwrapUnconnected_unconnectedData {req : MessageRouterRequest} (hreq : req.WellFormed)
    (hlen : req.encode.length < 65536) :
    unwrapUnconnected (unconnectedData req.encode) = .ok req := by
  have hsix : 6 ≤ (unconnectedData req.encode).length := by
    rw [length_unconnectedData hlen, unconnectedSize]
    omega
  have hmessage : (newCPFItem itemIDUnconnectedMessage req.encode).IsExact :=
    isExact_newCPFItem hlen
  have hcpf := decodeCommonPacketFormat_drop_envelope isExact_nullAddress hmessage
  rw [unwrapUnconnected, if_neg (Nat.not_lt.mpr hsix)]
  refine bind_eq_ok.mpr ⟨_, if_pos hsix, bind_eq_ok.mpr ⟨_, congrArg liftRead hcpf, ?_⟩⟩
  exact congrArg liftRead (decodeMessageRouterRequest_encode hreq)

/-- The data of a `SendUnitData` frame. -/
def connectedData (addr : List UInt8) (seqCount : UInt16) (message : List UInt8) : List UInt8 :=
  envelope [newCPFItem itemIDConnectedAddress addr,
    newCPFItem itemIDConnectedData (putUint16 seqCount ++ message)]

/-- The size of a message with its connection address, its sequence count and the items around
it. -/
def connectedSize (addr message : List UInt8) : ℕ := 18 + addr.length + message.length

/-- The items are not too long for their length fields. -/
theorem isExact_connected {addr message : List UInt8} (h : connectedSize addr message < 65536)
    (seqCount : UInt16) : (newCPFItem itemIDConnectedAddress addr).IsExact ∧
      (newCPFItem itemIDConnectedData (putUint16 seqCount ++ message)).IsExact := by
  rw [connectedSize] at h
  refine ⟨isExact_newCPFItem (by omega), isExact_newCPFItem ?_⟩
  rw [List.length_append, length_putUint16]
  omega

theorem length_connectedData {addr message : List UInt8} (h : connectedSize addr message < 65536)
    (seqCount : UInt16) :
    (connectedData addr seqCount message).length = connectedSize addr message := by
  obtain ⟨haddr, hdata⟩ := isExact_connected h seqCount
  rw [connectedData, length_envelope haddr hdata]
  simp only [newCPFItem, List.length_append, length_putUint16, connectedSize]
  omega

/-- The server finds the request, the connection address and the sequence count. -/
theorem unwrapConnected_connectedData {req : MessageRouterRequest} (hreq : req.WellFormed)
    {addr : List UInt8} (haddr : 4 ≤ addr.length) (hlen : connectedSize addr req.encode < 65536)
    (seqCount : UInt16) :
    unwrapConnected (connectedData addr seqCount req.encode) = .ok ⟨addr, seqCount, req⟩ := by
  have hsix : 6 ≤ (connectedData addr seqCount req.encode).length := by
    rw [length_connectedData hlen, connectedSize]
    omega
  obtain ⟨haddrItem, hdataItem⟩ := isExact_connected hlen seqCount
  have hcpf := decodeCommonPacketFormat_drop_envelope haddrItem hdataItem
  have htwo : 2 ≤ (putUint16 seqCount ++ req.encode).length := by
    rw [List.length_append, length_putUint16]
    omega
  have hseq : uint16LEAt (ε := Err) (putUint16 seqCount ++ req.encode) 0 = .ok seqCount := by
    rw [uint16LEAt, if_pos htwo, List.drop_zero, List.take_left' (length_putUint16 _),
      uint16_putUint16]
  have hpdu : sliceFrom (ε := Err) (putUint16 seqCount ++ req.encode) 2 = .ok req.encode := by
    rw [sliceFrom, if_pos htwo, List.drop_left' (length_putUint16 _)]
  rw [unwrapConnected, if_neg (Nat.not_lt.mpr hsix)]
  refine bind_eq_ok.mpr ⟨_, if_pos hsix, bind_eq_ok.mpr ⟨_, congrArg liftRead hcpf, ?_⟩⟩
  change (if addr.length < 4 then _ else
    if (putUint16 seqCount ++ req.encode).length < 2 then _ else _) = _
  rw [if_neg (Nat.not_lt.mpr haddr), if_neg (Nat.not_lt.mpr htwo)]
  refine bind_eq_ok.mpr ⟨_, hseq, bind_eq_ok.mpr ⟨_, hpdu, bind_eq_ok.mpr ⟨req, ?_, rfl⟩⟩⟩
  exact congrArg liftRead (decodeMessageRouterRequest_encode hreq)

/-! ### Explicit messages -/

section
variable {srv : Server σ} {v : View σ} {handle : UInt32} {req : MessageRouterRequest}

/-- The session gate lets a registered session pass. -/
theorem handleExplicit_sentFrame (hreg : Registered handle v) (cmd : UInt16)
    (handler : List UInt8 → σ → Handled σ) (data : List UInt8) :
    Server.handleExplicit handler (sentFrame cmd data handle) v =
      ⟨explicitReply handle (handler data v.device).result,
        { v with device := (handler data v.device).device }, (handler data v.device).routed⟩ :=
  if_neg (not_or.mpr ⟨not_not.mpr hreg.eq, hreg.eq ▸ hreg.ne_zero⟩)

/-- What the client receives for an unconnected request is the router's result. -/
theorem exchange_sendRRData (hreg : Registered handle v) (hreq : req.WellFormed)
    (hsize : unconnectedSize req.encode ≤ maxPacketSize) {r : Reply}
    (hreply : explicitReply handle ((srv.router.dispatch req v.device).1.map fun resp =>
      wrapUnconnectedResponse resp.encode) = .ok (some r)) (hresp : r.respData.length < 65536) :
    ∃ header, exchange (srv.peer v) commandSendRRData (unconnectedData req.encode) handle =
      .ok (header, r.respData, []) ∧ header.status = r.status := by
  have hlen : req.encode.length < 65536 := by
    rw [unconnectedSize, maxPacketSize] at hsize
    omega
  have hhandled : (srv.handleSendRRData (unconnectedData req.encode) v.device).result =
      (srv.router.dispatch req v.device).1.map fun resp => wrapUnconnectedResponse resp.encode := by
    rw [Server.handleSendRRData, unwrapUnconnected_unconnectedData hreq hlen]
    rfl
  have hmax : (unconnectedData req.encode).length ≤ maxPacketSize :=
    (length_unconnectedData hlen).trans_le hsize
  rw [← hhandled] at hreply
  have hframe : (srv.handleFrame (sentFrame commandSendRRData (unconnectedData req.encode) handle)
      v).result = .ok (some r) :=
    (congrArg Switched.result (handleExplicit_sentFrame hreg _ _ _)).trans hreply
  exact ⟨_, exchange_peer hmax hframe hresp, rfl⟩

/-- The session gets the response of the router. -/
theorem sendCIPRequest_of_dispatch (hreg : Registered handle v) (hreq : req.WellFormed)
    (hsize : unconnectedSize req.encode ≤ maxPacketSize) {resp : MessageRouterResponse} {device : σ}
    (hdispatch : srv.router.dispatch req v.device = (.ok resp, device))
    (hext : resp.extStatus.length ≤ 255) (hresp : unconnectedSize resp.encode < 65536) :
    sendCIPRequest handle (srv.peer v) req = .ok (resp, []) := by
  have hlen : resp.encode.length < 65536 := by
    rw [unconnectedSize] at hresp
    omega
  have hwrap : (wrapUnconnectedResponse resp.encode).length = unconnectedSize resp.encode :=
    length_unconnectedData hlen
  have hreply : explicitReply handle ((srv.router.dispatch req v.device).1.map fun resp =>
      wrapUnconnectedResponse resp.encode) =
      .ok (some ⟨handle, statusSuccess, wrapUnconnectedResponse resp.encode⟩) := by
    rw [hdispatch]
    rfl
  obtain ⟨header, hexchange, hstatus⟩ :=
    exchange_sendRRData hreg hreq hsize hreply (hwrap.trans_lt hresp)
  have hmessage : unconnectedMessage header (wrapUnconnectedResponse resp.encode) =
      .ok resp.encode := by
    have hsix : ¬ (wrapUnconnectedResponse resp.encode).length < 6 := by
      rw [hwrap, unconnectedSize]
      omega
    have hitem : (newCPFItem itemIDUnconnectedMessage resp.encode).IsExact :=
      isExact_newCPFItem hlen
    rw [unconnectedMessage, if_neg (not_not.mpr hstatus), if_neg hsix, wrapUnconnectedResponse,
      decodeCommonPacketFormat_drop_envelope isExact_nullAddress hitem]
    rfl
  have hdecode := decodeMessageRouterResponse_encode (Router.isExact_of_dispatch hdispatch hext)
  rw [sendCIPRequest, sendRRData, hexchange]
  simp only [bind, Except.bind, pure, Except.pure, hmessage, hdecode]

/-- An error of the router becomes an encapsulation status. -/
theorem sendCIPRequest_of_error (hreg : Registered handle v) (hreq : req.WellFormed)
    (hsize : unconnectedSize req.encode ≤ maxPacketSize) {e : Err}
    (hdispatch : (srv.router.dispatch req v.device).1 = .error (.error e)) :
    sendCIPRequest handle (srv.peer v) req = .error (.rrDataStatus statusInvalidCommand) := by
  have hreply : explicitReply handle ((srv.router.dispatch req v.device).1.map fun resp =>
      wrapUnconnectedResponse resp.encode) =
      .ok (some ⟨handle, statusInvalidCommand, []⟩) := by
    rw [hdispatch]
    rfl
  obtain ⟨header, hexchange, hstatus⟩ := exchange_sendRRData hreg hreq hsize hreply (by simp)
  have hmessage : unconnectedMessage header [] = .error (.rrDataStatus statusInvalidCommand) := by
    rw [unconnectedMessage, hstatus]
    rfl
  rw [sendCIPRequest, sendRRData, hexchange]
  simp only [bind, Except.bind, hmessage]

/-- What a client finds in the answer to connected data: a header without an error, and items with
a connection address, a sequence count and a response. -/
def AnswersConnected (answer : Except SessionErr (EncapsulationHeader × List UInt8 × List UInt8))
    (addr : List UInt8) (seqCount : UInt16) (respBytes : List UInt8) : Prop :=
  ∃ header respData cpf, answer = .ok (header, respData, []) ∧ header.status = statusSuccess ∧
    decodeCommonPacketFormat (respData.drop 6) = .ok cpf ∧
    (cpf.findItemByType itemIDConnectedAddress).map CPFItem.data = some addr ∧
    (cpf.findItemByType itemIDConnectedData).map CPFItem.data =
      some (putUint16 seqCount ++ respBytes)

/-- Connected data is answered with the response of the router. -/
theorem answersConnected_of_dispatch (hreg : Registered handle v) (hreq : req.WellFormed)
    {addr : List UInt8} (haddr : 4 ≤ addr.length)
    (hsize : connectedSize addr req.encode ≤ maxPacketSize) {resp : MessageRouterResponse}
    {device : σ} (hdispatch : srv.router.dispatch req v.device = (.ok resp, device))
    (hresp : connectedSize addr resp.encode < 65536) (seqCount : UInt16) :
    AnswersConnected (exchange (srv.peer v) commandSendUnitData
      (connectedData addr seqCount req.encode) handle) addr seqCount resp.encode := by
  have hlen : connectedSize addr req.encode < 65536 := by
    rw [maxPacketSize] at hsize
    omega
  have hhandled : (srv.handleSendUnitData (connectedData addr seqCount req.encode)
      v.device).result = .ok (wrapConnectedResponse addr seqCount resp.encode) := by
    rw [Server.handleSendUnitData, unwrapConnected_connectedData hreq haddr hlen]
    simp only [Server.route, hdispatch]
    rfl
  have hframe : (srv.handleFrame (sentFrame commandSendUnitData
      (connectedData addr seqCount req.encode) handle) v).result =
      .ok (some ⟨handle, statusSuccess, wrapConnectedResponse addr seqCount resp.encode⟩) := by
    refine (congrArg Switched.result (handleExplicit_sentFrame hreg _ _ _)).trans ?_
    rw [hhandled]
    rfl
  have hmax := (length_connectedData hlen seqCount).trans_le hsize
  have hwrap := (length_connectedData hresp seqCount).trans_lt hresp
  obtain ⟨haddrItem, hdataItem⟩ := isExact_connected hresp seqCount
  exact ⟨_, _, _, exchange_peer hmax hframe hwrap, rfl,
    decodeCommonPacketFormat_drop_envelope haddrItem hdataItem, rfl, rfl⟩

end

/-- **Explicit messaging is transparent.** A registered session gets the response of the router for
its request; and the same request as connected data is answered with that response, the connection
address and the sequence count. -/
theorem explicit_messages_transparent (srv : Server σ) (v : View σ) (handle : UInt32)
    (hreg : Registered handle v) (req : MessageRouterRequest)
    (heven : req.requestPath.length % 2 = 0) (hpath : req.requestPath ≠ [])
    (hshort : req.requestPath.length ≤ 510) (resp : MessageRouterResponse) (device : σ)
    (hdispatch : srv.router.dispatch req v.device = (.ok resp, device))
    (hext : resp.extStatus.length ≤ 255) :
    (unconnectedSize req.encode ≤ 4096 → unconnectedSize resp.encode ≤ 65535 →
      sendCIPRequest handle (srv.peer v) req = .ok (resp, [])) ∧
    ∀ (addr : List UInt8) (seqCount : UInt16), 4 ≤ addr.length →
      connectedSize addr req.encode ≤ 4096 → connectedSize addr resp.encode ≤ 65535 →
      AnswersConnected (exchange (srv.peer v) commandSendUnitData
        (connectedData addr seqCount req.encode) handle) addr seqCount resp.encode := by
  have hreq : req.WellFormed := ⟨heven, hshort, by simp [hpath]⟩
  exact ⟨fun hsize hresp => sendCIPRequest_of_dispatch hreg hreq hsize hdispatch hext (by omega),
    fun addr seqCount haddr hsize hresp =>
      answersConnected_of_dispatch hreg hreq haddr hsize hdispatch (by omega) seqCount⟩

/-- A server with one object, which returns the data of a request. -/
def echoServer : Server Unit where
  router := newMessageRouter.registerObject 0x04 fun _ _ data s => (.ok data, s)
  identity := bareServer.identity

/-- The object returns three bytes, without a connection and with one. -/
theorem explicit_messages_transparent_echo :
    let req : MessageRouterRequest := ⟨0x0E, [0x20, 0x04, 0x24, 0x01], [5, 6, 7]⟩
    let resp : MessageRouterResponse := ⟨0x8E, 0, 0, 0, [], [5, 6, 7]⟩
    sendCIPRequest 1 (echoServer.peer ⟨1, 1, ()⟩) req = .ok (resp, []) ∧
      AnswersConnected (exchange (echoServer.peer ⟨1, 1, ()⟩) commandSendUnitData
        (connectedData [1, 2, 3, 4] 9 req.encode) 1) [1, 2, 3, 4] 9 resp.encode := by
  obtain ⟨hunconnected, hconnected⟩ := explicit_messages_transparent echoServer ⟨1, 1, ()⟩ 1
    ⟨rfl, by decide⟩ ⟨0x0E, [0x20, 0x04, 0x24, 0x01], [5, 6, 7]⟩ rfl (by decide) (by decide)
    ⟨0x8E, 0, 0, 0, [], [5, 6, 7]⟩ () rfl (by decide)
  exact ⟨hunconnected (by decide) (by decide),
    hconnected [1, 2, 3, 4] 9 (by decide) (by decide) (by decide)⟩

end GoIndustrial.EtherNetIP
