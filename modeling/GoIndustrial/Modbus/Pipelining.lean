import GoIndustrial.Lib.ByteReader
import GoIndustrial.Modbus.ReadLoop
import GoIndustrial.Modbus.Safety

/-!
# The decoders of frames and the loops that read them

`MBAP.Decode`, `Request.Decode` and `Response.Decode` of `protocol/modbus` read a frame from a byte
string; the connection loop of the server and the read loop of the client read frames from a
connection and parse the header themselves. The three count differently: the length field has the
unit ID, the function code and the data, the loops read a body of one byte less, and the decoders
read data of two bytes less.

A decoder accepts exactly the byte strings that begin with an encoding. It takes any protocol ID and
ignores what follows the frame; but for the protocol ID, it accepts what a loop accepts.

## Main definitions

* `Modbus.Request.decode`, `Modbus.Response.decode`.
* `Modbus.dispatchedFrom` : the turns of a loop that dispatches requests and nothing else.

## Main results

* `Modbus.decodeFrame_eq_ok` : the byte strings that are accepted, and what they decode to.
* `Modbus.received_iff_decode`, `Modbus.deliver_iff_decode` : decoders and loops agree.
* `Modbus.pipelined_exactly` : pipelined requests are dispatched as they are.
-/

namespace GoIndustrial.Modbus

open BitPacking ByteReader TimedStream

/-! ### Decoders -/

/-- `MBAP.Decode`: the header and the length field. -/
def MBAP.decode : Reader (MBAP × UInt16) := do
  let transactionID ← uint16BE
  let protocolID ← uint16BE
  let length ← uint16BE
  let unitID ← uint8
  return (⟨transactionID, protocolID, unitID⟩, length)

/-- The body of both `Decode` methods; `badLength` is returned for a length field below 2. -/
def readFrame (badLength : ReadErr) : Reader (MBAP × PDU) := do
  let (mbap, length) ← MBAP.decode
  let functionCode ← uint8
  if length < 2 then lift (.error badLength)
  else do
    let data ← readFull (length.toNat - 2)
    return (mbap, ⟨functionCode, data⟩)

def decodeFrame (badLength : ReadErr) (data : List UInt8) : Except ReadErr (MBAP × PDU) :=
  if data.length < tcpHeaderLength then .error (.refused "invalid response length")
  else ByteReader.decode (readFrame badLength) data

/-- `Request.Decode`. -/
def Request.decode (data : List UInt8) : Except ReadErr Request :=
  (decodeFrame (.refused "invalid request length") data).map fun x => ⟨x.1, x.2⟩

/-- `Response.Decode`. -/
def Response.decode (data : List UInt8) : Except ReadErr Response :=
  (decodeFrame (.refused "invalid response length") data).map fun x => ⟨x.1, x.2⟩

/-! ### What is accepted -/

section Accepted

variable {bs rest data : List UInt8} {m : MBAP} {pdu : PDU} {e : ReadErr}

theorem MBAP.decode_eq_ok {length : UInt16} :
    MBAP.decode bs = .ok ((m, length), rest) ↔
      bs = putUint16 m.transactionID ++ putUint16 m.protocolID ++ putUint16 length ++
        [m.unitID] ++ rest := by
  constructor
  · intro h
    obtain ⟨t, _, ht, h⟩ := bind_eq_ok.mp h
    obtain ⟨p, _, hp, h⟩ := bind_eq_ok.mp h
    obtain ⟨l, _, hl, h⟩ := bind_eq_ok.mp h
    obtain ⟨u, _, hu, h⟩ := bind_eq_ok.mp h
    obtain ⟨heq, rfl⟩ := pure_eq_ok.mp h
    obtain ⟨rfl, rfl⟩ := Prod.mk.inj heq
    rw [uint16BE_eq_ok.mp ht, uint16BE_eq_ok.mp hp, uint16BE_eq_ok.mp hl, uint8_eq_ok.mp hu]
    simp only [List.append_assoc, List.cons_append, List.nil_append]
  · rintro rfl
    simp only [List.append_assoc, List.cons_append, List.nil_append]
    refine bind_eq_ok.mpr ⟨_, _, uint16BE_eq_ok.mpr rfl, ?_⟩
    refine bind_eq_ok.mpr ⟨_, _, uint16BE_eq_ok.mpr rfl, ?_⟩
    refine bind_eq_ok.mpr ⟨_, _, uint16BE_eq_ok.mpr rfl, ?_⟩
    refine bind_eq_ok.mpr ⟨_, _, uint8_eq_ok.mpr rfl, ?_⟩
    exact pure_eq_ok.mpr ⟨rfl, rfl⟩

/-- A length field that counts `n` bytes of data. -/
private theorem lengthField_eq {length : UInt16} {n : ℕ} :
    (¬ length < 2 ∧ length.toNat - 2 = n) ↔ length = UInt16.ofNat (1 + (1 + n)) ∧ n ≤ 65533 := by
  have hlt := length.toNat_lt
  rw [UInt16.lt_iff_toNat_lt, ← UInt16.toNat_inj, UInt16.toNat_ofNat']
  have htwo : (2 : UInt16).toNat = 2 := rfl
  omega

theorem readFrame_eq_ok :
    readFrame e bs = .ok ((m, pdu), rest) ↔
      bs = m.encode (1 + pdu.data.length) ++ pdu.functionCode :: pdu.data ++ rest ∧
        pdu.data.length ≤ 65533 := by
  constructor
  · intro h
    obtain ⟨⟨m', length⟩, _, hm, h⟩ := bind_eq_ok.mp h
    obtain ⟨code, _, hcode, h⟩ := bind_eq_ok.mp h
    split_ifs at h with hlength
    · exact absurd h lift_error_ne_ok
    obtain ⟨out, _, hout, h⟩ := bind_eq_ok.mp h
    obtain ⟨heq, rfl⟩ := pure_eq_ok.mp h
    obtain ⟨rfl, rfl⟩ := Prod.mk.inj heq
    obtain ⟨hlen, rfl⟩ := readFull_eq_ok.mp hout
    obtain ⟨rfl, hle⟩ := lengthField_eq.mp ⟨hlength, hlen.symm⟩
    refine ⟨?_, hle⟩
    rw [MBAP.decode_eq_ok.mp hm, uint8_eq_ok.mp hcode, MBAP.encode]
    simp only [List.append_assoc, List.cons_append]
  · rintro ⟨rfl, hle⟩
    obtain ⟨hlength, hlen⟩ := lengthField_eq.mpr ⟨rfl, hle⟩
    rw [List.append_assoc]
    refine bind_eq_ok.mpr ⟨_, _, MBAP.decode_eq_ok.mpr rfl, ?_⟩
    refine bind_eq_ok.mpr ⟨_, _, uint8_eq_ok.mpr rfl, ?_⟩
    rw [if_neg hlength]
    refine bind_eq_ok.mpr ⟨_, _, readFull_eq_ok.mpr ⟨hlen.symm, rfl⟩, ?_⟩
    exact pure_eq_ok.mpr ⟨rfl, rfl⟩

/-- **What the decoders accept**: the byte strings that begin with an encoding. -/
theorem decodeFrame_eq_ok :
    decodeFrame e data = .ok (m, pdu) ↔ pdu.data.length ≤ 65533 ∧
      ∃ rest, data = m.encode (1 + pdu.data.length) ++ pdu.functionCode :: pdu.data ++ rest := by
  have hdecode : ByteReader.decode (readFrame e) data = .ok (m, pdu) ↔
      ∃ rest, readFrame e data = .ok ((m, pdu), rest) := by
    rw [ByteReader.decode]
    cases readFrame e data with
    | error e => simp [Except.map]
    | ok x =>
      obtain ⟨a, rest⟩ := x
      simp [Except.map]
  simp only [readFrame_eq_ok] at hdecode
  rw [decodeFrame]
  split_ifs with hshort
  · refine iff_of_false (fun h => by cases h) ?_
    rintro ⟨-, rest, rfl⟩
    simp only [List.length_append, MBAP.length_encode, tcpHeaderLength] at hshort
    omega
  · rw [hdecode, exists_and_right, and_comm]

theorem Request.decode_eq_ok {r : Request} :
    Request.decode data = .ok r ↔ r.pdu.data.length ≤ 65533 ∧ ∃ rest, data = r.encode ++ rest := by
  obtain ⟨m, pdu⟩ := r
  refine Iff.trans ?_ (decodeFrame_eq_ok (e := .refused "invalid request length"))
  rw [Request.decode]
  cases decodeFrame _ data with
  | error e => simp [Except.map]
  | ok x =>
    obtain ⟨m', pdu'⟩ := x
    simp [Except.map]

theorem Response.decode_eq_ok {r : Response} :
    Response.decode data = .ok r ↔ r.pdu.data.length ≤ 65533 ∧ ∃ rest, data = r.encode ++ rest := by
  obtain ⟨m, pdu⟩ := r
  refine Iff.trans ?_ (decodeFrame_eq_ok (e := .refused "invalid response length"))
  rw [Response.decode]
  cases decodeFrame _ data with
  | error e => simp [Except.map]
  | ok x =>
    obtain ⟨m', pdu'⟩ := x
    simp [Except.map]

end Accepted

/-! ### One turn of a loop -/

section Turns

variable {arr : List Arrival}

/-- What the server receives is what `Request.Decode` makes of the bytes, if that has the protocol
ID 0. -/
theorem received_iff_decode {r : Request} (hexp : expiries arr = []) (hfail : .failure ∉ arr) :
    (∃ rest, serveTurn arr = .received r rest) ↔
      Request.decode (bytes arr) = .ok r ∧ r.protocolID = tcpProtocolIdentifier := by
  rw [Request.decode_eq_ok]
  constructor
  · rintro ⟨rest, hturn⟩
    have hs := serveTurn_spec arr
    rw [hturn] at hs
    obtain ⟨header, body, hl, hacc, hbody, henc, hb, -, -⟩ := hs
    have hlen := congrArg List.length henc
    rw [Request.length_encode, List.length_append, hl, hbody, tcpHeaderLength] at hlen
    have hlt := (Header.ofBytes header).length.toNat_lt
    refine ⟨⟨by omega, bytes rest, by rw [hb, henc]⟩, ?_⟩
    obtain ⟨hheader, -⟩ := List.append_inj henc (by rw [MBAP.length_encode, hl])
    rw [← hacc.1, ← hheader, Header.ofBytes_encode]
  · rintro ⟨⟨hlen, tail, hb⟩, hp⟩
    obtain ⟨rest, hturn, -⟩ := serveTurn_of_quiet r tail hp hlen hb (by simp [hexp]) hfail
    exact ⟨rest, hturn⟩

/-- The client's loop and the server's loop take the same frames. -/
theorem deliver_iff_received {q : Response} {rest : List Arrival} :
    readTurn arr = .deliver q rest ↔ serveTurn arr = .received ⟨q.toMBAP, q.pdu⟩ rest := by
  obtain ⟨m, pdu⟩ := q
  unfold readTurn serveTurn
  cases TimedStream.readFull tcpHeaderLength arr with
  | timeout got rest => simp
  | failed got => simp
  | blocked got => simp
  | full header rest' =>
    dsimp only
    split_ifs with hp hn
    · simp
    · simp
    cases TimedStream.readFull ((Header.ofBytes header).length.toNat - 1) rest' with
    | timeout got rest => simp
    | failed got => simp
    | blocked got => simp
    | full body rest => simp [newRequest, newResponse]

/-- The two decoders take the same frames. -/
theorem Response.decode_iff_request {q : Response} {data : List UInt8} :
    Response.decode data = .ok q ↔ Request.decode data = .ok ⟨q.toMBAP, q.pdu⟩ := by
  rw [Response.decode_eq_ok, Request.decode_eq_ok]
  rfl

/-- What the client delivers is what `Response.Decode` makes of the bytes, if that has the protocol
ID 0. -/
theorem deliver_iff_decode {q : Response} (hexp : expiries arr = []) (hfail : .failure ∉ arr) :
    (∃ rest, readTurn arr = .deliver q rest) ↔
      Response.decode (bytes arr) = .ok q ∧ q.protocolID = tcpProtocolIdentifier := by
  simp only [deliver_iff_received, Response.decode_iff_request]
  exact received_iff_decode hexp hfail

end Turns

/-! ### The server's loop -/

/-- The turns of a loop that dispatches `rs` and nothing else, from `offset` on. -/
def dispatchedFrom (offset : ℕ) : List Request → List ServeEvent
  | [] => []
  | r :: rs => .dispatched offset r :: dispatchedFrom (offset + r.encode.length) rs

section Server

variable {σ : Type} (dispatch : Request → σ → Except (Fault HandlerErr) Response × σ)
  {rs : List Request} {arr : List Arrival}

/-- The connection `c` was fed the requests `rs`: they are dispatched in order, and all of them
unless a handler ends the connection. -/
structure Dispatches (offset : ℕ) (rs : List Request) (c : Connection σ) : Prop where
  events_prefix : c.events <+: dispatchedFrom offset rs
  events_eq : c.ending = .waiting → c.events = dispatchedFrom offset rs

/-- A handler that ends the connection does not leave it waiting. -/
theorem ne_waiting_of_replyTo {r : Request} {out : Except (Fault HandlerErr) Response}
    {ending : ServeEnd} (h : replyTo r out = .error ending) : ending ≠ .waiting := by
  rintro rfl
  match out with
  | .ok _ => cases h
  | .error (.error (.modbus _)) => cases h
  | .error (.error .other) => cases h
  | .error .panic => cases h

/-- The encodings of requests, one behind the other. The induction is on the requests: each turn of
the loop takes the first of them from the connection. -/
theorem dispatches_of_pipelined
    (hrs : ∀ r ∈ rs, r.protocolID = tcpProtocolIdentifier ∧ r.pdu.data.length ≤ 65533)
    (hb : bytes arr = rs.flatMap Request.encode) (hexp : expiries arr = [])
    (hfail : .failure ∉ arr) (offset : ℕ) (s : σ) :
    Dispatches offset rs (handleConnection dispatch offset arr s) ∧
      ((∀ r ∈ rs, ∀ s, ∃ response, replyTo r (dispatch r s).1 = .ok response) →
        (handleConnection dispatch offset arr s).ending = .waiting) := by
  induction rs generalizing arr offset s with
  | nil =>
    have hread := readFull_of_silent (n := tcpHeaderLength) (by simp [hb, tcpHeaderLength]) hexp
      hfail
    have hturn : serveTurn arr = .silent .waiting := by simp only [serveTurn, hread]
    rw [handleConnection_of_silent hturn]
    exact ⟨⟨List.nil_prefix, fun _ => rfl⟩, fun _ => rfl⟩
  | cons r rs ih =>
    obtain ⟨⟨hp, hlen⟩, hrs⟩ := List.forall_mem_cons.mp hrs
    obtain ⟨rest, hturn, hrest, he, hf⟩ := serveTurn_of_quiet r (rs.flatMap Request.encode) hp hlen
      (by rw [hb, List.flatMap_cons]) (by simp [hexp]) hfail
    have hexp' : expiries rest = [] := List.map_eq_nil_iff.mp (he.symm.trans hexp)
    cases hreply : replyTo r (dispatch r s).1 with
    | ok response =>
      obtain ⟨⟨hpre, hall⟩, hwait⟩ :=
        ih hrs hrest hexp' hf (offset + r.encode.length) (dispatch r s).2
      rw [handleConnection_of_received hturn hreply]
      refine ⟨⟨List.cons_prefix_cons.mpr ⟨rfl, hpre⟩, fun h => ?_⟩, fun h => hwait fun q hq =>
        h q (List.mem_cons_of_mem _ hq)⟩
      exact congrArg _ (hall h)
    | error ending =>
      rw [handleConnection_of_ending hturn hreply]
      refine ⟨⟨List.cons_prefix_cons.mpr ⟨rfl, List.nil_prefix⟩, fun h => ?_⟩, fun h => ?_⟩
      · exact absurd h (ne_waiting_of_replyTo hreply)
      · obtain ⟨response, hok⟩ := h r List.mem_cons_self s
        rw [hreply] at hok
        cases hok

end Server

/-- The handlers of the server answer every request. -/
theorem exists_replyTo_dispatchOn (r : Request) (s : MemoryStore) :
    ∃ response, replyTo r (dispatchOn r s).1 = .ok response := by
  have h := handled_dispatchOn r s
  unfold Handled at h
  match (dispatchOn r s).1, h with
  | .ok response, _ => exact ⟨response, rfl⟩
  | .error (.error _), ⟨⟨code, rfl⟩, _⟩ => exact ⟨_, rfl⟩

/-- **Pipelined frames are parsed exactly.** `Request.Decode` inverts `Request.Encode`. The server's
connection loop, fed the encodings of requests with protocol ID 0, however they are cut into chunks,
dispatches these requests in order and goes on waiting; with handlers of another kind it dispatches
them until a handler ends the connection. `Response.Decode` inverts `Response.Encode`, and the
decoders accept what the loops accept, but for the protocol ID. -/
theorem pipelined_exactly (rs : List Request)
    (hrs : ∀ r ∈ rs, r.protocolID = tcpProtocolIdentifier ∧ r.pdu.data.length ≤ 65533) :
    (∀ r ∈ rs, Request.decode r.encode = .ok r) ∧
    (∀ arr, bytes arr = rs.flatMap Request.encode → expiries arr = [] → .failure ∉ arr →
      (∀ s, (handleConnection dispatchOn 0 arr s).events = dispatchedFrom 0 rs ∧
        (handleConnection dispatchOn 0 arr s).ending = .waiting) ∧
      ∀ (σ : Type) (dispatch : Request → σ → Except (Fault HandlerErr) Response × σ) (s : σ),
        Dispatches 0 rs (handleConnection dispatch 0 arr s)) ∧
    (∀ q : Response, q.pdu.data.length ≤ 65533 → Response.decode q.encode = .ok q) ∧
    (∀ arr, expiries arr = [] → .failure ∉ arr →
      (∀ r, (∃ rest, serveTurn arr = .received r rest) ↔
        Request.decode (bytes arr) = .ok r ∧ r.protocolID = tcpProtocolIdentifier) ∧
      ∀ q, (∃ rest, readTurn arr = .deliver q rest) ↔
        Response.decode (bytes arr) = .ok q ∧ q.protocolID = tcpProtocolIdentifier) := by
  refine ⟨fun r hr => ?_, fun arr hb hexp hfail => ⟨fun s => ?_, fun σ dispatch s => ?_⟩,
    fun q hq => ?_, fun arr hexp hfail => ⟨fun r => ?_, fun q => ?_⟩⟩
  · exact Request.decode_eq_ok.mpr ⟨(hrs r hr).2, [], (List.append_nil _).symm⟩
  · obtain ⟨hd, hwait⟩ := dispatches_of_pipelined dispatchOn hrs hb hexp hfail 0 s
    have hending := hwait fun r _ s => exists_replyTo_dispatchOn r s
    exact ⟨hd.events_eq hending, hending⟩
  · exact (dispatches_of_pipelined dispatch hrs hb hexp hfail 0 s).1
  · exact Response.decode_eq_ok.mpr ⟨hq, [], (List.append_nil _).symm⟩
  · exact received_iff_decode hexp hfail
  · exact deliver_iff_decode hexp hfail

/-- A read and a write of a register in one chunk. -/
theorem pipelined_read_write :
    (handleConnection dispatchOn 0
        [.chunk [0, 1, 0, 0, 0, 6, 9, 3, 0, 0, 0, 1, 0, 2, 0, 0, 0, 6, 9, 6, 0, 0, 0, 7]]
        newMemoryStore).events =
      [.dispatched 0 (newRequest 1 9 3 [0, 0, 0, 1]),
        .dispatched 12 (newRequest 2 9 6 [0, 0, 0, 7])] :=
  (((pipelined_exactly [newRequest 1 9 3 [0, 0, 0, 1], newRequest 2 9 6 [0, 0, 0, 7]]
    (by decide)).2.1 _ (by decide) (by decide) (by decide)).1 newMemoryStore).1

end GoIndustrial.Modbus
