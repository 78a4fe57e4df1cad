import GoIndustrial.Lib.TimedStream
import GoIndustrial.Modbus.Handlers

/-!
# The server's connection loop

`Server.handleConnection` of `protocol/modbus/server.go` on the arrivals of one connection. A read
deadline that passes in a header makes the loop start over with a new header, and so does a header
that it rejects; the bytes read so far are dropped, the rest of the frame stays on the connection.
A deadline that passes in a body ends the connection.

The handlers are a parameter: `dispatch` may be any function of the request and the state behind the
server. The statistics of the client, the callbacks and the logging are left out. Each turn of the
loop is recorded as an event with the offset in the byte stream at which its header begins.

## Main definitions

* `Modbus.handleConnection` : the loop.
* `Modbus.FrameBoundary` : the offsets that the length fields lead to.
* `Modbus.GenuineFrames` : requests begin at frame boundaries, abandoned frames stay unread.
* `Modbus.InStep` : the streams whose headers are read undisturbed and accepted.

## Main results

* `Modbus.genuineFrames_of_inStep` : on such a stream only genuine frames are executed.
-/

namespace GoIndustrial.Modbus

open TimedStream

/-! ### The loop -/

/-- How a connection stands when its loop ends or blocks. -/
inductive ServeEnd
  /-- It waits for more bytes. -/
  | waiting
  /-- `handleConnection` returned and closed the connection. -/
  | returned
  /-- A handler panicked. -/
  | crashed
  deriving DecidableEq, Repr

/-- What one turn of the loop takes from the connection. -/
inductive ServeTurn
  /-- A deadline passed in the header; `got` was read before. -/
  | timedOut (got : List UInt8) (rest : List Arrival)
  /-- The protocol ID or the length of the header is not legal. -/
  | rejected (header : Header) (rest : List Arrival)
  /-- A whole frame. -/
  | received (request : Request) (rest : List Arrival)
  /-- A legal header whose body does not arrive. -/
  | unfinished (header : Header) (ending : ServeEnd)
  /-- No whole header arrives. -/
  | silent (ending : ServeEnd)
  deriving DecidableEq, Repr

/-- The checks of a header. -/
def Header.Accepted (h : Header) : Prop :=
  h.protocolID = tcpProtocolIdentifier ∧ 2 ≤ h.length.toNat

instance (h : Header) : Decidable h.Accepted := inferInstanceAs (Decidable (_ ∧ _))

/-- The reads and checks of one turn of `Server.handleConnection`. -/
def serveTurn (arr : List Arrival) : ServeTurn :=
  match readFull tcpHeaderLength arr with
  | .timeout got rest => .timedOut got rest
  | .failed _ => .silent .returned
  | .blocked _ => .silent .waiting
  | .full header rest =>
    let h := Header.ofBytes header
    if h.protocolID ≠ tcpProtocolIdentifier then .rejected h rest
    else if h.length.toNat ≤ 1 then .rejected h rest
    else
      match readFull (h.length.toNat - 1) rest with
      | .timeout _ _ => .unfinished h .returned
      | .failed _ => .unfinished h .returned
      | .blocked _ => .unfinished h .waiting
      | .full data rest =>
        .received (newRequest h.transactionID h.unitID (data.getD 0 0) (data.drop 1)) rest

/-- What a turn of the loop did, with the offset of its header. -/
inductive ServeEvent
  | timedOut (offset : ℕ) (got : List UInt8)
  | rejected (offset : ℕ) (header : Header)
  | unfinished (offset : ℕ) (header : Header)
  | dispatched (offset : ℕ) (request : Request)
  deriving DecidableEq, Repr

/-- A connection after its loop has ended or blocked. -/
structure Connection (σ : Type) where
  /-- The turns of the loop, the first one first. -/
  events : List ServeEvent
  /-- The responses given to `sendResponse`. -/
  replies : List Response
  /-- The state behind the handlers. -/
  state : σ
  ending : ServeEnd

/-- Record what happened before. -/
def Connection.after {σ : Type} (c : Connection σ) (event : ServeEvent) (replies : List Response) :
    Connection σ :=
  { c with events := event :: c.events, replies := replies ++ c.replies }

/-- The response for the outcome of a handler: an exception response for a Modbus error; any other
error ends the connection. -/
def replyTo (request : Request) : Except (Fault HandlerErr) Response → Except ServeEnd Response
  | .ok response => .ok response
  | .error (.error (.modbus e)) =>
    .ok (newResponse request.transactionID request.unitID
      (request.pdu.functionCode ||| exceptionBit) [e.exceptionCode])
  | .error (.error .other) => .error .returned
  | .error .panic => .error .crashed

/-- What a turn says about the arrivals. -/
def ServeTurn.Spec (arr : List Arrival) : ServeTurn → Prop
  | .timedOut got rest => got.length < tcpHeaderLength ∧ bytes arr = got ++ bytes rest ∧
      expiries arr = got.length :: (expiries rest).map (· + got.length) ∧
      rest.length < arr.length
  | .rejected h rest => ∃ header, header.length = tcpHeaderLength ∧ h = Header.ofBytes header ∧
      ¬ h.Accepted ∧ bytes arr = header ++ bytes rest ∧
      expiries arr = (expiries rest).map (· + tcpHeaderLength) ∧ rest.length ≤ arr.length
  | .received r rest => ∃ header body, header.length = tcpHeaderLength ∧
      (Header.ofBytes header).Accepted ∧ body.length = (Header.ofBytes header).length.toNat - 1 ∧
      r.encode = header ++ body ∧ bytes arr = header ++ body ++ bytes rest ∧
      expiries arr = (expiries rest).map (· + r.encode.length) ∧ rest.length ≤ arr.length
  | .unfinished _ _ => True
  | .silent _ => True

theorem serveTurn_spec (arr : List Arrival) : (serveTurn arr).Spec arr := by
  have hs := readFull_spec tcpHeaderLength arr
  unfold serveTurn
  cases hh : readFull tcpHeaderLength arr with
  | timeout got rest =>
    rw [hh] at hs
    exact ⟨hs.1, hs.2.1, hs.2.2.1, hs.2.2.2.1⟩
  | failed got => trivial
  | blocked got => trivial
  | full header rest =>
    rw [hh] at hs
    obtain ⟨hl, hb, he, hlen, -⟩ := hs
    dsimp only
    split_ifs with hp hn
    · exact ⟨header, hl, rfl, fun ha => hp ha.1, hb, he, hlen⟩
    · refine ⟨header, hl, rfl, fun ha => ?_, hb, he, hlen⟩
      have := ha.2
      omega
    have hs' := readFull_spec ((Header.ofBytes header).length.toNat - 1) rest
    cases hh' : readFull ((Header.ofBytes header).length.toNat - 1) rest with
    | timeout got rest' => trivial
    | failed got => trivial
    | blocked got => trivial
    | full body rest' =>
      rw [hh'] at hs'
      obtain ⟨hl', hb', he', hlen', -⟩ := hs'
      have henc : (newRequest (Header.ofBytes header).transactionID (Header.ofBytes header).unitID
          (body.getD 0 0) (body.drop 1)).encode = header ++ body :=
        Header.encode_append_body hl (not_not.mp hp) (by omega) hl'
      refine ⟨header, body, hl, ⟨not_not.mp hp, by omega⟩, hl', henc,
        by rw [hb, hb', List.append_assoc], ?_, by omega⟩
      rw [he, he', List.map_map, henc, List.length_append, hl, hl']
      exact List.map_congr_left fun k _ => by simp only [Function.comp_apply]; omega

theorem weight_lt_of_timedOut {arr rest : List Arrival} {got : List UInt8}
    (h : serveTurn arr = .timedOut got rest) : weight rest < weight arr := by
  have hs := serveTurn_spec arr
  rw [h] at hs
  obtain ⟨-, hb, -, hlen⟩ := hs
  simp only [weight, hb, List.length_append]
  omega

theorem weight_lt_of_rejected {arr rest : List Arrival} {header : Header}
    (h : serveTurn arr = .rejected header rest) : weight rest < weight arr := by
  have hs := serveTurn_spec arr
  rw [h] at hs
  obtain ⟨hd, hl, -, -, hb, -, hlen⟩ := hs
  simp only [weight, hb, List.length_append, hl, tcpHeaderLength]
  omega

theorem weight_lt_of_received {arr rest : List Arrival} {r : Request}
    (h : serveTurn arr = .received r rest) : weight rest < weight arr := by
  have hs := serveTurn_spec arr
  rw [h] at hs
  obtain ⟨hd, body, hl, -, -, -, hb, -, hlen⟩ := hs
  simp only [weight, hb, List.length_append, hl, tcpHeaderLength]
  omega

variable {σ : Type} (dispatch : Request → σ → Except (Fault HandlerErr) Response × σ)

/-- `Server.handleConnection`, entered when `offset` bytes have been read. -/
def handleConnection (offset : ℕ) (arr : List Arrival) (s : σ) : Connection σ :=
  match _h : serveTurn arr with
  | .timedOut got rest =>
    (handleConnection (offset + got.length) rest s).after (.timedOut offset got) []
  | .rejected header rest =>
    (handleConnection (offset + tcpHeaderLength) rest s).after (.rejected offset header) []
  | .received request rest =>
    match replyTo request (dispatch request s).1 with
    | .ok response =>
      (handleConnection (offset + request.encode.length) rest (dispatch request s).2).after
        (.dispatched offset request) [response]
    | .error ending => ⟨[.dispatched offset request], [], (dispatch request s).2, ending⟩
  | .unfinished header ending => ⟨[.unfinished offset header], [], s, ending⟩
  | .silent ending => ⟨[], [], s, ending⟩
termination_by weight arr
decreasing_by
  · exact weight_lt_of_timedOut _h
  · exact weight_lt_of_rejected _h
  · exact weight_lt_of_received _h

section Equations

variable {dispatch} {offset : ℕ} {arr rest : List Arrival} {s : σ}

theorem handleConnection_of_timedOut {got : List UInt8} (h : serveTurn arr = .timedOut got rest) :
    handleConnection dispatch offset arr s =
      (handleConnection dispatch (offset + got.length) rest s).after (.timedOut offset got) [] := by
  rw [handleConnection]
  split <;> simp_all

theorem handleConnection_of_rejected {header : Header}
    (h : serveTurn arr = .rejected header rest) :
    handleConnection dispatch offset arr s =
      (handleConnection dispatch (offset + tcpHeaderLength) rest s).after
        (.rejected offset header) [] := by
  rw [handleConnection]
  split <;> simp_all

theorem handleConnection_of_received {r : Request} {response : Response}
    (h : serveTurn arr = .received r rest) (hr : replyTo r (dispatch r s).1 = .ok response) :
    handleConnection dispatch offset arr s =
      (handleConnection dispatch (offset + r.encode.length) rest (dispatch r s).2).after
        (.dispatched offset r) [response] := by
  rw [handleConnection]
  split <;> simp_all

theorem handleConnection_of_ending {r : Request} {ending : ServeEnd}
    (h : serveTurn arr = .received r rest) (hr : replyTo r (dispatch r s).1 = .error ending) :
    handleConnection dispatch offset arr s =
      ⟨[.dispatched offset r], [], (dispatch r s).2, ending⟩ := by
  rw [handleConnection]
  split <;> simp_all

theorem handleConnection_of_unfinished {header : Header} {ending : ServeEnd}
    (h : serveTurn arr = .unfinished header ending) :
    handleConnection dispatch offset arr s = ⟨[.unfinished offset header], [], s, ending⟩ := by
  rw [handleConnection]
  split <;> simp_all

theorem handleConnection_of_silent {ending : ServeEnd} (h : serveTurn arr = .silent ending) :
    handleConnection dispatch offset arr s = ⟨[], [], s, ending⟩ := by
  rw [handleConnection]
  split <;> simp_all

end Equations

/-- A request that arrives undisturbed is received. -/
theorem serveTurn_of_quiet {arr : List Arrival} (r : Request) (tail : List UInt8)
    (hp : r.protocolID = tcpProtocolIdentifier) (hlen : r.pdu.data.length ≤ 65533)
    (hb : bytes arr = r.encode ++ tail) (hexp : ∀ o ∈ expiries arr, r.encode.length ≤ o)
    (hfail : .failure ∉ arr) :
    ∃ rest, serveTurn arr = .received r rest ∧ bytes rest = tail ∧
      expiries arr = (expiries rest).map (· + r.encode.length) ∧ .failure ∉ rest := by
  have hnat : (UInt16.ofNat (1 + (r.pdu.data.length + 1))).toNat = r.pdu.data.length + 2 := by
    rw [UInt16.toNat_ofNat']
    omega
  have henc : tcpHeaderLength + (r.pdu.functionCode :: r.pdu.data).length = r.encode.length := by
    simp only [tcpHeaderLength, List.length_cons, Request.length_encode]
    omega
  obtain ⟨rest, rest', hread, hread', hrest, he, hf⟩ := readFull_of_quiet_frame r.toMBAP
    (r.pdu.functionCode :: r.pdu.data) tail
    (by rw [hb, Request.encode, List.length_cons, Nat.add_comm 1]) (by rwa [henc]) hfail
  rw [henc] at he
  rw [List.length_cons] at hread hread'
  refine ⟨rest', ?_, hrest, he, hf⟩
  unfold serveTurn
  simp only [hread, Header.ofBytes_encode, hp, ne_eq, not_true_eq_false, if_false, hnat,
    show ¬ r.pdu.data.length + 2 ≤ 1 by omega,
    show r.pdu.data.length + 2 - 1 = r.pdu.data.length + 1 by omega, hread']
  simp [newRequest, ← hp]

/-! ### Frames of a byte stream -/

/-- The header at offset `o` of a byte stream, when it is there. -/
def headerAt (stream : List UInt8) (o : ℕ) : Option Header :=
  if o + tcpHeaderLength ≤ stream.length then
    some (Header.ofBytes ((stream.drop o).take tcpHeaderLength))
  else none

/-- The offset behind a frame that begins at `o`: six header bytes, then what the length counts. -/
def Header.frameEnd (h : Header) (o : ℕ) : ℕ := o + 6 + h.length.toNat

/-- The offsets reached by following the length fields from the start of the stream. -/
inductive FrameBoundary (stream : List UInt8) : ℕ → Prop
  | start : FrameBoundary stream 0
  | next {o : ℕ} {h : Header} (ho : FrameBoundary stream o) (hh : headerAt stream o = some h) :
      FrameBoundary stream (h.frameEnd o)

/-- Byte `i` belongs to the remainder of a frame whose header the turn rejected or read in part. -/
def ServeEvent.Abandons (stream : List UInt8) (i : ℕ) : ServeEvent → Prop
  | .timedOut o got => got ≠ [] ∧ o + got.length ≤ i ∧
      ∀ h, headerAt stream o = some h → i < o + tcpHeaderLength ∨ i < h.frameEnd o
  | .rejected o h => o + tcpHeaderLength ≤ i ∧ i < h.frameEnd o
  | .unfinished _ _ => False
  | .dispatched _ _ => False

/-- Byte `i` was read as part of a header, or executed as part of a request. -/
def ServeEvent.Interprets (i : ℕ) : ServeEvent → Prop
  | .timedOut _ _ => False
  | .rejected o _ => o ≤ i ∧ i < o + tcpHeaderLength
  | .unfinished o _ => o ≤ i ∧ i < o + tcpHeaderLength
  | .dispatched o r => o ≤ i ∧ i < o + r.encode.length

/-- Only genuine frames are executed: every dispatched request begins at a frame boundary, and no
byte of the remainder of a rejected or partly read frame is interpreted. -/
structure GenuineFrames (stream : List UInt8) (events : List ServeEvent) : Prop where
  boundary : ∀ o r, .dispatched o r ∈ events → FrameBoundary stream o
  untouched : ∀ e ∈ events, ∀ e' ∈ events, ∀ i, e.Abandons stream i → ¬ e'.Interprets i

/-- The boundaries that the loop can come to, and the state behind the handlers there: the bodies
before them were not cut by a deadline, and the handlers of these frames did not end the connection.
-/
inductive ReachedBoundary (arr : List Arrival) (s₀ : σ) : ℕ → σ → Prop
  | start : ReachedBoundary arr s₀ 0 s₀
  /-- A frame that is only a header is rejected. -/
  | bare {o : ℕ} {s : σ} {h : Header} (ho : ReachedBoundary arr s₀ o s)
      (hh : headerAt (bytes arr) o = some h) (hone : h.length = 1) :
      ReachedBoundary arr s₀ (h.frameEnd o) s
  | next {o : ℕ} {s : σ} {h : Header} {r : Request} {response : Response}
      (ho : ReachedBoundary arr s₀ o s) (hh : headerAt (bytes arr) o = some h)
      (hquiet : ∀ e ∈ expiries arr, ¬ (o + tcpHeaderLength ≤ e ∧ e < h.frameEnd o))
      (hr : ((bytes arr).drop o).take (6 + h.length.toNat) = r.encode)
      (hreply : replyTo r (dispatch r s).1 = .ok response) :
      ReachedBoundary arr s₀ (h.frameEnd o) (dispatch r s).2

/-- At every boundary that the loop comes to, no deadline passes inside the header, and the header
is accepted or has nothing behind its seven bytes. -/
def InStep (arr : List Arrival) (s₀ : σ) : Prop :=
  ∀ o s, ReachedBoundary dispatch arr s₀ o s →
    (∀ e ∈ expiries arr, ¬ (o < e ∧ e < o + tcpHeaderLength)) ∧
    ∀ h, headerAt (bytes arr) o = some h → h.Accepted ∨ h.length = 1

variable {dispatch}

theorem ReachedBoundary.frameBoundary {arr : List Arrival} {s₀ s : σ} {o : ℕ}
    (h : ReachedBoundary dispatch arr s₀ o s) : FrameBoundary (bytes arr) o := by
  induction h with
  | start => exact .start
  | bare _ hh _ ih => exact .next ih hh
  | next _ hh _ _ _ ih => exact .next ih hh

/-! ### Streams in step -/

/-- `rest` is what is left of `arr` at offset `o`. -/
structure LeftAt (arr : List Arrival) (o : ℕ) (rest : List Arrival) : Prop where
  drop_eq : (bytes arr).drop o = bytes rest
  le_length : o ≤ (bytes arr).length
  /-- Deadlines of the rest are deadlines of the whole, and those behind `o` are in the rest. -/
  expiry : ∀ e, o < e → (e ∈ expiries arr ↔ e - o ∈ expiries rest)

theorem LeftAt.self (arr : List Arrival) : LeftAt arr 0 arr :=
  ⟨rfl, Nat.zero_le _, fun _ _ => Iff.rfl⟩

theorem LeftAt.advance {arr rest rest' : List Arrival} {o n : ℕ} {got : List UInt8}
    (h : LeftAt arr o rest) (hn : got.length = n) (hb : bytes rest = got ++ bytes rest')
    (he : ∀ e, n < e → (e ∈ expiries rest ↔ e - n ∈ expiries rest')) :
    LeftAt arr (o + n) rest' := by
  have hlen := congrArg List.length h.drop_eq
  rw [hb, List.length_drop, List.length_append, hn] at hlen
  refine ⟨?_, by have := h.le_length; omega, fun e hlt => ?_⟩
  · rw [← List.drop_drop, h.drop_eq, hb, ← hn, List.drop_left]
  · rw [h.expiry e (by omega), he (e - o) (by omega), Nat.sub_sub]

private theorem mem_shift {l : List ℕ} {n e : ℕ} (hlt : n < e) :
    e ∈ l.map (· + n) ↔ e - n ∈ l := by
  constructor
  · intro h
    obtain ⟨k, hk, rfl⟩ := List.mem_map.mp h
    simpa using hk
  · exact fun h => List.mem_map.mpr ⟨_, h, by omega⟩

theorem LeftAt.headerAt_eq {arr rest : List Arrival} {o : ℕ} {header tail : List UInt8}
    (h : LeftAt arr o rest) (hl : header.length = tcpHeaderLength)
    (hb : bytes rest = header ++ tail) :
    headerAt (bytes arr) o = some (Header.ofBytes header) := by
  have hlen := congrArg List.length h.drop_eq
  rw [hb, List.length_drop, List.length_append, hl] at hlen
  have := h.le_length
  rw [headerAt, if_pos (by simp only [tcpHeaderLength] at hlen ⊢; omega), h.drop_eq, hb,
    List.take_left' hl]

/-- What the turns of a loop in step are: nothing is abandoned, requests begin at boundaries. -/
def ServeEvent.Regular (stream : List UInt8) : ServeEvent → Prop
  | .timedOut _ got => got = []
  | .rejected _ h => h.length = 1
  | .unfinished _ _ => True
  | .dispatched o _ => FrameBoundary stream o

theorem ServeEvent.Regular.not_abandons {stream : List UInt8} {e : ServeEvent}
    (h : e.Regular stream) (i : ℕ) : ¬ e.Abandons stream i := by
  cases e with
  | timedOut o got => exact fun ha => ha.1 h
  | rejected o header =>
    rintro ⟨hle, hlt⟩
    have h1 : header.length.toNat = 1 := congrArg UInt16.toNat h
    rw [Header.frameEnd, h1] at hlt
    simp only [tcpHeaderLength] at hle
    omega
  | unfinished o header => exact id
  | dispatched o r => exact id

section InStep

variable {arr rest rest' : List Arrival} {o : ℕ} {s₀ s : σ}

/-- In step, a deadline that passes while a header is read passes before its first byte. -/
theorem InStep.timedOut (hin : InStep dispatch arr s₀) (hleft : LeftAt arr o rest)
    (ho : ReachedBoundary dispatch arr s₀ o s) {got : List UInt8}
    (ht : serveTurn rest = .timedOut got rest') : got = [] ∧ LeftAt arr o rest' := by
  have hs := serveTurn_spec rest
  rw [ht] at hs
  obtain ⟨hlt, hb, he, -⟩ := hs
  have hgot : got = [] := by
    by_contra hne
    have hpos := List.length_pos_of_ne_nil hne
    have hmem : o + got.length ∈ expiries arr := by
      rw [hleft.expiry _ (by omega), he]
      simp
    exact (hin o s ho).1 _ hmem ⟨by omega, by omega⟩
  have hleft' := hleft.advance rfl hb fun e hlt => by
    rw [he, List.mem_cons, mem_shift hlt]
    exact or_iff_right (by omega)
  subst hgot
  exact ⟨rfl, hleft'⟩

/-- In step, a header that is rejected is a whole frame. -/
theorem InStep.rejected (hin : InStep dispatch arr s₀) (hleft : LeftAt arr o rest)
    (ho : ReachedBoundary dispatch arr s₀ o s) {header : Header}
    (ht : serveTurn rest = .rejected header rest') :
    header.length = 1 ∧ LeftAt arr (o + tcpHeaderLength) rest' ∧
      ReachedBoundary dispatch arr s₀ (o + tcpHeaderLength) s := by
  have hs := serveTurn_spec rest
  rw [ht] at hs
  obtain ⟨hd, hl, rfl, hrej, hb, he, -⟩ := hs
  have hat := hleft.headerAt_eq hl hb
  have hone : (Header.ofBytes hd).length = 1 := ((hin o s ho).2 _ hat).resolve_left hrej
  have hend : (Header.ofBytes hd).frameEnd o = o + tcpHeaderLength := by
    rw [Header.frameEnd, hone]
    rfl
  refine ⟨hone, hleft.advance hl hb fun e hlt => by rw [he, mem_shift hlt], ?_⟩
  exact hend ▸ .bare ho hat hone

/-- A request that is received and answered ends at a boundary. -/
theorem ReachedBoundary.received (hleft : LeftAt arr o rest)
    (ho : ReachedBoundary dispatch arr s₀ o s) {r : Request} {response : Response}
    (ht : serveTurn rest = .received r rest') (hr : replyTo r (dispatch r s).1 = .ok response) :
    LeftAt arr (o + r.encode.length) rest' ∧
      ReachedBoundary dispatch arr s₀ (o + r.encode.length) (dispatch r s).2 := by
  have hs := serveTurn_spec rest
  rw [ht] at hs
  obtain ⟨hd, body, hl, hacc, hbody, henc, hb, he, -⟩ := hs
  have hat := hleft.headerAt_eq hl (hb.trans (List.append_assoc _ _ _))
  have hlen : r.encode.length = 6 + (Header.ofBytes hd).length.toNat := by
    have := hacc.2
    rw [henc, List.length_append, hl, hbody]
    simp only [tcpHeaderLength]
    omega
  have hend : (Header.ofBytes hd).frameEnd o = o + r.encode.length := by
    rw [Header.frameEnd, hlen]
    omega
  refine ⟨hleft.advance rfl (henc ▸ hb) fun e hlt => by rw [he, mem_shift hlt], ?_⟩
  refine hend ▸ .next ho hat (fun e hmem hcut => ?_)
    (by rw [hleft.drop_eq, hb, ← henc, ← hlen, List.take_left]) hr
  rw [hend] at hcut
  have hlt : o < e := by
    have := hcut.1
    simp only [tcpHeaderLength] at this
    omega
  rw [hleft.expiry e hlt, he] at hmem
  obtain ⟨k, -, hk⟩ := List.mem_map.mp hmem
  omega

/-- From a boundary on, every turn of a loop in step is regular. The induction is on what is left to
read; each turn that goes on ends at a boundary again. -/
theorem regular_of_inStep (hin : InStep dispatch arr s₀) (hleft : LeftAt arr o rest)
    (ho : ReachedBoundary dispatch arr s₀ o s) :
    ∀ e ∈ (handleConnection dispatch o rest s).events, e.Regular (bytes arr) := by
  induction h : weight rest using Nat.strongRecOn generalizing rest o s with
  | _ n ih =>
    subst h
    cases ht : serveTurn rest with
    | timedOut got rest' =>
      obtain ⟨rfl, hleft'⟩ := hin.timedOut hleft ho ht
      rw [handleConnection_of_timedOut ht]
      intro e hmem
      rcases List.mem_cons.mp hmem with rfl | hmem
      · rfl
      · exact ih _ (weight_lt_of_timedOut ht) hleft' ho rfl e hmem
    | rejected header rest' =>
      obtain ⟨hone, hleft', ho'⟩ := hin.rejected hleft ho ht
      rw [handleConnection_of_rejected ht]
      intro e hmem
      rcases List.mem_cons.mp hmem with rfl | hmem
      · exact hone
      · exact ih _ (weight_lt_of_rejected ht) hleft' ho' rfl e hmem
    | received r rest' =>
      cases hr : replyTo r (dispatch r s).1 with
      | ok response =>
        obtain ⟨hleft', ho'⟩ := ho.received hleft ht hr
        rw [handleConnection_of_received ht hr]
        intro e hmem
        rcases List.mem_cons.mp hmem with rfl | hmem
        · exact ho.frameBoundary
        · exact ih _ (weight_lt_of_received ht) hleft' ho' rfl e hmem
      | error ending =>
        rw [handleConnection_of_ending ht hr]
        intro e hmem
        obtain rfl := List.mem_singleton.mp hmem
        exact ho.frameBoundary
    | unfinished header ending =>
      rw [handleConnection_of_unfinished ht]
      intro e hmem
      obtain rfl := List.mem_singleton.mp hmem
      trivial
    | silent ending =>
      rw [handleConnection_of_silent ht]
      exact fun e hmem => absurd hmem List.not_mem_nil

end InStep

/-- **Only genuine frames are executed** on a connection whose headers are read undisturbed and
accepted: every request that any handlers are given begins at a frame boundary, and no byte of an
abandoned frame is interpreted. -/
theorem genuineFrames_of_inStep (arr : List Arrival) (s : σ) (hin : InStep dispatch arr s) :
    GenuineFrames (bytes arr) (handleConnection dispatch 0 arr s).events := by
  have hreg := regular_of_inStep hin (.self arr) .start
  exact ⟨fun o r hmem => hreg _ hmem, fun e he _ _ i ha => absurd ha ((hreg e he).not_abandons i)⟩

/-- A write of register 0 with a deadline before and one behind the frame. -/
theorem genuineFrames_write_between_expiries :
    GenuineFrames [0, 2, 0, 0, 0, 6, 9, 6, 0, 0, 0, 7]
      (handleConnection dispatchOn 0
        [.expiry, .chunk [0, 2, 0, 0, 0, 6, 9, 6, 0, 0, 0, 7], .expiry] newMemoryStore).events := by
  refine genuineFrames_of_inStep
    [.expiry, .chunk [0, 2, 0, 0, 0, 6, 9, 6, 0, 0, 0, 7], .expiry] _ fun o s ho => ?_
  have hoff : o = 0 ∨ o = 12 := by
    induction ho with
    | start => exact .inl rfl
    | @bare o _ h _ hh _ ih | @next o _ h _ _ _ hh _ _ _ ih =>
      rcases ih with rfl | rfl
      · obtain rfl : (⟨2, 0, 6, 9⟩ : Header) = h := Option.some.inj hh
        exact .inr rfl
      · cases hh
  rcases hoff with rfl | rfl
  · exact ⟨by decide, fun h hh => .inl (by cases hh; decide)⟩
  · exact ⟨by decide, fun h hh => by cases hh⟩

/-- A header with protocol ID 1 whose body of 12 bytes is itself a frame, a write of 7 to register
0. The server rejects the header, finds the next one in its body and executes the write, at offset 7
where no frame begins. -/
theorem handleConnection_executes_rejected_body :
    let stream : List UInt8 := [0, 1, 0, 1, 0, 13, 9, 0, 2, 0, 0, 0, 6, 9, 6, 0, 0, 0, 7]
    let c := handleConnection dispatchOn 0 [.chunk stream] newMemoryStore
    c.events = [.rejected 0 ⟨1, 1, 13, 9⟩, .dispatched 7 (newRequest 2 9 6 [0, 0, 0, 7])] ∧
    c.state.holdingRegisters 0 = some 7 ∧
    ¬ FrameBoundary stream 7 ∧ ¬ GenuineFrames stream c.events := by
  intro stream c
  have hrej : serveTurn [.chunk stream] =
      .rejected ⟨1, 1, 13, 9⟩ [.chunk [0, 2, 0, 0, 0, 6, 9, 6, 0, 0, 0, 7]] := by decide
  have hrec : serveTurn [.chunk [0, 2, 0, 0, 0, 6, 9, 6, 0, 0, 0, 7]] =
      .received (newRequest 2 9 6 [0, 0, 0, 7]) [.chunk []] := by decide
  have hreply : replyTo (newRequest 2 9 6 [0, 0, 0, 7])
      (dispatchOn (newRequest 2 9 6 [0, 0, 0, 7]) newMemoryStore).1 =
      .ok (newResponse 2 9 6 [0, 0, 0, 7]) := by decide
  have hend : serveTurn [.chunk []] = .silent .waiting := by decide
  have hat : headerAt stream 0 = some ⟨1, 1, 13, 9⟩ := by decide
  have hat' : headerAt stream 19 = none := by decide
  have hc : c = (((⟨[], [], (dispatchOn (newRequest 2 9 6 [0, 0, 0, 7]) newMemoryStore).2,
      .waiting⟩ : Connection MemoryStore).after (.dispatched 7 (newRequest 2 9 6 [0, 0, 0, 7]))
      [newResponse 2 9 6 [0, 0, 0, 7]]).after (.rejected 0 ⟨1, 1, 13, 9⟩) []) := by
    change handleConnection dispatchOn 0 [.chunk stream] newMemoryStore = _
    rw [handleConnection_of_rejected hrej, handleConnection_of_received hrec hreply,
      handleConnection_of_silent hend]
    rfl
  have hevents : c.events =
      [.rejected 0 ⟨1, 1, 13, 9⟩, .dispatched 7 (newRequest 2 9 6 [0, 0, 0, 7])] := by
    rw [hc]
    rfl
  have hoff : ∀ o, FrameBoundary stream o → o = 0 ∨ o = 19 := by
    intro o ho
    induction ho with
    | start => exact .inl rfl
    | @next o h _ hh ih =>
      rcases ih with rfl | rfl
      · obtain rfl := Option.some.inj (hat.symm.trans hh)
        exact .inr rfl
      · rw [hat'] at hh
        cases hh
  have hnot : ¬ FrameBoundary stream 7 := fun h => by
    rcases hoff 7 h with h | h <;> omega
  refine ⟨hevents, by rw [hc]; rfl, hnot, fun hg =>
    hnot (hg.boundary 7 (newRequest 2 9 6 [0, 0, 0, 7]) ?_)⟩
  rw [hevents]
  exact List.mem_cons_of_mem _ List.mem_cons_self

end GoIndustrial.Modbus
