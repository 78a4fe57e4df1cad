import GoIndustrial.Lib.TimedStream
import GoIndustrial.Modbus.Types

/-!
# The client's read loop

`TCPConn.readLoop` of `protocol/modbus/conn.go` reads a header with `io.ReadFull`, checks it, reads
the body with `io.ReadFull` and hands the response to the transaction pool. A read deadline of 100
ms is set before every header. When it passes, in the header or in the body, the loop starts over
with a new header; the bytes that `io.ReadFull` had taken are dropped.

The input is the list of arrivals on the socket (`TimedStream.Arrival`), so the model covers every
chunking and every placement of deadlines. The `done` channel, which only a teardown closes, and the
logging are left out.

## Main definitions

* `Modbus.readTurn`, `Modbus.readLoop` : one turn of the loop, and the loop.
* `Modbus.frameOffsets` : the offsets at which frames begin and end.

## Main results

* `Modbus.readLoop_eq_iff_expiries_between_frames` : the responses are handed over unchanged exactly
  when every deadline passes between two frames.
-/

namespace GoIndustrial.Modbus

open TimedStream

/-! ### The loop -/

/-- How one turn of the read loop ends. -/
inductive Turn
  /-- `continue`: a deadline passed. -/
  | again (rest : List Arrival)
  /-- A response is handed to the transaction pool. -/
  | deliver (response : Response) (rest : List Arrival)
  /-- `setDisconnected(gen, err)`, after `processError` for the given transaction. -/
  | tearDown (transaction : Option TransactionID) (err : Err)
  /-- The socket has nothing more to read. -/
  | wait
  deriving DecidableEq, Repr

/-- One turn of `TCPConn.readLoop`. -/
def readTurn (arr : List Arrival) : Turn :=
  match readFull tcpHeaderLength arr with
  | .timeout _ rest => .again rest
  | .failed _ => .tearDown none .io
  | .blocked _ => .wait
  | .full header rest =>
    let h := Header.ofBytes header
    if h.protocolID ≠ tcpProtocolIdentifier then
      .tearDown (some h.transactionID) .invalidProtocolHeader
    else if h.length.toNat ≤ 1 then
      .tearDown (some h.transactionID) .invalidResponseLength
    else
      match readFull (h.length.toNat - 1) rest with
      | .timeout _ rest => .again rest
      | .failed _ => .tearDown (some h.transactionID) .io
      | .blocked _ => .wait
      | .full body rest =>
        .deliver (newResponse h.transactionID h.unitID (body.getD 0 0) (body.drop 1)) rest

/-- Where the read loop stands when the arrivals are used up. -/
inductive LoopEnd
  /-- It waits for more bytes. -/
  | waiting
  /-- It tore the connection down. -/
  | tornDown (transaction : Option TransactionID) (err : Err)
  deriving DecidableEq, Repr

/-- What each end of a turn says about the arrivals: a turn that starts over drops the bytes it had
read, a turn that delivers takes exactly the encoding of the response. -/
def Turn.Spec (arr : List Arrival) : Turn → Prop
  | .again rest => ∃ got, bytes arr = got ++ bytes rest ∧
      expiries arr = got.length :: (expiries rest).map (· + got.length) ∧
      rest.length < arr.length ∧ (.failure ∈ rest → .failure ∈ arr)
  | .deliver r rest => bytes arr = r.encode ++ bytes rest ∧
      expiries arr = (expiries rest).map (· + r.encode.length) ∧
      rest.length ≤ arr.length ∧ (.failure ∈ rest → .failure ∈ arr)
  | .tearDown _ _ => True
  | .wait => expiries arr = []

theorem readTurn_spec (arr : List Arrival) : (readTurn arr).Spec arr := by
  have hs := readFull_spec tcpHeaderLength arr
  unfold readTurn
  cases hh : readFull tcpHeaderLength arr with
  | timeout got rest =>
    rw [hh] at hs
    exact ⟨got, hs.2.1, hs.2.2.1, hs.2.2.2.1, hs.2.2.2.2⟩
  | failed got => trivial
  | blocked got =>
    rw [hh] at hs
    exact hs.2.2
  | full header rest =>
    rw [hh] at hs
    obtain ⟨hl, hb, he, hlen, hf⟩ := hs
    dsimp only
    split_ifs with hp hn
    · trivial
    · trivial
    have hs' := readFull_spec ((Header.ofBytes header).length.toNat - 1) rest
    cases hh' : readFull ((Header.ofBytes header).length.toNat - 1) rest with
    | timeout got rest' =>
      rw [hh'] at hs'
      obtain ⟨-, hb', he', hlen', hf'⟩ := hs'
      refine ⟨header ++ got, by rw [hb, hb', List.append_assoc], ?_, by omega, fun h => hf (hf' h)⟩
      rw [he, he', List.map_cons, List.map_map, List.length_append, hl]
      exact congrArg₂ _ (Nat.add_comm _ _)
        (List.map_congr_left fun k _ => by simp only [Function.comp_apply]; omega)
    | failed got => trivial
    | blocked got =>
      rw [hh'] at hs'
      simp only [Turn.Spec, he, hs'.2.2, List.map_nil]
    | full body rest' =>
      rw [hh'] at hs'
      obtain ⟨hl', hb', he', hlen', hf'⟩ := hs'
      have henc : (newResponse (Header.ofBytes header).transactionID (Header.ofBytes header).unitID
          (body.getD 0 0) (body.drop 1)).encode = header ++ body :=
        Header.encode_append_body hl (not_not.mp hp) (by omega) hl'
      refine ⟨by rw [henc, hb, hb', List.append_assoc], ?_, by omega, fun h => hf (hf' h)⟩
      rw [he, he', List.map_map, henc, List.length_append, hl, hl']
      exact List.map_congr_left fun k _ => by simp only [Function.comp_apply]; omega

theorem weight_lt_of_again {arr rest : List Arrival} (h : readTurn arr = .again rest) :
    weight rest < weight arr := by
  have hs := readTurn_spec arr
  rw [h] at hs
  obtain ⟨got, hb, -, hlen, -⟩ := hs
  simp only [weight, hb, List.length_append]
  omega

theorem weight_lt_of_deliver {arr rest : List Arrival} {r : Response}
    (h : readTurn arr = .deliver r rest) : weight rest < weight arr := by
  have hs := readTurn_spec arr
  rw [h] at hs
  obtain ⟨hb, -, hlen, -⟩ := hs
  simp only [weight, hb, List.length_append, Response.length_encode]
  omega

/-- `TCPConn.readLoop`: the responses handed over, and where the loop ends up. -/
def readLoop (arr : List Arrival) : List Response × LoopEnd :=
  match _h : readTurn arr with
  | .again rest => readLoop rest
  | .deliver r rest => (r :: (readLoop rest).1, (readLoop rest).2)
  | .tearDown tx err => ([], .tornDown tx err)
  | .wait => ([], .waiting)
termination_by weight arr
decreasing_by
  · exact weight_lt_of_again _h
  · exact weight_lt_of_deliver _h

theorem readLoop_of_again {arr rest : List Arrival} (h : readTurn arr = .again rest) :
    readLoop arr = readLoop rest := by
  rw [readLoop]
  split <;> simp_all

theorem readLoop_of_deliver {arr rest : List Arrival} {r : Response}
    (h : readTurn arr = .deliver r rest) :
    readLoop arr = (r :: (readLoop rest).1, (readLoop rest).2) := by
  rw [readLoop]
  split <;> simp_all

theorem readLoop_of_wait {arr : List Arrival} (h : readTurn arr = .wait) :
    readLoop arr = ([], .waiting) := by
  rw [readLoop]
  split <;> simp_all

theorem readLoop_of_tearDown {arr : List Arrival} {tx : Option TransactionID} {err : Err}
    (h : readTurn arr = .tearDown tx err) : readLoop arr = ([], .tornDown tx err) := by
  rw [readLoop]
  split <;> simp_all

/-! ### Frames on the wire -/

/-- A response frame that can be sent: protocol ID zero, and a length field that holds the length.
-/
def Response.WellFormed (r : Response) : Prop :=
  r.protocolID = tcpProtocolIdentifier ∧ r.pdu.data.length ≤ 65533

instance (r : Response) : Decidable r.WellFormed :=
  inferInstanceAs (Decidable (_ ∧ _))

/-- The frames one after the other. -/
def encodeAll (rs : List Response) : List UInt8 := rs.flatMap Response.encode

/-- The offsets at which a frame begins, and the offset at which the last one ends. -/
def frameOffsets : List Response → List ℕ
  | [] => [0]
  | r :: rs => 0 :: (frameOffsets rs).map (· + r.encode.length)

theorem zero_mem_frameOffsets (rs : List Response) : 0 ∈ frameOffsets rs := by
  cases rs <;> simp [frameOffsets]

/-- A frame that arrives undisturbed is delivered. -/
theorem readTurn_of_quiet {arr : List Arrival} {r : Response} {tail : List UInt8}
    (hr : r.WellFormed) (hb : bytes arr = r.encode ++ tail)
    (hexp : ∀ o ∈ expiries arr, r.encode.length ≤ o) (hfail : .failure ∉ arr) :
    ∃ rest, readTurn arr = .deliver r rest := by
  have hnat : (UInt16.ofNat (1 + (r.pdu.data.length + 1))).toNat = r.pdu.data.length + 2 := by
    rw [UInt16.toNat_ofNat']
    have := hr.2
    omega
  rw [Response.length_encode] at hexp
  obtain ⟨rest, rest', hread, hread', -, -, -⟩ := readFull_of_quiet_frame r.toMBAP
    (r.pdu.functionCode :: r.pdu.data) tail
    (by rw [hb, Response.encode, List.length_cons, Nat.add_comm 1])
    (fun o ho => by have := hexp o ho; simp only [tcpHeaderLength, List.length_cons]; omega) hfail
  rw [List.length_cons] at hread hread'
  refine ⟨rest', ?_⟩
  unfold readTurn
  simp only [hread, Header.ofBytes_encode, hr.1, ne_eq, not_true_eq_false, if_false, hnat,
    show ¬ r.pdu.data.length + 2 ≤ 1 by omega,
    show r.pdu.data.length + 2 - 1 = r.pdu.data.length + 1 by omega, hread']
  simp [newResponse, ← hr.1]

/-! ### Deadlines between frames -/

theorem le_of_mem_frameOffsets {r : Response} {rs : List Response} {o : ℕ}
    (ho : o ∈ frameOffsets (r :: rs)) (hne : o ≠ 0) : r.encode.length ≤ o := by
  rcases List.mem_cons.mp ho with h | h
  · exact absurd h hne
  · obtain ⟨k, -, rfl⟩ := List.mem_map.mp h
    omega

/-- Where the first frame is delivered, the other offsets are those of the frames behind it. -/
theorem mem_frameOffsets_of_add {r : Response} {rs : List Response} {o : ℕ}
    (ho : o + r.encode.length ∈ frameOffsets (r :: rs)) : o ∈ frameOffsets rs := by
  rcases List.mem_cons.mp ho with h | h
  · rw [Response.length_encode] at h
    omega
  · obtain ⟨k, hk, hko⟩ := List.mem_map.mp h
    obtain rfl : k = o := by omega
    exact hk

/-- When every deadline passes between two frames, the loop delivers the frames. The induction is on
what is left to read: a deadline at the front costs a turn, a frame at the front is delivered. -/
theorem readLoop_of_expiries_between_frames {rs : List Response} {arr : List Arrival}
    (hwf : ∀ r ∈ rs, r.WellFormed) (hb : bytes arr = encodeAll rs) (hfail : .failure ∉ arr)
    (hexp : ∀ o ∈ expiries arr, o ∈ frameOffsets rs) : readLoop arr = (rs, .waiting) := by
  induction h : weight arr using Nat.strongRecOn generalizing rs arr with
  | _ n ih =>
    subst h
    by_cases h0 : 0 ∈ expiries arr
    · obtain ⟨rest, hread⟩ := readFull_of_expiry (n := tcpHeaderLength) (by decide) h0 hfail
      have ht : readTurn arr = .again rest := by simp only [readTurn, hread]
      have hs := readFull_spec tcpHeaderLength arr
      rw [hread] at hs
      obtain ⟨-, hbytes, he, -, hf⟩ := hs
      rw [readLoop_of_again ht]
      refine ih _ (weight_lt_of_again ht) hwf (hbytes.symm.trans hb) (fun h => hfail (hf h))
        (fun o ho => hexp o ?_) rfl
      rw [he]
      exact List.mem_cons_of_mem _ (by simpa using ho)
    have hne : ∀ o ∈ expiries arr, o ≠ 0 := fun o ho h => h0 (h ▸ ho)
    cases rs with
    | nil =>
      have hnone : expiries arr = [] := List.eq_nil_iff_forall_not_mem.mpr fun o ho =>
        hne o ho (by simpa [frameOffsets] using hexp o ho)
      have hread := readFull_of_silent (n := tcpHeaderLength)
        (by simp [hb, encodeAll, tcpHeaderLength]) hnone hfail
      exact readLoop_of_wait (by simp only [readTurn, hread])
    | cons r rs =>
      have hb' : bytes arr = r.encode ++ encodeAll rs := hb
      obtain ⟨rest, ht⟩ := readTurn_of_quiet (hwf r List.mem_cons_self) hb'
        (fun o ho => le_of_mem_frameOffsets (hexp o ho) (hne o ho)) hfail
      have hs := readTurn_spec arr
      rw [ht] at hs
      obtain ⟨hbytes, he, -, hf⟩ := hs
      have hrest := ih _ (weight_lt_of_deliver ht) (fun q hq => hwf q (List.mem_cons_of_mem _ hq))
        (List.append_cancel_left (hbytes.symm.trans hb')) (fun h => hfail (hf h))
        (fun o ho => mem_frameOffsets_of_add (hexp _ (by rw [he]; exact List.mem_map_of_mem ho)))
        rfl
      rw [readLoop_of_deliver ht, hrest]

/-- The delivered frames take no more bytes than arrive. When they take all of them, no deadline cut
a frame: the bytes that a cut turn reads are not part of any delivered frame. -/
theorem readLoop_expiries_of_length {arr : List Arrival} {rs : List Response} {e : LoopEnd}
    (h : readLoop arr = (rs, e)) : (encodeAll rs).length ≤ (bytes arr).length ∧
      ((bytes arr).length = (encodeAll rs).length → e = .waiting →
        ∀ o ∈ expiries arr, o ∈ frameOffsets rs) := by
  induction hw : weight arr using Nat.strongRecOn generalizing rs arr with
  | _ n ih =>
    subst hw
    have hs := readTurn_spec arr
    cases ht : readTurn arr with
    | again rest =>
      rw [ht] at hs
      obtain ⟨got, hb, he, -, -⟩ := hs
      obtain ⟨hle, hoff⟩ := ih _ (weight_lt_of_again ht) (readLoop_of_again ht ▸ h) rfl
      rw [hb, List.length_append]
      refine ⟨by omega, fun heq hwait o ho => ?_⟩
      have hgot : got.length = 0 := by omega
      rw [he, hgot] at ho
      rcases List.mem_cons.mp ho with rfl | ho
      · exact zero_mem_frameOffsets rs
      · exact hoff (by omega) hwait o (by simpa using ho)
    | deliver r rest =>
      rw [ht] at hs
      obtain ⟨hb, he, -, -⟩ := hs
      rw [readLoop_of_deliver ht] at h
      obtain ⟨rfl, rfl⟩ := Prod.mk.inj h
      obtain ⟨hle, hoff⟩ := ih _ (weight_lt_of_deliver ht) (Prod.eta (readLoop rest)).symm rfl
      have henc : (encodeAll (r :: (readLoop rest).1)).length =
          r.encode.length + (encodeAll (readLoop rest).1).length := by
        rw [← List.length_append]
        rfl
      rw [hb, List.length_append, henc]
      refine ⟨by omega, fun heq hwait o ho => ?_⟩
      rw [he] at ho
      obtain ⟨k, hk, rfl⟩ := List.mem_map.mp ho
      exact List.mem_cons_of_mem _ (List.mem_map_of_mem (hoff (by omega) hwait k hk))
    | tearDown tx err =>
      rw [readLoop_of_tearDown ht] at h
      obtain ⟨rfl, rfl⟩ := Prod.mk.inj h
      exact ⟨Nat.zero_le _, fun _ hwait => by cases hwait⟩
    | wait =>
      rw [ht] at hs
      rw [readLoop_of_wait ht] at h
      obtain ⟨rfl, rfl⟩ := Prod.mk.inj h
      exact ⟨Nat.zero_le _, fun _ _ o ho => by simp [show expiries arr = [] from hs] at ho⟩

/-- **Framing and read deadlines.** However the encodings of well-formed responses are cut into
chunks, the read loop hands over exactly these responses, unchanged, in order and without tearing
the connection down, if and only if every read deadline passes between two frames. -/
theorem readLoop_eq_iff_expiries_between_frames (rs : List Response)
    (hwf : ∀ r ∈ rs, r.WellFormed) (arr : List Arrival) (hb : bytes arr = encodeAll rs)
    (hfail : .failure ∉ arr) :
    readLoop arr = (rs, .waiting) ↔ ∀ o ∈ expiries arr, o ∈ frameOffsets rs :=
  ⟨fun h => (readLoop_expiries_of_length h).2 (congrArg List.length hb) rfl,
    readLoop_of_expiries_between_frames hwf hb hfail⟩

/-- Two responses in three chunks, with a deadline between the frames. -/
theorem readLoop_expiry_between_two_frames :
    readLoop [.chunk [0, 1, 0, 0, 0, 5, 9], .chunk [3, 2, 0, 7], .expiry,
        .chunk [0, 2, 0, 0, 0, 3, 9, 131, 2]] =
      ([newResponse 1 9 3 [2, 0, 7], newResponse 2 9 131 [2]], .waiting) :=
  (readLoop_eq_iff_expiries_between_frames
    [newResponse 1 9 3 [2, 0, 7], newResponse 2 9 131 [2]] (by decide) _ (by decide)
    (by decide)).mpr (by decide)

/-- A deadline behind the fourth byte of a well-formed response: the rest of the frame is read as a
header, and the connection is torn down. -/
theorem readLoop_expiry_inside_header :
    (newResponse 1 9 3 [2, 0, 7]).WellFormed ∧
    bytes [.chunk [0, 1, 0, 0], .expiry, .chunk [0, 5, 9, 3, 2, 0, 7]] =
      encodeAll [newResponse 1 9 3 [2, 0, 7]] ∧
    .failure ∉ [Arrival.chunk [0, 1, 0, 0], .expiry, .chunk [0, 5, 9, 3, 2, 0, 7]] ∧
    readLoop [.chunk [0, 1, 0, 0], .expiry, .chunk [0, 5, 9, 3, 2, 0, 7]] =
      ([], .tornDown (some 5) .invalidProtocolHeader) := by
  have hturn : readTurn [.chunk [0, 1, 0, 0], .expiry, .chunk [0, 5, 9, 3, 2, 0, 7]] =
      .again [.chunk [0, 5, 9, 3, 2, 0, 7]] := by decide
  refine ⟨by decide, by decide, by decide, ?_⟩
  rw [readLoop_of_again hturn]
  exact readLoop_of_tearDown (by decide)

end GoIndustrial.Modbus
