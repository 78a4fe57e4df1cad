import Mathlib.Data.List.Basic
import Mathlib.Tactic.SplitIfs

/-!
# Byte streams with read deadlines

A connection is seen by its reader as a list of arrivals: chunks of bytes of any size, moments at
which the read deadline of a blocked reader passes, and the failure or end of the connection. When
the list is used up the reader blocks.

`readFull n` reads exactly `n` bytes the way `io.ReadFull` does: it asks for the missing bytes again
and again, and gives up with the error as soon as one of these reads fails. The bytes it took before
are gone from the connection.

## Main results

* `TimedStream.readFull_spec` : what each outcome of `readFull` says about the bytes of the
  connection and about the offsets at which deadlines passed.
* `TimedStream.readFull_of_quiet` : bytes that arrive undisturbed are read.
-/

namespace TimedStream

/-- What the reader of a connection meets next. -/
inductive Arrival
  /-- Bytes that can be read. -/
  | chunk (bytes : List UInt8)
  /-- The read deadline passes while the reader is blocked. -/
  | expiry
  /-- The connection is closed or broken. -/
  | failure
  deriving DecidableEq, Repr

/-- All bytes that arrive. -/
def bytes : List Arrival → List UInt8
  | [] => []
  | .chunk bs :: rest => bs ++ bytes rest
  | _ :: rest => bytes rest

/-- The offsets in the byte stream at which a read deadline passes. -/
def expiries : List Arrival → List ℕ
  | [] => []
  | .chunk bs :: rest => (expiries rest).map (· + bs.length)
  | .expiry :: rest => 0 :: expiries rest
  | .failure :: rest => expiries rest

/-- How reading a fixed number of bytes ends; `got` are the bytes that were taken. -/
inductive FullRead
  | full (got : List UInt8) (rest : List Arrival)
  | timeout (got : List UInt8) (rest : List Arrival)
  | failed (got : List UInt8)
  | blocked (got : List UInt8)
  deriving DecidableEq, Repr

/-- `io.ReadFull`: `n` more bytes are wanted, `got` were read so far. -/
def readFullFrom : ℕ → List UInt8 → List Arrival → FullRead
  | 0, got, rest => .full got rest
  | _ + 1, got, [] => .blocked got
  | n + 1, got, .chunk bs :: rest =>
    if n + 1 ≤ bs.length then .full (got ++ bs.take (n + 1)) (.chunk (bs.drop (n + 1)) :: rest)
    else readFullFrom (n + 1 - bs.length) (got ++ bs) rest
  | _ + 1, got, .expiry :: rest => .timeout got rest
  | _ + 1, got, .failure :: _ => .failed got

/-- `io.ReadFull(conn, make([]byte, n))`. -/
def readFull (n : ℕ) (arr : List Arrival) : FullRead := readFullFrom n [] arr

/-- The size of the input that is left, for loops that read until it is used up. -/
def weight (arr : List Arrival) : ℕ := (bytes arr).length + arr.length

/-- What an outcome of reading `n` bytes from `arr` says about `arr`. -/
def FullRead.Spec (n : ℕ) (arr : List Arrival) : FullRead → Prop
  | .full got rest => got.length = n ∧ bytes arr = got ++ bytes rest ∧
      expiries arr = (expiries rest).map (· + n) ∧ rest.length ≤ arr.length ∧
      (.failure ∈ rest → .failure ∈ arr)
  | .timeout got rest => got.length < n ∧ bytes arr = got ++ bytes rest ∧
      expiries arr = got.length :: (expiries rest).map (· + got.length) ∧
      rest.length < arr.length ∧ (.failure ∈ rest → .failure ∈ arr)
  | .failed got => got.length < n ∧ got <+: bytes arr ∧ .failure ∈ arr
  | .blocked got => got.length < n ∧ bytes arr = got ∧ expiries arr = []

/-- The outcome of a read that had taken `pre` already. -/
private def FullRead.prepend (pre : List UInt8) : FullRead → FullRead
  | .full got rest => .full (pre ++ got) rest
  | .timeout got rest => .timeout (pre ++ got) rest
  | .failed got => .failed (pre ++ got)
  | .blocked got => .blocked (pre ++ got)

private def SpecFrom (n : ℕ) (got : List UInt8) (arr : List Arrival) (r : FullRead) : Prop :=
  ∃ r' : FullRead, r'.Spec n arr ∧ r = r'.prepend got

private theorem specFrom_chunk {n : ℕ} {got bs : List UInt8} {rest : List Arrival} {r : FullRead}
    (hn : bs.length ≤ n) (h : SpecFrom (n - bs.length) (got ++ bs) rest r) :
    SpecFrom n got (.chunk bs :: rest) r := by
  obtain ⟨r', hr', rfl⟩ := h
  cases r' with
  | full g rest' =>
    obtain ⟨hl, hb, he, hlen, hf⟩ := hr'
    refine ⟨.full (bs ++ g) rest', ⟨by simp; omega, by simp [bytes, hb], ?_, ?_, ?_⟩,
      by simp [FullRead.prepend]⟩
    · simp only [expiries, he, List.map_map]
      exact List.map_congr_left fun k _ => by simp; omega
    · simpa using Nat.le_succ_of_le hlen
    · exact fun h => List.mem_cons_of_mem _ (hf h)
  | timeout g rest' =>
    obtain ⟨hl, hb, he, hlen, hf⟩ := hr'
    refine ⟨.timeout (bs ++ g) rest', ⟨by simp; omega, by simp [bytes, hb], ?_, ?_, ?_⟩,
      by simp [FullRead.prepend]⟩
    · simp only [expiries, he, List.map_cons, List.map_map, List.length_append]
      refine congrArg₂ _ (Nat.add_comm _ _) (List.map_congr_left fun k _ => by simp; omega)
    · simpa using Nat.lt_succ_of_lt hlen
    · exact fun h => List.mem_cons_of_mem _ (hf h)
  | failed g =>
    obtain ⟨hl, hb, hf⟩ := hr'
    exact ⟨.failed (bs ++ g), ⟨by simp; omega, List.prefix_append_right_inj bs |>.mpr hb,
      List.mem_cons_of_mem _ hf⟩, by simp [FullRead.prepend]⟩
  | blocked g =>
    obtain ⟨hl, hb, he⟩ := hr'
    exact ⟨.blocked (bs ++ g), ⟨by simp; omega, by simp [bytes, hb], by simp [expiries, he]⟩,
      by simp [FullRead.prepend]⟩

private theorem readFullFrom_spec (n : ℕ) (got : List UInt8) (arr : List Arrival) :
    SpecFrom n got arr (readFullFrom n got arr) := by
  induction n, got, arr using readFullFrom.induct with
  | case1 got rest =>
    exact ⟨.full [] rest, by simp [FullRead.Spec], by simp [readFullFrom, FullRead.prepend]⟩
  | case2 n got =>
    exact ⟨.blocked [], by simp [FullRead.Spec, bytes, expiries],
      by simp [readFullFrom, FullRead.prepend]⟩
  | case3 n got bs rest h =>
    refine ⟨.full (bs.take (n + 1)) (.chunk (bs.drop (n + 1)) :: rest), ?_,
      by simp [readFullFrom, h, FullRead.prepend]⟩
    refine ⟨by simp [h], by simp [bytes, ← List.append_assoc], ?_, by simp, by simp⟩
    simp only [expiries, List.map_map, List.length_drop]
    exact List.map_congr_left fun k _ => by simp; omega
  | case4 n got bs rest h ih =>
    rw [readFullFrom, if_neg h]
    exact specFrom_chunk (by omega) ih
  | case5 n got rest =>
    exact ⟨.timeout [] rest, by simp [FullRead.Spec, bytes, expiries],
      by simp [readFullFrom, FullRead.prepend]⟩
  | case6 n got rest =>
    exact ⟨.failed [], by simp [FullRead.Spec], by simp [readFullFrom, FullRead.prepend]⟩

/-- What each outcome of `readFull` says about the connection it read from. -/
theorem readFull_spec (n : ℕ) (arr : List Arrival) : (readFull n arr).Spec n arr := by
  obtain ⟨r, hr, he⟩ := readFullFrom_spec n [] arr
  rw [readFull, he]
  cases r <;> simpa [FullRead.prepend] using hr

/-- When `n` bytes arrive before anything else happens, they are read. -/
theorem readFull_of_quiet {n : ℕ} {arr : List Arrival} (hlen : n ≤ (bytes arr).length)
    (hexp : ∀ o ∈ expiries arr, n ≤ o) (hfail : .failure ∉ arr) :
    ∃ rest, readFull n arr = .full ((bytes arr).take n) rest ∧
      bytes rest = (bytes arr).drop n ∧ expiries arr = (expiries rest).map (· + n) ∧
      .failure ∉ rest := by
  have hs := readFull_spec n arr
  cases hr : readFull n arr with
  | full got rest =>
    rw [hr] at hs
    obtain ⟨hl, hb, he, -, hf⟩ := hs
    refine ⟨rest, ?_, ?_, he, fun h => hfail (hf h)⟩
    · rw [hb, ← hl, List.take_left]
    · rw [hb, ← hl, List.drop_left]
  | timeout got rest =>
    rw [hr] at hs
    obtain ⟨hl, -, he, -, -⟩ := hs
    exact absurd (hexp got.length (by simp [he])) (Nat.not_le.mpr hl)
  | failed got =>
    rw [hr] at hs
    exact absurd hs.2.2 hfail
  | blocked got =>
    rw [hr] at hs
    obtain ⟨hl, hb, -⟩ := hs
    rw [hb] at hlen
    omega

/-- A deadline that passes before the next byte ends the read and costs no byte. -/
theorem readFull_of_expiry {n : ℕ} {arr : List Arrival} (hn : 0 < n) (hexp : 0 ∈ expiries arr)
    (hfail : .failure ∉ arr) : ∃ rest, readFull n arr = .timeout [] rest := by
  have hs := readFull_spec n arr
  cases hr : readFull n arr with
  | full got rest =>
    rw [hr] at hs
    obtain ⟨k, -, hk⟩ := List.mem_map.mp (hs.2.2.1 ▸ hexp)
    omega
  | timeout got rest =>
    rw [hr] at hs
    have hgot : got.length = 0 := by
      rcases List.mem_cons.mp (hs.2.2.1 ▸ hexp) with h | h
      · exact h.symm
      · obtain ⟨k, -, hk⟩ := List.mem_map.mp h
        omega
    exact ⟨rest, by rw [List.length_eq_zero_iff.mp hgot]⟩
  | failed got =>
    rw [hr] at hs
    exact absurd hs.2.2 hfail
  | blocked got =>
    rw [hr] at hs
    simp [hs.2.2] at hexp

/-- Too few bytes and no deadline: the reader waits. -/
theorem readFull_of_silent {n : ℕ} {arr : List Arrival} (hlen : (bytes arr).length < n)
    (hexp : expiries arr = []) (hfail : .failure ∉ arr) :
    readFull n arr = .blocked (bytes arr) := by
  have hs := readFull_spec n arr
  cases hr : readFull n arr with
  | full got rest =>
    rw [hr] at hs
    have := congrArg List.length hs.2.1
    simp only [List.length_append] at this
    have := hs.1
    omega
  | timeout got rest =>
    rw [hr] at hs
    simp [hs.2.2.1] at hexp
  | failed got =>
    rw [hr] at hs
    exact absurd hs.2.2 hfail
  | blocked got =>
    rw [hr] at hs
    rw [hs.2.1]

end TimedStream
