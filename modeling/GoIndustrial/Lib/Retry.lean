import Mathlib.Data.List.Basic

/-!
# Retry loops

A call that is attempted again after transport errors, up to a number of attempts. An attempt gets
no connection, fails on the connection it got, which is then reset, is refused by the peer, which
ends the call, or is done. The loop runs over an arbitrary sequence of such outcomes.

## Main definitions

* `Retry.Attempt` : the outcome of one attempt.
* `Retry.retry` : the loop, with the attempts it makes and the connections it resets.
* `Retry.Decides` : an outcome is the first of the sequence that is not retried.
* `Retry.Log`, `Retry.Orderly` : what a call does in order, and what is expected of it.

## Main results

* `Retry.retry_attempt_iff`, `Retry.retry_done_iff` : a call ends as the outcome that decides, if
  it is among the attempts that may be made.
* `Retry.orderly_attempts` : calls that make their attempts one after the other are orderly.
-/

namespace Retry

/-- The outcome of one attempt, with a result in `ρ`, an error of the peer in `π` or a transport
error in `τ`. -/
inductive Attempt (ρ π τ : Type)
  /-- There is no connection. -/
  | unreachable (e : τ)
  /-- The attempt failed on its connection. -/
  | failed (e : τ)
  /-- The peer answered with an error. -/
  | refused (e : π)
  | done (r : ρ)
  deriving DecidableEq, Repr

/-- How a call ends: as an attempt decides, or with the last error after all attempts. -/
inductive Ending (ρ π τ : Type)
  | done (r : ρ)
  | refused (e : π)
  | exhausted (last : Option τ)
  deriving DecidableEq, Repr

/-- A call that has ended. -/
structure Trace (ρ π τ : Type) where
  ending : Ending ρ π τ
  /-- The number of attempts made. -/
  attempts : ℕ
  /-- The attempts after which the connection was reset, the first one first. -/
  resets : List ℕ
  deriving DecidableEq, Repr

variable {ρ π τ : Type}

/-- The call when `n` attempts were made before, with resets. -/
def Trace.after (n : ℕ) (resets : List ℕ) (t : Trace ρ π τ) : Trace ρ π τ :=
  { t with attempts := n + t.attempts, resets := resets ++ t.resets }

theorem Trace.after_after (m n : ℕ) (resets resets' : List ℕ) (t : Trace ρ π τ) :
    (t.after n resets').after m resets = t.after (m + n) (resets ++ resets') := by
  simp only [after, Nat.add_assoc, List.append_assoc]

/-- The loop is left to go on after a transport error. -/
def Attempt.IsRetried : Attempt ρ π τ → Prop
  | unreachable _ | failed _ => True
  | refused _ | done _ => False

instance : DecidablePred (Attempt.IsRetried (ρ := ρ) (π := π) (τ := τ))
  | .unreachable _ | .failed _ => inferInstanceAs (Decidable True)
  | .refused _ | .done _ => inferInstanceAs (Decidable False)

variable (outcome : ℕ → Attempt ρ π τ)

/-- At most `n` attempts from attempt `i` on, when the error before was `last`. -/
def retry : (n i : ℕ) → (last : Option τ) → Trace ρ π τ
  | 0, _, last => ⟨.exhausted last, 0, []⟩
  | n + 1, i, _ =>
    match outcome i with
    | .unreachable e =>
      let t := retry n (i + 1) (some e)
      { t with attempts := t.attempts + 1 }
    | .failed e =>
      let t := retry n (i + 1) (some e)
      { t with attempts := t.attempts + 1, resets := i :: t.resets }
    | .refused e => ⟨.refused e, 1, []⟩
    | .done r => ⟨.done r, 1, []⟩

/-- The outcome `a` of attempt `k` is the first that is not retried. -/
structure Decides (k : ℕ) (a : Attempt ρ π τ) : Prop where
  eq : outcome k = a
  final : ¬ a.IsRetried
  before : ∀ j < k, (outcome j).IsRetried

variable {outcome}

theorem Decides.unique {k k' : ℕ} {a a' : Attempt ρ π τ} (h : Decides outcome k a)
    (h' : Decides outcome k' a') : k = k' ∧ a = a' := by
  rcases Nat.lt_trichotomy k k' with hlt | rfl | hlt
  · exact absurd (h'.before k hlt) (h.eq ▸ h.final)
  · exact ⟨rfl, h.eq.symm.trans h'.eq⟩
  · exact absurd (h.before k' hlt) (h'.eq ▸ h'.final)

/-- The sequence without its first outcome, which is retried. -/
theorem decides_succ {i k : ℕ} {a : Attempt ρ π τ} (h : (outcome i).IsRetried) :
    Decides (fun j => outcome (i + j)) (k + 1) a ↔
      Decides (fun j => outcome (i + 1 + j)) k a := by
  have hshift : ∀ j, i + (j + 1) = i + 1 + j := fun j => by omega
  constructor
  · intro hd
    refine ⟨hshift k ▸ hd.eq, hd.final, fun j hj => ?_⟩
    exact hshift j ▸ hd.before (j + 1) (by omega)
  · intro hd
    refine ⟨(hshift k).symm ▸ hd.eq, hd.final, fun j hj => ?_⟩
    cases j with
    | zero => exact h
    | succ j => exact (hshift j).symm ▸ hd.before j (by omega)

theorem not_decides_zero {i : ℕ} {a : Attempt ρ π τ} (h : (outcome i).IsRetried) :
    ¬ Decides (fun j => outcome (i + j)) 0 a :=
  fun hd => hd.final (hd.eq ▸ h)

/-- What an ending says about the outcome that decides. -/
def Ending.attempt : Ending ρ π τ → Option (Attempt ρ π τ)
  | done r => some (.done r)
  | refused e => some (.refused e)
  | exhausted _ => none

/-- **The outcome that decides** ends the call, if it is among the attempts that may be made. -/
theorem retry_attempt_iff (n i : ℕ) (last : Option τ) (a : Attempt ρ π τ) :
    (retry outcome n i last).ending.attempt = some a ↔
      ∃ k < n, Decides (fun j => outcome (i + j)) k a := by
  induction n generalizing i last with
  | zero => simp [retry, Ending.attempt]
  | succ n ih =>
    -- A retried outcome decides nothing, and the others decide in attempt `i` itself.
    have hretried (e : τ) (h : (outcome i).IsRetried)
        (hr : (retry outcome (n + 1) i last).ending = (retry outcome n (i + 1) (some e)).ending) :
        (retry outcome (n + 1) i last).ending.attempt = some a ↔
          ∃ k < n + 1, Decides (fun j => outcome (i + j)) k a := by
      rw [hr, ih]
      constructor
      · rintro ⟨k, hk, hd⟩
        exact ⟨k + 1, by omega, (decides_succ h).mpr hd⟩
      · rintro ⟨k, hk, hd⟩
        cases k with
        | zero => exact absurd hd (not_decides_zero h)
        | succ k => exact ⟨k, by omega, (decides_succ h).mp hd⟩
    have hfinal {b : Attempt ρ π τ} (ho : outcome i = b) (hb : ¬ b.IsRetried)
        (hr : (retry outcome (n + 1) i last).ending.attempt = some b) :
        (retry outcome (n + 1) i last).ending.attempt = some a ↔
          ∃ k < n + 1, Decides (fun j => outcome (i + j)) k a := by
      have hd : Decides (fun j => outcome (i + j)) 0 b := ⟨ho, hb, fun _ h => absurd h (by omega)⟩
      rw [hr, Option.some_inj]
      constructor
      · rintro rfl
        exact ⟨0, by omega, hd⟩
      · rintro ⟨k, -, hd'⟩
        exact (hd.unique hd').2
    cases ho : outcome i with
    | unreachable e => exact hretried e (by rw [ho]; trivial) (by simp [retry, ho])
    | failed e => exact hretried e (by rw [ho]; trivial) (by simp [retry, ho])
    | refused e => exact hfinal ho id (by simp [retry, ho, Ending.attempt])
    | done r => exact hfinal ho id (by simp [retry, ho, Ending.attempt])

theorem retry_done_iff (n : ℕ) (r : ρ) :
    (retry outcome n 0 none).ending = .done r ↔ ∃ k < n, Decides outcome k (.done r) := by
  have h : (retry outcome n 0 none).ending.attempt = some (.done r) ↔ _ :=
    retry_attempt_iff n 0 none (.done r)
  simp only [Nat.zero_add] at h
  rw [← h]
  cases (retry outcome n 0 none).ending <;> simp [Ending.attempt]

/-! ### What a call does, in order -/

/-- A call makes an attempt, or resets the connection of an attempt. -/
inductive Event
  | attempt (k : ℕ)
  | reset (k : ℕ)
  deriving DecidableEq, Repr

/-- A call that has ended, with what it did. -/
structure Log (ρ π τ : Type) where
  ending : Ending ρ π τ
  /-- The first event first. -/
  events : List Event
  deriving DecidableEq, Repr

/-- The call when `events` were before. -/
def Log.after (events : List Event) (l : Log ρ π τ) : Log ρ π τ :=
  { l with events := events ++ l.events }

/-- The attempt that is made in an event. -/
def Event.attempt? : Event → Option ℕ
  | attempt k => some k
  | reset _ => none

/-- The attempt whose connection is reset in an event. -/
def Event.reset? : Event → Option ℕ
  | attempt _ => none
  | reset k => some k

/-- The log without the order of its events. -/
def Log.trace (l : Log ρ π τ) : Trace ρ π τ where
  ending := l.ending
  attempts := (l.events.filterMap Event.attempt?).length
  resets := l.events.filterMap Event.reset?

theorem Log.trace_after (events : List Event) (l : Log ρ π τ) :
    (l.after events).trace = l.trace.after (events.filterMap Event.attempt?).length
      (events.filterMap Event.reset?) := by
  simp [after, trace, Trace.after]

/-- What an attempt does that is made as attempt `k`. -/
def Attempt.events (k : ℕ) : Attempt ρ π τ → List Event
  | failed _ => [.attempt k, .reset k]
  | unreachable _ | refused _ | done _ => [.attempt k]

variable (outcome) in
/-- At most `n` attempts from attempt `i` on, until one decides the call. -/
def attempts : (n i : ℕ) → Option (Attempt ρ π τ) × List Event
  | 0, _ => (none, [])
  | n + 1, i =>
    if (outcome i).IsRetried then
      ((attempts n (i + 1)).1, (outcome i).events i ++ (attempts n (i + 1)).2)
    else (some (outcome i), (outcome i).events i)

theorem attempts_of_retried {n i : ℕ} (h : (outcome i).IsRetried) :
    attempts outcome (n + 1) i =
      ((attempts outcome n (i + 1)).1, (outcome i).events i ++ (attempts outcome n (i + 1)).2) :=
  if_pos h

theorem attempts_of_final {n i : ℕ} (h : ¬ (outcome i).IsRetried) :
    attempts outcome (n + 1) i = (some (outcome i), (outcome i).events i) :=
  if_neg h

variable (outcome) in
/-- What is expected of a call that may make `n` attempts from attempt `i` on; `ended` is the
outcome that decided it. -/
structure Orderly (n i : ℕ) (ended : Option (Attempt ρ π τ)) (events : List Event) : Prop where
  /-- The attempts are made one after the other, no more than `n` and no fewer if none decides. -/
  made : ∃ m ≤ n, events.filterMap Event.attempt? = List.range' i m ∧ (ended = none → m = n)
  /-- The call ends as an attempt that it made. -/
  ended_iff : ∀ a, ended = some a ↔ ¬ a.IsRetried ∧ ∃ k, .attempt k ∈ events ∧ outcome k = a
  /-- An attempt that is not retried is the last thing that the call does. -/
  last : ∀ k, .attempt k ∈ events → ¬ (outcome k).IsRetried →
    ∃ before, events = before ++ [.attempt k]
  /-- A connection that failed is reset at once. -/
  reset : ∀ k e, .attempt k ∈ events → outcome k = .failed e →
    [.attempt k, .reset k] <:+: events
  /-- No other connection is reset. -/
  failed_of_reset : ∀ k, .reset k ∈ events → ∃ e, outcome k = .failed e

theorem attempt_mem_events {a : Attempt ρ π τ} {i k : ℕ} :
    .attempt k ∈ a.events i ↔ k = i := by
  cases a <;> simp [Attempt.events]

theorem reset_mem_events {a : Attempt ρ π τ} {i k : ℕ} :
    .reset k ∈ a.events i ↔ k = i ∧ ∃ e, a = .failed e := by
  cases a <;> simp [Attempt.events]

theorem filterMap_attempt?_events (a : Attempt ρ π τ) (i : ℕ) :
    (a.events i).filterMap Event.attempt? = [i] := by
  cases a <;> rfl

/-- Nothing is done without attempts. -/
theorem orderly_zero (i : ℕ) : Orderly outcome 0 i none [] := by
  refine ⟨⟨0, Nat.le_refl 0, rfl, fun _ => rfl⟩, fun a => ?_, nofun, nofun, nofun⟩
  exact iff_of_false nofun fun ⟨_, _, h, _⟩ => List.not_mem_nil h

/-- An attempt that decides. -/
theorem orderly_final {n i : ℕ} (h : ¬ (outcome i).IsRetried) :
    Orderly outcome (n + 1) i (some (outcome i)) ((outcome i).events i) := by
  have hevents : (outcome i).events i = [.attempt i] := by
    cases ho : outcome i with
    | unreachable e | failed e => exact absurd (by rw [ho]; trivial) h
    | refused e | done r => rfl
  refine ⟨⟨1, by omega, filterMap_attempt?_events _ _, nofun⟩, fun a => ?_, fun k hk _ => ?_,
    fun k e hk ho => ?_, fun k hk => ?_⟩
  · constructor
    · intro ha
      obtain rfl := Option.some.inj ha
      exact ⟨h, i, attempt_mem_events.mpr rfl, rfl⟩
    · rintro ⟨-, k, hk, rfl⟩
      rw [attempt_mem_events.mp hk]
  · exact ⟨[], by rw [hevents, attempt_mem_events.mp hk]; rfl⟩
  · rw [attempt_mem_events.mp hk] at ho
    exact absurd (by rw [ho]; trivial) h
  · obtain ⟨rfl, he⟩ := reset_mem_events.mp hk
    exact he

/-- An attempt that is retried, before the others. -/
theorem Orderly.cons {n i : ℕ} {ended : Option (Attempt ρ π τ)} {events : List Event}
    (h : Orderly outcome n (i + 1) ended events) (hi : (outcome i).IsRetried) :
    Orderly outcome (n + 1) i ended ((outcome i).events i ++ events) := by
  have hmem {k : ℕ} (hk : .attempt k ∈ (outcome i).events i ++ events) :
      k = i ∨ .attempt k ∈ events :=
    (List.mem_append.mp hk).imp_left attempt_mem_events.mp
  refine ⟨?_, fun a => ?_, fun k hk hfinal => ?_, fun k e hk ho => ?_, fun k hk => ?_⟩
  · obtain ⟨m, hm, hevents, hall⟩ := h.made
    refine ⟨m + 1, by omega, ?_, fun hnone => by rw [hall hnone]⟩
    rw [List.filterMap_append, filterMap_attempt?_events, hevents]
    rfl
  · rw [h.ended_iff]
    constructor
    · rintro ⟨ha, k, hk, hka⟩
      exact ⟨ha, k, List.mem_append_right _ hk, hka⟩
    · rintro ⟨ha, k, hk, rfl⟩
      rcases hmem hk with rfl | hk
      · exact absurd hi ha
      · exact ⟨ha, k, hk, rfl⟩
  · rcases hmem hk with rfl | hk
    · exact absurd hi hfinal
    · obtain ⟨before, rfl⟩ := h.last k hk hfinal
      exact ⟨(outcome i).events i ++ before, (List.append_assoc _ _ _).symm⟩
  · rcases hmem hk with rfl | hk
    · rw [ho]
      exact List.infix_append' [] _ events
    · exact (h.reset k e hk ho).trans (List.suffix_append _ _).isInfix
  · rcases List.mem_append.mp hk with hk | hk
    · obtain ⟨rfl, he⟩ := reset_mem_events.mp hk
      exact he
    · exact h.failed_of_reset k hk

theorem orderly_attempts (n i : ℕ) :
    Orderly outcome n i (attempts outcome n i).1 (attempts outcome n i).2 := by
  induction n generalizing i with
  | zero => exact orderly_zero i
  | succ n ih =>
    by_cases h : (outcome i).IsRetried
    · rw [attempts_of_retried h]
      exact (ih (i + 1)).cons h
    · rw [attempts_of_final h]
      exact orderly_final h

end Retry
