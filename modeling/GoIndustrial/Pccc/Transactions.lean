import Mathlib.Logic.Function.Basic
import GoIndustrial.Lib.SkipCounter
import GoIndustrial.Lib.TransitionSystem
import GoIndustrial.Pccc.Client

/-!
# Transaction numbers

`Client.nextTNS` of `protocol/ethernetip/pccc/client.go`, called by any number of goroutines at a
time. A caller adds one to the atomic counter and takes the low 16 bits of the sum; if these are 0
it goes round once more, and otherwise it returns them. Between the additions of one caller, and
between its last addition and its return, others can add as often as they like.

The results are in the order of the additions that made them. A caller that is held up before its
return does not change its result, only the time at which it is seen.

## Main definitions

* `Pccc.TNSState`, `Pccc.tnsSystem` : the counter and its callers.

## Main results

* `Pccc.TNSState.run_nextTNS` : a caller alone gets what `Pccc.nextTNS` says.
* `Pccc.transactionNumbers` : the results of all callers, whatever the counter started with.
-/

namespace GoIndustrial.Pccc

/-! ### Callers -/

/-- Where a caller is. -/
inductive TNSCaller
  | outside
  /-- In the loop, before `c.tns.Add(1)`. -/
  | looping
  /-- With a number that is not 0, before the return. -/
  | returning (n : UInt16)
  deriving DecidableEq, Repr

/-- The number that a caller has and has not returned. -/
def TNSCaller.pending : TNSCaller → List UInt16
  | .returning n => [n]
  | _ => []

/-- A client with the callers of `nextTNS`. -/
structure TNSState where
  tns : UInt32
  callers : ℕ → TNSCaller
  /-- The results with their callers, in the order of the additions. -/
  drawn : List (ℕ × UInt16)
  /-- The results with their callers, in the order of the returns. -/
  returned : List (ℕ × UInt16)

/-- An atomic step of a caller. -/
inductive TNSStep
  | call (i : ℕ)
  | add (i : ℕ)
  | ret (i : ℕ)
  deriving DecidableEq, Repr

namespace TNSState

def step (s : TNSState) : TNSStep → Option TNSState
  | .call i =>
    match s.callers i with
    | .outside => some { s with callers := Function.update s.callers i .looping }
    | _ => none
  | .add i =>
    match s.callers i with
    | .looping =>
      let tns := s.tns + 1
      let n := tns.toUInt16
      if n ≠ 0 then
        some { s with
          tns
          callers := Function.update s.callers i (.returning n)
          drawn := s.drawn ++ [(i, n)] }
      else some { s with tns }
    | _ => none
  | .ret i =>
    match s.callers i with
    | .returning n =>
      some { s with
        callers := Function.update s.callers i .outside
        returned := s.returned ++ [(i, n)] }
    | _ => none

end TNSState

/-- The callers of a client whose counter starts with `tns`. -/
def tnsSystem (tns : UInt32) : TransitionSystem TNSState TNSStep where
  init := ⟨tns, fun _ => .outside, [], []⟩
  step := TNSState.step

/-! ### Steps -/

/-- What a step does. -/
inductive TNSMove (s : TNSState) : TNSState → Prop
  | call (i : ℕ) (hi : s.callers i = .outside) :
    TNSMove s { s with callers := Function.update s.callers i .looping }
  | draw (i : ℕ) (hi : s.callers i = .looping) (hne : (s.tns + 1).toUInt16 ≠ 0) :
    TNSMove s { s with
      tns := s.tns + 1
      callers := Function.update s.callers i (.returning (s.tns + 1).toUInt16)
      drawn := s.drawn ++ [(i, (s.tns + 1).toUInt16)] }
  | skip (hzero : (s.tns + 1).toUInt16 = 0) : TNSMove s { s with tns := s.tns + 1 }
  | ret (i : ℕ) (n : UInt16) (hi : s.callers i = .returning n) :
    TNSMove s { s with
      callers := Function.update s.callers i .outside
      returned := s.returned ++ [(i, n)] }

theorem TNSMove.of_step {s t : TNSState} {a : TNSStep} (h : s.step a = some t) : TNSMove s t := by
  cases a with
  | call i =>
    cases hi : s.callers i with
    | outside =>
      simp only [TNSState.step, hi, Option.some.injEq] at h
      exact h ▸ .call i hi
    | looping | returning => simp [TNSState.step, hi] at h
  | add i =>
    cases hi : s.callers i with
    | looping =>
      simp only [TNSState.step, hi] at h
      split_ifs at h with hne
      · exact Option.some.inj h ▸ .draw i hi hne
      · exact Option.some.inj h ▸ .skip (not_not.mp hne)
    | outside | returning => simp [TNSState.step, hi] at h
  | ret i =>
    cases hi : s.callers i with
    | returning n =>
      simp only [TNSState.step, hi, Option.some.injEq] at h
      exact h ▸ .ret i n hi
    | outside | looping => simp [TNSState.step, hi] at h

namespace TNSState

variable (tns : UInt32) {s : TNSState} {i : ℕ}

theorem step_call (hi : s.callers i = .outside) : (tnsSystem tns).step s (.call i) =
    some { s with callers := Function.update s.callers i .looping } := by
  simp only [tnsSystem, step, hi]

theorem step_draw (hi : s.callers i = .looping) (hne : (s.tns + 1).toUInt16 ≠ 0) :
    (tnsSystem tns).step s (.add i) = some { s with
      tns := s.tns + 1
      callers := Function.update s.callers i (.returning (s.tns + 1).toUInt16)
      drawn := s.drawn ++ [(i, (s.tns + 1).toUInt16)] } := by
  simp only [tnsSystem, step, hi, if_pos hne]

theorem step_skip (hi : s.callers i = .looping) (hzero : (s.tns + 1).toUInt16 = 0) :
    (tnsSystem tns).step s (.add i) = some { s with tns := s.tns + 1 } := by
  simp only [tnsSystem, step, hi, if_neg (not_not.mpr hzero)]

theorem step_ret {n : UInt16} (hi : s.callers i = .returning n) :
    (tnsSystem tns).step s (.ret i) = some { s with
      callers := Function.update s.callers i .outside
      returned := s.returned ++ [(i, n)] } := by
  simp only [tnsSystem, step, hi]

/-- The addition that makes a number, and its return. -/
theorem run_draw (hi : s.callers i = .looping) (hne : (s.tns + 1).toUInt16 ≠ 0) :
    (tnsSystem tns).Run (fun _ _ => True) s [.add i, .ret i]
      ⟨s.tns + 1, Function.update s.callers i .outside, s.drawn ++ [(i, (s.tns + 1).toUInt16)],
        s.returned ++ [(i, (s.tns + 1).toUInt16)]⟩ := by
  refine .cons trivial (step_draw tns hi hne)
    (.cons trivial (step_ret tns (Function.update_self ..)) ?_)
  rw [Function.update_idem]
  exact .nil _

/-- **A caller alone** gets the number that `nextTNS` makes of the counter. -/
theorem run_nextTNS (hi : s.callers i = .outside) :
    ∃ steps t, (tnsSystem tns).Run (fun _ _ => True) s steps t ∧ t.tns = (nextTNS s.tns).2 ∧
      t.callers = s.callers ∧ t.returned = s.returned ++ [(i, (nextTNS s.tns).1)] := by
  have hlooping : Function.update s.callers i TNSCaller.looping i = .looping :=
    Function.update_self ..
  have hback : Function.update (Function.update s.callers i .looping) i .outside = s.callers := by
    rw [Function.update_idem, ← hi, Function.update_eq_self]
  rw [nextTNS]
  by_cases hzero : (s.tns + 1).toUInt16 = 0
  · have hsum : s.tns + 1 + 1 = s.tns + 2 := UInt32.add_assoc _ _ _
    have hne : (s.tns + 1 + 1).toUInt16 ≠ 0 := by
      rw [UInt32.toUInt16_add, hzero]
      decide
    have hrun := run_draw tns (s := { s with
      tns := s.tns + 1, callers := Function.update s.callers i .looping }) hlooping hne
    rw [if_neg (not_not.mpr hzero), ← hsum]
    exact ⟨_, _, .cons trivial (step_call tns hi)
      (.cons trivial (step_skip tns hlooping hzero) hrun), rfl, hback, rfl⟩
  · have hrun := run_draw tns (s := { s with
      callers := Function.update s.callers i .looping }) hlooping hzero
    rw [if_pos hzero]
    exact ⟨_, _, .cons trivial (step_call tns hi) hrun, rfl, hback, rfl⟩

end TNSState

/-! ### Results -/

/-- The numbers of one caller. -/
def numbersOf (i : ℕ) (results : List (ℕ × UInt16)) : List UInt16 :=
  (results.filter fun r => r.1 = i).map Prod.snd

theorem numbersOf_append (i j : ℕ) (n : UInt16) (results : List (ℕ × UInt16)) :
    numbersOf i (results ++ [(j, n)]) = numbersOf i results ++ if j = i then [n] else [] := by
  rw [numbersOf, List.filter_append, List.map_append, ← numbersOf]
  by_cases hij : j = i <;> simp [hij]

theorem mem_numbersOf {i : ℕ} {n : UInt16} {results : List (ℕ × UInt16)} :
    n ∈ numbersOf i results ↔ (i, n) ∈ results := by
  simp [numbersOf]

theorem numbersOf_append_of_ne {i j : ℕ} (hij : j ≠ i) (n : UInt16)
    (results : List (ℕ × UInt16)) : numbersOf j (results ++ [(i, n)]) = numbersOf j results := by
  rw [numbersOf_append, if_neg hij.symm, List.append_nil]

/-- Each caller has returned the numbers that it has drawn, but for the one it is about to
return. -/
def OwnNumbers (callers : ℕ → TNSCaller) (drawn returned : List (ℕ × UInt16)) : Prop :=
  ∀ i, numbersOf i drawn = numbersOf i returned ++ (callers i).pending

/-- A step of one caller leaves the others alone. -/
theorem OwnNumbers.update {callers : ℕ → TNSCaller} {drawn returned drawn' returned' :
    List (ℕ × UInt16)} (h : OwnNumbers callers drawn returned) {i : ℕ} {c : TNSCaller}
    (hdrawn : ∀ j, j ≠ i → numbersOf j drawn' = numbersOf j drawn)
    (hreturned : ∀ j, j ≠ i → numbersOf j returned' = numbersOf j returned)
    (hi : numbersOf i drawn' = numbersOf i returned' ++ c.pending) :
    OwnNumbers (Function.update callers i c) drawn' returned' := by
  intro j
  rcases eq_or_ne j i with rfl | hj
  · rw [Function.update_self]
    exact hi
  · rw [Function.update_of_ne hj, hdrawn j hj, hreturned j hj]
    exact h j

/-- The numbers are drawn from the counter, and each caller returns its own. -/
structure TNSInv (s : TNSState) : Prop where
  drawn : SkipCounter.Drawn 65536 s.tns.toUInt16.toNat (s.drawn.map fun r => r.2.toNat)
  own : OwnNumbers s.callers s.drawn s.returned

theorem toNat_succ_toUInt16 (tns : UInt32) :
    (tns + 1).toUInt16.toNat = (tns.toUInt16.toNat + 1) % 65536 := by
  rw [UInt32.toUInt16_add, UInt16.toNat_add]
  rfl

theorem TNSInv.step {s t : TNSState} (h : TNSInv s) (hmove : TNSMove s t) : TNSInv t := by
  have hzero_iff : (s.tns + 1).toUInt16.toNat = 0 ↔ (s.tns + 1).toUInt16 = 0 :=
    @UInt16.toNat_inj _ 0
  have hadd := h.drawn.add
  simp only [← toNat_succ_toUInt16, hzero_iff] at hadd
  cases hmove with
  | call i hi =>
    have howni := h.own i
    rw [hi] at howni
    exact ⟨h.drawn, h.own.update (fun _ _ => rfl) (fun _ _ => rfl) howni⟩
  | draw i hi hne =>
    rw [if_neg hne] at hadd
    refine ⟨by simpa using hadd, h.own.update (fun j hj => numbersOf_append_of_ne hj _ _)
      (fun _ _ => rfl) ?_⟩
    rw [numbersOf_append, if_pos rfl, h.own i, hi]
    simp [TNSCaller.pending]
  | skip hzero =>
    rw [if_pos hzero] at hadd
    exact ⟨hadd, h.own⟩
  | ret i n hi =>
    refine ⟨h.drawn, h.own.update (fun _ _ => rfl) (fun j hj => numbersOf_append_of_ne hj _ _) ?_⟩
    rw [numbersOf_append, if_pos rfl, h.own i, hi]
    simp [TNSCaller.pending]

theorem tnsInv_of_reachable {tns : UInt32} {s : TNSState}
    (h : (tnsSystem tns).Reachable (fun _ _ => True) s) : TNSInv s := by
  refine h.invariant ⟨SkipCounter.drawn_nil tns.toUInt16.toNat_lt, fun _ => rfl⟩ ?_
  exact fun s a t hs _ hstep => hs.step (.of_step hstep)

/-- **Transaction numbers.** Whatever the counter started with and however the callers are
interleaved, no call returns 0, and of the results no 65535 in a row have a number twice. Each
caller returns the results that it has drawn, in their order. -/
theorem transactionNumbers (tns : UInt32) {s : TNSState}
    (h : (tnsSystem tns).Reachable (fun _ _ => True) s) :
    (∀ r ∈ s.returned, r.2 ≠ 0) ∧
      (∀ row, row <:+: s.drawn.map Prod.snd → row.length ≤ 65535 → row.Nodup) ∧
      ∀ i, numbersOf i s.drawn = numbersOf i s.returned ++ (s.callers i).pending := by
  have hinv := tnsInv_of_reachable h
  refine ⟨fun r hr => ?_, fun row hrow hlen => ?_, hinv.own⟩
  · have hown : r.2 ∈ numbersOf r.1 s.drawn := by
      rw [hinv.own r.1]
      exact List.mem_append_left _ (mem_numbersOf.mpr hr)
    have hbounds := hinv.drawn.bounds r.2.toNat (List.mem_map_of_mem (mem_numbersOf.mp hown))
    rintro hzero
    rw [hzero] at hbounds
    exact Nat.lt_irrefl 0 hbounds.1
  · have hinfix : row.map UInt16.toNat <:+: s.drawn.map fun r => r.2.toNat := by
      have hmap := hrow.map UInt16.toNat
      rwa [List.map_map] at hmap
    refine List.Nodup.of_map UInt16.toNat (hinv.drawn.nodup_of_infix hinfix ?_)
    rw [List.length_map]
    omega

/-- Three callers over the wrap of both numbers: the second gets 0, and draws again after the
third. -/
theorem transactionNumbers_wrap :
    ∃ s, (tnsSystem 0xFFFFFFFE).Reachable (fun _ _ => True) s ∧
      s.returned = [(1, 2), (0, 0xFFFF), (2, 1)] ∧ s.drawn.map Prod.snd = [0xFFFF, 1, 2] ∧
      (s.drawn.map Prod.snd).Nodup := by
  let results : TNSState → List (ℕ × UInt16) × List UInt16 := fun s =>
    (s.returned, s.drawn.map Prod.snd)
  obtain ⟨s, hs, hresults⟩ := TransitionSystem.exists_reachable_of_exec
    (M := tnsSystem 0xFFFFFFFE) (G := fun _ _ => True) (f := results)
    (b := ([(1, 2), (0, 0xFFFF), (2, 1)], [0xFFFF, 1, 2]))
    [.call 0, .call 1, .add 0, .add 1, .call 2, .add 2, .add 1, .ret 1, .ret 0, .ret 2]
    (by decide +kernel)
  obtain ⟨hreturned, hdrawn⟩ := Prod.mk.inj hresults
  have hlen : (s.drawn.map Prod.snd).length ≤ 65535 := by
    rw [hdrawn]
    decide
  exact ⟨s, hs, hreturned, hdrawn, (transactionNumbers _ hs).2.1 _ (List.infix_refl _) hlen⟩

end GoIndustrial.Pccc
