import Mathlib.Tactic.SplitIfs

/-!
# Transition systems with guarded runs

A transition system is a start state and a partial step function: `step s a` is the state after
the atomic step `a`, or `none` when `a` cannot be taken in `s`. An interleaving of concurrent calls
is a list of such steps. A *guarded* run is one whose every step meets a condition on the step and
the state before it; the guard `fun _ _ => True` gives all runs.

## Main definitions

* `TransitionSystem`, `TransitionSystem.Run`, `TransitionSystem.Reachable`.
* `TransitionSystem.Visited` : some state on the way of a run has a property.
* `TransitionSystem.exec` : executes a list of steps, failing on a step that is not enabled or does
  not meet the guard.

## Main results

* `TransitionSystem.Run.invariant`, `TransitionSystem.Reachable.invariant` : what every guarded step
  preserves holds along every guarded run.
* `TransitionSystem.Run.history` : the same for what is said of the steps and the state together.
* `TransitionSystem.run_of_exec`, `TransitionSystem.exists_reachable_of_exec` : an executed list of
  steps is a run.
-/

/-- A system with states `σ` and atomic steps `α`. -/
structure TransitionSystem (σ : Type*) (α : Type*) where
  /-- The state before the first step. -/
  init : σ
  /-- The state after a step, or `none` when the step is not enabled. -/
  step : σ → α → Option σ

namespace TransitionSystem

variable {σ α : Type*} (M : TransitionSystem σ α)

/-- `M.Run G s as t`: the steps `as`, each meeting the guard `G` in the state before it, lead from
`s` to `t`. -/
inductive Run (G : σ → α → Prop) : σ → List α → σ → Prop
  | nil (s : σ) : Run G s [] s
  | cons {s t u : σ} {a : α} {as : List α} (hg : G s a) (hs : M.step s a = some t)
      (hr : Run G t as u) : Run G s (a :: as) u

/-- The states that a guarded run reaches from the start state. -/
def Reachable (G : σ → α → Prop) (s : σ) : Prop := ∃ as, M.Run G M.init as s

variable {M} {G : σ → α → Prop}

namespace Run

theorem append {s t u : σ} {as bs : List α} (h : M.Run G s as t) (h' : M.Run G t bs u) :
    M.Run G s (as ++ bs) u := by
  induction h with
  | nil => exact h'
  | cons hg hs _ ih => exact .cons hg hs (ih h')

theorem snoc {s t u : σ} {a : α} {as : List α} (h : M.Run G s as t) (hg : G t a)
    (hs : M.step t a = some u) : M.Run G s (as ++ [a]) u :=
  h.append (.cons hg hs (.nil u))

/-- What every guarded step preserves holds at the end of a guarded run. -/
theorem invariant {I : σ → Prop} (hstep : ∀ s a t, I s → G s a → M.step s a = some t → I t)
    {s t : σ} {as : List α} (h : M.Run G s as t) (hs : I s) : I t := by
  induction h with
  | nil => exact hs
  | cons hg hst _ ih => exact ih (hstep _ _ _ hs hg hst)

end Run

namespace Reachable

theorem init : M.Reachable G M.init := ⟨[], .nil _⟩

theorem step {s t : σ} {a : α} (h : M.Reachable G s) (hg : G s a) (hs : M.step s a = some t) :
    M.Reachable G t := by
  obtain ⟨as, hr⟩ := h
  exact ⟨as ++ [a], hr.snoc hg hs⟩

/-- An inductive invariant holds in every reachable state. -/
theorem invariant {I : σ → Prop} (h₀ : I M.init)
    (hstep : ∀ s a t, I s → G s a → M.step s a = some t → I t) {s : σ}
    (h : M.Reachable G s) : I s := by
  obtain ⟨as, hr⟩ := h
  exact hr.invariant hstep h₀

end Reachable

/-! ### What a run has been through -/

/-- A statement about the steps taken and the state reached, kept by every guarded step, holds of
every run from the start state. -/
theorem Run.history {I : List α → σ → Prop} (h₀ : I [] M.init)
    (hstep : ∀ as s a t, M.Run G M.init as s → I as s → G s a → M.step s a = some t →
      I (as ++ [a]) t) {as : List α} {s : σ} (h : M.Run G M.init as s) : I as s := by
  -- The induction takes steps off the front, the statement has them added at the end.
  suffices hsuff : ∀ {t u bs}, M.Run G t bs u → ∀ pre, M.Run G M.init pre t → I pre t →
      I (pre ++ bs) u from hsuff h [] (.nil _) h₀
  intro t u bs hr
  induction hr with
  | nil => exact fun pre _ hI => by rwa [List.append_nil]
  | @cons t t' u a bs hg hs _ ih =>
    intro pre hpre hI
    rw [List.append_cons]
    exact ih _ (hpre.snoc hg hs) (hstep pre t a t' hpre hI hg hs)

variable (M G) in
/-- Some state that the steps `as` lead through has the property. -/
def Visited (as : List α) (P : σ → Prop) : Prop :=
  ∃ bs s, bs <+: as ∧ M.Run G M.init bs s ∧ P s

theorem Visited.append {as bs : List α} {P : σ → Prop} (h : M.Visited G as P) :
    M.Visited G (as ++ bs) P := by
  obtain ⟨pre, s, hpre, hr, hP⟩ := h
  exact ⟨pre, s, hpre.trans (List.prefix_append as bs), hr, hP⟩

/-- The state before a step has been visited. -/
theorem Run.visited {as bs : List α} {s : σ} {P : σ → Prop} (h : M.Run G M.init as s) (hP : P s) :
    M.Visited G (as ++ bs) P :=
  ⟨as, s, List.prefix_append as bs, h, hP⟩

variable (M)

/-- Execute a list of steps; the result is `none` as soon as a step is not enabled or does not meet
the guard. -/
def exec (G : σ → α → Prop) [∀ s a, Decidable (G s a)] : σ → List α → Option σ
  | s, [] => some s
  | s, a :: as => if G s a then (M.step s a).bind fun t => exec G t as else none

variable {M}

theorem run_of_exec [∀ s a, Decidable (G s a)] {s t : σ} {as : List α}
    (h : M.exec G s as = some t) : M.Run G s as t := by
  induction as generalizing s with
  | nil =>
    obtain rfl : s = t := Option.some.inj h
    exact .nil s
  | cons a as ih =>
    rw [exec] at h
    split_ifs at h with hg
    obtain ⟨u, hu, ht⟩ := Option.bind_eq_some_iff.mp h
    exact .cons hg hu (ih ht)

/-- A state that an executed list of steps reaches, known by what `f` shows of it. -/
theorem exists_reachable_of_exec [∀ s a, Decidable (G s a)] {β : Type*} {f : σ → β} {b : β}
    (as : List α) (h : (M.exec G M.init as).map f = some b) : ∃ s, M.Reachable G s ∧ f s = b := by
  obtain ⟨s, hs, hf⟩ := Option.map_eq_some_iff.mp h
  exact ⟨s, ⟨as, run_of_exec hs⟩, hf⟩

end TransitionSystem
