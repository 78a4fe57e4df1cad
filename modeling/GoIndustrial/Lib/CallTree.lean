import Mathlib.Logic.Basic

/-!
# Programs as trees of calls

A program that talks to a shared object only through the calls of an interface is the tree of its
calls: it has ended with a result, or it makes a call and goes on with what the call returns. The
same tree is run alone, one call after the other (`CallTree.run`), or call by call among the calls
of other programs, so both readings are about one definition of the program.

The interface is a family `C : Type → Type`, a call of type `C β` returning a value of type `β`.
Programs are composed by `>>=`; with errors they are `ExceptT ε (CallTree C)`.

## Main definitions

* `CallTree`, `CallTree.run`, the instance of `Monad`.

## Main results

* `CallTree.run_bind`, `CallTree.run_bindExcept` : the run of a composed program.
-/

/-- Programs over the calls `C` that end with a result in `α`. -/
inductive CallTree (C : Type → Type) (α : Type) : Type 1
  /-- The program has ended. -/
  | ret (a : α) : CallTree C α
  /-- The program makes the call `c` and goes on with its result. -/
  | call {β : Type} (c : C β) (k : β → CallTree C α) : CallTree C α

namespace CallTree

variable {C : Type → Type} {α σ : Type}

variable (perform : {β : Type} → C β → σ → β × σ)

/-- Run a program alone on an object that performs calls by `perform`. -/
def run : CallTree C α → σ → α × σ
  | .ret a, s => (a, s)
  | .call c k, s => (k (perform c s).1).run (perform c s).2

@[simp] theorem run_ret (a : α) (s : σ) : (ret a : CallTree C α).run perform s = (a, s) := rfl

@[simp] theorem run_call {β : Type} (c : C β) (k : β → CallTree C α) (s : σ) :
    (call c k).run perform s = (k (perform c s).1).run perform (perform c s).2 := rfl

/-! ### Composition -/

/-- Go on with the result of a program. -/
def bind {β : Type} : CallTree C α → (α → CallTree C β) → CallTree C β
  | .ret a, f => f a
  | .call c k, f => .call c fun b => (k b).bind f

instance : Monad (CallTree C) where
  pure := ret
  bind := bind

/-- The program that makes one call. -/
def ofCall {β : Type} (c : C β) : CallTree C β := .call c .ret

@[simp] theorem ret_bind {β : Type} (a : α) (f : α → CallTree C β) :
    (ret a : CallTree C α) >>= f = f a := rfl

@[simp] theorem call_bind {β γ : Type} (c : C γ) (k : γ → CallTree C α) (f : α → CallTree C β) :
    call c k >>= f = call c fun b => k b >>= f := rfl

theorem run_bind {β : Type} (t : CallTree C α) (f : α → CallTree C β) (s : σ) :
    (t >>= f).run perform s = (f (t.run perform s).1).run perform (t.run perform s).2 := by
  induction t generalizing s with
  | ret a => rfl
  | call c k ih => exact ih (perform c s).1 (perform c s).2

variable {ε : Type}

/-- A program with errors goes on with a result and stops with an error. -/
theorem run_bindExcept {β : Type} (t : ExceptT ε (CallTree C) α)
    (f : α → ExceptT ε (CallTree C) β) (s : σ) :
    run perform (t >>= f : ExceptT ε (CallTree C) β) s =
      match run perform t s with
      | (.ok a, s') => run perform (f a) s'
      | (.error e, s') => (.error e, s') := by
  refine (run_bind perform (α := Except ε α) t (ExceptT.bindCont f) s).trans ?_
  match run perform t s with
  | (.ok a, s') => rfl
  | (.error e, s') => rfl

end CallTree
