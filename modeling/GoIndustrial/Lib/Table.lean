import Mathlib.Logic.Function.Basic

/-!
# Tables of optional entries

A table gives the entry under a key, if there is one; `Function.update` puts an entry in, or takes
one out. What an updated table has under a key is what was put there, or what it had before.

## Main results

* `Table.update_some_eq_some`, `Table.update_none_eq_some` : the entries of an updated table.
* `Table.forall_update`, `Table.forall_update_some`, `Table.forall_update_none` : what holds of
  every entry.
* `Table.exists_update_some` : what is kept when an entry is replaced.
-/

namespace Table

variable {κ β : Type*} [DecidableEq κ] {f : κ → Option β} {k k' : κ} {b b' : β}

/-- The entries after an entry has been put in. -/
theorem update_some_eq_some :
    Function.update f k (some b) k' = some b' ↔ k' = k ∧ b' = b ∨ k' ≠ k ∧ f k' = some b' := by
  by_cases h : k' = k
  · subst h
    simp [eq_comm]
  · simp [h]

/-- The entries after an entry has been taken out. -/
theorem update_none_eq_some :
    Function.update f k none k' = some b' ↔ k' ≠ k ∧ f k' = some b' := by
  by_cases h : k' = k
  · subst h
    simp
  · simp [h]

/-- What holds of the entries of a table and of the new one, if there is one, holds of all entries
afterwards. -/
theorem forall_update {P : κ → β → Prop} {o : Option β} (hf : ∀ i c, f i = some c → P i c)
    (ho : ∀ c, o = some c → P k c) : ∀ i c, Function.update f k o i = some c → P i c := by
  intro i c h
  rcases eq_or_ne i k with rfl | hne
  · rw [Function.update_self] at h
    exact ho c h
  · rw [Function.update_of_ne hne] at h
    exact hf i c h

/-- What holds of the entries of a table and of the one that is put into it holds of all entries
afterwards. -/
theorem forall_update_some {P : κ → β → Prop} (hf : ∀ i c, f i = some c → P i c) (hb : P k b) :
    ∀ i c, Function.update f k (some b) i = some c → P i c :=
  forall_update hf fun _ hc => Option.some.inj hc ▸ hb

/-- What holds of the entries of a table holds of those that are left when one is taken out. -/
theorem forall_update_none {P : κ → β → Prop} (hf : ∀ i c, f i = some c → P i c) :
    ∀ i c, Function.update f k none i = some c → P i c :=
  forall_update hf nofun

/-- What holds of an entry holds of it or of what has replaced it. -/
theorem exists_update_some {P : β → Prop} (hk : f k = some b) (hP : P b → P b')
    (h : ∃ c, f k' = some c ∧ P c) : ∃ c, Function.update f k (some b') k' = some c ∧ P c := by
  obtain ⟨c, hc, hPc⟩ := h
  by_cases hkk' : k' = k
  · subst hkk'
    obtain rfl := Option.some.inj (hk.symm.trans hc)
    exact ⟨b', Function.update_self _ _ _, hP hPc⟩
  · exact ⟨c, (Function.update_of_ne hkk' _ _).trans hc, hPc⟩

end Table
