import Mathlib.Data.List.Sort

/-!
# Orders that Go leaves open

`sort.Slice` with a comparison of keys sorts by key and leaves the order of elements with equal keys
open; a `range` loop over a map leaves the order of its keys open. What holds for every `KeySort`
and every `RangeOrder` holds whatever the runtime does.

## Main definitions

* `KeySort` : a function that sorts by a key.
* `RangeOrder` : a function that orders the keys of a map.
* `KeySort.insertion`, `RangeOrder.asGiven` : instances that can be evaluated.

## Main results

* `perm_flatMap_filter` : the groups of a list by key have its elements.
-/

variable {α κ : Type}

/-- `sort.Slice` with `less` comparing the keys of two elements. -/
structure KeySort [LinearOrder κ] (key : α → κ) where
  run : List α → List α
  perm : ∀ l, (run l).Perm l
  sorted : ∀ l, (run l).Pairwise fun a b => key a ≤ key b

namespace KeySort

variable [LinearOrder κ] {key : α → κ}

/-- A stable sort. -/
def insertion (key : α → κ) : KeySort key where
  run l := l.insertionSort fun a b => key a ≤ key b
  perm l := List.perm_insertionSort _ l
  sorted l :=
    have : Std.Total fun a b => key a ≤ key b := ⟨fun a b => le_total (key a) (key b)⟩
    have : IsTrans α fun a b => key a ≤ key b := ⟨fun _ _ _ => le_trans⟩
    List.pairwise_insertionSort _ l

theorem mem_run (s : KeySort key) {l : List α} {a : α} : a ∈ s.run l ↔ a ∈ l := (s.perm l).mem_iff

@[simp]
theorem run_nil (s : KeySort key) : s.run [] = [] := (s.perm []).eq_nil

end KeySort

/-- The order in which a `range` loop visits the keys of a map. -/
structure RangeOrder (κ : Type) where
  run : List κ → List κ
  perm : ∀ l, (run l).Perm l

/-- The loop visits the keys in the order in which they are given. -/
def RangeOrder.asGiven : RangeOrder κ where
  run l := l
  perm l := .refl l

/-- The groups of a list, by keys without repetition that cover it, have the elements of the
list. -/
theorem perm_flatMap_filter [DecidableEq κ] (key : α → κ) {keys : List κ} (hnd : keys.Nodup)
    {l : List α} (hmem : ∀ a ∈ l, key a ∈ keys) :
    (keys.flatMap fun k => l.filter fun a => key a = k).Perm l := by
  induction keys generalizing l with
  | nil =>
    have hnil : l = [] :=
      List.eq_nil_iff_forall_not_mem.mpr fun a ha => List.not_mem_nil (hmem a ha)
    rw [hnil]
    rfl
  | cons k keys ih =>
    obtain ⟨hk, hnd⟩ := List.nodup_cons.mp hnd
    -- the other groups are those of the rest of the list
    have hrest : (keys.flatMap fun k' => l.filter fun a => key a = k') = keys.flatMap fun k' =>
        (l.filter fun a => !decide (key a = k)).filter fun a => key a = k' := by
      refine List.flatMap_congr fun k' hk' => ?_
      rw [List.filter_filter]
      refine List.filter_congr fun a _ => ?_
      by_cases ha : key a = k'
      · have hne : k' ≠ k := fun heq => hk (heq ▸ hk')
        simp [ha, hne]
      · simp [ha]
    have hperm := ih hnd (l := l.filter fun a => !decide (key a = k)) fun a ha => by
      obtain ⟨hal, hak⟩ := List.mem_filter.mp ha
      exact (List.mem_cons.mp (hmem a hal)).resolve_left (by simpa using hak)
    rw [List.flatMap_cons, hrest]
    exact (hperm.append_left _).trans (List.filter_append_perm _ l)
