import Mathlib.Data.List.Chain
import Mathlib.Data.List.Nodup
import Mathlib.Data.Nat.ModEq

/-!
# Counters that skip zero

A counter runs through the numbers below `N` and starts over at 0. Numbers are drawn from it by
adding one, and whoever gets 0 draws again. The numbers that are drawn run through `1, …, N - 1` and
start over at 1, so that no `N - 1` of them in a row have one twice, wherever the counter started
and whoever draws.

## Main definitions

* `SkipCounter.next` : the number behind a number.
* `SkipCounter.Drawn` : the numbers drawn so far, and where the counter stands.

## Main results

* `SkipCounter.Drawn.add` : one addition.
* `SkipCounter.Drawn.nodup_of_infix` : numbers in a row are distinct.
-/

namespace SkipCounter

variable {N c : ℕ} {l : List ℕ}

/-- The number behind `n`. -/
def next (N n : ℕ) : ℕ := if n + 1 = N then 1 else n + 1

/-- The numbers `l` were drawn one after the other, and the counter stands at `c`: at the last of
them, or past it at 0. -/
structure Drawn (N c : ℕ) (l : List ℕ) : Prop where
  chain : l.IsChain fun m n => n = next N m
  bounds : ∀ n ∈ l, 0 < n ∧ n < N
  counter : c < N
  last : ∀ n ∈ l.getLast?, c = n ∨ c = 0 ∧ n + 1 = N

/-- Nothing is drawn yet. -/
theorem drawn_nil (hc : c < N) : Drawn N c [] where
  chain := .nil
  bounds := nofun
  counter := hc
  last := nofun

/-- The number that is drawn from where the counter stands follows the last one. -/
theorem Drawn.next_eq (h : Drawn N c l) {n : ℕ} (hn : n ∈ l.getLast?) (hne : (c + 1) % N ≠ 0) :
    (c + 1) % N = next N n := by
  have hlt := h.counter
  have hn' := h.bounds n (List.mem_of_mem_getLast? hn)
  have hc : c + 1 < N := by
    rcases Nat.lt_or_eq_of_le (Nat.succ_le_of_lt hlt) with hc | hc
    · exact hc
    · exact absurd (hc ▸ Nat.mod_self (c + 1)) hne
  rw [Nat.mod_eq_of_lt hc, next]
  rcases h.last n hn with rfl | ⟨rfl, htop⟩
  · rw [if_neg hc.ne]
  · rw [if_pos htop]

/-- **An addition** draws the number that it makes, unless that is 0. -/
theorem Drawn.add (h : Drawn N c l) :
    Drawn N ((c + 1) % N) (if (c + 1) % N = 0 then l else l ++ [(c + 1) % N]) := by
  have hpos : 0 < N := Nat.zero_lt_of_lt h.counter
  have hcounter : (c + 1) % N < N := Nat.mod_lt _ hpos
  split_ifs with hzero
  · refine ⟨h.chain, h.bounds, hcounter, fun n hn => .inr ⟨hzero, ?_⟩⟩
    -- the counter comes to 0 from its top, which was drawn last
    have htop : c + 1 = N := by
      rcases Nat.lt_or_eq_of_le (Nat.succ_le_of_lt h.counter) with hc | hc
      · rw [Nat.mod_eq_of_lt hc] at hzero
        exact absurd hzero (Nat.succ_ne_zero c)
      · exact hc
    rcases h.last n hn with rfl | ⟨rfl, hn⟩
    · exact htop
    · exact hn
  · refine ⟨?_, ?_, hcounter, fun n hn => .inl ?_⟩
    · refine List.isChain_append.mpr ⟨h.chain, .singleton _, fun m hm n hn => ?_⟩
      rw [List.head?_cons, Option.mem_some_iff] at hn
      exact hn.symm.trans (h.next_eq hm hzero)
    · intro n hn
      rcases List.mem_append.mp hn with hn | hn
      · exact h.bounds n hn
      · obtain rfl := List.mem_singleton.mp hn
        exact ⟨Nat.pos_of_ne_zero hzero, hcounter⟩
    · rw [List.getLast?_concat, Option.mem_some_iff] at hn
      exact hn

/-- Numbers in a row, from the first of them. -/
theorem getElem_of_isChain (hchain : l.IsChain fun m n => n = next N m)
    (hbounds : ∀ n ∈ l, 0 < n ∧ n < N) (hl : 0 < l.length) (i : ℕ) (hi : i < l.length) :
    l[i] = (l[0] - 1 + i) % (N - 1) + 1 := by
  induction i with
  | zero =>
    have h₀ := hbounds l[0] (List.getElem_mem hl)
    rw [Nat.add_zero, Nat.mod_eq_of_lt (by omega)]
    omega
  | succ i ih =>
    have hi' : i < l.length := by omega
    have hmod : (l[0] - 1 + i) % (N - 1) + 1 < N := ih hi' ▸ (hbounds _ (List.getElem_mem hi')).2
    rw [List.isChain_iff_getElem.mp hchain i hi, ih hi', next, ← Nat.add_assoc,
      ← Nat.mod_add_mod (l[0] - 1 + i)]
    split_ifs with htop
    · rw [show (l[0] - 1 + i) % (N - 1) + 1 = N - 1 by omega, Nat.mod_self]
    · have hlt : (l[0] - 1 + i) % (N - 1) + 1 < N - 1 := by omega
      rw [Nat.mod_eq_of_lt hlt]

/-- **Numbers in a row are distinct**, as long as there are fewer than `N`. -/
theorem Drawn.nodup_of_infix (h : Drawn N c l) {row : List ℕ} (hrow : row <:+: l)
    (hlen : row.length < N) : row.Nodup := by
  have hchain := h.chain.infix hrow
  have hbounds : ∀ n ∈ row, 0 < n ∧ n < N := fun n hn => h.bounds n (hrow.subset hn)
  rw [List.nodup_iff_injective_getElem]
  intro i j hij
  have hl : 0 < row.length := Nat.zero_lt_of_lt i.isLt
  have hplace := getElem_of_isChain hchain hbounds hl
  have hmod : row[0] - 1 + i ≡ row[0] - 1 + j [MOD N - 1] := by
    have heq := ((hplace i i.isLt).symm.trans hij).trans (hplace j j.isLt)
    exact Nat.succ_injective heq
  have hi := i.isLt
  have hj := j.isLt
  exact Fin.ext (Nat.ModEq.eq_of_lt_of_lt (hmod.add_left_cancel' _) (by omega) (by omega))

end SkipCounter
