import Mathlib.Data.List.Nodup

/-!
# Flags in a word

A word of 32 bits holds flags at fixed positions. They are set one after the other in a word that is
0, and tested with a mask each. A flag that is set at one position is found there and nowhere else.

## Main definitions

* `FlagWord.flag`, `FlagWord.pack`.

## Main results

* `FlagWord.flag_pack_of_mem` : the flags of a packed word.
-/

namespace FlagWord

/-- `x & (1 << i) != 0`. -/
def flag (x i : UInt32) : Bool := (x &&& 1 <<< i) != 0

/-- `if on { x |= 1 << i }`. -/
def set (x : UInt32) (p : UInt32 × Bool) : UInt32 := if p.2 then x ||| 1 <<< p.1 else x

/-- The flags with their positions, set one after the other. -/
def pack (flags : List (UInt32 × Bool)) : UInt32 := flags.foldl set 0

variable {x i : UInt32} {flags : List (UInt32 × Bool)}

theorem toBitVec_mask (hi : i.toNat < 32) :
    (1 <<< i : UInt32).toBitVec = BitVec.twoPow 32 i.toNat := by
  apply BitVec.eq_of_toNat_eq
  rw [UInt32.toNat_toBitVec, UInt32.toNat_shiftLeft, Nat.mod_eq_of_lt hi, BitVec.toNat_twoPow]
  exact congrArg (· % 2 ^ 32) (Nat.one_shiftLeft _)

/-- A mask of one bit finds the bit, in a word of any width. -/
theorem and_twoPow_ne_zero_iff {w k : ℕ} (hk : k < w) (x : BitVec w) :
    x &&& BitVec.twoPow w k ≠ 0#w ↔ x.getLsbD k = true := by
  have hpow : BitVec.twoPow w k ≠ 0#w := by
    intro hzero
    have hbit := congrArg (BitVec.getLsbD · k) hzero
    simp [hk] at hbit
  rw [BitVec.and_twoPow]
  cases x.getLsbD k with
  | true => exact iff_of_true hpow rfl
  | false => exact iff_of_false (not_not.mpr rfl) Bool.false_ne_true

/-- A flag is a bit of the word. -/
theorem flag_eq_getLsbD (hi : i.toNat < 32) : flag x i = x.toBitVec.getLsbD i.toNat := by
  rw [flag, Bool.eq_iff_iff, bne_iff_ne, ne_eq, ← UInt32.toBitVec_inj, UInt32.toBitVec_and,
    toBitVec_mask hi]
  exact and_twoPow_ne_zero_iff hi x.toBitVec

/-- A flag that is set is found at its position, and changes no other. -/
theorem flag_set (hi : i.toNat < 32) {p : UInt32 × Bool} (hp : p.1.toNat < 32) :
    flag (set x p) i = (flag x i || (p.2 && p.1 == i)) := by
  obtain ⟨k, on⟩ := p
  cases on with
  | false => simp [set]
  | true =>
    have hmask : (BitVec.twoPow 32 k.toNat).getLsbD i.toNat = (k == i) := by
      rw [BitVec.getLsbD_twoPow, Bool.eq_iff_iff]
      simp [hp, UInt32.toNat_inj]
    rw [set, if_pos rfl, flag_eq_getLsbD hi, UInt32.toBitVec_or, toBitVec_mask hp,
      BitVec.getLsbD_or, hmask, flag_eq_getLsbD hi, Bool.true_and]

theorem flag_foldl (hi : i.toNat < 32) (hlt : ∀ p ∈ flags, p.1.toNat < 32) :
    flag (flags.foldl set x) i = (flag x i || flags.any fun p => p.2 && p.1 == i) := by
  induction flags generalizing x with
  | nil => simp
  | cons p flags ih =>
    obtain ⟨hp, hflags⟩ := List.forall_mem_cons.mp hlt
    rw [List.foldl_cons, ih hflags, flag_set hi hp, List.any_cons, Bool.or_assoc]

/-- **A flag that was packed** is found again, as no other has its position. -/
theorem flag_pack_of_mem (hnodup : (flags.map Prod.fst).Nodup)
    (hlt : ∀ k ∈ flags.map Prod.fst, k.toNat < 32) {on : Bool} (h : (i, on) ∈ flags) :
    flag (pack flags) i = on := by
  have hzero : flag 0 i = false := by simp [flag]
  have hlt := List.forall_mem_map.mp hlt
  rw [pack, flag_foldl (hlt _ h) hlt, hzero, Bool.false_or, Bool.eq_iff_iff, List.any_eq_true]
  constructor
  · rintro ⟨⟨k, on'⟩, hmem, hk⟩
    simp only [Bool.and_eq_true, beq_iff_eq] at hk
    obtain ⟨hon, rfl⟩ := hk
    -- both entries have the position, and are one
    have heq : (k, on') = (k, on) := List.inj_on_of_nodup_map hnodup hmem h rfl
    exact (Prod.mk.inj heq).2 ▸ hon
  · exact fun hon => ⟨(i, on), h, by simp [hon]⟩

end FlagWord
