import Mathlib.Data.List.Basic
import Mathlib.Data.Nat.Bitwise
import Mathlib.Tactic.SplitIfs

/-!
# Bits packed into bytes, words written big-endian

Bit `i` of a packed byte string is bit `i % 8` of byte `i / 8`, least significant first. Setting
bits one at a time in a zeroed buffer (`packBits`) and testing them again (`testBit`) are inverse to
each other.
A 16-bit word is written as its high byte followed by its low byte (`putUint16`, `uint16`).

## Main results

* `BitPacking.testBit_packBits` : the bits of a packed list, the padding bits being zero.
* `BitPacking.uint16_putUint16`, `BitPacking.toWords_ofWords` : words read back.
-/

namespace BitPacking

/-! ### Bits -/

/-- Bit `i % 8` of byte `i / 8`; bits behind the end are zero. -/
def testBit (buf : List UInt8) (i : ℕ) : Bool :=
  (buf.getD (i / 8) 0).toBitVec.getLsbD (i % 8)

/-- `(b >> k) & 1 == 1`. -/
def shiftTest (b : UInt8) (k : ℕ) : Bool := (b >>> UInt8.ofNat k) &&& 1 == 1

/-- `(b >> k) & 1 != 0`. -/
def shiftTestNe (b : UInt8) (k : ℕ) : Bool := (b >>> UInt8.ofNat k) &&& 1 != 0

/-- `b & (1 << k) != 0`. -/
def maskTest (b : UInt8) (k : ℕ) : Bool := b &&& (1 <<< UInt8.ofNat k) != 0

/-- `buf[i/8] |= 1 << (i%8)`. -/
def setBit (buf : List UInt8) (i : ℕ) : List UInt8 :=
  buf.modify (i / 8) fun b => b ||| (1 <<< UInt8.ofNat (i % 8))

/-- Set the bits of `vs` that are `true`, the first of them being bit `i`. -/
def setBits (buf : List UInt8) : ℕ → List Bool → List UInt8
  | _, [] => buf
  | i, v :: vs => setBits (if v then setBit buf i else buf) (i + 1) vs

/-- The bytes needed for `n` bits. -/
def byteCount (n : ℕ) : ℕ := (n + 7) / 8

/-- The bits `vs` in a fresh buffer. -/
def packBits (vs : List Bool) : List UInt8 :=
  setBits (List.replicate (byteCount vs.length) 0) 0 vs

theorem toNat_ofNat_mod {k : ℕ} (hk : k < 8) : (UInt8.ofNat k).toNat % 8 = k := by
  rw [UInt8.toNat_ofNat_of_lt' (hk.trans (by decide)), Nat.mod_eq_of_lt hk]

/-- A bit that is shifted down. -/
theorem toNat_shiftRight_and_one (b : UInt8) {k : ℕ} (hk : k < 8) :
    ((b >>> UInt8.ofNat k) &&& 1).toNat = (b.toBitVec.getLsbD k).toNat := by
  rw [UInt8.toNat_and, UInt8.toNat_shiftRight, toNat_ofNat_mod hk, UInt8.toNat_one,
    Nat.and_one_is_mod, Nat.shiftRight_eq_div_pow, ← Nat.toNat_testBit]
  rfl

/-- A bit that is masked in place. -/
theorem toNat_and_one_shiftLeft (b : UInt8) {k : ℕ} (hk : k < 8) :
    (b &&& (1 <<< UInt8.ofNat k)).toNat = (b.toBitVec.getLsbD k).toNat * 2 ^ k := by
  have hlt : 2 ^ k < 2 ^ 8 := Nat.pow_lt_pow_right (by decide) hk
  rw [UInt8.toNat_and, UInt8.toNat_shiftLeft, toNat_ofNat_mod hk, UInt8.toNat_one,
    Nat.one_shiftLeft, Nat.mod_eq_of_lt hlt, Nat.and_two_pow]
  rfl

theorem shiftTest_eq_testBit (buf : List UInt8) (i : ℕ) :
    shiftTest (buf.getD (i / 8) 0) (i % 8) = testBit buf i := by
  have h := toNat_shiftRight_and_one (buf.getD (i / 8) 0) (Nat.mod_lt i (by decide))
  rw [shiftTest, testBit, Bool.eq_iff_iff, beq_iff_eq, ← UInt8.toNat_inj, h]
  cases (buf.getD (i / 8) 0).toBitVec.getLsbD (i % 8) <;> decide

theorem shiftTestNe_eq_testBit (buf : List UInt8) (i : ℕ) :
    shiftTestNe (buf.getD (i / 8) 0) (i % 8) = testBit buf i := by
  have h := toNat_shiftRight_and_one (buf.getD (i / 8) 0) (Nat.mod_lt i (by decide))
  rw [shiftTestNe, testBit, Bool.eq_iff_iff, bne_iff_ne, Ne, ← UInt8.toNat_inj, h]
  cases (buf.getD (i / 8) 0).toBitVec.getLsbD (i % 8) <;> decide

theorem maskTest_eq_testBit (buf : List UInt8) (i : ℕ) :
    maskTest (buf.getD (i / 8) 0) (i % 8) = testBit buf i := by
  have h := toNat_and_one_shiftLeft (buf.getD (i / 8) 0) (Nat.mod_lt i (by decide))
  rw [maskTest, testBit, Bool.eq_iff_iff, bne_iff_ne, Ne, ← UInt8.toNat_inj, h]
  cases (buf.getD (i / 8) 0).toBitVec.getLsbD (i % 8) <;> simp

@[simp] theorem length_setBit (buf : List UInt8) (i : ℕ) : (setBit buf i).length = buf.length := by
  simp [setBit]

@[simp] theorem length_setBits (buf : List UInt8) (i : ℕ) (vs : List Bool) :
    (setBits buf i vs).length = buf.length := by
  induction vs generalizing buf i with
  | nil => rfl
  | cons v vs ih =>
    rw [setBits, ih]
    split_ifs <;> simp

@[simp] theorem length_packBits (vs : List Bool) :
    (packBits vs).length = byteCount vs.length := by
  simp [packBits]

theorem testBit_setBit (buf : List UInt8) {i : ℕ} (hi : i < 8 * buf.length) (j : ℕ) :
    testBit (setBit buf i) j = (testBit buf j || decide (j = i)) := by
  have hlt : i / 8 < buf.length := by omega
  by_cases h : j / 8 = i / 8
  · have hm : (decide (j % 8 < 8) && !decide (j % 8 < i % 8) && decide (j % 8 - i % 8 = 0)) =
        decide (j = i) := by
      rw [Bool.eq_iff_iff]
      simp only [Bool.and_eq_true, decide_eq_true_eq, Bool.not_eq_true', decide_eq_false_iff_not]
      omega
    simp [testBit, setBit, h, List.getD_eq_getElem?_getD, hlt, hm]
  · have hne : j ≠ i := fun he => h (by rw [he])
    simp [testBit, setBit, List.getD_eq_getElem?_getD, Ne.symm h, hne]

theorem testBit_setBits (buf : List UInt8) (i : ℕ) (vs : List Bool)
    (hi : i + vs.length ≤ 8 * buf.length) (j : ℕ) :
    testBit (setBits buf i vs) j =
      (testBit buf j || (decide (i ≤ j) && vs.getD (j - i) false)) := by
  induction vs generalizing buf i with
  | nil => simp [setBits]
  | cons v vs ih =>
    rw [List.length_cons] at hi
    have hlen : (if v then setBit buf i else buf).length = buf.length := by split_ifs <;> simp
    rw [setBits, ih _ _ (by rw [hlen]; omega)]
    have hset : testBit (if v then setBit buf i else buf) j =
        (testBit buf j || (v && decide (j = i))) := by
      cases v <;> simp [testBit_setBit buf (show i < 8 * buf.length by omega)]
    rw [hset, Bool.or_assoc]
    congr 1
    rcases Nat.lt_trichotomy j i with h | h | h
    · simp [show ¬ i ≤ j by omega, show ¬ i + 1 ≤ j by omega, show j ≠ i by omega]
    · subst h
      simp [show ¬ j + 1 ≤ j by omega]
    · obtain ⟨k, rfl⟩ := Nat.exists_eq_add_of_lt h
      simp [show i + k + 1 - i = k + 1 by omega, show i + k + 1 - (i + 1) = k by omega,
        show i ≤ i + k + 1 by omega, show i + k + 1 ≠ i by omega]

theorem testBit_replicate_zero (n j : ℕ) : testBit (List.replicate n 0) j = false := by
  rcases Nat.lt_or_ge (j / 8) n with h | h <;>
    simp [testBit, List.getD_eq_getElem?_getD, h]

/-- The bits of a packed list are the listed ones, and every padding bit is zero. -/
theorem testBit_packBits (vs : List Bool) (j : ℕ) :
    testBit (packBits vs) j = vs.getD j false := by
  rw [packBits, testBit_setBits _ _ _ (by simp [byteCount]; omega), testBit_replicate_zero]
  simp

/-! ### Words -/

/-- `binary.BigEndian.PutUint16`: the high byte, then the low byte. -/
def putUint16 (x : UInt16) : List UInt8 := [(x >>> 8).toUInt8, x.toUInt8]

/-- `binary.BigEndian.Uint16` of the bytes `hi`, `lo`. -/
def uint16 (hi lo : UInt8) : UInt16 := lo.toUInt16 ||| (hi.toUInt16 <<< 8)

@[simp] theorem length_putUint16 (x : UInt16) : (putUint16 x).length = 2 := rfl

theorem toNat_uint16 (hi lo : UInt8) : (uint16 hi lo).toNat = hi.toNat * 256 + lo.toNat := by
  have hlo : lo.toNat < 2 ^ 8 := lo.toNat_lt
  have hhi : hi.toNat < 2 ^ 8 := hi.toNat_lt
  have hshift : (hi.toUInt16 <<< 8).toNat = hi.toNat <<< 8 := by
    simp [UInt16.toNat_shiftLeft, Nat.shiftLeft_eq]
    omega
  rw [uint16, UInt16.toNat_or, hshift, UInt8.toNat_toUInt16, Nat.or_comm,
    ← Nat.shiftLeft_add_eq_or_of_lt hlo, Nat.shiftLeft_eq]

@[simp] theorem uint16_putUint16 (x : UInt16) : uint16 (x >>> 8).toUInt8 x.toUInt8 = x := by
  have hx : x.toNat < 2 ^ 16 := x.toNat_lt
  refine UInt16.toNat_inj.mp ?_
  rw [toNat_uint16]
  simp [UInt16.toNat_shiftRight, Nat.shiftRight_eq_div_pow]
  omega

theorem putUint16_uint16 (hi lo : UInt8) : putUint16 (uint16 hi lo) = [hi, lo] := by
  have hhi : hi.toNat < 2 ^ 8 := hi.toNat_lt
  have hlo : lo.toNat < 2 ^ 8 := lo.toNat_lt
  have h1 : (uint16 hi lo >>> 8).toUInt8 = hi := by
    refine UInt8.toNat_inj.mp ?_
    simp [UInt16.toNat_shiftRight, Nat.shiftRight_eq_div_pow, toNat_uint16]
    omega
  have h2 : (uint16 hi lo).toUInt8 = lo := by
    refine UInt8.toNat_inj.mp ?_
    simp [toNat_uint16]
  rw [putUint16, h1, h2]

/-- Words written one after the other. -/
def ofWords (ws : List UInt16) : List UInt8 := ws.flatMap putUint16

/-- The words of a byte string; an odd last byte is dropped. -/
def toWords : List UInt8 → List UInt16
  | hi :: lo :: rest => uint16 hi lo :: toWords rest
  | _ => []

@[simp] theorem length_ofWords (ws : List UInt16) : (ofWords ws).length = 2 * ws.length := by
  induction ws with
  | nil => rfl
  | cons w ws ih =>
    rw [ofWords, List.flatMap_cons, List.length_append, length_putUint16]
    change 2 + (ofWords ws).length = _
    rw [ih, List.length_cons]
    omega

@[simp] theorem toWords_ofWords (ws : List UInt16) : toWords (ofWords ws) = ws := by
  induction ws with
  | nil => rfl
  | cons w ws ih =>
    change uint16 (w >>> 8).toUInt8 w.toUInt8 :: toWords (ofWords ws) = _
    rw [uint16_putUint16, ih]

theorem ofWords_toWords {buf : List UInt8} (h : buf.length % 2 = 0) :
    ofWords (toWords buf) = buf := by
  induction buf using toWords.induct with
  | case1 hi lo rest ih =>
    rw [List.length_cons, List.length_cons] at h
    rw [toWords, ofWords, List.flatMap_cons, putUint16_uint16]
    exact congrArg (fun l => hi :: lo :: l) (ih (by omega))
  | case2 buf hne =>
    match buf with
    | [] => rfl
    | [b] => simp at h
    | hi :: lo :: rest => exact absurd rfl (hne hi lo rest)

theorem drop_ofWords (k : ℕ) (ws : List UInt16) :
    (ofWords ws).drop (2 * k) = ofWords (ws.drop k) := by
  induction k generalizing ws with
  | zero => rfl
  | succ k ih =>
    cases ws with
    | nil => simp [ofWords]
    | cons w ws => exact ih ws

theorem take_ofWords (k : ℕ) (ws : List UInt16) :
    (ofWords ws).take (2 * k) = ofWords (ws.take k) := by
  induction k generalizing ws with
  | zero => rfl
  | succ k ih =>
    cases ws with
    | nil => simp [ofWords]
    | cons w ws => exact congrArg (fun l => _ :: _ :: l) (ih ws)

end BitPacking
