import Mathlib.Algebra.Group.Nat.Defs
import Mathlib.Data.List.Basic

/-!
# Words written little-endian

The low byte of a word comes first. The number of a byte string is read back from the bytes of the
number for every width; words of 16 and 32 bits are the cases that are used.

## Main results

* `LittleEndian.value_bytes` : a number read back from its lowest bytes.
* `LittleEndian.bytes_value` : a byte string read back from its number.
* `LittleEndian.uint16_putUint16`, `LittleEndian.uint32_putUint32` : words read back.
* `LittleEndian.or_shifts_eq_uint32`, `LittleEndian.putUint32_eq_shifts` : words and their bytes by
  shifts.
-/

namespace LittleEndian

/-- The lowest `n` bytes of `x`. -/
def bytes : (n x : ℕ) → List UInt8
  | 0, _ => []
  | n + 1, x => UInt8.ofNat x :: bytes n (x / 256)

/-- The number of a byte string. -/
def value : List UInt8 → ℕ
  | [] => 0
  | b :: bs => b.toNat + 256 * value bs

@[simp] theorem length_bytes (n x : ℕ) : (bytes n x).length = n := by
  induction n generalizing x with
  | zero => rfl
  | succ n ih => simp [bytes, ih]

theorem value_bytes (n x : ℕ) : value (bytes n x) = x % 256 ^ n := by
  induction n generalizing x with
  | zero => simp [bytes, value, Nat.mod_one]
  | succ n ih =>
    rw [bytes, value, ih, Nat.pow_succ, Nat.mul_comm (256 ^ n), Nat.mod_mul]
    simp

theorem value_lt (bs : List UInt8) : value bs < 256 ^ bs.length := by
  induction bs with
  | nil => simp [value]
  | cons b bs ih =>
    have hb : b.toNat < 256 := b.toNat_lt
    rw [value, List.length_cons, Nat.pow_succ]
    omega

/-- The bytes of the number of a byte string. -/
theorem bytes_value (bs : List UInt8) : bytes bs.length (value bs) = bs := by
  induction bs with
  | nil => rfl
  | cons b bs ih =>
    have hb : b.toNat < 256 := b.toNat_lt
    have hlow : UInt8.ofNat (value (b :: bs)) = b := by
      apply UInt8.toNat_inj.mp
      rw [UInt8.toNat_ofNat', value]
      omega
    have hhigh : value (b :: bs) / 256 = value bs := by
      rw [value]
      omega
    rw [List.length_cons, bytes, hlow, hhigh, ih]

/-! ### Words of 16 bits -/

/-- `binary.LittleEndian.PutUint16`. -/
def putUint16 (x : UInt16) : List UInt8 := bytes 2 x.toNat

/-- `binary.LittleEndian.Uint16`. -/
def uint16 (bs : List UInt8) : UInt16 := UInt16.ofNat (value bs)

@[simp] theorem length_putUint16 (x : UInt16) : (putUint16 x).length = 2 := rfl

@[simp] theorem uint16_putUint16 (x : UInt16) : uint16 (putUint16 x) = x := by
  apply UInt16.toNat_inj.mp
  have hx : x.toNat < 2 ^ 16 := x.toNat_lt
  rw [uint16, putUint16, value_bytes, UInt16.toNat_ofNat']
  omega

theorem putUint16_uint16 {bs : List UInt8} (h : bs.length = 2) : putUint16 (uint16 bs) = bs := by
  have hlt : value bs < 2 ^ 16 := by simpa [h] using value_lt bs
  have hbytes := bytes_value bs
  rw [h] at hbytes
  rwa [putUint16, uint16, UInt16.toNat_ofNat', Nat.mod_eq_of_lt hlt]

/-! ### Words of 32 bits -/

/-- `binary.LittleEndian.PutUint32`. -/
def putUint32 (x : UInt32) : List UInt8 := bytes 4 x.toNat

/-- `binary.LittleEndian.Uint32`. -/
def uint32 (bs : List UInt8) : UInt32 := UInt32.ofNat (value bs)

@[simp] theorem length_putUint32 (x : UInt32) : (putUint32 x).length = 4 := rfl

@[simp] theorem uint32_putUint32 (x : UInt32) : uint32 (putUint32 x) = x := by
  apply UInt32.toNat_inj.mp
  have hx : x.toNat < 2 ^ 32 := x.toNat_lt
  rw [uint32, putUint32, value_bytes, UInt32.toNat_ofNat']
  omega

theorem putUint32_uint32 {bs : List UInt8} (h : bs.length = 4) : putUint32 (uint32 bs) = bs := by
  have hlt : value bs < 2 ^ 32 := by simpa [h] using value_lt bs
  have hbytes := bytes_value bs
  rw [h] at hbytes
  rwa [putUint32, uint32, UInt32.toNat_ofNat', Nat.mod_eq_of_lt hlt]

/-- The bytes of a word of 16 bits taken out by a shift. -/
theorem putUint16_eq_shifts (x : UInt16) : putUint16 x = [x.toUInt8, (x >>> 8).toUInt8] := by
  have hbyte (y : UInt16) : y.toUInt8 = UInt8.ofNat y.toNat := by
    rw [← UInt8.toNat_inj, UInt16.toNat_toUInt8, UInt8.toNat_ofNat']
  have hhigh : (x >>> 8).toNat = x.toNat / 256 := by
    rw [UInt16.toNat_shiftRight, Nat.shiftRight_eq_div_pow]
    rfl
  rw [hbyte, hbyte, hhigh]
  rfl

/-- The bits of a number below those of another. -/
theorem or_shiftLeft_eq_add {x k : ℕ} (hx : x < 2 ^ k) (y : ℕ) : x ||| y <<< k = x + 2 ^ k * y := by
  rw [Nat.or_comm, ← Nat.shiftLeft_add_eq_or_of_lt hx, Nat.shiftLeft_eq, Nat.mul_comm, Nat.add_comm]

/-- A byte is shifted up within a word. -/
theorem toNat_toUInt32_shiftLeft (x : UInt8) {k : UInt32} (hk : k.toNat ≤ 24) :
    (x.toUInt32 <<< k).toNat = x.toNat <<< k.toNat := by
  have hx : x.toNat < 2 ^ 8 := x.toNat_lt
  have hlt : x.toNat <<< k.toNat < 2 ^ 32 := by
    rw [Nat.shiftLeft_eq]
    calc x.toNat * 2 ^ k.toNat < 2 ^ 8 * 2 ^ k.toNat :=
          Nat.mul_lt_mul_of_pos_right hx (Nat.two_pow_pos _)
      _ ≤ 2 ^ 8 * 2 ^ 24 := Nat.mul_le_mul_left _ (Nat.pow_le_pow_right (by decide) hk)
  rw [UInt32.toNat_shiftLeft, Nat.mod_eq_of_lt (by omega : k.toNat < 32), UInt8.toNat_toUInt32,
    Nat.mod_eq_of_lt hlt]

/-- A word put together from its bytes by shifts. -/
theorem or_shifts_eq_uint32 (a b c d : UInt8) :
    a.toUInt32 ||| b.toUInt32 <<< 8 ||| c.toUInt32 <<< 16 ||| d.toUInt32 <<< 24 =
      uint32 [a, b, c, d] := by
  have ha : a.toNat < 2 ^ 8 := a.toNat_lt
  have hb : b.toNat < 2 ^ 8 := b.toNat_lt
  have hc : c.toNat < 2 ^ 8 := c.toNat_lt
  have hd : d.toNat < 2 ^ 8 := d.toNat_lt
  apply UInt32.toNat_inj.mp
  rw [UInt32.toNat_or, UInt32.toNat_or, UInt32.toNat_or, toNat_toUInt32_shiftLeft b (by decide),
    toNat_toUInt32_shiftLeft c (by decide), toNat_toUInt32_shiftLeft d (by decide),
    UInt8.toNat_toUInt32]
  change a.toNat ||| b.toNat <<< 8 ||| c.toNat <<< 16 ||| d.toNat <<< 24 = _
  have hab : a.toNat + 2 ^ 8 * b.toNat < 2 ^ 16 := by omega
  have habc : a.toNat + 2 ^ 8 * b.toNat + 2 ^ 16 * c.toNat < 2 ^ 24 := by omega
  rw [or_shiftLeft_eq_add ha, or_shiftLeft_eq_add hab, or_shiftLeft_eq_add habc, uint32,
    UInt32.toNat_ofNat']
  simp only [value]
  omega

/-- The bytes of a word taken out by shifts. -/
theorem putUint32_eq_shifts (x : UInt32) :
    putUint32 x = [x.toUInt8, (x >>> 8).toUInt8, (x >>> 16).toUInt8, (x >>> 24).toUInt8] := by
  have hbyte (y : UInt32) : y.toUInt8 = UInt8.ofNat y.toNat := by
    rw [← UInt8.toNat_inj, UInt32.toNat_toUInt8, UInt8.toNat_ofNat']
  have hshift (k : UInt32) (hk : k.toNat < 32) : (x >>> k).toNat = x.toNat / 2 ^ k.toNat := by
    rw [UInt32.toNat_shiftRight, Nat.mod_eq_of_lt hk, Nat.shiftRight_eq_div_pow]
  rw [hbyte, hbyte, hbyte, hbyte, hshift 8 (by decide), hshift 16 (by decide),
    hshift 24 (by decide)]
  simp only [putUint32, bytes, Nat.div_div_eq_div_mul]
  rfl

end LittleEndian
