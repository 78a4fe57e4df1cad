import GoIndustrial.Lib.GoSlice
import GoIndustrial.Monitor.Plan
import Mathlib.Order.Lattice

/-!
# Modbus data points

The four kinds of data points of `protocol/modbus/datapoint.go`, which differ in their area: coils
and discrete inputs are bits, packed eight to a byte, and registers are 16-bit words.
`clusterExtract` takes the bytes of a point out of those of a window; it panics where the window is
too short. The slices that a reader returns have no spare capacity.

## Main definitions

* `Modbus.Area`, `Modbus.Point` and the instance of `Monitor.Clusterable`.
* `Modbus.Memory`, `Modbus.Memory.raw` : a device memory and the bytes that reading a point returns.

## Main results

* `Modbus.extractRaw_of_covers` : from a window that covers the point, its bytes are extracted.
* `Modbus.extractRaw_ne_of_short` : from a window that ends before the point they are not, if the
  memory is all ones.
-/

namespace GoIndustrial.Modbus

open BitPacking Plc

inductive Area
  | coil
  | discreteInput
  | holdingRegister
  | inputRegister
  deriving DecidableEq, Repr

namespace Area

def clusterKey : Area → String
  | coil => "coil"
  | discreteInput => "discrete_input"
  | holdingRegister => "holding_register"
  | inputRegister => "input_register"

/-- The position of the key of an area among the sorted keys. -/
def rank : Area → ℕ
  | coil => 0
  | discreteInput => 1
  | holdingRegister => 2
  | inputRegister => 3

theorem rank_injective : Function.Injective rank := by
  intro a b h
  cases a <;> cases b <;> first | rfl | cases h

instance : LinearOrder Area := LinearOrder.lift' rank rank_injective

/-- Areas are ordered as `sort.Strings` orders their keys. -/
theorem lt_iff_clusterKey_lt (a b : Area) : a < b ↔ a.clusterKey < b.clusterKey := by
  cases a <;> cases b <;> decide

/-- The units of the area are bits. -/
def isBits : Area → Bool
  | coil | discreteInput => true
  | holdingRegister | inputRegister => false

def clusterBitsPerUnit (a : Area) : UInt16 := if a.isBits then 1 else 16

end Area

/-- A contiguous range of an area. -/
structure Point where
  area : Area
  addr : UInt16
  qty : UInt16
  deriving DecidableEq, Repr

namespace Point

def holdingRegister (addr qty : UInt16) : Point := ⟨.holdingRegister, addr, qty⟩

def inputRegister (addr qty : UInt16) : Point := ⟨.inputRegister, addr, qty⟩

def coil (addr qty : UInt16) : Point := ⟨.coil, addr, qty⟩

def discreteInput (addr qty : UInt16) : Point := ⟨.discreteInput, addr, qty⟩

/-- The bytes that `ClusterExtract` of a register point copies. -/
def extractRegisters (p : Point) (raw : List UInt8) (clusterStart : UInt16) : Option (List UInt8) :=
  let offset := (p.addr - clusterStart).toNat * 2
  let size := p.qty.toNat * 2
  (GoSlice.slice (ε := Empty) raw offset (offset + size)).toOption

/-- The bytes of `extractBits`. -/
def extractBits (p : Point) (raw : List UInt8) (clusterStart : UInt16) : Option (List UInt8) :=
  let bitOffset := (p.addr - clusterStart).toNat
  let bits : Except (Fault Empty) (List Bool) := (List.range p.qty.toNat).mapM fun i => do
    let b ← GoSlice.index raw ((bitOffset + i) / 8)
    return maskTest b ((bitOffset + i) % 8)
  bits.toOption.map packBits

def extractRaw (p : Point) (raw : List UInt8) (clusterStart : UInt16) : Option (List UInt8) :=
  if p.area.isBits then p.extractBits raw clusterStart else p.extractRegisters raw clusterStart

/-- The data type of an extracted value. -/
def extractType (p : Point) : DataType :=
  if p.area.isBits then .bool else if 1 < p.qty then .bytes else .uint16

/-- `ClusterExtract`. -/
def clusterExtract (p : Point) (val : Value Point) (clusterStart : UInt16) : Option (Value Point) :=
  (p.extractRaw val.raw clusterStart).map fun raw =>
    { dataPoint := none, raw, type := p.extractType, byteOrder := val.byteOrder }

end Point

instance : Monitor.Clusterable Point Area where
  clusterKey p := p.area
  clusterAddr p := p.addr
  clusterQty p := p.qty
  clusterBitsPerUnit p := p.area.clusterBitsPerUnit
  clusterMerge p start count := .clusterable ⟨p.area, start, count⟩
  clusterExtract := Point.clusterExtract

/-! ### Reading from a memory -/

/-- The contents of a device. -/
structure Memory where
  /-- Coils and discrete inputs. -/
  bit : Area → ℕ → Bool
  /-- Holding and input registers. -/
  register : Area → ℕ → UInt16

/-- `registersToBytes` of `client.go`. -/
def registersToBytes (regs : List UInt16) : List UInt8 := ofWords regs

/-- `boolsToBytes` of `client.go`. -/
def boolsToBytes (vals : List Bool) : List UInt8 := packBits vals

/-- The bytes that reading a range returns. -/
def Memory.raw (mem : Memory) (p : Point) : List UInt8 :=
  let units := List.range' p.addr.toNat p.qty.toNat
  if p.area.isBits then boolsToBytes (units.map (mem.bit p.area))
  else registersToBytes (units.map (mem.register p.area))

/-- Every bit is set. -/
def Memory.ones : Memory := ⟨fun _ _ => true, fun _ _ => 0xFFFF⟩

theorem toNat_sub_of_le {a b : UInt16} (h : b.toNat ≤ a.toNat) :
    (a - b).toNat = a.toNat - b.toNat := by
  have ha := a.toNat_lt
  rw [UInt16.toNat_sub]
  omega

section Extract

variable {mem : Memory} {a : Area} {addr qty start count : UInt16}

theorem raw_bits (hb : a.isBits = true) :
    mem.raw ⟨a, addr, qty⟩ = packBits ((List.range' addr.toNat qty.toNat).map (mem.bit a)) := by
  rw [Memory.raw, if_pos hb, boolsToBytes]

theorem testBit_raw (hb : a.isBits = true) (i : ℕ) :
    testBit (mem.raw ⟨a, addr, qty⟩) i =
      (decide (i < qty.toNat) && mem.bit a (addr.toNat + i)) := by
  rw [raw_bits hb, testBit_packBits, List.getD_eq_getElem?_getD, List.getElem?_map]
  by_cases h : i < qty.toNat
  · simp [h]
  · simp [h]

theorem length_raw_bits (hb : a.isBits = true) :
    (mem.raw ⟨a, addr, qty⟩).length = byteCount qty.toNat := by
  rw [raw_bits hb, length_packBits, List.length_map, List.length_range']

theorem raw_registers (hb : a.isBits = false) :
    mem.raw ⟨a, addr, qty⟩ = ofWords ((List.range' addr.toNat qty.toNat).map (mem.register a)) := by
  rw [Memory.raw, if_neg (by simp [hb]), registersToBytes]

theorem length_raw_registers (hb : a.isBits = false) :
    (mem.raw ⟨a, addr, qty⟩).length = 2 * qty.toNat := by
  rw [raw_registers hb, length_ofWords, List.length_map, List.length_range']

/-- A part of a block of cells. -/
theorem drop_take_map_range' {β : Type} (f : ℕ → β) {s off q c : ℕ} (h : off + q ≤ c) :
    (((List.range' s c).map f).take (off + q)).drop off = (List.range' (s + off) q).map f := by
  refine List.ext_getElem ?_ fun i h₁ h₂ => ?_
  · simp only [List.length_drop, List.length_take, List.length_map, List.length_range']
    omega
  · simp [Nat.add_assoc]

theorem extractRegisters_eq (raw : List UInt8) :
    Point.extractRegisters ⟨a, addr, qty⟩ raw start = (GoSlice.slice (ε := Empty) raw
      ((addr - start).toNat * 2) ((addr - start).toNat * 2 + qty.toNat * 2)).toOption :=
  rfl

theorem extractRegisters_of_covers (hb : a.isBits = false) (hs : start.toNat ≤ addr.toNat)
    (he : addr.toNat + qty.toNat ≤ start.toNat + count.toNat) :
    Point.extractRegisters ⟨a, addr, qty⟩ (mem.raw ⟨a, start, count⟩) start =
      some (mem.raw ⟨a, addr, qty⟩) := by
  obtain ⟨off, hoff⟩ := Nat.exists_eq_add_of_le hs
  have hsub : (addr - start).toNat = off := by
    rw [toNat_sub_of_le hs]
    omega
  have hhi : off * 2 + qty.toNat * 2 = 2 * (off + qty.toNat) := by omega
  rw [extractRegisters_eq, hsub, GoSlice.slice, length_raw_registers hb,
    if_pos ⟨by omega, by omega⟩, raw_registers hb, raw_registers hb, hhi, take_ofWords,
    Nat.mul_comm off 2, drop_ofWords, drop_take_map_range' _ (by omega), hoff]
  rfl

/-- The bits that are extracted when none of their bytes lies behind the end. -/
theorem extractBits_eq {raw : List UInt8}
    (h : ∀ i < qty.toNat, ((addr - start).toNat + i) / 8 < raw.length) :
    Point.extractBits ⟨a, addr, qty⟩ raw start = some (packBits ((List.range qty.toNat).map
      fun i => testBit raw ((addr - start).toNat + i))) := by
  rw [Point.extractBits, GoSlice.mapM_ok (g := fun i => testBit raw ((addr - start).toNat + i))]
  · rfl
  · intro i hi
    rw [GoSlice.index_of_lt (h i (List.mem_range.mp hi))]
    exact congrArg Except.ok (maskTest_eq_testBit raw _)

theorem extractBits_eq_none {raw : List UInt8}
    (h : ¬ ∀ i < qty.toNat, ((addr - start).toNat + i) / 8 < raw.length) :
    Point.extractBits ⟨a, addr, qty⟩ raw start = none := by
  rw [Point.extractBits, GoSlice.mapM_panic]
  · rfl
  · intro i _
    by_cases hi : ((addr - start).toNat + i) / 8 < raw.length
    · rw [GoSlice.index_of_lt hi]
      exact .inl ⟨_, rfl⟩
    · rw [GoSlice.index, if_neg hi]
      exact .inr rfl
  · simp only [not_forall] at h
    obtain ⟨i, hlt, hge⟩ := h
    refine ⟨i, List.mem_range.mpr hlt, ?_⟩
    rw [GoSlice.index, if_neg hge]
    rfl

theorem extractBits_of_covers (hb : a.isBits = true) (hs : start.toNat ≤ addr.toNat)
    (he : addr.toNat + qty.toNat ≤ start.toNat + count.toNat) :
    Point.extractBits ⟨a, addr, qty⟩ (mem.raw ⟨a, start, count⟩) start =
      some (mem.raw ⟨a, addr, qty⟩) := by
  have hsub := toNat_sub_of_le hs
  have hraw : mem.raw ⟨a, addr, qty⟩ = _ := raw_bits hb
  rw [extractBits_eq, hraw, List.range'_eq_map_range, List.map_map]
  · refine congrArg (fun bits => some (packBits bits)) (List.map_congr_left fun i hi => ?_)
    have hlt := List.mem_range.mp hi
    rw [testBit_raw hb, decide_eq_true (by omega), Bool.true_and, Function.comp_apply]
    congr 1
    omega
  · intro i hi
    rw [length_raw_bits hb, byteCount]
    omega

/-- The bytes of a point are extracted from those of a range that covers it. -/
theorem extractRaw_of_covers (hs : start.toNat ≤ addr.toNat)
    (he : addr.toNat + qty.toNat ≤ start.toNat + count.toNat) :
    Point.extractRaw ⟨a, addr, qty⟩ (mem.raw ⟨a, start, count⟩) start =
      some (mem.raw ⟨a, addr, qty⟩) := by
  rw [Point.extractRaw]
  split_ifs with hb
  · exact extractBits_of_covers hb hs he
  · exact extractRegisters_of_covers (Bool.eq_false_iff.mpr hb) hs he

/-- From a range that ends before the point they are not: registers panic, and bits that do not are
those of the padding. -/
theorem extractRaw_ne_of_short (hs : start.toNat ≤ addr.toNat) (hq : 0 < qty.toNat)
    (he : start.toNat + count.toNat < addr.toNat + qty.toNat) :
    Point.extractRaw ⟨a, addr, qty⟩ (Memory.ones.raw ⟨a, start, count⟩) start ≠
      some (Memory.ones.raw ⟨a, addr, qty⟩) := by
  have hsub := toNat_sub_of_le hs
  rw [Point.extractRaw]
  split_ifs with hb
  · by_cases hin : ∀ i < qty.toNat,
        ((addr - start).toNat + i) / 8 < (Memory.ones.raw ⟨a, start, count⟩).length
    · rw [extractBits_eq hin]
      intro heq
      -- the last bit of the point is not one of the range
      have hlast := congrArg (fun raw => testBit raw (qty.toNat - 1)) (Option.some.inj heq)
      have hlt : qty.toNat - 1 < qty.toNat := Nat.sub_lt hq Nat.one_pos
      have hout : ¬ (addr - start).toNat + (qty.toNat - 1) < count.toNat := by omega
      simp only [testBit_packBits, testBit_raw hb, List.getD_eq_getElem?_getD, List.getElem?_map,
        List.getElem?_range hlt, Option.map_some, Option.getD_some, decide_eq_false hout,
        decide_eq_true hlt, Bool.false_and, Bool.true_and] at hlast
      cases hlast
    · rw [extractBits_eq_none hin]
      exact Option.some_ne_none _ |>.symm
  · rw [extractRegisters_eq, GoSlice.slice, length_raw_registers (Bool.eq_false_iff.mpr hb),
      if_neg fun h => by omega]
    exact (Option.some_ne_none _).symm

end Extract

end GoIndustrial.Modbus
