import GoIndustrial.Modbus.Types
import Mathlib.Logic.Function.Basic

/-!
# The data store of the server

`DataStore` and `MemoryStore` of `protocol/modbus/datastore.go`. The calls of the `DataStore`
interface are the constructors of `StoreCall`; `MemoryStore.perform` is what the memory store does
for each of them, under its lock, so each call is one atomic step.

The Go maps are partial functions on addresses. The address of the `i`-th cell of a range is
`address + i` in 16-bit arithmetic, as in the source.

## Main results

* `Modbus.writeCells_apply` : the cells that a write of consecutive values changes.
-/

namespace GoIndustrial.Modbus

/-- The calls of the `DataStore` interface, with what they return. -/
inductive StoreCall : Type → Type
  | readCoils (address : Address) (quantity : Quantity) : StoreCall (Except Err (List Bool))
  | readDiscreteInputs (address : Address) (quantity : Quantity) :
      StoreCall (Except Err (List Bool))
  | readHoldingRegisters (address : Address) (quantity : Quantity) :
      StoreCall (Except Err (List UInt16))
  | readInputRegisters (address : Address) (quantity : Quantity) :
      StoreCall (Except Err (List UInt16))
  | writeSingleCoil (address : Address) (value : Bool) : StoreCall (Except Err Unit)
  | writeSingleRegister (address : Address) (value : UInt16) : StoreCall (Except Err Unit)
  | writeMultipleCoils (address : Address) (values : List Bool) : StoreCall (Except Err Unit)
  | writeMultipleRegisters (address : Address) (values : List UInt16) : StoreCall (Except Err Unit)

/-- The four maps of a `MemoryStore`. -/
structure MemoryStore where
  coils : Address → Option Bool
  discreteInputs : Address → Option Bool
  holdingRegisters : Address → Option UInt16
  inputRegisters : Address → Option UInt16

/-- `NewMemoryStore`. -/
def newMemoryStore : MemoryStore where
  coils _ := none
  discreteInputs _ := none
  holdingRegisters _ := none
  inputRegisters _ := none

section Cells

variable {β : Type}

/-- The loop of the read methods: `quantity` cells from `address` on, unwritten ones being `zero`.
-/
def readCells (m : Address → Option β) (zero : β) (address : Address) (quantity : Quantity) :
    List β :=
  (List.range quantity.toNat).map fun i => (m (address + UInt16.ofNat i)).getD zero

/-- The loop of the write methods: one value after the other from `address` on. -/
def writeCells (m : Address → Option β) : Address → List β → Address → Option β
  | _, [] => m
  | address, v :: vs => writeCells (Function.update m address (some v)) (address + 1) vs

@[simp] theorem length_readCells (m : Address → Option β) (zero : β) (address : Address)
    (quantity : Quantity) : (readCells m zero address quantity).length = quantity.toNat := by
  simp [readCells]

/-- A write changes the cells at distance less than its length behind `address`, where the distance
is taken modulo `2^16`. -/
theorem writeCells_apply (m : Address → Option β) (address : Address) (vs : List β)
    (hlen : vs.length ≤ 65536) (a : Address) :
    writeCells m address vs a = (vs[(a - address).toNat]?).or (m a) := by
  induction vs generalizing m address with
  | nil => simp [writeCells]
  | cons v vs ih =>
    rw [List.length_cons] at hlen
    rw [writeCells, ih _ _ (by omega)]
    have ha := a.toNat_lt
    have hb := address.toNat_lt
    have hb' := (address + 1).toNat_lt
    have hadd := UInt16.toNat_add address 1
    have hsub := UInt16.toNat_sub a address
    have hsub' := UInt16.toNat_sub a (address + 1)
    have hone : (1 : UInt16).toNat = 1 := rfl
    by_cases h : a = address
    · subst h
      have hlast : vs[(a - (a + 1)).toNat]? = none := by
        rw [List.getElem?_eq_none_iff]
        omega
      have hzero : (a - a).toNat = 0 := by omega
      rw [hlast, hzero, Option.none_or, Function.update_self, List.getElem?_cons_zero,
        Option.some_or]
    · have hne : a.toNat ≠ address.toNat := fun he => h (UInt16.toNat_inj.mp he)
      have hnext : (a - address).toNat = (a - (address + 1)).toNat + 1 := by omega
      rw [hnext, List.getElem?_cons_succ, Function.update_of_ne h]

end Cells

namespace MemoryStore

/-- `MemoryStore.ReadCoils`. -/
def readCoils (s : MemoryStore) (address : Address) (quantity : Quantity) :
    Except Err (List Bool) :=
  if quantity = 0 ∨ quantity > maxCoilCount then .error .invalidQuantity
  else .ok (readCells s.coils false address quantity)

/-- `MemoryStore.ReadDiscreteInputs`. -/
def readDiscreteInputs (s : MemoryStore) (address : Address) (quantity : Quantity) :
    Except Err (List Bool) :=
  if quantity = 0 ∨ quantity > maxCoilCount then .error .invalidQuantity
  else .ok (readCells s.discreteInputs false address quantity)

/-- `MemoryStore.ReadHoldingRegisters`. -/
def readHoldingRegisters (s : MemoryStore) (address : Address) (quantity : Quantity) :
    Except Err (List UInt16) :=
  if quantity = 0 ∨ quantity > maxRegisterCount then .error .invalidQuantity
  else .ok (readCells s.holdingRegisters 0 address quantity)

/-- `MemoryStore.ReadInputRegisters`. -/
def readInputRegisters (s : MemoryStore) (address : Address) (quantity : Quantity) :
    Except Err (List UInt16) :=
  if quantity = 0 ∨ quantity > maxRegisterCount then .error .invalidQuantity
  else .ok (readCells s.inputRegisters 0 address quantity)

/-- `MemoryStore.WriteSingleCoil`. -/
def writeSingleCoil (s : MemoryStore) (address : Address) (value : Bool) : MemoryStore :=
  { s with coils := Function.update s.coils address (some value) }

/-- `MemoryStore.WriteSingleRegister`. -/
def writeSingleRegister (s : MemoryStore) (address : Address) (value : UInt16) : MemoryStore :=
  { s with holdingRegisters := Function.update s.holdingRegisters address (some value) }

/-- `MemoryStore.WriteMultipleCoils`. -/
def writeMultipleCoils (s : MemoryStore) (address : Address) (values : List Bool) :
    Except Err Unit × MemoryStore :=
  if values.length = 0 ∨ values.length > maxWriteCoilCount.toNat then (.error .invalidQuantity, s)
  else (.ok (), { s with coils := writeCells s.coils address values })

/-- `MemoryStore.WriteMultipleRegisters`. -/
def writeMultipleRegisters (s : MemoryStore) (address : Address) (values : List UInt16) :
    Except Err Unit × MemoryStore :=
  if values.length = 0 ∨ values.length > maxWriteRegisterCount.toNat then
    (.error .invalidQuantity, s)
  else (.ok (), { s with holdingRegisters := writeCells s.holdingRegisters address values })

/-- What the memory store does for a call. -/
def perform : {β : Type} → StoreCall β → MemoryStore → β × MemoryStore
  | _, .readCoils address quantity, s => (s.readCoils address quantity, s)
  | _, .readDiscreteInputs address quantity, s => (s.readDiscreteInputs address quantity, s)
  | _, .readHoldingRegisters address quantity, s => (s.readHoldingRegisters address quantity, s)
  | _, .readInputRegisters address quantity, s => (s.readInputRegisters address quantity, s)
  | _, .writeSingleCoil address value, s => (.ok (), s.writeSingleCoil address value)
  | _, .writeSingleRegister address value, s => (.ok (), s.writeSingleRegister address value)
  | _, .writeMultipleCoils address values, s => s.writeMultipleCoils address values
  | _, .writeMultipleRegisters address values, s => s.writeMultipleRegisters address values

end MemoryStore

end GoIndustrial.Modbus
