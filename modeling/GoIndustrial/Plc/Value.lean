import Mathlib.Data.Nat.Notation

/-!
# Values and data points

The types of `plc/plc.go` that readers pass around. A data point is either one that the clustering
reader can merge or some other one, which it only hands on.

## Main definitions

* `Plc.DataPoint`, `Plc.Value`.
-/

namespace GoIndustrial.Plc

inductive DataType
  | unknown
  | bool
  | int16
  | uint16
  | int32
  | uint32
  | int64
  | uint64
  | float32
  | float64
  | string
  | bytes
  deriving DecidableEq, Repr

inductive ByteOrder
  | unspecified
  | bigEndian
  | littleEndian
  deriving DecidableEq, Repr

/-- A `plc.DataPoint`: one of the type `α`, whose points can be clustered, or another one. -/
inductive DataPoint (α : Type)
  | clusterable (point : α)
  | other (description : String)
  deriving DecidableEq, Repr

/-- The result of reading a data point. -/
structure Value (α : Type) where
  dataPoint : Option (DataPoint α)
  raw : List UInt8
  type : DataType
  byteOrder : ByteOrder
  deriving DecidableEq, Repr

/-- The zero value. -/
instance {α : Type} : Inhabited (Value α) := ⟨⟨none, [], .unknown, .unspecified⟩⟩

end GoIndustrial.Plc
