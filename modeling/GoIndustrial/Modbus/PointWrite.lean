import GoIndustrial.Modbus.DataPoint
import GoIndustrial.Modbus.Device

/-!
# Writing and reading a data point

`Client.Write`, `Client.readDataPoint` and `Client.Read` of `protocol/modbus/client.go`, over the
wire to a server with a memory store. A write of a point is told how many cells to write by the data
and not by the point: a write of registers writes all words of the data, however many the point has.
A write of one coil takes any byte but zero for on, while a write of several takes the bits.

Addresses are taken modulo `2^16` on both sides, so a point may run over the last address.

## Main definitions

* `Modbus.Client.write`, `Modbus.Client.read`.
* `Modbus.WriteStays` : a successful write of the point stays inside it and is read back.
* `Modbus.WriteFits` : the data that this holds for.

## Main results

* `Modbus.writesInside_iff` : when a write of consecutive cells stays in a range.
* `Modbus.readCells_writeCells` : what is read after it.
* `Modbus.writeStays_iff` : a write stays inside its point exactly when the data fits it.
-/

namespace GoIndustrial.Modbus

open BitPacking GoSlice Plc

/-! ### The methods of the client -/

/-- The errors of `Client.Read` and `Client.Write`. -/
inductive PointErr
  /-- The error of a client operation. -/
  | client (e : ClientErr)
  /-- `modbus write: data length %d is not a multiple of 2`. -/
  | oddLength (length : ℕ)
  /-- `modbus write: unsupported data point type %T`. -/
  | unsupportedWrite (point : DataPoint Point)
  /-- `modbus read: unsupported data point type %T`. -/
  | unsupportedRead (point : DataPoint Point)
  deriving DecidableEq, Repr

/-- A failure of a client operation as a failure of `Client.Read` or `Client.Write`. -/
def liftClient {α : Type} : Except (Fault ClientErr) α → Except (Fault PointErr) α
  | .ok a => .ok a
  | .error .panic => .error .panic
  | .error (.error e) => .error (.error (.client e))

/-- The value of registers that were read. -/
def registerValue (qty : Quantity) (regs : List UInt16) : Value Point where
  dataPoint := none
  raw := registersToBytes regs
  type := if 1 < qty then .bytes else .uint16
  byteOrder := .bigEndian

/-- The value of bits that were read. -/
def bitValue (vals : List Bool) : Value Point where
  dataPoint := none
  raw := boolsToBytes vals
  type := .bool
  byteOrder := .bigEndian

/-- The bits of a write of several coils; bits behind the end of the data are off. -/
def coilValues (qty : Quantity) (data : List UInt8) : Except (Fault PointErr) (List Bool) :=
  (List.range qty.toNat).mapM fun i =>
    if i / 8 < data.length then do
      let b ← index data (i / 8)
      return shiftTest b (i % 8)
    else return false

section Methods

variable {σ : Type} (unitID : UnitID) (transactionID : TransactionID)
  (exchange : Request → σ → Except (Fault ClientErr) Response × σ)

/-- A client operation on values that are computed first. -/
def withValues {α : Type} (values : Except (Fault PointErr) α)
    (op : α → σ → Except (Fault ClientErr) Unit × σ) (s : σ) : Except (Fault PointErr) Unit × σ :=
  match values with
  | .error e => (.error e, s)
  | .ok vs => (op vs s).map liftClient id

/-- The case of `Client.Write` for holding registers. -/
def Client.writeHoldingRegister (addr : Address) (qty : Quantity) (data : List UInt8) (s : σ) :
    Except (Fault PointErr) Unit × σ :=
  if qty = 1 ∧ data.length = 2 then
    withValues (uint16At data 0) (Client.writeSingleRegister unitID transactionID exchange addr) s
  else if data.length % 2 ≠ 0 then (.error (.error (.oddLength data.length)), s)
  else withValues (readWords data 0 (data.length / 2))
    (Client.writeMultipleRegisters unitID transactionID exchange addr) s

/-- The case of `Client.Write` for coils. -/
def Client.writeCoil (addr : Address) (qty : Quantity) (data : List UInt8) (s : σ) :
    Except (Fault PointErr) Unit × σ :=
  if qty = 1 ∧ 1 ≤ data.length then
    withValues ((index data 0).map (· != 0))
      (Client.writeSingleCoil unitID transactionID exchange addr) s
  else withValues (coilValues qty data)
    (Client.writeMultipleCoils unitID transactionID exchange addr) s

/-- `Client.Write`. -/
def Client.write (point : DataPoint Point) (data : List UInt8) (s : σ) :
    Except (Fault PointErr) Unit × σ :=
  match point with
  | .clusterable ⟨.holdingRegister, addr, qty⟩ =>
    Client.writeHoldingRegister unitID transactionID exchange addr qty data s
  | .clusterable ⟨.coil, addr, qty⟩ =>
    Client.writeCoil unitID transactionID exchange addr qty data s
  | .clusterable ⟨.inputRegister, _, _⟩ | .clusterable ⟨.discreteInput, _, _⟩ | .other _ =>
    (.error (.error (.unsupportedWrite point)), s)

/-- `Client.readDataPoint`. -/
def Client.readDataPoint (point : DataPoint Point) (s : σ) :
    Except (Fault PointErr) (Value Point) × σ :=
  match point with
  | .clusterable ⟨.holdingRegister, addr, qty⟩ =>
    (Client.readHoldingRegisters unitID transactionID exchange addr qty s).map
      (fun r => (liftClient r).map (registerValue qty)) id
  | .clusterable ⟨.inputRegister, addr, qty⟩ =>
    (Client.readInputRegisters unitID transactionID exchange addr qty s).map
      (fun r => (liftClient r).map (registerValue qty)) id
  | .clusterable ⟨.coil, addr, qty⟩ =>
    (Client.readCoils unitID transactionID exchange addr qty s).map
      (fun r => (liftClient r).map bitValue) id
  | .clusterable ⟨.discreteInput, addr, qty⟩ =>
    (Client.readDiscreteInputs unitID transactionID exchange addr qty s).map
      (fun r => (liftClient r).map bitValue) id
  | .other _ => (.error (.error (.unsupportedRead point)), s)

end Methods

/-- `Client.Read`; each point comes with the transaction ID that the pool gives its request. -/
def Client.read {σ : Type} (unitID : UnitID)
    (exchange : Request → σ → Except (Fault ClientErr) Response × σ) :
    List (TransactionID × DataPoint Point) → σ → Except (Fault PointErr) (List (Value Point)) × σ
  | [], s => (.ok [], s)
  | (t, dp) :: points, s =>
    match Client.readDataPoint unitID t exchange dp s with
    | (.error e, s) => (.error e, s)
    | (.ok val, s) =>
      (Client.read unitID exchange points s).map
        (fun r => r.map ({ val with dataPoint := some dp } :: ·)) id

/-! ### Consecutive cells -/

section Cells

variable {β : Type}

/-- The range of `q` cells from address `a` on has the cell `b`. -/
def InRange (a : Address) (q : Quantity) (b : Address) : Prop :=
  a.toNat ≤ b.toNat ∧ b.toNat < a.toNat + q.toNat

theorem add_ofNat_sub {a : Address} {i : ℕ} (hi : i < 65536) :
    (a + UInt16.ofNat i - a).toNat = i := by
  rw [UInt16.add_comm, UInt16.add_sub_cancel, UInt16.toNat_ofNat']
  omega

/-- A write of consecutive cells leaves the cells outside a range alone, whatever they hold, exactly
when it is no longer than the range and does not run over the last address. -/
theorem writesInside_iff [Nontrivial β] (zero : β) {a : Address} {q : Quantity} {vs : List β}
    (hlen : vs.length ≤ 65536) :
    (∀ (m : Address → Option β) (b : Address), ¬ InRange a q b →
        (writeCells m a vs b).getD zero = (m b).getD zero) ↔
      vs.length ≤ q.toNat ∧ a.toNat + vs.length ≤ 65536 := by
  constructor
  · intro h
    by_contra hnot
    have ha := a.toNat_lt
    have hq := q.toNat_lt
    -- The first cell behind the range, or cell 0 if the range reaches the last address.
    have hi : min q.toNat (65536 - a.toNat) < vs.length := by omega
    generalize hdef : min q.toNat (65536 - a.toNat) = i at hi
    have hnat : (a + UInt16.ofNat i).toNat = (a.toNat + i) % 65536 := by
      rw [UInt16.toNat_add, UInt16.toNat_ofNat']
      omega
    obtain ⟨w, hw⟩ := exists_ne (vs.get ⟨i, hi⟩)
    have hkeep := h (fun _ => some w) (a + UInt16.ofNat i) (by rw [InRange, hnat]; omega)
    rw [writeCells_apply _ _ _ hlen, add_ofNat_sub (by omega), List.getElem?_eq_getElem hi] at hkeep
    exact hw hkeep.symm
  · rintro ⟨hle, hlast⟩ m b hb
    rw [getD_writeCells m zero hlast, valueAt]
    split_ifs with hab
    · rw [List.getElem?_eq_none, Option.getD_none]
      have hout : ¬ b.toNat < a.toNat + q.toNat := fun hlt => hb ⟨hab, hlt⟩
      omega
    · rfl

/-- Cells that are read where they were written. -/
theorem readCells_writeCells (m : Address → Option β) (zero : β) (a : Address) (q : Quantity)
    {vs : List β} (hlen : vs.length ≤ 65536) :
    readCells (writeCells m a vs) zero a q =
      vs.take q.toNat ++ (readCells m zero a q).drop vs.length := by
  have hq := q.toNat_lt
  refine List.ext_getElem ?_ fun i h₁ h₂ => ?_
  · simp only [length_readCells, List.length_append, List.length_take, List.length_drop]
    omega
  · have hi : i < q.toNat := by rwa [length_readCells] at h₁
    have hcell : (readCells (writeCells m a vs) zero a q)[i] =
        (vs[i]?.or (m (a + UInt16.ofNat i))).getD zero := by
      simp only [readCells, List.getElem_map, List.getElem_range]
      rw [writeCells_apply _ _ _ hlen, add_ofNat_sub (by omega)]
    rw [hcell]
    by_cases hv : i < vs.length
    · rw [List.getElem_append_left (by rw [List.length_take]; omega), List.getElem_take,
        List.getElem?_eq_getElem hv]
      rfl
    · rw [List.getElem_append_right (by rw [List.length_take]; omega),
        List.getElem?_eq_none (Nat.not_lt.mp hv)]
      simp only [readCells, List.getElem_drop, List.getElem_map, List.getElem_range,
        List.length_take, Option.none_or]
      rw [show vs.length + (i - min q.toNat vs.length) = i by omega]

/-- Writing back what was read changes no cell. -/
theorem writeCells_readCells (m : Address → Option β) (zero : β) (a : Address) (q : Quantity)
    (b : Address) :
    (writeCells m a (readCells m zero a q) b).getD zero = (m b).getD zero := by
  have hq := q.toNat_lt
  rw [writeCells_apply _ _ _ (by rw [length_readCells]; omega)]
  by_cases hb : (b - a).toNat < q.toNat
  · rw [List.getElem?_eq_getElem (by rwa [length_readCells])]
    simp only [readCells, List.getElem_map, List.getElem_range, UInt16.ofNat_toNat, Option.some_or,
      Option.getD_some]
    rw [UInt16.add_comm, UInt16.sub_add_cancel]
  · rw [List.getElem?_eq_none (by rw [length_readCells]; omega), Option.none_or]

end Cells

/-! ### What a write does -/

/-- The bits that a write of a coil point writes: a single coil takes any byte but zero for on. -/
def coilBits (qty : Quantity) (data : List UInt8) : List Bool :=
  if qty = 1 ∧ 1 ≤ data.length then [data.getD 0 0 != 0]
  else (List.range qty.toNat).map (testBit data)

@[simp] theorem length_coilBits (qty : Quantity) (data : List UInt8) :
    (coilBits qty data).length = qty.toNat := by
  unfold coilBits
  split_ifs with h
  · rw [h.1]
    rfl
  · simp

theorem coilValues_eq (qty : Quantity) (data : List UInt8) :
    coilValues qty data = .ok ((List.range qty.toNat).map (testBit data)) := by
  refine mapM_ok fun i _ => ?_
  split_ifs with hi
  · rw [index_of_lt hi]
    exact congrArg Except.ok (shiftTest_eq_testBit data i)
  · rw [testBit, List.getD_eq_default _ _ (Nat.not_lt.mp hi)]
    simp [pure, Except.pure]

/-- The data that a write of the point does not refuse. -/
def Point.Writable (p : Point) (data : List UInt8) : Prop :=
  match p.area with
  | .holdingRegister => data.length % 2 = 0 ∧ data.length ≠ 0 ∧ data.length ≤ 246
  | .coil => p.qty ≠ 0 ∧ p.qty ≤ maxWriteCoilCount
  | .inputRegister | .discreteInput => False

/-- The store after a write of the point. -/
def Point.effect (p : Point) (data : List UInt8) (s : MemoryStore) : MemoryStore :=
  match p.area with
  | .holdingRegister =>
    { s with holdingRegisters := writeCells s.holdingRegisters p.addr (toWords data) }
  | .coil => { s with coils := writeCells s.coils p.addr (coilBits p.qty data) }
  | .inputRegister | .discreteInput => s

/-- An operation whose request cannot be generated. -/
theorem operation_of_error {σ α : Type} {unitID : UnitID} {transactionID : TransactionID}
    {exchange : Request → σ → Except (Fault ClientErr) Response × σ} {functionCode : FunctionCode}
    {generated : Except (Fault Err) (List UInt8)} {parse : List UInt8 → Except (Fault Err) α}
    {e : Err} (h : generated = .error (.error e)) (s : σ) :
    operation unitID transactionID exchange functionCode generated parse s =
      (.error (.error (.err e)), s) := by
  subst h
  rfl

theorem withValues_ok {σ α : Type} {values : Except (Fault PointErr) α} {vs : α}
    {op : α → σ → Except (Fault ClientErr) Unit × σ} {s s' : σ} (hvs : values = .ok vs)
    (hop : op vs s = (.ok (), s')) : withValues values op s = (.ok (), s') := by
  subst hvs
  rw [withValues, hop]
  rfl

theorem withValues_error {σ α : Type} {values : Except (Fault PointErr) α} {vs : α}
    {op : α → σ → Except (Fault ClientErr) Unit × σ} {s : σ} {e : ClientErr}
    (hvs : values = .ok vs) (hop : op vs s = (.error (.error e), s)) :
    withValues values op s = (.error (.error (.client e)), s) := by
  subst hvs
  rw [withValues, hop]
  rfl

section Write

variable (unitID : UnitID) (transactionID : TransactionID) (s : MemoryStore) (addr : Address)
  (qty : Quantity) {data : List UInt8}

private theorem words_of_even (h : data.length % 2 = 0) :
    readWords (ε := PointErr) data 0 (data.length / 2) = .ok (toWords data) :=
  readWords_eq [] data _ (by omega)

theorem writeHoldingRegister_of_writable (h : (Point.holdingRegister addr qty).Writable data) :
    Client.writeHoldingRegister unitID transactionID overWire addr qty data s =
      (.ok (), (Point.holdingRegister addr qty).effect data s) := by
  obtain ⟨heven, h0, hmax⟩ := h
  have hwords := length_toWords data
  rw [Client.writeHoldingRegister]
  by_cases hone : qty = 1 ∧ data.length = 2
  · rw [if_pos hone]
    -- The fast path writes the one word of the data.
    match data, hone.2 with
    | [hi, lo], _ =>
      refine withValues_ok rfl ?_
      exact operation_write unitID transactionID s (c := .writeSingleRegister addr (uint16 hi lo))
        trivial (putTwoWords addr _) rfl
  · have hcount : (toWords data).length ≠ 0 ∧
        (toWords data).length ≤ maxWriteRegisterCount.toNat := by
      change _ ∧ _ ≤ 123
      omega
    rw [if_neg hone, if_neg (not_not.mpr heven)]
    refine withValues_ok (words_of_even heven) ?_
    exact operation_write unitID transactionID s
      (c := .writeMultipleRegisters addr (toWords data)) hcount
      (generateWriteMultipleRegistersRequest_ok hcount.1 hcount.2) rfl

theorem writeHoldingRegister_refused (h : ¬ (Point.holdingRegister addr qty).Writable data) :
    ∃ e, Client.writeHoldingRegister unitID transactionID overWire addr qty data s =
      (.error e, s) := by
  have hnot : ¬ (data.length % 2 = 0 ∧ data.length ≠ 0 ∧ data.length ≤ 246) := h
  have hwords := length_toWords data
  rw [Client.writeHoldingRegister, if_neg (by omega)]
  split_ifs with heven
  · exact ⟨_, rfl⟩
  · refine ⟨_, withValues_error (words_of_even (not_not.mp heven))
      (operation_of_error (e := .invalidQuantity) (if_pos ?_) s)⟩
    change _ ∨ _ > 123
    omega

theorem writeCoil_of_writable (h : (Point.coil addr qty).Writable data) :
    Client.writeCoil unitID transactionID overWire addr qty data s =
      (.ok (), (Point.coil addr qty).effect data s) := by
  obtain ⟨h0, hmax⟩ : qty ≠ 0 ∧ qty ≤ maxWriteCoilCount := h
  have hmax' : qty.toNat ≤ 1968 := UInt16.le_iff_toNat_le.mp hmax
  have h0' : qty.toNat ≠ 0 := fun h => h0 (UInt16.toNat_inj.mp h)
  rw [Client.writeCoil, Point.effect, Point.coil]
  dsimp only
  rw [coilBits]
  split_ifs with hone
  · have hindex : (index (ε := PointErr) data 0).map (· != 0) = .ok (data.getD 0 0 != 0) := by
      rw [index_of_lt hone.2]
      rfl
    exact withValues_ok hindex (operation_writeSingleCoil unitID transactionID s addr _)
  · refine withValues_ok (coilValues_eq qty data) ?_
    generalize hvs : (List.range qty.toNat).map (testBit data) = vs
    have hlen : vs.length = qty.toNat := by simp [← hvs]
    have hqty : UInt16.ofNat vs.length = qty := by rw [hlen, UInt16.ofNat_toNat]
    have hgen : generateWriteMultipleCoilsRequest addr vs = _ :=
      generateWriteMultipleCoilsRequest_ok (by omega) (show vs.length ≤ 1968 by omega)
    rw [← length_packBits, hqty] at hgen
    have hop := operation_write unitID transactionID s
      (c := .writeMultipleCoils addr qty (packBits vs))
      ⟨h0, hmax, by rw [length_packBits, hlen]⟩ hgen rfl
    rw [Command.effect, ← hlen, map_testBit_packBits] at hop
    exact hop

theorem writeCoil_refused (h : ¬ (Point.coil addr qty).Writable data) :
    ∃ e, Client.writeCoil unitID transactionID overWire addr qty data s = (.error e, s) := by
  have hnot : ¬ (qty ≠ 0 ∧ qty ≤ maxWriteCoilCount) := h
  have hone : ¬ (qty = 1 ∧ 1 ≤ data.length) := by
    rintro ⟨rfl, -⟩
    exact hnot (by decide)
  rw [Client.writeCoil, if_neg hone]
  refine ⟨_, withValues_error (coilValues_eq qty data) (operation_of_error (if_pos ?_) s)⟩
  rw [List.length_map, List.length_range]
  by_cases h0 : qty = 0
  · exact .inl (congrArg UInt16.toNat h0)
  · refine .inr (UInt16.lt_iff_toNat_lt.mp (UInt16.not_le.mp fun hle => hnot ⟨h0, hle⟩))

/-- **A write of a point**: it takes effect, or it is refused and changes nothing. -/
theorem write_eq (p : Point) (data : List UInt8) :
    p.Writable data ∧ Client.write unitID transactionID overWire (.clusterable p) data s =
        (.ok (), p.effect data s) ∨
      ¬ p.Writable data ∧ ∃ e,
        Client.write unitID transactionID overWire (.clusterable p) data s = (.error e, s) := by
  obtain ⟨area, addr, qty⟩ := p
  by_cases h : (Point.mk area addr qty).Writable data
  · refine .inl ⟨h, ?_⟩
    cases area with
    | coil => exact writeCoil_of_writable unitID transactionID s addr qty h
    | holdingRegister => exact writeHoldingRegister_of_writable unitID transactionID s addr qty h
    | discreteInput => exact h.elim
    | inputRegister => exact h.elim
  · refine .inr ⟨h, ?_⟩
    cases area with
    | coil => exact writeCoil_refused unitID transactionID s addr qty h
    | holdingRegister => exact writeHoldingRegister_refused unitID transactionID s addr qty h
    | discreteInput => exact ⟨_, rfl⟩
    | inputRegister => exact ⟨_, rfl⟩

end Write

/-! ### What a read returns -/

/-- The bytes of a point on a device. -/
def Device.raw (d : Device) (p : Point) : List UInt8 :=
  match p.area with
  | .coil => boolsToBytes (cells d.coils p.addr p.qty)
  | .discreteInput => boolsToBytes (cells d.discreteInputs p.addr p.qty)
  | .holdingRegister => registersToBytes (cells d.holdingRegisters p.addr p.qty)
  | .inputRegister => registersToBytes (cells d.inputRegisters p.addr p.qty)

/-- The quantities that a read of the point accepts. -/
def Point.Readable (p : Point) : Prop :=
  p.qty ≠ 0 ∧ p.qty ≤ if p.area.isBits then maxCoilCount else maxRegisterCount

section Read

variable (unitID : UnitID) (transactionID : TransactionID) (s : MemoryStore) {p : Point}

/-- **A read of a point** that is accepted returns its bytes and changes nothing. -/
theorem readDataPoint_of_readable (h : p.Readable) :
    ∃ val, val.raw = s.device.raw p ∧
      Client.readDataPoint unitID transactionID overWire (.clusterable p) s = (.ok val, s) := by
  obtain ⟨area, addr, qty⟩ := p
  cases area with
  | coil =>
    have hop := operation_bits unitID transactionID s (c := .readCoils addr qty) h
      (generateReadRequest_ok h.1 h.2) rfl (length_readCells s.coils false addr qty) h.2
    rw [readCells_eq_cells] at hop
    exact ⟨_, rfl, congrArg (Prod.map (fun r => (liftClient r).map bitValue) id) hop⟩
  | discreteInput =>
    have hop := operation_bits unitID transactionID s (c := .readDiscreteInputs addr qty) h
      (generateReadRequest_ok h.1 h.2) rfl (length_readCells s.discreteInputs false addr qty) h.2
    rw [readCells_eq_cells] at hop
    exact ⟨_, rfl, congrArg (Prod.map (fun r => (liftClient r).map bitValue) id) hop⟩
  | holdingRegister =>
    have hop := operation_registers unitID transactionID s (c := .readHoldingRegisters addr qty) h
      (generateReadRequest_ok h.1 h.2) rfl (length_readCells s.holdingRegisters 0 addr qty) h.2
    rw [readCells_eq_cells] at hop
    exact ⟨_, rfl, congrArg (Prod.map (fun r => (liftClient r).map (registerValue qty)) id) hop⟩
  | inputRegister =>
    have hop := operation_registers unitID transactionID s (c := .readInputRegisters addr qty) h
      (generateReadRequest_ok h.1 h.2) rfl (length_readCells s.inputRegisters 0 addr qty) h.2
    rw [readCells_eq_cells] at hop
    exact ⟨_, rfl, congrArg (Prod.map (fun r => (liftClient r).map (registerValue qty)) id) hop⟩

theorem readDataPoint_refused (h : ¬ p.Readable) :
    ∃ e, Client.readDataPoint unitID transactionID overWire (.clusterable p) s = (.error e, s) := by
  obtain ⟨area, addr, qty⟩ := p
  have hgen {max : Quantity} (hnot : ¬ (qty ≠ 0 ∧ qty ≤ max)) :
      generateReadRequest addr qty max = .error (.error .invalidQuantity) := by
    refine if_pos (or_iff_not_imp_left.mpr fun h0 => ?_)
    exact UInt16.not_le.mp fun hle => hnot ⟨h0, hle⟩
  refine ⟨.error (.client (.err .invalidQuantity)), ?_⟩
  cases area with
  | coil =>
    have hop : Client.readCoils unitID transactionID overWire addr qty s = _ :=
      operation_of_error (hgen h) s
    exact congrArg (Prod.map (fun r => (liftClient r).map bitValue) id) hop
  | discreteInput =>
    have hop : Client.readDiscreteInputs unitID transactionID overWire addr qty s = _ :=
      operation_of_error (hgen h) s
    exact congrArg (Prod.map (fun r => (liftClient r).map bitValue) id) hop
  | holdingRegister =>
    have hop : Client.readHoldingRegisters unitID transactionID overWire addr qty s = _ :=
      operation_of_error (hgen h) s
    exact congrArg (Prod.map (fun r => (liftClient r).map (registerValue qty)) id) hop
  | inputRegister =>
    have hop : Client.readInputRegisters unitID transactionID overWire addr qty s = _ :=
      operation_of_error (hgen h) s
    exact congrArg (Prod.map (fun r => (liftClient r).map (registerValue qty)) id) hop

/-- What `Client.Read` of one point returns. -/
theorem read_singleton_iff {raw : List UInt8} :
    (∃ val, (Client.read unitID overWire [(transactionID, .clusterable p)] s).1 = .ok [val] ∧
      val.raw = raw) ↔ p.Readable ∧ raw = s.device.raw p := by
  by_cases h : p.Readable
  · obtain ⟨val, hraw, hread⟩ := readDataPoint_of_readable unitID transactionID s h
    have hlist : (Client.read unitID overWire [(transactionID, .clusterable p)] s).1 =
        .ok [{ val with dataPoint := some (.clusterable p) }] := by
      simp only [Client.read, hread]
      rfl
    simp [hlist, h, ← hraw, eq_comm]
  · obtain ⟨e, hread⟩ := readDataPoint_refused unitID transactionID s h
    have hlist :
        (Client.read unitID overWire [(transactionID, .clusterable p)] s).1 = .error e := by
      simp only [Client.read, hread]
    simp [hlist, h]

end Read

/-! ### The law -/

/-- The bytes that a read of the point returns after `data` was written to it on the device `d`: for
coils the bits of the data in packed form, those behind its end being off; for registers the data,
with what it does not reach unchanged behind it. -/
def Point.readBack (p : Point) (data : List UInt8) (d : Device) : List UInt8 :=
  match p.area with
  | .coil | .discreteInput => packBits ((List.range p.qty.toNat).map (testBit data))
  | .holdingRegister | .inputRegister => data ++ (d.raw p).drop data.length

/-- The point has the cell `b` of the area `area`. -/
def Point.Has (p : Point) (area : Area) (b : Address) : Prop :=
  p.area = area ∧ InRange p.addr p.qty b

/-- The devices differ inside the point only. -/
structure Point.Frames (p : Point) (d d' : Device) : Prop where
  coils : ∀ b, ¬ p.Has .coil b → d'.coils b = d.coils b
  discreteInputs : d'.discreteInputs = d.discreteInputs
  holdingRegisters : ∀ b, ¬ p.Has .holdingRegister b → d'.holdingRegisters b = d.holdingRegisters b
  inputRegisters : d'.inputRegisters = d.inputRegisters

/-- On every memory, a successful write of `data` to the point changes the point only, and a read of
the point after it returns what was written. -/
def WriteStays (p : Point) (data : List UInt8) : Prop :=
  ∀ unitID transactionID transactionID' s s',
    Client.write unitID transactionID overWire (.clusterable p) data s = (.ok (), s') →
    p.Frames s.device s'.device ∧
      ∃ val, (Client.read unitID overWire [(transactionID', .clusterable p)] s').1 = .ok [val] ∧
        val.raw = p.readBack data s.device

/-- The data is refused, or it fits the point. Registers: no more words than the point has, in a
range before the last address, and few enough for a read. Coils: a range before the last address;
for a single coil the first byte is zero or odd. -/
def WriteFits (p : Point) (data : List UInt8) : Prop :=
  p.Writable data →
    match p.area with
    | .holdingRegister => data.length ≤ 2 * p.qty.toNat ∧
        p.addr.toNat + data.length / 2 ≤ 65536 ∧ p.qty ≤ maxRegisterCount
    | .coil => p.addr.toNat + p.qty.toNat ≤ 65536 ∧
        (p.qty = 1 → data ≠ [] → data.getD 0 0 = 0 ∨ (data.getD 0 0).toNat % 2 = 1)
    | .inputRegister | .discreteInput => True

/-- The law in terms of the store: a write that is not refused has one effect. -/
theorem writeStays_iff_effect {p : Point} {data : List UInt8} :
    WriteStays p data ↔ (p.Writable data → ∀ s, p.Frames s.device (p.effect data s).device ∧
      p.Readable ∧ p.readBack data s.device = (p.effect data s).device.raw p) := by
  constructor
  · intro h hw s
    obtain ⟨-, hwrite⟩ | ⟨hnot, -⟩ := write_eq 0 0 s p data
    · obtain ⟨hframe, hread⟩ := h 0 0 0 s _ hwrite
      exact ⟨hframe, (read_singleton_iff 0 0 _).mp hread⟩
    · exact absurd hw hnot
  · intro h unitID t t' s s' hwrite
    obtain ⟨hw, heq⟩ | ⟨-, e, heq⟩ := write_eq unitID t s p data
    · obtain ⟨-, rfl⟩ := Prod.mk.inj (heq.symm.trans hwrite)
      obtain ⟨hframe, hread⟩ := h hw s
      exact ⟨hframe, (read_singleton_iff unitID t' _).mpr hread⟩
    · cases heq.symm.trans hwrite

section Registers

variable {addr : Address} {qty : Quantity} {data : List UInt8}

theorem raw_effect_holdingRegister (s : MemoryStore) (heven : data.length % 2 = 0)
    (hle : data.length ≤ 2 * qty.toNat) :
    ((Point.holdingRegister addr qty).effect data s).device.raw (.holdingRegister addr qty) =
      (Point.holdingRegister addr qty).readBack data s.device := by
  have hlen := length_toWords data
  have hq := qty.toNat_lt
  have hread := readCells_writeCells s.holdingRegisters 0 addr qty
    (show (toWords data).length ≤ 65536 by omega)
  rw [List.take_of_length_le (by omega), readCells_eq_cells, readCells_eq_cells] at hread
  calc ((Point.holdingRegister addr qty).effect data s).device.raw (.holdingRegister addr qty)
      = ofWords (toWords data ++ (cells s.device.holdingRegisters addr qty).drop
          (toWords data).length) := congrArg ofWords hread
    _ = ofWords (toWords data) ++ ofWords ((cells s.device.holdingRegisters addr qty).drop
          (toWords data).length) := List.flatMap_append
    _ = data ++ (ofWords (cells s.device.holdingRegisters addr qty)).drop data.length := by
        rw [ofWords_toWords heven, ← drop_ofWords, hlen, Nat.mul_div_cancel' (by omega)]

theorem frames_holdingRegister_iff (hlen : (toWords data).length ≤ 65536) :
    (∀ s : MemoryStore, (Point.holdingRegister addr qty).Frames s.device
        ((Point.holdingRegister addr qty).effect data s).device) ↔
      (toWords data).length ≤ qty.toNat ∧ addr.toNat + (toWords data).length ≤ 65536 := by
  have hnontrivial : Nontrivial UInt16 := ⟨0, 1, by decide⟩
  rw [← writesInside_iff (0 : UInt16) hlen]
  constructor
  · intro h m b hb
    exact (h { newMemoryStore with holdingRegisters := m }).holdingRegisters b fun hhas => hb hhas.2
  · intro h s
    exact ⟨fun _ _ => rfl, rfl, fun b hb => h s.holdingRegisters b fun hin => hb ⟨rfl, hin⟩, rfl⟩

theorem writeStays_holdingRegister_iff :
    WriteStays (.holdingRegister addr qty) data ↔ WriteFits (.holdingRegister addr qty) data := by
  rw [writeStays_iff_effect, WriteFits]
  refine imp_congr_right fun ⟨heven, h0, hmax⟩ => ?_
  have hlen := length_toWords data
  constructor
  · intro h
    obtain ⟨hle, hlast⟩ := (frames_holdingRegister_iff (by omega)).mp fun s => (h s).1
    have hread := (h newMemoryStore).2.1.2
    exact ⟨by rw [hlen] at hle; change _ ≤ 2 * qty.toNat; omega, by rwa [hlen] at hlast, hread⟩
  · rintro ⟨hle, hlast, hread⟩ s
    have hframes : (toWords data).length ≤ qty.toNat ∧
        addr.toNat + (toWords data).length ≤ 65536 := by
      rw [hlen]
      exact ⟨by change _ ≤ 2 * qty.toNat at hle; omega, hlast⟩
    have hpos : qty ≠ 0 := by
      rintro rfl
      exact h0 (Nat.le_zero.mp hle)
    exact ⟨(frames_holdingRegister_iff (by omega)).mpr hframes s, ⟨hpos, hread⟩,
      (raw_effect_holdingRegister s heven hle).symm⟩

end Registers

section Coils

variable {addr : Address} {qty : Quantity} {data : List UInt8}

theorem raw_effect_coil (s : MemoryStore) :
    ((Point.coil addr qty).effect data s).device.raw (.coil addr qty) =
      packBits (coilBits qty data) := by
  have hq := qty.toNat_lt
  have hlen := length_coilBits qty data
  have hread := readCells_writeCells s.coils false addr qty
    (show (coilBits qty data).length ≤ 65536 by omega)
  rw [← hlen, List.take_length, hlen, List.drop_of_length_le (by rw [length_readCells]),
    List.append_nil, readCells_eq_cells] at hread
  exact congrArg packBits hread

theorem frames_coil_iff :
    (∀ s : MemoryStore, (Point.coil addr qty).Frames s.device
        ((Point.coil addr qty).effect data s).device) ↔ addr.toNat + qty.toNat ≤ 65536 := by
  have hq := qty.toNat_lt
  have hlen := length_coilBits qty data
  have hinside := writesInside_iff false (a := addr) (q := qty)
    (show (coilBits qty data).length ≤ 65536 by omega)
  rw [hlen, and_iff_right (Nat.le_refl _)] at hinside
  rw [← hinside]
  constructor
  · intro h m b hb
    exact (h { newMemoryStore with coils := m }).coils b fun hhas => hb hhas.2
  · intro h s
    exact ⟨fun b hb => h s.coils b fun hin => hb ⟨rfl, hin⟩, rfl, fun _ _ => rfl, rfl⟩

theorem packBits_inj {vs ws : List Bool} (hlen : vs.length = ws.length) :
    packBits vs = packBits ws ↔ vs = ws := by
  refine ⟨fun h => ?_, congrArg packBits⟩
  rw [← map_testBit_packBits vs, ← map_testBit_packBits ws, h, hlen]

/-- The first bit of the data is on exactly when its first byte is not zero. -/
theorem testBit_zero_eq_iff :
    testBit data 0 = (data.getD 0 0 != 0) ↔
      data.getD 0 0 = 0 ∨ (data.getD 0 0).toNat % 2 = 1 := by
  have hbit : testBit data 0 = decide ((data.getD 0 0).toNat % 2 = 1) := Nat.testBit_zero _
  rw [hbit]
  generalize data.getD 0 0 = b
  by_cases h0 : b = 0
  · simp [h0]
  · rw [bne_iff_ne.mpr h0, decide_eq_true_eq]
    exact (or_iff_right h0).symm

theorem coilBits_eq_iff :
    (List.range qty.toNat).map (testBit data) = coilBits qty data ↔
      (qty = 1 → data ≠ [] → data.getD 0 0 = 0 ∨ (data.getD 0 0).toNat % 2 = 1) := by
  rw [coilBits]
  split_ifs with hone
  · obtain ⟨rfl, hpos⟩ := hone
    have hbits : (List.range (1 : UInt16).toNat).map (testBit data) = [testBit data 0] := rfl
    rw [hbits, List.cons.injEq, and_iff_left rfl, testBit_zero_eq_iff]
    exact ⟨fun h _ _ => h, fun h => h rfl (List.ne_nil_of_length_pos hpos)⟩
  · refine iff_of_true rfl fun hq hne => absurd ⟨hq, ?_⟩ hone
    exact List.length_pos_of_ne_nil hne

theorem writeStays_coil_iff :
    WriteStays (.coil addr qty) data ↔ WriteFits (.coil addr qty) data := by
  rw [writeStays_iff_effect, WriteFits]
  refine imp_congr_right fun ⟨h0, hmax⟩ => ?_
  have hraw (s : MemoryStore) : (Point.coil addr qty).readBack data s.device =
        ((Point.coil addr qty).effect data s).device.raw (.coil addr qty) ↔
      (qty = 1 → data ≠ [] → data.getD 0 0 = 0 ∨ (data.getD 0 0).toNat % 2 = 1) := by
    rw [raw_effect_coil, ← coilBits_eq_iff]
    exact packBits_inj (by simp [Point.coil])
  constructor
  · intro h
    exact ⟨frames_coil_iff.mp fun s => (h s).1, (hraw newMemoryStore).mp (h newMemoryStore).2.2⟩
  · rintro ⟨hlast, hbits⟩ s
    have hread : qty ≤ maxCoilCount := UInt16.le_trans hmax (by decide)
    exact ⟨frames_coil_iff.mpr hlast s, ⟨h0, hread⟩, (hraw s).mpr hbits⟩

theorem coilBits_packBits {vs : List Bool} (hlen : vs.length = qty.toNat) :
    coilBits qty (packBits vs) = vs := by
  rw [coilBits]
  split_ifs with hone
  · obtain ⟨rfl, -⟩ := hone
    obtain ⟨v, rfl⟩ := List.length_eq_one_iff.mp hlen
    cases v <;> rfl
  · rw [← hlen, map_testBit_packBits]

end Coils

/-- Writing back the bytes of the point leaves the device as it is. -/
theorem device_effect_raw (p : Point) (s : MemoryStore) :
    (p.effect (s.device.raw p) s).device = s.device := by
  obtain ⟨area, addr, qty⟩ := p
  cases area with
  | coil =>
    have hvs : coilBits qty (s.device.raw (.coil addr qty)) = readCells s.coils false addr qty := by
      rw [readCells_eq_cells]
      exact coilBits_packBits (by simp [cells, Point.coil])
    refine congrArg (Device.mk · _ _ _) (funext fun b => ?_)
    rw [← writeCells_readCells s.coils false addr qty b, ← hvs]
    rfl
  | discreteInput => rfl
  | holdingRegister =>
    have hvs : toWords (s.device.raw (.holdingRegister addr qty)) =
        readCells s.holdingRegisters 0 addr qty := by
      rw [readCells_eq_cells]
      exact toWords_ofWords _
    refine congrArg (Device.mk _ _ · _) (funext fun b => ?_)
    rw [← writeCells_readCells s.holdingRegisters 0 addr qty b, ← hvs]
    rfl
  | inputRegister => rfl

/-- **A write stays inside its point exactly when the data fits it**: then it changes no other cell
of the device, and a read of the point returns what was written. Writing back the bytes just read
leaves the device unchanged, whatever the point. -/
theorem writeStays_iff (p : Point) (data : List UInt8) :
    (WriteStays p data ↔ WriteFits p data) ∧
    ∀ unitID transactionID transactionID' s val,
      (Client.read unitID overWire [(transactionID, .clusterable p)] s).1 = .ok [val] →
      (Client.write unitID transactionID' overWire (.clusterable p) val.raw s).2.device =
        s.device := by
  constructor
  · obtain ⟨area, addr, qty⟩ := p
    cases area with
    | coil => exact writeStays_coil_iff
    | holdingRegister => exact writeStays_holdingRegister_iff
    | discreteInput | inputRegister =>
      rw [writeStays_iff_effect]
      exact iff_of_true (fun h => h.elim) fun h => h.elim
  · intro unitID t t' s val hval
    obtain ⟨-, hraw⟩ := (read_singleton_iff unitID t s).mp ⟨val, hval, rfl⟩
    obtain ⟨-, hwrite⟩ | ⟨-, e, hwrite⟩ := write_eq unitID t' s p val.raw
    · rw [hwrite, hraw]
      exact device_effect_raw p s
    · rw [hwrite]

/-- Four bytes written to the one register at address 10: the write succeeds and changes register
11. -/
theorem not_writeStays_two_words :
    (∃ s', Client.write 9 1 overWire (.clusterable (.holdingRegister 10 1)) [0, 7, 0, 8]
        newMemoryStore = (.ok (), s') ∧ s'.device.holdingRegisters 11 = 8) ∧
      newMemoryStore.device.holdingRegisters 11 = 0 ∧
      ¬ WriteStays (.holdingRegister 10 1) [0, 7, 0, 8] := by
  have hwritable : (Point.holdingRegister 10 1).Writable [0, 7, 0, 8] :=
    ⟨by decide, by decide, by decide⟩
  have hwrite : Client.write 9 1 overWire (.clusterable (.holdingRegister 10 1)) [0, 7, 0, 8]
      newMemoryStore =
      (.ok (), (Point.holdingRegister 10 1).effect [0, 7, 0, 8] newMemoryStore) :=
    writeHoldingRegister_of_writable 9 1 newMemoryStore 10 1 hwritable
  have hcell : ((Point.holdingRegister 10 1).effect [0, 7, 0, 8]
      newMemoryStore).device.holdingRegisters 11 = 8 := by decide
  refine ⟨⟨_, hwrite, hcell⟩, rfl, fun h => ?_⟩
  have hkeep := (h 9 1 1 _ _ hwrite).1.holdingRegisters 11 fun hhas =>
    absurd hhas.2.2 (by decide)
  rw [hcell] at hkeep
  exact absurd hkeep (by decide)

end GoIndustrial.Modbus
