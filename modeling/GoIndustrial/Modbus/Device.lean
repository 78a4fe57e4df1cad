import GoIndustrial.Modbus.Protocol
import GoIndustrial.Modbus.ReadLoop
import GoIndustrial.Modbus.ServerLoop

/-!
# The Modbus device behind client and server

What a Modbus device is for: four independent arrays of cells, coils and discrete inputs of one bit,
holding and input registers of 16 bits, that operations read and write by ranges of addresses
(`Device`, `Device.apply`). This file connects that description with the code: a client operation
generates its request, the request travels as a frame through the server's connection loop to the
handlers on the memory store, the response travels back through the client's read loop and is parsed
(`Client.perform` over `overWire`).

Requests are first treated as they stand on the wire (`Command`), where a write of coils carries
packed bits with arbitrary padding and ranges may run over the last address.

## Main definitions

* `Modbus.Device`, `Modbus.Op`, `Modbus.Device.apply` : the device and its operations.
* `Modbus.overWire`, `Modbus.Client.perform` : one exchange and one client operation.
* `Modbus.Command` : the requests that access ranges of cells.

## Main results

* `Modbus.dispatchOn_command` : what the server does for a command, in or out of range.
* `Modbus.run_refines_device` : sequences of client operations have the results of the device.
* `Modbus.not_refused_of_outOfRange` : a range that runs over the last address is never refused.
-/

namespace GoIndustrial.Modbus

open BitPacking GoSlice TimedStream

/-! ### Commands on the wire -/

/-- A request that accesses cells, by its fields. The bits of a write of coils are packed. -/
inductive Command
  | readCoils (address : Address) (quantity : Quantity)
  | readDiscreteInputs (address : Address) (quantity : Quantity)
  | readHoldingRegisters (address : Address) (quantity : Quantity)
  | readInputRegisters (address : Address) (quantity : Quantity)
  | writeSingleCoil (address : Address) (value : Bool)
  | writeSingleRegister (address : Address) (value : UInt16)
  | writeMultipleCoils (address : Address) (quantity : Quantity) (packed : List UInt8)
  | writeMultipleRegisters (address : Address) (values : List UInt16)
  | readWriteMultipleRegisters (readAddress : Address) (readQuantity : Quantity)
      (writeAddress : Address) (values : List UInt16)
  deriving DecidableEq, Repr

namespace Command

def functionCode : Command → FunctionCode
  | readCoils _ _ => funcReadCoils
  | readDiscreteInputs _ _ => funcReadDiscreteInputs
  | readHoldingRegisters _ _ => funcReadHoldingRegisters
  | readInputRegisters _ _ => funcReadInputRegisters
  | writeSingleCoil _ _ => funcWriteSingleCoil
  | writeSingleRegister _ _ => funcWriteSingleRegister
  | writeMultipleCoils _ _ _ => funcWriteMultipleCoils
  | writeMultipleRegisters _ _ => funcWriteMultipleRegisters
  | readWriteMultipleRegisters _ _ _ _ => funcReadWriteMultipleRegisters

/-- The data of the request. -/
def data : Command → List UInt8
  | readCoils a q | readDiscreteInputs a q | readHoldingRegisters a q | readInputRegisters a q =>
    putUint16 a ++ putUint16 q
  | writeSingleCoil a v => putUint16 a ++ putUint16 (if v then coilOnU16 else coilOffU16)
  | writeSingleRegister a v => putUint16 a ++ putUint16 v
  | writeMultipleCoils a q packed => writeHeader a q (UInt8.ofNat packed.length) ++ packed
  | writeMultipleRegisters a vs =>
    writeHeader a (UInt16.ofNat vs.length) (UInt8.ofNat (vs.length * 2)) ++ ofWords vs
  | readWriteMultipleRegisters ra rq wa vs =>
    putUint16 ra ++ (putUint16 rq ++
      writeHeader wa (UInt16.ofNat vs.length) (UInt8.ofNat (vs.length * 2))) ++ ofWords vs

/-- The quantities are legal, and the values have the length that the quantity asks for. -/
def LegalQuantity : Command → Prop
  | readCoils _ q | readDiscreteInputs _ q => q ≠ 0 ∧ q ≤ maxCoilCount
  | readHoldingRegisters _ q | readInputRegisters _ q => q ≠ 0 ∧ q ≤ maxRegisterCount
  | writeSingleCoil _ _ | writeSingleRegister _ _ => True
  | writeMultipleCoils _ q packed =>
    q ≠ 0 ∧ q ≤ maxWriteCoilCount ∧ packed.length = byteCount q.toNat
  | writeMultipleRegisters _ vs => vs.length ≠ 0 ∧ vs.length ≤ maxWriteRegisterCount.toNat
  | readWriteMultipleRegisters _ rq _ vs =>
    (rq ≠ 0 ∧ rq ≤ maxReadWriteReadCount) ∧
      vs.length ≠ 0 ∧ vs.length ≤ maxReadWriteWriteCount.toNat

instance : DecidablePred LegalQuantity
  | readCoils _ _ | readDiscreteInputs _ _ | readHoldingRegisters _ _ | readInputRegisters _ _
  | writeMultipleRegisters _ _ => inferInstanceAs (Decidable (_ ∧ _))
  | writeSingleCoil _ _ | writeSingleRegister _ _ => inferInstanceAs (Decidable True)
  | writeMultipleCoils _ _ _ => inferInstanceAs (Decidable (_ ∧ _ ∧ _))
  | readWriteMultipleRegisters _ _ _ _ => inferInstanceAs (Decidable ((_ ∧ _) ∧ _ ∧ _))

/-- A range of the command ends behind the last address. -/
def OutOfRange : Command → Prop
  | readCoils a q | readDiscreteInputs a q | readHoldingRegisters a q | readInputRegisters a q =>
    65536 < a.toNat + q.toNat
  | writeSingleCoil a _ | writeSingleRegister a _ => 65536 < a.toNat + 1
  | writeMultipleCoils a q _ => 65536 < a.toNat + q.toNat
  | writeMultipleRegisters a vs => 65536 < a.toNat + vs.length
  | readWriteMultipleRegisters ra rq wa vs =>
    65536 < ra.toNat + rq.toNat ∨ 65536 < wa.toNat + vs.length

instance : DecidablePred OutOfRange
  | readCoils _ _ | readDiscreteInputs _ _ | readHoldingRegisters _ _ | readInputRegisters _ _
  | writeSingleCoil _ _ | writeSingleRegister _ _ | writeMultipleCoils _ _ _
  | writeMultipleRegisters _ _ => inferInstanceAs (Decidable (_ < _))
  | readWriteMultipleRegisters _ _ _ _ => inferInstanceAs (Decidable (_ < _ ∨ _ < _))

/-- The store after the command. -/
def effect (s : MemoryStore) : Command → MemoryStore
  | writeSingleCoil a v => s.writeSingleCoil a v
  | writeSingleRegister a v => s.writeSingleRegister a v
  | writeMultipleCoils a q packed =>
    { s with coils := writeCells s.coils a ((List.range q.toNat).map (testBit packed)) }
  | writeMultipleRegisters a vs | readWriteMultipleRegisters _ _ a vs =>
    { s with holdingRegisters := writeCells s.holdingRegisters a vs }
  | _ => s

/-- The byte count of bits and the packed bits. -/
def bitData (values : List Bool) (quantity : Quantity) : List UInt8 :=
  UInt8.ofNat (byteCount quantity.toNat) :: packBits values

/-- The byte count of registers and the registers. -/
def registerData (values : List UInt16) : List UInt8 :=
  UInt8.ofNat (values.length * 2) :: ofWords values

/-- The data of the response when the store is `s`. -/
def replyData (s : MemoryStore) : Command → List UInt8
  | readCoils a q => bitData (readCells s.coils false a q) q
  | readDiscreteInputs a q => bitData (readCells s.discreteInputs false a q) q
  | readHoldingRegisters a q => registerData (readCells s.holdingRegisters 0 a q)
  | readInputRegisters a q => registerData (readCells s.inputRegisters 0 a q)
  | writeSingleCoil a v => data (.writeSingleCoil a v)
  | writeSingleRegister a v => data (.writeSingleRegister a v)
  | writeMultipleCoils a q _ => putUint16 a ++ putUint16 q
  | writeMultipleRegisters a vs => putUint16 a ++ putUint16 (UInt16.ofNat vs.length)
  | readWriteMultipleRegisters ra rq wa vs =>
    registerData (readCells (writeCells s.holdingRegisters wa vs) 0 ra rq)

end Command

/-! ### What the server does for a command -/

section Server

variable (transactionID : TransactionID) (unitID : UnitID) (s : MemoryStore)

private theorem quantity_ok {q max : Quantity} (h0 : q ≠ 0) (hmax : q ≤ max) :
    ¬ (q = 0 ∨ q > max) := not_or.mpr ⟨h0, UInt16.not_lt.mpr hmax⟩

/-- A family member of the bit reads: the values are those of the cells `m` of the store. -/
private theorem run_handleReadBitValues {req : Request} {a : Address} {q max : Quantity}
    {readFunc : Address → Quantity → StoreCall (Except Err (List Bool))}
    {m : Address → Option Bool} (hd : req.pdu.data = putUint16 a ++ putUint16 q) (h0 : q ≠ 0)
    (hmax : q ≤ max)
    (hperform : MemoryStore.perform (readFunc a q) s = (.ok (readCells m false a q), s)) :
    (handleReadBitValues req max readFunc).run MemoryStore.perform s =
      (.ok (req.reply (Command.bitData (readCells m false a q) q)), s) := by
  rw [handleReadBitValues, parseReadRequest_ok hd h0 hmax]
  simp only [Handling.ofParsed, Handling.ofCall, CallTree.run_call, hperform, CallTree.run_ret]
  rw [replyBits_ok (length_readCells _ _ _ _)]
  rfl

/-- A family member of the register reads. -/
private theorem run_handleReadRegisterValues {req : Request} {a : Address} {q max : Quantity}
    {readFunc : Address → Quantity → StoreCall (Except Err (List UInt16))}
    {m : Address → Option UInt16} (hd : req.pdu.data = putUint16 a ++ putUint16 q) (h0 : q ≠ 0)
    (hmax : q ≤ max)
    (hperform : MemoryStore.perform (readFunc a q) s = (.ok (readCells m 0 a q), s)) :
    (handleReadRegisterValues req max readFunc).run MemoryStore.perform s =
      (.ok (req.reply (Command.registerData (readCells m 0 a q))), s) := by
  rw [handleReadRegisterValues, parseReadRequest_ok hd h0 hmax]
  simp only [Handling.ofParsed, Handling.ofCall, CallTree.run_call, hperform, CallTree.run_ret]
  rw [replyRegisters_ok]
  rfl

private theorem run_handleWriteSingleCoil {req : Request} {a : Address} {v : Bool}
    (hd : req.pdu.data = putUint16 a ++ putUint16 (if v then coilOnU16 else coilOffU16)) :
    (handleWriteSingleCoil req).run MemoryStore.perform s =
      (.ok (req.reply req.pdu.data), s.writeSingleCoil a v) := by
  rw [handleWriteSingleCoil, parseWriteSingle_ok hd]
  simp only [Handling.ofParsed, parseCoilValue_ok]
  rfl

private theorem run_handleWriteSingleRegister {req : Request} {a : Address} {v : UInt16}
    (hd : req.pdu.data = putUint16 a ++ putUint16 v) :
    (handleWriteSingleRegister req).run MemoryStore.perform s =
      (.ok (req.reply req.pdu.data), s.writeSingleRegister a v) := by
  rw [handleWriteSingleRegister, parseWriteSingle_ok hd]
  rfl

private theorem run_handleWriteMultipleCoils {req : Request} {a : Address} {q : Quantity}
    {packed : List UInt8}
    (hd : req.pdu.data = writeHeader a q (UInt8.ofNat packed.length) ++ packed) (h0 : q ≠ 0)
    (hmax : q ≤ maxWriteCoilCount) (hlen : packed.length = byteCount q.toNat) :
    (handleWriteMultipleCoils req).run MemoryStore.perform s =
      (.ok (req.reply (putUint16 a ++ putUint16 q)),
        Command.effect s (.writeMultipleCoils a q packed)) := by
  have hq : q.toNat ≤ 1968 := UInt16.le_iff_toNat_le.mp hmax
  have hq0 : q.toNat ≠ 0 := fun h => h0 (UInt16.toNat_inj.mp h)
  have hbits : readBits (ε := HandlerErr) shiftTestNe req.pdu.data 5 q.toNat =
      .ok ((List.range q.toNat).map (testBit packed)) := by
    rw [hd]
    exact readBits_eq shiftTestNe_eq_testBit (writeHeader a q _) packed q.toNat
      (by rw [hlen, byteCount]; omega)
  have hstore : s.writeMultipleCoils a ((List.range q.toNat).map (testBit packed)) =
      (.ok (), Command.effect s (.writeMultipleCoils a q packed)) := by
    refine if_neg ?_
    rw [List.length_map, List.length_range]
    exact not_or.mpr ⟨hq0, Nat.not_lt.mpr hq⟩
  rw [handleWriteMultipleCoils,
    parseWriteMultiple_ok hd h0 hmax hlen (by rw [hlen, byteCount]; omega) hbits]
  simp only [Handling.ofParsed, Handling.ofCall, CallTree.run_call, MemoryStore.perform, hstore]
  rfl

/-- The store accepts the registers of a legal write. -/
private theorem store_writeMultipleRegisters {a : Address} {vs : List UInt16} (h0 : vs.length ≠ 0)
    (hmax : vs.length ≤ 123) : s.writeMultipleRegisters a vs =
      (.ok (), { s with holdingRegisters := writeCells s.holdingRegisters a vs }) :=
  if_neg (not_or.mpr ⟨h0, Nat.not_lt.mpr hmax⟩)

private theorem run_handleWriteMultipleRegisters {req : Request} {a : Address} {vs : List UInt16}
    (hd : req.pdu.data =
      writeHeader a (UInt16.ofNat vs.length) (UInt8.ofNat (vs.length * 2)) ++ ofWords vs)
    (h0 : vs.length ≠ 0) (hmax : vs.length ≤ 123) :
    (handleWriteMultipleRegisters req).run MemoryStore.perform s =
      (.ok (req.reply (putUint16 a ++ putUint16 (UInt16.ofNat vs.length))),
        { s with holdingRegisters := writeCells s.holdingRegisters a vs }) := by
  have hq : (UInt16.ofNat vs.length).toNat = vs.length := Nat.mod_eq_of_lt (by omega)
  have hq0 : UInt16.ofNat vs.length ≠ 0 := fun h => h0 (hq ▸ congrArg UInt16.toNat h)
  have hqmax : UInt16.ofNat vs.length ≤ maxWriteRegisterCount :=
    UInt16.le_iff_toNat_le.mpr (by rw [hq]; exact hmax)
  have hwords :
      readWords (ε := HandlerErr) req.pdu.data 5 (UInt16.ofNat vs.length).toNat = .ok vs := by
    rw [hd, hq]
    have h := readWords_eq (ε := HandlerErr) (writeHeader a (UInt16.ofNat vs.length)
      (UInt8.ofNat (vs.length * 2))) (ofWords vs) vs.length (by simp)
    rwa [toWords_ofWords] at h
  have hlen : (ofWords vs).length = vs.length * 2 := by rw [length_ofWords, Nat.mul_comm]
  rw [handleWriteMultipleRegisters, parseWriteMultiple_ok (hlen ▸ hd) hq0 hqmax (by rw [hq, hlen])
    (by omega) hwords]
  simp only [Handling.ofParsed, Handling.ofCall, CallTree.run_call, MemoryStore.perform,
    store_writeMultipleRegisters s h0 hmax]
  rfl

private theorem run_handleReadWriteMultipleRegisters {req : Request} {ra wa : Address}
    {rq : Quantity} {vs : List UInt16}
    (hd : req.pdu.data = putUint16 ra ++ (putUint16 rq ++
      writeHeader wa (UInt16.ofNat vs.length) (UInt8.ofNat (vs.length * 2))) ++ ofWords vs)
    (hr0 : rq ≠ 0) (hrmax : rq ≤ maxReadWriteReadCount) (h0 : vs.length ≠ 0)
    (hmax : vs.length ≤ maxReadWriteWriteCount.toNat) :
    (handleReadWriteMultipleRegisters req).run MemoryStore.perform s =
      (.ok (req.reply (Command.registerData
        (readCells (writeCells s.holdingRegisters wa vs) 0 ra rq))),
        { s with holdingRegisters := writeCells s.holdingRegisters wa vs }) := by
  have hmax' : vs.length ≤ 121 := hmax
  have hread : ∀ s : MemoryStore, s.readHoldingRegisters ra rq =
      .ok (readCells s.holdingRegisters 0 ra rq) := fun s => if_neg (quantity_ok hr0 hrmax)
  rw [handleReadWriteMultipleRegisters, parseReadWriteMultiple_ok hd hr0 hrmax h0 hmax]
  simp only [Handling.ofParsed, Handling.ofCall, CallTree.run_call, MemoryStore.perform,
    store_writeMultipleRegisters s h0 (by omega : vs.length ≤ 123), hread, replyRegisters_ok]
  rfl

/-- **The server on a legal command**, whether or not its range ends behind the last address: the
response is normal, and addresses are taken modulo `2^16`. -/
theorem dispatchOn_command (c : Command) (hc : c.LegalQuantity) :
    dispatchOn (newRequest transactionID unitID c.functionCode c.data) s =
      (.ok (newResponse transactionID unitID c.functionCode (c.replyData s)), c.effect s) := by
  cases c with
  | readCoils a q =>
    exact run_handleReadBitValues s rfl hc.1 hc.2
      (congrArg (·, s) (if_neg (quantity_ok hc.1 hc.2)))
  | readDiscreteInputs a q =>
    exact run_handleReadBitValues s rfl hc.1 hc.2
      (congrArg (·, s) (if_neg (quantity_ok hc.1 hc.2)))
  | readHoldingRegisters a q =>
    exact run_handleReadRegisterValues s rfl hc.1 hc.2
      (congrArg (·, s) (if_neg (quantity_ok hc.1 hc.2)))
  | readInputRegisters a q =>
    exact run_handleReadRegisterValues s rfl hc.1 hc.2
      (congrArg (·, s) (if_neg (quantity_ok hc.1 hc.2)))
  | writeSingleCoil a v => exact run_handleWriteSingleCoil s rfl
  | writeSingleRegister a v => exact run_handleWriteSingleRegister s rfl
  | writeMultipleCoils a q packed => exact run_handleWriteMultipleCoils s rfl hc.1 hc.2.1 hc.2.2
  | writeMultipleRegisters a vs => exact run_handleWriteMultipleRegisters s rfl hc.1 hc.2
  | readWriteMultipleRegisters ra rq wa vs =>
    exact run_handleReadWriteMultipleRegisters s rfl hc.1.1 hc.1.2 hc.2.1 hc.2.2

end Server

/-! ### The device -/

/-- Four independent arrays of cells over the addresses 0 to 65535. -/
structure Device where
  coils : Address → Bool
  discreteInputs : Address → Bool
  holdingRegisters : Address → UInt16
  inputRegisters : Address → UInt16

/-- The operations of a client. -/
inductive Op
  | readCoils (address : Address) (quantity : Quantity)
  | readDiscreteInputs (address : Address) (quantity : Quantity)
  | readHoldingRegisters (address : Address) (quantity : Quantity)
  | readInputRegisters (address : Address) (quantity : Quantity)
  | writeSingleCoil (address : Address) (value : Bool)
  | writeSingleRegister (address : Address) (value : UInt16)
  | writeMultipleCoils (address : Address) (values : List Bool)
  | writeMultipleRegisters (address : Address) (values : List UInt16)
  | readWriteMultipleRegisters (readAddress : Address) (readQuantity : Quantity)
      (writeAddress : Address) (writeValues : List UInt16)
  deriving DecidableEq, Repr

/-- What an operation returns. -/
inductive Result
  | bits (values : List Bool)
  | registers (values : List UInt16)
  | done
  deriving DecidableEq, Repr

/-- The `q` cells of an array from address `a` on. -/
def cells {β : Type} (array : Address → β) (a : Address) (q : Quantity) : List β :=
  (List.range q.toNat).map fun i => array (UInt16.ofNat (a.toNat + i))

/-- The value among `vs`, written from address `a` on, that belongs to the cell `b`. -/
def valueAt {β : Type} (a : Address) (vs : List β) (b : Address) : Option β :=
  if a.toNat ≤ b.toNat then vs[b.toNat - a.toNat]? else none

namespace Op

/-- The quantities that the client accepts, in a range that ends at the last address or before. -/
def Valid : Op → Prop
  | readCoils a q | readDiscreteInputs a q =>
    (q ≠ 0 ∧ q ≤ maxCoilCount) ∧ a.toNat + q.toNat ≤ 65536
  | readHoldingRegisters a q | readInputRegisters a q =>
    (q ≠ 0 ∧ q ≤ maxRegisterCount) ∧ a.toNat + q.toNat ≤ 65536
  | writeSingleCoil _ _ | writeSingleRegister _ _ => True
  | writeMultipleCoils a vs =>
    (vs.length ≠ 0 ∧ vs.length ≤ maxWriteCoilCount.toNat) ∧ a.toNat + vs.length ≤ 65536
  | writeMultipleRegisters a vs =>
    (vs.length ≠ 0 ∧ vs.length ≤ maxWriteRegisterCount.toNat) ∧ a.toNat + vs.length ≤ 65536
  | readWriteMultipleRegisters ra rq wa vs =>
    ((rq ≠ 0 ∧ rq ≤ maxReadWriteReadCount) ∧ ra.toNat + rq.toNat ≤ 65536) ∧
      (vs.length ≠ 0 ∧ vs.length ≤ maxReadWriteWriteCount.toNat) ∧ wa.toNat + vs.length ≤ 65536

instance : DecidablePred Valid
  | readCoils _ _ | readDiscreteInputs _ _ | readHoldingRegisters _ _ | readInputRegisters _ _
  | writeMultipleCoils _ _ | writeMultipleRegisters _ _ =>
    inferInstanceAs (Decidable ((_ ∧ _) ∧ _))
  | writeSingleCoil _ _ | writeSingleRegister _ _ => inferInstanceAs (Decidable True)
  | readWriteMultipleRegisters _ _ _ _ =>
    inferInstanceAs (Decidable (((_ ∧ _) ∧ _) ∧ (_ ∧ _) ∧ _))

/-- The value that the operation writes to the coil `b`, if it writes that coil. -/
def coilAt (b : Address) : Op → Option Bool
  | writeSingleCoil a v => if b = a then some v else none
  | writeMultipleCoils a vs => valueAt a vs b
  | _ => none

/-- The value that the operation writes to the holding register `b`, if it writes that register. -/
def registerAt (b : Address) : Op → Option UInt16
  | writeSingleRegister a v => if b = a then some v else none
  | writeMultipleRegisters a vs | readWriteMultipleRegisters _ _ a vs => valueAt a vs b
  | _ => none

/-- What the operation returns when the device holds `d` after its write. -/
def result (d : Device) : Op → Result
  | readCoils a q => .bits (cells d.coils a q)
  | readDiscreteInputs a q => .bits (cells d.discreteInputs a q)
  | readHoldingRegisters a q => .registers (cells d.holdingRegisters a q)
  | readInputRegisters a q => .registers (cells d.inputRegisters a q)
  | readWriteMultipleRegisters a q _ _ => .registers (cells d.holdingRegisters a q)
  | writeSingleCoil _ _ | writeSingleRegister _ _ | writeMultipleCoils _ _
  | writeMultipleRegisters _ _ => .done

end Op

namespace Device

/-- An operation changes the coils and holding registers that it addresses, and nothing else. -/
def write (d : Device) (o : Op) : Device where
  coils b := (o.coilAt b).getD (d.coils b)
  discreteInputs := d.discreteInputs
  holdingRegisters b := (o.registerAt b).getD (d.holdingRegisters b)
  inputRegisters := d.inputRegisters

/-- The operation on the device: the write before the read. -/
def apply (d : Device) (o : Op) : Result × Device := (o.result (d.write o), d.write o)

/-- A sequence of operations and their results. -/
def run (d : Device) : List Op → List Result × Device
  | [] => ([], d)
  | o :: os => ((d.apply o).1 :: ((d.apply o).2.run os).1, ((d.apply o).2.run os).2)

end Device

/-! ### Client operations over the wire -/

/-- One exchange: the request frame through the server's connection loop, the response frame through
the client's read loop, which hands it to the transaction with its ID. -/
def overWire (req : Request) (s : MemoryStore) :
    Except (Fault ClientErr) Response × MemoryStore :=
  let c := handleConnection dispatchOn 0 [.chunk req.encode] s
  match (readLoop [.chunk (encodeAll c.replies)]).1.find?
      fun r => r.transactionID = req.transactionID with
  | some r => (.ok r, c.state)
  | none => (.error (.error (.err .transactionTimeout)), c.state)

section Perform

variable {σ : Type} (unitID : UnitID) (transactionID : TransactionID)
  (exchange : Request → σ → Except (Fault ClientErr) Response × σ)

/-- The method of `Client` for an operation. -/
def Client.perform (s : σ) : Op → Except (Fault ClientErr) Result × σ
  | .readCoils a q =>
    (Client.readCoils unitID transactionID exchange a q s).map (·.map .bits) id
  | .readDiscreteInputs a q =>
    (Client.readDiscreteInputs unitID transactionID exchange a q s).map (·.map .bits) id
  | .readHoldingRegisters a q =>
    (Client.readHoldingRegisters unitID transactionID exchange a q s).map (·.map .registers) id
  | .readInputRegisters a q =>
    (Client.readInputRegisters unitID transactionID exchange a q s).map (·.map .registers) id
  | .writeSingleCoil a v =>
    (Client.writeSingleCoil unitID transactionID exchange a v s).map (·.map fun _ => .done) id
  | .writeSingleRegister a v =>
    (Client.writeSingleRegister unitID transactionID exchange a v s).map (·.map fun _ => .done) id
  | .writeMultipleCoils a vs =>
    (Client.writeMultipleCoils unitID transactionID exchange a vs s).map (·.map fun _ => .done) id
  | .writeMultipleRegisters a vs =>
    (Client.writeMultipleRegisters unitID transactionID exchange a vs s).map
      (·.map fun _ => .done) id
  | .readWriteMultipleRegisters ra rq wa vs =>
    (Client.readWriteMultipleRegisters unitID transactionID exchange ra rq wa vs s).map
      (·.map .registers) id

end Perform

/-- A sequence of client operations, each with the transaction ID that the pool gave it. -/
def Client.run (unitID : UnitID) (s : MemoryStore) :
    List (TransactionID × Op) → List (Except (Fault ClientErr) Result) × MemoryStore
  | [] => ([], s)
  | (t, o) :: os =>
    ((Client.perform unitID t overWire s o).1 ::
      (Client.run unitID (Client.perform unitID t overWire s o).2 os).1,
      (Client.run unitID (Client.perform unitID t overWire s o).2 os).2)

/-- A request that is answered normally brings the response back to the client. -/
theorem overWire_of_dispatchOn {transactionID : TransactionID} {unitID : UnitID}
    {functionCode : FunctionCode} {data replyData : List UInt8} {s s' : MemoryStore}
    (hdata : data.length ≤ 65533) (hreply : replyData.length ≤ 65533)
    (h : dispatchOn (newRequest transactionID unitID functionCode data) s =
      (.ok (newResponse transactionID unitID functionCode replyData), s')) :
    overWire (newRequest transactionID unitID functionCode data) s =
      (.ok (newResponse transactionID unitID functionCode replyData), s') := by
  obtain ⟨rest, ht, hb, he, hf⟩ := serveTurn_of_quiet (newRequest transactionID unitID
    functionCode data) [] rfl hdata (show bytes [.chunk _] = _ from rfl) (by simp [expiries])
    (by simp)
  have hsilent : serveTurn rest = .silent .waiting := by
    have he' : expiries rest = [] := by simpa [expiries] using he
    rw [serveTurn, readFull_of_silent (by rw [hb]; decide) he' hf]
  have hconn : handleConnection dispatchOn 0 [.chunk (newRequest transactionID unitID functionCode
      data).encode] s = (⟨[], [], s', .waiting⟩ : Connection MemoryStore).after
        (.dispatched 0 (newRequest transactionID unitID functionCode data))
        [newResponse transactionID unitID functionCode replyData] := by
    rw [handleConnection_of_received ht (by rw [h]; rfl), handleConnection_of_silent hsilent, h]
  have hloop : readLoop [.chunk (encodeAll [newResponse transactionID unitID functionCode
      replyData])] = ([newResponse transactionID unitID functionCode replyData], .waiting) :=
    readLoop_of_expiries_between_frames (fun r hr => by
      obtain rfl := List.mem_singleton.mp hr
      exact ⟨rfl, hreply⟩) (by simp [bytes]) (by simp) (by simp [expiries])
  rw [overWire, hconn]
  simp only [Connection.after, List.append_nil, hloop]
  simp [newResponse, newRequest]

/-! ### One client operation -/

namespace Command

private theorem le_toNat {q max : Quantity} (h : q ≤ max) : q.toNat ≤ max.toNat :=
  UInt16.le_iff_toNat_le.mp h

theorem length_data_le (c : Command) (hc : c.LegalQuantity) : c.data.length ≤ 65533 := by
  cases c with
  | readCoils a q | readDiscreteInputs a q | readHoldingRegisters a q | readInputRegisters a q
  | writeSingleCoil a v | writeSingleRegister a v =>
    exact Nat.le_of_ble_eq_true rfl
  | writeMultipleCoils a q packed =>
    have hq : q.toNat ≤ 1968 := le_toNat hc.2.1
    simp only [data, List.length_append, length_writeHeader, hc.2.2, byteCount]
    omega
  | writeMultipleRegisters a vs =>
    have hmax : vs.length ≤ 123 := hc.2
    simp only [data, List.length_append, length_writeHeader, length_ofWords]
    omega
  | readWriteMultipleRegisters ra rq wa vs =>
    have hmax : vs.length ≤ 121 := hc.2.2
    simp only [data, List.length_append, length_writeHeader, length_putUint16, length_ofWords]
    omega

private theorem length_bitData_le {values : List Bool} {q : Quantity}
    (hlen : values.length = q.toNat) : (bitData values q).length ≤ 65533 := by
  have := q.toNat_lt
  simp only [bitData, List.length_cons, length_packBits, hlen, byteCount]
  omega

private theorem length_registerData_le {values : List UInt16} {q : Quantity}
    (hlen : values.length = q.toNat) (hq : q ≤ 125) : (registerData values).length ≤ 65533 := by
  have hq' : q.toNat ≤ 125 := le_toNat hq
  simp only [registerData, List.length_cons, length_ofWords]
  omega

theorem length_replyData_le (c : Command) (hc : c.LegalQuantity) (s : MemoryStore) :
    (c.replyData s).length ≤ 65533 := by
  cases c with
  | readCoils a q | readDiscreteInputs a q => exact length_bitData_le (length_readCells _ _ _ _)
  | readHoldingRegisters a q | readInputRegisters a q =>
    exact length_registerData_le (length_readCells _ _ _ _) hc.2
  | writeSingleCoil a v | writeSingleRegister a v | writeMultipleCoils a q packed
  | writeMultipleRegisters a vs =>
    exact Nat.le_of_ble_eq_true rfl
  | readWriteMultipleRegisters ra rq wa vs =>
    exact length_registerData_le (length_readCells _ _ _ _) hc.1.2

theorem not_isFunctionException (c : Command) : isFunctionException c.functionCode = false := by
  cases c <;>
    exact not_isFunctionException_handler _ (by simp [functionCode, setupDefaultHandlers])

end Command

/-- A client operation that sends the command `c` returns what the response data is parsed to. -/
theorem operation_command {α : Type} (unitID : UnitID) (transactionID : TransactionID)
    (s : MemoryStore) {c : Command} (hc : c.LegalQuantity)
    {generated : Except (Fault Err) (List UInt8)} {parse : List UInt8 → Except (Fault Err) α}
    {a : α} (hgen : generated = .ok c.data) (hparse : parse (c.replyData s) = .ok a) :
    operation unitID transactionID overWire c.functionCode generated parse s =
      (.ok a, c.effect s) :=
  operation_of_answer hgen c.not_isFunctionException
    (overWire_of_dispatchOn (c.length_data_le hc) (c.length_replyData_le hc s)
      (dispatchOn_command transactionID unitID s c hc)) hparse

/-- The cells of the store as a device; cells that were never written are zero. -/
def MemoryStore.device (s : MemoryStore) : Device where
  coils a := (s.coils a).getD false
  discreteInputs a := (s.discreteInputs a).getD false
  holdingRegisters a := (s.holdingRegisters a).getD 0
  inputRegisters a := (s.inputRegisters a).getD 0

/-- The command that a client operation sends. -/
def Op.command : Op → Command
  | readCoils a q => .readCoils a q
  | readDiscreteInputs a q => .readDiscreteInputs a q
  | readHoldingRegisters a q => .readHoldingRegisters a q
  | readInputRegisters a q => .readInputRegisters a q
  | writeSingleCoil a v => .writeSingleCoil a v
  | writeSingleRegister a v => .writeSingleRegister a v
  | writeMultipleCoils a vs => .writeMultipleCoils a (UInt16.ofNat vs.length) (packBits vs)
  | writeMultipleRegisters a vs => .writeMultipleRegisters a vs
  | readWriteMultipleRegisters ra rq wa vs => .readWriteMultipleRegisters ra rq wa vs

theorem readCells_eq_cells {β : Type} (m : Address → Option β) (zero : β) (a : Address)
    (q : Quantity) : readCells m zero a q = cells (fun b => (m b).getD zero) a q := by
  refine List.map_congr_left fun i _ => ?_
  rw [UInt16.ofNat_add, UInt16.ofNat_toNat]

/-- In range, a write changes exactly the cells from `a` on. -/
theorem getD_writeCells {β : Type} (m : Address → Option β) (zero : β) {a : Address} {vs : List β}
    (h : a.toNat + vs.length ≤ 65536) (b : Address) :
    (writeCells m a vs b).getD zero = (valueAt a vs b).getD ((m b).getD zero) := by
  have hor : ∀ x y : Option β, (x.or y).getD zero = x.getD (y.getD zero) := by
    intro x y
    cases x <;> rfl
  have hsub := UInt16.toNat_sub b a
  have ha := a.toNat_lt
  have hb := b.toNat_lt
  rw [writeCells_apply m a vs (by omega), hor, valueAt]
  split_ifs with hle
  · rw [show (b - a).toNat = b.toNat - a.toNat by omega]
  · rw [List.getElem?_eq_none (by omega)]

private theorem toNat_length {β : Type} {vs : List β} (h : vs.length ≤ 1968) :
    (UInt16.ofNat vs.length).toNat = vs.length := Nat.mod_eq_of_lt (by omega)

theorem Op.legalQuantity_command (o : Op) (ho : o.Valid) : o.command.LegalQuantity := by
  cases o with
  | readCoils a q | readDiscreteInputs a q | readHoldingRegisters a q | readInputRegisters a q =>
    exact ho.1
  | writeSingleCoil a v | writeSingleRegister a v => trivial
  | writeMultipleCoils a vs =>
    have hlen := toNat_length (show vs.length ≤ 1968 from ho.1.2)
    refine ⟨fun h => ho.1.1 (hlen ▸ congrArg UInt16.toNat h), ?_, ?_⟩
    · exact UInt16.le_iff_toNat_le.mpr (by rw [hlen]; exact ho.1.2)
    · rw [length_packBits, hlen]
  | writeMultipleRegisters a vs => exact ho.1
  | readWriteMultipleRegisters ra rq wa vs => exact ⟨ho.1.1, ho.2.1⟩

/-- The write of an operation on the store is its write on the device. -/
theorem Op.device_effect (o : Op) (ho : o.Valid) (s : MemoryStore) :
    (o.command.effect s).device = s.device.write o := by
  have hupdate : ∀ {β : Type} (m : Address → Option β) (zero : β) (a : Address) (v : β),
      (fun b => (Function.update m a (some v) b).getD zero) =
        fun b => (if b = a then some v else none).getD ((m b).getD zero) := by
    intro β m zero a v
    funext b
    by_cases h : b = a
    · subst h
      simp
    · simp [h]
  cases o with
  | readCoils a q | readDiscreteInputs a q | readHoldingRegisters a q | readInputRegisters a q =>
    rfl
  | writeSingleCoil a v =>
    exact congrArg (Device.mk · _ _ _) (hupdate s.coils false a v)
  | writeSingleRegister a v =>
    exact congrArg (Device.mk _ _ · _) (hupdate s.holdingRegisters 0 a v)
  | writeMultipleCoils a vs =>
    have heffect : (writeMultipleCoils a vs).command.effect s =
        { s with coils := writeCells s.coils a vs } := by
      simp only [command, Command.effect, toNat_length (show vs.length ≤ 1968 from ho.1.2),
        map_testBit_packBits]
    rw [heffect]
    exact congrArg (Device.mk · _ _ _) (funext fun b => getD_writeCells s.coils false ho.2 b)
  | writeMultipleRegisters a vs =>
    exact congrArg (Device.mk _ _ · _)
      (funext fun b => getD_writeCells s.holdingRegisters 0 ho.2 b)
  | readWriteMultipleRegisters ra rq wa vs =>
    exact congrArg (Device.mk _ _ · _)
      (funext fun b => getD_writeCells s.holdingRegisters 0 ho.2.2 b)

section Operation

variable (unitID : UnitID) (transactionID : TransactionID) (s : MemoryStore) {c : Command}
  {generated : Except (Fault Err) (List UInt8)}

theorem operation_bits {values : List Bool} {q : Quantity} (hc : c.LegalQuantity)
    (hgen : generated = .ok c.data) (hreply : c.replyData s = Command.bitData values q)
    (hlen : values.length = q.toNat) (hq : q ≤ maxCoilCount) :
    operation unitID transactionID overWire c.functionCode generated (parseBitResponse · q) s =
      (.ok values, c.effect s) := by
  have hq' : q.toNat ≤ 2000 := UInt16.le_iff_toNat_le.mp hq
  refine operation_command unitID transactionID s hc hgen ?_
  rw [hreply]
  exact parseBitResponse_packBits hlen (by rw [byteCount]; omega)

theorem operation_registers {values : List UInt16} {q : Quantity} (hc : c.LegalQuantity)
    (hgen : generated = .ok c.data) (hreply : c.replyData s = Command.registerData values)
    (hlen : values.length = q.toNat) (hq : q ≤ maxRegisterCount) :
    operation unitID transactionID overWire c.functionCode generated
      (parseRegisterResponse · q) s = (.ok values, c.effect s) := by
  have hq' : q.toNat ≤ 125 := UInt16.le_iff_toNat_le.mp hq
  refine operation_command unitID transactionID s hc hgen ?_
  rw [hreply]
  exact parseRegisterResponse_ofWords hlen (by omega)

theorem operation_write {a b : UInt16} (hc : c.LegalQuantity)
    (hgen : generated = .ok c.data) (hreply : c.replyData s = putUint16 a ++ putUint16 b) :
    operation unitID transactionID overWire c.functionCode generated
      (fun data => (parseWriteResponse data).map fun _ => ()) s = (.ok (), c.effect s) := by
  refine operation_command unitID transactionID s hc hgen ?_
  rw [hreply, parseWriteResponse_words]
  rfl

theorem operation_writeSingleCoil (a : Address) (v : Bool) :
    Client.writeSingleCoil unitID transactionID overWire a v s =
      (.ok (), s.writeSingleCoil a v) := by
  have hparse : (parseWriteSingleCoilResponse
      ((Command.writeSingleCoil a v).replyData s)).map (fun _ => ()) = .ok () := by
    rw [show (Command.writeSingleCoil a v).replyData s =
      putUint16 a ++ putUint16 (if v then coilOnU16 else coilOffU16) from rfl,
      parseWriteSingleCoilResponse_words]
    rfl
  exact operation_command unitID transactionID s (c := .writeSingleCoil a v) trivial
    (putTwoWords _ _) hparse

/-- **One client operation**: the result is that of the device after the operation. -/
theorem perform_eq (o : Op) (ho : o.Valid) :
    Client.perform unitID transactionID overWire s o =
      (.ok (o.result (s.device.write o)), o.command.effect s) := by
  have hc := o.legalQuantity_command ho
  cases o with
  | readCoils a q =>
    have hop := operation_bits unitID transactionID s hc (generateReadRequest_ok ho.1.1 ho.1.2) rfl
      (length_readCells s.coils false a q) ho.1.2
    rw [readCells_eq_cells] at hop
    exact congrArg (Prod.map (Except.map Result.bits) id) hop
  | readDiscreteInputs a q =>
    have hop := operation_bits unitID transactionID s hc (generateReadRequest_ok ho.1.1 ho.1.2) rfl
      (length_readCells s.discreteInputs false a q) ho.1.2
    rw [readCells_eq_cells] at hop
    exact congrArg (Prod.map (Except.map Result.bits) id) hop
  | readHoldingRegisters a q =>
    have hop := operation_registers unitID transactionID s hc
      (generateReadRequest_ok ho.1.1 ho.1.2) rfl (length_readCells s.holdingRegisters 0 a q) ho.1.2
    rw [readCells_eq_cells] at hop
    exact congrArg (Prod.map (Except.map Result.registers) id) hop
  | readInputRegisters a q =>
    have hop := operation_registers unitID transactionID s hc
      (generateReadRequest_ok ho.1.1 ho.1.2) rfl (length_readCells s.inputRegisters 0 a q) ho.1.2
    rw [readCells_eq_cells] at hop
    exact congrArg (Prod.map (Except.map Result.registers) id) hop
  | writeSingleCoil a v =>
    exact congrArg (Prod.map (Except.map fun _ => Result.done) id)
      (operation_writeSingleCoil unitID transactionID s a v)
  | writeSingleRegister a v =>
    have hop := operation_write unitID transactionID s hc (putTwoWords a v) rfl
    exact congrArg (Prod.map (Except.map fun _ => Result.done) id) hop
  | writeMultipleCoils a vs =>
    have hgen : generateWriteMultipleCoilsRequest a vs = _ :=
      generateWriteMultipleCoilsRequest_ok ho.1.1 ho.1.2
    rw [← length_packBits] at hgen
    have hop := operation_write unitID transactionID s hc hgen rfl
    exact congrArg (Prod.map (Except.map fun _ => Result.done) id) hop
  | writeMultipleRegisters a vs =>
    have hop := operation_write unitID transactionID s hc
      (generateWriteMultipleRegistersRequest_ok ho.1.1 ho.1.2) rfl
    exact congrArg (Prod.map (Except.map fun _ => Result.done) id) hop
  | readWriteMultipleRegisters ra rq wa vs =>
    have hop := operation_registers unitID transactionID s hc
      (generateReadWriteMultipleRegistersRequest_ok ho.1.1.1 ho.1.1.2 ho.2.1.1 ho.2.1.2) rfl
      (length_readCells (writeCells s.holdingRegisters wa vs) 0 ra rq) ho.1.1.2
    have hdev := congrArg Device.holdingRegisters
      (Op.device_effect (.readWriteMultipleRegisters ra rq wa vs) ho s)
    rw [readCells_eq_cells, show (fun b => (writeCells s.holdingRegisters wa vs b).getD 0) =
      (s.device.write (.readWriteMultipleRegisters ra rq wa vs)).holdingRegisters from hdev] at hop
    exact congrArg (Prod.map (Except.map Result.registers) id) hop

end Operation

/-- **Client and server refine the device.** For every sequence of valid operations, on any unit and
with any transaction IDs, each operation returns what the device returns, and the store holds the
device after all of them; by `Device.write`, each write changes the addressed cells of its own array
and no other cell. -/
theorem run_refines_device (unitID : UnitID) (ops : List (TransactionID × Op))
    (hops : ∀ o ∈ ops, o.2.Valid) (s : MemoryStore) :
    (Client.run unitID s ops).1 = (s.device.run (ops.map Prod.snd)).1.map .ok ∧
    (Client.run unitID s ops).2.device = (s.device.run (ops.map Prod.snd)).2 := by
  induction ops generalizing s with
  | nil => exact ⟨rfl, rfl⟩
  | cons o ops ih =>
    obtain ⟨t, o⟩ := o
    have ho : o.Valid := hops (t, o) List.mem_cons_self
    obtain ⟨hres, hdev⟩ := ih (fun q hq => hops q (List.mem_cons_of_mem _ hq)) (o.command.effect s)
    rw [o.device_effect ho s] at hres hdev
    simp only [Client.run, perform_eq unitID t s o ho]
    exact ⟨congrArg (_ :: ·) hres, hdev⟩

/-- Coils written and read back with another transaction in between. -/
theorem run_refines_device_write_read :
    (Client.run 9 newMemoryStore [(1, .writeMultipleCoils 65533 [true, false, true]),
      (7, .writeSingleRegister 65533 5), (2, .readCoils 65532 4)]).1 =
      [.ok .done, .ok .done, .ok (.bits [false, true, false, true])] := by
  refine (run_refines_device 9 [(1, .writeMultipleCoils 65533 [true, false, true]),
    (7, .writeSingleRegister 65533 5), (2, .readCoils 65532 4)]
    (by decide) newMemoryStore).1.trans ?_
  decide

/-! ### Ranges behind the last address -/

/-- The server answers with an exception, and every cell of the store keeps its value. -/
def Refused (req : Request) (s : MemoryStore) : Prop :=
  (∃ r, replyTo req (dispatchOn req s).1 = .ok r ∧ r.isException = true) ∧
    (dispatchOn req s).2.device = s.device

/-- **No range is refused**: a legal command whose range ends behind the last address is answered
normally, for every store. -/
theorem not_refused_of_outOfRange (c : Command) (hc : c.LegalQuantity) (_hout : c.OutOfRange)
    (transactionID : TransactionID) (unitID : UnitID) (s : MemoryStore) :
    ¬ Refused (newRequest transactionID unitID c.functionCode c.data) s := by
  rintro ⟨⟨r, hr, hexc⟩, -⟩
  rw [dispatchOn_command transactionID unitID s c hc] at hr
  obtain rfl := Except.ok.inj hr
  rw [Response.isException, newResponse, c.not_isFunctionException] at hexc
  exact Bool.false_ne_true hexc

/-- Two holding registers from the last address on are read without an exception. -/
theorem not_refused_read_at_last_address :
    ¬ Refused (newRequest 1 9 3 [255, 255, 0, 2]) newMemoryStore :=
  not_refused_of_outOfRange (.readHoldingRegisters 65535 2) (by decide) (by decide) 1 9
    newMemoryStore

/-- A write of two coils from the last address on: the second of them is the coil at address 0. -/
theorem write_at_last_address_reaches_zero :
    let c := Command.writeMultipleCoils 65535 2 [3]
    c.LegalQuantity ∧ c.OutOfRange ∧
    (dispatchOn (newRequest 1 9 c.functionCode c.data) newMemoryStore).2.coils 0 = some true ∧
    ¬ Refused (newRequest 1 9 c.functionCode c.data) newMemoryStore := by
  refine ⟨by decide, by decide, by decide, fun h => ?_⟩
  have h0 := congrFun (congrArg Device.coils h.2) 0
  revert h0
  decide

end GoIndustrial.Modbus
