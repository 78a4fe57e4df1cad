import GoIndustrial.Lib.CallTree
import GoIndustrial.Lib.GoSlice
import GoIndustrial.Modbus.Store

/-!
# The server's request handlers

`protocol/modbus/server_protocol.go` and `dispatchRequest` of `server.go`. A handler checks the data
of a request, makes calls to the data store and builds the response; it is the tree of its store
calls (`CallTree`), since calls of other connections may come between two calls of one handler. Only
Read/Write Multiple Registers makes two of them.

Slices are indexed with bounds checks, so a handler may also panic; buffers are filled the way the
source fills them.

## Main definitions

* `Modbus.Handling` : what a handler does for one request.
* `Modbus.setupDefaultHandlers`, `Modbus.dispatchRequest` : the handler of each function code.
* `Modbus.dispatchOn` : a whole request run on a memory store.

## Main results

* `Modbus.parseReadRequest_ok`, `Modbus.parseWriteMultiple_ok`, `Modbus.parseReadWriteMultiple_ok` :
  well-formed requests pass the checks.
* `Modbus.replyBits_ok`, `Modbus.replyRegisters_ok` : the data of the responses.
-/

namespace GoIndustrial.Modbus

open BitPacking GoSlice

/-- The errors a handler returns: a Modbus exception, or any other error of a custom handler. -/
inductive HandlerErr
  | modbus (e : ModbusError)
  | other
  deriving DecidableEq, Repr

/-- What a handler does for one request. -/
abbrev Handling := CallTree StoreCall (Except (Fault HandlerErr) Response)

/-- `NewModbusError(req.GetPDU().FunctionCode, code)`. -/
def Request.exception (req : Request) (code : ExceptionCode) : Fault HandlerErr :=
  .error (.modbus ⟨req.pdu.functionCode, code⟩)

/-- The exception for an error of the store. -/
def Request.storeException (req : Request) (err : Err) : Fault HandlerErr :=
  if err = .invalidQuantity then req.exception exceptionInvalidDataValue
  else req.exception exceptionServerDeviceFailure

/-- The response with the identifiers and the function code of the request. -/
def Request.reply (req : Request) (data : List UInt8) : Response :=
  newResponse req.transactionID req.unitID req.pdu.functionCode data

/-- Go on with the checked fields of a request, or return the exception. -/
def Handling.ofParsed {α : Type} (parsed : Except (Fault HandlerErr) α) (k : α → Handling) :
    Handling :=
  match parsed with
  | .error e => .ret (.error e)
  | .ok a => k a

/-- Make a store call and go on with its result, or return the exception for its error. -/
def Handling.ofCall {β : Type} (exception : Err → Fault HandlerErr)
    (c : StoreCall (Except Err β)) (k : β → Handling) : Handling :=
  .call c fun
    | .error err => .ret (.error (exception err))
    | .ok b => k b

/-! ### Reads -/

/-- The address and the quantity of a read request. -/
def parseReadRequest (req : Request) (maxQuantity : Quantity) :
    Except (Fault HandlerErr) (Address × Quantity) :=
  if req.pdu.data.length ≠ 4 then .error (req.exception exceptionInvalidDataValue)
  else do
    let address ← uint16At req.pdu.data 0
    let quantity ← uint16At req.pdu.data 2
    if quantity = 0 ∨ quantity > maxQuantity then
      .error (req.exception exceptionInvalidDataValue)
    else return (address, quantity)

/-- The byte count and the packed bits. -/
def replyBits (req : Request) (quantity : Quantity) (values : List Bool) :
    Except (Fault HandlerErr) Response := do
  let count := byteCount quantity.toNat
  let responseData ← setAt (List.replicate (1 + count) 0) 0 (UInt8.ofNat count)
  let responseData ← setBitsAt 1 responseData 0 values
  return req.reply responseData

/-- The byte count and the registers. -/
def replyRegisters (req : Request) (values : List UInt16) : Except (Fault HandlerErr) Response := do
  let count := values.length * 2
  let responseData ← setAt (List.replicate (1 + count) 0) 0 (UInt8.ofNat count)
  let responseData ← putWords responseData 1 values
  return req.reply responseData

/-- `handleReadBitValues`. -/
def handleReadBitValues (req : Request) (maxQuantity : Quantity)
    (readFunc : Address → Quantity → StoreCall (Except Err (List Bool))) : Handling :=
  .ofParsed (parseReadRequest req maxQuantity) fun (address, quantity) =>
    .ofCall req.storeException (readFunc address quantity) fun values =>
      .ret (replyBits req quantity values)

/-- `handleReadRegisterValues`. -/
def handleReadRegisterValues (req : Request) (maxQuantity : Quantity)
    (readFunc : Address → Quantity → StoreCall (Except Err (List UInt16))) : Handling :=
  .ofParsed (parseReadRequest req maxQuantity) fun (address, quantity) =>
    .ofCall req.storeException (readFunc address quantity) fun values =>
      .ret (replyRegisters req values)

def handleReadCoils (req : Request) : Handling :=
  handleReadBitValues req maxCoilCount .readCoils

def handleReadDiscreteInputs (req : Request) : Handling :=
  handleReadBitValues req maxCoilCount .readDiscreteInputs

def handleReadHoldingRegisters (req : Request) : Handling :=
  handleReadRegisterValues req maxRegisterCount .readHoldingRegisters

def handleReadInputRegisters (req : Request) : Handling :=
  handleReadRegisterValues req maxRegisterCount .readInputRegisters

/-! ### Writes -/

/-- The address and the value of a single write. -/
def parseWriteSingle (req : Request) : Except (Fault HandlerErr) (Address × UInt16) :=
  if req.pdu.data.length ≠ 4 then .error (req.exception exceptionInvalidDataValue)
  else do
    let address ← uint16At req.pdu.data 0
    let value ← uint16At req.pdu.data 2
    return (address, value)

/-- The coil value that a wire value stands for. -/
def parseCoilValue (req : Request) (value : UInt16) : Except (Fault HandlerErr) Bool :=
  if value = coilOnU16 then .ok true
  else if value = coilOffU16 then .ok false
  else .error (req.exception exceptionInvalidDataValue)

/-- `HandleWriteSingleCoil`. -/
def handleWriteSingleCoil (req : Request) : Handling :=
  .ofParsed (parseWriteSingle req) fun (address, value) =>
    .ofParsed (parseCoilValue req value) fun coilValue =>
      .ofCall (fun _ => req.exception exceptionServerDeviceFailure)
        (.writeSingleCoil address coilValue) fun _ => .ret (.ok (req.reply req.pdu.data))

/-- `HandleWriteSingleRegister`. -/
def handleWriteSingleRegister (req : Request) : Handling :=
  .ofParsed (parseWriteSingle req) fun (address, value) =>
    .ofCall (fun _ => req.exception exceptionServerDeviceFailure)
      (.writeSingleRegister address value) fun _ => .ret (.ok (req.reply req.pdu.data))

/-- The address, the quantity and the values of a write of several cells, whose values take
`expectedByteCount quantity` bytes and are read by `readValues`. -/
def parseWriteMultiple {α : Type} (req : Request) (maxQuantity : Quantity)
    (expectedByteCount : ℕ → ℕ) (readValues : List UInt8 → ℕ → Except (Fault HandlerErr) (List α)) :
    Except (Fault HandlerErr) (Address × Quantity × List α) :=
  let data := req.pdu.data
  if data.length < 5 then .error (req.exception exceptionInvalidDataValue)
  else do
    let address ← uint16At data 0
    let quantity ← uint16At data 2
    let count ← index data 4
    if data.length ≠ 5 + count.toNat then .error (req.exception exceptionInvalidDataValue)
    else if quantity = 0 ∨ quantity > maxQuantity then
      .error (req.exception exceptionInvalidDataValue)
    else if count.toNat ≠ expectedByteCount quantity.toNat then
      .error (req.exception exceptionInvalidDataValue)
    else do
      let values ← readValues data quantity.toNat
      return (address, quantity, values)

/-- The confirmed address and quantity. -/
def replyWriteMultiple (req : Request) (address : Address) (quantity : Quantity) :
    Except (Fault HandlerErr) Response := do
  let responseData ← putUint16At (List.replicate 4 0) 0 address
  let responseData ← putUint16At responseData 2 quantity
  return req.reply responseData

/-- `HandleWriteMultipleCoils`. -/
def handleWriteMultipleCoils (req : Request) : Handling :=
  .ofParsed (parseWriteMultiple req maxWriteCoilCount byteCount fun data quantity =>
      readBits shiftTestNe data 5 quantity) fun (address, quantity, values) =>
    .ofCall req.storeException (.writeMultipleCoils address values) fun _ =>
      .ret (replyWriteMultiple req address quantity)

/-- `HandleWriteMultipleRegisters`. -/
def handleWriteMultipleRegisters (req : Request) : Handling :=
  .ofParsed (parseWriteMultiple req maxWriteRegisterCount (· * 2) fun data quantity =>
      readWords data 5 quantity) fun (address, quantity, values) =>
    .ofCall req.storeException (.writeMultipleRegisters address values) fun _ =>
      .ret (replyWriteMultiple req address quantity)

/-- The fields of a Read/Write Multiple Registers request. -/
structure ReadWriteFields where
  readAddress : Address
  readQuantity : Quantity
  writeAddress : Address
  writeValues : List UInt16
  deriving DecidableEq, Repr

/-- The checks of `HandleReadWriteMultipleRegisters`. -/
def parseReadWriteMultiple (req : Request) : Except (Fault HandlerErr) ReadWriteFields :=
  let data := req.pdu.data
  if data.length < 9 then .error (req.exception exceptionInvalidDataValue)
  else do
    let readAddress ← uint16At data 0
    let readQuantity ← uint16At data 2
    let writeAddress ← uint16At data 4
    let writeQuantity ← uint16At data 6
    let count ← index data 8
    if data.length ≠ 9 + count.toNat then .error (req.exception exceptionInvalidDataValue)
    else if readQuantity = 0 ∨ readQuantity > maxReadWriteReadCount ∨
        writeQuantity = 0 ∨ writeQuantity > maxReadWriteWriteCount then
      .error (req.exception exceptionInvalidDataValue)
    else if count.toNat ≠ writeQuantity.toNat * 2 then
      .error (req.exception exceptionInvalidDataValue)
    else do
      let writeValues ← readWords data 9 writeQuantity.toNat
      return ⟨readAddress, readQuantity, writeAddress, writeValues⟩

/-- `HandleReadWriteMultipleRegisters`: the write is performed before the read, as two calls. -/
def handleReadWriteMultipleRegisters (req : Request) : Handling :=
  .ofParsed (parseReadWriteMultiple req) fun fields =>
    .ofCall req.storeException
      (.writeMultipleRegisters fields.writeAddress fields.writeValues) fun _ =>
      .ofCall req.storeException
        (.readHoldingRegisters fields.readAddress fields.readQuantity) fun readValues =>
        .ret (replyRegisters req readValues)

/-! ### Device identification -/

def meiReadDeviceID : UInt8 := 0x0E
def readDeviceIDRegularStream : UInt8 := 0x02
def readDeviceIDExtendedStream : UInt8 := 0x03
def readDeviceIDSpecificObject : UInt8 := 0x04
def conformityLevelBasic : UInt8 := 0x01
def moreFollowsNo : UInt8 := 0x00

def deviceIDVendorName : UInt8 := 0x00
def deviceIDProductCode : UInt8 := 0x01
def deviceIDMajorMinorRevision : UInt8 := 0x02
def deviceIDVendorURL : UInt8 := 0x03
def deviceIDProductName : UInt8 := 0x04
def deviceIDModelName : UInt8 := 0x05
def deviceIDUserAppName : UInt8 := 0x06

/-- `objectValues` of `HandleReadDeviceIdentification`. -/
def objectValues : List (UInt8 × String) :=
  [(deviceIDVendorName, "goindustrial"), (deviceIDProductCode, "GI-001"),
    (deviceIDMajorMinorRevision, "1.0"),
    (deviceIDVendorURL, "https://github.com/iceisfun/goindustrial"),
    (deviceIDProductName, "goindustrial Modbus Server"), (deviceIDModelName, "Modbus TCP Server"),
    (deviceIDUserAppName, "Modbus Server"), (0x80, "Extended Object")]

/-- `objectsToInclude` of `HandleReadDeviceIdentification`. -/
def objectsToInclude (readDeviceIDCode objectID : UInt8) : List UInt8 :=
  let basic := [deviceIDVendorName, deviceIDProductCode, deviceIDMajorMinorRevision]
  let regular := [deviceIDVendorURL, deviceIDProductName, deviceIDModelName, deviceIDUserAppName]
  if readDeviceIDCode = readDeviceIDSpecificObject then [objectID]
  else if readDeviceIDCode = readDeviceIDRegularStream then basic ++ regular
  else if readDeviceIDCode = readDeviceIDExtendedStream then basic ++ regular ++ [0x80]
  else basic

/-- An object of a device identification: its code and its text. -/
structure DeviceIDObject where
  id : UInt8
  value : List UInt8
  deriving DecidableEq, Repr

/-- The length field of an object, one byte. -/
def DeviceIDObject.length (o : DeviceIDObject) : UInt8 := UInt8.ofNat o.value.length

/-- The included objects that have a value. -/
def deviceObjects (readDeviceIDCode objectID : UInt8) : List DeviceIDObject :=
  (objectsToInclude readDeviceIDCode objectID).filterMap fun id =>
    (objectValues.lookup id).map fun value => ⟨id, value.toUTF8.data.toList⟩

/-- The loop that writes the objects from `offset` on. -/
def putObjects (buf : List UInt8) : ℕ → List DeviceIDObject → Except (Fault HandlerErr) (List UInt8)
  | _, [] => .ok buf
  | offset, o :: os => do
    let buf ← setAt buf offset o.id
    let buf ← setAt buf (offset + 1) o.length
    let buf ← copyAt buf (offset + 2) (offset + 2 + o.length.toNat) o.value
    putObjects buf (offset + 2 + o.length.toNat) os

/-- The response data of a device identification. -/
def encodeDeviceIdentification (readDeviceIDCode : UInt8) (objects : List DeviceIDObject) :
    Except (Fault HandlerErr) (List UInt8) :=
  let fixed := [meiReadDeviceID, readDeviceIDCode, conformityLevelBasic, moreFollowsNo, 0x00,
    UInt8.ofNat objects.length]
  let size := (objects.map fun o => 2 + o.length.toNat).sum
  putObjects (fixed ++ List.replicate size 0) 6 objects

/-- `HandleReadDeviceIdentification`. -/
def handleReadDeviceIdentification (req : Request) : Handling :=
  let data := req.pdu.data
  .ret <|
    if data.length < 3 then .error (req.exception exceptionInvalidDataValue)
    else do
      let mei ← index data 0
      if mei ≠ meiReadDeviceID then .error (req.exception exceptionInvalidDataValue)
      else do
        let readDeviceIDCode ← index data 1
        let objectID ← index data 2
        let responseData ← encodeDeviceIdentification readDeviceIDCode
          (deviceObjects readDeviceIDCode objectID)
        return req.reply responseData

/-! ### Dispatch -/

/-- `setupDefaultHandlers`. -/
def setupDefaultHandlers : List (FunctionCode × (Request → Handling)) :=
  [(funcReadCoils, handleReadCoils), (funcReadDiscreteInputs, handleReadDiscreteInputs),
    (funcReadHoldingRegisters, handleReadHoldingRegisters),
    (funcReadInputRegisters, handleReadInputRegisters),
    (funcWriteSingleCoil, handleWriteSingleCoil),
    (funcWriteSingleRegister, handleWriteSingleRegister),
    (funcWriteMultipleCoils, handleWriteMultipleCoils),
    (funcWriteMultipleRegisters, handleWriteMultipleRegisters),
    (funcReadWriteMultipleRegisters, handleReadWriteMultipleRegisters),
    (funcReadDeviceIdentification, handleReadDeviceIdentification)]

/-- The function codes with a handler do not have the exception bit. -/
theorem not_isFunctionException_handler :
    ∀ code ∈ setupDefaultHandlers.map Prod.fst, isFunctionException code = false := by
  decide +kernel

/-- `Server.dispatchRequest` with the given handlers. -/
def dispatchRequest (handlers : List (FunctionCode × (Request → Handling))) (req : Request) :
    Handling :=
  match handlers.lookup req.pdu.functionCode with
  | none => .ret (.error (req.exception exceptionFunctionCodeNotSupported))
  | some handler => handler req

/-- A request handled by the default handlers, with no other request in between. -/
def dispatchOn (req : Request) (s : MemoryStore) :
    Except (Fault HandlerErr) Response × MemoryStore :=
  (dispatchRequest setupDefaultHandlers req).run MemoryStore.perform s

/-! ### Well-formed requests pass the checks -/

variable {req : Request}

private theorem readTwoWords {α : Type} (a b : UInt16) (rest : List UInt8)
    (k : UInt16 → UInt16 → Except (Fault HandlerErr) α) :
    (do
      let x ← uint16At (putUint16 a ++ (putUint16 b ++ rest)) 0
      let y ← uint16At (putUint16 a ++ (putUint16 b ++ rest)) 2
      k x y) = k a b := by
  have h₁ := uint16At_append (ε := HandlerErr) [] a (putUint16 b ++ rest)
  have h₂ := uint16At_append (ε := HandlerErr) (putUint16 a) b rest
  simp only [List.nil_append, List.length_nil, length_putUint16] at h₁ h₂
  simp only [h₁, h₂, bind, Except.bind]

theorem parseReadRequest_ok {a : Address} {q maxQuantity : Quantity}
    (hd : req.pdu.data = putUint16 a ++ putUint16 q) (h0 : q ≠ 0) (hmax : q ≤ maxQuantity) :
    parseReadRequest req maxQuantity = .ok (a, q) := by
  have h := readTwoWords a q [] fun address quantity =>
    if quantity = 0 ∨ quantity > maxQuantity then
      .error (req.exception exceptionInvalidDataValue)
    else .ok (address, quantity)
  rw [List.append_nil, if_neg (not_or.mpr ⟨h0, UInt16.not_lt.mpr hmax⟩)] at h
  rw [parseReadRequest, hd, if_neg (by simp)]
  exact h

theorem parseWriteSingle_ok {a : Address} {v : UInt16}
    (hd : req.pdu.data = putUint16 a ++ putUint16 v) : parseWriteSingle req = .ok (a, v) := by
  have h := readTwoWords a v [] fun address value => .ok (address, value)
  rw [List.append_nil] at h
  rw [parseWriteSingle, hd, if_neg (by simp)]
  exact h

theorem parseCoilValue_ok (value : Bool) :
    parseCoilValue req (if value then coilOnU16 else coilOffU16) = .ok value := by
  cases value <;> rfl

theorem parseWriteMultiple_ok {α : Type} {a : Address} {q maxQuantity : Quantity}
    {payload : List UInt8} {expectedByteCount : ℕ → ℕ}
    {readValues : List UInt8 → ℕ → Except (Fault HandlerErr) (List α)} {values : List α}
    (hd : req.pdu.data = writeHeader a q (UInt8.ofNat payload.length) ++ payload) (h0 : q ≠ 0)
    (hmax : q ≤ maxQuantity) (hcount : payload.length = expectedByteCount q.toNat)
    (hbyte : payload.length < 256) (hread : readValues req.pdu.data q.toNat = .ok values) :
    parseWriteMultiple req maxQuantity expectedByteCount readValues = .ok (a, q, values) := by
  have hnat : (UInt8.ofNat payload.length).toNat = payload.length := Nat.mod_eq_of_lt hbyte
  have hshape : req.pdu.data =
      putUint16 a ++ (putUint16 q ++ (UInt8.ofNat payload.length :: payload)) := by
    simp [hd, writeHeader]
  have hlen : req.pdu.data.length = 5 + payload.length := by simp [hd]
  have hindex : index (ε := HandlerErr) req.pdu.data 4 = .ok (UInt8.ofNat payload.length) := by
    have h := index_append (ε := HandlerErr) (putUint16 a ++ putUint16 q)
      (UInt8.ofNat payload.length) payload
    rw [List.append_assoc] at h
    rwa [hshape]
  have h₁ := uint16At_append (ε := HandlerErr) [] a
    (putUint16 q ++ (UInt8.ofNat payload.length :: payload))
  have h₂ := uint16At_append (ε := HandlerErr) (putUint16 a) q
    (UInt8.ofNat payload.length :: payload)
  simp only [List.nil_append, List.length_nil, length_putUint16, ← hshape] at h₁ h₂
  simp only [parseWriteMultiple, hlen, show ¬ 5 + payload.length < 5 by omega, if_false, h₁, h₂,
    hindex, bind, Except.bind, hnat, ne_eq, not_true_eq_false, h0, false_or,
    UInt16.not_lt.mpr hmax, ← hcount, hread]
  rfl

theorem parseReadWriteMultiple_ok {readAddress writeAddress : Address} {readQuantity : Quantity}
    {values : List UInt16}
    (hd : req.pdu.data = putUint16 readAddress ++ (putUint16 readQuantity ++
      writeHeader writeAddress (UInt16.ofNat values.length) (UInt8.ofNat (values.length * 2))) ++
      ofWords values)
    (hr0 : readQuantity ≠ 0) (hrmax : readQuantity ≤ maxReadWriteReadCount)
    (h0 : values.length ≠ 0) (hmax : values.length ≤ maxReadWriteWriteCount.toNat) :
    parseReadWriteMultiple req = .ok ⟨readAddress, readQuantity, writeAddress, values⟩ := by
  have hmax' : values.length ≤ 121 := hmax
  have hnat : (UInt8.ofNat (values.length * 2)).toNat = values.length * 2 :=
    Nat.mod_eq_of_lt (by omega)
  have hq : (UInt16.ofNat values.length).toNat = values.length := Nat.mod_eq_of_lt (by omega)
  have hlen : req.pdu.data.length = 9 + values.length * 2 := by
    simp [hd]
    omega
  have hshape : req.pdu.data = putUint16 readAddress ++ (putUint16 readQuantity ++
      (putUint16 writeAddress ++ (putUint16 (UInt16.ofNat values.length) ++
        (UInt8.ofNat (values.length * 2) :: ofWords values)))) := by
    simp [hd, writeHeader]
  have h₁ : uint16At (ε := HandlerErr) req.pdu.data 0 = .ok readAddress := by
    rw [hshape]
    exact uint16At_append [] _ _
  have h₂ : uint16At (ε := HandlerErr) req.pdu.data 2 = .ok readQuantity := by
    rw [hshape]
    exact uint16At_append (putUint16 readAddress) _ _
  have h₃ : uint16At (ε := HandlerErr) req.pdu.data 4 = .ok writeAddress := by
    rw [hshape, ← List.append_assoc]
    exact uint16At_append (putUint16 readAddress ++ putUint16 readQuantity) _ _
  have h₄ : uint16At (ε := HandlerErr) req.pdu.data 6 = .ok (UInt16.ofNat values.length) := by
    rw [hshape, ← List.append_assoc, ← List.append_assoc]
    exact uint16At_append (putUint16 readAddress ++ putUint16 readQuantity ++
      putUint16 writeAddress) _ _
  have h₅ : index (ε := HandlerErr) req.pdu.data 8 = .ok (UInt8.ofNat (values.length * 2)) := by
    rw [hshape, ← List.append_assoc, ← List.append_assoc, ← List.append_assoc]
    exact index_append (putUint16 readAddress ++ putUint16 readQuantity ++
      putUint16 writeAddress ++ putUint16 (UInt16.ofNat values.length)) _ _
  have h₆ : readWords (ε := HandlerErr) req.pdu.data 9 values.length = .ok values := by
    have h := readWords_eq (ε := HandlerErr) (putUint16 readAddress ++ (putUint16 readQuantity ++
      writeHeader writeAddress (UInt16.ofNat values.length) (UInt8.ofNat (values.length * 2))))
      (ofWords values) values.length (by simp)
    rwa [← hd, toWords_ofWords] at h
  have hok : ¬ (readQuantity = 0 ∨ readQuantity > maxReadWriteReadCount ∨
      UInt16.ofNat values.length = 0 ∨ UInt16.ofNat values.length > maxReadWriteWriteCount) := by
    rintro (h | h | h | h)
    · exact hr0 h
    · exact UInt16.not_lt.mpr hrmax h
    · exact h0 (hq ▸ congrArg UInt16.toNat h)
    · have := UInt16.lt_iff_toNat_lt.mp h
      rw [hq] at this
      omega
  simp only [parseReadWriteMultiple, hlen, show ¬ 9 + values.length * 2 < 9 by omega, if_false, h₁,
    h₂, h₃, h₄, h₅, bind, Except.bind, hnat, ne_eq, not_true_eq_false, if_neg hok, hq, h₆]
  rfl

/-! ### The data of the responses -/

theorem replyBits_ok {q : Quantity} {values : List Bool} (hlen : values.length = q.toNat) :
    replyBits req q values =
      .ok (req.reply (UInt8.ofNat (byteCount q.toNat) :: packBits values)) := by
  have h₁ := setAt_replicate (ε := HandlerErr) [] (byteCount q.toNat)
    (UInt8.ofNat (byteCount q.toNat))
  have h₂ := setBitsAt_append (ε := HandlerErr) [UInt8.ofNat (byteCount q.toNat)]
    (List.replicate (byteCount q.toNat) 0) 0 values
    (by simp only [List.length_replicate, byteCount]; omega)
  simp only [List.nil_append, List.length_nil, List.cons_append, List.length_singleton] at h₁ h₂
  simp only [replyBits, Nat.add_comm 1, h₁, h₂, bind, Except.bind]
  rw [packBits, hlen]
  rfl

theorem replyRegisters_ok (values : List UInt16) :
    replyRegisters req values =
      .ok (req.reply (UInt8.ofNat (values.length * 2) :: ofWords values)) := by
  have h₁ := setAt_replicate (ε := HandlerErr) [] (values.length * 2)
    (UInt8.ofNat (values.length * 2))
  have h₂ := putWords_append (ε := HandlerErr) [UInt8.ofNat (values.length * 2)]
    (List.replicate (values.length * 2) 0) values (by simp only [List.length_replicate]; omega)
  simp only [List.nil_append, List.length_nil, List.cons_append, List.length_singleton] at h₁ h₂
  simp only [replyRegisters, Nat.add_comm 1, h₁, h₂, bind, Except.bind]
  rfl

end GoIndustrial.Modbus
