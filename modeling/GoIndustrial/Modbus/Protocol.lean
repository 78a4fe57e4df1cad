import GoIndustrial.Lib.GoSlice
import GoIndustrial.Modbus.Types

/-!
# The client's request and response data

The `Generate*` and `Parse*` functions of `protocol/modbus/protocol.go` for the functions that
access coils and registers, and the client operations of `client.go` that put them together:
generate the data, send the request, turn an exception response into an error, parse the data of the
response.

The operations are over an arbitrary `exchange`, which takes a request to the device and brings the
response back; the retries of `Client.send` are left out, each operation is one attempt.

## Main results

* `Modbus.generateReadRequest_ok`, `Modbus.generateWriteMultipleCoilsRequest_ok`, … : the data of a
  request whose quantity is accepted.
* `Modbus.parseBitResponse_packBits`, `Modbus.parseRegisterResponse_ofWords` : well-formed response
  data is parsed to the values in it.
-/

namespace GoIndustrial.Modbus

open BitPacking GoSlice

/-! ### Reads -/

/-- `generateReadRequest`. -/
def generateReadRequest (address : Address) (quantity maxQuantity : Quantity) :
    Except (Fault Err) (List UInt8) :=
  if quantity = 0 ∨ quantity > maxQuantity then .error (.error .invalidQuantity)
  else do
    let data ← putUint16At (List.replicate 4 0) 0 address
    putUint16At data 2 quantity

/-- `parseBitResponse`. -/
def parseBitResponse (data : List UInt8) (quantity : Quantity) : Except (Fault Err) (List Bool) :=
  if data.length = 0 then .error (.error .emptyResponse)
  else do
    let count ← index data 0
    if data.length ≠ count.toNat + 1 then .error (.error .invalidResponseLength)
    else if count.toNat ≠ byteCount quantity.toNat then .error (.error .invalidResponseLength)
    else readBits shiftTest data 1 quantity.toNat

/-- `parseRegisterResponse`. -/
def parseRegisterResponse (data : List UInt8) (quantity : Quantity) :
    Except (Fault Err) (List UInt16) :=
  if data.length = 0 then .error (.error .emptyResponse)
  else do
    let count ← index data 0
    if data.length ≠ count.toNat + 1 then .error (.error .invalidResponseLength)
    else if count.toNat ≠ quantity.toNat * 2 then .error (.error .invalidResponseLength)
    else readWords data 1 quantity.toNat

def generateReadCoilsRequest (address : Address) (quantity : Quantity) :
    Except (Fault Err) (List UInt8) := generateReadRequest address quantity maxCoilCount

def parseReadCoilsResponse (data : List UInt8) (quantity : Quantity) :
    Except (Fault Err) (List Bool) := parseBitResponse data quantity

def generateReadDiscreteInputsRequest (address : Address) (quantity : Quantity) :
    Except (Fault Err) (List UInt8) := generateReadRequest address quantity maxCoilCount

def parseReadDiscreteInputsResponse (data : List UInt8) (quantity : Quantity) :
    Except (Fault Err) (List Bool) := parseBitResponse data quantity

def generateReadHoldingRegistersRequest (address : Address) (quantity : Quantity) :
    Except (Fault Err) (List UInt8) := generateReadRequest address quantity maxRegisterCount

def parseReadHoldingRegistersResponse (data : List UInt8) (quantity : Quantity) :
    Except (Fault Err) (List UInt16) := parseRegisterResponse data quantity

def generateReadInputRegistersRequest (address : Address) (quantity : Quantity) :
    Except (Fault Err) (List UInt8) := generateReadRequest address quantity maxRegisterCount

def parseReadInputRegistersResponse (data : List UInt8) (quantity : Quantity) :
    Except (Fault Err) (List UInt16) := parseRegisterResponse data quantity

/-! ### Writes -/

/-- `GenerateWriteSingleCoilRequest`. -/
def generateWriteSingleCoilRequest (address : Address) (value : Bool) :
    Except (Fault Err) (List UInt8) := do
  let data ← putUint16At (List.replicate 4 0) 0 address
  putUint16At data 2 (if value then coilOnU16 else coilOffU16)

/-- `ParseWriteSingleCoilResponse`. -/
def parseWriteSingleCoilResponse (data : List UInt8) : Except (Fault Err) (Address × Bool) :=
  if data.length ≠ 4 then .error (.error .invalidResponseLength)
  else do
    let address ← uint16At data 0
    let value ← uint16At data 2
    if value = coilOnU16 then return (address, true)
    else if value = coilOffU16 then return (address, false)
    else .error (.error (.invalidCoilValue value))

/-- `GenerateWriteSingleRegisterRequest`. -/
def generateWriteSingleRegisterRequest (address : Address) (value : UInt16) :
    Except (Fault Err) (List UInt8) := do
  let data ← putUint16At (List.replicate 4 0) 0 address
  putUint16At data 2 value

/-- The two words of a write response of four bytes. -/
def parseWriteResponse (data : List UInt8) : Except (Fault Err) (UInt16 × UInt16) :=
  if data.length ≠ 4 then .error (.error .invalidResponseLength)
  else do
    let address ← uint16At data 0
    let value ← uint16At data 2
    return (address, value)

def parseWriteSingleRegisterResponse (data : List UInt8) : Except (Fault Err) (Address × UInt16) :=
  parseWriteResponse data

/-- `GenerateWriteMultipleCoilsRequest`. -/
def generateWriteMultipleCoilsRequest (address : Address) (values : List Bool) :
    Except (Fault Err) (List UInt8) :=
  if values.length = 0 ∨ values.length > maxWriteCoilCount.toNat then
    .error (.error .invalidQuantity)
  else do
    let count := byteCount values.length
    let data ← putUint16At (List.replicate (5 + count) 0) 0 address
    let data ← putUint16At data 2 (UInt16.ofNat values.length)
    let data ← setAt data 4 (UInt8.ofNat count)
    setBitsAt 5 data 0 values

def parseWriteMultipleCoilsResponse (data : List UInt8) : Except (Fault Err) (Address × Quantity) :=
  parseWriteResponse data

/-- `GenerateWriteMultipleRegistersRequest`. -/
def generateWriteMultipleRegistersRequest (address : Address) (values : List UInt16) :
    Except (Fault Err) (List UInt8) :=
  if values.length = 0 ∨ values.length > maxWriteRegisterCount.toNat then
    .error (.error .invalidQuantity)
  else do
    let count := values.length * 2
    let data ← putUint16At (List.replicate (5 + count) 0) 0 address
    let data ← putUint16At data 2 (UInt16.ofNat values.length)
    let data ← setAt data 4 (UInt8.ofNat count)
    putWords data 5 values

def parseWriteMultipleRegistersResponse (data : List UInt8) :
    Except (Fault Err) (Address × Quantity) := parseWriteResponse data

/-- `GenerateReadWriteMultipleRegistersRequest`. -/
def generateReadWriteMultipleRegistersRequest (readAddress : Address) (readQuantity : Quantity)
    (writeAddress : Address) (writeValues : List UInt16) : Except (Fault Err) (List UInt8) :=
  if readQuantity = 0 ∨ readQuantity > maxReadWriteReadCount then .error (.error .invalidQuantity)
  else if writeValues.length = 0 ∨ writeValues.length > maxReadWriteWriteCount.toNat then
    .error (.error .invalidQuantity)
  else do
    let count := writeValues.length * 2
    let data ← putUint16At (List.replicate (9 + count) 0) 0 readAddress
    let data ← putUint16At data 2 readQuantity
    let data ← putUint16At data 4 writeAddress
    let data ← putUint16At data 6 (UInt16.ofNat writeValues.length)
    let data ← setAt data 8 (UInt8.ofNat count)
    putWords data 9 writeValues

def parseReadWriteMultipleRegistersResponse (data : List UInt8) (readQuantity : Quantity) :
    Except (Fault Err) (List UInt16) := parseReadHoldingRegistersResponse data readQuantity

/-! ### Client operations -/

/-- The errors of a client operation: one of the client or the connection, or an exception. -/
inductive ClientErr
  | err (e : Err)
  | modbus (e : ModbusError)
  deriving DecidableEq, Repr

/-- `Response.GetException`. -/
def Response.getException (r : Response) : ExceptionCode :=
  if r.isException ∧ 0 < r.pdu.data.length then r.pdu.data.getD 0 0 else 0

/-- A failure of the request or response data as a failure of the operation. -/
def liftFault {α : Type} : Except (Fault Err) α → Except (Fault ClientErr) α
  | .ok a => .ok a
  | .error .panic => .error .panic
  | .error (.error e) => .error (.error (.err e))

section Client

variable {σ α : Type} (unitID : UnitID) (transactionID : TransactionID)
  (exchange : Request → σ → Except (Fault ClientErr) Response × σ)

/-- One attempt of `Client.send`. -/
def send (functionCode : FunctionCode) (data : List UInt8) (s : σ) :
    Except (Fault ClientErr) Response × σ :=
  match exchange (newRequest transactionID unitID functionCode data) s with
  | (.error e, s) => (.error e, s)
  | (.ok response, s) =>
    if response.isException then
      (.error (.error (.modbus ⟨response.pdu.functionCode, response.getException⟩)), s)
    else (.ok response, s)

/-- Generate the data, send the request, parse the data of the response. -/
def operation (functionCode : FunctionCode) (generated : Except (Fault Err) (List UInt8))
    (parse : List UInt8 → Except (Fault Err) α) (s : σ) : Except (Fault ClientErr) α × σ :=
  match liftFault generated with
  | .error e => (.error e, s)
  | .ok requestData =>
    match send unitID transactionID exchange functionCode requestData s with
    | (.error e, s) => (.error e, s)
    | (.ok response, s) => (liftFault (parse response.pdu.data), s)

def Client.readCoils (address : Address) (quantity : Quantity) :
    σ → Except (Fault ClientErr) (List Bool) × σ :=
  operation unitID transactionID exchange funcReadCoils
    (generateReadCoilsRequest address quantity) (parseReadCoilsResponse · quantity)

def Client.readDiscreteInputs (address : Address) (quantity : Quantity) :
    σ → Except (Fault ClientErr) (List Bool) × σ :=
  operation unitID transactionID exchange funcReadDiscreteInputs
    (generateReadDiscreteInputsRequest address quantity)
    (parseReadDiscreteInputsResponse · quantity)

def Client.readHoldingRegisters (address : Address) (quantity : Quantity) :
    σ → Except (Fault ClientErr) (List UInt16) × σ :=
  operation unitID transactionID exchange funcReadHoldingRegisters
    (generateReadHoldingRegistersRequest address quantity)
    (parseReadHoldingRegistersResponse · quantity)

def Client.readInputRegisters (address : Address) (quantity : Quantity) :
    σ → Except (Fault ClientErr) (List UInt16) × σ :=
  operation unitID transactionID exchange funcReadInputRegisters
    (generateReadInputRegistersRequest address quantity)
    (parseReadInputRegistersResponse · quantity)

def Client.writeSingleCoil (address : Address) (value : Bool) :
    σ → Except (Fault ClientErr) Unit × σ :=
  operation unitID transactionID exchange funcWriteSingleCoil
    (generateWriteSingleCoilRequest address value)
    (fun data => (parseWriteSingleCoilResponse data).map fun _ => ())

def Client.writeSingleRegister (address : Address) (value : UInt16) :
    σ → Except (Fault ClientErr) Unit × σ :=
  operation unitID transactionID exchange funcWriteSingleRegister
    (generateWriteSingleRegisterRequest address value)
    (fun data => (parseWriteSingleRegisterResponse data).map fun _ => ())

def Client.writeMultipleCoils (address : Address) (values : List Bool) :
    σ → Except (Fault ClientErr) Unit × σ :=
  operation unitID transactionID exchange funcWriteMultipleCoils
    (generateWriteMultipleCoilsRequest address values)
    (fun data => (parseWriteMultipleCoilsResponse data).map fun _ => ())

def Client.writeMultipleRegisters (address : Address) (values : List UInt16) :
    σ → Except (Fault ClientErr) Unit × σ :=
  operation unitID transactionID exchange funcWriteMultipleRegisters
    (generateWriteMultipleRegistersRequest address values)
    (fun data => (parseWriteMultipleRegistersResponse data).map fun _ => ())

def Client.readWriteMultipleRegisters (readAddress : Address) (readQuantity : Quantity)
    (writeAddress : Address) (writeValues : List UInt16) :
    σ → Except (Fault ClientErr) (List UInt16) × σ :=
  operation unitID transactionID exchange funcReadWriteMultipleRegisters
    (generateReadWriteMultipleRegistersRequest readAddress readQuantity writeAddress writeValues)
    (parseReadWriteMultipleRegistersResponse · readQuantity)

variable {unitID transactionID exchange}

/-- An operation whose request is answered without exception returns what the response data is
parsed to. -/
theorem operation_of_answer {functionCode : FunctionCode} {requestData responseData : List UInt8}
    {generated : Except (Fault Err) (List UInt8)} {parse : List UInt8 → Except (Fault Err) α}
    {a : α} {s s' : σ} (hgen : generated = .ok requestData)
    (hfc : isFunctionException functionCode = false)
    (hans : exchange (newRequest transactionID unitID functionCode requestData) s =
      (.ok (newResponse transactionID unitID functionCode responseData), s'))
    (hparse : parse responseData = .ok a) :
    operation unitID transactionID exchange functionCode generated parse s = (.ok a, s') := by
  subst hgen
  have hsend : send unitID transactionID exchange functionCode requestData s =
      (.ok (newResponse transactionID unitID functionCode responseData), s') := by
    rw [send, hans]
    simp [Response.isException, newResponse, hfc]
  simp only [operation, liftFault, hsend]
  simp [newResponse, hparse]

end Client

/-! ### Data of accepted requests -/

theorem putTwoWords (a b : UInt16) :
    (do
      let data ← putUint16At (List.replicate 4 0) 0 a
      putUint16At data 2 b : Except (Fault Err) (List UInt8)) = .ok (putUint16 a ++ putUint16 b) :=
  rfl

theorem generateReadRequest_ok {address : Address} {quantity maxQuantity : Quantity}
    (h0 : quantity ≠ 0) (hmax : quantity ≤ maxQuantity) :
    generateReadRequest address quantity maxQuantity =
      .ok (putUint16 address ++ putUint16 quantity) := by
  rw [generateReadRequest, if_neg (not_or.mpr ⟨h0, UInt16.not_lt.mpr hmax⟩), putTwoWords]

private theorem fillWriteHeader {α : Type} (address : Address) (quantity : Quantity) (count : UInt8)
    (n : ℕ) (k : List UInt8 → Except (Fault Err) α) :
    (do
      let data ← putUint16At (List.replicate (5 + n) 0) 0 address
      let data ← putUint16At data 2 quantity
      let data ← setAt data 4 count
      k data) = k (writeHeader address quantity count ++ List.replicate n 0) := by
  have h₁ : putUint16At (List.replicate (5 + n) 0) 0 address =
      (.ok (putUint16 address ++ List.replicate (n + 3) 0) : Except (Fault Err) _) := by
    rw [Nat.add_comm 5 n]
    exact putUint16At_replicate [] (n + 3) address
  have h₂ : putUint16At (putUint16 address ++ List.replicate (n + 3) 0) 2 quantity =
      (.ok (putUint16 address ++ (putUint16 quantity ++ List.replicate (n + 1) 0)) :
        Except (Fault Err) _) :=
    putUint16At_replicate (putUint16 address) (n + 1) quantity
  have h₃ : setAt (putUint16 address ++ (putUint16 quantity ++ List.replicate (n + 1) 0)) 4 count =
      (.ok (writeHeader address quantity count ++ List.replicate n 0) : Except (Fault Err) _) := by
    have h := setAt_replicate (ε := Err) (putUint16 address ++ putUint16 quantity) n count
    simpa [writeHeader] using h
  simp only [h₁, h₂, h₃, bind, Except.bind]

theorem generateWriteMultipleCoilsRequest_ok {address : Address} {values : List Bool}
    (h0 : values.length ≠ 0) (hmax : values.length ≤ maxWriteCoilCount.toNat) :
    generateWriteMultipleCoilsRequest address values =
      .ok (writeHeader address (UInt16.ofNat values.length)
        (UInt8.ofNat (byteCount values.length)) ++ packBits values) := by
  rw [generateWriteMultipleCoilsRequest, if_neg (by omega), fillWriteHeader]
  refine setBitsAt_append (writeHeader _ _ _) _ 0 values ?_
  simp only [List.length_replicate, byteCount]
  omega

theorem generateWriteMultipleRegistersRequest_ok {address : Address} {values : List UInt16}
    (h0 : values.length ≠ 0) (hmax : values.length ≤ maxWriteRegisterCount.toNat) :
    generateWriteMultipleRegistersRequest address values =
      .ok (writeHeader address (UInt16.ofNat values.length)
        (UInt8.ofNat (values.length * 2)) ++ ofWords values) := by
  rw [generateWriteMultipleRegistersRequest, if_neg (by omega), fillWriteHeader]
  refine putWords_append (writeHeader _ _ _) _ values ?_
  simp only [List.length_replicate]
  omega

theorem generateReadWriteMultipleRegistersRequest_ok {readAddress writeAddress : Address}
    {readQuantity : Quantity} {values : List UInt16} (hr0 : readQuantity ≠ 0)
    (hrmax : readQuantity ≤ maxReadWriteReadCount) (h0 : values.length ≠ 0)
    (hmax : values.length ≤ maxReadWriteWriteCount.toNat) :
    generateReadWriteMultipleRegistersRequest readAddress readQuantity writeAddress values =
      .ok (putUint16 readAddress ++ (putUint16 readQuantity ++
        writeHeader writeAddress (UInt16.ofNat values.length) (UInt8.ofNat (values.length * 2))) ++
        ofWords values) := by
  rw [generateReadWriteMultipleRegistersRequest,
    if_neg (not_or.mpr ⟨hr0, UInt16.not_lt.mpr hrmax⟩), if_neg (by omega)]
  generalize hn : values.length * 2 = n
  have h₁ : putUint16At (List.replicate (9 + n) 0) 0 readAddress =
      (.ok (putUint16 readAddress ++ List.replicate (n + 7) 0) : Except (Fault Err) _) := by
    rw [Nat.add_comm 9 n]
    exact putUint16At_replicate [] (n + 7) readAddress
  have h₂ : putUint16At (putUint16 readAddress ++ List.replicate (n + 7) 0) 2 readQuantity =
      (.ok (putUint16 readAddress ++ (putUint16 readQuantity ++ List.replicate (n + 5) 0)) :
        Except (Fault Err) _) :=
    putUint16At_replicate (putUint16 readAddress) (n + 5) readQuantity
  have h₃ : putUint16At (putUint16 readAddress ++ (putUint16 readQuantity ++
      List.replicate (n + 5) 0)) 4 writeAddress =
      (.ok (putUint16 readAddress ++ (putUint16 readQuantity ++
        (putUint16 writeAddress ++ List.replicate (n + 3) 0))) : Except (Fault Err) _) := by
    have h := putUint16At_replicate (ε := Err) (putUint16 readAddress ++ putUint16 readQuantity)
      (n + 3) writeAddress
    simpa using h
  have h₄ : putUint16At (putUint16 readAddress ++ (putUint16 readQuantity ++
        (putUint16 writeAddress ++ List.replicate (n + 3) 0))) 6 (UInt16.ofNat values.length) =
      (.ok (putUint16 readAddress ++ (putUint16 readQuantity ++ (putUint16 writeAddress ++
        (putUint16 (UInt16.ofNat values.length) ++ List.replicate (n + 1) 0)))) :
        Except (Fault Err) _) := by
    have h := putUint16At_replicate (ε := Err) (putUint16 readAddress ++ (putUint16 readQuantity ++
      putUint16 writeAddress)) (n + 1) (UInt16.ofNat values.length)
    simpa using h
  have h₅ : setAt (putUint16 readAddress ++ (putUint16 readQuantity ++ (putUint16 writeAddress ++
        (putUint16 (UInt16.ofNat values.length) ++ List.replicate (n + 1) 0)))) 8 (UInt8.ofNat n) =
      (.ok (putUint16 readAddress ++ (putUint16 readQuantity ++ writeHeader writeAddress
        (UInt16.ofNat values.length) (UInt8.ofNat n)) ++ List.replicate n 0) :
        Except (Fault Err) _) := by
    have h := setAt_replicate (ε := Err) (putUint16 readAddress ++ (putUint16 readQuantity ++
      (putUint16 writeAddress ++ putUint16 (UInt16.ofNat values.length)))) n (UInt8.ofNat n)
    simpa [writeHeader] using h
  simp only [h₁, h₂, h₃, h₄, h₅, bind, Except.bind]
  refine putWords_append (putUint16 readAddress ++ (putUint16 readQuantity ++
    writeHeader _ _ _)) _ values ?_
  simp only [List.length_replicate]
  omega

/-! ### Well-formed response data -/

theorem map_testBit_packBits (vs : List Bool) :
    (List.range vs.length).map (testBit (packBits vs)) = vs := by
  refine List.ext_getElem (by simp) fun i h₁ h₂ => ?_
  simp [testBit_packBits, List.getD_eq_getElem?_getD, h₂]

theorem parseBitResponse_packBits {vs : List Bool} {quantity : Quantity}
    (hlen : vs.length = quantity.toNat) (hcount : byteCount quantity.toNat < 256) :
    parseBitResponse (UInt8.ofNat (byteCount quantity.toNat) :: packBits vs) quantity = .ok vs := by
  have hnat : (UInt8.ofNat (byteCount quantity.toNat)).toNat = byteCount quantity.toNat :=
    Nat.mod_eq_of_lt hcount
  have hindex := index_append (ε := Err) [] (UInt8.ofNat (byteCount quantity.toNat)) (packBits vs)
  have hbits := readBits_eq (ε := Err) shiftTest_eq_testBit
    [UInt8.ofNat (byteCount quantity.toNat)] (packBits vs) quantity.toNat
    (by rw [length_packBits, hlen, byteCount]; omega)
  rw [← hlen, map_testBit_packBits, hlen] at hbits
  simp only [List.nil_append, List.length_nil] at hindex
  rw [parseBitResponse, if_neg (by simp), hindex]
  simp only [bind, Except.bind, List.length_cons, length_packBits, hlen, hnat, ne_eq,
    not_true_eq_false, if_false]
  exact hbits

theorem parseRegisterResponse_ofWords {ws : List UInt16} {quantity : Quantity}
    (hlen : ws.length = quantity.toNat) (hcount : quantity.toNat * 2 < 256) :
    parseRegisterResponse (UInt8.ofNat (ws.length * 2) :: ofWords ws) quantity = .ok ws := by
  have hnat : (UInt8.ofNat (ws.length * 2)).toNat = ws.length * 2 := Nat.mod_eq_of_lt (by omega)
  have hindex := index_append (ε := Err) [] (UInt8.ofNat (ws.length * 2)) (ofWords ws)
  have hwords := readWords_eq (ε := Err) [UInt8.ofNat (ws.length * 2)] (ofWords ws)
    quantity.toNat (by simp [hlen])
  rw [toWords_ofWords] at hwords
  simp only [List.nil_append, List.length_nil] at hindex
  rw [parseRegisterResponse, if_neg (by simp), hindex]
  simp only [bind, Except.bind, List.length_cons, length_ofWords, hnat, ne_eq]
  rw [if_neg (by omega), if_neg (by omega)]
  exact hwords

theorem parseWriteResponse_words (a b : UInt16) :
    parseWriteResponse (putUint16 a ++ putUint16 b) = .ok (a, b) := by
  have h₁ := uint16At_append (ε := Err) [] a (putUint16 b)
  have h₂ := uint16At_append (ε := Err) (putUint16 a) b []
  simp only [List.nil_append, List.length_nil, List.append_nil, length_putUint16] at h₁ h₂
  rw [parseWriteResponse, if_neg (by simp), h₁]
  simp only [bind, Except.bind, h₂]
  rfl

theorem parseWriteSingleCoilResponse_words (a : Address) (value : Bool) :
    parseWriteSingleCoilResponse
      (putUint16 a ++ putUint16 (if value then coilOnU16 else coilOffU16)) = .ok (a, value) := by
  have h₁ := uint16At_append (ε := Err) [] a (putUint16 (if value then coilOnU16 else coilOffU16))
  have h₂ := uint16At_append (ε := Err) (putUint16 a) (if value then coilOnU16 else coilOffU16) []
  simp only [List.nil_append, List.length_nil, List.append_nil, length_putUint16] at h₁ h₂
  rw [parseWriteSingleCoilResponse, if_neg (by simp), h₁]
  simp only [bind, Except.bind, h₂]
  cases value <;> rfl

end GoIndustrial.Modbus
