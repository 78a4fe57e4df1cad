import GoIndustrial.Lib.BitPacking
import GoIndustrial.Lib.TimedStream

/-!
# Modbus TCP data model

The types and constants of `protocol/modbus/types.go`, the frames of `mbap.go`, `pdu.go`,
`request.go` and `response.go`, and the errors of `errors.go` that the modelled functions return.

A frame on the wire is the seven byte MBAP header (transaction ID, protocol ID, a length that counts
the unit ID and the PDU, unit ID) followed by the PDU (function code and data).

## Main definitions

* `Modbus.Request`, `Modbus.Response` and their `encode`.
* `Modbus.Header` : the header fields as a read loop parses them from seven bytes.
* `Modbus.writeHeader` : the fields in front of the values of a write of several cells.

## Main results

* `Modbus.Header.ofBytes_encode` : the fields of an encoded header are read back, the length modulo
  `2^16`.
* `Modbus.Header.encode_ofBytes` : seven bytes are the encoding of the fields read from them.
* `Modbus.readFull_of_quiet_frame` : a frame that arrives undisturbed is read whole.
-/

namespace GoIndustrial.Modbus

open BitPacking TimedStream

/-! ### Scalar types and constants -/

/-- Correlates requests with responses in the MBAP header. -/
abbrev TransactionID := UInt16

/-- The protocol identifier field of the MBAP header. -/
abbrev ProtocolID := UInt16

/-- The unit (slave) identifier of the MBAP header. -/
abbrev UnitID := UInt8

/-- The operation to perform; the high bit marks an exception response. -/
abbrev FunctionCode := UInt8

/-- Why the server could not process a request. -/
abbrev ExceptionCode := UInt8

/-- A data address, 0 to 65535. -/
abbrev Address := UInt16

/-- A number of coils or registers. -/
abbrev Quantity := UInt16

def funcReadCoils : FunctionCode := 0x01
def funcReadDiscreteInputs : FunctionCode := 0x02
def funcReadHoldingRegisters : FunctionCode := 0x03
def funcReadInputRegisters : FunctionCode := 0x04
def funcWriteSingleCoil : FunctionCode := 0x05
def funcWriteSingleRegister : FunctionCode := 0x06
def funcWriteMultipleCoils : FunctionCode := 0x0F
def funcWriteMultipleRegisters : FunctionCode := 0x10
def funcReadWriteMultipleRegisters : FunctionCode := 0x17
def funcReadDeviceIdentification : FunctionCode := 0x2B

def exceptionFunctionCodeNotSupported : ExceptionCode := 0x01
def exceptionInvalidDataValue : ExceptionCode := 0x03
def exceptionServerDeviceFailure : ExceptionCode := 0x04

/-- The MBAP header size in bytes. -/
def tcpHeaderLength : ℕ := 7

def maxCoilCount : Quantity := 2000
def maxWriteCoilCount : Quantity := 1968
def maxRegisterCount : Quantity := 125
def maxWriteRegisterCount : Quantity := 123
def maxReadWriteReadCount : Quantity := 125
def maxReadWriteWriteCount : Quantity := 121

/-- The wire encoding of a coil that is ON. -/
def coilOnU16 : UInt16 := 0xFF00

/-- The wire encoding of a coil that is OFF. -/
def coilOffU16 : UInt16 := 0x0000

def tcpProtocolIdentifier : ProtocolID := 0

/-- The bit that marks a function code as an exception. -/
def exceptionBit : UInt8 := 0x80

/-- `IsFunctionException`. -/
def isFunctionException (functionCode : FunctionCode) : Bool := functionCode &&& exceptionBit != 0

/-! ### Errors -/

/-- The error values of the client, the server and the connection. -/
inductive Err
  | notConnected
  | alreadyConnected
  | invalidQuantity
  | invalidResponseLength
  | invalidProtocolHeader
  | emptyResponse
  | transactionTimeout
  | transportClosing
  /-- `invalid coil value: %d`. -/
  | invalidCoilValue (value : UInt16)
  /-- `transaction pool is closed`. -/
  | poolClosed
  /-- `transaction pool is full (no free IDs after 16 attempts)`. -/
  | poolFull
  /-- The error of a read or write on the socket. -/
  | io
  /-- The error of an expired or cancelled context. -/
  | contextDone
  deriving DecidableEq, Repr

/-- A protocol-level exception of the server. -/
structure ModbusError where
  functionCode : FunctionCode
  exceptionCode : ExceptionCode
  deriving DecidableEq, Repr

/-! ### Frames -/

/-- The MBAP header without its length field. -/
structure MBAP where
  transactionID : TransactionID
  protocolID : ProtocolID
  unitID : UnitID
  deriving DecidableEq, Repr

/-- A function code and the data that belongs to it. -/
structure PDU where
  functionCode : FunctionCode
  data : List UInt8
  deriving DecidableEq, Repr

structure Request extends MBAP where
  pdu : PDU
  deriving DecidableEq, Repr

structure Response extends MBAP where
  pdu : PDU
  deriving DecidableEq, Repr

/-- `MBAP.Encode`: the length field counts the unit ID and the `pduLength` bytes behind it, cut to
16 bits. -/
def MBAP.encode (m : MBAP) (pduLength : ℕ) : List UInt8 :=
  putUint16 m.transactionID ++ putUint16 m.protocolID ++
    putUint16 (UInt16.ofNat (1 + pduLength)) ++ [m.unitID]

/-- `NewRequest`, followed by `SetTransactionID`. -/
def newRequest (transactionID : TransactionID) (unitID : UnitID) (functionCode : FunctionCode)
    (data : List UInt8) : Request where
  transactionID := transactionID
  protocolID := tcpProtocolIdentifier
  unitID := unitID
  pdu := ⟨functionCode, data⟩

/-- `NewResponse`. -/
def newResponse (transactionID : TransactionID) (unitID : UnitID) (functionCode : FunctionCode)
    (data : List UInt8) : Response where
  transactionID := transactionID
  protocolID := tcpProtocolIdentifier
  unitID := unitID
  pdu := ⟨functionCode, data⟩

/-- `Request.Encode`. -/
def Request.encode (r : Request) : List UInt8 :=
  r.toMBAP.encode (1 + r.pdu.data.length) ++ r.pdu.functionCode :: r.pdu.data

/-- `Response.Encode`. -/
def Response.encode (r : Response) : List UInt8 :=
  r.toMBAP.encode (1 + r.pdu.data.length) ++ r.pdu.functionCode :: r.pdu.data

/-- `Response.IsException`. -/
def Response.isException (r : Response) : Bool := isFunctionException r.pdu.functionCode

/-- The header fields that a read loop takes from seven bytes. -/
structure Header where
  transactionID : TransactionID
  protocolID : ProtocolID
  length : UInt16
  unitID : UnitID
  deriving DecidableEq, Repr

/-- The fields of the seven header bytes `h`. -/
def Header.ofBytes (h : List UInt8) : Header where
  transactionID := uint16 (h.getD 0 0) (h.getD 1 0)
  protocolID := uint16 (h.getD 2 0) (h.getD 3 0)
  length := uint16 (h.getD 4 0) (h.getD 5 0)
  unitID := h.getD 6 0

/-- The fields in front of the values of a write of several cells. -/
def writeHeader (address : Address) (quantity : Quantity) (count : UInt8) : List UInt8 :=
  putUint16 address ++ (putUint16 quantity ++ [count])

@[simp] theorem length_writeHeader (address : Address) (quantity : Quantity) (count : UInt8) :
    (writeHeader address quantity count).length = 5 := rfl

@[simp] theorem MBAP.length_encode (m : MBAP) (n : ℕ) :
    (m.encode n).length = tcpHeaderLength := rfl

@[simp] theorem Request.length_encode (r : Request) :
    r.encode.length = 8 + r.pdu.data.length := by
  simp [Request.encode, tcpHeaderLength]
  omega

@[simp] theorem Response.length_encode (r : Response) :
    r.encode.length = 8 + r.pdu.data.length := by
  simp [Response.encode, tcpHeaderLength]
  omega

/-- An encoded header is read back, with the length field cut to 16 bits. -/
@[simp] theorem Header.ofBytes_encode (m : MBAP) (n : ℕ) :
    Header.ofBytes (m.encode n) =
      ⟨m.transactionID, m.protocolID, UInt16.ofNat (1 + n), m.unitID⟩ := by
  simp only [Header.ofBytes, MBAP.encode, putUint16, List.cons_append, List.nil_append,
    List.getD_cons_zero, List.getD_cons_succ, uint16_putUint16]

/-- Seven bytes are the encoding of the header fields read from them. -/
theorem Header.encode_ofBytes {h : List UInt8} (hlen : h.length = tcpHeaderLength) {n : ℕ}
    (hn : (Header.ofBytes h).length = UInt16.ofNat (1 + n)) :
    (MBAP.mk (ofBytes h).transactionID (ofBytes h).protocolID (ofBytes h).unitID).encode n = h := by
  match h, hlen with
  | [a, b, c, d, e, f, g], _ =>
    rw [MBAP.encode, ← hn]
    simp only [Header.ofBytes, List.getD_cons_zero, List.getD_cons_succ, putUint16_uint16]
    rfl

/-- A header whose length field counts the bytes of `body`, and the body, are the encoding of the
frame that a read loop builds from them. -/
theorem Header.encode_append_body {h body : List UInt8} (hlen : h.length = tcpHeaderLength)
    (hp : (ofBytes h).protocolID = tcpProtocolIdentifier) (h2 : 2 ≤ (ofBytes h).length.toNat)
    (hbody : body.length = (ofBytes h).length.toNat - 1) :
    (MBAP.mk (ofBytes h).transactionID tcpProtocolIdentifier (ofBytes h).unitID).encode
        (1 + (body.drop 1).length) ++ body.getD 0 0 :: body.drop 1 = h ++ body := by
  have hcons : body.getD 0 0 :: body.drop 1 = body := by
    cases body with
    | nil => simp at hbody; omega
    | cons c cs => rfl
  rw [← hp, encode_ofBytes hlen, hcons]
  rw [List.length_drop, hbody, ← UInt16.toNat_inj, UInt16.toNat_ofNat']
  have := (ofBytes h).length.toNat_lt
  omega

/-- The header and the body of a frame that arrives undisturbed are read one after the other. -/
theorem readFull_of_quiet_frame {arr : List Arrival} (m : MBAP) (body tail : List UInt8)
    (hb : bytes arr = m.encode body.length ++ body ++ tail)
    (hexp : ∀ o ∈ expiries arr, tcpHeaderLength + body.length ≤ o) (hfail : .failure ∉ arr) :
    ∃ rest rest', readFull tcpHeaderLength arr = .full (m.encode body.length) rest ∧
      readFull body.length rest = .full body rest' ∧ bytes rest' = tail ∧
      expiries arr = (expiries rest').map (· + (tcpHeaderLength + body.length)) ∧
      .failure ∉ rest' := by
  rw [List.append_assoc] at hb
  have hlen : (bytes arr).length = tcpHeaderLength + (body.length + tail.length) := by
    rw [hb, List.length_append, List.length_append, MBAP.length_encode]
  obtain ⟨rest, hread, hb₁, he₁, hf₁⟩ := readFull_of_quiet (n := tcpHeaderLength) (by omega)
    (fun o ho => by have := hexp o ho; omega) hfail
  have hrest : bytes rest = body ++ tail := by
    rw [hb₁, hb]
    exact List.drop_left' (MBAP.length_encode _ _)
  obtain ⟨rest', hread', hb₂, he₂, hf₂⟩ := readFull_of_quiet (n := body.length)
    (by simp [hrest])
    (fun o ho => by
      have := hexp (o + tcpHeaderLength) (by rw [he₁]; exact List.mem_map_of_mem ho)
      omega) hf₁
  refine ⟨rest, rest', ?_, ?_, ?_, ?_, hf₂⟩
  · rw [hread, hb, List.take_left' (MBAP.length_encode _ _)]
  · rw [hread', hrest, List.take_left]
  · rw [hb₂, hrest, List.drop_left]
  · rw [he₁, he₂, List.map_map]
    exact List.map_congr_left fun k _ => by simp only [Function.comp_apply]; omega

end GoIndustrial.Modbus
