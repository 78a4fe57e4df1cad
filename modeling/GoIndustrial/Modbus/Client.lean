import GoIndustrial.Lib.Retry
import GoIndustrial.Lib.SafeCode
import GoIndustrial.Modbus.Device
import Mathlib.Data.Int.Notation

/-!
# The client's retries and the answers it believes

`Client.send` of `protocol/modbus/client.go` with its retry loop, and the nine operations of the
client over it. An operation generates the data of its request, sends the request until an attempt
decides, and parses the data of the response; what it does for one response is what the methods of
`GoIndustrial.Modbus.Protocol` do (`Modbus.call_of_answered`).

The response is the peer's, and any response with the transaction ID of the request is handed to the
operation. Neither `send` nor the operations compare its function code, and the write operations
drop the address and the value or quantity that they parse.

## Main definitions

* `Modbus.Client.call` : an operation with retries, over arbitrary outcomes of the attempts.
* `Modbus.Op.WellFormed` : response data of the format that the operation parses.
* `Modbus.Op.Matches` : the response is an answer to the operation.
* `Modbus.Answered` : the response that decides a call.

## Main results

* `Modbus.call_ok_iff` : when a call succeeds.
* `Modbus.believes_iff` : only matching answers are believed, if and only if the peer gives no other
  answer of the right format.
* `Modbus.writeSingleRegister_believes_read` : a write that succeeds on the answer to a read.
-/

namespace GoIndustrial.Modbus

open BitPacking GoSlice Retry

/-! ### Operations with retries -/

/-- The errors of an operation: one of the client or an exception, or that of the last attempt. -/
inductive CallErr
  | client (e : ClientErr)
  /-- `modbus: all %d attempts failed: %w`. -/
  | attemptsFailed (attempts : ℤ) (last : Option Err)
  deriving DecidableEq, Repr

/-- An error in the request or response data as an error of the operation. -/
def liftCall {α : Type} : Except (Fault Err) α → Except (Fault CallErr) α
  | .ok a => .ok a
  | .error .panic => .error .panic
  | .error (.error e) => .error (.error (.client (.err e)))

namespace Op

def functionCode (o : Op) : FunctionCode := o.command.functionCode

/-- The data of the request. -/
def generate : Op → Except (Fault Err) (List UInt8)
  | readCoils a q => generateReadCoilsRequest a q
  | readDiscreteInputs a q => generateReadDiscreteInputsRequest a q
  | readHoldingRegisters a q => generateReadHoldingRegistersRequest a q
  | readInputRegisters a q => generateReadInputRegistersRequest a q
  | writeSingleCoil a v => generateWriteSingleCoilRequest a v
  | writeSingleRegister a v => generateWriteSingleRegisterRequest a v
  | writeMultipleCoils a vs => generateWriteMultipleCoilsRequest a vs
  | writeMultipleRegisters a vs => generateWriteMultipleRegistersRequest a vs
  | readWriteMultipleRegisters ra rq wa vs => generateReadWriteMultipleRegistersRequest ra rq wa vs

/-- What the operation makes of the data of the response. -/
def parse : Op → List UInt8 → Except (Fault Err) Result
  | readCoils _ q, data => (parseReadCoilsResponse data q).map .bits
  | readDiscreteInputs _ q, data => (parseReadDiscreteInputsResponse data q).map .bits
  | readHoldingRegisters _ q, data => (parseReadHoldingRegistersResponse data q).map .registers
  | readInputRegisters _ q, data => (parseReadInputRegistersResponse data q).map .registers
  | writeSingleCoil _ _, data => (parseWriteSingleCoilResponse data).map fun _ => .done
  | writeSingleRegister _ _, data => (parseWriteSingleRegisterResponse data).map fun _ => .done
  | writeMultipleCoils _ _, data => (parseWriteMultipleCoilsResponse data).map fun _ => .done
  | writeMultipleRegisters _ _, data =>
    (parseWriteMultipleRegistersResponse data).map fun _ => .done
  | readWriteMultipleRegisters _ rq _ _, data =>
    (parseReadWriteMultipleRegistersResponse data rq).map .registers

end Op

section Call

variable (retries : ℤ) (unitID : UnitID)
  (outcome : Request → ℕ → Attempt Response ModbusError Err)

/-- `Client.send`. -/
def Client.send (functionCode : FunctionCode) (data : List UInt8) :
    Except (Fault CallErr) Response :=
  let request := newRequest 0 unitID functionCode data
  let attempts := 1 + retries
  match (retry (outcome request) attempts.toNat 0 none).ending with
  | .done response =>
    if response.isException then
      .error (.error (.client (.modbus ⟨response.pdu.functionCode, response.getException⟩)))
    else .ok response
  | .refused e => .error (.error (.client (.modbus e)))
  | .exhausted last => .error (.error (.attemptsFailed attempts last))

/-- An operation of the client. -/
def Client.call (o : Op) : Except (Fault CallErr) Result := do
  let requestData ← liftCall o.generate
  let response ← Client.send retries unitID outcome o.functionCode requestData
  liftCall (o.parse response.pdu.data)

/-- The call is decided by the response `r`. -/
def Answered (o : Op) (r : Response) : Prop :=
  ∃ data, o.generate = .ok data ∧ ∃ k < (1 + retries).toNat,
    Decides (outcome (newRequest 0 unitID o.functionCode data)) k (.done r)

variable {retries unitID outcome}

theorem liftCall_eq_ok {α : Type} {m : Except (Fault Err) α} {a : α} :
    liftCall m = .ok a ↔ m = .ok a := by
  match m with
  | .ok b => simp [liftCall]
  | .error .panic => simp [liftCall]
  | .error (.error e) => simp [liftCall]

theorem send_eq_ok {functionCode : FunctionCode} {data : List UInt8} {r : Response} :
    Client.send retries unitID outcome functionCode data = .ok r ↔
      r.isException = false ∧ ∃ k < (1 + retries).toNat,
        Decides (outcome (newRequest 0 unitID functionCode data)) k (.done r) := by
  rw [← retry_done_iff, Client.send]
  cases (retry (outcome (newRequest 0 unitID functionCode data)) (1 + retries).toNat 0
      none).ending with
  | done response =>
    by_cases h : response.isException = true
    · simp only [h, if_true, reduceCtorEq, Ending.done.injEq, false_iff]
      rintro ⟨hr, rfl⟩
      rw [h] at hr
      cases hr
    · simp only [h, Bool.false_eq_true, if_false, Except.ok.injEq, Ending.done.injEq]
      constructor
      · rintro rfl
        exact ⟨by simpa using h, rfl⟩
      · exact And.right
  | refused e => simp
  | exhausted last => simp

/-- **When a call succeeds**: a response decides it, which is no exception and can be parsed. -/
theorem call_ok_iff {o : Op} {result : Result} :
    Client.call retries unitID outcome o = .ok result ↔
      ∃ r, Answered retries unitID outcome o r ∧ r.isException = false ∧
        o.parse r.pdu.data = .ok result := by
  simp only [Client.call, bind_eq_ok, liftCall_eq_ok, send_eq_ok, Answered]
  constructor
  · rintro ⟨data, hdata, r, ⟨hr, hk⟩, hparse⟩
    exact ⟨r, ⟨data, hdata, hk⟩, hr, hparse⟩
  · rintro ⟨r, ⟨data, hdata, hk⟩, hr, hparse⟩
    exact ⟨data, hdata, r, ⟨hr, hk⟩, hparse⟩

/-- Only one response decides a call. -/
theorem Answered.unique {o : Op} {r r' : Response} (h : Answered retries unitID outcome o r)
    (h' : Answered retries unitID outcome o r') : r = r' := by
  obtain ⟨data, hdata, k, -, hd⟩ := h
  obtain ⟨data', hdata', k', -, hd'⟩ := h'
  obtain rfl : data = data' := Except.ok.inj (hdata.symm.trans hdata')
  exact Attempt.done.inj (hd.unique hd').2

end Call

/-! ### One answer -/

section Answer

variable {σ α β : Type} {unitID : UnitID} {transactionID : TransactionID}

private theorem liftFault_eq_ok {m : Except (Fault Err) α} {a : α} :
    liftFault m = .ok a ↔ m = .ok a := by
  match m with
  | .ok b => simp [liftFault]
  | .error .panic => simp [liftFault]
  | .error (.error e) => simp [liftFault]

/-- An operation whose peer answers every request by `r`. -/
private theorem operation_answered {functionCode : FunctionCode}
    {generated : Except (Fault Err) (List UInt8)} {parse : List UInt8 → Except (Fault Err) α}
    {r : Response} {s : σ} {a : α} :
    (operation unitID transactionID (fun _ s => (.ok r, s)) functionCode generated parse s).1 =
      .ok a ↔ (∃ data, generated = .ok data) ∧ r.isException = false ∧
        parse r.pdu.data = .ok a := by
  match generated with
  | .error .panic => simp [operation, liftFault]
  | .error (.error e) => simp [operation, liftFault]
  | .ok data =>
    cases h : r.isException with
    | true => simp [operation, liftFault, Modbus.send, h]
    | false =>
      rw [← liftFault_eq_ok (m := parse r.pdu.data)]
      simp [operation, liftFault, Modbus.send, h]

private theorem map_operation_answered {functionCode : FunctionCode}
    {generated : Except (Fault Err) (List UInt8)} {parse : List UInt8 → Except (Fault Err) α}
    {f : α → β} {r : Response} {s : σ} {b : β} :
    ((operation unitID transactionID (fun _ s => (.ok r, s)) functionCode generated parse s).map
      (·.map f) id).1 = .ok b ↔ (∃ data, generated = .ok data) ∧ r.isException = false ∧
        (parse r.pdu.data).map f = .ok b := by
  simp only [Prod.map_fst, map_eq_ok, operation_answered]
  tauto

private theorem perform_answered {o : Op} {r : Response} {s : σ} {result : Result} :
    (Client.perform unitID transactionID (fun _ s => (.ok r, s)) s o).1 = .ok result ↔
      (∃ data, o.generate = .ok data) ∧ r.isException = false ∧
        o.parse r.pdu.data = .ok result := by
  -- The write methods drop what they have parsed before the result is made.
  have hdrop : ∀ m : Except (Fault Err) (UInt16 × UInt16),
      (m.map fun _ => ()).map (fun _ => Result.done) = m.map fun _ => .done := by
    intro m
    cases m <;> rfl
  have hdropCoil : ∀ m : Except (Fault Err) (Address × Bool),
      (m.map fun _ => ()).map (fun _ => Result.done) = m.map fun _ => .done := by
    intro m
    cases m <;> rfl
  cases o with
  | readCoils a q | readDiscreteInputs a q | readHoldingRegisters a q | readInputRegisters a q
  | readWriteMultipleRegisters ra q wa vs => exact map_operation_answered
  | writeSingleCoil a v => exact map_operation_answered.trans (by rw [hdropCoil]; rfl)
  | writeSingleRegister a v | writeMultipleCoils a vs | writeMultipleRegisters a vs =>
    exact map_operation_answered.trans (by rw [hdrop]; rfl)

/-- What a call does for the response that decides it is what the method does for that response. -/
theorem call_of_answered {retries : ℤ} {outcome : Request → ℕ → Attempt Response ModbusError Err}
    {o : Op} {r : Response} (h : Answered retries unitID outcome o r) (s : σ) (result : Result) :
    Client.call retries unitID outcome o = .ok result ↔
      (Client.perform unitID transactionID (fun _ s => (.ok r, s)) s o).1 = .ok result := by
  rw [call_ok_iff, perform_answered]
  constructor
  · rintro ⟨r', h', hr, hparse⟩
    obtain rfl := h.unique h'
    obtain ⟨data, hdata, -⟩ := h
    exact ⟨⟨data, hdata⟩, hr, hparse⟩
  · rintro ⟨-, hr, hparse⟩
    exact ⟨r, h, hr, hparse⟩

end Answer

/-! ### Answers that match -/

/-- The data is a byte count of `n` and as many bytes. -/
def HoldsBytes (data : List UInt8) (n : ℕ) : Prop :=
  ∃ count payload, data = count :: payload ∧ count.toNat = n ∧ payload.length = n

namespace Op

/-- The number of bytes that the requested quantity takes in the answer to a read. -/
def payload : Op → Option ℕ
  | readCoils _ q | readDiscreteInputs _ q => some (byteCount q.toNat)
  | readHoldingRegisters _ q | readInputRegisters _ q | readWriteMultipleRegisters _ q _ _ =>
    some (q.toNat * 2)
  | writeSingleCoil _ _ | writeSingleRegister _ _ | writeMultipleCoils _ _
  | writeMultipleRegisters _ _ => none

/-- The address and the value or quantity of a write, which its answer repeats. -/
def echo : Op → Option (UInt16 × UInt16)
  | writeSingleCoil a v => some (a, if v then coilOnU16 else coilOffU16)
  | writeSingleRegister a v => some (a, v)
  | writeMultipleCoils a vs => some (a, UInt16.ofNat vs.length)
  | writeMultipleRegisters a vs => some (a, UInt16.ofNat vs.length)
  | readCoils _ _ | readDiscreteInputs _ _ | readHoldingRegisters _ _ | readInputRegisters _ _
  | readWriteMultipleRegisters _ _ _ _ => none

/-- The response is an answer to the operation. -/
structure Matches (o : Op) (r : Response) : Prop where
  functionCode : r.pdu.functionCode = o.functionCode
  echo : ∀ a x, o.echo = some (a, x) → r.pdu.data = putUint16 a ++ putUint16 x
  payload : ∀ n, o.payload = some n → HoldsBytes r.pdu.data n

/-- Response data of the format that the operation expects, whatever the address and the values in
it. -/
def WellFormed : Op → List UInt8 → Prop
  | readCoils _ q, data | readDiscreteInputs _ q, data => HoldsBytes data (byteCount q.toNat)
  | readHoldingRegisters _ q, data | readInputRegisters _ q, data
  | readWriteMultipleRegisters _ q _ _, data => HoldsBytes data (q.toNat * 2)
  | writeSingleCoil _ _, data =>
    ∃ (a : Address) (v : Bool),
      data = putUint16 a ++ putUint16 (if v then coilOnU16 else coilOffU16)
  | writeSingleRegister _ _, data | writeMultipleCoils _ _, data
  | writeMultipleRegisters _ _, data => data.length = 4

end Op

/-- The checks of both read parsers: the byte count is `n`, and as many bytes follow. -/
private theorem parseCounted_ok_iff {α : Type} {data : List UInt8} {n : ℕ}
    {read : Except (Fault Err) α} (hread : data.length = n + 1 → ∃ a, read = .ok a) :
    (∃ a, (if data.length = 0 then .error (.error Err.emptyResponse)
      else do
        let count ← index data 0
        if data.length ≠ count.toNat + 1 then .error (.error .invalidResponseLength)
        else if count.toNat ≠ n then .error (.error .invalidResponseLength)
        else read) = Except.ok a) ↔ HoldsBytes data n := by
  match data with
  | [] => simp [HoldsBytes]
  | count :: payload =>
    have hindex : index (ε := Err) (count :: payload) 0 = .ok count := rfl
    rw [if_neg (by simp), hindex]
    simp only [bind, Except.bind, HoldsBytes]
    constructor
    · rintro ⟨a, ha⟩
      split_ifs at ha with hlen hcount
      simp only [List.length_cons, ne_eq, Nat.add_right_cancel_iff, not_not] at hlen
      exact ⟨count, payload, rfl, not_not.mp hcount, by omega⟩
    · rintro ⟨c, p, hcons, hcount, hlen⟩
      obtain ⟨rfl, rfl⟩ := List.cons.inj hcons
      rw [if_neg (by simp; omega), if_neg (not_not.mpr hcount)]
      exact hread (by simp [hlen])

theorem parseBitResponse_ok_iff {data : List UInt8} {q : Quantity} :
    (∃ vs, parseBitResponse data q = .ok vs) ↔ HoldsBytes data (byteCount q.toNat) := by
  refine parseCounted_ok_iff fun hlen => (safe_readBits (E := fun _ => False) ?_).exists_ok
  rw [hlen, byteCount]
  omega

theorem parseRegisterResponse_ok_iff {data : List UInt8} {q : Quantity} :
    (∃ vs, parseRegisterResponse data q = .ok vs) ↔ HoldsBytes data (q.toNat * 2) := by
  refine parseCounted_ok_iff fun hlen => (safe_readWords (E := fun _ => False) ?_).exists_ok
  omega

/-- Four bytes are two words. -/
private theorem eq_words_of_length {data : List UInt8} (h : data.length = 4) :
    ∃ a b, data = putUint16 a ++ putUint16 b := by
  match data, h with
  | [b₀, b₁, b₂, b₃], _ =>
    exact ⟨uint16 b₀ b₁, uint16 b₂ b₃, by rw [putUint16_uint16, putUint16_uint16]; rfl⟩

theorem parseWriteResponse_ok_iff {data : List UInt8} :
    (∃ p, parseWriteResponse data = .ok p) ↔ data.length = 4 := by
  constructor
  · rintro ⟨p, hp⟩
    by_contra hlen
    rw [parseWriteResponse, if_pos hlen] at hp
    cases hp
  · intro hlen
    obtain ⟨a, b, rfl⟩ := eq_words_of_length hlen
    exact ⟨_, parseWriteResponse_words a b⟩

theorem parseWriteSingleCoilResponse_ok_iff {data : List UInt8} :
    (∃ p, parseWriteSingleCoilResponse data = .ok p) ↔
      ∃ (a : Address) (v : Bool),
        data = putUint16 a ++ putUint16 (if v then coilOnU16 else coilOffU16) := by
  constructor
  · rintro ⟨p, hp⟩
    by_cases hlen : data.length = 4
    · obtain ⟨a, b, rfl⟩ := eq_words_of_length hlen
      have h₁ := uint16At_append (ε := Err) [] a (putUint16 b)
      have h₂ := uint16At_append (ε := Err) (putUint16 a) b []
      simp only [List.nil_append, List.length_nil, List.append_nil, length_putUint16] at h₁ h₂
      rw [parseWriteSingleCoilResponse, if_neg (not_not.mpr hlen), h₁] at hp
      simp only [bind, Except.bind, h₂] at hp
      split_ifs at hp with hon hoff
      · exact ⟨a, true, by rw [hon]; rfl⟩
      · exact ⟨a, false, by rw [hoff]; rfl⟩
    · rw [parseWriteSingleCoilResponse, if_pos hlen] at hp
      cases hp
  · rintro ⟨a, v, rfl⟩
    exact ⟨_, parseWriteSingleCoilResponse_words a v⟩

private theorem exists_map_ok_iff {α β : Type} {m : Except (Fault Err) α} {f : α → β} :
    (∃ b, m.map f = .ok b) ↔ ∃ a, m = .ok a := by
  simp only [map_eq_ok]
  tauto

theorem Op.parse_ok_iff {o : Op} {data : List UInt8} :
    (∃ result, o.parse data = .ok result) ↔ o.WellFormed data := by
  cases o with
  | readCoils a q | readDiscreteInputs a q => exact exists_map_ok_iff.trans parseBitResponse_ok_iff
  | readHoldingRegisters a q | readInputRegisters a q | readWriteMultipleRegisters ra q wa vs =>
    exact exists_map_ok_iff.trans parseRegisterResponse_ok_iff
  | writeSingleCoil a v => exact exists_map_ok_iff.trans parseWriteSingleCoilResponse_ok_iff
  | writeSingleRegister a v | writeMultipleCoils a vs | writeMultipleRegisters a vs =>
    exact exists_map_ok_iff.trans parseWriteResponse_ok_iff

theorem Op.holdsBytes_of_wellFormed (o : Op) {data : List UInt8} (h : o.WellFormed data) (n : ℕ)
    (hn : o.payload = some n) : HoldsBytes data n := by
  cases o with
  | readCoils a q | readDiscreteInputs a q | readHoldingRegisters a q | readInputRegisters a q
  | readWriteMultipleRegisters ra q wa vs => exact Option.some.inj hn ▸ h
  | writeSingleCoil a v | writeSingleRegister a v | writeMultipleCoils a vs
  | writeMultipleRegisters a vs => cases hn

section Believes

variable (retries : ℤ) (unitID : UnitID)
  (outcome : Request → ℕ → Attempt Response ModbusError Err) (o : Op)

/-- The operation reports success only on a response that is an answer to it. -/
def BelievesOnlyMatching : Prop :=
  ∀ result, Client.call retries unitID outcome o = .ok result →
    ∃ r, Answered retries unitID outcome o r ∧ o.Matches r

/-- **Only matching answers are believed**, if and only if the response that decides the call is an
exception, or not of the format of an answer, or has the function code of the request and repeats
the address and the value or quantity of a write. That a read gets the quantity it asked for needs
no condition. -/
theorem believes_iff :
    BelievesOnlyMatching retries unitID outcome o ↔
      ∀ r, Answered retries unitID outcome o r →
        r.isException = true ∨ ¬ o.WellFormed r.pdu.data ∨
          r.pdu.functionCode = o.functionCode ∧
            ∀ a x, o.echo = some (a, x) → r.pdu.data = putUint16 a ++ putUint16 x := by
  constructor
  · intro h r hr
    by_cases hexc : r.isException = true
    · exact .inl hexc
    by_cases hform : o.WellFormed r.pdu.data
    · obtain ⟨result, hparse⟩ := Op.parse_ok_iff.mpr hform
      obtain ⟨r', hr', hmatch⟩ := h result
        (call_ok_iff.mpr ⟨r, hr, Bool.eq_false_iff.mpr hexc, hparse⟩)
      obtain rfl := hr.unique hr'
      exact .inr (.inr ⟨hmatch.functionCode, hmatch.echo⟩)
    · exact .inr (.inl hform)
  · intro h result hcall
    obtain ⟨r, hr, hexc, hparse⟩ := call_ok_iff.mp hcall
    have hform : o.WellFormed r.pdu.data := Op.parse_ok_iff.mp ⟨result, hparse⟩
    rcases h r hr with h | h | ⟨hfc, hecho⟩
    · rw [hexc] at h
      cases h
    · exact absurd hform h
    · exact ⟨r, hr, hfc, hecho, o.holdsBytes_of_wellFormed hform⟩

end Believes

/-- A write of the value 1 to register 0 succeeds on an answer to a read of holding registers, whose
four bytes name address 5 and value 7. -/
theorem writeSingleRegister_believes_read :
    Client.call 0 9 (fun request _ => .done (newResponse request.transactionID 9
      funcReadHoldingRegisters [0, 5, 0, 7])) (.writeSingleRegister 0 1) = .ok .done ∧
    ¬ BelievesOnlyMatching 0 9 (fun request _ => .done (newResponse request.transactionID 9
      funcReadHoldingRegisters [0, 5, 0, 7])) (.writeSingleRegister 0 1) := by
  refine ⟨rfl, fun h => ?_⟩
  obtain ⟨r, ⟨data, hdata, k, hk, hd⟩, hmatch⟩ := h .done rfl
  obtain rfl := Attempt.done.inj hd.eq
  have hcode : funcReadHoldingRegisters = funcWriteSingleRegister := hmatch.functionCode
  exact absurd hcode (by decide)

end GoIndustrial.Modbus
