import GoIndustrial.Lib.SafeCode
import GoIndustrial.Modbus.ServerLoop

/-!
# Every request is answered

What the default handlers do for a request of any function code and any data, however malformed:
the handler does not index out of range, and the server sends one reply. The reply is a normal
response or a one-byte exception, and a request that is answered by an exception has not changed
the store.

## Main definitions

* `Modbus.Handled` : the outcome of a handler on a store, with the bound on the response.
* `Modbus.Answers` : how a request is answered on a connection.

## Main results

* `Modbus.handled_dispatchOn` : the outcome of every request.
* `Modbus.answers_dispatchOn` : the server's one reply to every request.
-/

namespace GoIndustrial.Modbus

open BitPacking GoSlice TimedStream

/-- The largest number of data bytes of a PDU of 253 bytes. -/
def maxPDUData : ℕ := 252

/-- The error is an exception for the request. -/
def Request.Raises (req : Request) (e : HandlerErr) : Prop :=
  ∃ code, e = .modbus ⟨req.pdu.functionCode, code⟩

theorem Request.raises_exception (req : Request) (code : ExceptionCode) {α : Type} {P : α → Prop} :
    Safe (.error (req.exception code)) P req.Raises := ⟨code, rfl⟩

theorem Request.raises_storeException (req : Request) (err : Err) {α : Type} {P : α → Prop} :
    Safe (.error (req.storeException err)) P req.Raises := by
  unfold storeException
  split_ifs
  · exact req.raises_exception _
  · exact req.raises_exception _

/-- The outcome of a handler on the store `s`: a normal response that fits a PDU, or an exception
that leaves the store as it was. -/
def Handled (req : Request) (s : MemoryStore)
    (out : Except (Fault HandlerErr) Response × MemoryStore) : Prop :=
  Safe out.1 (fun response => ∃ data, response = req.reply data ∧ data.length ≤ maxPDUData)
    fun e => req.Raises e ∧ out.2 = s

section Rules

variable {req : Request} {s : MemoryStore} {α : Type}

theorem handled_reply {data : List UInt8} (h : data.length ≤ maxPDUData) (s' : MemoryStore) :
    Handled req s (.ok (req.reply data), s') := ⟨data, rfl, h⟩

theorem handled_ofParsed {parsed : Except (Fault HandlerErr) α} {k : α → Handling} {Q : α → Prop}
    (h : Safe parsed Q req.Raises)
    (hk : ∀ a, Q a → Handled req s ((k a).run MemoryStore.perform s)) :
    Handled req s ((Handling.ofParsed parsed k).run MemoryStore.perform s) := by
  match parsed, h with
  | .ok a, h => exact hk a h
  | .error (.error e), h => exact ⟨h, rfl⟩

/-- A store call that fails leaves the store as it was. -/
theorem handled_ofCall {c : StoreCall (Except Err α)} {k : α → Handling}
    {exception : Err → Fault HandlerErr}
    (hexc : ∀ err, Safe (.error (exception err)) (fun _ : Response => True) req.Raises)
    (herr : ∀ err, (MemoryStore.perform c s).1 = .error err → (MemoryStore.perform c s).2 = s)
    (hk : ∀ a, (MemoryStore.perform c s).1 = .ok a →
      Handled req s ((k a).run MemoryStore.perform (MemoryStore.perform c s).2)) :
    Handled req s ((Handling.ofCall exception c k).run MemoryStore.perform s) := by
  simp only [Handling.ofCall, CallTree.run_call]
  cases h : (MemoryStore.perform c s).1 with
  | error err =>
    have hraise := hexc err
    simp only [CallTree.run_ret, Handled]
    match exception err, hraise with
    | .error e, hraise => exact ⟨hraise, herr err h⟩
  | ok a => exact hk a h

end Rules

/-! ### The checks of the handlers -/

section Checks

variable (req : Request)

theorem safe_parseReadRequest (maxQuantity : Quantity) :
    Safe (parseReadRequest req maxQuantity) (fun p => p.2 ≤ maxQuantity) req.Raises := by
  refine Safe.ite (fun _ => req.raises_exception _) fun hlen => ?_
  refine (safe_uint16At (by omega)).bind fun address _ => ?_
  refine (safe_uint16At (by omega)).bind fun quantity _ => ?_
  refine Safe.ite (fun _ => req.raises_exception _) fun hq => ?_
  exact UInt16.not_lt.mp fun h => hq (.inr h)

theorem safe_parseWriteSingle :
    Safe (parseWriteSingle req) (fun _ => req.pdu.data.length = 4) req.Raises := by
  refine Safe.ite (fun _ => req.raises_exception _) fun hlen => ?_
  refine (safe_uint16At (by omega)).bind fun address _ => ?_
  refine (safe_uint16At (by omega)).bind fun value _ => ?_
  exact not_not.mp hlen

theorem safe_parseCoilValue (value : UInt16) :
    Safe (parseCoilValue req value) (fun _ => True) req.Raises :=
  Safe.ite (fun _ => trivial) fun _ => Safe.ite (fun _ => trivial) fun _ => req.raises_exception _

theorem safe_parseWriteMultiple {α : Type} (maxQuantity : Quantity) (expectedByteCount : ℕ → ℕ)
    {readValues : List UInt8 → ℕ → Except (Fault HandlerErr) (List α)}
    (hread : ∀ data quantity, data.length = 5 + expectedByteCount quantity →
      Safe (readValues data quantity) (fun _ => True) req.Raises) :
    Safe (parseWriteMultiple req maxQuantity expectedByteCount readValues) (fun _ => True)
      req.Raises := by
  refine Safe.ite (fun _ => req.raises_exception _) fun hlen => ?_
  refine (safe_uint16At (by omega)).bind fun address _ => ?_
  refine (safe_uint16At (by omega)).bind fun quantity _ => ?_
  refine (safe_index (by omega)).bind fun count _ => ?_
  refine Safe.ite (fun _ => req.raises_exception _) fun hcount => ?_
  refine Safe.ite (fun _ => req.raises_exception _) fun _ => ?_
  refine Safe.ite (fun _ => req.raises_exception _) fun hexpected => ?_
  exact (hread _ _ (by omega)).bind fun values _ => trivial

theorem safe_parseReadWriteMultiple :
    Safe (parseReadWriteMultiple req)
      (fun fields => fields.readQuantity ≠ 0 ∧ fields.readQuantity ≤ maxReadWriteReadCount)
      req.Raises := by
  refine Safe.ite (fun _ => req.raises_exception _) fun hlen => ?_
  refine (safe_uint16At (by omega)).bind fun readAddress _ => ?_
  refine (safe_uint16At (by omega)).bind fun readQuantity _ => ?_
  refine (safe_uint16At (by omega)).bind fun writeAddress _ => ?_
  refine (safe_uint16At (by omega)).bind fun writeQuantity _ => ?_
  refine (safe_index (by omega)).bind fun count _ => ?_
  refine Safe.ite (fun _ => req.raises_exception _) fun hcount => ?_
  refine Safe.ite (fun _ => req.raises_exception _) fun hq => ?_
  refine Safe.ite (fun _ => req.raises_exception _) fun hexpected => ?_
  refine (safe_readWords (by omega)).bind fun values _ => ?_
  exact ⟨fun h => hq (.inl h), UInt16.not_lt.mp fun h => hq (.inr (.inl h))⟩

end Checks

/-! ### The outcome of each handler -/

section Outcomes

variable (req : Request) (s : MemoryStore)

/-- A family member of the bit reads: its store call reads at most `maxCoilCount` cells. -/
private theorem handled_handleReadBitValues
    {readFunc : Address → Quantity → StoreCall (Except Err (List Bool))}
    (hstore : ∀ a q, (MemoryStore.perform (readFunc a q) s).2 = s)
    (hlen : ∀ a q values, (MemoryStore.perform (readFunc a q) s).1 = .ok values →
      values.length = q.toNat) :
    Handled req s ((handleReadBitValues req maxCoilCount readFunc).run MemoryStore.perform s) := by
  refine handled_ofParsed (safe_parseReadRequest req _) fun p hp => ?_
  refine handled_ofCall (fun _ => req.raises_storeException _) (fun _ _ => hstore _ _) ?_
  intro values hvalues
  have hq : p.2.toNat ≤ 2000 := UInt16.le_iff_toNat_le.mp hp
  have hl := hlen _ _ _ hvalues
  rw [CallTree.run_ret, replyBits_ok hl]
  refine handled_reply ?_ _
  rw [List.length_cons, length_packBits, hl, byteCount, maxPDUData]
  omega

/-- A family member of the register reads. -/
private theorem handled_handleReadRegisterValues
    {readFunc : Address → Quantity → StoreCall (Except Err (List UInt16))}
    (hstore : ∀ a q, (MemoryStore.perform (readFunc a q) s).2 = s)
    (hlen : ∀ a q values, (MemoryStore.perform (readFunc a q) s).1 = .ok values →
      values.length = q.toNat) :
    Handled req s
      ((handleReadRegisterValues req maxRegisterCount readFunc).run MemoryStore.perform s) := by
  refine handled_ofParsed (safe_parseReadRequest req _) fun p hp => ?_
  refine handled_ofCall (fun _ => req.raises_storeException _) (fun _ _ => hstore _ _) ?_
  intro values hvalues
  have hq : p.2.toNat ≤ 125 := UInt16.le_iff_toNat_le.mp hp
  have hl := hlen _ _ _ hvalues
  rw [CallTree.run_ret, replyRegisters_ok]
  refine handled_reply ?_ _
  rw [List.length_cons, length_ofWords, hl, maxPDUData]
  omega

/-- The cells that a checked read of the store returns. -/
private theorem length_of_checked_read {β : Type} {c : Prop} [Decidable c]
    {m : Address → Option β} {zero : β} {a : Address} {q : Quantity} {values : List β}
    (h : (if c then .error Err.invalidQuantity else Except.ok (readCells m zero a q)) =
      .ok values) :
    values.length = q.toNat := by
  split_ifs at h
  rw [← Except.ok.inj h, length_readCells]

private theorem handled_handleWriteSingleCoil :
    Handled req s ((handleWriteSingleCoil req).run MemoryStore.perform s) := by
  refine handled_ofParsed (safe_parseWriteSingle req) fun p hlen => ?_
  refine handled_ofParsed (safe_parseCoilValue req _) fun value _ => ?_
  refine handled_ofCall (fun _ => req.raises_exception _) nofun fun _ _ => ?_
  exact handled_reply (by rw [hlen, maxPDUData]; omega) _

private theorem handled_handleWriteSingleRegister :
    Handled req s ((handleWriteSingleRegister req).run MemoryStore.perform s) := by
  refine handled_ofParsed (safe_parseWriteSingle req) fun p hlen => ?_
  refine handled_ofCall (fun _ => req.raises_exception _) nofun fun _ _ => ?_
  exact handled_reply (by rw [hlen, maxPDUData]; omega) _

private theorem replyWriteMultiple_ok (a : Address) (q : Quantity) :
    replyWriteMultiple req a q = .ok (req.reply (putUint16 a ++ putUint16 q)) := rfl

theorem MemoryStore.writeMultipleCoils_of_error {a : Address} {vs : List Bool} {err : Err}
    (h : (s.writeMultipleCoils a vs).1 = .error err) : (s.writeMultipleCoils a vs).2 = s := by
  unfold MemoryStore.writeMultipleCoils at h ⊢
  split_ifs at h ⊢
  rfl

theorem MemoryStore.writeMultipleRegisters_of_error {a : Address} {vs : List UInt16} {err : Err}
    (h : (s.writeMultipleRegisters a vs).1 = .error err) :
    (s.writeMultipleRegisters a vs).2 = s := by
  unfold MemoryStore.writeMultipleRegisters at h ⊢
  split_ifs at h ⊢
  rfl

private theorem handled_handleWriteMultipleCoils :
    Handled req s ((handleWriteMultipleCoils req).run MemoryStore.perform s) := by
  refine handled_ofParsed (safe_parseWriteMultiple req _ _ fun data quantity hlen => ?_) ?_
  · refine (safe_readBits ?_).imp (fun _ _ => trivial) fun _ => id
    rw [hlen, byteCount]
    omega
  · rintro ⟨a, q, values⟩ -
    refine handled_ofCall (fun _ => req.raises_storeException _)
      (fun _ => s.writeMultipleCoils_of_error) fun _ _ => ?_
    rw [CallTree.run_ret, replyWriteMultiple_ok]
    exact handled_reply (by simp [maxPDUData]) _

private theorem handled_handleWriteMultipleRegisters :
    Handled req s ((handleWriteMultipleRegisters req).run MemoryStore.perform s) := by
  refine handled_ofParsed (safe_parseWriteMultiple req _ _ fun data quantity hlen => ?_) ?_
  · exact (safe_readWords (by omega)).imp (fun _ _ => trivial) fun _ => id
  · rintro ⟨a, q, values⟩ -
    refine handled_ofCall (fun _ => req.raises_storeException _)
      (fun _ => s.writeMultipleRegisters_of_error) fun _ _ => ?_
    rw [CallTree.run_ret, replyWriteMultiple_ok]
    exact handled_reply (by simp [maxPDUData]) _

/-- The read behind the write cannot fail: its quantity has been checked, and the store allows as
many registers. So the exceptions come from the checks and the write. -/
private theorem handled_handleReadWriteMultipleRegisters :
    Handled req s ((handleReadWriteMultipleRegisters req).run MemoryStore.perform s) := by
  refine handled_ofParsed (safe_parseReadWriteMultiple req) fun fields ⟨h0, hmax⟩ => ?_
  refine handled_ofCall (fun _ => req.raises_storeException _)
    (fun _ => s.writeMultipleRegisters_of_error) fun _ _ => ?_
  set s' := (MemoryStore.perform (.writeMultipleRegisters fields.writeAddress fields.writeValues)
    s).2
  have hread : s'.readHoldingRegisters fields.readAddress fields.readQuantity =
      .ok (readCells s'.holdingRegisters 0 fields.readAddress fields.readQuantity) :=
    if_neg (not_or.mpr ⟨h0, UInt16.not_lt.mpr hmax⟩)
  have hq : fields.readQuantity.toNat ≤ 125 := UInt16.le_iff_toNat_le.mp hmax
  simp only [Handling.ofCall, CallTree.run_call, MemoryStore.perform, hread, CallTree.run_ret]
  rw [replyRegisters_ok]
  refine handled_reply ?_ _
  rw [List.length_cons, length_ofWords, length_readCells, maxPDUData]
  omega

/-- The loop fits the buffer that was made for the objects. -/
theorem safe_putObjects {E : HandlerErr → Prop} {buf : List UInt8} {offset : ℕ}
    {objects : List DeviceIDObject}
    (h : offset + (objects.map fun o => 2 + o.length.toNat).sum ≤ buf.length) :
    Safe (putObjects buf offset objects) (fun out => out.length = buf.length) E := by
  induction objects generalizing buf offset with
  | nil => exact rfl
  | cons o objects ih =>
    simp only [List.map_cons, List.sum_cons] at h
    refine (safe_setAt (by omega)).bind fun b₁ h₁ => ?_
    refine (safe_setAt (by omega)).bind fun b₂ h₂ => ?_
    refine (safe_copyAt (by omega) (by omega)).bind fun b₃ h₃ => ?_
    exact (ih (by omega)).imp (fun out hout => by omega) fun _ => id

private theorem mem_of_lookup {α : Type*} {l : List (UInt8 × α)} {k : UInt8} {v : α}
    (h : l.lookup k = some v) : (k, v) ∈ l := by
  obtain ⟨l₁, l₂, rfl, -⟩ := List.lookup_eq_some_iff.mp h
  exact List.mem_append_right _ List.mem_cons_self

private theorem length_objectValues_le :
    ∀ p ∈ objectValues, p.2.toUTF8.data.toList.length ≤ 40 := by decide

/-- The texts of the objects fit a response, whichever of them are asked for. -/
theorem sum_deviceObjects_le (readDeviceIDCode objectID : UInt8) :
    ((deviceObjects readDeviceIDCode objectID).map fun o => 2 + o.length.toNat).sum ≤ 246 := by
  unfold deviceObjects objectsToInclude
  split_ifs
  · cases h : objectValues.lookup objectID with
    | none => simp [h]
    | some value =>
      have hlen : value.toUTF8.data.toList.length ≤ 40 :=
        length_objectValues_le _ (mem_of_lookup h)
      have hmod := Nat.mod_le value.toUTF8.data.toList.length 256
      simp only [List.filterMap_cons, h, Option.map_some, List.filterMap_nil, List.map_cons,
        List.map_nil, List.sum_cons, List.sum_nil, DeviceIDObject.length, UInt8.toNat_ofNat']
      omega
  · decide
  · decide
  · decide

private theorem handled_handleReadDeviceIdentification :
    Handled req s ((handleReadDeviceIdentification req).run MemoryStore.perform s) := by
  have hsafe : Safe ((handleReadDeviceIdentification req).run MemoryStore.perform s).1
      (fun response => ∃ data, response = req.reply data ∧ data.length ≤ maxPDUData)
      req.Raises := by
    refine Safe.ite (fun _ => req.raises_exception _) fun hlen => ?_
    refine (safe_index (by omega)).bind fun mei _ => ?_
    refine Safe.ite (fun _ => req.raises_exception _) fun _ => ?_
    refine (safe_index (by omega)).bind fun readDeviceIDCode _ => ?_
    refine (safe_index (by omega)).bind fun objectID _ => ?_
    have hsum := sum_deviceObjects_le readDeviceIDCode objectID
    refine (safe_putObjects ?_).bind fun data hdata => ⟨data, rfl, ?_⟩
    · simp only [List.length_append, List.length_cons, List.length_nil, List.length_replicate]
      omega
    · simp only [hdata, maxPDUData, List.length_append, List.length_cons, List.length_nil,
        List.length_replicate]
      omega
  exact hsafe.imp (fun _ => id) fun _ h => ⟨h, rfl⟩

end Outcomes

/-- **Every request has a legal outcome**: no panic, a normal response of at most 253 bytes, or an
exception with the store unchanged. -/
theorem handled_dispatchOn (req : Request) (s : MemoryStore) :
    Handled req s (dispatchOn req s) := by
  unfold dispatchOn dispatchRequest
  cases h : setupDefaultHandlers.lookup req.pdu.functionCode with
  | none => exact ⟨⟨_, rfl⟩, rfl⟩
  | some handler =>
    have hmem := mem_of_lookup h
    simp only [setupDefaultHandlers, List.mem_cons, List.not_mem_nil, or_false, Prod.mk.injEq]
      at hmem
    rcases hmem with ⟨-, rfl⟩ | ⟨-, rfl⟩ | ⟨-, rfl⟩ | ⟨-, rfl⟩ | ⟨-, rfl⟩ | ⟨-, rfl⟩ | ⟨-, rfl⟩ |
      ⟨-, rfl⟩ | ⟨-, rfl⟩ | ⟨-, rfl⟩
    · exact handled_handleReadBitValues req s (fun _ _ => rfl) fun _ _ _ => length_of_checked_read
    · exact handled_handleReadBitValues req s (fun _ _ => rfl) fun _ _ _ => length_of_checked_read
    · exact handled_handleReadRegisterValues req s (fun _ _ => rfl) fun _ _ _ =>
        length_of_checked_read
    · exact handled_handleReadRegisterValues req s (fun _ _ => rfl) fun _ _ _ =>
        length_of_checked_read
    · exact handled_handleWriteSingleCoil req s
    · exact handled_handleWriteSingleRegister req s
    · exact handled_handleWriteMultipleCoils req s
    · exact handled_handleWriteMultipleRegisters req s
    · exact handled_handleReadWriteMultipleRegisters req s
    · exact handled_handleReadDeviceIdentification req s

/-! ### The reply -/

/-- Only function codes without the exception bit have a handler. -/
theorem isFunctionException_of_ok {req : Request} {s : MemoryStore} {response : Response}
    (h : (dispatchOn req s).1 = .ok response) :
    isFunctionException req.pdu.functionCode = false := by
  unfold dispatchOn dispatchRequest at h
  cases hl : setupDefaultHandlers.lookup req.pdu.functionCode with
  | none =>
    rw [hl] at h
    cases h
  | some handler =>
    exact not_isFunctionException_handler _ (List.mem_map_of_mem (mem_of_lookup hl))

theorem isFunctionException_or_exceptionBit (functionCode : FunctionCode) :
    isFunctionException (functionCode ||| exceptionBit) = true := by
  have h : (functionCode ||| exceptionBit) &&& exceptionBit = exceptionBit := by
    refine UInt8.toBitVec_inj.mp (BitVec.eq_of_getLsbD_eq fun i hi => ?_)
    simp
    tauto
  rw [isFunctionException, h]
  rfl

/-- How the server answers `req` on the store `s`. -/
structure Answers (req : Request) (s : MemoryStore) (response : Response) : Prop where
  /-- No index is out of range. -/
  inRange : (dispatchOn req s).1 ≠ .error .panic
  /-- Wherever the request is received, `response` is the one reply to it. -/
  once : ∀ offset arr rest, serveTurn arr = .received req rest →
    handleConnection dispatchOn offset arr s =
      (handleConnection dispatchOn (offset + req.encode.length) rest (dispatchOn req s).2).after
        (.dispatched offset req) [response]
  transactionID : response.transactionID = req.transactionID
  unitID : response.unitID = req.unitID
  normal : response.isException = false → response.pdu.functionCode = req.pdu.functionCode
  /-- An exception has one byte, and the store is unchanged. -/
  exceptional : response.isException = true →
    response.pdu.functionCode = req.pdu.functionCode ||| exceptionBit ∧
      response.pdu.data.length = 1 ∧ (dispatchOn req s).2 = s
  /-- The function code and the data fit a PDU. -/
  fits : 1 + response.pdu.data.length ≤ 253

/-- **Every request is answered once**, whatever its function code and its data: by a normal
response, or by an exception that leaves the store unchanged. -/
theorem answers_dispatchOn (req : Request) (s : MemoryStore) :
    ∃ response, Answers req s response := by
  have h := handled_dispatchOn req s
  unfold Handled at h
  match hout : (dispatchOn req s).1, h with
  | .ok _, ⟨data, rfl, hlen⟩ =>
    have hreply : replyTo req (dispatchOn req s).1 = .ok (req.reply data) := by rw [hout]; rfl
    have hnormal : (req.reply data).isException = false := isFunctionException_of_ok hout
    refine ⟨req.reply data, by rw [hout]; nofun,
      fun _ _ _ hturn => handleConnection_of_received hturn hreply, rfl, rfl, fun _ => rfl,
      fun he => ?_, ?_⟩
    · rw [hnormal] at he
      cases he
    · change 1 + data.length ≤ 253
      rw [maxPDUData] at hlen
      omega
  | .error (.error _), ⟨⟨code, rfl⟩, hs⟩ =>
    have hreply : replyTo req (dispatchOn req s).1 =
        .ok (newResponse req.transactionID req.unitID (req.pdu.functionCode ||| exceptionBit)
          [code]) := by rw [hout]; rfl
    refine ⟨_, by rw [hout]; nofun,
      fun _ _ _ hturn => handleConnection_of_received hturn hreply, rfl, rfl, fun he => ?_,
      fun _ => ⟨rfl, rfl, hs⟩, ?_⟩
    · rw [Response.isException, newResponse, isFunctionException_or_exceptionBit] at he
      cases he
    · change 1 + 1 ≤ 253
      omega

end GoIndustrial.Modbus
