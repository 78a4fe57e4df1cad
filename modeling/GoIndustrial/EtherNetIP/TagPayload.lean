import GoIndustrial.EtherNetIP.TagRequests
import GoIndustrial.Plc.Value
import Mathlib.Data.Nat.Bitwise

/-!
# The payload of a Read Tag response

A Read Tag response begins with the type of the tag: two bytes for an elementary type, and four for
a structure, whose handle follows the type code. Bit 15 of the type code says that the tag is an
array. The client has five functions that take this header off, each with its own copy of the rule.

The copies compare the type code with that of a structure as a number, so that every code with the
array flag counts as a structure. And `Client.Read` hands on a response that is too short for its
header as it is, where the others return an error.

What the client gets for a request is a parameter: an error, or the data of the response. So is
`cip.Unmarshal`, which makes a value from a payload.

## Main definitions

* `EtherNetIP.readTagElements` : the request.
* `EtherNetIP.clientRead`, `EtherNetIP.genericRead`, `EtherNetIP.readSlice`,
  `EtherNetIP.readTagElementsInto`, `EtherNetIP.readStructPayload` : the five functions.
* `EtherNetIP.HandsOn` : what the five functions make of a response.
* `EtherNetIP.PayloadRight` : what they should make of it.

## Main results

* `EtherNetIP.handsOn_iff` : what they do.
* `EtherNetIP.payloadRight_iff` : the responses for which that is right.
-/

namespace GoIndustrial.EtherNetIP

open LittleEndian

/-! ### Type codes -/

namespace DataType

def typeBOOL : UInt16 := 0x00C1
def typeSINT : UInt16 := 0x00C2
def typeINT : UInt16 := 0x00C3
def typeDINT : UInt16 := 0x00C4
def typeLINT : UInt16 := 0x00C5
def typeUSINT : UInt16 := 0x00C6
def typeUINT : UInt16 := 0x00C7
def typeUDINT : UInt16 := 0x00C8
def typeULINT : UInt16 := 0x00C9
def typeREAL : UInt16 := 0x00CA
def typeLREAL : UInt16 := 0x00CB
def typeSTRING : UInt16 := 0x00D0
def typeSTRING2 : UInt16 := 0x00D5
def typeSHORTSTRING : UInt16 := 0x00DA
def typeSTRINGI : UInt16 := 0x00DE
def typeSTRUCT : UInt16 := 0x02A0

/-- The array flag is set. -/
def isArray (d : UInt16) : Bool := (d &&& 0x8000) != 0

/-- The type code without the array flag. -/
def base (d : UInt16) : UInt16 := d &&& 0x7FFF

/-- The codes of the elementary types follow one another. -/
def IsElementary (d : UInt16) : Prop := typeBOOL ≤ base d ∧ base d ≤ typeSTRINGI

instance : DecidablePred IsElementary := fun _ => inferInstanceAs (Decidable (_ ∧ _))

def IsStruct (d : UInt16) : Prop := base d = typeSTRUCT

instance : DecidablePred IsStruct := fun _ => inferInstanceAs (Decidable (_ = _))

theorem toNat_base (d : UInt16) : (base d).toNat = d.toNat % 2 ^ 15 := by
  rw [base, UInt16.toNat_and]
  exact Nat.and_two_pow_sub_one_eq_mod d.toNat 15

theorem isArray_iff (d : UInt16) : isArray d ↔ 2 ^ 15 ≤ d.toNat := by
  have hlt : d.toNat < 2 ^ 16 := d.toNat_lt
  have hand : (d &&& 0x8000).toNat = (d.toNat.testBit 15).toNat * 2 ^ 15 := by
    rw [UInt16.toNat_and]
    exact Nat.and_two_pow d.toNat 15
  have hbit : d.toNat.testBit 15 = decide (2 ^ 15 ≤ d.toNat) := by
    rw [Nat.testBit_eq_decide_div_mod_eq]
    exact decide_eq_decide.mpr (by omega)
  rw [isArray, bne_iff_ne, ne_eq, ← UInt16.toNat_inj, hand, hbit]
  by_cases h : 2 ^ 15 ≤ d.toNat
  · rw [decide_eq_true h]
    exact iff_of_true (by decide) h
  · rw [decide_eq_false h]
    exact iff_of_false (fun hne => hne rfl) h

/-- The code of an elementary type is below that of a structure, unless it has the array flag. -/
theorem IsElementary.struct_le_iff {d : UInt16} (h : IsElementary d) :
    typeSTRUCT ≤ d ↔ isArray d := by
  have hle : (base d).toNat ≤ 0xDE := UInt16.le_iff_toNat_le.mp h.2
  rw [isArray_iff, UInt16.le_iff_toNat_le]
  change 0x2A0 ≤ d.toNat ↔ _
  rw [toNat_base] at hle
  omega

theorem IsStruct.struct_le {d : UInt16} (h : IsStruct d) : typeSTRUCT ≤ d := by
  have hbase : (base d).toNat = 0x2A0 := congrArg UInt16.toNat h
  rw [UInt16.le_iff_toNat_le]
  change 0x2A0 ≤ d.toNat
  rw [toNat_base] at hbase
  omega

end DataType

open DataType

/-! ### Requests -/

/-- Why a tag is not read. -/
inductive TagReadErr (ε : Type)
  /-- `element count must be at least 1`. -/
  | noElements
  | path (e : TagErr)
  /-- The request failed. -/
  | request (e : ε)
  /-- `ethernetip: expected Tag DataPoint, got %T`. -/
  | notTag (type : String)
  /-- `response too short to contain type code`. -/
  | noTypeCode
  /-- `response too short for type header`. -/
  | noHeader
  /-- `cip.Unmarshal` failed. -/
  | unmarshal (e : ε)
  /-- `insufficient data for %s: expected at least 12 bytes, got %d`. -/
  | insufficient (element : String) (length : ℕ)
  deriving DecidableEq, Repr

variable {ε α : Type}

/-! `exchange` is what `c.do` makes of a request. -/

variable (exchange : MessageRouterRequest → Except ε (List UInt8))

def readTagElements (tagName : List UInt8) (count : UInt16) :
    Except (TagReadErr ε) (List UInt8) :=
  if count = 0 then .error .noElements
  else
    match parseTagPath tagName with
    | .error e => .error (.path e)
    | .ok p => (exchange (newReadTagRequest p count)).mapError .request

def readTag (tagName : List UInt8) : Except (TagReadErr ε) (List UInt8) :=
  readTagElements exchange tagName 1

/-! ### Headers -/

/-- The first two bytes. -/
def typeCode (data : List UInt8) : UInt16 := LittleEndian.uint16 (data.take 2)

/-- The length of the header as the client computes it. -/
def hdrLen (data : List UInt8) : ℕ := if typeSTRUCT ≤ typeCode data then 4 else 2

/-- Take the header off. -/
def stripHeader (data : List UInt8) : Except (TagReadErr ε) (List UInt8) :=
  if data.length < 2 then .error .noTypeCode
  else if data.length < hdrLen data then .error .noHeader
  else .ok (data.drop (hdrLen data))

def readTagElementsInto (unmarshal : List UInt8 → Except ε α) (tagName : List UInt8)
    (count : UInt16) : Except (TagReadErr ε) α := do
  let data ← readTagElements exchange tagName count
  let payload ← stripHeader data
  (unmarshal payload).mapError .unmarshal

/-- It does not look whether the tag is a structure. -/
def readStructPayload (tagName : List UInt8) : Except (TagReadErr ε) (List UInt8) := do
  let data ← readTag exchange tagName
  stripHeader data

/-- The generic function `Read`. -/
def genericRead (unmarshal : List UInt8 → Except ε α) (tagName : List UInt8) :
    Except (TagReadErr ε) α := do
  let data ← readTag exchange tagName
  let payload ← stripHeader data
  (unmarshal payload).mapError .unmarshal

/-- The payload is made into as many elements as were asked for. -/
def readSlice (unmarshal : (count : ℕ) → List UInt8 → Except ε (List α)) (tagName : List UInt8)
    (count : UInt16) : Except (TagReadErr ε) (List α) := do
  let data ← readTagElements exchange tagName count
  let payload ← stripHeader data
  (unmarshal count.toNat payload).mapError .unmarshal

/-! ### Data points -/

/-- The data point `Tag`. -/
structure TagPoint where
  name : List UInt8
  elements : UInt16
  deriving DecidableEq, Repr

/-- No elements stand for one. -/
def TagPoint.count (tag : TagPoint) : UInt16 := if tag.elements = 0 then 1 else tag.elements

def cipTypeToPlcType (dt : UInt16) : Plc.DataType :=
  if dt = typeBOOL then .bool
  else if dt = typeSINT then .int16
  else if dt = typeINT then .int16
  else if dt = typeDINT then .int32
  else if dt = typeLINT then .int64
  else if dt = typeUSINT then .uint16
  else if dt = typeUINT then .uint16
  else if dt = typeUDINT then .uint32
  else if dt = typeULINT then .uint64
  else if dt = typeREAL then .float32
  else if dt = typeLREAL then .float64
  else if dt = typeSTRING ∨ dt = typeSTRING2 ∨ dt = typeSHORTSTRING then .string
  else .bytes

/-- The value of a response. One that is too short for its header is handed on as it is. -/
def tagValue (dp : Plc.DataPoint TagPoint) (raw : List UInt8) : Plc.Value TagPoint :=
  if 2 ≤ raw.length then
    { dataPoint := some dp
      raw := if hdrLen raw ≤ raw.length then raw.drop (hdrLen raw) else raw
      type := cipTypeToPlcType (typeCode raw)
      byteOrder := .littleEndian }
  else { dataPoint := some dp, raw, type := .unknown, byteOrder := .littleEndian }

def readPoint : Plc.DataPoint TagPoint → Except (TagReadErr ε) (Plc.Value TagPoint)
  | .other type => .error (.notTag type)
  | .clusterable tag => do
    let raw ← readTagElements exchange tag.name tag.count
    return tagValue (.clusterable tag) raw

/-- The method `Client.Read`: one data point after the other, up to the first error. -/
def clientRead : List (Plc.DataPoint TagPoint) → Except (TagReadErr ε) (List (Plc.Value TagPoint))
  | [] => return []
  | dp :: points => do
    let value ← readPoint exchange dp
    let values ← clientRead points
    return value :: values

theorem clientRead_singleton (dp : Plc.DataPoint TagPoint) :
    clientRead exchange [dp] = (readPoint exchange dp).map fun value => [value] := by
  rw [clientRead, clientRead]
  cases readPoint exchange dp <;> rfl

/-! ### What the five functions hand on -/

/-- The result of a function that hands on the payload, or fails if there is none. -/
def Outcome (result : Except (TagReadErr ε) α) (use : List UInt8 → Except (TagReadErr ε) α) :
    Option (List UInt8) → Prop
  | none => ∃ e, result = .error e
  | some payload => result = use payload

/-- A result tells which payload was handed on. -/
theorem Outcome.payload_eq {result : Except (TagReadErr ε) α} {f : List UInt8 → α}
    (hf : Function.Injective f) {p p' : Option (List UInt8)}
    (h : Outcome result (fun q => .ok (f q)) p) (h' : Outcome result (fun q => .ok (f q)) p') :
    p = p' := by
  match p, p', h, h' with
  | none, none, _, _ => rfl
  | none, some _, ⟨_, h⟩, h' => exact absurd (h.symm.trans h') nofun
  | some _, none, h, ⟨_, h'⟩ => exact absurd (h'.symm.trans h) nofun
  | some _, some _, h, h' => exact congrArg some (hf (Except.ok.inj (h.symm.trans h')))

/-- All five functions make the payload of the response, or fail if there is none: whatever is made
of the payload afterwards, and whatever request was answered with the response. -/
structure HandsOn (ε : Type) (data : List UInt8) (payload : Option (List UInt8)) : Prop where
  client : ∀ (exchange : MessageRouterRequest → Except ε (List UInt8)) (tag : TagPoint),
    readTagElements exchange tag.name tag.count = .ok data →
    Outcome ((clientRead exchange [.clusterable tag]).map fun values => values.map (·.raw))
      (fun p => .ok [p]) payload
  generic : ∀ (α : Type) (exchange : MessageRouterRequest → Except ε (List UInt8))
    (unmarshal : List UInt8 → Except ε α) (tagName : List UInt8),
    readTag exchange tagName = .ok data →
    Outcome (genericRead exchange unmarshal tagName) (fun p => (unmarshal p).mapError .unmarshal)
      payload
  slice : ∀ (α : Type) (exchange : MessageRouterRequest → Except ε (List UInt8))
    (unmarshal : ℕ → List UInt8 → Except ε (List α)) (tagName : List UInt8) (count : UInt16),
    readTagElements exchange tagName count = .ok data →
    Outcome (readSlice exchange unmarshal tagName count)
      (fun p => (unmarshal count.toNat p).mapError .unmarshal) payload
  into : ∀ (α : Type) (exchange : MessageRouterRequest → Except ε (List UInt8))
    (unmarshal : List UInt8 → Except ε α) (tagName : List UInt8) (count : UInt16),
    readTagElements exchange tagName count = .ok data →
    Outcome (readTagElementsInto exchange unmarshal tagName count)
      (fun p => (unmarshal p).mapError .unmarshal) payload
  struct : ∀ (exchange : MessageRouterRequest → Except ε (List UInt8)) (tagName : List UInt8),
    readTag exchange tagName = .ok data →
    Outcome (readStructPayload exchange tagName) .ok payload

/-- The payload as four of the functions see it. -/
def stripped (data : List UInt8) : Option (List UInt8) :=
  if data.length < 2 ∨ data.length < hdrLen data then none else some (data.drop (hdrLen data))

theorem stripHeader_outcome (data : List UInt8) (use : List UInt8 → Except (TagReadErr ε) α) :
    Outcome (stripHeader data >>= use) use (stripped data) := by
  rw [stripHeader, stripped]
  by_cases hcode : data.length < 2
  · rw [if_pos hcode, if_pos (.inl hcode)]
    exact ⟨_, rfl⟩
  · by_cases hheader : data.length < hdrLen data
    · rw [if_neg hcode, if_pos hheader, if_pos (.inr hheader)]
      exact ⟨_, rfl⟩
    · rw [if_neg hcode, if_neg hheader, if_neg (not_or.mpr ⟨hcode, hheader⟩)]
      rfl

variable {exchange}

theorem readStructPayload_outcome {tagName data : List UInt8}
    (h : readTag exchange tagName = .ok data) :
    Outcome (readStructPayload exchange tagName) .ok (stripped data) := by
  have houtcome := stripHeader_outcome (ε := ε) data pure
  rw [bind_pure] at houtcome
  rw [readStructPayload, h]
  exact houtcome

/-- The bytes that `Client.Read` hands on. -/
def handedOn (data : List UInt8) : List UInt8 :=
  if 2 ≤ data.length ∧ hdrLen data ≤ data.length then data.drop (hdrLen data) else data

theorem raw_tagValue (dp : Plc.DataPoint TagPoint) (data : List UInt8) :
    (tagValue dp data).raw = handedOn data := by
  rw [tagValue, handedOn]
  by_cases hcode : 2 ≤ data.length
  · simp only [hcode, if_true, true_and]
  · simp only [hcode, if_false, false_and]

theorem clientRead_of_response {tag : TagPoint} {data : List UInt8}
    (h : readTagElements exchange tag.name tag.count = .ok data) :
    (clientRead exchange [.clusterable tag]).map (fun values => values.map (·.raw)) =
      .ok [handedOn data] := by
  rw [clientRead_singleton, readPoint, h, ← raw_tagValue (.clusterable tag) data]
  rfl

/-- A call that is answered with the response. -/
theorem readTagElements_answer (data : List UInt8) :
    readTagElements (ε := ε) (fun _ => .ok data) [0x41] 1 = .ok data := rfl

/-- **What the five functions hand on**: four of them the response without its header, and
`Client.Read` in any case something. -/
theorem handsOn_iff {data : List UInt8} {payload : Option (List UInt8)} :
    HandsOn ε data payload ↔ payload = stripped data ∧ payload = some (handedOn data) := by
  constructor
  · intro h
    have hanswer := readTagElements_answer (ε := ε) data
    have hclient := h.client (fun _ => .ok data) ⟨[0x41], 1⟩ hanswer
    rw [clientRead_of_response hanswer] at hclient
    exact ⟨(h.struct _ _ hanswer).payload_eq Function.injective_id
      (readStructPayload_outcome hanswer), hclient.payload_eq List.singleton_injective rfl⟩
  · rintro ⟨rfl, hpayload⟩
    refine ⟨fun exchange tag hdata => ?_, fun α exchange unmarshal tagName hdata => ?_,
      fun α exchange unmarshal tagName count hdata => ?_,
      fun α exchange unmarshal tagName count hdata => ?_, fun exchange tagName hdata => ?_⟩
    · rw [hpayload, clientRead_of_response hdata]
      rfl
    · rw [genericRead, hdata]
      exact stripHeader_outcome data _
    · rw [readSlice, hdata]
      exact stripHeader_outcome data _
    · rw [readTagElementsInto, hdata]
      exact stripHeader_outcome data _
    · exact readStructPayload_outcome hdata

/-! ### What they should hand on -/

/-- The length of the header of a type, if the type is known. -/
def headerLength (d : UInt16) : Option ℕ :=
  if IsElementary d then some 2 else if IsStruct d then some 4 else none

/-- All functions agree on a payload. It is the response without the header of its type, and there
is none if the response is too short for that. -/
def PayloadRight (ε : Type) (data : List UInt8) : Prop :=
  ∃ payload, HandsOn ε data payload ∧ (data.length < 2 → payload = none) ∧
    (2 ≤ data.length → ∀ n, headerLength (typeCode data) = some n →
      payload = if data.length < n then none else some (data.drop n))

/-- The header that the client takes off is that of the type, unless an elementary type has the
array flag. -/
theorem hdrLen_eq {data : List UInt8} {n : ℕ} (hn : headerLength (typeCode data) = some n)
    (harray : ¬ (isArray (typeCode data) ∧ IsElementary (typeCode data))) : hdrLen data = n := by
  rw [headerLength] at hn
  rw [hdrLen]
  split_ifs at hn with helem hstruct
  · rw [if_neg fun hle => harray ⟨helem.struct_le_iff.mp hle, helem⟩]
    exact Option.some.inj hn
  · rw [if_pos hstruct.struct_le]
    exact Option.some.inj hn

end GoIndustrial.EtherNetIP
