import GoIndustrial.Lib.SafeCode
import GoIndustrial.Modbus.Handlers

/-!
# Parsing a device identification

`ParseReadDeviceIdentificationResponse` of `protocol/modbus/protocol.go`, and the encoder of
`HandleReadDeviceIdentification` in `server_protocol.go` for any header. Six header bytes end with
the number of objects; each object is its code, the length of its value, and the value.

The parser walks through the input with an offset that the length bytes of the input drive. What it
accepts is the encoding of what it returns, with anything behind it.

## Main definitions

* `Modbus.DeviceIdentification` : a parsed response, with `encode` the server's layout of it.
* `Modbus.parseReadDeviceIdentificationResponse`.

## Main results

* `Modbus.parseObjects_eq_ok` : what the loop over the objects accepts.
* `Modbus.parse_eq_ok` : what the parser accepts.
* `Modbus.deviceIdentification_exact` : the parser and the server's encoder are inverse.
-/

namespace GoIndustrial.Modbus

open GoSlice

/-! ### The parser -/

/-- The errors of the parser. -/
inductive IdentificationErr
  /-- `invalid response length`. -/
  | invalidResponseLength
  /-- `invalid value`. -/
  | invalidValue
  /-- `invalid response format`. -/
  | invalidResponseFormat
  deriving DecidableEq, Repr

/-- An object as the parser returns it: the `Length` field is a byte of the input. -/
structure ParsedObject extends DeviceIDObject where
  lengthByte : UInt8
  deriving DecidableEq, Repr

/-- `DeviceIdentification`. -/
structure DeviceIdentification where
  readDeviceIDCode : UInt8
  conformityLevel : UInt8
  moreFollows : UInt8
  nextObjectID : UInt8
  numberOfObjects : UInt8
  objects : List ParsedObject
  deriving DecidableEq, Repr

/-- The loop over the objects, with `n` objects left to parse. -/
def parseObjects (data : List UInt8) :
    ℕ → ℕ → Except (Fault IdentificationErr) (List ParsedObject)
  | 0, _ => .ok []
  | n + 1, offset =>
    if data.length < offset + 2 then .error (.error .invalidResponseFormat)
    else do
      let objectID ← index data offset
      let objectLength ← index data (offset + 1)
      if data.length < offset + 2 + objectLength.toNat then
        .error (.error .invalidResponseFormat)
      else do
        let objectValue ← slice data (offset + 2) (offset + 2 + objectLength.toNat)
        let objects ← parseObjects data n (offset + 2 + objectLength.toNat)
        return ⟨⟨objectID, objectValue⟩, objectLength⟩ :: objects

/-- `ParseReadDeviceIdentificationResponse`. -/
def parseReadDeviceIdentificationResponse (data : List UInt8) :
    Except (Fault IdentificationErr) DeviceIdentification :=
  if data.length < 6 then .error (.error .invalidResponseLength)
  else do
    let meiType ← index data 0
    if meiType ≠ meiReadDeviceID then .error (.error .invalidValue)
    else do
      let readDeviceIDCode ← index data 1
      let conformityLevel ← index data 2
      let moreFollows ← index data 3
      let nextObjectID ← index data 4
      let numberOfObjects ← index data 5
      let objects ← parseObjects data numberOfObjects.toNat 6
      return { readDeviceIDCode, conformityLevel, moreFollows, nextObjectID, numberOfObjects,
               objects }

/-! ### The server's layout -/

/-- An object as the server builds it: the `Length` field is the length of the value. -/
def DeviceIDObject.parsed (o : DeviceIDObject) : ParsedObject := ⟨o, o.length⟩

/-- The six bytes in front of the objects. -/
def DeviceIdentification.header (d : DeviceIdentification) : List UInt8 :=
  [meiReadDeviceID, d.readDeviceIDCode, d.conformityLevel, d.moreFollows, d.nextObjectID,
    d.numberOfObjects]

/-- The encoder of `HandleReadDeviceIdentification`. -/
def DeviceIdentification.encode (d : DeviceIdentification) :
    Except (Fault HandlerErr) (List UInt8) :=
  let objects := d.objects.map ParsedObject.toDeviceIDObject
  let size := (objects.map fun o => 2 + o.length.toNat).sum
  putObjects (d.header ++ List.replicate size 0) 6 objects

/-- An identification with the given header fields that lists `objects` as the server does. -/
def DeviceIdentification.listing (code level more next : UInt8) (objects : List DeviceIDObject) :
    DeviceIdentification where
  readDeviceIDCode := code
  conformityLevel := level
  moreFollows := more
  nextObjectID := next
  numberOfObjects := UInt8.ofNat objects.length
  objects := objects.map DeviceIDObject.parsed

/-- The header of the server's answers. -/
theorem encode_listing_server (code : UInt8) (objects : List DeviceIDObject) :
    (DeviceIdentification.listing code conformityLevelBasic moreFollowsNo 0x00 objects).encode =
      encodeDeviceIdentification code objects := by
  have hmap : (objects.map DeviceIDObject.parsed).map ParsedObject.toDeviceIDObject = objects := by
    rw [List.map_map]
    exact List.map_id objects
  simp only [DeviceIdentification.encode, DeviceIdentification.listing, hmap]
  rfl

/-- An object on the wire. -/
def DeviceIDObject.bytes (o : DeviceIDObject) : List UInt8 := o.id :: o.length :: o.value

theorem DeviceIDObject.toNat_length {o : DeviceIDObject} (h : o.value.length ≤ 255) :
    o.length.toNat = o.value.length := by
  rw [length, UInt8.toNat_ofNat']
  omega

/-- One round of the encoder's loop. -/
theorem putObjects_cons (pre : List UInt8) {o : DeviceIDObject} (h : o.value.length ≤ 255)
    (os : List DeviceIDObject) (n : ℕ) :
    putObjects (pre ++ List.replicate (2 + o.length.toNat + n) 0) pre.length (o :: os) =
      putObjects (pre ++ o.bytes ++ List.replicate n 0) (pre ++ o.bytes).length os := by
  have hlen := DeviceIDObject.toNat_length h
  have hid := setAt_replicate (ε := HandlerErr) pre (o.value.length + n + 1) o.id
  have hlength := setAt_replicate (ε := HandlerErr) (pre ++ [o.id]) (o.value.length + n) o.length
  have hvalue : copyAt (ε := HandlerErr)
      (pre ++ [o.id] ++ o.length :: List.replicate (o.value.length + n) 0)
      (pre.length + 2) (pre.length + 2 + o.length.toNat) o.value =
      .ok (pre ++ o.bytes ++ List.replicate n 0) := by
    have hput := putAt_replicate (ε := HandlerErr) (i := pre.length + 2)
      (pre ++ [o.id, o.length]) o.value n (by simp) rfl
    rw [copyAt_eq_putAt _ _ (by rw [hlen])]
    simpa [DeviceIDObject.bytes] using hput
  have hsize : 2 + o.length.toNat + n = o.value.length + n + 1 + 1 := by omega
  have hoffset : (pre ++ o.bytes).length = pre.length + 2 + o.length.toNat := by
    simp only [DeviceIDObject.bytes, List.length_append, List.length_cons]
    omega
  simp only [List.append_assoc, List.singleton_append, List.length_append, List.length_singleton]
    at hlength hvalue
  rw [hoffset, hsize]
  simp only [putObjects, hid, hlength, hvalue, bind, Except.bind, List.append_assoc]

/-- The loop of the encoder writes the objects one behind the other. -/
theorem putObjects_replicate (pre : List UInt8) {os : List DeviceIDObject}
    (h : ∀ o ∈ os, o.value.length ≤ 255) :
    putObjects (pre ++ List.replicate (os.map fun o => 2 + o.length.toNat).sum 0) pre.length os =
      .ok (pre ++ os.flatMap DeviceIDObject.bytes) := by
  induction os generalizing pre with
  | nil => simp [putObjects]
  | cons o os ih =>
    obtain ⟨ho, hos⟩ := List.forall_mem_cons.mp h
    rw [List.map_cons, List.sum_cons, putObjects_cons pre ho, ih _ hos, List.flatMap_cons,
      List.append_assoc]

/-- What the encoder writes for objects whose values fit their length bytes. -/
theorem DeviceIdentification.encode_eq {d : DeviceIdentification}
    (h : ∀ o ∈ d.objects, o.value.length ≤ 255) :
    d.encode = .ok (d.header ++ d.objects.flatMap fun o => o.bytes) := by
  have hvalues : ∀ o ∈ d.objects.map ParsedObject.toDeviceIDObject, o.value.length ≤ 255 :=
    List.forall_mem_map.mpr h
  have hput := putObjects_replicate d.header hvalues
  rw [List.flatMap_map] at hput
  exact hput

/-! ### What is accepted -/

/-- The `Length` field is the length of the value. -/
def ParsedObject.Exact (o : ParsedObject) : Prop := o.lengthByte.toNat = o.value.length

theorem ParsedObject.exact_iff {o : ParsedObject} :
    o.Exact ↔ o.value.length ≤ 255 ∧ o = o.toDeviceIDObject.parsed := by
  obtain ⟨o, lengthByte⟩ := o
  have hlt := lengthByte.toNat_lt
  simp only [Exact, DeviceIDObject.parsed, mk.injEq, true_and, ← UInt8.toNat_inj,
    DeviceIDObject.length, UInt8.toNat_ofNat']
  omega

theorem ParsedObject.Exact.bytes_eq {o : ParsedObject} (h : o.Exact) :
    o.bytes = o.id :: o.lengthByte :: o.value := by
  rw [DeviceIDObject.bytes, DeviceIDObject.length, ← h, UInt8.ofNat_toNat]

section Loop

variable {pre tail : List UInt8} {n : ℕ} {os : List ParsedObject}

theorem parseObjects_short (h : tail.length < 2) :
    parseObjects (pre ++ tail) (n + 1) pre.length = .error (.error .invalidResponseFormat) :=
  if_pos (by rw [List.length_append]; omega)

/-- One round of the parser's loop. -/
theorem parseObjects_cons (objectID objectLength : UInt8) :
    parseObjects (pre ++ objectID :: objectLength :: tail) (n + 1) pre.length =
      if tail.length < objectLength.toNat then .error (.error .invalidResponseFormat)
      else (parseObjects (pre ++ objectID :: objectLength :: tail) n
          (pre.length + 2 + objectLength.toNat)).map
        (⟨⟨objectID, tail.take objectLength.toNat⟩, objectLength⟩ :: ·) := by
  have hid := index_append (ε := IdentificationErr) pre objectID (objectLength :: tail)
  have hlength := index_append (ε := IdentificationErr) (pre ++ [objectID]) objectLength tail
  simp only [List.append_assoc, List.singleton_append, List.length_append, List.length_singleton]
    at hlength
  have hlen : (pre ++ objectID :: objectLength :: tail).length = pre.length + 2 + tail.length := by
    simp only [List.length_append, List.length_cons]
    omega
  rw [parseObjects, hid, hlength, hlen, if_neg (by omega)]
  by_cases hshort : tail.length < objectLength.toNat
  · rw [if_pos hshort]
    exact if_pos (by omega)
  · have hvalue : slice (ε := IdentificationErr) (pre ++ objectID :: objectLength :: tail)
        (pre.length + 2) (pre.length + 2 + objectLength.toNat) =
        .ok (tail.take objectLength.toNat) := by
      rw [slice, if_pos (by omega), List.drop_take, Nat.add_sub_cancel_left, ← List.drop_drop,
        List.drop_left]
      rfl
    rw [if_neg hshort]
    simp only [bind, Except.bind, if_neg (show ¬ pre.length + 2 + tail.length <
      pre.length + 2 + objectLength.toNat by omega), hvalue]
    rfl

/-- The offset behind an object, as a split of the input. -/
theorem parseObjects_next {objectID objectLength : UInt8} (h : objectLength.toNat ≤ tail.length) :
    parseObjects (pre ++ objectID :: objectLength :: tail) n
        (pre.length + 2 + objectLength.toNat) =
      parseObjects
        ((pre ++ objectID :: objectLength :: tail.take objectLength.toNat) ++
          tail.drop objectLength.toNat) n
        (pre ++ objectID :: objectLength :: tail.take objectLength.toNat).length := by
  have hlen : (pre ++ objectID :: objectLength :: tail.take objectLength.toNat).length =
      pre.length + 2 + objectLength.toNat := by
    simp only [List.length_append, List.length_cons, List.length_take]
    omega
  rw [hlen, List.append_assoc, List.cons_append, List.cons_append, List.take_append_drop]

/-- **What the loop accepts**: `n` objects one behind the other, with anything behind them. The
induction is on the number of objects left; `pre` is what the loop has passed. -/
theorem parseObjects_eq_ok :
    parseObjects (pre ++ tail) n pre.length = .ok os ↔ os.length = n ∧ (∀ o ∈ os, o.Exact) ∧
      ∃ rest, tail = (os.flatMap fun o => o.bytes) ++ rest := by
  induction n generalizing pre tail os with
  | zero =>
    constructor
    · rintro ⟨⟩
      exact ⟨rfl, List.forall_mem_nil _, tail, rfl⟩
    · rintro ⟨hlen, -, -⟩
      rw [List.length_eq_zero_iff.mp hlen]
      rfl
  | succ n ih =>
    constructor
    · intro h
      match tail with
      | [] => rw [parseObjects_short (by simp)] at h; cases h
      | [b] => rw [parseObjects_short (by simp)] at h; cases h
      | objectID :: objectLength :: tail =>
        rw [parseObjects_cons] at h
        split_ifs at h with hshort
        have hle := Nat.not_lt.mp hshort
        obtain ⟨os, hos, rfl⟩ := map_eq_ok.mp h
        rw [parseObjects_next hle, ih] at hos
        obtain ⟨hlen, hexact, rest, hrest⟩ := hos
        have ho : ParsedObject.Exact ⟨⟨objectID, tail.take objectLength.toNat⟩, objectLength⟩ :=
          (List.length_take_of_le hle).symm
        refine ⟨congrArg (· + 1) hlen, List.forall_mem_cons.mpr ⟨ho, hexact⟩, rest, ?_⟩
        rw [List.flatMap_cons, ho.bytes_eq, List.append_assoc, ← hrest]
        exact congrArg (objectID :: objectLength :: ·) (List.take_append_drop _ _).symm
    · rintro ⟨hlen, hexact, rest, rfl⟩
      obtain ⟨o, os, rfl⟩ := List.exists_cons_of_length_eq_add_one hlen
      obtain ⟨ho, hos⟩ := List.forall_mem_cons.mp hexact
      have hle : o.lengthByte.toNat ≤
          (o.value ++ ((os.flatMap fun o => o.bytes) ++ rest)).length := by
        rw [List.length_append, ho]
        exact Nat.le_add_right _ _
      rw [List.flatMap_cons, ho.bytes_eq, List.append_assoc, List.cons_append, List.cons_append,
        parseObjects_cons, if_neg (Nat.not_lt.mpr hle), parseObjects_next hle]
      rw [ho, List.take_left, List.drop_left, ih.mpr ⟨Nat.succ.inj hlen, hos, rest, rfl⟩]
      rfl

end Loop

/-- The parser behind a header of six bytes. -/
theorem parse_append (mei code level more next number : UInt8) (tail : List UInt8) :
    parseReadDeviceIdentificationResponse ([mei, code, level, more, next, number] ++ tail) =
      if mei ≠ meiReadDeviceID then .error (.error .invalidValue)
      else (parseObjects ([mei, code, level, more, next, number] ++ tail) number.toNat 6).map
        (⟨code, level, more, next, number, ·⟩) := by
  have hindex {i : ℕ} (hi : i < 6) :
      index (ε := IdentificationErr) ([mei, code, level, more, next, number] ++ tail) i =
        .ok (([mei, code, level, more, next, number] ++ tail).getD i 0) :=
    index_of_lt (by simp; omega)
  rw [parseReadDeviceIdentificationResponse, if_neg (by simp), hindex (by omega), hindex (by omega),
    hindex (by omega), hindex (by omega), hindex (by omega), hindex (by omega)]
  rfl

/-- **What the parser accepts**: the header and the objects of what it returns, in the server's
layout, with anything behind them. -/
theorem parse_eq_ok {data : List UInt8} {d : DeviceIdentification} :
    parseReadDeviceIdentificationResponse data = .ok d ↔
      d.objects.length = d.numberOfObjects.toNat ∧ (∀ o ∈ d.objects, o.Exact) ∧
        ∃ rest, data = d.header ++ (d.objects.flatMap fun o => o.bytes) ++ rest := by
  constructor
  · intro h
    by_cases hshort : data.length < 6
    · rw [parseReadDeviceIdentificationResponse, if_pos hshort] at h
      cases h
    match data, hshort with
    | mei :: code :: level :: more :: next :: number :: tail, _ =>
      replace h := (parse_append mei code level more next number tail).symm.trans h
      split_ifs at h with hmei
      obtain ⟨os, hos, rfl⟩ := map_eq_ok.mp h
      obtain ⟨hlen, hexact, rest, rfl⟩ := parseObjects_eq_ok.mp hos
      refine ⟨hlen, hexact, rest, ?_⟩
      rw [not_not.mp hmei]
      rfl
  · rintro ⟨hlen, hexact, rest, rfl⟩
    rw [List.append_assoc, DeviceIdentification.header, parse_append, if_neg (not_not.mpr rfl)]
    exact map_eq_ok.mpr ⟨d.objects, parseObjects_eq_ok.mpr ⟨hlen, hexact, rest, rfl⟩, rfl⟩

/-! ### Bounds -/

theorem safe_parseObjects (data : List UInt8) (n offset : ℕ) :
    Safe (parseObjects data n offset) (fun _ => True) fun _ => True := by
  induction n generalizing offset with
  | zero => trivial
  | succ n ih =>
    refine Safe.ite (fun _ => trivial) fun hheader => ?_
    refine (safe_index (by omega)).bind fun objectID _ => ?_
    refine (safe_index (by omega)).bind fun objectLength _ => ?_
    refine Safe.ite (fun _ => trivial) fun hvalue => ?_
    refine (safe_slice (by omega) (by omega)).bind fun objectValue _ => ?_
    exact (ih _).bind fun objects _ => trivial

/-- The parser reads inside its input only. -/
theorem safe_parse (data : List UInt8) :
    Safe (parseReadDeviceIdentificationResponse data) (fun _ => True) fun _ => True := by
  refine Safe.ite (fun _ => trivial) fun hlen => ?_
  refine (safe_index (by omega)).bind fun mei _ => ?_
  refine Safe.ite (fun _ => trivial) fun _ => ?_
  refine (safe_index (by omega)).bind fun code _ => ?_
  refine (safe_index (by omega)).bind fun level _ => ?_
  refine (safe_index (by omega)).bind fun more _ => ?_
  refine (safe_index (by omega)).bind fun next _ => ?_
  refine (safe_index (by omega)).bind fun number _ => ?_
  exact (safe_parseObjects data _ _).bind fun objects _ => trivial

/-- What the parser returns is encoded to a prefix of what it parsed. -/
theorem encode_of_parse {data : List UInt8} {d : DeviceIdentification}
    (h : parseReadDeviceIdentificationResponse data = .ok d) :
    ∃ encoding, d.encode = .ok encoding ∧ encoding <+: data := by
  obtain ⟨-, hexact, rest, rfl⟩ := parse_eq_ok.mp h
  refine ⟨_, DeviceIdentification.encode_eq fun o ho => ?_, List.prefix_append _ rest⟩
  exact (ParsedObject.exact_iff.mp (hexact o ho)).1

/-- The encoding of a listing is parsed to the listing. -/
theorem parse_of_encode {code level more next : UInt8} {objects : List DeviceIDObject}
    (hcount : objects.length ≤ 255) (hvalues : ∀ o ∈ objects, o.value.length ≤ 255) :
    ∃ encoding, (DeviceIdentification.listing code level more next objects).encode =
        .ok encoding ∧
      parseReadDeviceIdentificationResponse encoding =
        .ok (.listing code level more next objects) := by
  refine ⟨_, DeviceIdentification.encode_eq (List.forall_mem_map.mpr hvalues),
    parse_eq_ok.mpr ⟨?_, List.forall_mem_map.mpr fun o ho => ?_, [], (List.append_nil _).symm⟩⟩
  · simp only [DeviceIdentification.listing, List.length_map, UInt8.toNat_ofNat']
    omega
  · exact ParsedObject.exact_iff.mpr ⟨hvalues o ho, rfl⟩

/-- **Device identification parsing is exact.** On every input the parser stays inside it, and what
it returns has as many objects as the count byte says; each has the length of its value, and their
encoding in the server's layout behind the six header bytes is a prefix of the input. The encoding
of at most 255 objects with values of at most 255 bytes is parsed to these objects, whatever the
header fields are; the encoder of the server is the case of its own header. -/
theorem deviceIdentification_exact :
    (∀ data, parseReadDeviceIdentificationResponse data ≠ .error .panic) ∧
    (∀ data d, parseReadDeviceIdentificationResponse data = .ok d →
      d.header = data.take 6 ∧ d.objects.length = (data.getD 5 0).toNat ∧
      (∀ o ∈ d.objects, o = o.toDeviceIDObject.parsed ∧ o.lengthByte.toNat = o.value.length) ∧
      ∃ encoding, d.encode = .ok encoding ∧ encoding <+: data) ∧
    (∀ code level more next (objects : List DeviceIDObject), objects.length ≤ 255 →
      (∀ o ∈ objects, o.value.length ≤ 255) →
      ∃ encoding, (DeviceIdentification.listing code level more next objects).encode =
          .ok encoding ∧
        parseReadDeviceIdentificationResponse encoding =
          .ok (.listing code level more next objects)) ∧
    ∀ code objects, encodeDeviceIdentification code objects =
      (DeviceIdentification.listing code conformityLevelBasic moreFollowsNo 0x00
        objects).encode := by
  refine ⟨fun data => (safe_parse data).ne_panic, fun data d h => ?_,
    fun code level more next objects hcount hvalues => parse_of_encode hcount hvalues,
    fun code objects => (encode_listing_server code objects).symm⟩
  refine ⟨?_, ?_, ?_, encode_of_parse h⟩
  all_goals obtain ⟨hlen, hexact, rest, rfl⟩ := parse_eq_ok.mp h
  · rfl
  · exact hlen
  · exact fun o ho => ⟨(ParsedObject.exact_iff.mp (hexact o ho)).2, hexact o ho⟩

/-- Two objects with values of two and three bytes. -/
theorem deviceIdentification_exact_two_objects :
    ∃ encoding, (DeviceIdentification.listing 1 1 0 0
        [⟨0, [103, 105]⟩, ⟨2, [49, 46, 48]⟩]).encode = .ok encoding ∧
      parseReadDeviceIdentificationResponse encoding =
        .ok (.listing 1 1 0 0 [⟨0, [103, 105]⟩, ⟨2, [49, 46, 48]⟩]) :=
  deviceIdentification_exact.2.2.1 1 1 0 0 _ (by decide) (by decide)

end GoIndustrial.Modbus
