import GoIndustrial.Lib.FlagWord
import GoIndustrial.Pccc.AddressText
import GoIndustrial.Pccc.ElementRead

/-!
# Timer and counter elements and their fields

`protocol/ethernetip/pccc/timer.go` decodes the six bytes of a timer or a counter element. The same
numbers and bits can be read one by one, under their names. Where they are in the element is said
twice: in the tables of names, which the parser of addresses uses, and in the decoders and their
accessors. The two agree.

## Main definitions

* `Pccc.Timer`, `Pccc.Counter`, `Pccc.decodeTimer`, `Pccc.decodeCounter`.
* `Pccc.Timer.fields`, `Pccc.Counter.fields` : the accessors, under the names of the fields.
* `Pccc.ReadsField` : what a read of a named field returns.

## Main results

* `Pccc.Timer.fields_eq`, `Pccc.Counter.fields_eq` : the accessors and the tables of names.
* `Pccc.runOn_readFile_field` : a read of a named field.
* `Pccc.readFile_element_fields` : a read of the element has what the reads of its fields return.
-/

namespace GoIndustrial.Pccc

open LittleEndian

/-! ### Elements -/

/-- The three words of an element. -/
structure Element where
  control : UInt16
  pre : Int16
  acc : Int16
  deriving DecidableEq, Repr

/-- A bit of the control word. -/
def Element.bit (e : Element) (k : UInt16) : Bool := (e.control &&& 1 <<< k) != 0

/-- `pccc: %s requires 6 bytes, got %d`. -/
structure ShortElement where
  element : String
  got : ℕ
  deriving DecidableEq, Repr

def decodeElement (element : String) (b : List UInt8) : Except ShortElement Element :=
  if b.length < 6 then .error ⟨element, b.length⟩
  else
    .ok
      { control := uint16 (b.take 2)
        pre := (uint16 ((b.drop 2).take 2)).toInt16
        acc := (uint16 ((b.drop 4).take 2)).toInt16 }

structure Timer extends Element
  deriving DecidableEq, Repr

namespace Timer

variable (t : Timer)

def en : Bool := t.bit 15

def tt : Bool := t.bit 14

def dn : Bool := t.bit 13

end Timer

def decodeTimer (b : List UInt8) : Except ShortElement Timer :=
  (decodeElement "timer" b).map Timer.mk

structure Counter extends Element
  deriving DecidableEq, Repr

namespace Counter

variable (c : Counter)

def cu : Bool := c.bit 15

def cd : Bool := c.bit 14

def dn : Bool := c.bit 13

def ov : Bool := c.bit 12

def un : Bool := c.bit 11

end Counter

def decodeCounter (b : List UInt8) : Except ShortElement Counter :=
  (decodeElement "counter" b).map Counter.mk

/-! ### Fields -/

/-- A number or a bit of an element. -/
inductive FieldValue
  | int16 (x : Int16)
  | bool (x : Bool)
  deriving DecidableEq, Repr

/-- The value that a read returns for it. -/
def FieldValue.value : FieldValue → Plc.Value File
  | .int16 x => ⟨none, putUint16 x.toUInt16, .int16, .littleEndian⟩
  | .bool x => ⟨none, [x.toUInt8], .bool, .littleEndian⟩

/-- The accessors of a timer, under the names of the fields. -/
def Timer.fields (t : Timer) : List (List Char × FieldValue) :=
  [(['P', 'R', 'E'], .int16 t.pre), (['A', 'C', 'C'], .int16 t.acc), (['E', 'N'], .bool t.en),
    (['T', 'T'], .bool t.tt), (['D', 'N'], .bool t.dn)]

/-- The accessors of a counter, under the names of the fields. The field `UA` has none. -/
def Counter.fields (c : Counter) : List (List Char × FieldValue) :=
  [(['P', 'R', 'E'], .int16 c.pre), (['A', 'C', 'C'], .int16 c.acc), (['C', 'U'], .bool c.cu),
    (['C', 'D'], .bool c.cd), (['D', 'N'], .bool c.dn), (['O', 'V'], .bool c.ov),
    (['U', 'N'], .bool c.un)]

/-- What is at the word and the bit of a named field. -/
def NamedField.get (field : NamedField) (e : Element) : FieldValue :=
  if 0 ≤ field.bitNum then .bool (wordBit e.control field.bitNum.toNat)
  else if field.subElement = 1 then .int16 e.pre
  else .int16 e.acc

theorem Element.bit_eq (e : Element) {n : ℤ} (h₀ : 0 ≤ n) (h₁ : n ≤ 15) :
    e.bit (.ofInt n) = wordBit e.control n.toNat := by
  have hn : n.toNat < 16 := by omega
  rw [bit, wordBit, Bool.eq_iff_iff, bne_iff_ne, ne_eq, ← UInt16.toBitVec_inj, UInt16.toBitVec_and,
    toBitVec_mask h₀ h₁]
  exact FlagWord.and_twoPow_ne_zero_iff hn e.control.toBitVec

/-- **The accessors of a timer** are at the words and the bits of its table of names. -/
theorem Timer.fields_eq (t : Timer) :
    t.fields = (tableFor .timer).map fun p => (p.1, p.2.get t.toElement) := by
  have hen : t.en = wordBit t.control 15 := t.bit_eq (n := 15) (by decide) (by decide)
  have htt : t.tt = wordBit t.control 14 := t.bit_eq (n := 14) (by decide) (by decide)
  have hdn : t.dn = wordBit t.control 13 := t.bit_eq (n := 13) (by decide) (by decide)
  rw [fields, hen, htt, hdn]
  rfl

/-- **The accessors of a counter** are at the words and the bits of its table of names, of which
the last has no accessor. -/
theorem Counter.fields_eq (c : Counter) :
    c.fields = ((tableFor .counter).take 7).map fun p => (p.1, p.2.get c.toElement) := by
  have hcu : c.cu = wordBit c.control 15 := c.bit_eq (n := 15) (by decide) (by decide)
  have hcd : c.cd = wordBit c.control 14 := c.bit_eq (n := 14) (by decide) (by decide)
  have hdn : c.dn = wordBit c.control 13 := c.bit_eq (n := 13) (by decide) (by decide)
  have hov : c.ov = wordBit c.control 12 := c.bit_eq (n := 12) (by decide) (by decide)
  have hun : c.un = wordBit c.control 11 := c.bit_eq (n := 11) (by decide) (by decide)
  rw [fields, hcu, hcd, hdn, hov, hun]
  rfl

/-! ### Reads -/

/-- The address of a field of an element. -/
def Address.withField (a : Address) (field : NamedField) : Address :=
  { a with subElement := field.subElement, bitNum := field.bitNum }

/-- A read of the field `name` of the element, on its own, returns `x`. -/
def ReadsField (ε : Type) (dt : DataTable) (a : Address) (name : List Char) (x : FieldValue) :
    Prop :=
  ∃ field, parseAddress (a.string ++ '.' :: name) = .ok field ∧
    ∀ (g : File) (l : Link DataTable), parseAddress g.address = .ok field → g.count ≤ 1 →
      l.device = dt → (runOn (ε := ε) DataTable.executor (readFile g) l).1 = .ok x.value

variable {ε : Type} {a : Address} {dt : DataTable}

theorem effectiveCount_of_le {f : File} (h : f.count ≤ 1) : f.effectiveCount = 1 := by
  rw [File.effectiveCount]
  split_ifs with hzero
  · rfl
  · rw [Int64.le_iff_toInt_le] at h hzero
    exact Int64.toInt_inj.mp (le_antisymm h (Int.not_le.mp hzero))

/-- The table has the element. -/
structure HasElement (dt : DataTable) (a : Address) (e : Element) : Prop where
  control : dt.wordAt { a with subElement := 0 } = some e.control
  pre : dt.wordAt { a with subElement := 1 } = some e.pre.toUInt16
  acc : dt.wordAt { a with subElement := 2 } = some e.acc.toUInt16

theorem decodeElement_bytesOf (element : String) (w₀ w₁ w₂ : UInt16) :
    decodeElement element (bytesOf [w₀, w₁, w₂]) = .ok ⟨w₀, w₁.toInt16, w₂.toInt16⟩ := by
  have hcontrol : uint16 ((bytesOf [w₀, w₁, w₂]).take 2) = w₀ := uint16_putUint16 w₀
  have hpre : uint16 (((bytesOf [w₀, w₁, w₂]).drop 2).take 2) = w₁ := uint16_putUint16 w₁
  have hacc : uint16 (((bytesOf [w₀, w₁, w₂]).drop 4).take 2) = w₂ := uint16_putUint16 w₂
  rw [decodeElement, if_neg (by simp), hcontrol, hpre, hacc]

/-- The six bytes of an element in the table. -/
theorem hasElement_of_read (hsub : a.subElement = 0) {data : List UInt8}
    (h : dt.read a 6 = some data) (element : String) :
    ∃ e, decodeElement element data = .ok e ∧ HasElement dt a e := by
  rw [show 6 = 2 * 3 from rfl, DataTable.read_two_mul] at h
  obtain ⟨file, hfile, hread⟩ := Option.bind_eq_some_iff.mp h
  split_ifs at hread with hfit
  obtain rfl := Option.some.inj hread
  have h₀ : a.wordIndex < file.words.length := by omega
  have h₁ : a.wordIndex + 1 < file.words.length := by omega
  have h₂ : a.wordIndex + 1 + 1 < file.words.length := by omega
  have hword {k : ℕ} {w : UInt16} (hw : file.words[a.wordIndex + k]? = some w) :
      dt.wordAt { a with subElement := k } = some w := by
    rw [DataTable.wordAt, show dt.fileAt { a with subElement := k } = some file from hfile,
      Option.bind_some, Address.wordIndex]
    rwa [Address.wordIndex, hsub] at hw
  rw [List.drop_eq_getElem_cons h₀, List.drop_eq_getElem_cons h₁, List.drop_eq_getElem_cons h₂]
  exact ⟨_, decodeElement_bytesOf element _ _ _, hword (k := 0) (List.getElem?_eq_getElem h₀),
    hword (k := 1) (List.getElem?_eq_getElem h₁), hword (k := 2) (List.getElem?_eq_getElem h₂)⟩

/-- A read of one word of an element, behind the first. -/
theorem runOn_readFile_word {g : File} (hparse : parseAddress g.address = .ok a)
    (htimer : a.fileType.isTimerLike = true) (hsub : 0 < a.subElement) (hbit : a.bitNum = -1)
    (hcount : g.count ≤ 1) {l : Link DataTable} {w : UInt16} (hw : l.device.wordAt a = some w) :
    (runOn (ε := ε) DataTable.executor (readFile g) l).1 =
      .ok ⟨none, putUint16 w, .int16, .littleEndian⟩ := by
  have hone := effectiveCount_of_le hcount
  have hfloat := FileType.ne_float_of_isTimerLike htimer
  have hsize : elementBytes a g.effectiveCount = 2 := by
    rw [elementBytes_effectiveCount, if_neg (by omega), if_neg hfloat, if_pos htimer, if_pos hsub,
      hone]
    rfl
  have hread : l.device.read a 2 = some (putUint16 w) := by rw [DataTable.read_two, hw]; rfl
  rw [runOn_readFile l hparse (by rw [hsize]; decide) (by rw [hsize]; decide), hsize,
    show (2 : Int64).toInt.toNat = 2 from rfl, hread]
  dsimp only
  rw [fileValue, if_neg (by omega), if_neg hfloat, if_neg (by omega), hone, if_neg (by decide),
    clip_of_length rfl]

/-- **A read of a named field** of an element that the table has. -/
theorem runOn_readFile_field {e : Element} {l : Link DataTable} (he : HasElement l.device a e)
    {name : List Char} {field : NamedField} (hfield : (name, field) ∈ tableFor a.fileType)
    {g : File} (hparse : parseAddress g.address = .ok (a.withField field)) (hcount : g.count ≤ 1) :
    (runOn (ε := ε) DataTable.executor (readFile g) l).1 = .ok (field.get e).value := by
  obtain ⟨htimer, hcases⟩ := namedField_cases a.fileType _ hfield
  dsimp only at hcases
  rcases hcases with ⟨hword, hbit⟩ | ⟨hword, h₀, h₁⟩
  · have hsub : 0 < (a.withField field).subElement := by
      change 0 < field.subElement
      omega
    rw [NamedField.get, if_neg (by omega)]
    rcases hword with hword | hword
    · have hpre : l.device.wordAt (a.withField field) = some e.pre.toUInt16 := by
        rw [← he.pre, Address.withField, hword]
        rfl
      rw [if_pos hword, runOn_readFile_word hparse htimer hsub hbit hcount hpre]
      rfl
    · have hacc : l.device.wordAt (a.withField field) = some e.acc.toUInt16 := by
        rw [← he.acc, Address.withField, hword]
        rfl
      rw [if_neg (by omega), runOn_readFile_word hparse htimer hsub hbit hcount hacc]
      rfl
  · have hcontrol : l.device.wordAt (a.withField field) = some e.control := by
      rw [← he.control, Address.withField, hword]
      rfl
    have hread : l.device.read (a.withField field) 2 = some (putUint16 e.control) := by
      rw [DataTable.read_two, hcontrol]
      rfl
    rw [runOn_readFile_bit hparse h₀ hread, NamedField.get, if_pos h₀]
    rfl

/-- The text of the address of a field. -/
theorem parseAddress_field (ha : a.Parsed) (hwhole : a.subElement = 0 ∧ a.bitNum = -1)
    {name : List Char} {field : NamedField} (hfield : (name, field) ∈ tableFor a.fileType) :
    parseAddress (a.string ++ '.' :: name) = .ok (a.withField field) := by
  have hname : fieldNameFor (a.withField field).fileType (a.withField field).subElement
      (a.withField field).bitNum = some name := fieldNameFor_eq_some_iff.mpr hfield
  have hparsed : (a.withField field).Parsed :=
    ⟨ha.fileNumber, ha.implicit, ha.element, .inr (.inl ⟨name, hname⟩)⟩
  have hnone : fieldNameFor a.fileType 0 (-1) = none := by cases a.fileType <;> decide
  have hstring : (a.withField field).string = a.string ++ '.' :: name := by
    have hsuffix : (a.withField field).suffix = .field name := by rw [Address.suffix, hname]
    have hsuffix' : a.suffix = .none := by
      rw [Address.suffix, hwhole.1, hwhole.2, hnone]
      rfl
    rw [Address.string_eq, Address.string_eq, hsuffix, hsuffix', Suffix.text, Suffix.text,
      List.append_nil]
    rfl
  rw [← hstring, hparsed.parseAddress_string_eq]

theorem readsField (ha : a.Parsed) (hwhole : a.subElement = 0 ∧ a.bitNum = -1) {e : Element}
    (he : HasElement dt a e) {name : List Char} {field : NamedField}
    (hfield : (name, field) ∈ tableFor a.fileType) : ReadsField ε dt a name (field.get e) := by
  refine ⟨_, parseAddress_field ha hwhole hfield, ?_⟩
  rintro g l hparse hcount rfl
  exact runOn_readFile_field he hfield hparse hcount

/-- A read of a whole element. -/
theorem runOn_readFile_element {f : File} (hparse : parseAddress f.address = .ok a)
    (hwhole : a.subElement = 0 ∧ a.bitNum = -1) (htimer : a.fileType.isTimerLike = true)
    (hcount : f.count ≤ 1) (l : Link DataTable) :
    (runOn (ε := ε) DataTable.executor (readFile f) l).1 =
      match l.device.read a 6 with
      | some raw => .ok ⟨none, raw, .bytes, .littleEndian⟩
      | none => .error refused := by
  have hone := effectiveCount_of_le hcount
  have hfloat := FileType.ne_float_of_isTimerLike htimer
  have hsize : elementBytes a f.effectiveCount = 6 := by
    rw [elementBytes_effectiveCount, if_neg (by omega), if_neg hfloat, if_pos htimer,
      if_neg (by omega), hone]
    rfl
  rw [runOn_readFile l hparse (by rw [hsize]; decide) (by rw [hsize]; decide), hsize,
    show (6 : Int64).toInt.toNat = 6 from rfl]
  cases hread : l.device.read a 6 with
  | none => rfl
  | some raw =>
    dsimp only
    rw [fileValue, if_neg (by omega), if_neg hfloat, if_pos ⟨htimer, hwhole.1⟩,
      clip_of_length (DataTable.length_read hread)]

/-- **A read of a timer or counter element and the reads of its fields agree.** The element is read
exactly if the table has it. Its six bytes are decoded, and what every accessor gives is what is
read under its name. -/
theorem readFile_element_fields {f : File} (hparse : parseAddress f.address = .ok a)
    (hwhole : a.subElement = 0 ∧ a.bitNum = -1)
    (hft : a.fileType = .timer ∨ a.fileType = .counter) (hcount : f.count ≤ 1)
    (l : Link DataTable) :
    ((∃ v, (runOn (ε := ε) DataTable.executor (readFile f) l).1 = .ok v) ↔
      (l.device.read a 6).isSome) ∧
    ∀ v, (runOn (ε := ε) DataTable.executor (readFile f) l).1 = .ok v →
      v.raw.length = 6 ∧
      (a.fileType = .timer → ∃ t, decodeTimer v.raw = .ok t ∧
        ∀ p ∈ t.fields, ReadsField ε l.device a p.1 p.2) ∧
      (a.fileType = .counter → ∃ c, decodeCounter v.raw = .ok c ∧
        ∀ p ∈ c.fields, ReadsField ε l.device a p.1 p.2) := by
  have htimer : a.fileType.isTimerLike = true := by
    rcases hft with hft | hft <;> rw [hft] <;> rfl
  have ha := parsed_of_parseAddress hparse
  rw [runOn_readFile_element hparse hwhole htimer hcount]
  cases hread : l.device.read a 6 with
  | none => exact ⟨iff_of_false nofun Bool.false_ne_true, nofun⟩
  | some data =>
    refine ⟨iff_of_true ⟨_, rfl⟩ rfl, ?_⟩
    rintro v ⟨⟩
    refine ⟨DataTable.length_read hread, fun htype => ?_, fun htype => ?_⟩
    · obtain ⟨e, hdecode, he⟩ := hasElement_of_read hwhole.1 hread "timer"
      refine ⟨⟨e⟩, by rw [decodeTimer, hdecode]; rfl, ?_⟩
      rw [Timer.fields_eq, List.forall_mem_map, ← htype]
      exact fun p hp => readsField ha hwhole he hp
    · obtain ⟨e, hdecode, he⟩ := hasElement_of_read hwhole.1 hread "counter"
      refine ⟨⟨e⟩, by rw [decodeCounter, hdecode]; rfl, ?_⟩
      rw [Counter.fields_eq, List.forall_mem_map, ← htype]
      exact fun p hp => readsField ha hwhole he (List.mem_of_mem_take hp)

/-- The timer of a table, enabled and with the preset 100. -/
theorem readFile_element_fields_timer :
    (runOn (ε := Empty) DataTable.executor (readFile ⟨['T', '4', ':', '0'], 1⟩)
      ⟨1, timerTable⟩).1 = .ok ⟨none, [0x00, 0x80, 100, 0, 7, 0], .bytes, .littleEndian⟩ ∧
    ∃ t, decodeTimer [0x00, 0x80, 100, 0, 7, 0] = .ok t ∧
      ∀ p ∈ t.fields, ReadsField Empty timerTable ⟨.timer, 4, 0, 0, -1⟩ p.1 p.2 := by
  have hparse : parseAddress ['T', '4', ':', '0'] = .ok ⟨.timer, 4, 0, 0, -1⟩ := by decide +kernel
  have hread : (runOn (ε := Empty) DataTable.executor (readFile ⟨['T', '4', ':', '0'], 1⟩)
      ⟨1, timerTable⟩).1 = .ok ⟨none, [0x00, 0x80, 100, 0, 7, 0], .bytes, .littleEndian⟩ := rfl
  obtain ⟨-, hfields⟩ := readFile_element_fields (ε := Empty) (f := ⟨['T', '4', ':', '0'], 1⟩)
    hparse ⟨rfl, rfl⟩ (.inl rfl) (by decide) ⟨1, timerTable⟩
  exact ⟨hread, (hfields _ hread).2.1 rfl⟩

end GoIndustrial.Pccc
