import Mathlib.Algebra.Group.Nat.Defs
import Mathlib.Data.List.DropRight
import Mathlib.Data.Int.Notation

/-!
# Data-table addresses

`protocol/ethernetip/pccc/address.go` and the file types of `frame.go`: an address such as `N7:0`,
`B3:0/2` or `T4:0.ACC` names a file by its type and number, an element of the file, and possibly a
word of the element or a bit of the word. Files are of twelve types. Three of them (timers, counters
and control elements) have elements of three words, whose parts have names.

A string is a list of characters. Upper case is that of `unicode.ToUpper` on every character that
has an ASCII letter as its upper case; the others are left alone, and no address has one.

## Main definitions

* `Pccc.FileType`, `Pccc.Address`.
* `Pccc.parseAddress`.
* `Pccc.Address.Valid` : what is known of a parsed address.

## Main results

* `Pccc.valid_of_parseAddress`.
-/

namespace GoIndustrial.Pccc

/-! ### File types -/

/-- The file types of `fileTypeTable`. -/
inductive FileType
  | status
  | bit
  | timer
  | counter
  | control
  | integer
  | float
  | output
  | input
  | string
  | ascii
  | bcd
  deriving DecidableEq, Repr

namespace FileType

def code : FileType → UInt8
  | status => 0x84
  | bit => 0x85
  | timer => 0x86
  | counter => 0x87
  | control => 0x88
  | integer => 0x89
  | float => 0x8A
  | output => 0x8B
  | input => 0x8C
  | string => 0x8D
  | ascii => 0x8E
  | bcd => 0x8F

def letter : FileType → List Char
  | status => ['S']
  | bit => ['B']
  | timer => ['T']
  | counter => ['C']
  | control => ['R']
  | integer => ['N']
  | float => ['F']
  | output => ['O']
  | input => ['I']
  | string => ['S', 'T']
  | ascii => ['A']
  | bcd => ['D']

/-- The file types in the order of `fileTypeTable`. -/
def table : List FileType :=
  [status, bit, timer, counter, control, integer, float, output, input, string, ascii, bcd]

/-- The file type with a code. -/
def ofCode (c : UInt8) : Option FileType := table.find? fun ft => ft.code == c

@[simp] theorem ofCode_code (ft : FileType) : ofCode ft.code = some ft := by cases ft <;> rfl

/-- The elements have three words. -/
def isTimerLike : FileType → Bool
  | timer | counter | control => true
  | _ => false

theorem ne_float_of_isTimerLike {ft : FileType} (h : ft.isTimerLike = true) : ft ≠ float := by
  rintro rfl
  cases h

/-- The file number that a type has by convention. -/
def implicitFileNumber : FileType → Option ℤ
  | output => some 0
  | input => some 1
  | status => some 2
  | _ => none

def supportsBitSuffix : FileType → Bool
  | integer | bit | status | input | output | bcd => true
  | _ => false

end FileType

/-! ### Strings -/

/-- `unicode.ToUpper`, as far as its results are ASCII letters: a letter with another upper case is
left as it is. -/
def toUpper (c : Char) : Char :=
  if c = 'ı' then 'I' else if c = 'ſ' then 'S' else c.toUpper

/-- `unicode.IsSpace`. -/
def isSpace (c : Char) : Bool :=
  (9 ≤ c.toNat && c.toNat ≤ 13) || (0x2000 ≤ c.toNat && c.toNat ≤ 0x200A) ||
    [0x20, 0x85, 0xA0, 0x1680, 0x2028, 0x2029, 0x202F, 0x205F, 0x3000].contains c.toNat

/-- `strings.TrimSpace`. -/
def trimSpace (s : List Char) : List Char := (s.dropWhile isSpace).rdropWhile isSpace

def isAlpha (c : Char) : Bool := ('A' ≤ c && c ≤ 'Z') || ('a' ≤ c && c ≤ 'z')

def isDigit (c : Char) : Bool := '0' ≤ c && c ≤ '9'

def isAllDigits (s : List Char) : Bool := s ≠ [] && s.all isDigit

/-- Digits with an optional sign in front. -/
def isAllDigitsOrLeadingSign : List Char → Bool
  | [] => false
  | c :: s => if c = '-' || c = '+' then isAllDigits s else isAllDigits (c :: s)

/-- The number of a string of digits. -/
def digitsValue (s : List Char) : ℕ := s.foldl (fun n c => n * 10 + (c.toNat - '0'.toNat)) 0

/-- `strconv.Atoi`; numbers have 64 bits. -/
def atoi (s : List Char) : Option ℤ :=
  let (negative, digits) :=
    match s with
    | '-' :: digits => (true, digits)
    | '+' :: digits => (false, digits)
    | digits => (false, digits)
  if isAllDigits digits then
    let n := digitsValue digits
    if negative then if n ≤ 2 ^ 63 then some (-n) else none
    else if n < 2 ^ 63 then some n else none
  else none

/-! ### Addresses -/

structure Address where
  fileType : FileType
  fileNumber : ℤ
  element : ℤ
  /-- The word of an element of several words. -/
  subElement : ℤ
  /-- The bit of the word, or -1. -/
  bitNum : ℤ
  deriving DecidableEq, Repr

/-- What is wrong with an address. -/
inductive AddressFault
  /-- `missing ':'`. -/
  | missingColon
  /-- `missing element number`. -/
  | missingElement
  /-- `missing file type`. -/
  | missingFileType
  /-- `unknown file type %q`. -/
  | unknownFileType (letters : List Char)
  /-- `missing file number`. -/
  | missingFileNumber
  /-- `invalid file number %q`. -/
  | invalidFileNumber (text : List Char)
  /-- `file number %d out of range [0,255]`. -/
  | fileNumberRange (n : ℤ)
  /-- `file type %s requires file number %d (got %d)`. -/
  | fileNumberFixed (ft : FileType) (required got : ℤ)
  /-- `trailing garbage after element`. -/
  | garbageAfterElement
  /-- `invalid element %q`. -/
  | invalidElement (text : List Char)
  /-- `element %d out of range [0,255]`. -/
  | elementRange (n : ℤ)
  /-- `unknown field %q for file type %s`. -/
  | unknownField (name : List Char) (ft : FileType)
  /-- `trailing garbage after bit`. -/
  | garbageAfterBit
  /-- `invalid bit %q`. -/
  | invalidBit (text : List Char)
  /-- `bit %d out of range [0,15]`. -/
  | bitRange (n : ℤ)
  /-- `bit suffix not supported for file type %s`. -/
  | bitUnsupported (ft : FileType)
  deriving DecidableEq, Repr

inductive AddressErr
  /-- `pccc: empty address`. -/
  | empty
  /-- The fault, followed by `in %q` with the address. -/
  | fault (f : AddressFault) (s : List Char)
  deriving DecidableEq, Repr

/-- A part of an element: its word, and the bit of the word or -1. -/
structure NamedField where
  subElement : ℤ
  bitNum : ℤ
  deriving DecidableEq, Repr

def timerFields : List (List Char × NamedField) :=
  [(['P', 'R', 'E'], ⟨1, -1⟩), (['A', 'C', 'C'], ⟨2, -1⟩), (['E', 'N'], ⟨0, 15⟩),
    (['T', 'T'], ⟨0, 14⟩), (['D', 'N'], ⟨0, 13⟩)]

def counterFields : List (List Char × NamedField) :=
  [(['P', 'R', 'E'], ⟨1, -1⟩), (['A', 'C', 'C'], ⟨2, -1⟩), (['C', 'U'], ⟨0, 15⟩),
    (['C', 'D'], ⟨0, 14⟩), (['D', 'N'], ⟨0, 13⟩), (['O', 'V'], ⟨0, 12⟩), (['U', 'N'], ⟨0, 11⟩),
    (['U', 'A'], ⟨0, 10⟩)]

def controlFields : List (List Char × NamedField) :=
  [(['L', 'E', 'N'], ⟨1, -1⟩), (['P', 'O', 'S'], ⟨2, -1⟩), (['E', 'N'], ⟨0, 15⟩),
    (['E', 'U'], ⟨0, 14⟩), (['D', 'N'], ⟨0, 13⟩), (['E', 'M'], ⟨0, 12⟩), (['E', 'R'], ⟨0, 11⟩),
    (['U', 'L'], ⟨0, 10⟩), (['I', 'N'], ⟨0, 9⟩), (['F', 'D'], ⟨0, 8⟩)]

/-- The named fields of a file type; most have none. -/
def tableFor : FileType → List (List Char × NamedField)
  | .timer => timerFields
  | .counter => counterFields
  | .control => controlFields
  | _ => []

def lookupNamedField (ft : FileType) (name : List Char) : Option NamedField :=
  (tableFor ft).lookup name

def fileTypeFromLetter (letters : List Char) : Option FileType :=
  FileType.table.find? fun ft => ft.letter == letters.map toUpper

/-- What follows the first `.` or `/`. -/
inductive Suffix
  | none
  | field (name : List Char)
  | bit (text : List Char)

/-- `splitSuffix`: the string up to the first `.` or `/`, and what follows it. -/
def splitSuffix (up : List Char) : List Char × Suffix :=
  match up.idxOf? '.', up.idxOf? '/' with
  | none, none => (up, .none)
  | some dot, some slash =>
    if slash < dot then (up.take slash, .bit (up.drop (slash + 1)))
    else (up.take dot, .field (up.drop (dot + 1)))
  | some dot, none => (up.take dot, .field (up.drop (dot + 1)))
  | none, some slash => (up.take slash, .bit (up.drop (slash + 1)))

/-- The file number; types with one by convention do not need it. -/
def parseFileNumber (ft : FileType) (text : List Char) : Except AddressFault ℤ :=
  if text = [] then
    match ft.implicitFileNumber with
    | none => .error .missingFileNumber
    | some n => .ok n
  else if ¬ isAllDigits text then .error (.invalidFileNumber text)
  else
    match atoi text with
    | none => .error (.invalidFileNumber text)
    | some n =>
      if n < 0 ∨ 255 < n then .error (.fileNumberRange n)
      else
        match ft.implicitFileNumber with
        | none => .ok n
        | some required => if n ≠ required then .error (.fileNumberFixed ft required n) else .ok n

def parseElement (text : List Char) : Except AddressFault ℤ :=
  if ¬ isAllDigitsOrLeadingSign text then .error .garbageAfterElement
  else
    match atoi text with
    | none => .error (.invalidElement text)
    | some n => if n < 0 ∨ 255 < n then .error (.elementRange n) else .ok n

/-- The word and the bit that a suffix names. -/
def parseSuffix (ft : FileType) : Suffix → Except AddressFault NamedField
  | .none => .ok ⟨0, -1⟩
  | .field name =>
    match lookupNamedField ft name with
    | none => .error (.unknownField name ft)
    | some f => .ok f
  | .bit text =>
    if text.any fun c => c == '.' || c == '/' then .error .garbageAfterBit
    else if ¬ isAllDigitsOrLeadingSign text then .error (.invalidBit text)
    else
      match atoi text with
      | none => .error (.invalidBit text)
      | some n =>
        if n < 0 ∨ 15 < n then .error (.bitRange n)
        else if ¬ ft.supportsBitSuffix then .error (.bitUnsupported ft)
        else .ok ⟨0, n⟩

/-- An address in upper case without space around it. -/
def parseUpper (up : List Char) : Except AddressFault Address :=
  let (mainPart, suffix) := splitSuffix up
  match mainPart.idxOf? ':' with
  | none => .error .missingColon
  | some colon =>
    let right := mainPart.drop (colon + 1)
    if right = [] then .error .missingElement
    else
      let (letters, fileNumStr) := (mainPart.take colon).span isAlpha
      if letters = [] then .error .missingFileType
      else
        match fileTypeFromLetter letters with
        | none => .error (.unknownFileType letters)
        | some fileType => do
          let fileNumber ← parseFileNumber fileType fileNumStr
          let element ← parseElement right
          let field ← parseSuffix fileType suffix
          return ⟨fileType, fileNumber, element, field.subElement, field.bitNum⟩

def parseAddress (s : List Char) : Except AddressErr Address :=
  if trimSpace s = [] then .error .empty
  else (parseUpper ((trimSpace s).map toUpper)).mapError fun f => .fault f s

example : parseAddress [' ', 't', '4', ':', '1', '2', '.', 'd', 'n'] =
    .ok ⟨.timer, 4, 12, 0, 13⟩ := by decide +kernel

example : parseAddress ['S', '3', ':', '1'] =
    .error (.fault (.fileNumberFixed .status 2 3) ['S', '3', ':', '1']) := by decide +kernel

/-! ### Parsed addresses -/

/-- The word and the bit that an address of a file type can have. -/
inductive FieldOf (ft : FileType) : (subElement bitNum : ℤ) → Prop
  /-- The element. -/
  | whole : FieldOf ft 0 (-1)
  /-- A word behind the first of a timer, a counter or a control element. -/
  | word {i : ℤ} (htimer : ft.isTimerLike = true) (hi : i = 1 ∨ i = 2) : FieldOf ft i (-1)
  /-- A bit of the first word. -/
  | bit {n : ℤ} (hft : ft.supportsBitSuffix = true ∨ ft.isTimerLike = true) (h0 : 0 ≤ n)
      (h15 : n ≤ 15) : FieldOf ft 0 n

/-- What is known of a parsed address. -/
structure Address.Valid (a : Address) : Prop where
  fileNumber : 0 ≤ a.fileNumber ∧ a.fileNumber ≤ 255
  element : 0 ≤ a.element ∧ a.element ≤ 255
  field : FieldOf a.fileType a.subElement a.bitNum

/-- The file number is in range, and the one of the type where that has one by convention. -/
theorem parseFileNumber_eq_ok {ft : FileType} {text : List Char} {n : ℤ}
    (h : parseFileNumber ft text = .ok n) :
    (0 ≤ n ∧ n ≤ 255) ∧ ∀ m, ft.implicitFileNumber = some m → n = m := by
  have himplicit : ∀ m, ft.implicitFileNumber = some m → 0 ≤ m ∧ m ≤ 255 := by
    cases ft <;> simp [FileType.implicitFileNumber]
  unfold parseFileNumber at h
  split_ifs at h with hempty hdigits
  · cases hdefault : ft.implicitFileNumber with
    | none => simp [hdefault] at h
    | some m =>
      simp only [hdefault] at h
      cases h
      exact ⟨himplicit n hdefault, fun m hm => Option.some.inj hm⟩
  · cases hn : atoi text with
    | none => simp [hn] at h
    | some m =>
      simp only [hn] at h
      split_ifs at h with hrange
      cases hdefault : ft.implicitFileNumber with
      | none =>
        simp only [hdefault] at h
        cases h
        exact ⟨by omega, fun m hm => nomatch hm⟩
      | some required =>
        simp only [hdefault] at h
        split_ifs at h with hrequired
        cases h
        refine ⟨by omega, fun m hm => ?_⟩
        cases hm
        exact not_not.mp hrequired

theorem parseElement_bounds {text : List Char} {n : ℤ} (h : parseElement text = .ok n) :
    0 ≤ n ∧ n ≤ 255 := by
  unfold parseElement at h
  split_ifs at h
  cases hn : atoi text with
  | none => simp [hn] at h
  | some m =>
    simp only [hn] at h
    split_ifs at h with hrange
    cases h
    omega

/-- The named fields are words behind the first, or bits of the first. -/
theorem namedField_cases (ft : FileType) : ∀ entry ∈ tableFor ft, ft.isTimerLike = true ∧
    ((entry.2.subElement = 1 ∨ entry.2.subElement = 2) ∧ entry.2.bitNum = -1 ∨
      entry.2.subElement = 0 ∧ 0 ≤ entry.2.bitNum ∧ entry.2.bitNum ≤ 15) := by
  cases ft <;> decide

/-- The names of a table are distinct. -/
theorem lookupNamedField_eq_some_iff {ft : FileType} {name : List Char} {f : NamedField} :
    lookupNamedField ft name = some f ↔ (name, f) ∈ tableFor ft := by
  have hall : ∀ entry ∈ tableFor ft, lookupNamedField ft entry.1 = some entry.2 := by
    cases ft <;> decide
  refine ⟨fun h => ?_, fun h => hall _ h⟩
  obtain ⟨l₁, l₂, htable, -⟩ := List.lookup_eq_some_iff.mp h
  simp [htable]

theorem fieldOf_of_lookup {ft : FileType} {name : List Char} {f : NamedField}
    (h : lookupNamedField ft name = some f) : FieldOf ft f.subElement f.bitNum := by
  obtain ⟨htimer, ⟨hword, hbit⟩ | ⟨hword, h0, h15⟩⟩ :=
    namedField_cases ft _ (lookupNamedField_eq_some_iff.mp h)
  · have hword' : FieldOf ft f.subElement (-1) := .word htimer hword
    rwa [← hbit] at hword'
  · have hbit' : FieldOf ft 0 f.bitNum := .bit (.inr htimer) h0 h15
    rwa [← hword] at hbit'

/-- A suffix names the element, a field of the table, or a bit of the first word. -/
theorem parseSuffix_eq_ok {ft : FileType} {suffix : Suffix} {f : NamedField}
    (h : parseSuffix ft suffix = .ok f) :
    f = ⟨0, -1⟩ ∨ (∃ name, lookupNamedField ft name = some f) ∨
      ft.supportsBitSuffix = true ∧ f.subElement = 0 ∧ 0 ≤ f.bitNum ∧ f.bitNum ≤ 15 := by
  cases suffix with
  | none =>
    cases h
    exact .inl rfl
  | field name =>
    rw [parseSuffix] at h
    cases hf : lookupNamedField ft name with
    | none => simp [hf] at h
    | some f' =>
      simp only [hf] at h
      cases h
      exact .inr (.inl ⟨name, hf⟩)
  | bit text =>
    cases hn : atoi text with
    | none =>
      simp only [parseSuffix, hn] at h
      split_ifs at h
    | some n =>
      simp only [parseSuffix, hn] at h
      split_ifs at h with hgarbage hdigits hrange hsupports
      cases h
      exact .inr (.inr ⟨hsupports, rfl, Int.not_lt.mp fun hn => hrange (.inl hn),
        Int.not_lt.mp fun hn => hrange (.inr hn)⟩)

theorem fieldOf_of_parseSuffix {ft : FileType} {suffix : Suffix} {f : NamedField}
    (h : parseSuffix ft suffix = .ok f) : FieldOf ft f.subElement f.bitNum := by
  obtain rfl | ⟨name, hf⟩ | ⟨hsupports, hword, h0, h15⟩ := parseSuffix_eq_ok h
  · exact .whole
  · exact fieldOf_of_lookup hf
  · rw [hword]
    exact .bit (.inl hsupports) h0 h15

/-- The parts of a parsed address, at the places where the text is cut. -/
theorem parseUpper_parts {up : List Char} {a : Address} (h : parseUpper up = .ok a) :
    ∃ colon, (splitSuffix up).1.idxOf? ':' = some colon ∧
      fileTypeFromLetter (((splitSuffix up).1.take colon).span isAlpha).1 = some a.fileType ∧
      parseFileNumber a.fileType (((splitSuffix up).1.take colon).span isAlpha).2 =
        .ok a.fileNumber ∧
      parseElement ((splitSuffix up).1.drop (colon + 1)) = .ok a.element ∧
      parseSuffix a.fileType (splitSuffix up).2 = .ok ⟨a.subElement, a.bitNum⟩ := by
  unfold parseUpper at h
  cases hcolon : (splitSuffix up).1.idxOf? ':' with
  | none => simp [hcolon] at h
  | some colon =>
    simp only [hcolon] at h
    split_ifs at h with hright hletters
    cases hft : fileTypeFromLetter (((splitSuffix up).1.take colon).span isAlpha).1 with
    | none => simp only [hft, reduceCtorEq] at h
    | some fileType =>
      simp only [hft] at h
      cases hnumber : parseFileNumber fileType
          (((splitSuffix up).1.take colon).span isAlpha).2 with
      | error f => simp only [hnumber, bind, Except.bind, reduceCtorEq] at h
      | ok fileNumber =>
        cases helement : parseElement ((splitSuffix up).1.drop (colon + 1)) with
        | error f => simp only [hnumber, helement, bind, Except.bind, reduceCtorEq] at h
        | ok element =>
          cases hsuffix : parseSuffix fileType (splitSuffix up).2 with
          | error f => simp only [hnumber, helement, hsuffix, bind, Except.bind, reduceCtorEq] at h
          | ok field =>
            simp only [hnumber, helement, hsuffix, bind, Except.bind, pure, Except.pure] at h
            cases h
            exact ⟨colon, rfl, hft, hnumber, helement, hsuffix⟩

/-- The parts of a parsed address were parsed. -/
theorem parseUpper_eq_ok {up : List Char} {a : Address} (h : parseUpper up = .ok a) :
    ∃ number element suffix, parseFileNumber a.fileType number = .ok a.fileNumber ∧
      parseElement element = .ok a.element ∧
      parseSuffix a.fileType suffix = .ok ⟨a.subElement, a.bitNum⟩ := by
  obtain ⟨colon, -, -, hparts⟩ := parseUpper_parts h
  exact ⟨_, _, _, hparts⟩

theorem parseAddress_eq_ok {s : List Char} {a : Address} (h : parseAddress s = .ok a) :
    parseUpper ((trimSpace s).map toUpper) = .ok a := by
  unfold parseAddress at h
  split_ifs at h
  cases hup : parseUpper ((trimSpace s).map toUpper) with
  | error f => simp [hup, Except.mapError] at h
  | ok a' =>
    rw [hup] at h
    cases h
    rfl

/-- **A parsed address is valid.** -/
theorem valid_of_parseAddress {s : List Char} {a : Address} (h : parseAddress s = .ok a) :
    a.Valid := by
  obtain ⟨_, _, _, hnumber, helement, hsuffix⟩ := parseUpper_eq_ok (parseAddress_eq_ok h)
  exact ⟨(parseFileNumber_eq_ok hnumber).1, parseElement_bounds helement,
    fieldOf_of_parseSuffix hsuffix⟩

end GoIndustrial.Pccc
