import Mathlib.Data.Bool.AllAny
import Mathlib.Data.List.TakeDrop
import Mathlib.Tactic.Common
import GoIndustrial.Lib.GoStrings
import GoIndustrial.Pccc.Address

/-!
# The text of a data-table address

`Address.String` of `protocol/ethernetip/pccc/address.go`: the letters of the file type, the file
number unless the type has it by convention, a colon and the element; then the name of a field, if
the word and the bit have one, or else the bit. Parsing the text of an address that was parsed gives
the address again.

The addresses that are parsed are fewer than the valid ones. A type with a file number by convention
has that number only, and the bits of the first word of a timer, a counter or a control element are
reached by their names only, so that a bit without a name is of a type with a bit suffix.

`fieldNameFor` goes through a map in no fixed order. No two names of a table stand for the same word
and bit, so that the order does not matter.

## Main definitions

* `Pccc.itoa`, `Pccc.fieldNameFor`, `Pccc.Address.string`.
* `Pccc.Address.Parsed` : what is known of a parsed address.

## Main results

* `Pccc.parseAddress_string` : a parsed address is parsed from its text.
-/

namespace GoIndustrial.Pccc

/-! ### Printing -/

/-- `strconv.Itoa`. -/
def itoa (n : ℤ) : List Char :=
  if n < 0 then '-' :: Nat.toDigits 10 n.natAbs else Nat.toDigits 10 n.natAbs

/-- The name of a word and a bit, if they have one. -/
def fieldNameFor (ft : FileType) (sub bit : ℤ) : Option (List Char) :=
  ((tableFor ft).find? fun entry => entry.2.subElement == sub && entry.2.bitNum == bit).map Prod.fst

/-- `Address.String`. -/
def Address.string (a : Address) : List Char :=
  let main :=
    if a.fileType.implicitFileNumber = some a.fileNumber then
      a.fileType.letter ++ ':' :: itoa a.element
    else a.fileType.letter ++ itoa a.fileNumber ++ ':' :: itoa a.element
  match fieldNameFor a.fileType a.subElement a.bitNum with
  | some name => main ++ '.' :: name
  | none => if 0 ≤ a.bitNum then main ++ '/' :: itoa a.bitNum else main

/-! ### Numbers -/

/-- The characters of a number are the ten digits. -/
theorem exists_digitChar_of_mem_toDigits {n : ℕ} {c : Char} (hc : c ∈ Nat.toDigits 10 n) :
    ∃ d : Fin 10, c = Nat.digitChar d := by
  induction n using Nat.strongRecOn with
  | ind n ih =>
    rw [Nat.toDigits_eq_if (by decide)] at hc
    split at hc
    · rename_i hn
      exact ⟨⟨n, hn⟩, List.mem_singleton.mp hc⟩
    · rename_i hn
      obtain hc | hc := List.mem_append.mp hc
      · exact ih (n / 10) (by omega) hc
      · exact ⟨⟨n % 10, Nat.mod_lt n (by decide)⟩, List.mem_singleton.mp hc⟩

theorem toDigits_ne_nil (n : ℕ) : Nat.toDigits 10 n ≠ [] := by
  rw [Nat.toDigits_eq_if (by decide)]
  split <;> simp

theorem digitChar_toNat : ∀ d : Fin 10, (Nat.digitChar d).toNat - '0'.toNat = d := by decide

theorem digitsValue_concat (s : List Char) (c : Char) :
    digitsValue (s ++ [c]) = digitsValue s * 10 + (c.toNat - '0'.toNat) := by
  simp [digitsValue]

theorem digitsValue_toDigits (n : ℕ) : digitsValue (Nat.toDigits 10 n) = n := by
  induction n using Nat.strongRecOn with
  | ind n ih =>
    rw [Nat.toDigits_eq_if (by decide)]
    split
    · rename_i hn
      exact (digitsValue_concat [] _).trans (by simpa [digitsValue] using digitChar_toNat ⟨n, hn⟩)
    · rename_i hn
      have hlast := digitChar_toNat ⟨n % 10, Nat.mod_lt n (by decide)⟩
      rw [digitsValue_concat, ih (n / 10) (by omega), hlast]
      exact Nat.div_add_mod' n 10

theorem itoa_of_nonneg {n : ℤ} (hn : 0 ≤ n) : itoa n = Nat.toDigits 10 n.natAbs :=
  if_neg (Int.not_lt.mpr hn)

/-- What holds of the ten digits holds of the characters of a printed number. -/
theorem forall_mem_itoa {P : Char → Prop} (hP : ∀ d : Fin 10, P (Nat.digitChar d)) {n : ℤ}
    (hn : 0 ≤ n) : ∀ c ∈ itoa n, P c := by
  intro c hc
  rw [itoa_of_nonneg hn] at hc
  obtain ⟨d, rfl⟩ := exists_digitChar_of_mem_toDigits hc
  exact hP d

theorem itoa_ne_nil {n : ℤ} (hn : 0 ≤ n) : itoa n ≠ [] := by
  rw [itoa_of_nonneg hn]
  exact toDigits_ne_nil _

theorem isAllDigits_itoa {n : ℤ} (hn : 0 ≤ n) : isAllDigits (itoa n) = true := by
  rw [isAllDigits, Bool.and_eq_true]
  exact ⟨by simpa using itoa_ne_nil hn, List.all_eq_true.mpr (forall_mem_itoa (by decide) hn)⟩

/-- A text of digits has no sign. -/
theorem ne_sign_of_isAllDigits {c : Char} {s : List Char} (h : isAllDigits (c :: s) = true) :
    c ≠ '-' ∧ c ≠ '+' := by
  have hc : isDigit c = true := by
    simp only [isAllDigits, List.all_cons, Bool.and_eq_true] at h
    exact h.2.1
  constructor <;> (rintro rfl; exact absurd hc (by decide))

theorem isAllDigitsOrLeadingSign_of_isAllDigits {s : List Char} (h : isAllDigits s = true) :
    isAllDigitsOrLeadingSign s = true := by
  cases s with
  | nil => exact h
  | cons c s =>
    obtain ⟨hminus, hplus⟩ := ne_sign_of_isAllDigits h
    simpa [isAllDigitsOrLeadingSign, hminus, hplus] using h

/-- `atoi` of a text without a sign. -/
theorem atoi_digits {s : List Char} (h : isAllDigits s = true) :
    atoi s = if digitsValue s < 2 ^ 63 then some (digitsValue s : ℤ) else none := by
  unfold atoi
  split
  rename_i negative digits hsign
  split at hsign
  · exact absurd rfl (ne_sign_of_isAllDigits h).1
  · exact absurd rfl (ne_sign_of_isAllDigits h).2
  · cases hsign
    simp [h]

theorem atoi_of_isAllDigits {s : List Char} (h : isAllDigits s = true)
    (hbound : digitsValue s < 2 ^ 63) : atoi s = some (digitsValue s : ℤ) := by
  rw [atoi_digits h, if_pos hbound]

/-- A number of 64 bits is parsed from its digits. -/
theorem atoi_itoa {n : ℤ} (hn : 0 ≤ n) (hbound : n < 2 ^ 63) : atoi (itoa n) = some n := by
  have hvalue : (digitsValue (itoa n) : ℤ) = n := by
    rw [itoa_of_nonneg hn, digitsValue_toDigits]
    exact Int.natAbs_of_nonneg hn
  have hlt : digitsValue (itoa n) < 2 ^ 63 := by omega
  rw [atoi_of_isAllDigits (isAllDigits_itoa hn) hlt, hvalue]

/-- The parsers of the parts of an address read a number that was printed. -/
theorem parseElement_itoa {n : ℤ} (hn : 0 ≤ n ∧ n ≤ 255) : parseElement (itoa n) = .ok n := by
  have hdigits := isAllDigitsOrLeadingSign_of_isAllDigits (isAllDigits_itoa hn.1)
  have hrange : ¬ (n < 0 ∨ 255 < n) := by omega
  simp [parseElement, hdigits, atoi_itoa hn.1 (by omega), hrange]

theorem parseFileNumber_itoa {ft : FileType} {n : ℤ} (hft : ft.implicitFileNumber = none)
    (hn : 0 ≤ n ∧ n ≤ 255) : parseFileNumber ft (itoa n) = .ok n := by
  have hrange : ¬ (n < 0 ∨ 255 < n) := by omega
  simp [parseFileNumber, itoa_ne_nil hn.1, isAllDigits_itoa hn.1, atoi_itoa hn.1 (by omega),
    hrange, hft]

theorem parseSuffix_bit_itoa {ft : FileType} {n : ℤ} (hft : ft.supportsBitSuffix = true)
    (hn : 0 ≤ n ∧ n ≤ 15) : parseSuffix ft (.bit (itoa n)) = .ok ⟨0, n⟩ := by
  have hplain : ¬ ((itoa n).any fun c => c == '.' || c == '/') = true := by
    rw [List.any_eq_true]
    rintro ⟨c, hc, hsep⟩
    exact forall_mem_itoa (P := fun c => ¬ (c == '.' || c == '/') = true) (by decide) hn.1 c hc hsep
  have hdigits := isAllDigitsOrLeadingSign_of_isAllDigits (isAllDigits_itoa hn.1)
  have hrange : ¬ (n < 0 ∨ 15 < n) := by omega
  simp only [parseSuffix, if_neg hplain, hdigits, not_true_eq_false, if_false,
    atoi_itoa hn.1 (by omega), if_neg hrange, hft]

/-! ### Names of fields -/

/-- **A word and a bit have at most one name**, whatever the order in which the map is gone
through. -/
theorem fieldNameFor_eq_some_iff {ft : FileType} {sub bit : ℤ} {name : List Char} :
    fieldNameFor ft sub bit = some name ↔ (name, ⟨sub, bit⟩) ∈ tableFor ft := by
  have hall : ∀ entry ∈ tableFor ft,
      fieldNameFor ft entry.2.subElement entry.2.bitNum = some entry.1 := by
    cases ft <;> decide
  refine ⟨fun h => ?_, fun h => hall _ h⟩
  obtain ⟨⟨name, sub', bit'⟩, hfind, rfl⟩ := Option.map_eq_some_iff.mp h
  have hentry := List.find?_some hfind
  simp only [Bool.and_eq_true, beq_iff_eq] at hentry
  obtain ⟨rfl, rfl⟩ := hentry
  exact List.mem_of_find?_eq_some hfind

/-! ### Parsed addresses -/

/-- What is known of a parsed address: enough for it to be parsed from its text. -/
structure Address.Parsed (a : Address) : Prop where
  fileNumber : 0 ≤ a.fileNumber ∧ a.fileNumber ≤ 255
  implicit : ∀ n, a.fileType.implicitFileNumber = some n → a.fileNumber = n
  element : 0 ≤ a.element ∧ a.element ≤ 255
  field : (a.subElement = 0 ∧ a.bitNum = -1) ∨
    (∃ name, fieldNameFor a.fileType a.subElement a.bitNum = some name) ∨
    a.fileType.supportsBitSuffix = true ∧ a.subElement = 0 ∧ 0 ≤ a.bitNum ∧ a.bitNum ≤ 15

theorem parsed_of_parseAddress {s : List Char} {a : Address} (h : parseAddress s = .ok a) :
    a.Parsed := by
  obtain ⟨_, _, _, hnumber, helement, hsuffix⟩ := parseUpper_eq_ok (parseAddress_eq_ok h)
  obtain ⟨hbounds, himplicit⟩ := parseFileNumber_eq_ok hnumber
  refine ⟨hbounds, himplicit, parseElement_bounds helement, ?_⟩
  obtain hwhole | ⟨name, hname⟩ | hbit := parseSuffix_eq_ok hsuffix
  · exact .inl (NamedField.mk.inj hwhole)
  · exact .inr (.inl ⟨name, fieldNameFor_eq_some_iff.mpr (lookupNamedField_eq_some_iff.mp hname)⟩)
  · exact .inr (.inr hbit)

/-! ### Parsing the text -/

/-- The text of a suffix, with the character in front of it. -/
def Suffix.text : Suffix → List Char
  | .none => []
  | .field name => '.' :: name
  | .bit text => '/' :: text

/-- The digits of the file number, unless the type has it by convention. -/
def Address.numberText (a : Address) : List Char :=
  if a.fileType.implicitFileNumber = some a.fileNumber then [] else itoa a.fileNumber

/-- The text up to the suffix. -/
def Address.mainText (a : Address) : List Char :=
  (a.fileType.letter ++ a.numberText) ++ ':' :: itoa a.element

def Address.suffix (a : Address) : Suffix :=
  match fieldNameFor a.fileType a.subElement a.bitNum with
  | some name => .field name
  | none => if 0 ≤ a.bitNum then .bit (itoa a.bitNum) else .none

theorem Address.string_eq (a : Address) : a.string = a.mainText ++ a.suffix.text := by
  have hmain : (if a.fileType.implicitFileNumber = some a.fileNumber then
        a.fileType.letter ++ ':' :: itoa a.element
      else a.fileType.letter ++ itoa a.fileNumber ++ ':' :: itoa a.element) = a.mainText := by
    unfold mainText numberText
    split <;> simp
  unfold string suffix
  simp only [hmain]
  cases fieldNameFor a.fileType a.subElement a.bitNum with
  | some name => rfl
  | none => by_cases hbit : 0 ≤ a.bitNum <;> simp [hbit, Suffix.text]

/-- The first `.` or `/` starts the suffix, whatever follows it. -/
theorem splitSuffix_append {main : List Char} (hdot : '.' ∉ main) (hslash : '/' ∉ main)
    (suffix : Suffix) : splitSuffix (main ++ suffix.text) = (main, suffix) := by
  unfold splitSuffix
  rw [GoStrings.idxOf?_append_of_notMem hdot, GoStrings.idxOf?_append_of_notMem hslash]
  cases suffix with
  | none => simp [Suffix.text]
  | field name => cases hname : name.idxOf? '/' <;> simp [Suffix.text, List.idxOf?_cons, hname]
  | bit text => cases htext : text.idxOf? '.' <;> simp [Suffix.text, List.idxOf?_cons, htext]

/-- The letters in front are split off where what follows them has none. -/
theorem span_append {p : Char → Bool} {letters rest : List Char}
    (hletters : ∀ c ∈ letters, p c = true) (hrest : ∀ c ∈ rest, p c = false) :
    (letters ++ rest).span p = (letters, rest) := by
  have htake : rest.takeWhile p = [] :=
    List.takeWhile_eq_nil_iff.mpr fun hlength => by simp [hrest _ (List.getElem_mem hlength)]
  have hdrop : rest.dropWhile p = rest :=
    List.dropWhile_eq_self_iff.mpr fun hlength => by simp [hrest _ (List.getElem_mem hlength)]
  rw [List.span_eq_takeWhile_dropWhile, List.takeWhile_append_of_pos hletters,
    List.dropWhile_append_of_pos hletters, hdrop, htake, List.append_nil]

theorem fileTypeFromLetter_letter (ft : FileType) : fileTypeFromLetter ft.letter = some ft := by
  cases ft <;> decide

/-- The parser on a text whose parts are known. -/
theorem parseUpper_append {ft : FileType} {number element : List Char} {suffix : Suffix}
    (hnumber : ∀ c ∈ number, isAlpha c = false ∧ c ∉ [':', '.', '/'])
    (helement : ∀ c ∈ element, c ∉ ['.', '/']) (hne : element ≠ []) :
    parseUpper ((ft.letter ++ number) ++ ':' :: element ++ suffix.text) = (do
      let fileNumber ← parseFileNumber ft number
      let element ← parseElement element
      let field ← parseSuffix ft suffix
      return ⟨ft, fileNumber, element, field.subElement, field.bitNum⟩) := by
  have hletter : ∀ c ∈ ft.letter, isAlpha c = true ∧ c ∉ [':', '.', '/'] :=
    List.all_iff_forall_prop.mp (by cases ft <;> decide)
  have hfile : ∀ c ∈ ft.letter ++ number, c ∉ [':', '.', '/'] := fun c hc =>
    (List.mem_append.mp hc).elim (fun hc => (hletter c hc).2) fun hc => (hnumber c hc).2
  have hcolon : ':' ∉ ft.letter ++ number := fun hc => hfile _ hc (by decide)
  have hmain (c : Char) (hc : c ∈ ['.', '/']) : c ∉ (ft.letter ++ number) ++ ':' :: element := by
    intro hmem
    obtain hmem | hmem := List.mem_append.mp hmem
    · exact hfile c hmem (List.mem_cons_of_mem _ hc)
    · obtain rfl | hmem := List.mem_cons.mp hmem
      · exact absurd hc (by decide)
      · exact helement c hmem hc
  have hspan : (ft.letter ++ number).span isAlpha = (ft.letter, number) :=
    span_append (fun c hc => (hletter c hc).1) fun c hc => (hnumber c hc).1
  have hcut : ((ft.letter ++ number) ++ ':' :: element).idxOf? ':' =
      some (ft.letter ++ number).length := by
    rw [GoStrings.idxOf?_append_of_notMem hcolon]
    simp [List.idxOf?_cons]
  have hletterne : ft.letter ≠ [] := by cases ft <;> decide
  have hdrop : ((ft.letter ++ number) ++ ':' :: element).drop ((ft.letter ++ number).length + 1) =
      element := by
    rw [← List.drop_drop, List.drop_left, List.drop_one, List.tail_cons]
  unfold parseUpper
  rw [splitSuffix_append (hmain _ (by decide)) (hmain _ (by decide))]
  simp only [hcut, hdrop, List.take_left, hspan, fileTypeFromLetter_letter, if_neg hletterne,
    if_neg hne]

namespace Address

variable {a : Address}

theorem Parsed.parseFileNumber_numberText (h : a.Parsed) :
    parseFileNumber a.fileType a.numberText = .ok a.fileNumber := by
  unfold numberText
  split
  · rename_i himplicit
    simp [parseFileNumber, himplicit]
  · rename_i hne
    -- A number that is not the one by convention is of a type that has none.
    have hnone : a.fileType.implicitFileNumber = none := by
      cases hdefault : a.fileType.implicitFileNumber with
      | none => rfl
      | some n => exact absurd (h.implicit n hdefault ▸ hdefault) hne
    exact parseFileNumber_itoa hnone h.fileNumber

theorem Parsed.parseSuffix_suffix (h : a.Parsed) :
    parseSuffix a.fileType a.suffix = .ok ⟨a.subElement, a.bitNum⟩ := by
  unfold suffix
  cases hname : fieldNameFor a.fileType a.subElement a.bitNum with
  | some name =>
    have hlookup := lookupNamedField_eq_some_iff.mpr (fieldNameFor_eq_some_iff.mp hname)
    simp [parseSuffix, hlookup]
  | none =>
    obtain ⟨hsub, hbit⟩ | ⟨name, hsome⟩ | ⟨hsupports, hsub, h0, h15⟩ := h.field
    · simp [hsub, hbit, parseSuffix]
    · cases hname.symm.trans hsome
    · simp [h0, hsub, parseSuffix_bit_itoa hsupports ⟨h0, h15⟩]

/-- What holds of the ten digits holds of the digits of the file number. -/
theorem Parsed.forall_mem_numberText (h : a.Parsed) {P : Char → Prop}
    (hP : ∀ d : Fin 10, P (Nat.digitChar d)) : ∀ c ∈ a.numberText, P c := by
  unfold numberText
  split
  · exact fun c hc => absurd hc List.not_mem_nil
  · exact forall_mem_itoa hP h.fileNumber.1

theorem Parsed.parseUpper_string (h : a.Parsed) : parseUpper a.string = .ok a := by
  have hnumber : ∀ c ∈ a.numberText, isAlpha c = false ∧ c ∉ [':', '.', '/'] :=
    h.forall_mem_numberText (by decide)
  have helement : ∀ c ∈ itoa a.element, c ∉ ['.', '/'] := forall_mem_itoa (by decide) h.element.1
  rw [string_eq, mainText, parseUpper_append hnumber helement (itoa_ne_nil h.element.1),
    h.parseFileNumber_numberText, parseElement_itoa h.element, h.parseSuffix_suffix]
  rfl

/-- The text has neither space nor lower-case letters. -/
theorem Parsed.string_upper (h : a.Parsed) : ∀ c ∈ a.string, toUpper c = c ∧ isSpace c = false := by
  have hletter : ∀ c ∈ a.fileType.letter, toUpper c = c ∧ isSpace c = false :=
    List.all_iff_forall_prop.mp (by cases a.fileType <;> decide)
  have hnames : ∀ entry ∈ tableFor a.fileType,
      entry.1.all fun c => toUpper c = c ∧ isSpace c = false := by
    cases a.fileType <;> decide
  have hitoa {n : ℤ} (hn : 0 ≤ n) : ∀ c ∈ itoa n, toUpper c = c ∧ isSpace c = false :=
    forall_mem_itoa (by decide) hn
  have hnumber : ∀ c ∈ a.numberText, toUpper c = c ∧ isSpace c = false :=
    h.forall_mem_numberText (by decide)
  have hsuffix : ∀ c ∈ a.suffix.text, toUpper c = c ∧ isSpace c = false := by
    unfold suffix
    cases hname : fieldNameFor a.fileType a.subElement a.bitNum with
    | some name =>
      have hplain := hnames _ (fieldNameFor_eq_some_iff.mp hname)
      exact List.forall_mem_cons.mpr ⟨by decide, List.all_iff_forall_prop.mp hplain⟩
    | none =>
      dsimp only
      split
      · rename_i hbit
        exact List.forall_mem_cons.mpr ⟨by decide, hitoa hbit⟩
      · exact fun c hc => absurd hc List.not_mem_nil
  rw [string_eq, mainText]
  simp only [List.forall_mem_append, List.forall_mem_cons]
  exact ⟨⟨⟨hletter, hnumber⟩, by decide, hitoa h.element.1⟩, hsuffix⟩

end Address

theorem trimSpace_eq_self {s : List Char} (h : ∀ c ∈ s, isSpace c = false) : trimSpace s = s := by
  have hfront : s.dropWhile isSpace = s :=
    List.dropWhile_eq_self_iff.mpr fun hlength => by simp [h _ (List.getElem_mem hlength)]
  rw [trimSpace, hfront]
  exact List.rdropWhile_eq_self_iff.mpr fun hne => by simp [h _ (List.getLast_mem hne)]

theorem Address.Parsed.parseAddress_string_eq {a : Address} (h : a.Parsed) :
    parseAddress a.string = .ok a := by
  have hupper : a.string.map toUpper = a.string :=
    (List.map_congr_left fun c hc => (h.string_upper c hc).1).trans (List.map_id' _)
  have htrim : trimSpace a.string = a.string :=
    trimSpace_eq_self fun c hc => (h.string_upper c hc).2
  have hne : a.string ≠ [] := by simp [string_eq, mainText]
  rw [parseAddress, htrim, if_neg hne, hupper, h.parseUpper_string]
  rfl

/-- **A parsed address is parsed from its text**, so that different ones have different texts. -/
theorem parseAddress_string {s : List Char} {a : Address} (h : parseAddress s = .ok a) :
    parseAddress a.string = .ok a ∧
      ∀ s' a', parseAddress s' = .ok a' → a'.string = a.string → a' = a := by
  have hparse := (parsed_of_parseAddress h).parseAddress_string_eq
  refine ⟨hparse, fun s' a' h' htext => ?_⟩
  have hparse' := (parsed_of_parseAddress h').parseAddress_string_eq
  rw [htext, hparse] at hparse'
  exact (Except.ok.inj hparse').symm

/-- The bit `DN` of a timer, written in lower case. -/
theorem parseAddress_string_timerDone :
    parseAddress [' ', 't', '4', ':', '0', '1', '2', '.', 'd', 'n'] = .ok ⟨.timer, 4, 12, 0, 13⟩ ∧
      parseAddress (Address.string ⟨.timer, 4, 12, 0, 13⟩) = .ok ⟨.timer, 4, 12, 0, 13⟩ := by
  have hparse : parseAddress [' ', 't', '4', ':', '0', '1', '2', '.', 'd', 'n'] =
      .ok ⟨.timer, 4, 12, 0, 13⟩ := by decide +kernel
  exact ⟨hparse, (parseAddress_string hparse).1⟩

example : Address.string ⟨.timer, 4, 12, 0, 13⟩ = ['T', '4', ':', '1', '2', '.', 'D', 'N'] := by
  decide +kernel

example : Address.string ⟨.status, 2, 1, 0, 5⟩ = ['S', ':', '1', '/', '5'] := by
  decide +kernel

end GoIndustrial.Pccc
