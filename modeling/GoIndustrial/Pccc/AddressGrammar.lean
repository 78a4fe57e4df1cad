import GoIndustrial.Pccc.AddressText

/-!
# The grammar of data-table addresses

Which texts `ParseAddress` accepts. A well-formed address is the letters of a file type, a file
number, a colon, an element, and possibly a bit or the name of a field; the numbers are unsigned.
The parser lets a sign through in front of an element or a bit, so that a negative number is
reported as out of range. With a plus, and with a minus in front of zero, the number is in range,
and the address is accepted.

The grammar is stated for a kind of number, so that it can be that of the documentation, with
unsigned numbers, and that of the parser.

## Main definitions

* `Pccc.Decimal`, `Pccc.SignedDecimal` : numbers without and with a sign.
* `Pccc.AddressText` : the texts of addresses.
* `Pccc.Written` : the same with space around them, in upper or lower case.

## Main results

* `Pccc.parseAddress_iff` : the parser accepts the addresses with signed numbers.
* `Pccc.parseAddress_grammar_iff` : the strings on which it accepts what is well formed.
-/

namespace GoIndustrial.Pccc

/-! ### Numbers -/

/-- An unsigned decimal number; zeros may stand in front. -/
inductive Decimal : List Char → ℕ → Prop
  | digit (d : Fin 10) : Decimal [Nat.digitChar d] d
  | snoc {text : List Char} {n : ℕ} (h : Decimal text n) (d : Fin 10) :
    Decimal (text ++ [Nat.digitChar d]) (10 * n + d)

/-- A decimal number that is not negative, possibly with a sign. -/
inductive SignedDecimal : List Char → ℕ → Prop
  | unsigned {text : List Char} {n : ℕ} (h : Decimal text n) : SignedDecimal text n
  | plus {text : List Char} {n : ℕ} (h : Decimal text n) : SignedDecimal ('+' :: text) n
  | minusZero {text : List Char} (h : Decimal text 0) : SignedDecimal ('-' :: text) 0

/-- What holds of the ten digits holds of the characters of a number. -/
theorem Decimal.forall_mem {text : List Char} {n : ℕ} (h : Decimal text n) {P : Char → Prop}
    (hP : ∀ d : Fin 10, P (Nat.digitChar d)) : ∀ c ∈ text, P c := by
  induction h with
  | digit d => exact List.forall_mem_singleton.mpr (hP d)
  | snoc _ d ih => exact List.forall_mem_append.mpr ⟨ih, List.forall_mem_singleton.mpr (hP d)⟩

theorem Decimal.ne_nil {text : List Char} {n : ℕ} (h : Decimal text n) : text ≠ [] := by
  cases h <;> simp

theorem SignedDecimal.forall_mem {text : List Char} {n : ℕ} (h : SignedDecimal text n)
    {P : Char → Prop} (hP : ∀ d : Fin 10, P (Nat.digitChar d)) (hsign : P '+' ∧ P '-') :
    ∀ c ∈ text, P c := by
  cases h with
  | unsigned h => exact h.forall_mem hP
  | plus h => exact List.forall_mem_cons.mpr ⟨hsign.1, h.forall_mem hP⟩
  | minusZero h => exact List.forall_mem_cons.mpr ⟨hsign.2, h.forall_mem hP⟩

theorem SignedDecimal.ne_nil {text : List Char} {n : ℕ} (h : SignedDecimal text n) : text ≠ [] := by
  cases h with
  | unsigned h => exact h.ne_nil
  | plus | minusZero => exact List.cons_ne_nil _ _

theorem isDigit_eq_true_iff {c : Char} : isDigit c = true ↔ ∃ d : Fin 10, c = Nat.digitChar d := by
  constructor
  · intro h
    simp only [isDigit, Bool.and_eq_true, decide_eq_true_eq, Char.le_def,
      UInt32.le_iff_toNat_le] at h
    obtain ⟨h₀, h₉⟩ : 48 ≤ c.toNat ∧ c.toNat ≤ 57 := h
    have hd : c.toNat - 48 < 10 := by omega
    refine ⟨⟨_, hd⟩, Char.toNat_inj.mp ?_⟩
    rw [Nat.toNat_digitChar_of_lt_ten hd]
    omega
  · rintro ⟨d, rfl⟩
    revert d
    decide

theorem digitsValue_digitChar : ∀ d : Fin 10, digitsValue [Nat.digitChar d] = d := by decide

/-- A number and its value, as the parser sees them. -/
theorem decimal_iff {text : List Char} {n : ℕ} :
    Decimal text n ↔ isAllDigits text = true ∧ digitsValue text = n := by
  constructor
  · intro h
    have hdigits : isAllDigits text = true := by
      rw [isAllDigits, Bool.and_eq_true]
      exact ⟨by simpa using h.ne_nil, List.all_eq_true.mpr (h.forall_mem (by decide))⟩
    refine ⟨hdigits, ?_⟩
    clear hdigits
    induction h with
    | digit d => exact digitsValue_digitChar d
    | snoc _ d ih =>
      rw [digitsValue_concat, ih, digitChar_toNat, Nat.mul_comm]
  · rintro ⟨hdigits, rfl⟩
    rw [isAllDigits, Bool.and_eq_true, List.all_eq_true] at hdigits
    obtain ⟨hne, hall⟩ := hdigits
    -- from the last digit, which is the one of lowest value
    induction text using List.reverseRecOn with
    | nil => simp at hne
    | append_singleton text c ih =>
      obtain ⟨hfront, hlast⟩ := List.forall_mem_append.mp hall
      obtain ⟨d, rfl⟩ := isDigit_eq_true_iff.mp (hlast c (List.mem_singleton_self c))
      by_cases hempty : text = []
      · subst hempty
        exact (digitsValue_digitChar d).symm ▸ Decimal.digit d
      · rw [digitsValue_concat, digitChar_toNat, Nat.mul_comm]
        exact (ih (by simpa using hempty) hfront).snoc d

theorem atoi_plus {s : List Char} (h : isAllDigits s = true) :
    atoi ('+' :: s) = if digitsValue s < 2 ^ 63 then some (digitsValue s : ℤ) else none :=
  if_pos h

theorem atoi_minus {s : List Char} (h : isAllDigits s = true) :
    atoi ('-' :: s) = if digitsValue s ≤ 2 ^ 63 then some (-digitsValue s : ℤ) else none :=
  if_pos h

/-- **The numbers that the parser accepts**, as far as they are in the range of `Atoi`. -/
theorem signedDecimal_iff {text : List Char} {n : ℕ} (hn : n < 2 ^ 63) :
    SignedDecimal text n ↔ isAllDigitsOrLeadingSign text = true ∧ atoi text = some (n : ℤ) := by
  constructor
  · intro h
    cases h with
    | unsigned h =>
      obtain ⟨hdigits, rfl⟩ := decimal_iff.mp h
      exact ⟨isAllDigitsOrLeadingSign_of_isAllDigits hdigits, atoi_of_isAllDigits hdigits hn⟩
    | plus h =>
      obtain ⟨hdigits, rfl⟩ := decimal_iff.mp h
      exact ⟨hdigits, by rw [atoi_plus hdigits, if_pos hn]⟩
    | minusZero h =>
      obtain ⟨hdigits, hzero⟩ := decimal_iff.mp h
      exact ⟨hdigits, by rw [atoi_minus hdigits, hzero, if_pos (Nat.zero_le _)]; rfl⟩
  · rintro ⟨hsign, hvalue⟩
    cases text with
    | nil => cases hsign
    | cons c text =>
      by_cases hminus : c = '-'
      · subst hminus
        rw [atoi_minus hsign] at hvalue
        split_ifs at hvalue
        -- of the numbers behind a minus only zero is not negative
        have hneg : -(digitsValue text : ℤ) = n := Option.some.inj hvalue
        obtain rfl : n = 0 := by omega
        exact .minusZero (decimal_iff.mpr ⟨hsign, by omega⟩)
      by_cases hplus : c = '+'
      · subst hplus
        rw [atoi_plus hsign] at hvalue
        split_ifs at hvalue
        exact .plus (decimal_iff.mpr ⟨hsign, by simpa using hvalue⟩)
      have hdigits : isAllDigits (c :: text) = true := by
        simpa [isAllDigitsOrLeadingSign, hminus, hplus] using hsign
      rw [atoi_digits hdigits] at hvalue
      split_ifs at hvalue
      exact .unsigned (decimal_iff.mpr ⟨hdigits, by simpa using hvalue⟩)

/-! ### Addresses -/

/-- The text of a file number, which may be omitted where the type has one by convention. -/
inductive FileText (ft : FileType) : List Char → ℤ → Prop
  | omitted {n : ℤ} (h : ft.implicitFileNumber = some n) : FileText ft [] n
  | number {text : List Char} {n : ℕ} (h : Decimal text n) (hn : n ≤ 255)
      (hft : ∀ m, ft.implicitFileNumber = some m → (n : ℤ) = m) : FileText ft text n

/-- The text of a suffix: none, a bit of a type that is addressed by bits, or the name of a
field. -/
inductive SuffixText (num : List Char → ℕ → Prop) (ft : FileType) :
    List Char → NamedField → Prop
  | none : SuffixText num ft [] ⟨0, -1⟩
  | bit {text : List Char} {n : ℕ} (hft : ft.supportsBitSuffix = true) (h : num text n)
      (hn : n ≤ 15) : SuffixText num ft ('/' :: text) ⟨0, n⟩
  | field {name : List Char} {f : NamedField} (h : (name, f) ∈ tableFor ft) :
    SuffixText num ft ('.' :: name) f

/-- The text of an address, with elements and bits that are written as `num` says. -/
inductive AddressText (num : List Char → ℕ → Prop) : List Char → Address → Prop
  | mk {ft : FileType} {number element suffix : List Char} {fileNumber : ℤ} {n : ℕ}
      {f : NamedField} (hnumber : FileText ft number fileNumber) (helement : num element n)
      (hn : n ≤ 255) (hsuffix : SuffixText num ft suffix f) :
    AddressText num (ft.letter ++ number ++ ':' :: element ++ suffix)
      ⟨ft, fileNumber, n, f.subElement, f.bitNum⟩

/-- The string is the text of an address, but for the space around it and the case of its
letters. -/
def Written (num : List Char → ℕ → Prop) (s : List Char) (a : Address) : Prop :=
  AddressText num ((trimSpace s).map toUpper) a

/-! ### The parsers of the parts -/

/-- A number in a range is that of a text with an optional sign. -/
theorem exists_signedDecimal {text : List Char} {m : ℤ}
    (hsign : isAllDigitsOrLeadingSign text = true) (hvalue : atoi text = some m) (h₀ : 0 ≤ m)
    (h₁ : m ≤ 255) : ∃ n : ℕ, m = n ∧ SignedDecimal text n := by
  obtain ⟨n, rfl⟩ := Int.eq_ofNat_of_zero_le h₀
  exact ⟨n, rfl, (signedDecimal_iff (by omega)).mpr ⟨hsign, hvalue⟩⟩

theorem parseElement_iff {text : List Char} {m : ℤ} :
    parseElement text = .ok m ↔ ∃ n : ℕ, m = n ∧ n ≤ 255 ∧ SignedDecimal text n := by
  constructor
  · intro h
    have hbounds := parseElement_bounds h
    rw [parseElement] at h
    split_ifs at h with hsign
    cases hvalue : atoi text with
    | none => simp [hvalue] at h
    | some k =>
      simp only [hvalue] at h
      split_ifs at h
      cases h
      obtain ⟨n, rfl, hn⟩ := exists_signedDecimal hsign hvalue hbounds.1 hbounds.2
      exact ⟨n, rfl, by omega, hn⟩
  · rintro ⟨n, rfl, hn, h⟩
    obtain ⟨hsign, hvalue⟩ := (signedDecimal_iff (by omega)).mp h
    have hrange : ¬ ((n : ℤ) < 0 ∨ 255 < (n : ℤ)) := by omega
    simp only [parseElement, hsign, not_true_eq_false, if_false, hvalue, if_neg hrange]

theorem parseFileNumber_iff {ft : FileType} {text : List Char} {m : ℤ} :
    parseFileNumber ft text = .ok m ↔ FileText ft text m := by
  constructor
  · intro h
    obtain ⟨hbounds, himplicit⟩ := parseFileNumber_eq_ok h
    rw [parseFileNumber] at h
    split_ifs at h with hempty hdigits
    · subst hempty
      cases hdefault : ft.implicitFileNumber with
      | none => simp [hdefault] at h
      | some n =>
        simp only [hdefault] at h
        cases h
        exact .omitted hdefault
    · rw [atoi_digits hdigits] at h
      split_ifs at h with hlt
      have hm : (digitsValue text : ℤ) = m := by
        dsimp only at h
        split_ifs at h
        cases hdefault : ft.implicitFileNumber with
        | none => simpa [hdefault] using h
        | some required =>
          simp only [hdefault] at h
          split_ifs at h
          exact Except.ok.inj h
      subst hm
      exact .number (decimal_iff.mpr ⟨hdigits, rfl⟩) (by omega) himplicit
  · intro h
    cases h with
    | omitted h => simp [parseFileNumber, h]
    | number h hn hft =>
      obtain ⟨hdigits, rfl⟩ := decimal_iff.mp h
      have hrange : ¬ ((digitsValue text : ℤ) < 0 ∨ 255 < (digitsValue text : ℤ)) := by omega
      rw [parseFileNumber, if_neg h.ne_nil, if_neg (not_not.mpr hdigits),
        atoi_of_isAllDigits hdigits (by omega)]
      simp only [if_neg hrange]
      cases hdefault : ft.implicitFileNumber with
      | none => rfl
      | some n => exact if_neg (not_not.mpr (hft n hdefault))

theorem parseSuffix_iff {ft : FileType} {suffix : Suffix} {f : NamedField} :
    parseSuffix ft suffix = .ok f ↔ SuffixText SignedDecimal ft suffix.text f := by
  cases suffix with
  | none =>
    rw [parseSuffix, Suffix.text]
    constructor
    · rintro ⟨⟩
      exact .none
    · rintro ⟨⟩
      rfl
  | field name =>
    rw [parseSuffix, Suffix.text]
    constructor
    · intro h
      cases hfield : lookupNamedField ft name with
      | none => simp [hfield] at h
      | some f' =>
        simp only [hfield] at h
        cases h
        exact .field (lookupNamedField_eq_some_iff.mp hfield)
    · intro h
      cases h with
      | field h => rw [lookupNamedField_eq_some_iff.mpr h]
  | bit text =>
    rw [parseSuffix, Suffix.text]
    constructor
    · intro h
      cases hvalue : atoi text with
      | none =>
        simp only [hvalue] at h
        split_ifs at h
      | some k =>
        simp only [hvalue] at h
        split_ifs at h with hgarbage hsign hrange hft
        cases h
        obtain ⟨n, rfl, hn⟩ := exists_signedDecimal hsign hvalue (by omega) (by omega)
        exact .bit hft hn (by omega)
    · intro h
      cases h with
      | @bit _ n hft h hn =>
        obtain ⟨hsign, hvalue⟩ := (signedDecimal_iff (by omega)).mp h
        have hplain : ¬ (text.any fun c => c == '.' || c == '/') = true := by
          rw [List.any_eq_true]
          rintro ⟨c, hc, hsep⟩
          exact h.forall_mem (P := fun c => ¬ (c == '.' || c == '/') = true) (by decide)
            (by decide) c hc hsep
        have hrange : ¬ ((n : ℤ) < 0 ∨ 15 < (n : ℤ)) := by omega
        simp only [if_neg hplain, hsign, not_true_eq_false, if_false, hvalue, if_neg hrange, hft]

/-! ### Whole addresses -/

/-- The suffix is what the text is cut off at. -/
theorem splitSuffix_text (up : List Char) : (splitSuffix up).1 ++ (splitSuffix up).2.text = up := by
  unfold splitSuffix
  cases hdot : up.idxOf? '.' with
  | none =>
    cases hslash : up.idxOf? '/' with
    | none => exact List.append_nil up
    | some slash => exact GoStrings.take_append_cons_drop hslash
  | some dot =>
    cases hslash : up.idxOf? '/' with
    | none => exact GoStrings.take_append_cons_drop hdot
    | some slash =>
      dsimp only
      split_ifs
      · exact GoStrings.take_append_cons_drop hslash
      · exact GoStrings.take_append_cons_drop hdot

/-- A text that is parsed consists of the texts of its parts. -/
theorem exists_text_of_parseUpper {up : List Char} {a : Address} (h : parseUpper up = .ok a) :
    ∃ letters number element suffix,
      up = letters ++ number ++ ':' :: element ++ Suffix.text suffix ∧
      fileTypeFromLetter letters = some a.fileType ∧
      parseFileNumber a.fileType number = .ok a.fileNumber ∧
      parseElement element = .ok a.element ∧
      parseSuffix a.fileType suffix = .ok ⟨a.subElement, a.bitNum⟩ := by
  obtain ⟨colon, hcolon, hparts⟩ := parseUpper_parts h
  refine ⟨_, _, _, _, ?_, hparts⟩
  rw [List.span_eq_takeWhile_dropWhile, List.takeWhile_append_dropWhile,
    GoStrings.take_append_cons_drop hcolon, splitSuffix_text]

theorem letter_eq_of_fileTypeFromLetter {letters : List Char} {ft : FileType}
    (h : fileTypeFromLetter letters = some ft) (hup : ∀ c ∈ letters, toUpper c = c) :
    letters = ft.letter := by
  have hletter : ft.letter = letters.map toUpper := by
    simpa using List.find?_some h
  rw [hletter]
  exact ((List.map_congr_left hup).trans (List.map_id' _)).symm

/-- The digits of a file number. -/
theorem FileText.forall_mem {ft : FileType} {text : List Char} {n : ℤ} (h : FileText ft text n)
    {P : Char → Prop} (hP : ∀ d : Fin 10, P (Nat.digitChar d)) : ∀ c ∈ text, P c := by
  cases h with
  | omitted => exact List.forall_mem_nil _
  | number h => exact h.forall_mem hP

theorem SuffixText.exists_suffix {num : List Char → ℕ → Prop} {ft : FileType} {text : List Char}
    {f : NamedField} (h : SuffixText num ft text f) : ∃ suffix : Suffix, suffix.text = text := by
  cases h with
  | none => exact ⟨.none, rfl⟩
  | bit => exact ⟨.bit _, rfl⟩
  | field => exact ⟨.field _, rfl⟩

/-- **The addresses that the parser accepts**, of the texts in upper case. -/
theorem parseUpper_iff {up : List Char} (hup : ∀ c ∈ up, toUpper c = c) {a : Address} :
    parseUpper up = .ok a ↔ AddressText SignedDecimal up a := by
  constructor
  · intro h
    obtain ⟨letters, number, element, suffix, rfl, hletter, hnumber, helement, hsuffix⟩ :=
      exists_text_of_parseUpper h
    obtain ⟨n, hn, hle, helement⟩ := parseElement_iff.mp helement
    have hletters : letters = a.fileType.letter :=
      letter_eq_of_fileTypeFromLetter hletter fun c hc => hup c (by simp [hc])
    have htext := AddressText.mk (parseFileNumber_iff.mp hnumber) helement hle
      (parseSuffix_iff.mp hsuffix)
    rwa [← hletters, ← hn] at htext
  · rintro ⟨hnumber, helement, hn, hsuffix⟩
    obtain ⟨suffix, rfl⟩ := hsuffix.exists_suffix
    rw [parseUpper_append (hnumber.forall_mem (by decide))
      (helement.forall_mem (by decide) (by decide)) helement.ne_nil,
      parseFileNumber_iff.mpr hnumber, parseElement_iff.mpr ⟨_, rfl, hn, helement⟩,
      parseSuffix_iff.mpr hsuffix]
    rfl

/-! ### Strings -/

/-- Upper case leaves a character alone or makes it one of the letters. -/
theorem toUpper_cases (c : Char) : toUpper c = c ∨ ∃ n : Fin 26, toUpper c = .ofNat (65 + n) := by
  by_cases hlower : 97 ≤ c.toNat ∧ c.toNat ≤ 122
  · have hall : ∀ n : Fin 26, toUpper (.ofNat (97 + n)) = .ofNat (65 + n) := by decide
    have hc := hall ⟨c.toNat - 97, by omega⟩
    rw [Nat.add_sub_cancel' hlower.1, Char.ofNat_toNat] at hc
    exact .inr ⟨_, hc⟩
  · have hself : c.toUpper = c := dif_neg hlower
    rw [toUpper, hself]
    split_ifs
    · exact .inr ⟨8, rfl⟩
    · exact .inr ⟨18, rfl⟩
    · exact .inl rfl

theorem toUpper_toUpper (c : Char) : toUpper (toUpper c) = toUpper c := by
  have hall : ∀ n : Fin 26, toUpper (.ofNat (65 + n)) = .ofNat (65 + n) := by decide
  obtain hc | ⟨n, hc⟩ := toUpper_cases c
  · rw [hc, hc]
  · rw [hc, hall]

/-- **The strings that are parsed**, and what they are parsed to. -/
theorem parseAddress_iff {s : List Char} {a : Address} :
    parseAddress s = .ok a ↔ Written SignedDecimal s a := by
  have hup : ∀ c ∈ (trimSpace s).map toUpper, toUpper c = c :=
    List.forall_mem_map.mpr fun c _ => toUpper_toUpper c
  rw [Written, ← parseUpper_iff hup]
  refine ⟨parseAddress_eq_ok, fun h => ?_⟩
  have hne : trimSpace s ≠ [] := by
    intro hempty
    rw [hempty] at h
    cases h
  rw [parseAddress, if_neg hne, h]
  rfl

/-! ### Signs -/

/-- A sign stands in the text. -/
def HasSign (s : List Char) : Prop := '+' ∈ s ∨ '-' ∈ s

theorem mem_dropWhile_iff {α : Type} {p : α → Bool} {c : α} {l : List α} (hc : p c = false) :
    c ∈ l.dropWhile p ↔ c ∈ l := by
  refine ⟨fun h => List.dropWhile_subset p h, fun h => ?_⟩
  rw [← List.takeWhile_append_dropWhile (p := p) (l := l)] at h
  refine (List.mem_append.mp h).resolve_left fun hfront => ?_
  rw [List.mem_takeWhile_imp hfront] at hc
  cases hc

theorem mem_trimSpace {c : Char} {s : List Char} (hc : isSpace c = false) :
    c ∈ trimSpace s ↔ c ∈ s := by
  rw [trimSpace, List.rdropWhile, List.mem_reverse, mem_dropWhile_iff hc, List.mem_reverse,
    mem_dropWhile_iff hc]

/-- The space around a text and the case of its letters do not matter for a character that is
neither. -/
theorem mem_map_toUpper {c : Char} {s : List Char} (hspace : isSpace c = false)
    (hself : toUpper c = c) (hletter : ∀ n : Fin 26, .ofNat (65 + n) ≠ c) :
    c ∈ (trimSpace s).map toUpper ↔ c ∈ s := by
  refine ⟨fun h => ?_, fun h => ?_⟩
  · obtain ⟨c', hmem, hc'⟩ := List.mem_map.mp h
    obtain hcase | ⟨n, hcase⟩ := toUpper_cases c'
    · obtain rfl : c' = c := hcase.symm.trans hc'
      exact (mem_trimSpace hspace).mp hmem
    · exact absurd (hcase.symm.trans hc') (hletter n)
  · exact List.mem_map.mpr ⟨c, (mem_trimSpace hspace).mpr h, hself⟩

theorem hasSign_map_toUpper {s : List Char} : HasSign ((trimSpace s).map toUpper) ↔ HasSign s :=
  or_congr (mem_map_toUpper (by decide) (by decide) (by decide))
    (mem_map_toUpper (by decide) (by decide) (by decide))

theorem SuffixText.forall_mem {ft : FileType} {text : List Char} {f : NamedField}
    (h : SuffixText Decimal ft text f) : ∀ c ∈ text, c ≠ '+' ∧ c ≠ '-' := by
  have hnames : ∀ entry ∈ tableFor ft, entry.1.all fun c => c ≠ '+' ∧ c ≠ '-' := by
    cases ft <;> decide
  cases h with
  | none => exact List.forall_mem_nil _
  | bit _ h => exact List.forall_mem_cons.mpr ⟨by decide, h.forall_mem (by decide)⟩
  | field h =>
    exact List.forall_mem_cons.mpr ⟨by decide, List.all_iff_forall_prop.mp (hnames _ h)⟩

/-- A text with unsigned numbers has no sign. -/
theorem AddressText.not_hasSign {up : List Char} {a : Address} (h : AddressText Decimal up a) :
    ¬ HasSign up := by
  have hletter (ft : FileType) : ∀ c ∈ ft.letter, c ≠ '+' ∧ c ≠ '-' :=
    List.all_iff_forall_prop.mp (by cases ft <;> decide)
  have hplain : ∀ c ∈ up, c ≠ '+' ∧ c ≠ '-' := by
    obtain ⟨hnumber, helement, -, hsuffix⟩ := h
    simp only [List.forall_mem_append, List.forall_mem_cons]
    exact ⟨⟨⟨hletter _, hnumber.forall_mem (by decide)⟩, by decide,
      helement.forall_mem (by decide)⟩, hsuffix.forall_mem⟩
  rintro (hplus | hminus)
  · exact (hplain _ hplus).1 rfl
  · exact (hplain _ hminus).2 rfl

section
variable {num num' : List Char → ℕ → Prop}

theorem SuffixText.imp {ft : FileType} {text : List Char} {f : NamedField}
    (h : SuffixText num ft text f) (himp : ∀ t n, t ⊆ text → num t n → num' t n) :
    SuffixText num' ft text f := by
  cases h with
  | none => exact .none
  | bit hft h hn => exact .bit hft (himp _ _ (List.subset_cons_self _ _) h) hn
  | field h => exact .field h

/-- The same address with numbers of another kind. -/
theorem AddressText.imp {up : List Char} {a : Address} (h : AddressText num up a)
    (himp : ∀ t n, t ⊆ up → num t n → num' t n) : AddressText num' up a := by
  obtain ⟨hnumber, helement, hn, hsuffix⟩ := h
  refine .mk hnumber (himp _ _ (fun c hc => by simp [hc]) helement) hn (hsuffix.imp ?_)
  exact fun t n ht => himp t n fun c hc => List.mem_append_right _ (ht hc)

end

theorem SignedDecimal.decimal {text : List Char} {n : ℕ} (h : SignedDecimal text n)
    (hsign : ¬ HasSign text) : Decimal text n := by
  cases h with
  | unsigned h => exact h
  | plus => exact absurd (.inl List.mem_cons_self) hsign
  | minusZero => exact absurd (.inr List.mem_cons_self) hsign

/-- **The strings on which the parser accepts what is well formed**, and returns its parts: all but
those with a sign that would be well formed without it, a plus or a minus in front of zero. -/
theorem parseAddress_grammar_iff (s : List Char) :
    (∀ a, parseAddress s = .ok a ↔ Written Decimal s a) ↔
      ¬ ((∃ a, Written SignedDecimal s a) ∧ HasSign s) := by
  constructor
  · rintro h ⟨⟨a, ha⟩, hsign⟩
    have htext : Written Decimal s a := (h a).mp (parseAddress_iff.mpr ha)
    exact htext.not_hasSign (hasSign_map_toUpper.mpr hsign)
  · intro h a
    rw [parseAddress_iff]
    refine ⟨fun ha => ?_, fun ha => ha.imp fun _ _ _ => .unsigned⟩
    have hsign : ¬ HasSign ((trimSpace s).map toUpper) := fun hsign =>
      h ⟨⟨a, ha⟩, hasSign_map_toUpper.mp hsign⟩
    exact ha.imp fun text n hsub hn => hn.decimal fun htext => hsign (htext.imp (hsub ·) (hsub ·))

/-- `N7:+5` is parsed. -/
theorem parseAddress_plus :
    parseAddress ['N', '7', ':', '+', '5'] = .ok ⟨.integer, 7, 5, 0, -1⟩ ∧
      ¬ ∃ a, Written Decimal ['N', '7', ':', '+', '5'] a := by
  refine ⟨by decide +kernel, fun ⟨a, ha⟩ => ha.not_hasSign ?_⟩
  exact hasSign_map_toUpper.mpr (.inl (by decide))

end GoIndustrial.Pccc
