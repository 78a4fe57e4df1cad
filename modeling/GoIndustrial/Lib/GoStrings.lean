import Mathlib.Data.List.Infix
import Mathlib.Data.Nat.Digits.Lemmas
import Mathlib.Tactic.Common

/-!
# Go strings as lists of bytes

The functions of `strings` and `strconv` that parsers use, on the bytes of a string: trimming white
space, which is a set of byte sequences as UTF-8 encodes them, and decimal numbers.

White space is trimmed from the front one character after the other, and from the back likewise on
the reversed bytes; no encoding of a character is part of another at either end, so what is trimmed
does not depend on the order in which the characters are tried.

## Main definitions

* `GoStrings.trimSpace` : `strings.TrimSpace`.
* `GoStrings.parseUint` : `strconv.ParseUint` in base 10, with the largest value.
* `GoStrings.decimal` : the decimal text of a number.

## Main results

* `GoStrings.exists_trimSpace`, `GoStrings.trimSpace_numeral` : what is trimmed is white space, and
  all of it around a number.
* `GoStrings.parseUint_eq_some` : the texts that are numbers.
* `GoStrings.numeral_decimal`, `GoStrings.decimalValue_decimal` : the text of a number.
-/

namespace GoStrings

/-! ### Searching and joining -/

/-- What does not stand in the first part is searched for in the second. -/
theorem idxOf?_append_of_notMem {α : Type*} [BEq α] [LawfulBEq α] {c : α} {l : List α}
    (hc : c ∉ l) (r : List α) : (l ++ r).idxOf? c = (r.idxOf? c).map (· + l.length) := by
  have hl : l.findIdx? (· == c) = none := List.idxOf?_eq_none_iff.mpr hc
  simp only [List.idxOf?, List.findIdx?_append, hl, Option.none_or]

/-- A list is cut at the first place of an element. -/
theorem take_append_cons_drop {α : Type*} [BEq α] [LawfulBEq α] {c : α} {l : List α} {i : ℕ}
    (h : l.idxOf? c = some i) : l.take i ++ c :: l.drop (i + 1) = l := by
  obtain ⟨hi, rfl, -⟩ := List.idxOf?_eq_some_iff.mp h
  rw [← List.drop_eq_getElem_cons hi, List.take_append_drop]

/-- `strings.IndexByte`, `none` being `-1`. -/
def indexByte (s : List UInt8) (c : UInt8) : Option ℕ := s.idxOf? c

theorem indexByte_eq_none {s : List UInt8} {c : UInt8} : indexByte s c = none ↔ c ∉ s :=
  List.idxOf?_eq_none_iff

theorem indexByte_append {l : List UInt8} {c : UInt8} (hc : c ∉ l) (r : List UInt8) :
    indexByte (l ++ c :: r) c = some l.length := by
  simp [indexByte, idxOf?_append_of_notMem hc, List.idxOf?_cons]

theorem exists_append_of_indexByte {s : List UInt8} {c : UInt8} {i : ℕ}
    (h : indexByte s c = some i) : ∃ l r, s = l ++ c :: r ∧ c ∉ l ∧ l.length = i := by
  have hmem : c ∈ s := by
    by_contra hnot
    rw [indexByte_eq_none.mpr hnot] at h
    cases h
  obtain ⟨l, r, rfl, hc⟩ := List.eq_append_cons_of_mem hmem
  rw [indexByte_append hc] at h
  exact ⟨l, r, rfl, hc, Option.some.inj h⟩

section Intercalate

variable {α : Type*} {x : α}

theorem intercalate_cons_cons_head (x c : α) (l : List α) (ls : List (List α)) :
    [x].intercalate ((c :: l) :: ls) = c :: [x].intercalate (l :: ls) := by
  cases ls with
  | nil => simp
  | cons l' ls => simp [List.intercalate_cons_cons]

theorem intercalate_nil_cons (x : α) (l : List α) (ls : List (List α)) :
    [x].intercalate ([] :: l :: ls) = x :: [x].intercalate (l :: ls) := by
  simp [List.intercalate_cons_cons]

theorem intercalate_eq_nil {l : List α} {ls : List (List α)} :
    [x].intercalate (l :: ls) = [] ↔ l = [] ∧ ls = [] := by
  cases l with
  | nil =>
    cases ls with
    | nil => simp
    | cons l' ls =>
      rw [intercalate_nil_cons]
      simp
  | cons c l =>
    rw [intercalate_cons_cons_head]
    simp

/-- The first byte of a joined text is the first of a piece, or the separator behind an empty
one. -/
theorem intercalate_eq_cons {c : α} {r l : List α} {ls : List (List α)} :
    c :: r = [x].intercalate (l :: ls) ↔
      (∃ l', l = c :: l' ∧ r = [x].intercalate (l' :: ls)) ∨
        (l = [] ∧ c = x ∧ ∃ l' ls', ls = l' :: ls' ∧ r = [x].intercalate (l' :: ls')) := by
  cases l with
  | nil =>
    cases ls with
    | nil => simp
    | cons l' ls =>
      rw [intercalate_nil_cons]
      simp
  | cons d l =>
    rw [intercalate_cons_cons_head]
    constructor
    · intro h
      obtain ⟨rfl, rfl⟩ := List.cons.inj h
      exact .inl ⟨l, rfl, rfl⟩
    · rintro (⟨l', h, rfl⟩ | ⟨h, -⟩)
      · obtain ⟨rfl, rfl⟩ := List.cons.inj h
        rfl
      · cases h

theorem mem_intercalate {c : α} {ls : List (List α)} (h : c ∈ [x].intercalate ls) :
    c = x ∨ ∃ l ∈ ls, c ∈ l := by
  induction ls with
  | nil => simp at h
  | cons l ls ih =>
    cases ls with
    | nil => exact .inr ⟨l, List.mem_cons_self, by simpa using h⟩
    | cons l' ls =>
      rw [List.intercalate_cons_cons, List.append_assoc, List.mem_append, List.singleton_append,
        List.mem_cons] at h
      rcases h with h | h | h
      · exact .inr ⟨l, List.mem_cons_self, h⟩
      · exact .inl h
      · obtain h | ⟨l₀, hl₀, hc⟩ := ih h
        · exact .inl h
        · exact .inr ⟨l₀, List.mem_cons_of_mem l hl₀, hc⟩

end Intercalate

/-! ### Trimming -/

section Trim

variable {α : Type*} [DecidableEq α]

/-- Take tokens from the front of `s`, at most `n` of them. -/
def trimLoop (tokens : List (List α)) : ℕ → List α → List α
  | 0, s => s
  | n + 1, s =>
    match tokens.find? (·.isPrefixOf s) with
    | none => s
    | some t => trimLoop tokens n (s.drop t.length)

/-- Take all tokens from the front of `s`. -/
def trimTokens (tokens : List (List α)) (s : List α) : List α := trimLoop tokens s.length s

/-- A sequence of tokens. -/
inductive Tokens (tokens : List (List α)) : List α → Prop
  | nil : Tokens tokens []
  | cons {t s : List α} (ht : t ∈ tokens) (hs : Tokens tokens s) : Tokens tokens (t ++ s)

/-- No token is empty, and none begins with another. -/
def PrefixFree (tokens : List (List α)) : Prop :=
  (∀ t ∈ tokens, t ≠ []) ∧ ∀ t ∈ tokens, ∀ t' ∈ tokens, t <+: t' → t = t'

instance (tokens : List (List α)) : Decidable (PrefixFree tokens) :=
  inferInstanceAs (Decidable (_ ∧ _))

/-- `s` does not begin with a token. -/
def NoToken (tokens : List (List α)) (s : List α) : Prop := ∀ t ∈ tokens, ¬ t <+: s

variable {tokens : List (List α)} {s : List α} {n : ℕ}

theorem trimLoop_of_noToken (h : NoToken tokens s) : trimLoop tokens n s = s := by
  cases n with
  | zero => rfl
  | succ n =>
    have hnone : tokens.find? (·.isPrefixOf s) = none := by
      rw [List.find?_eq_none]
      exact fun t ht hp => h t ht (List.isPrefixOf_iff_prefix.mp hp)
    rw [trimLoop, hnone]

/-- What is trimmed is a sequence of tokens. -/
theorem exists_trimLoop (tokens : List (List α)) (n : ℕ) (s : List α) :
    ∃ l, Tokens tokens l ∧ s = l ++ trimLoop tokens n s := by
  induction n generalizing s with
  | zero => exact ⟨[], .nil, rfl⟩
  | succ n ih =>
    rw [trimLoop]
    cases hfind : tokens.find? (·.isPrefixOf s) with
    | none => exact ⟨[], .nil, rfl⟩
    | some t =>
      have hp : t.isPrefixOf s := by simpa using List.find?_some hfind
      obtain ⟨rest, rfl⟩ := List.isPrefixOf_iff_prefix.mp hp
      obtain ⟨l, hl, hrest⟩ := ih rest
      refine ⟨t ++ l, .cons (List.mem_of_find?_eq_some hfind) hl, ?_⟩
      dsimp only
      rw [List.drop_left, List.append_assoc, ← hrest]

theorem find_token (hfree : PrefixFree tokens) {t : List α} (ht : t ∈ tokens) (rest : List α) :
    tokens.find? (·.isPrefixOf (t ++ rest)) = some t := by
  cases hfind : tokens.find? (·.isPrefixOf (t ++ rest)) with
  | none =>
    have hnot := List.find?_eq_none.mp hfind t ht
    exact absurd (List.isPrefixOf_iff_prefix.mpr (List.prefix_append t rest)) hnot
  | some t' =>
    have hmem := List.mem_of_find?_eq_some hfind
    have hp : t'.isPrefixOf (t ++ rest) := by simpa using List.find?_some hfind
    rcases List.prefix_or_prefix_of_prefix (List.isPrefixOf_iff_prefix.mp hp)
      (List.prefix_append t rest) with h | h
    · rw [hfree.2 t' hmem t ht h]
    · rw [hfree.2 t ht t' hmem h]

/-- A sequence of tokens is trimmed. -/
theorem trimLoop_append (hfree : PrefixFree tokens) {l : List α} (hl : Tokens tokens l)
    (hs : NoToken tokens s) (hn : l.length ≤ n) : trimLoop tokens n (l ++ s) = s := by
  induction hl generalizing n with
  | nil => exact trimLoop_of_noToken hs
  | @cons t l ht _ ih =>
    have hpos := List.length_pos_of_ne_nil (hfree.1 t ht)
    rw [List.length_append] at hn
    obtain ⟨n, rfl⟩ := Nat.exists_eq_add_of_lt (show 0 < n by omega)
    rw [Nat.zero_add, trimLoop, List.append_assoc, find_token hfree ht]
    dsimp only
    rw [List.drop_left]
    exact ih (by omega)

theorem exists_trimTokens (tokens : List (List α)) (s : List α) :
    ∃ l, Tokens tokens l ∧ s = l ++ trimTokens tokens s := exists_trimLoop tokens s.length s

theorem trimTokens_append (hfree : PrefixFree tokens) {l : List α} (hl : Tokens tokens l)
    (hs : NoToken tokens s) : trimTokens tokens (l ++ s) = s :=
  trimLoop_append hfree hl hs (by rw [List.length_append]; exact Nat.le_add_right _ _)

omit [DecidableEq α] in
theorem Tokens.append {l l' : List α} (h : Tokens tokens l) (h' : Tokens tokens l') :
    Tokens tokens (l ++ l') := by
  induction h with
  | nil => exact h'
  | cons ht _ ih =>
    rw [List.append_assoc]
    exact .cons ht ih

omit [DecidableEq α] in
theorem Tokens.reverse {l : List α} (h : Tokens tokens l) :
    Tokens (tokens.map List.reverse) l.reverse := by
  induction h with
  | nil => exact .nil
  | @cons t l ht _ ih =>
    have htoken : Tokens (tokens.map List.reverse) (t.reverse ++ []) :=
      .cons (List.mem_map_of_mem ht) .nil
    rw [List.append_nil] at htoken
    rw [List.reverse_append]
    exact ih.append htoken

end Trim

/-! ### White space -/

/-- The encodings of the characters for which `unicode.IsSpace` holds. -/
def spaces : List (List UInt8) :=
  [[0x09], [0x0A], [0x0B], [0x0C], [0x0D], [0x20], [0xC2, 0x85], [0xC2, 0xA0], [0xE1, 0x9A, 0x80],
    [0xE2, 0x80, 0x80], [0xE2, 0x80, 0x81], [0xE2, 0x80, 0x82], [0xE2, 0x80, 0x83],
    [0xE2, 0x80, 0x84], [0xE2, 0x80, 0x85], [0xE2, 0x80, 0x86], [0xE2, 0x80, 0x87],
    [0xE2, 0x80, 0x88], [0xE2, 0x80, 0x89], [0xE2, 0x80, 0x8A], [0xE2, 0x80, 0xA8],
    [0xE2, 0x80, 0xA9], [0xE2, 0x80, 0xAF], [0xE2, 0x81, 0x9F], [0xE3, 0x80, 0x80]]

/-- `strings.TrimSpace`. -/
def trimSpace (s : List UInt8) : List UInt8 :=
  (trimTokens (spaces.map List.reverse) (trimTokens spaces s).reverse).reverse

/-- White space. -/
def Spaces (s : List UInt8) : Prop := Tokens spaces s

theorem prefixFree_spaces : PrefixFree spaces := by decide

theorem prefixFree_reverse_spaces : PrefixFree (spaces.map List.reverse) := by decide

/-- A string is what is left of it with white space around it. -/
theorem exists_trimSpace (s : List UInt8) :
    ∃ l r, Spaces l ∧ Spaces r ∧ s = l ++ (trimSpace s ++ r) := by
  obtain ⟨l, hl, hs⟩ := exists_trimTokens spaces s
  obtain ⟨r, hr, hrest⟩ :=
    exists_trimTokens (spaces.map List.reverse) (trimTokens spaces s).reverse
  have hback : (spaces.map List.reverse).map List.reverse = spaces := by simp
  have hspaces := hr.reverse
  rw [hback] at hspaces
  refine ⟨l, r.reverse, hl, hspaces, ?_⟩
  rw [trimSpace, ← List.reverse_append, ← hrest, List.reverse_reverse]
  exact hs

/-- White space around a string without white space at its ends is trimmed. -/
theorem trimSpace_append {l m r : List UInt8} (hl : Spaces l) (hr : Spaces r)
    (hfront : NoToken spaces (m ++ r)) (hback : NoToken (spaces.map List.reverse) m.reverse) :
    trimSpace (l ++ (m ++ r)) = m := by
  rw [trimSpace, trimTokens_append prefixFree_spaces hl hfront, List.reverse_append,
    trimTokens_append prefixFree_reverse_spaces hr.reverse hback, List.reverse_reverse]

theorem Spaces.mem {s : List UInt8} (h : Spaces s) {c : UInt8} (hc : c ∈ s) :
    ∃ t ∈ spaces, c ∈ t := by
  induction h with
  | nil => cases hc
  | cons ht _ ih =>
    rcases List.mem_append.mp hc with hc | hc
    · exact ⟨_, ht, hc⟩
    · exact ih hc

/-! ### Decimal numbers -/

def isDigit (c : UInt8) : Bool := 0x30 ≤ c && c ≤ 0x39

def digitValue (c : UInt8) : ℕ := c.toNat - 0x30

/-- The number that a sequence of digits stands for. -/
def decimalValue (s : List UInt8) : ℕ := s.foldl (fun n c => n * 10 + digitValue c) 0

/-- One round of the loop of `strconv.ParseUint`. -/
def parseDigit (limit n : ℕ) (c : UInt8) : Option ℕ :=
  if isDigit c then
    let n1 := n * 10 + digitValue c
    if limit < n1 then none else some n1
  else none

/-- `strconv.ParseUint` in base 10, for a type whose largest value is `limit`. -/
def parseUint (limit : ℕ) (s : List UInt8) : Option ℕ :=
  if s = [] then none else s.foldlM (parseDigit limit) 0

/-- A sequence of digits, at least one. -/
def Numeral (s : List UInt8) : Prop := s ≠ [] ∧ ∀ c ∈ s, isDigit c

instance (s : List UInt8) : Decidable (Numeral s) := inferInstanceAs (Decidable (_ ∧ _))

theorem parseDigit_eq_some {limit n m : ℕ} {c : UInt8} :
    parseDigit limit n c = some m ↔
      isDigit c ∧ n * 10 + digitValue c = m ∧ m ≤ limit := by
  unfold parseDigit
  by_cases hc : isDigit c
  · by_cases hm : limit < n * 10 + digitValue c
    · simp only [hc, hm, if_true, reduceCtorEq, false_iff]
      rintro ⟨-, rfl, hle⟩
      omega
    · simp only [hc, hm, if_true, if_false, Option.some.injEq, true_and]
      exact ⟨fun h => ⟨h, by omega⟩, And.left⟩
  · simp [hc]

theorem le_foldl_digits (s : List UInt8) (n : ℕ) :
    n ≤ s.foldl (fun n c => n * 10 + digitValue c) n := by
  induction s generalizing n with
  | nil => exact le_rfl
  | cons c s ih => exact le_trans (by omega) (ih (n * 10 + digitValue c))

theorem foldlM_parseDigit {limit : ℕ} (s : List UInt8) {n m : ℕ} (hn : n ≤ limit) :
    s.foldlM (parseDigit limit) n = some m ↔
      (∀ c ∈ s, isDigit c) ∧ s.foldl (fun n c => n * 10 + digitValue c) n = m ∧ m ≤ limit := by
  induction s generalizing n with
  | nil =>
    simp only [List.foldlM_nil, Option.pure_def, Option.some.injEq, List.foldl_nil]
    exact ⟨fun h => ⟨by simp, h, h ▸ hn⟩, fun h => h.2.1⟩
  | cons c s ih =>
    rw [List.foldlM_cons, Option.bind_eq_bind, Option.bind_eq_some_iff, List.forall_mem_cons]
    constructor
    · rintro ⟨n1, hc, hs⟩
      obtain ⟨hdigit, rfl, hle⟩ := parseDigit_eq_some.mp hc
      obtain ⟨hall, hm, hlimit⟩ := (ih hle).mp hs
      exact ⟨⟨hdigit, hall⟩, hm, hlimit⟩
    · rintro ⟨⟨hdigit, hall⟩, hm, hlimit⟩
      -- the number only grows, so a number within the limit was within it all along
      have hle : n * 10 + digitValue c ≤ limit :=
        (le_foldl_digits s _).trans (hm.trans_le hlimit)
      exact ⟨_, parseDigit_eq_some.mpr ⟨hdigit, rfl, hle⟩, (ih hle).mpr ⟨hall, hm, hlimit⟩⟩

theorem parseUint_eq_some {limit n : ℕ} {s : List UInt8} :
    parseUint limit s = some n ↔ Numeral s ∧ decimalValue s = n ∧ n ≤ limit := by
  unfold parseUint
  by_cases hs : s = []
  · simp [hs, Numeral]
  · rw [if_neg hs, foldlM_parseDigit s (Nat.zero_le limit)]
    simp [Numeral, hs, decimalValue]

/-- The decimal text of a number. -/
def decimal (n : ℕ) : List UInt8 :=
  if n = 0 then [0x30] else (Nat.digits 10 n).reverse.map fun d => 0x30 + UInt8.ofNat d

theorem isDigit_ofNat {d : ℕ} (hd : d < 10) : isDigit (0x30 + UInt8.ofNat d) := by
  interval_cases d <;> decide

theorem digitValue_ofNat {d : ℕ} (hd : d < 10) : digitValue (0x30 + UInt8.ofNat d) = d := by
  interval_cases d <;> decide

theorem numeral_decimal (n : ℕ) : Numeral (decimal n) := by
  unfold decimal
  by_cases hn : n = 0
  · rw [if_pos hn]
    decide +kernel
  · rw [if_neg hn]
    refine ⟨by simpa [Nat.digits_eq_nil_iff_eq_zero] using hn, fun c hc => ?_⟩
    obtain ⟨d, hd, rfl⟩ := List.mem_map.mp hc
    exact isDigit_ofNat (Nat.digits_lt_base (by decide) (List.mem_reverse.mp hd))

theorem decimalValue_map_reverse {l : List ℕ} (hl : ∀ d ∈ l, d < 10) :
    decimalValue (l.reverse.map fun d => 0x30 + UInt8.ofNat d) = Nat.ofDigits 10 l := by
  rw [decimalValue, List.foldl_map, List.foldl_reverse]
  induction l with
  | nil => rfl
  | cons d l ih =>
    rw [List.forall_mem_cons] at hl
    rw [List.foldr_cons, ih hl.2, digitValue_ofNat hl.1, Nat.ofDigits_cons]
    omega

theorem decimalValue_decimal (n : ℕ) : decimalValue (decimal n) = n := by
  unfold decimal
  by_cases hn : n = 0
  · rw [if_pos hn, hn]
    decide
  · rw [if_neg hn, decimalValue_map_reverse fun d hd => Nat.digits_lt_base (by decide) hd,
      Nat.ofDigits_digits]

/-! ### Numbers among white space -/

theorem noToken_of_digit {c : UInt8} (hc : isDigit c) (s : List UInt8) :
    NoToken spaces (c :: s) ∧ NoToken (spaces.map List.reverse) (c :: s) := by
  have hends : ∀ t ∈ spaces ++ spaces.map List.reverse, t.head?.all (!isDigit ·) ∧ t ≠ [] := by
    decide
  have hnot : ∀ t ∈ spaces ++ spaces.map List.reverse, ¬ t <+: c :: s := by
    intro t ht hp
    obtain ⟨hhead, hne⟩ := hends t ht
    obtain ⟨c', t', rfl⟩ := List.exists_cons_of_ne_nil hne
    obtain ⟨rfl, -⟩ := List.cons_prefix_cons.mp hp
    simp [hc] at hhead
  exact ⟨fun t ht => hnot t (List.mem_append_left _ ht),
    fun t ht => hnot t (List.mem_append_right _ ht)⟩

/-- White space around a number is trimmed. -/
theorem trimSpace_numeral {l m r : List UInt8} (hl : Spaces l) (hr : Spaces r)
    (hm : Numeral m) : trimSpace (l ++ (m ++ r)) = m := by
  apply trimSpace_append hl hr
  · obtain ⟨c, m', rfl⟩ := List.exists_cons_of_ne_nil hm.1
    exact (noToken_of_digit (hm.2 c List.mem_cons_self) (m' ++ r)).1
  · obtain ⟨m', c, rfl⟩ := (List.eq_nil_or_concat' m).resolve_left hm.1
    rw [List.reverse_append]
    exact (noToken_of_digit (hm.2 c (by simp)) m'.reverse).2

end GoStrings
