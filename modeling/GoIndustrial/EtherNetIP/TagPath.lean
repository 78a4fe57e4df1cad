import GoIndustrial.EtherNetIP.EPath
import GoIndustrial.Lib.GoStrings
import GoIndustrial.Lib.SafeCode

/-!
# Tag paths

`ParseTagPath` of `protocol/ethernetip/cip/tag.go` turns the text of a tag into a path. The text is
split at the dots outside brackets, each part is split into a name and the numbers in its brackets,
and a name becomes a symbol, or a member if it is made of digits and is not the first one.

What the parser accepts is described here by a syntax of its own: a tag is a first item and further
items, an item is a symbol, a member or nothing, with a list of index numbers. The parser accepts a
text if and only if it is the text of such a tag, and the path is then that of its segments.

## Main definitions

* `EtherNetIP.splitTagSegments`, `EtherNetIP.parseTagSegment`, `EtherNetIP.parseTagPath`.
* `EtherNetIP.TagSyntax`, `EtherNetIP.TagSyntax.Writes` : tags, and the texts that write them.
* `EtherNetIP.Documented` : the texts of tags that begin with a symbol.

## Main results

* `EtherNetIP.parseTagPath_eq_ok` : what is accepted, and the path.
* `EtherNetIP.TagSyntax.Writes.unique` : a text writes at most one tag.
* `EtherNetIP.onlyDocumented_iff` : a text is accepted for a documented tag only, if and only if it
  does not begin with an index list.
-/

namespace GoIndustrial.EtherNetIP

open GoStrings

def dot : UInt8 := 0x2E
def comma : UInt8 := 0x2C
def openBracket : UInt8 := 0x5B
def closeBracket : UInt8 := 0x5D

/-! ### The parser -/

/-- The errors of `parseTagSegment`, with the texts that their messages quote. -/
inductive SegmentErr
  | notClosed (seg : List UInt8)
  | emptyIndex (seg : List UInt8)
  | emptyIndexValue (seg : List UInt8)
  | invalidIndex (seg part : List UInt8)
  deriving DecidableEq, Repr

/-- The errors of `ParseTagPath`, with the texts that their messages quote. -/
inductive TagErr
  | empty
  | unmatchedClose (tag : List UInt8)
  | unmatchedOpen (tag : List UInt8)
  | segment (tag : List UInt8) (err : SegmentErr)
  | emptySegment (tag : List UInt8)
  | invalidMember (tag name : List UInt8)
  deriving DecidableEq, Repr

/-- The loop of `splitTagSegments`: `cur` is the text from the start of the part to the byte that
comes next. -/
def splitLoop (tag : List UInt8) :
    (rest cur : List UInt8) → (depth : ℕ) → (parts : List (List UInt8)) →
      Except TagErr (List (List UInt8))
  | [], cur, depth, parts =>
    if depth ≠ 0 then .error (.unmatchedOpen tag) else .ok (parts ++ [cur])
  | c :: rest, cur, depth, parts =>
    if c = openBracket then splitLoop tag rest (cur ++ [c]) (depth + 1) parts
    else if c = closeBracket then
      if depth = 0 then .error (.unmatchedClose tag)
      else splitLoop tag rest (cur ++ [c]) (depth - 1) parts
    else if c = dot ∧ depth = 0 then splitLoop tag rest [] depth (parts ++ [cur])
    else splitLoop tag rest (cur ++ [c]) depth parts

def splitTagSegments (tag : List UInt8) : Except TagErr (List (List UInt8)) :=
  splitLoop tag tag [] 0 []

/-- The largest number of 32 bits. -/
def maxUint32 : ℕ := 0xFFFFFFFF

/-- One round of the loop of `parseTagSegment`. -/
def parseIndex (seg part : List UInt8) : Except SegmentErr UInt32 :=
  let part := trimSpace part
  if part = [] then .error (.emptyIndexValue seg)
  else
    match parseUint maxUint32 part with
    | none => .error (.invalidIndex seg part)
    | some n => .ok (UInt32.ofNat n)

/-- The name and the indices of a part. The bracket that opens stands before the last byte, which
closes, so the slice between them is within the part. -/
def parseTagSegment (seg : List UInt8) : Except SegmentErr (List UInt8 × List UInt32) :=
  match indexByte seg openBracket with
  | none => .ok (seg, [])
  | some i =>
    let name := seg.take i
    if seg.getLast? ≠ some closeBracket then .error (.notClosed seg)
    else
      let inner := (seg.take (seg.length - 1)).drop (i + 1)
      if inner = [] then .error (.emptyIndex seg)
      else do
        let indices ← (inner.splitOn comma).mapM (parseIndex seg)
        .ok (name, indices)

def isAllDigits (s : List UInt8) : Bool := if s = [] then false else s.all isDigit

/-- The segment for the name of the part with number `i`. -/
def addName (tag : List UInt8) (i : ℕ) (name path : List UInt8) : Except TagErr (List UInt8) :=
  if name ≠ [] then
    if 0 < i ∧ isAllDigits name then
      match parseUint maxUint32 name with
      | none => .error (.invalidMember tag name)
      | some n => .ok (addMember32 path (UInt32.ofNat n))
    else .ok (addSymbolicSegment path name)
  else .ok path

/-- One round of the loop of `ParseTagPath`. -/
def addPart (tag : List UInt8) (i : ℕ) (part path : List UInt8) : Except TagErr (List UInt8) :=
  match parseTagSegment part with
  | .error err => .error (.segment tag err)
  | .ok (name, indices) =>
    if name = [] ∧ indices.length = 0 then .error (.emptySegment tag)
    else do
      let path ← addName tag i name path
      .ok (indices.foldl addMember32 path)

def addParts (tag : List UInt8) : ℕ → List (List UInt8) → List UInt8 →
    Except TagErr (List UInt8)
  | _, [], path => .ok path
  | i, part :: parts, path => do
    let path ← addPart tag i part path
    addParts tag (i + 1) parts path

def parseTagPath (tag : List UInt8) : Except TagErr (List UInt8) :=
  if tag = [] then .error .empty
  else do
    let parts ← splitTagSegments tag
    addParts tag 0 parts []

/-! ### The syntax of tags -/

/-- A text without dots and brackets. -/
def Plain (s : List UInt8) : Prop := dot ∉ s ∧ openBracket ∉ s ∧ closeBracket ∉ s

instance (s : List UInt8) : Decidable (Plain s) := inferInstanceAs (Decidable (_ ∧ _))

/-- The text is a numeral for `id` with white space around it. -/
def IndexText (id : UInt32) (text : List UInt8) : Prop :=
  ∃ l m r, Spaces l ∧ Spaces r ∧ Numeral m ∧ decimalValue m = id.toNat ∧ text = l ++ (m ++ r)

/-- The text has index numbers with commas between them, at least one. -/
def IndexList (ids : List UInt32) (inner : List UInt8) : Prop :=
  ids ≠ [] ∧ ∃ texts, List.Forall₂ IndexText ids texts ∧ inner = [comma].intercalate texts

/-- An item of a tag: a symbol, a member or nothing, and index numbers. -/
@[ext]
structure Item where
  head : Option Segment
  indices : List UInt32
  deriving DecidableEq, Repr

def Item.segments (item : Item) : List Segment :=
  item.head.toList ++ item.indices.map .member

/-- The text before the brackets. The first name of a tag is a symbol even if it is a numeral, the
others are then members. -/
inductive HeadText (first : Bool) : Option Segment → List UInt8 → Prop
  | bare : HeadText first none []
  | symbol {name : List UInt8} (hne : name ≠ []) (hplain : Plain name)
      (hkind : first ∨ ¬ Numeral name) : HeadText first (some (.symbol name)) name
  | member {id : UInt32} {text : List UInt8} (hfirst : first = false) (hnum : Numeral text)
      (hid : decimalValue text = id.toNat) : HeadText first (some (.member id)) text

inductive ItemText (first : Bool) : Item → List UInt8 → Prop
  | plain {head : Option Segment} {name : List UInt8} (hhead : HeadText first head name)
      (hne : name ≠ []) : ItemText first ⟨head, []⟩ name
  | indexed {head : Option Segment} {name inner : List UInt8} {ids : List UInt32}
      (hhead : HeadText first head name) (hids : IndexList ids inner) :
      ItemText first ⟨head, ids⟩ (name ++ openBracket :: (inner ++ [closeBracket]))

/-- A tag: its first item and the items behind dots. -/
@[ext]
structure TagSyntax where
  first : Item
  rest : List Item
  deriving DecidableEq, Repr

namespace TagSyntax

def segments (t : TagSyntax) : List Segment := (t.first :: t.rest).flatMap Item.segments

/-- The text writes the tag. -/
def Writes (t : TagSyntax) (tag : List UInt8) : Prop :=
  ∃ text texts, ItemText true t.first text ∧ List.Forall₂ (ItemText false) t.rest texts ∧
    tag = [dot].intercalate (text :: texts)

end TagSyntax

/-! ### Splitting at dots -/

/-- The depth of brackets behind a text that begins at the depth, `none` if a bracket closes that
was not opened or there is a dot outside brackets. -/
def scan : ℕ → List UInt8 → Option ℕ
  | depth, [] => some depth
  | depth, c :: rest =>
    if c = openBracket then scan (depth + 1) rest
    else if c = closeBracket then if depth = 0 then none else scan (depth - 1) rest
    else if c = dot ∧ depth = 0 then none
    else scan depth rest

/-- Brackets are closed and have all dots in them. -/
def Closed (part : List UInt8) : Prop := scan 0 part = some 0

/-- The text consists of the pieces with dots between them; the first begins at the depth. -/
structure Pieces (depth : ℕ) (text p : List UInt8) (ps : List (List UInt8)) : Prop where
  first : scan depth p = some 0
  closed : ∀ q ∈ ps, Closed q
  joined : text = [dot].intercalate (p :: ps)

theorem pieces_nil {depth : ℕ} {p : List UInt8} {ps : List (List UInt8)} :
    Pieces depth [] p ps ↔ depth = 0 ∧ p = [] ∧ ps = [] := by
  constructor
  · intro h
    obtain ⟨rfl, rfl⟩ := intercalate_eq_nil.mp h.joined.symm
    exact ⟨Option.some.inj h.first, rfl, rfl⟩
  · rintro ⟨rfl, rfl, rfl⟩
    exact ⟨rfl, by simp, rfl⟩

/-- A dot outside brackets ends a piece. -/
theorem pieces_dot {rest p : List UInt8} {ps : List (List UInt8)} :
    Pieces 0 (dot :: rest) p ps ↔ p = [] ∧ ∃ q qs, ps = q :: qs ∧ Pieces 0 rest q qs := by
  constructor
  · rintro ⟨hfirst, hclosed, hjoined⟩
    rcases intercalate_eq_cons.mp hjoined with ⟨p', rfl, -⟩ | ⟨rfl, -, q, qs, rfl, hrest⟩
    · exact absurd hfirst (by simp [scan, dot, openBracket, closeBracket])
    · rw [List.forall_mem_cons] at hclosed
      exact ⟨rfl, q, qs, rfl, hclosed.1, hclosed.2, hrest⟩
  · rintro ⟨rfl, q, qs, rfl, hfirst, hclosed, rfl⟩
    exact ⟨rfl, List.forall_mem_cons.mpr ⟨hfirst, hclosed⟩, (intercalate_nil_cons dot q qs).symm⟩

/-- Another byte belongs to the first piece. -/
theorem pieces_cons {depth : ℕ} {c : UInt8} {rest p : List UInt8} {ps : List (List UInt8)}
    (hc : ¬ (c = dot ∧ depth = 0)) :
    Pieces depth (c :: rest) p ps ↔
      ∃ p', p = c :: p' ∧ scan depth (c :: p') = some 0 ∧ (∀ q ∈ ps, Closed q) ∧
        rest = [dot].intercalate (p' :: ps) := by
  constructor
  · rintro ⟨hfirst, hclosed, hjoined⟩
    rcases intercalate_eq_cons.mp hjoined with ⟨p', rfl, hrest⟩ | ⟨rfl, rfl, -⟩
    · exact ⟨p', rfl, hfirst, hclosed, hrest⟩
    · exact absurd ⟨rfl, Option.some.inj hfirst⟩ hc
  · rintro ⟨p', rfl, hfirst, hclosed, rfl⟩
    exact ⟨hfirst, hclosed, (intercalate_cons_cons_head dot c p' ps).symm⟩

/-- The byte `c` leads from one depth to the other, and the loop goes on with it in the part. -/
theorem exists_pieces_cons {depth depth' : ℕ} {c : UInt8} {rest cur : List UInt8}
    {parts r : List (List UInt8)} (hc : ¬ (c = dot ∧ depth = 0))
    (hscan : ∀ p, scan depth (c :: p) = scan depth' p) :
    (∃ p ps, r = parts ++ (cur ++ [c] ++ p) :: ps ∧ Pieces depth' rest p ps) ↔
      ∃ p ps, r = parts ++ (cur ++ p) :: ps ∧ Pieces depth (c :: rest) p ps := by
  constructor
  · rintro ⟨p, ps, rfl, hfirst, hclosed, hrest⟩
    refine ⟨c :: p, ps, by simp, (pieces_cons hc).mpr ⟨p, rfl, ?_, hclosed, hrest⟩⟩
    rw [hscan, hfirst]
  · rintro ⟨p, ps, rfl, h⟩
    obtain ⟨p', rfl, hfirst, hclosed, hrest⟩ := (pieces_cons hc).mp h
    exact ⟨p', ps, by simp, hscan p' ▸ hfirst, hclosed, hrest⟩

theorem splitLoop_eq_ok {tag : List UInt8} (rest cur : List UInt8) (depth : ℕ)
    (parts r : List (List UInt8)) :
    splitLoop tag rest cur depth parts = .ok r ↔
      ∃ p ps, r = parts ++ (cur ++ p) :: ps ∧ Pieces depth rest p ps := by
  induction rest generalizing cur depth parts with
  | nil =>
    simp only [splitLoop, pieces_nil]
    by_cases hdepth : depth = 0
    · simp [hdepth, eq_comm]
    · simp [hdepth]
  | cons c rest ih =>
    rw [splitLoop]
    by_cases hopen : c = openBracket
    · have hdot : ¬ (c = dot ∧ depth = 0) := by
        rintro ⟨h, -⟩
        exact absurd (hopen.symm.trans h) (by decide)
      rw [if_pos hopen, ih, exists_pieces_cons hdot fun p => by rw [scan, if_pos hopen]]
    rw [if_neg hopen]
    by_cases hclose : c = closeBracket
    · have hdot : ¬ (c = dot ∧ depth = 0) := by
        rintro ⟨h, -⟩
        exact absurd (hclose.symm.trans h) (by decide)
      rw [if_pos hclose]
      by_cases hdepth : depth = 0
      · -- the bracket closes nothing
        rw [if_pos hdepth]
        refine iff_of_false (by simp) ?_
        rintro ⟨p, ps, -, h⟩
        obtain ⟨p', -, hfirst, -⟩ := (pieces_cons hdot).mp h
        rw [scan, if_neg hopen, if_pos hclose, if_pos hdepth] at hfirst
        cases hfirst
      · rw [if_neg hdepth, ih, exists_pieces_cons hdot fun p => by
          rw [scan, if_neg hopen, if_pos hclose, if_neg hdepth]]
    rw [if_neg hclose]
    by_cases hdot : c = dot ∧ depth = 0
    · obtain ⟨rfl, rfl⟩ := hdot
      rw [if_pos ⟨rfl, rfl⟩, ih]
      simp only [pieces_dot, List.nil_append, List.append_assoc, List.singleton_append]
      constructor
      · rintro ⟨p, ps, rfl, h⟩
        exact ⟨[], p :: ps, by simp, rfl, p, ps, rfl, h⟩
      · rintro ⟨-, -, rfl, rfl, q, qs, rfl, h⟩
        exact ⟨q, qs, by simp, h⟩
    · rw [if_neg hdot, ih, exists_pieces_cons hdot fun p => by
        rw [scan, if_neg hopen, if_neg hclose, if_neg hdot]]

/-- The parts of a text are closed and have the dots between them. -/
theorem splitTagSegments_eq_ok {tag : List UInt8} {parts : List (List UInt8)} :
    splitTagSegments tag = .ok parts ↔
      parts ≠ [] ∧ (∀ part ∈ parts, Closed part) ∧ tag = [dot].intercalate parts := by
  rw [splitTagSegments, splitLoop_eq_ok]
  constructor
  · rintro ⟨p, ps, rfl, hfirst, hclosed, rfl⟩
    exact ⟨by simp, List.forall_mem_cons.mpr ⟨hfirst, hclosed⟩, rfl⟩
  · rintro ⟨hne, hclosed, rfl⟩
    obtain ⟨p, ps, rfl⟩ := List.exists_cons_of_ne_nil hne
    rw [List.forall_mem_cons] at hclosed
    exact ⟨p, ps, rfl, hclosed.1, hclosed.2, rfl⟩

/-! ### Indices -/

theorem parseUint_eq_some_toNat {s : List UInt8} {n : ℕ} (h : parseUint maxUint32 s = some n) :
    Numeral s ∧ decimalValue s = (UInt32.ofNat n).toNat := by
  obtain ⟨hnum, hvalue, hle⟩ := parseUint_eq_some.mp h
  refine ⟨hnum, ?_⟩
  rw [hvalue, UInt32.toNat_ofNat']
  exact (Nat.mod_eq_of_lt (Nat.lt_succ_of_le hle)).symm

theorem parseUint_toNat {s : List UInt8} {id : UInt32} (hnum : Numeral s)
    (hid : decimalValue s = id.toNat) : parseUint maxUint32 s = some id.toNat :=
  parseUint_eq_some.mpr ⟨hnum, hid, Nat.le_of_lt_succ id.toNat_lt⟩

theorem parseIndex_eq_ok {seg text : List UInt8} {id : UInt32} :
    parseIndex seg text = .ok id ↔ IndexText id text := by
  constructor
  · intro h
    simp only [parseIndex] at h
    split_ifs at h with hempty
    cases hparse : parseUint maxUint32 (trimSpace text) with
    | none => simp [hparse] at h
    | some n =>
      obtain ⟨hnum, hvalue⟩ := parseUint_eq_some_toNat hparse
      obtain ⟨l, r, hl, hr, htext⟩ := exists_trimSpace text
      simp only [hparse, Except.ok.injEq] at h
      exact ⟨l, trimSpace text, r, hl, hr, hnum, h ▸ hvalue, htext⟩
  · rintro ⟨l, m, r, hl, hr, hnum, hvalue, rfl⟩
    simp only [parseIndex, trimSpace_numeral hl hr hnum, if_neg hnum.1,
      parseUint_toNat hnum hvalue, UInt32.ofNat_toNat]

/-- A comma or a bracket is no part of an index number. -/
theorem IndexText.not_mem {id : UInt32} {text : List UInt8} (h : IndexText id text) {c : UInt8}
    (hc : c ∈ [comma, openBracket, closeBracket]) : c ∉ text := by
  have hother : ∀ c ∈ [comma, openBracket, closeBracket],
      ¬ isDigit c ∧ ∀ t ∈ spaces, c ∉ t := by decide +kernel
  obtain ⟨hdigit, hspace⟩ := hother c hc
  obtain ⟨l, m, r, hl, hr, hnum, -, rfl⟩ := h
  simp only [List.mem_append, not_or]
  refine ⟨fun h => ?_, fun h => hdigit (hnum.2 c h), fun h => ?_⟩
  · obtain ⟨t, ht, hct⟩ := hl.mem h
    exact hspace t ht hct
  · obtain ⟨t, ht, hct⟩ := hr.mem h
    exact hspace t ht hct

theorem IndexText.forall_not_mem {ids : List UInt32} {texts : List (List UInt8)}
    (h : List.Forall₂ IndexText ids texts) {c : UInt8}
    (hc : c ∈ [comma, openBracket, closeBracket]) : ∀ text ∈ texts, c ∉ text := by
  induction h with
  | nil => simp
  | cons htext _ ih => exact List.forall_mem_cons.mpr ⟨htext.not_mem hc, ih⟩

theorem IndexList.not_mem {ids : List UInt32} {inner : List UInt8} (h : IndexList ids inner)
    {c : UInt8} (hc : c ∈ [openBracket, closeBracket]) : c ∉ inner := by
  obtain ⟨-, texts, htexts, rfl⟩ := h
  intro hmem
  rcases mem_intercalate hmem with rfl | ⟨text, htext, hct⟩
  · exact absurd hc (by decide)
  · exact IndexText.forall_not_mem htexts (List.mem_cons_of_mem comma hc) text htext hct

/-- The numbers between brackets are those that the loop reads. -/
theorem mapM_parseIndex_eq_ok {seg inner : List UInt8} {ids : List UInt32} :
    (inner.splitOn comma).mapM (parseIndex seg) = .ok ids ↔ IndexList ids inner := by
  rw [GoSlice.mapM_eq_ok]
  simp only [parseIndex_eq_ok]
  constructor
  · intro h
    refine ⟨?_, inner.splitOn comma, h, (List.intercalate_splitOn comma).symm⟩
    rintro rfl
    exact List.splitOn_ne_nil comma inner (List.forall₂_nil_left_iff.mp h)
  · rintro ⟨hne, texts, htexts, rfl⟩
    have hpieces : texts ≠ [] := by
      rintro rfl
      exact hne (List.forall₂_nil_right_iff.mp htexts)
    rw [List.splitOn_intercalate comma (IndexText.forall_not_mem htexts (by simp)) hpieces]
    exact htexts

theorem IndexList.ne_nil {ids : List UInt32} {inner : List UInt8} (h : IndexList ids inner) :
    inner ≠ [] := by
  obtain ⟨hne, texts, htexts, rfl⟩ := h
  cases htexts with
  | nil => exact absurd rfl hne
  | cons htext htexts =>
    intro hnil
    obtain ⟨rfl, -⟩ := intercalate_eq_nil.mp hnil
    obtain ⟨l, m, r, -, -, hnum, -, hempty⟩ := htext
    simp [hnum.1] at hempty

/-! ### Parts -/

theorem parseTagSegment_plain {seg : List UInt8} (h : openBracket ∉ seg) :
    parseTagSegment seg = .ok (seg, []) := by
  rw [parseTagSegment, indexByte_eq_none.mpr h]

/-- The slice between the brackets. -/
theorem slice_indexed (name inner : List UInt8) :
    ((name ++ openBracket :: (inner ++ [closeBracket])).take
      ((name ++ openBracket :: (inner ++ [closeBracket])).length - 1)).drop (name.length + 1) =
        inner := by
  have hseg : name ++ openBracket :: (inner ++ [closeBracket]) =
      (name ++ openBracket :: inner) ++ [closeBracket] := by simp
  rw [hseg, List.length_append, List.length_singleton, Nat.add_sub_cancel, List.take_left]
  simp

theorem getLast_indexed (name inner : List UInt8) (c : UInt8) :
    (name ++ openBracket :: (inner ++ [c])).getLast? = some c :=
  List.getLast?_eq_some_iff.mpr ⟨name ++ openBracket :: inner, by simp⟩

theorem parseTagSegment_indexed {name inner : List UInt8} (h : openBracket ∉ name)
    {ids : List UInt32} (hids : IndexList ids inner) :
    parseTagSegment (name ++ openBracket :: (inner ++ [closeBracket])) = .ok (name, ids) := by
  simp only [parseTagSegment, indexByte_append h, getLast_indexed, slice_indexed,
    if_neg hids.ne_nil, mapM_parseIndex_eq_ok.mpr hids, List.take_left, ne_eq, not_true_eq_false,
    if_false]
  rfl

/-- A part is a name, or a name and an index list. -/
theorem parseTagSegment_eq_ok {seg name : List UInt8} {ids : List UInt32} :
    parseTagSegment seg = .ok (name, ids) ↔
      openBracket ∉ name ∧ ((name = seg ∧ ids = []) ∨
        ∃ inner, IndexList ids inner ∧ seg = name ++ openBracket :: (inner ++ [closeBracket])) := by
  constructor
  · intro h
    cases hindex : indexByte seg openBracket with
    | none =>
      rw [parseTagSegment_plain (indexByte_eq_none.mp hindex)] at h
      cases h
      exact ⟨indexByte_eq_none.mp hindex, .inl ⟨rfl, rfl⟩⟩
    | some i =>
      obtain ⟨l, r, rfl, hl, rfl⟩ := exists_append_of_indexByte hindex
      simp only [parseTagSegment, hindex, List.take_left] at h
      split_ifs at h with hlast hempty
      obtain ⟨ids', hids, hok⟩ := GoSlice.bind_eq_ok.mp h
      cases hok
      -- the byte that closes is not the one that opens
      obtain ⟨r', hr⟩ : ∃ r', r = r' ++ [closeBracket] := by
        rcases List.eq_nil_or_concat' r with rfl | ⟨r', c, rfl⟩
        · simp [openBracket, closeBracket] at hlast
        · rw [getLast_indexed, ne_eq, not_not, Option.some.injEq] at hlast
          exact ⟨r', by rw [hlast]⟩
      subst hr
      rw [slice_indexed] at hids
      exact ⟨hl, .inr ⟨r', mapM_parseIndex_eq_ok.mp hids, rfl⟩⟩
  · rintro ⟨hname, ⟨rfl, rfl⟩ | ⟨inner, hids, rfl⟩⟩
    · exact parseTagSegment_plain hname
    · exact parseTagSegment_indexed hname hids

/-! ### Brackets of an item -/

theorem scan_plain {s : List UInt8} (hs : Plain s) (depth : ℕ) (r : List UInt8) :
    scan depth (s ++ r) = scan depth r := by
  obtain ⟨hdot, hopen, hclose⟩ := hs
  induction s with
  | nil => rfl
  | cons c s ih =>
    rw [List.mem_cons, not_or] at hdot hopen hclose
    rw [List.cons_append, scan, if_neg (Ne.symm hopen.1), if_neg (Ne.symm hclose.1),
      if_neg fun h => hdot.1 h.1.symm, ih hdot.2 hopen.2 hclose.2]

/-- Inside brackets dots do not count. -/
theorem scan_inside {s : List UInt8} (hopen : openBracket ∉ s) (hclose : closeBracket ∉ s)
    (depth : ℕ) (r : List UInt8) : scan (depth + 1) (s ++ r) = scan (depth + 1) r := by
  induction s with
  | nil => rfl
  | cons c s ih =>
    rw [List.mem_cons, not_or] at hopen hclose
    rw [List.cons_append, scan, if_neg (Ne.symm hopen.1), if_neg (Ne.symm hclose.1),
      if_neg (by simp), ih hopen.2 hclose.2]

/-- What stands before the first bracket has no dots and closes nothing. -/
theorem plain_of_scan {s r : List UInt8} {depth : ℕ} (hopen : openBracket ∉ s)
    (h : scan 0 (s ++ r) = some depth) : Plain s := by
  induction s with
  | nil => exact ⟨by simp, by simp, by simp⟩
  | cons c s ih =>
    rw [List.mem_cons, not_or] at hopen
    rw [List.cons_append, scan, if_neg (Ne.symm hopen.1)] at h
    by_cases hclose : c = closeBracket
    · rw [if_pos hclose, if_pos rfl] at h
      cases h
    · rw [if_neg hclose] at h
      by_cases hdot : c = dot ∧ 0 = 0
      · rw [if_pos hdot] at h
        cases h
      · rw [if_neg hdot] at h
        obtain ⟨hd, ho, hc⟩ := ih hopen.2 h
        have hne : c ≠ dot := fun heq => hdot ⟨heq, rfl⟩
        simp only [Plain, List.mem_cons, not_or]
        exact ⟨⟨hne.symm, hd⟩, ⟨hopen.1, ho⟩, ⟨Ne.symm hclose, hc⟩⟩

theorem Numeral.plain {s : List UInt8} (h : Numeral s) : Plain s := by
  have hother : ∀ c ∈ [dot, openBracket, closeBracket], ¬ isDigit c := by decide +kernel
  exact ⟨fun hc => hother dot (by simp) (h.2 _ hc),
    fun hc => hother openBracket (by simp) (h.2 _ hc),
    fun hc => hother closeBracket (by simp) (h.2 _ hc)⟩

theorem HeadText.plain {first : Bool} {head : Option Segment} {name : List UInt8}
    (h : HeadText first head name) : Plain name := by
  cases h with
  | bare => decide
  | symbol _ hplain _ => exact hplain
  | member _ hnum _ => exact Numeral.plain hnum

theorem ItemText.closed {first : Bool} {item : Item} {part : List UInt8}
    (h : ItemText first item part) : Closed part := by
  cases h with
  | plain hhead _ =>
    have hscan := scan_plain hhead.plain 0 []
    rw [List.append_nil] at hscan
    exact hscan
  | indexed hhead hids =>
    rw [Closed, scan_plain hhead.plain, scan, if_pos rfl,
      scan_inside (hids.not_mem (by simp)) (hids.not_mem (by simp))]
    rfl

/-! ### Names and items -/

theorem isAllDigits_iff {s : List UInt8} : isAllDigits s ↔ Numeral s := by
  unfold isAllDigits Numeral
  by_cases h : s = [] <;> simp [h]

theorem addName_of_headText {tag name path : List UInt8} {i : ℕ} {head : Option Segment}
    (h : HeadText (i == 0) head name) :
    addName tag i name path = .ok (path ++ pathBytes head.toList) := by
  cases h with
  | bare => simp [addName]
  | symbol hne hplain hkind =>
    have hsymbol : ¬ (0 < i ∧ isAllDigits name) := by
      rintro ⟨hi, hdigits⟩
      rcases hkind with h | h
      · rw [beq_iff_eq] at h
        omega
      · exact h (isAllDigits_iff.mp hdigits)
    rw [addName, if_pos hne, if_neg hsymbol, addSymbolicSegment_eq]
    simp
  | member hfirst hnum hid =>
    have hi : 0 < i := Nat.pos_of_ne_zero (by simpa using hfirst)
    rw [addName, if_pos hnum.1, if_pos ⟨hi, isAllDigits_iff.mpr hnum⟩, parseUint_toNat hnum hid]
    simp [addMember32_eq]

theorem exists_headText {tag name path path' : List UInt8} {i : ℕ} (hplain : Plain name)
    (h : addName tag i name path = .ok path') : ∃ head, HeadText (i == 0) head name := by
  by_cases hne : name = []
  · subst hne
    exact ⟨none, .bare⟩
  · rw [addName, if_pos hne] at h
    by_cases hmember : 0 < i ∧ isAllDigits name
    · rw [if_pos hmember] at h
      cases hparse : parseUint maxUint32 name with
      | none => simp [hparse] at h
      | some n =>
        obtain ⟨hnum, hid⟩ := parseUint_eq_some_toNat hparse
        exact ⟨_, .member (by simpa using hmember.1.ne') hnum hid⟩
    · refine ⟨_, .symbol hne hplain ?_⟩
      by_cases hi : i = 0
      · exact .inl (by simp [hi])
      · exact .inr fun hnum => hmember ⟨Nat.pos_of_ne_zero hi, isAllDigits_iff.mpr hnum⟩

theorem addName_eq_ok {tag name path path' : List UInt8} {i : ℕ} (hplain : Plain name) :
    addName tag i name path = .ok path' ↔
      ∃ head, HeadText (i == 0) head name ∧ path' = path ++ pathBytes head.toList := by
  constructor
  · intro h
    obtain ⟨head, hhead⟩ := exists_headText hplain h
    rw [addName_of_headText hhead] at h
    exact ⟨head, hhead, (Except.ok.inj h).symm⟩
  · rintro ⟨head, hhead, rfl⟩
    exact addName_of_headText hhead

/-- The text of an item, by what the parser makes of it. -/
theorem itemText_iff {first : Bool} {item : Item} {part : List UInt8} :
    ItemText first item part ↔
      ∃ name, parseTagSegment part = .ok (name, item.indices) ∧
        HeadText first item.head name ∧ ¬ (name = [] ∧ item.indices = []) := by
  constructor
  · intro h
    cases h with
    | plain hhead hne =>
      exact ⟨part, parseTagSegment_plain hhead.plain.2.1, hhead, fun h => hne h.1⟩
    | @indexed head name inner ids hhead hids =>
      exact ⟨name, parseTagSegment_indexed hhead.plain.2.1 hids, hhead,
        fun h => hids.1 h.2⟩
  · rintro ⟨name, hparse, hhead, hne⟩
    obtain ⟨head, ids⟩ := item
    obtain ⟨-, ⟨rfl, rfl⟩ | ⟨inner, hids, rfl⟩⟩ := parseTagSegment_eq_ok.mp hparse
    · exact .plain hhead fun h => hne ⟨h, rfl⟩
    · exact .indexed hhead hids

/-- The name of a closed part is plain. -/
theorem plain_of_closed {part name : List UInt8} {ids : List UInt32} (hclosed : Closed part)
    (hparse : parseTagSegment part = .ok (name, ids)) : Plain name := by
  obtain ⟨hopen, ⟨rfl, rfl⟩ | ⟨inner, -, rfl⟩⟩ := parseTagSegment_eq_ok.mp hparse
  · exact plain_of_scan (r := []) hopen (by rw [List.append_nil]; exact hclosed)
  · exact plain_of_scan hopen hclosed

theorem addPart_eq_ok {tag part path path' : List UInt8} {i : ℕ} (hclosed : Closed part) :
    addPart tag i part path = .ok path' ↔
      ∃ item, ItemText (i == 0) item part ∧ path' = path ++ pathBytes item.segments := by
  simp only [itemText_iff, addPart]
  cases hparse : parseTagSegment part with
  | error err => simp
  | ok parsed =>
    obtain ⟨name, ids⟩ := parsed
    have hplain := plain_of_closed hclosed hparse
    by_cases hempty : name = [] ∧ ids = []
    · -- nothing is written here
      simp only [List.length_eq_zero_iff, if_pos hempty, reduceCtorEq, false_iff]
      rintro ⟨item, ⟨name', hok, -, hne⟩, -⟩
      cases hok
      exact hne hempty
    · simp only [List.length_eq_zero_iff, if_neg hempty, GoSlice.bind_eq_ok,
        addName_eq_ok hplain, foldl_addMember32, Except.ok.injEq, Prod.mk.injEq]
      constructor
      · rintro ⟨-, ⟨head, hhead, rfl⟩, rfl⟩
        exact ⟨⟨head, ids⟩, ⟨name, ⟨rfl, rfl⟩, hhead, hempty⟩, by simp [Item.segments]⟩
      · rintro ⟨item, ⟨name', ⟨rfl, rfl⟩, hhead, -⟩, rfl⟩
        exact ⟨_, ⟨item.head, hhead, rfl⟩, by simp [Item.segments]⟩

theorem addParts_eq_ok {tag : List UInt8} {i : ℕ} {parts : List (List UInt8)}
    (hclosed : ∀ part ∈ parts, Closed part) {path path' : List UInt8} :
    addParts tag (i + 1) parts path = .ok path' ↔
      ∃ items, List.Forall₂ (ItemText false) items parts ∧
        path' = path ++ pathBytes (items.flatMap Item.segments) := by
  induction parts generalizing i path with
  | nil =>
    rw [addParts]
    constructor
    · intro h
      exact ⟨[], .nil, by simpa using (Except.ok.inj h).symm⟩
    · rintro ⟨items, hitems, rfl⟩
      rw [List.forall₂_nil_right_iff.mp hitems]
      simp
  | cons part parts ih =>
    rw [List.forall_mem_cons] at hclosed
    rw [addParts, GoSlice.bind_eq_ok]
    simp only [addPart_eq_ok hclosed.1, ih hclosed.2]
    constructor
    · rintro ⟨-, ⟨item, hitem, rfl⟩, items, hitems, rfl⟩
      exact ⟨item :: items, .cons hitem hitems, by simp⟩
    · rintro ⟨_, _ | ⟨hitem, hitems⟩, rfl⟩
      exact ⟨_, ⟨_, hitem, rfl⟩, _, hitems, by simp⟩

/-! ### Tags -/

theorem ItemText.ne_nil {first : Bool} {item : Item} {part : List UInt8}
    (h : ItemText first item part) : part ≠ [] := by
  cases h with
  | plain _ hne => exact hne
  | indexed => simp

theorem ItemText.forall_closed {items : List Item} {texts : List (List UInt8)}
    (h : List.Forall₂ (ItemText false) items texts) : ∀ text ∈ texts, Closed text := by
  induction h with
  | nil => simp
  | cons hitem _ ih => exact List.forall_mem_cons.mpr ⟨hitem.closed, ih⟩

/-- The parts of the text of a tag are the texts of its items. -/
theorem TagSyntax.writes_iff {t : TagSyntax} {tag : List UInt8} :
    t.Writes tag ↔ ∃ text texts, splitTagSegments tag = .ok (text :: texts) ∧
      ItemText true t.first text ∧ List.Forall₂ (ItemText false) t.rest texts := by
  simp only [splitTagSegments_eq_ok]
  constructor
  · rintro ⟨text, texts, hfirst, hrest, htag⟩
    refine ⟨text, texts, ⟨by simp, ?_, htag⟩, hfirst, hrest⟩
    exact List.forall_mem_cons.mpr ⟨hfirst.closed, ItemText.forall_closed hrest⟩
  · rintro ⟨text, texts, ⟨-, -, htag⟩, hfirst, hrest⟩
    exact ⟨text, texts, hfirst, hrest, htag⟩

theorem TagSyntax.Writes.ne_nil {t : TagSyntax} {tag : List UInt8} (h : t.Writes tag) :
    tag ≠ [] := by
  obtain ⟨text, texts, hfirst, -, rfl⟩ := h
  intro hnil
  exact hfirst.ne_nil (intercalate_eq_nil.mp hnil).1

/-- A text is accepted if and only if it writes a tag, and the path is that of the tag. -/
theorem parseTagPath_eq_ok {tag path : List UInt8} :
    parseTagPath tag = .ok path ↔ ∃ t : TagSyntax, t.Writes tag ∧ path = pathBytes t.segments := by
  constructor
  · intro h
    rw [parseTagPath] at h
    split_ifs at h
    obtain ⟨parts, hsplit, hparts⟩ := GoSlice.bind_eq_ok.mp h
    obtain ⟨hne, hclosed, -⟩ := splitTagSegments_eq_ok.mp hsplit
    obtain ⟨text, texts, rfl⟩ := List.exists_cons_of_ne_nil hne
    rw [List.forall_mem_cons] at hclosed
    obtain ⟨path₁, hfirst, hrest⟩ := GoSlice.bind_eq_ok.mp hparts
    obtain ⟨item, hitem, rfl⟩ := (addPart_eq_ok hclosed.1).mp hfirst
    obtain ⟨items, hitems, rfl⟩ := (addParts_eq_ok hclosed.2).mp hrest
    exact ⟨⟨item, items⟩, TagSyntax.writes_iff.mpr ⟨text, texts, hsplit, hitem, hitems⟩,
      by simp [TagSyntax.segments]⟩
  · rintro ⟨t, ht, rfl⟩
    obtain ⟨text, texts, hsplit, hfirst, hrest⟩ := TagSyntax.writes_iff.mp ht
    have hpath : addPart tag 0 text [] = .ok (pathBytes t.first.segments) :=
      (addPart_eq_ok hfirst.closed).mpr ⟨t.first, hfirst, rfl⟩
    have hpaths : addParts tag 1 texts (pathBytes t.first.segments) =
        .ok (pathBytes t.segments) :=
      (addParts_eq_ok (ItemText.forall_closed hrest)).mpr
        ⟨t.rest, hrest, by simp [TagSyntax.segments]⟩
    rw [parseTagPath, if_neg ht.ne_nil]
    exact GoSlice.bind_eq_ok.mpr ⟨_, hsplit, GoSlice.bind_eq_ok.mpr ⟨_, hpath, hpaths⟩⟩

/-! ### A text writes one tag -/

theorem HeadText.unique {first : Bool} {head head' : Option Segment} {name : List UInt8}
    (h : HeadText first head name) (h' : HeadText first head' name) : head = head' := by
  cases h with
  | bare =>
    cases h' with
    | bare => rfl
    | symbol hne => exact absurd rfl hne
    | member _ hnum => exact absurd rfl hnum.1
  | symbol hne _ hkind =>
    cases h' with
    | bare => exact absurd rfl hne
    | symbol => rfl
    | member hfirst hnum =>
      rcases hkind with h | h
      · rw [hfirst] at h
        cases h
      · exact absurd hnum h
  | member hfirst hnum hid =>
    cases h' with
    | bare => exact absurd rfl hnum.1
    | symbol _ _ hkind =>
      rcases hkind with h | h
      · rw [hfirst] at h
        cases h
      · exact absurd hnum h
    | member _ _ hid' => rw [UInt32.toNat_inj.mp (hid.symm.trans hid')]

theorem ItemText.unique {first : Bool} {item item' : Item} {part : List UInt8}
    (h : ItemText first item part) (h' : ItemText first item' part) : item = item' := by
  obtain ⟨name, hparse, hhead, -⟩ := itemText_iff.mp h
  obtain ⟨name', hparse', hhead', -⟩ := itemText_iff.mp h'
  rw [hparse, Except.ok.injEq, Prod.mk.injEq] at hparse'
  obtain ⟨rfl, hids⟩ := hparse'
  exact Item.ext (hhead.unique hhead') hids

/-- A text writes at most one tag. -/
theorem TagSyntax.Writes.unique {t t' : TagSyntax} {tag : List UInt8} (h : t.Writes tag)
    (h' : t'.Writes tag) : t = t' := by
  obtain ⟨text, texts, hsplit, hfirst, hrest⟩ := writes_iff.mp h
  obtain ⟨text', texts', hsplit', hfirst', hrest'⟩ := writes_iff.mp h'
  rw [hsplit, Except.ok.injEq, List.cons.injEq] at hsplit'
  obtain ⟨rfl, rfl⟩ := hsplit'
  have hunique : Relator.LeftUnique (ItemText false) := fun _ _ _ h h' => h.unique h'
  exact TagSyntax.ext (hfirst.unique hfirst') (List.left_unique_forall₂' hunique hrest hrest')

/-! ### Documented tags -/

/-- The text writes a tag that begins with a symbol. -/
def Documented (tag : List UInt8) : Prop :=
  ∃ t : TagSyntax, t.Writes tag ∧ ∃ name, t.first.head = some (.symbol name)

/-- The text writes a tag that begins with an index list. -/
def BareFirst (tag : List UInt8) : Prop :=
  ∃ t : TagSyntax, t.Writes tag ∧ t.first.head = none

/-- If the text is accepted, then it is documented and its path begins with a symbol; if it is not
documented, there is an error. -/
def OnlyDocumented (tag : List UInt8) : Prop :=
  (∀ path, parseTagPath tag = .ok path → Documented tag ∧ path.head? = some 0x91) ∧
    (¬ Documented tag → ∃ err, parseTagPath tag = .error err)

theorem Segment.head_bytes_member (id : UInt32) (rest : List UInt8) :
    ((Segment.member id).bytes ++ rest).head? ≠ some 0x91 := by
  simp only [Segment.bytes, addMember32]
  split_ifs <;> exact fun h => absurd (Option.some.inj h) (by decide)

theorem Segment.head_bytes_symbol (name rest : List UInt8) :
    ((Segment.symbol name).bytes ++ rest).head? = some 0x91 := rfl

/-- The first item is a symbol, or an index list without a name. -/
theorem TagSyntax.Writes.head_cases {t : TagSyntax} {tag : List UInt8} (h : t.Writes tag) :
    (∃ name, t.first.head = some (.symbol name)) ∨
      (t.first.head = none ∧ ∃ id ids, t.first.indices = id :: ids) := by
  obtain ⟨text, texts, hfirst, -⟩ := h
  obtain ⟨name, -, hhead, hne⟩ := itemText_iff.mp hfirst
  generalize t.first.head = head at hhead
  cases hhead with
  | bare =>
    exact .inr ⟨rfl, List.exists_cons_of_ne_nil fun hnil => hne ⟨rfl, hnil⟩⟩
  | symbol => exact .inl ⟨_, rfl⟩
  | member hfirst => cases hfirst

theorem TagSyntax.Writes.head_path {t : TagSyntax} {tag : List UInt8} (h : t.Writes tag) :
    (pathBytes t.segments).head? = some 0x91 ↔ t.first.head ≠ none := by
  rcases h.head_cases with ⟨name, hname⟩ | ⟨hnone, id, ids, hids⟩
  · obtain ⟨segs, hsegs⟩ : ∃ segs, t.segments = .symbol name :: segs :=
      ⟨_, by rw [segments, List.flatMap_cons, Item.segments, hname]; rfl⟩
    rw [hsegs, pathBytes_cons, Segment.head_bytes_symbol, hname]
    simp
  · obtain ⟨segs, hsegs⟩ : ∃ segs, t.segments = .member id :: segs :=
      ⟨_, by rw [segments, List.flatMap_cons, Item.segments, hnone, hids]; rfl⟩
    rw [hsegs, pathBytes_cons, hnone]
    exact iff_of_false (Segment.head_bytes_member id _) (by simp)

/-- A text is accepted for a documented tag only, if and only if it does not begin with an index
list. -/
theorem onlyDocumented_iff (tag : List UInt8) : OnlyDocumented tag ↔ ¬ BareFirst tag := by
  constructor
  · rintro ⟨haccepted, -⟩ ⟨t, ht, hnone⟩
    have hpath := (haccepted _ (parseTagPath_eq_ok.mpr ⟨t, ht, rfl⟩)).2
    exact ht.head_path.mp hpath hnone
  · intro hbare
    have haccepted : ∀ path, parseTagPath tag = .ok path →
        Documented tag ∧ path.head? = some 0x91 := by
      intro path hpath
      obtain ⟨t, ht, rfl⟩ := parseTagPath_eq_ok.mp hpath
      have hhead : t.first.head ≠ none := fun hnone => hbare ⟨t, ht, hnone⟩
      have hsymbol := ht.head_cases.resolve_right fun h => hhead h.1
      exact ⟨⟨t, ht, hsymbol⟩, ht.head_path.mpr hhead⟩
    refine ⟨haccepted, fun hnot => ?_⟩
    cases hparse : parseTagPath tag with
    | ok path => exact absurd (haccepted path hparse).1 hnot
    | error err => exact ⟨err, rfl⟩

/-- The index list `[5]` alone is accepted, and its path has no symbol. -/
theorem not_onlyDocumented_index :
    parseTagPath [openBracket, 0x35, closeBracket] = .ok [0x28, 0x05] ∧
      ¬ OnlyDocumented [openBracket, 0x35, closeBracket] := by
  have hparse : parseTagPath [openBracket, 0x35, closeBracket] = .ok [0x28, 0x05] := by
    decide +kernel
  refine ⟨hparse, fun h => ?_⟩
  exact absurd (h.1 _ hparse).2 (by decide)

end GoIndustrial.EtherNetIP
