import GoIndustrial.EtherNetIP.TagPath

/-!
# Requests for tags

The Read Tag and Write Tag requests of `protocol/ethernetip/cip/services.go` carry the path of a
tag. A path has two lengths of one byte on the wire: that of each symbol in its segment, and that of
the path in words in the request. The parser checks neither, so a symbol of more than 255 bytes or a
path of more than 510 bytes is sent with a length that is cut.

Well-formed tags are built here with their bounds: a tag name is not empty, has at most 255 bytes
and no dots or brackets.

## Main definitions

* `EtherNetIP.TagName`, `EtherNetIP.Tag` : well-formed tags, with their texts and their segments.
* `EtherNetIP.newReadTagRequest`, `EtherNetIP.newWriteTagRequest`.
* `EtherNetIP.SurvivesWire` : the requests for a tag read back as they were sent.

## Main results

* `EtherNetIP.wellFormedTag_faithful` : the text of a well-formed tag is accepted, and its path
  reads back as the segments of the tag.
* `EtherNetIP.survivesWire_iff` : the requests for a tag survive if and only if its lengths fit.
-/

namespace GoIndustrial.EtherNetIP

open GoStrings LittleEndian ByteReader

/-! ### Well-formed tags -/

/-- The name of a symbol. -/
structure TagName where
  bytes : List UInt8
  nonempty : bytes ≠ []
  short : bytes.length ≤ 255
  plain : Plain bytes

/-- What stands behind a dot: a symbol that is not a number, or the number of a member. -/
inductive TagStep
  | symbol (name : TagName) (hkind : ¬ Numeral name.bytes)
  | member (id : UInt32)

structure TagPart where
  step : TagStep
  indices : List UInt32

/-- A tag: a first symbol and what is behind the dots, each with indices or none. -/
structure Tag where
  first : TagName
  indices : List UInt32
  rest : List TagPart

def indicesText (ids : List UInt32) : List UInt8 :=
  if ids = [] then []
  else openBracket :: ([comma].intercalate (ids.map fun id => decimal id.toNat) ++ [closeBracket])

namespace TagStep

def text : TagStep → List UInt8
  | symbol name _ => name.bytes
  | member id => decimal id.toNat

def segment : TagStep → Segment
  | symbol name _ => .symbol name.bytes
  | member id => .member id

end TagStep

namespace TagPart

def text (p : TagPart) : List UInt8 := p.step.text ++ indicesText p.indices

def segments (p : TagPart) : List Segment := p.step.segment :: p.indices.map .member

end TagPart

namespace Tag

def text (t : Tag) : List UInt8 :=
  [dot].intercalate ((t.first.bytes ++ indicesText t.indices) :: t.rest.map TagPart.text)

def segments (t : Tag) : List Segment :=
  .symbol t.first.bytes :: t.indices.map .member ++ t.rest.flatMap TagPart.segments

end Tag

/-! ### Their texts -/

theorem indexText_decimal (id : UInt32) : IndexText id (decimal id.toNat) :=
  ⟨[], decimal id.toNat, [], .nil, .nil, numeral_decimal _, decimalValue_decimal _, by simp⟩

theorem itemText_indices {first : Bool} {head : Option Segment} {name : List UInt8}
    (hhead : HeadText first head name) (hne : name ≠ []) (ids : List UInt32) :
    ItemText first ⟨head, ids⟩ (name ++ indicesText ids) := by
  by_cases hids : ids = []
  · subst hids
    simpa [indicesText] using ItemText.plain hhead hne
  · rw [indicesText, if_neg hids]
    refine .indexed hhead ⟨hids, _, ?_, rfl⟩
    rw [List.forall₂_map_right_iff]
    exact List.forall₂_same.mpr fun id _ => indexText_decimal id

theorem TagStep.headText (step : TagStep) : HeadText false (some step.segment) step.text := by
  cases step with
  | symbol name hkind => exact .symbol name.nonempty name.plain (.inr hkind)
  | member id => exact .member rfl (numeral_decimal _) (decimalValue_decimal _)

theorem TagStep.text_ne_nil (step : TagStep) : step.text ≠ [] := by
  cases step with
  | symbol name _ => exact name.nonempty
  | member id => exact (numeral_decimal id.toNat).1

/-- The items of a well-formed tag. -/
def Tag.items (t : Tag) : TagSyntax where
  first := ⟨some (.symbol t.first.bytes), t.indices⟩
  rest := t.rest.map fun p => ⟨some p.step.segment, p.indices⟩

theorem Tag.writes_text (t : Tag) : t.items.Writes t.text := by
  refine ⟨_, _, itemText_indices (.symbol t.first.nonempty t.first.plain (.inl rfl))
    t.first.nonempty t.indices, ?_, rfl⟩
  rw [Tag.items, List.forall₂_map_left_iff, List.forall₂_map_right_iff]
  exact List.forall₂_same.mpr fun p _ =>
    itemText_indices p.step.headText p.step.text_ne_nil p.indices

theorem Tag.segments_items (t : Tag) : t.items.segments = t.segments := by
  rw [TagSyntax.segments, items, List.flatMap_cons, List.flatMap_map]
  rfl

theorem fits_members (ids : List UInt32) : ∀ seg ∈ ids.map Segment.member, seg.Fits := by
  intro seg hseg
  obtain ⟨id, -, rfl⟩ := List.mem_map.mp hseg
  trivial

theorem TagPart.fits (p : TagPart) : ∀ seg ∈ p.segments, seg.Fits := by
  refine List.forall_mem_cons.mpr ⟨?_, fits_members p.indices⟩
  cases p.step with
  | symbol name _ => exact name.short
  | member id => trivial

theorem Tag.fits (t : Tag) : ∀ seg ∈ t.segments, seg.Fits := by
  refine List.forall_mem_append.mpr ⟨?_, fun seg hseg => ?_⟩
  · exact List.forall_mem_cons.mpr ⟨t.first.short, fits_members t.indices⟩
  · obtain ⟨p, -, hp⟩ := List.mem_flatMap.mp hseg
    exact p.fits seg hp

theorem Tag.parseTagPath_text (t : Tag) : parseTagPath t.text = .ok (pathBytes t.segments) :=
  parseTagPath_eq_ok.mpr ⟨t.items, t.writes_text, by rw [t.segments_items]⟩

/-- The text of a well-formed tag is accepted, its path reads back as the segments of the tag and
has an even length, and tags with other segments have other paths. -/
theorem wellFormedTag_faithful (t : Tag) :
    ∃ path, parseTagPath t.text = .ok path ∧ decodeEPath path = some t.segments ∧
      Even path.length ∧
        ∀ t' : Tag, t'.segments ≠ t.segments → parseTagPath t'.text ≠ .ok path := by
  refine ⟨_, t.parseTagPath_text, decodeEPath_pathBytes t.fits, even_length_pathBytes _, ?_⟩
  intro t' hne heq
  rw [t'.parseTagPath_text, Except.ok.injEq] at heq
  exact hne (pathBytes_inj t'.fits t.fits heq)

/-- The tag `M[2,300].x.5`. -/
def memberTag : Tag where
  first := ⟨[0x4D], by decide, by decide, by decide⟩
  indices := [2, 300]
  rest := [⟨.symbol ⟨[0x78], by decide, by decide, by decide⟩ (by decide +kernel), []⟩,
    ⟨.member 5, []⟩]

/-- The tag `M[2,300].x`. -/
def fieldTag : Tag where
  first := ⟨[0x4D], by decide, by decide, by decide⟩
  indices := [2, 300]
  rest := [⟨.symbol ⟨[0x78], by decide, by decide, by decide⟩ (by decide +kernel), []⟩]

theorem wellFormedTag_faithful_member :
    memberTag.text = "M[2,300].x.5".toUTF8.toList ∧
      ∃ path, parseTagPath memberTag.text = .ok path ∧
        decodeEPath path = some memberTag.segments ∧ Even path.length ∧
          parseTagPath fieldTag.text ≠ .ok path := by
  obtain ⟨path, hparse, hread, heven, hother⟩ := wellFormedTag_faithful memberTag
  exact ⟨by decide +kernel, path, hparse, hread, heven, hother fieldTag (by decide)⟩

/-! ### Requests -/

def serviceReadTag : UInt8 := 0x4C
def serviceWriteTag : UInt8 := 0x4D

def newReadTagRequest (tagPath : List UInt8) (elements : UInt16) : MessageRouterRequest where
  service := serviceReadTag
  requestPath := tagPath
  requestData := putUint16 elements

def newWriteTagRequest (tagPath : List UInt8) (dataType elements : UInt16) (data : List UInt8) :
    MessageRouterRequest where
  service := serviceWriteTag
  requestPath := tagPath
  requestData := putUint16 dataType ++ putUint16 elements ++ data

/-- The bytes for the lengths of the tag can hold them. -/
structure TagSyntax.Representable (t : TagSyntax) : Prop where
  symbols : ∀ name, .symbol name ∈ t.segments → name.length ≤ 255
  path : (t.segments.map Segment.size).sum ≤ 510

/-- The length byte of the segment of a symbol. -/
def symbolLength (name : List UInt8) : ℕ := ((Segment.symbol name).bytes.getD 1 0).toNat

/-- The requests for a tag that is accepted read back as they were sent, the lengths of its symbols
are what their segments say, and a tag that is too long is not accepted. -/
structure SurvivesWire (tag : List UInt8) : Prop where
  read : ∀ path elements, parseTagPath tag = .ok path →
    decodeMessageRouterRequest (newReadTagRequest path elements).encode =
      .ok (newReadTagRequest path elements)
  write : ∀ path dataType elements data, parseTagPath tag = .ok path →
    decodeMessageRouterRequest (newWriteTagRequest path dataType elements data).encode =
      .ok (newWriteTagRequest path dataType elements data)
  symbols : ∀ t : TagSyntax, t.Writes tag → ∀ name, .symbol name ∈ t.segments →
    symbolLength name = name.length
  rejects : ∀ t : TagSyntax, t.Writes tag → ¬ t.Representable → ∃ err, parseTagPath tag = .error err

/-! ### What survives -/

theorem symbolLength_eq_iff {name : List UInt8} :
    symbolLength name = name.length ↔ name.length ≤ 255 := by
  have hbyte : symbolLength name = name.length % 256 := UInt8.toNat_ofNat'
  rw [hbyte]
  omega

theorem even_length_of_parse {tag path : List UInt8} (h : parseTagPath tag = .ok path) :
    path.length % 2 = 0 := by
  obtain ⟨t, -, rfl⟩ := parseTagPath_eq_ok.mp h
  exact Nat.even_iff.mp (even_length_pathBytes t.segments)

/-- A request that is read has a path that its length byte counts. -/
theorem length_requestPath_le {data : List UInt8} {r : MessageRouterRequest}
    (h : decodeMessageRouterRequest data = .ok r) : r.requestPath.length ≤ 510 := by
  rw [decodeMessageRouterRequest, decode] at h
  cases hread : readMessageRouterRequest data with
  | error err =>
    rw [hread] at h
    cases h
  | ok out =>
    rw [hread] at h
    obtain ⟨r', rest⟩ := out
    cases h
    obtain ⟨service, _, -, hservice⟩ := bind_eq_ok.mp hread
    obtain ⟨words, _, -, hwords⟩ := bind_eq_ok.mp hservice
    obtain ⟨path, _, hpath, hbody⟩ := bind_eq_ok.mp hwords
    obtain ⟨data, _, -, hdata⟩ := bind_eq_ok.mp hbody
    obtain ⟨rfl, -⟩ := pure_eq_ok.mp hdata
    have hlen : path.length = words.toNat * 2 := length_of_read hpath
    have hbyte := words.toNat_lt
    change path.length ≤ 510
    omega

/-- The requests for a tag survive if and only if its lengths can be represented. -/
theorem survivesWire_iff (tag : List UInt8) :
    SurvivesWire tag ↔ ∀ t : TagSyntax, t.Writes tag → t.Representable := by
  constructor
  · intro h t ht
    refine ⟨fun name hname => symbolLength_eq_iff.mp (h.symbols t ht name hname), ?_⟩
    have hread := h.read _ 0 (parseTagPath_eq_ok.mpr ⟨t, ht, rfl⟩)
    exact length_pathBytes t.segments ▸ length_requestPath_le hread
  · intro h
    have hshort : ∀ path, parseTagPath tag = .ok path → path.length ≤ 510 := by
      intro path hpath
      obtain ⟨t, ht, rfl⟩ := parseTagPath_eq_ok.mp hpath
      exact (length_pathBytes t.segments).trans_le (h t ht).path
    refine ⟨fun path elements hpath => ?_, fun path dataType elements data hpath => ?_, ?_, ?_⟩
    · apply decodeMessageRouterRequest_encode
      refine ⟨even_length_of_parse hpath, hshort path hpath, ?_⟩
      simp [newReadTagRequest, putUint16, bytes]
    · apply decodeMessageRouterRequest_encode
      refine ⟨even_length_of_parse hpath, hshort path hpath, ?_⟩
      simp [newWriteTagRequest, putUint16, bytes]
    · exact fun t ht name hname => symbolLength_eq_iff.mpr ((h t ht).symbols name hname)
    · exact fun t ht hnot => absurd (h t ht) hnot

/-- The tag that is one symbol. -/
theorem writes_symbol {name : List UInt8} (hne : name ≠ []) (hplain : Plain name) :
    TagSyntax.Writes ⟨⟨some (.symbol name), []⟩, []⟩ name :=
  ⟨name, [], .plain (.symbol hne hplain (.inl rfl)) hne, .nil, by simp⟩

/-- A symbol that is too long is accepted with a length byte that is cut. -/
theorem accepts_long_symbol {name : List UInt8} (hplain : Plain name) (hlong : 255 < name.length) :
    ∃ path, parseTagPath name = .ok path ∧ path.getD 1 0 = UInt8.ofNat name.length ∧
      ¬ SurvivesWire name := by
  have hne : name ≠ [] := List.ne_nil_of_length_pos (by omega)
  have hwrites := writes_symbol hne hplain
  refine ⟨_, parseTagPath_eq_ok.mpr ⟨_, hwrites, rfl⟩, rfl, fun h => ?_⟩
  have hlen := symbolLength_eq_iff.mp (h.symbols _ hwrites name List.mem_cons_self)
  omega

/-- A tag of one symbol with 256 bytes is accepted, and the length byte of its segment is zero. -/
theorem not_survivesWire_long_symbol :
    ∃ path, parseTagPath (List.replicate 256 0x41) = .ok path ∧ path.getD 1 0 = 0 ∧
      ¬ SurvivesWire (List.replicate 256 0x41) := by
  have hplain : Plain (List.replicate 256 0x41) := by decide +kernel
  have hlen : (List.replicate 256 (0x41 : UInt8)).length = 256 := List.length_replicate
  have h := accepts_long_symbol hplain (by omega)
  rw [hlen] at h
  exact h

end GoIndustrial.EtherNetIP
