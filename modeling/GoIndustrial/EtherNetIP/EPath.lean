import GoIndustrial.EtherNetIP.Message

/-!
# Paths of symbols and members

The segments of an encoded path that address a tag: `Path.AddSymbolicSegment` of
`protocol/ethernetip/cip/path.go` appends the name of a symbol with its length in a byte, and
`addMember32` of `protocol/ethernetip/cip/tag.go` a number in the shortest of three formats. A path
is read back by a decoder that knows the formats only.

## Main definitions

* `EtherNetIP.addSymbolicSegment`, `EtherNetIP.addMember32`.
* `EtherNetIP.Segment` : a segment, with the bytes of its encoding.
* `EtherNetIP.decodeEPath` : the segments of a path.

## Main results

* `EtherNetIP.decodeEPath_pathBytes` : segments whose symbols have at most 255 bytes are read back.
* `EtherNetIP.even_length_pathBytes` : the length of a path is even.
-/

namespace GoIndustrial.EtherNetIP

open LittleEndian

/-! ### Appending segments -/

/-- `Path.AddSymbolicSegment`: the length is cut to a byte. -/
def addSymbolicSegment (path symbol : List UInt8) : List UInt8 :=
  let l := symbol.length
  path ++ [0x91] ++ [UInt8.ofNat l] ++ symbol ++ if l % 2 ≠ 0 then [0x00] else []

def addMember32 (path : List UInt8) (id : UInt32) : List UInt8 :=
  if id ≤ 0xFF then path ++ [0x28, id.toUInt8]
  else if id ≤ 0xFFFF then path ++ ([0x29, 0x00] ++ putUint16 id.toUInt16)
  else path ++ ([0x2A, 0x00] ++ putUint32 id)

/-! ### Segments -/

/-- A segment of the path of a tag. -/
inductive Segment
  | symbol (name : List UInt8)
  | member (id : UInt32)
  deriving DecidableEq, Repr

namespace Segment

def bytes : Segment → List UInt8
  | symbol name => addSymbolicSegment [] name
  | member id => addMember32 [] id

/-- The length byte of a symbol says its length. -/
def Fits : Segment → Prop
  | symbol name => name.length ≤ 255
  | member _ => True

instance : DecidablePred Fits
  | symbol name => inferInstanceAs (Decidable (name.length ≤ 255))
  | member _ => inferInstanceAs (Decidable True)

end Segment

/-- The path made of the segments. -/
def pathBytes (segments : List Segment) : List UInt8 := segments.flatMap Segment.bytes

theorem addSymbolicSegment_eq (path name : List UInt8) :
    addSymbolicSegment path name = path ++ (Segment.symbol name).bytes := by
  simp [Segment.bytes, addSymbolicSegment]

theorem addMember32_eq (path : List UInt8) (id : UInt32) :
    addMember32 path id = path ++ (Segment.member id).bytes := by
  rw [Segment.bytes, addMember32, addMember32]
  split_ifs <;> rfl

@[simp] theorem pathBytes_nil : pathBytes [] = [] := rfl

@[simp] theorem pathBytes_cons (seg : Segment) (segs : List Segment) :
    pathBytes (seg :: segs) = seg.bytes ++ pathBytes segs := rfl

@[simp] theorem pathBytes_append (segs segs' : List Segment) :
    pathBytes (segs ++ segs') = pathBytes segs ++ pathBytes segs' := List.flatMap_append

theorem foldl_addMember32 (path : List UInt8) (ids : List UInt32) :
    ids.foldl addMember32 path = path ++ pathBytes (ids.map .member) := by
  induction ids generalizing path with
  | nil => simp
  | cons id ids ih =>
    rw [List.foldl_cons, ih, addMember32_eq, List.map_cons, pathBytes_cons, List.append_assoc]

/-! ### Lengths -/

/-- A symbol is followed by a pad byte if its length is odd. -/
theorem Segment.exists_bytes_symbol (name : List UInt8) :
    ∃ pad : List UInt8, pad.length = name.length % 2 ∧
      (symbol name).bytes = 0x91 :: UInt8.ofNat name.length :: (name ++ pad) := by
  rcases Nat.mod_two_eq_zero_or_one name.length with h | h
  · exact ⟨[], h.symm, by simp [bytes, addSymbolicSegment, h]⟩
  · exact ⟨[0x00], h.symm, by simp [bytes, addSymbolicSegment, h]⟩

/-- The number of bytes of a segment: symbols have whole words, and members the shortest of three
formats. -/
def Segment.size : Segment → ℕ
  | symbol name => 2 + name.length + name.length % 2
  | member id => if id ≤ 0xFF then 2 else if id ≤ 0xFFFF then 4 else 6

theorem Segment.length_bytes (seg : Segment) : seg.bytes.length = seg.size := by
  cases seg with
  | symbol name =>
    obtain ⟨pad, hpad, hbytes⟩ := exists_bytes_symbol name
    rw [hbytes, List.length_cons, List.length_cons, List.length_append, hpad, size]
    omega
  | member id =>
    simp only [bytes, addMember32, size]
    split_ifs <;> rfl

theorem Segment.even_size (seg : Segment) : Even seg.size := by
  cases seg with
  | symbol name =>
    rw [Nat.even_iff, size]
    omega
  | member id =>
    rw [size]
    split_ifs <;> decide

theorem Segment.size_pos (seg : Segment) : 0 < seg.size := by
  cases seg with
  | symbol name =>
    rw [size]
    omega
  | member id =>
    rw [size]
    split_ifs <;> decide

theorem length_pathBytes (segs : List Segment) :
    (pathBytes segs).length = (segs.map Segment.size).sum := by
  rw [pathBytes, List.length_flatMap]
  exact congrArg List.sum (List.map_congr_left fun seg _ => seg.length_bytes)

/-- The length of a path is even. -/
theorem even_length_pathBytes (segs : List Segment) : Even (pathBytes segs).length := by
  induction segs with
  | nil => exact ⟨0, rfl⟩
  | cons seg segs ih =>
    rw [pathBytes_cons, List.length_append, seg.length_bytes]
    exact seg.even_size.add ih

/-! ### Reading a path -/

/-- The name behind the length byte, and the pad byte of an odd one. -/
def decodeSymbol : List UInt8 → Option (Segment × List UInt8)
  | [] => none
  | len :: rest =>
    let n := len.toNat
    if rest.length < n + n % 2 then none
    else some (.symbol (rest.take n), rest.drop (n + n % 2))

/-- A number of `n` bytes. -/
def decodeMember (n : ℕ) (rest : List UInt8) : Option (Segment × List UInt8) :=
  if rest.length < n then none else some (.member (uint32 (rest.take n)), rest.drop n)

/-- The first segment of a path, and what is behind it. In the wider formats of a member a pad byte
comes first. -/
def decodeSegment : List UInt8 → Option (Segment × List UInt8)
  | [] => none
  | c :: rest =>
    if c = 0x91 then decodeSymbol rest
    else if c = 0x28 then decodeMember 1 rest
    else if c = 0x29 then decodeMember 2 rest.tail
    else if c = 0x2A then decodeMember 4 rest.tail
    else none

def decodeEPathLoop : ℕ → List UInt8 → Option (List Segment)
  | _, [] => some []
  | 0, _ :: _ => none
  | fuel + 1, path => do
    let (seg, rest) ← decodeSegment path
    let segs ← decodeEPathLoop fuel rest
    return seg :: segs

/-- The segments of a path, `none` for a path that is cut off or has segments of other types. -/
def decodeEPath (path : List UInt8) : Option (List Segment) := decodeEPathLoop path.length path

theorem decodeMember_append {n : ℕ} {l : List UInt8} {id : UInt32} (hl : l.length = n)
    (hid : value l = id.toNat) (rest : List UInt8) :
    decodeMember n (l ++ rest) = some (.member id, rest) := by
  have hlong : ¬ (l ++ rest).length < n := by
    rw [List.length_append]
    omega
  rw [decodeMember, if_neg hlong, List.take_left' hl, List.drop_left' hl, uint32, hid,
    UInt32.ofNat_toNat]

theorem decodeSymbol_append {name pad : List UInt8} (hname : name.length ≤ 255)
    (hpad : pad.length = name.length % 2) (rest : List UInt8) :
    decodeSymbol (UInt8.ofNat name.length :: (name ++ pad ++ rest)) =
      some (.symbol name, rest) := by
  have hlen : (UInt8.ofNat name.length).toNat = name.length := by
    rw [UInt8.toNat_ofNat']
    exact Nat.mod_eq_of_lt (Nat.lt_succ_of_le hname)
  have hpadded : (name ++ pad).length = name.length + name.length % 2 := by
    rw [List.length_append, hpad]
  have hlong : ¬ (name ++ pad ++ rest).length < name.length + name.length % 2 := by
    rw [List.length_append, hpadded]
    omega
  simp only [decodeSymbol, hlen]
  rw [if_neg hlong, List.drop_left' hpadded, List.append_assoc, List.take_left]

theorem decodeSegment_member (id : UInt32) (rest : List UInt8) :
    decodeSegment ((Segment.member id).bytes ++ rest) = some (.member id, rest) := by
  simp only [Segment.bytes, addMember32]
  split_ifs with h8 h16
  · have hid : id.toNat ≤ 0xFF := h8
    have hvalue : value [id.toUInt8] = id.toNat := by
      rw [value, value, UInt32.toNat_toUInt8]
      omega
    exact decodeMember_append rfl hvalue rest
  · have hid : id.toNat ≤ 0xFFFF := h16
    have hvalue : value (putUint16 id.toUInt16) = id.toNat := by
      rw [putUint16, value_bytes, UInt32.toNat_toUInt16]
      omega
    exact decodeMember_append rfl hvalue rest
  · have hid := id.toNat_lt
    have hvalue : value (putUint32 id) = id.toNat := by
      rw [putUint32, value_bytes]
      omega
    exact decodeMember_append rfl hvalue rest

/-- The first segment of a path is read back. -/
theorem decodeSegment_bytes {seg : Segment} (h : seg.Fits) (rest : List UInt8) :
    decodeSegment (seg.bytes ++ rest) = some (seg, rest) := by
  cases seg with
  | symbol name =>
    obtain ⟨pad, hpad, hbytes⟩ := Segment.exists_bytes_symbol name
    rw [hbytes]
    exact decodeSymbol_append h hpad rest
  | member id => exact decodeSegment_member id rest

theorem decodeEPathLoop_pathBytes {segs : List Segment} (h : ∀ seg ∈ segs, seg.Fits) {fuel : ℕ}
    (hfuel : (pathBytes segs).length ≤ fuel) :
    decodeEPathLoop fuel (pathBytes segs) = some segs := by
  induction segs generalizing fuel with
  | nil => simp [decodeEPathLoop]
  | cons seg segs ih =>
    rw [List.forall_mem_cons] at h
    have hpos := seg.length_bytes ▸ seg.size_pos
    rw [pathBytes_cons, List.length_append] at hfuel
    obtain ⟨fuel, rfl⟩ := Nat.exists_eq_add_of_lt (show 0 < fuel by omega)
    obtain ⟨c, path, hpath⟩ : ∃ c path, seg.bytes ++ pathBytes segs = c :: path :=
      List.exists_cons_of_ne_nil
        (List.append_ne_nil_of_left_ne_nil (List.ne_nil_of_length_pos hpos) _)
    have hseg := decodeSegment_bytes h.1 (pathBytes segs)
    rw [hpath] at hseg
    have hrest := ih h.2 (show (pathBytes segs).length ≤ fuel by omega)
    rw [pathBytes_cons, Nat.zero_add, hpath, decodeEPathLoop, hseg]
    · simp [hrest]
    · simp

/-- The segments of a path are read back. -/
theorem decodeEPath_pathBytes {segs : List Segment} (h : ∀ seg ∈ segs, seg.Fits) :
    decodeEPath (pathBytes segs) = some segs := decodeEPathLoop_pathBytes h le_rfl

/-- Different segments have different paths. -/
theorem pathBytes_inj {segs segs' : List Segment} (h : ∀ seg ∈ segs, seg.Fits)
    (h' : ∀ seg ∈ segs', seg.Fits) (heq : pathBytes segs = pathBytes segs') : segs = segs' := by
  have hread := decodeEPath_pathBytes h
  rw [heq, decodeEPath_pathBytes h'] at hread
  exact (Option.some.inj hread).symm

end GoIndustrial.EtherNetIP
