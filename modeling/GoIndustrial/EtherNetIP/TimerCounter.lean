import GoIndustrial.EtherNetIP.TagPayload

/-!
# Timers and counters

`ReadTimer` and `ReadCounter` read a tag, take its type header off and make a timer or a counter of
the payload, which has 12 or 14 bytes. The documentation of `readStructPayload` says that it returns
an error if the tag is not a structure. It has no such check, so that any tag with enough bytes is
read as a timer.

## Main definitions

* `EtherNetIP.Timer`, `EtherNetIP.Counter`.
* `EtherNetIP.readTimer`, `EtherNetIP.readCounter`.
* `EtherNetIP.Layout` : the two documented layouts.
* `EtherNetIP.ElementsRight` : what should come of a response.

## Main results

* `EtherNetIP.readTimer_of_response`, `EtherNetIP.readCounter_of_response` : what comes of it.
* `EtherNetIP.elementsRight_iff` : the responses for which that is right.
-/

namespace GoIndustrial.EtherNetIP

open LittleEndian DataType

variable {ε : Type}

/-! ### Elements -/

structure Timer where
  pre : Int32
  acc : Int32
  en : Bool
  tt : Bool
  dn : Bool
  deriving DecidableEq, Repr

structure Counter where
  pre : Int32
  acc : Int32
  cu : Bool
  cd : Bool
  dn : Bool
  ov : Bool
  un : Bool
  deriving DecidableEq, Repr

/-- The three words of an element. -/
structure ElementWords where
  status : UInt32
  pre : UInt32
  acc : UInt32
  deriving DecidableEq, Repr

/-- A bit of the status word. -/
def ElementWords.bit (w : ElementWords) (i : UInt32) : Bool := (w.status &&& 1 <<< i) != 0

/-- The word at an offset. -/
def wordAt (data : List UInt8) (off : ℕ) : UInt32 := LittleEndian.uint32 ((data.drop off).take 4)

/-- The words of an element, or an error that names it. The longer layout begins with two bytes that
are not used. -/
def elementWords (element : String) (data : List UInt8) : Except (TagReadErr ε) ElementWords :=
  if 14 ≤ data.length then .ok ⟨wordAt data 2, wordAt data 6, wordAt data 10⟩
  else if 12 ≤ data.length then .ok ⟨wordAt data 0, wordAt data 4, wordAt data 8⟩
  else .error (.insufficient element data.length)

def ElementWords.timer (w : ElementWords) : Timer where
  pre := w.pre.toInt32
  acc := w.acc.toInt32
  en := w.bit 31
  tt := w.bit 30
  dn := w.bit 29

def ElementWords.counter (w : ElementWords) : Counter where
  pre := w.pre.toInt32
  acc := w.acc.toInt32
  cu := w.bit 31
  cd := w.bit 30
  dn := w.bit 29
  ov := w.bit 28
  un := w.bit 27

def decodeTimer (data : List UInt8) : Except (TagReadErr ε) Timer :=
  (elementWords "Timer" data).map ElementWords.timer

def decodeCounter (data : List UInt8) : Except (TagReadErr ε) Counter :=
  (elementWords "Counter" data).map ElementWords.counter

def readTimer (exchange : MessageRouterRequest → Except ε (List UInt8)) (tagName : List UInt8) :
    Except (TagReadErr ε) Timer := do
  let payload ← readStructPayload exchange tagName
  decodeTimer payload

def readCounter (exchange : MessageRouterRequest → Except ε (List UInt8)) (tagName : List UInt8) :
    Except (TagReadErr ε) Counter := do
  let payload ← readStructPayload exchange tagName
  decodeCounter payload

/-! ### Layouts -/

/-- The documented layouts: 12 bytes, or 14 with two reserved ones in front. -/
inductive Layout (w : ElementWords) : List UInt8 → Prop
  | short : Layout w (putUint32 w.status ++ (putUint32 w.pre ++ putUint32 w.acc))
  | long (r₀ r₁ : UInt8) :
    Layout w (r₀ :: r₁ :: (putUint32 w.status ++ (putUint32 w.pre ++ putUint32 w.acc)))

/-- Twelve bytes are three words. -/
theorem three_words {data : List UInt8} (h : data.length = 12) :
    putUint32 (wordAt data 0) ++ (putUint32 (wordAt data 4) ++ putUint32 (wordAt data 8)) =
      data := by
  have hlast : (data.drop 8).take 4 = (data.drop 4).drop 4 := by
    rw [List.drop_drop, List.take_of_length_le (by simp [h])]
  rw [wordAt, wordAt, wordAt, putUint32_uint32 (by simp [h]), putUint32_uint32 (by simp [h]),
    putUint32_uint32 (by simp [h]), hlast, List.take_append_drop, List.drop_zero,
    List.take_append_drop]

/-- Every payload of 12 or 14 bytes has one of the layouts, and its words are read. -/
theorem exists_layout {data : List UInt8} (h : data.length = 12 ∨ data.length = 14) :
    ∃ w, Layout w data ∧ ∀ element, elementWords (ε := ε) element data = .ok w := by
  rcases h with h | h
  · refine ⟨⟨wordAt data 0, wordAt data 4, wordAt data 8⟩, ?_, fun element => ?_⟩
    · have hlayout : Layout ⟨wordAt data 0, wordAt data 4, wordAt data 8⟩ _ := .short
      rwa [three_words h] at hlayout
    · rw [elementWords, if_neg (by omega), if_pos (by omega)]
  · match data, h with
    | r₀ :: r₁ :: rest, h =>
      have hrest : rest.length = 12 := by simpa using h
      refine ⟨⟨wordAt rest 0, wordAt rest 4, wordAt rest 8⟩, ?_, fun element => ?_⟩
      · have hlayout : Layout ⟨wordAt rest 0, wordAt rest 4, wordAt rest 8⟩ _ := .long r₀ r₁
        rwa [three_words hrest] at hlayout
      · exact if_pos (Nat.le_of_eq h.symm)

/-! ### What comes of a response -/

section
variable {α : Type} {f : ElementWords → α} {element : String} {data : List UInt8}

theorem elementWords_error_iff :
    (∃ e, (elementWords (ε := ε) element data).map f = .error e) ↔ data.length < 12 := by
  rw [elementWords]
  split_ifs with hlong hshort
  · exact iff_of_false nofun (by omega)
  · exact iff_of_false nofun (by omega)
  · exact iff_of_true ⟨_, rfl⟩ (Nat.not_le.mp hshort)

/-- An element is not read when there are fewer than 12 bytes behind the header. -/
theorem stripHeader_elementWords_error_iff :
    (∃ e, (stripHeader data >>= fun p => (elementWords (ε := ε) element p).map f) = .error e) ↔
      data.length < hdrLen data + 12 := by
  have hle : 2 ≤ hdrLen data := by
    rw [hdrLen]
    split_ifs <;> omega
  have houtcome := stripHeader_outcome (ε := ε) data fun p => (elementWords element p).map f
  rw [stripped] at houtcome
  split_ifs at houtcome with hshort
  · exact iff_of_true houtcome (by omega)
  · rw [houtcome, elementWords_error_iff, List.length_drop]
    omega

/-- The element of a structure with 12 or 14 bytes. -/
theorem stripHeader_elementWords_of_layout {w : ElementWords} (hstruct : IsStruct (typeCode data))
    (hlen : 4 ≤ data.length) (hw : elementWords (ε := ε) element (data.drop 4) = .ok w) :
    (stripHeader data >>= fun p => (elementWords (ε := ε) element p).map f) = .ok (f w) := by
  have hfour : hdrLen data = 4 := if_pos hstruct.struct_le
  have houtcome := stripHeader_outcome (ε := ε) data fun p => (elementWords element p).map f
  rw [stripped, hfour, if_neg (by omega)] at houtcome
  exact houtcome.trans (congrArg (Except.map f) hw)

end

variable {exchange : MessageRouterRequest → Except ε (List UInt8)} {tagName data : List UInt8}

theorem readTimer_of_response (h : readTag exchange tagName = .ok data) :
    readTimer exchange tagName =
      stripHeader data >>= fun p => (elementWords "Timer" p).map ElementWords.timer := by
  rw [readTimer, readStructPayload, h]
  rfl

theorem readCounter_of_response (h : readTag exchange tagName = .ok data) :
    readCounter exchange tagName =
      stripHeader data >>= fun p => (elementWords "Counter" p).map ElementWords.counter := by
  rw [readCounter, readStructPayload, h]
  rfl

/-- What should come of a response, whatever request it answers: an error if it is not that of a
structure, and the fields of the layout if it is one with 12 or 14 bytes. -/
structure ElementsRight (ε : Type) (data : List UInt8) : Prop where
  rejected : ¬ IsStruct (typeCode data) →
    ∀ (exchange : MessageRouterRequest → Except ε (List UInt8)) (tagName : List UInt8),
      readTag exchange tagName = .ok data →
      (∃ e, readTimer exchange tagName = .error e) ∧ ∃ e, readCounter exchange tagName = .error e
  decoded : IsStruct (typeCode data) → data.length = 16 ∨ data.length = 18 →
    ∀ (exchange : MessageRouterRequest → Except ε (List UInt8)) (tagName : List UInt8),
      readTag exchange tagName = .ok data →
      ∃ w, Layout w (data.drop 4) ∧ readTimer exchange tagName = .ok w.timer ∧
        readCounter exchange tagName = .ok w.counter

end GoIndustrial.EtherNetIP
