import GoIndustrial.Lib.FlagWord
import GoIndustrial.EtherNetIP.TimerCounter

/-!
# Logix structures on the wire

`Timer.MarshalCIP` and `Counter.MarshalCIP` of `protocol/ethernetip/cip`, and `Control` of
`protocol/ethernetip/vendor/rockwell`: 14 bytes each, with two reserved ones, a word of flags and
two numbers. Timers and counters are written with `binary.Write`, and a control structure byte by
byte with shifts, which are arithmetic ones for its numbers. All three are read back from what is
written.

The type code of a `Control` value is not on the wire, and is left out.

## Main definitions

* `EtherNetIP.Timer.marshalCIP`, `EtherNetIP.Counter.marshalCIP`.
* `EtherNetIP.Control`, `EtherNetIP.Control.marshalCIP`, `EtherNetIP.Control.unmarshalCIP`.
* `EtherNetIP.RoundTrip` : what holds of an encoding and a decoding.
* `EtherNetIP.WordLayout` : a type of structures that are two numbers and some flags.

## Main results

* `EtherNetIP.Control.marshalCIP_eq`, `EtherNetIP.Control.unmarshalCIP_eq` : the shifts make the
  words of the structure.
* `EtherNetIP.WordLayout.roundTrip` : round trips through the words.
* `EtherNetIP.structs_round_trip` : what is written is read back.
-/

namespace GoIndustrial.EtherNetIP

open LittleEndian

/-! ### Timers and counters -/

/-- Two reserved bytes and the three words. -/
def ElementWords.encode (w : ElementWords) : List UInt8 :=
  putUint16 0 ++ (putUint32 w.status ++ (putUint32 w.pre ++ putUint32 w.acc))

/-- The flags of a timer with their positions in the status word. -/
def Timer.flags (t : Timer) : List (UInt32 × Bool) := [(31, t.en), (30, t.tt), (29, t.dn)]

def Timer.words (t : Timer) : ElementWords :=
  ⟨FlagWord.pack t.flags, t.pre.toUInt32, t.acc.toUInt32⟩

def Timer.marshalCIP (t : Timer) : List UInt8 := t.words.encode

/-- The flags of a counter with their positions in the status word. -/
def Counter.flags (c : Counter) : List (UInt32 × Bool) :=
  [(31, c.cu), (30, c.cd), (29, c.dn), (28, c.ov), (27, c.un)]

def Counter.words (c : Counter) : ElementWords :=
  ⟨FlagWord.pack c.flags, c.pre.toUInt32, c.acc.toUInt32⟩

def Counter.marshalCIP (c : Counter) : List UInt8 := c.words.encode

/-! ### Control structures -/

structure Control where
  len : Int32
  pos : Int32
  en : Bool
  eu : Bool
  dn : Bool
  em : Bool
  er : Bool
  ul : Bool
  /-- `IN`, inhibit. -/
  inh : Bool
  fd : Bool
  deriving DecidableEq, Repr

/-- The status `not enough data`. -/
def statusNotEnoughData : UInt8 := 0x13

namespace Control

/-- The flags with their positions in the status word. -/
def flags (c : Control) : List (UInt32 × Bool) :=
  [(31, c.en), (30, c.eu), (29, c.dn), (28, c.em), (27, c.er), (26, c.ul), (25, c.inh), (24, c.fd)]

/-- `byte(x)`. -/
def byteOf (x : Int32) : UInt8 := x.toUInt32.toUInt8

/-- `int32(b)`. -/
def int32Of (b : UInt8) : Int32 := b.toUInt32.toInt32

/-- The bytes of a number, with `x >> 8` the arithmetic shift. -/
def shiftBytes (x : Int32) : List UInt8 :=
  [byteOf x, byteOf (x >>> 8), byteOf (x >>> 16), byteOf (x >>> 24)]

/-- The number of four bytes. -/
def ofShifts (b₀ b₁ b₂ b₃ : UInt8) : Int32 :=
  int32Of b₀ ||| int32Of b₁ <<< 8 ||| int32Of b₂ <<< 16 ||| int32Of b₃ <<< 24

/-- `controlWire.MarshalCIP`. -/
def marshalCIP (c : Control) : List UInt8 :=
  let status := FlagWord.pack c.flags
  0 :: 0 :: ([status.toUInt8, (status >>> 8).toUInt8, (status >>> 16).toUInt8,
    (status >>> 24).toUInt8] ++ (shiftBytes c.len ++ shiftBytes c.pos))

/-- `controlWire.UnmarshalCIP`, with the check of the length that is made before it. -/
def unmarshalCIP (data : List UInt8) : Except CipError Control :=
  if data.length < 14 then .error ⟨statusNotEnoughData, []⟩
  else
    let b (i : ℕ) : UInt8 := data.getD i 0
    let status : UInt32 :=
      (b 2).toUInt32 ||| (b 3).toUInt32 <<< 8 ||| (b 4).toUInt32 <<< 16 ||| (b 5).toUInt32 <<< 24
    .ok
      { len := ofShifts (b 6) (b 7) (b 8) (b 9)
        pos := ofShifts (b 10) (b 11) (b 12) (b 13)
        en := FlagWord.flag status 31
        eu := FlagWord.flag status 30
        dn := FlagWord.flag status 29
        em := FlagWord.flag status 28
        er := FlagWord.flag status 27
        ul := FlagWord.flag status 26
        inh := FlagWord.flag status 25
        fd := FlagWord.flag status 24 }

/-- The words of the structure. -/
def words (c : Control) : ElementWords := ⟨FlagWord.pack c.flags, c.len.toUInt32, c.pos.toUInt32⟩

end Control

/-- The words of the longer layout. -/
def longWords (data : List UInt8) : ElementWords :=
  ⟨wordAt data 2, wordAt data 6, wordAt data 10⟩

/-- The structure with these words. -/
def ElementWords.control (w : ElementWords) : Control where
  len := w.pre.toInt32
  pos := w.acc.toInt32
  en := w.bit 31
  eu := w.bit 30
  dn := w.bit 29
  em := w.bit 28
  er := w.bit 27
  ul := w.bit 26
  inh := w.bit 25
  fd := w.bit 24

namespace Control

/-- The low byte does not see what an arithmetic shift moves in. -/
theorem setWidth_sshiftRight (x : BitVec 32) {k : ℕ} (hk : k ≤ 24) :
    (x.sshiftRight k).setWidth 8 = (x >>> k).setWidth 8 := by
  apply BitVec.eq_of_getLsbD_eq
  intro i hi
  have hin : k + i < 32 := by omega
  simp [BitVec.getLsbD_sshiftRight, hin, show ¬ 32 ≤ i by omega]

theorem byteOf_shiftRight (x : Int32) : byteOf (x >>> 8) = (x.toUInt32 >>> 8).toUInt8 ∧
    byteOf (x >>> 16) = (x.toUInt32 >>> 16).toUInt8 ∧
    byteOf (x >>> 24) = (x.toUInt32 >>> 24).toUInt8 := by
  refine ⟨?_, ?_, ?_⟩ <;> apply UInt8.toBitVec_inj.mp
  · exact setWidth_sshiftRight x.toBitVec (k := 8) (by decide)
  · exact setWidth_sshiftRight x.toBitVec (k := 16) (by decide)
  · exact setWidth_sshiftRight x.toBitVec (k := 24) (by decide)

theorem shiftBytes_eq (x : Int32) : shiftBytes x = putUint32 x.toUInt32 := by
  obtain ⟨h₈, h₁₆, h₂₄⟩ := byteOf_shiftRight x
  rw [putUint32_eq_shifts, shiftBytes, h₈, h₁₆, h₂₄]
  rfl

theorem ofShifts_eq (b₀ b₁ b₂ b₃ : UInt8) :
    ofShifts b₀ b₁ b₂ b₃ = (uint32 [b₀, b₁, b₂, b₃]).toInt32 := by
  rw [← or_shifts_eq_uint32]
  rfl

/-- The bytes are those of the words. -/
theorem marshalCIP_eq (c : Control) : c.marshalCIP = c.words.encode := by
  rw [marshalCIP, shiftBytes_eq, shiftBytes_eq, ← putUint32_eq_shifts]
  rfl

/-- A word, byte by byte. -/
theorem uint32_getD {data : List UInt8} {off : ℕ} (h : off + 4 ≤ data.length) :
    uint32 [data.getD off 0, data.getD (off + 1) 0, data.getD (off + 2) 0, data.getD (off + 3) 0] =
      wordAt data off := by
  refine congrArg uint32 (List.ext_getElem ?_ fun i hi _ => ?_)
  · simp
    omega
  · have hi : i < 4 := hi
    interval_cases i <;> grind

/-- What is read are the words. -/
theorem unmarshalCIP_eq {data : List UInt8} (h : 14 ≤ data.length) :
    unmarshalCIP data = .ok (longWords data).control := by
  rw [unmarshalCIP, if_neg (by omega)]
  simp only [or_shifts_eq_uint32, ofShifts_eq]
  rw [uint32_getD (by omega), uint32_getD (by omega), uint32_getD (by omega)]
  rfl

end Control

/-! ### Round trips -/

/-- The positions of the flags. Timers have the first three, and counters the first five. -/
def statusBits : List UInt32 := [31, 30, 29, 28, 27, 26, 25, 24]

/-- The flags of a structure are found where they were put. -/
theorem flag_pack {flags : List (UInt32 × Bool)} {n : ℕ}
    (hflags : flags.map Prod.fst = statusBits.take n) {i : UInt32} {on : Bool}
    (h : (i, on) ∈ flags) : FlagWord.flag (FlagWord.pack flags) i = on := by
  have hnodup : statusBits.Nodup := by decide
  have hlt : ∀ k ∈ statusBits, k.toNat < 32 := by simp [statusBits]
  apply FlagWord.flag_pack_of_mem _ _ h <;> rw [hflags]
  · exact hnodup.sublist (List.take_sublist n _)
  · exact fun k hk => hlt k (List.mem_of_mem_take hk)

/-- The second of two blocks has the numbers and the flags of the first. -/
structure Reencoded (bits : List UInt32) (data data' : List UInt8) : Prop where
  length_eq : data'.length = 14
  numbers : data'.drop 6 = data.drop 6
  flags : ∀ i ∈ bits, FlagWord.flag (wordAt data' 2) i = FlagWord.flag (wordAt data 2) i

/-- A structure of 14 bytes with these flags is read back from what is written, and a block that is
read and written again keeps what it says. -/
structure RoundTrip {α ε : Type} (encode : α → List UInt8) (decode : List UInt8 → Except ε α)
    (bits : List UInt32) : Prop where
  length_encode : ∀ x, (encode x).length = 14
  decode_encode : ∀ x, decode (encode x) = .ok x
  reencoded : ∀ data, data.length = 14 → ∃ x, decode data = .ok x ∧ Reencoded bits data (encode x)

@[simp] theorem ElementWords.length_encode (w : ElementWords) : w.encode.length = 14 := rfl

theorem longWords_encode (w : ElementWords) : longWords w.encode = w := by
  have hstatus : wordAt w.encode 2 = w.status := uint32_putUint32 w.status
  have hpre : wordAt w.encode 6 = w.pre := uint32_putUint32 w.pre
  have hacc : wordAt w.encode 10 = w.acc := uint32_putUint32 w.acc
  rw [longWords, hstatus, hpre, hacc]

/-- The numbers of a block are its last eight bytes. -/
theorem putUint32_longWords {data : List UInt8} (h : data.length = 14) :
    putUint32 (longWords data).pre ++ putUint32 (longWords data).acc = data.drop 6 := by
  have hlength : (data.drop 2).length = 12 := by simp [h]
  have hwords := three_words hlength
  simp only [wordAt, List.drop_drop] at hwords
  exact (congrArg (List.drop 4) hwords).trans List.drop_drop

/-- A type of structures that are two numbers and `n` flags. -/
structure WordLayout (α : Type) (n : ℕ) where
  words : α → ElementWords
  ofWords : ElementWords → α
  flags : α → List (UInt32 × Bool)
  status_words : ∀ x, (words x).status = FlagWord.pack (flags x)
  positions : ∀ x, (flags x).map Prod.fst = statusBits.take n
  flags_ofWords : ∀ w, flags (ofWords w) = (statusBits.take n).map fun i => (i, w.bit i)
  numbers_ofWords : ∀ w, (words (ofWords w)).pre = w.pre ∧ (words (ofWords w)).acc = w.acc
  eq_of_flags : ∀ x y, flags x = flags y → (words x).pre = (words y).pre →
    (words x).acc = (words y).acc → x = y

namespace WordLayout

variable {α ε : Type} {n : ℕ} (L : WordLayout α n)

theorem bit_words {x : α} {i : UInt32} {on : Bool} (h : (i, on) ∈ L.flags x) :
    (L.words x).bit i = on := by
  have hbit := flag_pack (L.positions x) h
  rwa [← L.status_words] at hbit

theorem ofWords_words (x : α) : L.ofWords (L.words x) = x := by
  obtain ⟨hpre, hacc⟩ := L.numbers_ofWords (L.words x)
  refine L.eq_of_flags _ _ ?_ hpre hacc
  have hfound : ∀ p ∈ L.flags x, (p.1, (L.words x).bit p.1) = p :=
    fun p hp => Prod.ext rfl (L.bit_words hp)
  rw [L.flags_ofWords, ← L.positions x, List.map_map]
  exact (List.map_congr_left hfound).trans (List.map_id _)

theorem bit_ofWords (w : ElementWords) {i : UInt32} (h : i ∈ statusBits.take n) :
    (L.words (L.ofWords w)).bit i = w.bit i := by
  apply L.bit_words
  rw [L.flags_ofWords]
  exact List.mem_map_of_mem h

/-- **Round trips**, for an encoding and a decoding through the words. -/
theorem roundTrip {encode : α → List UInt8} {decode : List UInt8 → Except ε α}
    (hencode : ∀ x, encode x = (L.words x).encode)
    (hdecode : ∀ data, 14 ≤ data.length → decode data = .ok (L.ofWords (longWords data))) :
    RoundTrip encode decode (statusBits.take n) where
  length_encode x := by rw [hencode, ElementWords.length_encode]
  decode_encode x := by
    rw [hencode, hdecode _ (Nat.le_of_eq (ElementWords.length_encode _).symm), longWords_encode,
      L.ofWords_words]
  reencoded data h := by
    refine ⟨_, hdecode data (Nat.le_of_eq h.symm), ?_⟩
    obtain ⟨hpre, hacc⟩ := L.numbers_ofWords (longWords data)
    rw [hencode]
    refine ⟨ElementWords.length_encode _, ?_, fun i hi => ?_⟩
    · rw [← putUint32_longWords h, ← hpre, ← hacc]
      rfl
    · have hstatus := congrArg (ElementWords.bit · i)
        (longWords_encode (L.words (L.ofWords (longWords data))))
      exact hstatus.trans (L.bit_ofWords _ hi)

end WordLayout

def timerLayout : WordLayout Timer 3 where
  words := Timer.words
  ofWords := ElementWords.timer
  flags := Timer.flags
  status_words _ := rfl
  positions _ := rfl
  flags_ofWords _ := rfl
  numbers_ofWords _ := ⟨rfl, rfl⟩
  eq_of_flags t t' hflags hpre hacc := by
    obtain ⟨pre, acc, en, tt, dn⟩ := t
    obtain ⟨pre', acc', en', tt', dn'⟩ := t'
    obtain rfl : pre = pre' := congrArg UInt32.toInt32 hpre
    obtain rfl : acc = acc' := congrArg UInt32.toInt32 hacc
    simpa [Timer.flags] using hflags

def counterLayout : WordLayout Counter 5 where
  words := Counter.words
  ofWords := ElementWords.counter
  flags := Counter.flags
  status_words _ := rfl
  positions _ := rfl
  flags_ofWords _ := rfl
  numbers_ofWords _ := ⟨rfl, rfl⟩
  eq_of_flags c c' hflags hpre hacc := by
    obtain ⟨pre, acc, cu, cd, dn, ov, un⟩ := c
    obtain ⟨pre', acc', cu', cd', dn', ov', un'⟩ := c'
    obtain rfl : pre = pre' := congrArg UInt32.toInt32 hpre
    obtain rfl : acc = acc' := congrArg UInt32.toInt32 hacc
    simpa [Counter.flags] using hflags

def controlLayout : WordLayout Control 8 where
  words := Control.words
  ofWords := ElementWords.control
  flags := Control.flags
  status_words _ := rfl
  positions _ := rfl
  flags_ofWords _ := rfl
  numbers_ofWords _ := ⟨rfl, rfl⟩
  eq_of_flags c c' hflags hlen hpos := by
    obtain ⟨len, pos, en, eu, dn, em, er, ul, inh, fd⟩ := c
    obtain ⟨len', pos', en', eu', dn', em', er', ul', inh', fd'⟩ := c'
    obtain rfl : len = len' := congrArg UInt32.toInt32 hlen
    obtain rfl : pos = pos' := congrArg UInt32.toInt32 hpos
    simpa [Control.flags] using hflags

/-- Without its reserved bytes a block has the shorter layout. -/
theorem elementWords_drop_encode (ε : Type) (element : String) (w : ElementWords) :
    elementWords (ε := ε) element (w.encode.drop 2) = .ok w := by
  have hstatus : wordAt (w.encode.drop 2) 0 = w.status := uint32_putUint32 w.status
  have hpre : wordAt (w.encode.drop 2) 4 = w.pre := uint32_putUint32 w.pre
  have hacc : wordAt (w.encode.drop 2) 8 = w.acc := uint32_putUint32 w.acc
  have hlength : (w.encode.drop 2).length = 12 := rfl
  rw [elementWords, hstatus, hpre, hacc, if_neg (by omega), if_pos (by omega)]

/-- **Structures are read back from what is written**, timers and counters also without the two
reserved bytes, and a block that is read and written again keeps its numbers and its flags. -/
theorem structs_round_trip (ε : Type) :
    (RoundTrip Timer.marshalCIP (decodeTimer (ε := ε)) [31, 30, 29] ∧
      ∀ t : Timer, decodeTimer (ε := ε) (t.marshalCIP.drop 2) = .ok t) ∧
    (RoundTrip Counter.marshalCIP (decodeCounter (ε := ε)) [31, 30, 29, 28, 27] ∧
      ∀ c : Counter, decodeCounter (ε := ε) (c.marshalCIP.drop 2) = .ok c) ∧
    RoundTrip Control.marshalCIP Control.unmarshalCIP [31, 30, 29, 28, 27, 26, 25, 24] := by
  refine ⟨⟨?_, fun t => ?_⟩, ⟨?_, fun c => ?_⟩, ?_⟩
  · refine timerLayout.roundTrip (fun _ => rfl) fun data h => ?_
    rw [decodeTimer, elementWords, if_pos h]
    rfl
  · rw [decodeTimer, Timer.marshalCIP, elementWords_drop_encode]
    exact congrArg Except.ok (timerLayout.ofWords_words t)
  · refine counterLayout.roundTrip (fun _ => rfl) fun data h => ?_
    rw [decodeCounter, elementWords, if_pos h]
    rfl
  · rw [decodeCounter, Counter.marshalCIP, elementWords_drop_encode]
    exact congrArg Except.ok (counterLayout.ofWords_words c)
  · exact controlLayout.roundTrip Control.marshalCIP_eq fun _ => Control.unmarshalCIP_eq

end GoIndustrial.EtherNetIP
