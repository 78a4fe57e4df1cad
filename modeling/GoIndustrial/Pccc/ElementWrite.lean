import GoIndustrial.Pccc.ElementRead

/-!
# A value written and read back

`WriteAddress` of a value to an address without a bit writes four bytes to a float file and two
bytes to all others; `ReadAddress` chooses the size of its read by a case split of its own. The two
agree except for a whole timer, counter or control element, whose six bytes are one item to the
reader: the writer does not refuse it and overwrites the first of the three words.

## Main definitions

* `Pccc.WholeItem` : the bytes of a value are as many as a read of the address asks for.
* `Pccc.WriteReadAgrees` : whole items are written and read back, others are refused.

## Main results

* `Pccc.writeReadAgrees_iff` : the addresses for which this is so.
* `Pccc.not_writeReadAgrees_timer` : a whole timer that is written to.
-/

namespace GoIndustrial.Pccc

open LittleEndian

/-- The value is all that a read of the address returns. -/
def WholeItem (a : Address) (data : List UInt8) : Prop := (elementBytes a 1).toInt = data.length

/-- The write failed and the table is as before. -/
def RefusesWrite (ε : Type) (conv : FloatConv) (addr : List Char) (v : GoValue)
    (l : Link DataTable) : Prop :=
  ∃ e l', runOn (ε := ε) DataTable.executor (writeAddress conv addr v) l = (.error e, l') ∧
    l'.device = l.device

/-- The write completed, a read returns what was written, and no word outside is changed. -/
def WritesBack (ε : Type) (conv : FloatConv) (addr : List Char) (a : Address) (v : GoValue)
    (data : List UInt8) (l : Link DataTable) : Prop :=
  ∃ l', runOn (ε := ε) DataTable.executor (writeAddress conv addr v) l = (.ok (), l') ∧
    (∃ v', (runOn (ε := ε) DataTable.executor (readAddress addr) l').1 = .ok v' ∧ v'.raw = data) ∧
    ∀ n j, ¬(n = .ofInt a.fileNumber ∧ a.wordIndex ≤ j ∧ 2 * j < 2 * a.wordIndex + data.length) →
      l'.device.word n j = l.device.word n j

/-- For every value that is accepted for the address: a value that is a whole item is written and
read back if the table has the item, and every other write is refused. -/
def WriteReadAgrees (ε : Type) (conv : FloatConv) (addr : List Char) (a : Address) : Prop :=
  ∀ (v : GoValue) (data : List UInt8) (l : Link DataTable),
    valueBytes (ε := ε) conv addr a v = .ok data →
      (WholeItem a data ∧ (l.device.read a data.length).isSome →
        WritesBack ε conv addr a v data l) ∧
      (¬(WholeItem a data ∧ (l.device.read a data.length).isSome) → RefusesWrite ε conv addr v l)

variable {ε : Type} {conv : FloatConv} {addr : List Char} {a : Address} {v : GoValue}
  {data : List UInt8}

/-- The encoded value has four bytes for a float file and two for all others. -/
theorem length_valueBytes (h : valueBytes (ε := ε) conv addr a v = .ok data) :
    data.length = if a.fileType = .float then 4 else 2 := by
  rw [valueBytes] at h
  split_ifs at h ⊢
  · cases hv : float32Of conv v with
    | none => simp [hv] at h
    | some bits =>
      simp only [hv, Except.ok.injEq] at h
      rw [← h, length_putUint32]
  · cases hv : int16Of v with
    | none => simp [hv] at h
    | some n =>
      simp only [hv, Except.ok.injEq] at h
      rw [← h, length_putUint16]

/-- A write of an accepted value on a table. -/
theorem runOn_writeAddress (hparse : parseAddress addr = .ok a) (hbit : a.bitNum < 0)
    (hv : valueBytes (ε := ε) conv addr a v = .ok data) (l : Link DataTable) :
    runOn (ε := ε) DataTable.executor (writeAddress conv addr v) l =
      match l.device.write a data with
      | some dt => (.ok (), l.next dt)
      | none => (.error refused, l.next l.device) := by
  have hlen := length_valueBytes hv
  have hsize : 2 ≤ data.length ∧ data.length ≤ 4 := by split_ifs at hlen <;> omega
  have hne : data ≠ [] := List.ne_nil_of_length_pos (by omega)
  have hwrite : (writeAddress conv addr v : Program ε Unit) = writeBytes a data := by
    rw [writeAddress, hparse]
    refine (if_neg (by omega)).trans ?_
    rw [hv]
    rfl
  rw [hwrite]
  exact runOn_writeBytes l (valid_of_parseAddress hparse) hne (by omega)

theorem elementBytes_one (hbit : a.bitNum < 0)
    (hitem : ¬(a.fileType.isTimerLike = true ∧ a.subElement = 0)) (hsub : 0 ≤ a.subElement) :
    (elementBytes a 1).toInt = if a.fileType = .float then 4 else 2 := by
  rw [show elementBytes a 1 = _ from elementBytes_effectiveCount ⟨[], 0⟩ a, if_neg (by omega)]
  split_ifs with hfloat htimer hpos
  · rfl
  · rfl
  · exact absurd ⟨htimer, by omega⟩ hitem
  · rfl

/-- A value that is written completely is read back. -/
theorem writesBack_of_wholeItem (hparse : parseAddress addr = .ok a) (hbit : a.bitNum < 0)
    (hitem : ¬(a.fileType.isTimerLike = true ∧ a.subElement = 0))
    (hv : valueBytes (ε := ε) conv addr a v = .ok data) {l : Link DataTable} {dt : DataTable}
    (hwhole : WholeItem a data) (hdt : l.device.write a data = some dt) :
    WritesBack ε conv addr a v data l := by
  have hlen := length_valueBytes hv
  refine ⟨l.next dt, by rw [runOn_writeAddress hparse hbit hv, hdt], ?_, fun n j hout => ?_⟩
  · have hsize : (elementBytes a (File.effectiveCount ⟨addr, 0⟩)).toInt = data.length := hwhole
    have hrange : 2 ≤ data.length ∧ data.length ≤ 4 := by split_ifs at hlen <;> omega
    have hread : (l.next dt).device.read a data.length = some data := DataTable.read_of_write hdt
    rw [readAddress, runOn_readFile (f := ⟨addr, 0⟩) _ hparse (by omega) (by omega), hsize,
      Int.toNat_natCast, hread]
    by_cases hfloat : a.fileType = .float
    · rw [if_pos hfloat] at hlen
      exact ⟨_, fileValue_float hbit hfloat _ _, clip_of_length (by rw [hlen]; rfl)⟩
    · obtain ⟨type, hvalue⟩ := fileValue_words (ε := ε) (f := ⟨addr, 0⟩) hbit hfloat hitem
        (data.length : ℤ) data
      exact ⟨_, hvalue, clip_of_length rfl⟩
  · have heven : data.length % 2 = 0 := by split_ifs at hlen <;> omega
    have hwords := length_wordsOf heven
    change dt.word n j = _
    rw [DataTable.word_of_write hdt, if_neg fun h => hout ⟨h.1, h.2.1, by omega⟩]

/-- **A value written is read back, and everything else is refused**, for the addresses without a
bit that are not whole timer, counter or control elements, and for no others. -/
theorem writeReadAgrees_iff (conv : FloatConv) (hparse : parseAddress addr = .ok a)
    (hbit : a.bitNum < 0) :
    WriteReadAgrees ε conv addr a ↔ ¬(a.fileType.isTimerLike = true ∧ a.subElement = 0) := by
  have hsub := (valid_of_parseAddress hparse).subElement.1
  constructor
  · rintro h ⟨htimer, hzero⟩
    have hfloat := FileType.ne_float_of_isTimerLike htimer
    have hbytes : (elementBytes a 1).toInt = 6 := by
      rw [show elementBytes a 1 = _ from elementBytes_effectiveCount ⟨[], 0⟩ a,
        if_neg (by omega), if_neg hfloat, if_pos htimer, if_neg (by omega)]
      rfl
    have hv : valueBytes (ε := ε) conv addr a (.int16 0) = .ok [0, 0] := by
      rw [valueBytes, if_neg hfloat]
      rfl
    obtain ⟨data, hread⟩ := exists_read_zeroTable a (by decide : 2 ≤ 240)
    have hsome : ((zeroTable a).write a [0, 0]).isSome = true := by
      rw [DataTable.isSome_write rfl, show [(0 : UInt8), 0].length = 2 from rfl, hread]
      rfl
    obtain ⟨dt, hdt⟩ := Option.isSome_iff_exists.mp hsome
    obtain ⟨e, l', hrun, -⟩ := (h (.int16 0) [0, 0] ⟨0, zeroTable a⟩ hv).2 fun hitem => by
      have hsix : (elementBytes a 1).toInt = 2 := hitem.1
      omega
    rw [runOn_writeAddress hparse hbit hv, hdt] at hrun
    cases hrun
  · intro hitem v data l hv
    have hlen := length_valueBytes hv
    have hwhole : WholeItem a data := by
      rw [WholeItem, elementBytes_one hbit hitem hsub, hlen]
      split_ifs <;> rfl
    have heven : data.length % 2 = 0 := by split_ifs at hlen <;> omega
    have hiff : (l.device.write a data).isSome = _ := DataTable.isSome_write heven
    cases hdt : l.device.write a data with
    | some dt =>
      rw [hdt] at hiff
      exact ⟨fun _ => writesBack_of_wholeItem hparse hbit hitem hv hwhole hdt,
        fun hnot => absurd ⟨hwhole, hiff.symm⟩ hnot⟩
    | none =>
      rw [hdt] at hiff
      refine ⟨fun hall => absurd (hiff.trans hall.2) Bool.false_ne_true, fun _ => ?_⟩
      exact ⟨refused, l.next l.device, by rw [runOn_writeAddress hparse hbit hv, hdt], rfl⟩

/-- The conversions of numbers that are exact as normal `float32`s, and of zero as an integer. -/
def exactFloats : FloatConv where
  ofFloat64 bits := ((bits >>> 32) &&& 0x80000000).toUInt32 |||
    (((bits &&& 0x7FFFFFFFFFFFFFFF) >>> 29) - 0x1C0000000).toUInt32
  ofInt n :=
    let exponent := n.natAbs.log2
    if n = 0 then 0
    else (if n < 0 then 0x80000000 else 0) +
      UInt32.ofNat ((126 + exponent) * 2 ^ 23 + n.natAbs * 2 ^ 23 / 2 ^ exponent)

/-- Minus 1.5 and minus 3 are written to `F8:1` as they are in a `float32`. -/
theorem writeReadAgrees_float :
    let a : Address := ⟨.float, 8, 1, 0, -1⟩
    WriteReadAgrees Empty exactFloats ['F', '8', ':', '1'] a ∧
      valueBytes (ε := Empty) exactFloats ['F', '8', ':', '1'] a (.float64 0xBFF8000000000000) =
        .ok [0, 0, 0xC0, 0xBF] ∧
      valueBytes (ε := Empty) exactFloats ['F', '8', ':', '1'] a (.int (-3)) =
        .ok [0, 0, 0x40, 0xC0] := by
  have hparse : parseAddress ['F', '8', ':', '1'] = .ok ⟨.float, 8, 1, 0, -1⟩ := by decide +kernel
  exact ⟨(writeReadAgrees_iff _ hparse (by decide)).mpr (by decide), rfl, rfl⟩

/-- A write of 5 to the whole timer `T4:0` is accepted, and takes the place of its status bits. -/
theorem not_writeReadAgrees_timer :
    parseAddress ['T', '4', ':', '0'] = .ok ⟨.timer, 4, 0, 0, -1⟩ ∧
      (runOn (ε := Empty) DataTable.executor (writeAddress ⟨fun _ => 0, fun _ => 0⟩
        ['T', '4', ':', '0'] (.int 5)) ⟨1, timerTable⟩).1 = .ok () ∧
      ¬WriteReadAgrees Empty ⟨fun _ => 0, fun _ => 0⟩ ['T', '4', ':', '0']
        ⟨.timer, 4, 0, 0, -1⟩ := by
  have hrun : (runOn (ε := Empty) DataTable.executor (writeAddress ⟨fun _ => 0, fun _ => 0⟩
      ['T', '4', ':', '0'] (.int 5)) ⟨1, timerTable⟩).1 = .ok () := rfl
  refine ⟨by decide +kernel, hrun, fun h => ?_⟩
  obtain ⟨e, l', hfail, -⟩ := (h (.int 5) [5, 0] ⟨1, timerTable⟩ rfl).2 fun hitem =>
    absurd hitem.1 (by unfold WholeItem; decide)
  rw [hfail] at hrun
  cases hrun

end GoIndustrial.Pccc
