import Mathlib.Algebra.Group.Int.Defs
import GoIndustrial.Pccc.BitWrite

/-!
# Reads of several elements

A `File` point asks for `Count` consecutive elements of a word-sized or float file, and for the one
bit or word if it names a bit or a field of a timer, a counter or a control element. The size of the
read, the clipping of the reply and the meaning of `Count` are decided in three places. They agree
as long as the count is one, and for more elements on the word-sized files; a float file is clipped
to its first element, and for a field the words behind it are returned as well.

## Main definitions

* `Pccc.wantedBytes` : what a point asks for.
* `Pccc.ReadsWanted` : on every table that has it, this is what `Read` returns.

## Main results

* `Pccc.readsWanted_iff` : when this is so.
* `Pccc.not_readsWanted_two_floats` : two elements of a float file.
-/

namespace GoIndustrial.Pccc

open LittleEndian

/-- The word-sized and float files: N, B, F, S, I, O and D. -/
def FileType.isCounted : FileType → Bool
  | .integer | .bit | .float | .status | .input | .output | .bcd => true
  | _ => false

/-- What the point asks for: a bit, a word, or all of its elements. -/
def wantedBytes (dt : DataTable) (f : File) (a : Address) : Option (List UInt8) :=
  if 0 ≤ a.bitNum then (dt.wordAt a).map fun w => [(wordBit w a.bitNum.toNat).toUInt8]
  else if a.fileType.isTimerLike then dt.read a 2
  else dt.read a (2 * (a.fileType.wordsPerElement * f.effectiveCount.toInt.toNat))

/-- The points for which it is said what they ask for: those with a bit or with a field of a timer,
a counter or a control element, and those of counted files whose elements fit into a read. -/
inductive Countable (f : File) (a : Address) : Prop
  | bit (h : 0 ≤ a.bitNum)
  | field (hft : a.fileType.isTimerLike = true) (hsub : 0 < a.subElement)
  | elements (hft : a.fileType.isCounted = true) (hbit : a.bitNum < 0)
      (hsize : 2 * (a.fileType.wordsPerElement * f.effectiveCount.toInt.toNat) ≤ 240)

/-- `Read` returns what the point asks for, from every table that has it. -/
def ReadsWanted (ε : Type) (f : File) (a : Address) : Prop :=
  ∀ (l : Link DataTable) (data : List UInt8), wantedBytes l.device f a = some data →
    ∃ v, (runOn (ε := ε) DataTable.executor (read [.clusterable f]) l).1 = .ok [v] ∧ v.raw = data

/-! ### Sizes -/

theorem one_le_effectiveCount (f : File) : 1 ≤ f.effectiveCount.toInt := by
  rw [File.effectiveCount]
  split_ifs with h
  · decide
  · rw [Int64.le_iff_toInt_le] at h
    exact Int.not_le.mp h

/-- A product that fits is not cut. -/
theorem toInt_mul_of_lt {x y : Int64} (h₀ : 0 ≤ x.toInt * y.toInt)
    (h₁ : x.toInt * y.toInt < 2 ^ 63) : (x * y).toInt = x.toInt * y.toInt := by
  rw [Int64.toInt_mul]
  exact Int.bmod_eq_of_le (by omega) (by omega)

/-- The count that is given to `elementBytes` is at least one already. -/
theorem elementBytes_effectiveCount (f : File) (a : Address) :
    elementBytes a f.effectiveCount =
      if 0 ≤ a.bitNum then 2
      else if a.fileType = .float then 4 * f.effectiveCount
      else if a.fileType.isTimerLike then
        if 0 < a.subElement then 2 * f.effectiveCount else 6 * f.effectiveCount
      else 2 * f.effectiveCount := by
  have hcount : ¬f.effectiveCount < 1 := by
    rw [Int64.lt_iff_toInt_lt]
    exact Int.not_lt.mpr (one_le_effectiveCount f)
  rw [elementBytes, if_neg hcount]

variable {ε : Type} {f : File} {a : Address}

/-- The elements of a counted file are words, or floats of two words. -/
theorem FileType.of_isCounted {ft : FileType} (h : ft.isCounted = true) :
    ft.isTimerLike = false ∧ (ft ≠ .float → ft.wordsPerElement = 1) := by
  cases ft <;> first | contradiction | decide

theorem wantedBytes_elements (hft : a.fileType.isCounted = true) (hbit : a.bitNum < 0)
    (dt : DataTable) : wantedBytes dt f a =
      dt.read a (2 * (a.fileType.wordsPerElement * f.effectiveCount.toInt.toNat)) := by
  rw [wantedBytes, if_neg (by omega), (FileType.of_isCounted hft).1, if_neg Bool.false_ne_true]

theorem elementBytes_elements (hft : a.fileType.isCounted = true) (hbit : a.bitNum < 0)
    (hsize : 2 * (a.fileType.wordsPerElement * f.effectiveCount.toInt.toNat) ≤ 240) :
    (elementBytes a f.effectiveCount).toInt.toNat =
      2 * (a.fileType.wordsPerElement * f.effectiveCount.toInt.toNat) := by
  have hcount := one_le_effectiveCount f
  rw [elementBytes_effectiveCount, if_neg (by omega)]
  by_cases hfloat : a.fileType = .float
  · rw [hfloat, FileType.wordsPerElement] at hsize
    rw [if_pos hfloat, hfloat, FileType.wordsPerElement,
      toInt_mul_of_lt (x := 4) (by change 0 ≤ 4 * _; omega) (by change 4 * _ < _; omega)]
    change (4 * f.effectiveCount.toInt).toNat = _
    omega
  · obtain ⟨htimer, hwords⟩ := FileType.of_isCounted hft
    rw [hwords hfloat] at hsize
    rw [if_neg hfloat, hwords hfloat, htimer, if_neg Bool.false_ne_true,
      toInt_mul_of_lt (x := 2) (by change 0 ≤ 2 * _; omega) (by change 2 * _ < _; omega)]
    change (2 * f.effectiveCount.toInt).toNat = _
    omega

/-! ### Reads -/

theorem DataFile.length_readBytes {file : DataFile} {i size : ℕ} {data : List UInt8}
    (h : file.readBytes i size = some data) : data.length = size := by
  rw [readBytes] at h
  split_ifs at h with hfit
  cases h
  rw [List.length_take, List.length_drop, length_bytesOf]
  omega

/-- A read has the size that was asked for. -/
theorem DataTable.length_read {dt : DataTable} {size : ℕ} {data : List UInt8}
    (h : dt.read a size = some data) : data.length = size := by
  obtain ⟨file, -, hread⟩ := Option.bind_eq_some_iff.mp h
  exact file.length_readBytes hread

/-- `Read` of one point. -/
theorem runOn_read_singleton (f : File) (l : Link DataTable) :
    (runOn (ε := ε) DataTable.executor (read [.clusterable f]) l).1 =
      (runOn (ε := ε) DataTable.executor (readFile f) l).1.map fun v =>
        [{ v with dataPoint := some (.clusterable f) }] := by
  rw [read, runOn_bind]
  cases runOn (ε := ε) DataTable.executor (readFile f) l with
  | mk r l' => cases r <;> rfl

/-- A read of the wanted size, of which nothing is clipped. -/
theorem readsWanted_of_size (hparse : parseAddress f.address = .ok a) {n : ℕ}
    (hn : (elementBytes a f.effectiveCount).toInt = n) (h₁ : 1 ≤ n) (h₂ : n ≤ 240)
    (hwanted : ∀ dt : DataTable, wantedBytes dt f a = dt.read a n)
    (hvalue : ∀ raw : List UInt8, raw.length = n →
      ∃ v, fileValue (ε := ε) f a n raw = .ok v ∧ v.raw = raw) : ReadsWanted ε f a := by
  intro l data hdata
  rw [hwanted] at hdata
  obtain ⟨v, hv, hraw⟩ := hvalue data (DataTable.length_read hdata)
  refine ⟨{ v with dataPoint := some (.clusterable f) }, ?_, hraw⟩
  rw [runOn_read_singleton, runOn_readFile l hparse (by omega) (by omega), hn, Int.toNat_natCast,
    hdata]
  dsimp only
  rw [hv]
  rfl

theorem readsWanted_bit (hparse : parseAddress f.address = .ok a) (hbit : 0 ≤ a.bitNum) :
    ReadsWanted ε f a := by
  intro l data hdata
  rw [wantedBytes, if_pos hbit] at hdata
  obtain ⟨w, hw, rfl⟩ := Option.map_eq_some_iff.mp hdata
  have hread : l.device.read a 2 = some (putUint16 w) := by rw [DataTable.read_two, hw]; rfl
  refine ⟨⟨some (.clusterable f), _, .bool, .littleEndian⟩, ?_, rfl⟩
  rw [runOn_read_singleton, runOn_readFile_bit hparse hbit hread]
  rfl

/-- A table with a file in which every read of the client at the address succeeds. -/
def zeroTable (a : Address) : DataTable :=
  Function.update (fun _ => none) (.ofInt a.fileNumber)
    (some ⟨a.fileType, List.replicate (a.wordIndex + 120) 0⟩)

theorem exists_read_zeroTable (a : Address) {size : ℕ} (h : size ≤ 240) :
    ∃ data, (zeroTable a).read a size = some data := by
  have hfile : (zeroTable a).fileAt a =
      some ⟨a.fileType, List.replicate (a.wordIndex + 120) 0⟩ :=
    DataTable.fileAt_eq_some.mpr ⟨Function.update_self _ _ _, rfl⟩
  have hfit : 2 * a.wordIndex + size ≤
      2 * (List.replicate (a.wordIndex + 120) (0 : UInt16)).length := by
    rw [List.length_replicate]
    omega
  rw [DataTable.read, hfile]
  exact ⟨_, if_pos hfit⟩

/-- A read of a size that the client does not accept. -/
theorem runOn_readFile_size (hparse : parseAddress f.address = .ok a)
    (h : (elementBytes a f.effectiveCount).toInt < 1 ∨
      240 < (elementBytes a f.effectiveCount).toInt) (l : Link DataTable) :
    runOn (ε := ε) DataTable.executor (readFile f) l =
      (.error (.readSize (elementBytes a f.effectiveCount).toInt), l) := by
  have hraw : runOn (ε := ε) DataTable.executor
      (rawRead a (elementBytes a f.effectiveCount).toInt) l =
        (.error (.readSize (elementBytes a f.effectiveCount).toInt), l) := by
    rw [rawRead, if_pos h]
    rfl
  rw [readFile, File.parse, hparse, runOn_bind_ok _ _ rfl]
  exact runOn_bind_error _ _ hraw

/-- Nothing but a value of the wanted length can be right. -/
theorem not_readsWanted (hparse : parseAddress f.address = .ok a) {n : ℕ} (hn : n ≤ 240)
    (hwanted : ∀ dt : DataTable, wantedBytes dt f a = dt.read a n)
    (hvalue : ∀ (raw : List UInt8) (v : Plc.Value File),
      raw.length = (elementBytes a f.effectiveCount).toInt.toNat →
      fileValue (ε := ε) f a (elementBytes a f.effectiveCount).toInt raw = .ok v →
        v.raw.length ≠ n) : ¬ReadsWanted ε f a := by
  intro h
  obtain ⟨data, hdata⟩ := exists_read_zeroTable a hn
  obtain ⟨v, hv, hraw⟩ := h ⟨0, zeroTable a⟩ data (by rw [hwanted, hdata])
  have hlen : v.raw.length = n := by rw [hraw, DataTable.length_read hdata]
  rw [runOn_read_singleton] at hv
  by_cases hsize : 1 ≤ (elementBytes a f.effectiveCount).toInt ∧
      (elementBytes a f.effectiveCount).toInt ≤ 240
  · obtain ⟨raw, hread⟩ := exists_read_zeroTable a
      (by omega : (elementBytes a f.effectiveCount).toInt.toNat ≤ 240)
    rw [runOn_readFile _ hparse hsize.1 hsize.2, hread] at hv
    cases hfile : fileValue (ε := ε) f a (elementBytes a f.effectiveCount).toInt raw with
    | error e => simp [hfile, Except.map] at hv
    | ok v' =>
      simp only [hfile, Except.map, Except.ok.injEq, List.cons.injEq, and_true] at hv
      refine hvalue raw v' (DataTable.length_read hread) hfile ?_
      rw [← hlen, ← hv]
  · rw [runOn_readFile_size hparse (by omega)] at hv
    cases hv

/-! ### Clipping -/

theorem clip_of_length {raw : List UInt8} {n : ℤ} (h : raw.length = n.toNat) : clip raw n = raw :=
  List.take_of_length_le h.le

/-- The value of a float file has the first element only. -/
theorem fileValue_float (hbit : a.bitNum < 0) (hft : a.fileType = .float) (size : ℤ)
    (raw : List UInt8) :
    fileValue (ε := ε) f a size raw = .ok ⟨none, clip raw 4, .float32, .littleEndian⟩ := by
  rw [fileValue, if_neg (by omega), if_pos hft]

/-- The value of a word-sized file, or of a field, has all the bytes that were asked for. -/
theorem fileValue_words (hbit : a.bitNum < 0) (hft : a.fileType ≠ .float)
    (hitem : ¬(a.fileType.isTimerLike = true ∧ a.subElement = 0)) (size : ℤ) (raw : List UInt8) :
    ∃ type, fileValue (ε := ε) f a size raw = .ok ⟨none, clip raw size, type, .littleEndian⟩ := by
  rw [fileValue, if_neg (by omega), if_neg hft, if_neg hitem]
  split_ifs <;> exact ⟨_, rfl⟩

theorem readsWanted_float (hparse : parseAddress f.address = .ok a) (hbit : a.bitNum < 0)
    (hft : a.fileType = .float)
    (hsize : 2 * (a.fileType.wordsPerElement * f.effectiveCount.toInt.toNat) ≤ 240) :
    ReadsWanted ε f a ↔ f.effectiveCount.toInt ≤ 1 := by
  have hcount := one_le_effectiveCount f
  have hcounted : a.fileType.isCounted = true := by rw [hft]; rfl
  have hbytes := elementBytes_elements hcounted hbit hsize
  have hwanted := wantedBytes_elements (f := f) hcounted hbit
  rw [hft, FileType.wordsPerElement] at hbytes hwanted hsize
  constructor
  · intro h
    by_contra hmany
    refine not_readsWanted hparse hsize hwanted (fun raw v hraw hv => ?_) h
    rw [fileValue_float hbit hft] at hv
    cases hv
    change (raw.take 4).length ≠ _
    rw [List.length_take]
    omega
  · intro hone
    refine readsWanted_of_size hparse (n := 2 * (2 * f.effectiveCount.toInt.toNat)) (by omega)
      (by omega) hsize hwanted fun raw hraw => ?_
    refine ⟨_, fileValue_float hbit hft _ raw, clip_of_length ?_⟩
    rw [hraw]
    omega

theorem readsWanted_words (hparse : parseAddress f.address = .ok a) (hbit : a.bitNum < 0)
    (hft : a.fileType.isCounted = true) (hfloat : a.fileType ≠ .float)
    (hsize : 2 * (a.fileType.wordsPerElement * f.effectiveCount.toInt.toNat) ≤ 240) :
    ReadsWanted ε f a := by
  have hcount := one_le_effectiveCount f
  have hbytes := elementBytes_elements hft hbit hsize
  have hwanted := wantedBytes_elements (f := f) hft hbit
  obtain ⟨htimer, hwords⟩ := FileType.of_isCounted hft
  rw [hwords hfloat] at hbytes hwanted hsize
  refine readsWanted_of_size hparse (by omega) (by omega) hsize hwanted fun raw hraw => ?_
  have hitem : ¬(a.fileType.isTimerLike = true ∧ a.subElement = 0) := by
    rw [htimer]
    exact fun h => Bool.false_ne_true h.1
  obtain ⟨type, hvalue⟩ := fileValue_words (ε := ε) (f := f) hbit hfloat hitem
    ((2 * (1 * f.effectiveCount.toInt.toNat) : ℕ) : ℤ) raw
  exact ⟨_, hvalue, clip_of_length hraw⟩

/-- A count of more than one never makes a size of one word, overflow or not. -/
theorem two_mul_toInt_eq_two {x : Int64} (h₁ : 1 ≤ x.toInt) : (2 * x).toInt = 2 ↔ x.toInt ≤ 1 := by
  have hlt := Int64.toInt_lt x
  rw [Int64.toInt_mul, show (2 : Int64).toInt = 2 from rfl, Int.bmod_def]
  split_ifs <;> omega

theorem readsWanted_field (hparse : parseAddress f.address = .ok a)
    (hft : a.fileType.isTimerLike = true) (hsub : 0 < a.subElement) :
    ReadsWanted ε f a ↔ f.effectiveCount.toInt ≤ 1 := by
  have hcount := one_le_effectiveCount f
  have hfield := (valid_of_parseAddress hparse).field
  have hbit : a.bitNum < 0 := by
    by_contra hbit
    have hzero := hfield.subElement_of_bit (Int.not_lt.mp hbit)
    omega
  have hfloat := FileType.ne_float_of_isTimerLike hft
  have hitem : ¬(a.fileType.isTimerLike = true ∧ a.subElement = 0) := fun h => by omega
  have hbytes : elementBytes a f.effectiveCount = 2 * f.effectiveCount := by
    rw [elementBytes_effectiveCount, if_neg (by omega), if_neg hfloat, if_pos hft, if_pos hsub]
  have hwanted : ∀ dt : DataTable, wantedBytes dt f a = dt.read a 2 := by
    intro dt
    rw [wantedBytes, if_neg (by omega), if_pos hft]
  rw [← two_mul_toInt_eq_two hcount, ← hbytes]
  constructor
  · intro h
    by_contra hmany
    refine not_readsWanted hparse (by decide) hwanted (fun raw v hraw hv => ?_) h
    obtain ⟨type, hvalue⟩ := fileValue_words (ε := ε) (f := f) hbit hfloat hitem
      (elementBytes a f.effectiveCount).toInt raw
    rw [hvalue] at hv
    cases hv
    change (clip raw _).length ≠ 2
    rw [clip_of_length hraw]
    omega
  · intro htwo
    refine readsWanted_of_size hparse (n := 2) htwo (by decide) (by decide) hwanted
      fun raw hraw => ?_
    obtain ⟨type, hvalue⟩ := fileValue_words (ε := ε) (f := f) hbit hfloat hitem ((2 : ℕ) : ℤ) raw
    exact ⟨_, hvalue, clip_of_length hraw⟩

/-- **When `Read` returns all elements, or the one bit or word, of a point**: not for several
elements of a float file, and for fields only with a count of one. -/
theorem readsWanted_iff (hparse : parseAddress f.address = .ok a) (hf : Countable f a) :
    ReadsWanted ε f a ↔ (1 < f.effectiveCount.toInt → a.bitNum < 0 →
      a.fileType ≠ .float ∧ a.fileType.isTimerLike = false) := by
  cases hf with
  | bit h =>
    exact iff_of_true (readsWanted_bit hparse h) fun _ hbit => absurd h (Int.not_le.mpr hbit)
  | field hft hsub =>
    have hbit : a.bitNum < 0 := by
      by_contra hbit
      have hzero := (valid_of_parseAddress hparse).field.subElement_of_bit (Int.not_lt.mp hbit)
      omega
    rw [readsWanted_field hparse hft hsub, hft]
    refine ⟨fun hone hmany => absurd hone (Int.not_le.mpr hmany), fun h => Int.not_lt.mp ?_⟩
    exact fun hmany => Bool.false_ne_true (h hmany hbit).2.symm
  | elements hft hbit hsize =>
    by_cases hfloat : a.fileType = .float
    · rw [readsWanted_float hparse hbit hfloat hsize]
      refine ⟨fun hone hmany => absurd hone (Int.not_le.mpr hmany), fun h => Int.not_lt.mp ?_⟩
      exact fun hmany => (h hmany hbit).1 hfloat
    · refine iff_of_true (readsWanted_words hparse hbit hft hfloat hsize) fun _ _ => ⟨hfloat, ?_⟩
      revert hft
      cases a.fileType <;> decide

theorem readsWanted_three_integers :
    ReadsWanted Empty ⟨['N', '7', ':', '0'], 3⟩ ⟨.integer, 7, 0, 0, -1⟩ := by
  have hparse : parseAddress ['N', '7', ':', '0'] = .ok ⟨.integer, 7, 0, 0, -1⟩ := by
    decide +kernel
  have hf : Countable ⟨['N', '7', ':', '0'], 3⟩ ⟨.integer, 7, 0, 0, -1⟩ :=
    .elements rfl (by decide) (by decide)
  exact (readsWanted_iff hparse hf).mpr fun _ _ => by decide

/-- A table with the floats 1 and 2. -/
def floatTable : DataTable :=
  Function.update (fun _ => none) 8 (some ⟨.float, [0x0000, 0x3F80, 0x0000, 0x4000]⟩)

/-- Of the two elements of `F8:0` only the first is returned. -/
theorem not_readsWanted_two_floats :
    parseAddress ['F', '8', ':', '0'] = .ok ⟨.float, 8, 0, 0, -1⟩ ∧
      Countable ⟨['F', '8', ':', '0'], 2⟩ ⟨.float, 8, 0, 0, -1⟩ ∧
      ¬ReadsWanted Empty ⟨['F', '8', ':', '0'], 2⟩ ⟨.float, 8, 0, 0, -1⟩ := by
  refine ⟨by decide +kernel, .elements rfl (by decide) (by decide), fun h => ?_⟩
  obtain ⟨v, hv, hraw⟩ := h ⟨1, floatTable⟩ [0x00, 0x00, 0x80, 0x3F, 0x00, 0x00, 0x00, 0x40]
    (by decide +kernel)
  have hread : (runOn (ε := Empty) DataTable.executor
      (read [.clusterable ⟨['F', '8', ':', '0'], 2⟩]) ⟨1, floatTable⟩).1 =
        .ok [⟨some (.clusterable ⟨['F', '8', ':', '0'], 2⟩), [0x00, 0x00, 0x80, 0x3F], .float32,
          .littleEndian⟩] := by
    rfl
  obtain rfl := (List.cons.inj (Except.ok.inj (hread.symm.trans hv))).1
  revert hraw
  decide

end GoIndustrial.Pccc
