import GoIndustrial.Pccc.DataTable

/-!
# Writes to one bit

A write to a bit address, whether the bit is given by its number or by a name, reads the word of the
bit, changes the bit by a mask and writes the word back. Alone on a data table it changes that bit
and nothing else.

## Main definitions

* `Pccc.DataTable.bit` : the bits of a table.
* `Pccc.BitWritten` : two tables that differ at most in one bit, and its value in the second.

## Main results

* `Pccc.runOn_writeBit` : what a bit write does to a table.
* `Pccc.writeAddress_bit` : the bit write of the client.
-/

namespace GoIndustrial.Pccc

open LittleEndian

/-! ### The bits of a word -/

/-- Bit `k` of a word. -/
def wordBit (w : UInt16) (k : ℕ) : Bool := w.toBitVec.getLsbD k

/-- A mask has the one bit that it is made for. -/
theorem toBitVec_mask {n : ℤ} (h₀ : 0 ≤ n) (h₁ : n ≤ 15) :
    (1 <<< UInt16.ofInt n : UInt16).toBitVec = BitVec.twoPow 16 n.toNat := by
  have hmask : ∀ m : Fin 16,
      (1 <<< UInt16.ofInt m.val : UInt16).toBitVec = BitVec.twoPow 16 m.val := by
    decide
  obtain ⟨m, rfl⟩ := Int.eq_ofNat_of_zero_le h₀
  exact hmask ⟨m, by omega⟩

/-- **Every bit of a masked word.** -/
theorem wordBit_maskBit {n : ℤ} (h₀ : 0 ≤ n) (h₁ : n ≤ 15) (w : UInt16) (on : Bool) (k : ℕ) :
    wordBit (maskBit w n on) k = if k = n.toNat then on else wordBit w k := by
  have hmask : (BitVec.twoPow 16 n.toNat).getLsbD k = decide (k = n.toNat) := by
    have hn : n.toNat < 16 := by omega
    rw [BitVec.getLsbD_twoPow, decide_eq_true hn, Bool.true_and]
    exact decide_eq_decide.mpr eq_comm
  rw [maskBit, wordBit, wordBit]
  cases on with
  | true =>
    rw [if_pos rfl, UInt16.toBitVec_or, toBitVec_mask h₀ h₁, BitVec.getLsbD_or, hmask]
    by_cases hk : k = n.toNat
    · rw [if_pos hk, decide_eq_true hk, Bool.or_true]
    · rw [if_neg hk, decide_eq_false hk, Bool.or_false]
  | false =>
    rw [if_neg Bool.false_ne_true, UInt16.toBitVec_and, UInt16.toBitVec_not,
      toBitVec_mask h₀ h₁, BitVec.getLsbD_and, BitVec.getLsbD_not, hmask]
    by_cases hk : k = n.toNat
    · rw [if_pos hk, decide_eq_true hk, Bool.not_true, Bool.and_false, Bool.and_false]
    · rw [if_neg hk, decide_eq_false hk, Bool.not_false, Bool.and_true]
      by_cases hlt : k < 16
      · rw [decide_eq_true hlt, Bool.and_true]
      · rw [BitVec.getLsbD_of_ge _ _ (Nat.le_of_not_lt hlt), Bool.false_and]

/-- A bit that is shifted down. -/
theorem shiftRight_and_one {n : ℤ} (h₀ : 0 ≤ n) (h₁ : n ≤ 15) (w : UInt16) :
    ((w >>> UInt16.ofInt n) &&& 1).toUInt8 = (wordBit w n.toNat).toUInt8 := by
  have hshift : (UInt16.ofInt n).toNat % 16 = n.toNat := by
    rw [UInt16.ofInt, UInt16.toNat_ofNat']
    omega
  have hbit : ((w >>> UInt16.ofInt n) &&& 1).toNat = (wordBit w n.toNat).toNat := by
    rw [UInt16.toNat_and, UInt16.toNat_shiftRight, hshift, UInt16.toNat_one, Nat.and_one_is_mod,
      Nat.shiftRight_eq_div_pow, ← Nat.toNat_testBit]
    rfl
  rw [← UInt8.toNat_inj, UInt16.toNat_toUInt8, hbit]
  cases wordBit w n.toNat <;> rfl

/-! ### The bits of a table -/

/-- Bit `k` of the word `i` of the file `n`. -/
def DataTable.bit (dt : DataTable) (n : UInt8) (i k : ℕ) : Option Bool :=
  (dt.word n i).map (wordBit · k)

/-- The table `dt'` is `dt` but for the addressed bit, which is `on`. -/
structure BitWritten (dt dt' : DataTable) (a : Address) (on : Bool) : Prop where
  fileTypes : ∀ n, (dt' n).map DataFile.fileType = (dt n).map DataFile.fileType
  bits : ∀ n i k, dt'.bit n i k =
    if n = .ofInt a.fileNumber ∧ i = a.wordIndex ∧ k = a.bitNum.toNat then some on
    else dt.bit n i k

variable {ε : Type} {a : Address} {dt dt' : DataTable}

theorem FieldOf.bitNum_le {ft : FileType} {i n : ℤ} (h : FieldOf ft i n) : n ≤ 15 := by
  cases h with
  | whole | word => decide
  | bit _ _ h => exact h

theorem FieldOf.subElement_of_bit {ft : FileType} {i n : ℤ} (h : FieldOf ft i n) (hn : 0 ≤ n) :
    i = 0 := by
  cases h with
  | whole | bit => rfl
  | word => omega

theorem DataTable.wordAt_eq_some {w : UInt16} (h : dt.wordAt a = some w) :
    dt.word (.ofInt a.fileNumber) a.wordIndex = some w := by
  obtain ⟨f, hf, hw⟩ := Option.bind_eq_some_iff.mp h
  rw [word, (fileAt_eq_some.mp hf).1]
  exact hw

/-- A word that is there can be written. -/
theorem DataTable.exists_write {w : UInt16} (h : dt.wordAt a = some w) (w' : UInt16) :
    ∃ dt', dt.write a (putUint16 w') = some dt' := by
  have hlen : (putUint16 w').length = 2 := length_putUint16 w'
  rw [← Option.isSome_iff_exists, DataTable.isSome_write (by rw [hlen]), hlen,
    DataTable.read_two, h]
  rfl

/-- A word written back with one bit masked. -/
theorem bitWritten_of_write (ha : a.Valid) (hbit : 0 ≤ a.bitNum) {w : UInt16} {on : Bool}
    (hw : dt.wordAt a = some w)
    (h : dt.write a (putUint16 (maskBit w a.bitNum on)) = some dt') : BitWritten dt dt' a on where
  fileTypes := DataTable.fileType_of_write h
  bits n i k := by
    have hwords : wordsOf (putUint16 (maskBit w a.bitNum on)) = [maskBit w a.bitNum on] :=
      wordsOf_bytesOf [maskBit w a.bitNum on]
    rw [DataTable.bit, DataTable.word_of_write h, hwords, List.length_singleton]
    by_cases hplace : n = .ofInt a.fileNumber ∧ i = a.wordIndex
    · obtain ⟨rfl, rfl⟩ := hplace
      rw [if_pos ⟨rfl, le_rfl, Nat.lt_succ_self _⟩, Nat.sub_self, DataTable.bit,
        DataTable.wordAt_eq_some hw]
      simp only [List.getElem?_cons_zero, Option.map_some, true_and,
        wordBit_maskBit hbit ha.field.bitNum_le]
      exact apply_ite some _ _ _
    · have hother : ¬(n = .ofInt a.fileNumber ∧ a.wordIndex ≤ i ∧ i < a.wordIndex + 1) :=
        fun h => hplace ⟨h.1, by omega⟩
      rw [if_neg hother, if_neg (fun h => hplace ⟨h.1, h.2.1⟩), DataTable.bit]

/-! ### Runs -/

theorem Address.Valid.wordAddr (ha : a.Valid) (hbit : 0 ≤ a.bitNum) : a.wordAddr.Valid where
  fileNumber := ha.fileNumber
  element := ha.element
  field := by
    have hfield := ha.field
    have hsub : a.subElement = 0 := hfield.subElement_of_bit hbit
    rw [Address.wordAddr, hsub]
    exact .whole

/-- **A bit write on a table**: it is refused without a change, or the word is written back with the
one bit masked. -/
theorem runOn_writeBit (ha : a.Valid) (hbit : 0 ≤ a.bitNum) (on : Bool) (l : Link DataTable) :
    (l.device.wordAt a = none ∧
      runOn (ε := ε) DataTable.executor (writeBit a on) l = (.error refused, l.next l.device)) ∨
    ∃ w dt', l.device.wordAt a = some w ∧
      l.device.write a (putUint16 (maskBit w a.bitNum on)) = some dt' ∧
      runOn (ε := ε) DataTable.executor (writeBit a on) l =
        (.ok (), (l.next l.device).next dt') := by
  have hread := runOn_rawRead (ε := ε) l (ha.wordAddr hbit) (by decide : (1 : ℤ) ≤ 2) (by decide)
  rw [show (2 : ℤ).toNat = 2 from rfl, DataTable.read_two,
    show l.device.wordAt a.wordAddr = l.device.wordAt a from rfl] at hread
  cases hw : l.device.wordAt a with
  | none =>
    rw [hw] at hread
    exact .inl ⟨rfl, runOn_bind_error _ _ hread⟩
  | some w =>
    rw [hw] at hread
    let buf := putUint16 (maskBit w a.bitNum on)
    have hlen : buf.length = 2 := length_putUint16 _
    obtain ⟨dt', hdt⟩ := DataTable.exists_write hw (maskBit w a.bitNum on)
    have hne : buf ≠ [] := List.cons_ne_nil _ _
    have hwrite := runOn_writeBytes (ε := ε) (l.next l.device) (ha.wordAddr hbit) hne (by omega)
    rw [show (l.next l.device).device.write a.wordAddr buf = l.device.write a buf from rfl,
      hdt] at hwrite
    refine .inr ⟨w, dt', rfl, hdt, ?_⟩
    rw [writeBit, runOn_bind_ok _ _ hread, length_putUint16, if_neg (by decide)]
    dsimp only
    rw [← putUint16_eq_shifts, List.take_of_length_le (length_putUint16 w).le, uint16_putUint16]
    exact hwrite

/-- A write to a bit address is a bit write. -/
theorem writeAddress_eq_writeBit {conv : FloatConv} {addr : List Char}
    (hparse : parseAddress addr = .ok a) (hbit : 0 ≤ a.bitNum) {v : GoValue} :
    (writeAddress conv addr v : Program ε Unit) =
      match boolOf v with
      | none => throw (.notBool addr v)
      | some on => writeBit a on := by
  rw [writeAddress, hparse]
  refine (if_pos hbit).trans ?_
  cases boolOf v <;> rfl

/-- A read of a bit address whose word is there, whatever the count. -/
theorem runOn_readFile_bit {f : File} (hparse : parseAddress f.address = .ok a)
    (hbit : 0 ≤ a.bitNum) {l : Link DataTable} {w : UInt16}
    (hw : l.device.read a 2 = some (putUint16 w)) :
    runOn (ε := ε) DataTable.executor (readFile f) l =
      (.ok ⟨none, [(wordBit w a.bitNum.toNat).toUInt8], .bool, .littleEndian⟩,
        l.next l.device) := by
  have hsize : elementBytes a f.effectiveCount = 2 := if_pos hbit
  rw [runOn_readFile l hparse (by rw [hsize]; decide) (by rw [hsize]; decide), hsize,
    show (2 : Int64).toInt.toNat = 2 from rfl, hw]
  dsimp only
  rw [fileValue, if_pos hbit, length_putUint16, if_neg (by decide),
    List.take_of_length_le (length_putUint16 w).le, uint16_putUint16,
    shiftRight_and_one hbit (valid_of_parseAddress hparse).field.bitNum_le]

/-- **A bit write of the client changes exactly one bit.** It completes if the addressed word is
there and the value can be taken as a truth value. When it completes, the bit has that value, all
other bits are what they were, and a read of the same address returns the value. -/
theorem writeAddress_bit (conv : FloatConv) {addr : List Char} {a : Address}
    (hparse : parseAddress addr = .ok a) (hbit : 0 ≤ a.bitNum) (v : GoValue)
    (l : Link DataTable) :
    ((l.device.wordAt a).isSome → (boolOf v).isSome →
      ∃ l', runOn (ε := ε) DataTable.executor (writeAddress conv addr v) l = (.ok (), l')) ∧
    ∀ l', runOn (ε := ε) DataTable.executor (writeAddress conv addr v) l = (.ok (), l') →
      ∃ on, boolOf v = some on ∧ BitWritten l.device l'.device a on ∧
        (runOn (ε := ε) DataTable.executor (readAddress addr) l').1 =
          .ok ⟨none, [on.toUInt8], .bool, .littleEndian⟩ := by
  have ha := valid_of_parseAddress hparse
  rw [writeAddress_eq_writeBit hparse hbit]
  cases boolOf v with
  | none => exact ⟨fun _ h => (Bool.false_ne_true h).elim, fun l' h => by cases h⟩
  | some on =>
    rcases runOn_writeBit (ε := ε) ha hbit on l with ⟨hw, hrun⟩ | ⟨w, dt', hw, hdt, hrun⟩
    · rw [hw]
      refine ⟨fun h => (Bool.false_ne_true h).elim, fun l' h => ?_⟩
      have hclash := hrun.symm.trans h
      cases hclash
    · refine ⟨fun _ _ => ⟨_, hrun⟩, fun l' h => ?_⟩
      obtain rfl : (l.next l.device).next dt' = l' := (Prod.mk.inj (hrun.symm.trans h)).2
      have hback := runOn_readFile_bit (ε := ε) (f := ⟨addr, 0⟩) hparse hbit
        (l := (l.next l.device).next dt') (DataTable.read_of_write hdt)
      refine ⟨on, rfl, bitWritten_of_write ha hbit hw hdt, ?_⟩
      rw [readAddress, hback, wordBit_maskBit hbit ha.field.bitNum_le, if_pos rfl]

/-- A table with one timer, whose preset is 100. -/
def timerTable : DataTable := Function.update (fun _ => none) 4 (some ⟨.timer, [0x8000, 100, 7]⟩)

theorem writeAddress_bit_timerDone :
    ∃ l', runOn (ε := Empty) DataTable.executor
        (writeAddress ⟨fun _ => 0, fun _ => 0⟩ ['T', '4', ':', '0', '.', 'D', 'N'] (.bool true))
        ⟨1, timerTable⟩ = (.ok (), l') ∧
      BitWritten timerTable l'.device ⟨.timer, 4, 0, 0, 13⟩ true := by
  have hparse : parseAddress ['T', '4', ':', '0', '.', 'D', 'N'] =
      .ok ⟨.timer, 4, 0, 0, 13⟩ := by decide +kernel
  obtain ⟨hcomplete, hwritten⟩ := writeAddress_bit (ε := Empty) ⟨fun _ => 0, fun _ => 0⟩ hparse
    (by decide) (.bool true) ⟨1, timerTable⟩
  obtain ⟨l', hrun⟩ := hcomplete rfl rfl
  obtain ⟨on, hon, hbits, -⟩ := hwritten l' hrun
  obtain rfl : true = on := Option.some.inj hon
  exact ⟨l', hrun, hbits⟩

end GoIndustrial.Pccc
