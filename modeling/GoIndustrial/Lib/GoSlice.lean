import GoIndustrial.Lib.BitPacking
import GoIndustrial.Lib.LittleEndian

/-!
# Byte slices with bounds checks

Go's operations on byte slices: indexing, slicing, words and packed bits at an offset.
Each of them panics outside the slice; a panic is an outcome of its own (`Fault.panic`), next to the
error values that a function returns. The capacity of a slice is taken to be its length.

## Main results

* `GoSlice.readWords_eq`, `GoSlice.readBits_eq` : the words and bits read from inside a slice.
* `GoSlice.putWords_append`, `GoSlice.setBitsAt_append`, `GoSlice.putFields_replicate` : filling the
  zeroed rest of a buffer.
-/

/-- Why a call returns no value: it panicked, or it returned an error. -/
inductive Fault (ε : Type)
  | panic
  | error (e : ε)
  deriving DecidableEq, Repr

namespace GoSlice

open BitPacking

variable {ε : Type}

/-! ### Reading -/

/-- `buf[i]`. -/
def index (buf : List UInt8) (i : ℕ) : Except (Fault ε) UInt8 :=
  if i < buf.length then .ok (buf.getD i 0) else .error .panic

/-- `buf[lo:hi]`. -/
def slice (buf : List UInt8) (lo hi : ℕ) : Except (Fault ε) (List UInt8) :=
  if lo ≤ hi ∧ hi ≤ buf.length then .ok ((buf.take hi).drop lo) else .error .panic

/-- `binary.BigEndian.Uint16(buf[i:i+2])`. -/
def uint16At (buf : List UInt8) (i : ℕ) : Except (Fault ε) UInt16 :=
  if i + 2 ≤ buf.length then .ok (uint16 (buf.getD i 0) (buf.getD (i + 1) 0)) else .error .panic

/-- `buf[lo:]`. -/
def sliceFrom (buf : List UInt8) (lo : ℕ) : Except (Fault ε) (List UInt8) :=
  if lo ≤ buf.length then .ok (buf.drop lo) else .error .panic

/-- `binary.LittleEndian.Uint16(buf[i:i+2])`. -/
def uint16LEAt (buf : List UInt8) (i : ℕ) : Except (Fault ε) UInt16 :=
  if i + 2 ≤ buf.length then .ok (LittleEndian.uint16 ((buf.drop i).take 2)) else .error .panic

/-- `binary.LittleEndian.Uint32(buf[i:i+4])`. -/
def uint32LEAt (buf : List UInt8) (i : ℕ) : Except (Fault ε) UInt32 :=
  if i + 4 ≤ buf.length then .ok (LittleEndian.uint32 ((buf.drop i).take 4)) else .error .panic

/-- The `quantity` words from offset `off` on, one `uint16At` after the other. -/
def readWords (buf : List UInt8) (off quantity : ℕ) : Except (Fault ε) (List UInt16) :=
  (List.range quantity).mapM fun i => uint16At buf (off + i * 2)

/-- The `quantity` bits from byte `off` on, each taken from its byte by `test`. -/
def readBits (test : UInt8 → ℕ → Bool) (buf : List UInt8) (off quantity : ℕ) :
    Except (Fault ε) (List Bool) :=
  (List.range quantity).mapM fun i => do
    let b ← index buf (off + i / 8)
    return test b (i % 8)

theorem mapM_ok {α β : Type} {f : α → Except (Fault ε) β} {g : α → β} {l : List α}
    (h : ∀ a ∈ l, f a = .ok (g a)) : l.mapM f = .ok (l.map g) := by
  induction l with
  | nil => rfl
  | cons a l ih =>
    rw [List.mapM_cons, h a List.mem_cons_self, ih fun b hb => h b (List.mem_cons_of_mem _ hb)]
    rfl

/-- A loop in which nothing but a panic can go wrong panics if one of its rounds does. -/
theorem mapM_panic {α β : Type} {f : α → Except (Fault ε) β} {l : List α}
    (h : ∀ a ∈ l, (∃ b, f a = .ok b) ∨ f a = .error .panic)
    (hex : ∃ a ∈ l, f a = .error .panic) : l.mapM f = .error .panic := by
  induction l with
  | nil =>
    obtain ⟨a, ha, -⟩ := hex
    exact absurd ha List.not_mem_nil
  | cons a l ih =>
    rw [List.mapM_cons]
    rcases h a List.mem_cons_self with ⟨b, hb⟩ | hpanic
    · obtain ⟨c, hc, hpanic⟩ := hex
      rcases List.mem_cons.mp hc with rfl | hc
      · rw [hpanic]
        rfl
      · rw [hb, ih (fun d hd => h d (List.mem_cons_of_mem _ hd)) ⟨c, hc, hpanic⟩]
        rfl
    · rw [hpanic]
      rfl

theorem index_of_lt {buf : List UInt8} {i : ℕ} (h : i < buf.length) :
    index (ε := ε) buf i = .ok (buf.getD i 0) := if_pos h

theorem uint16At_of_le {buf : List UInt8} {i : ℕ} (h : i + 2 ≤ buf.length) :
    uint16At (ε := ε) buf i = .ok (uint16 (buf.getD i 0) (buf.getD (i + 1) 0)) := if_pos h

theorem uint32LEAt_of_le {buf : List UInt8} {i : ℕ} (h : i + 4 ≤ buf.length) :
    uint32LEAt (ε := ε) buf i = .ok (LittleEndian.uint32 ((buf.drop i).take 4)) := if_pos h

theorem index_append (pre : List UInt8) (b : UInt8) (rest : List UInt8) :
    index (ε := ε) (pre ++ b :: rest) pre.length = .ok b := by
  rw [index_of_lt (by simp)]
  simp [List.getD_eq_getElem?_getD]

/-- A word is read back from where it was written. -/
theorem uint16At_append (pre : List UInt8) (x : UInt16) (rest : List UInt8) :
    uint16At (ε := ε) (pre ++ (putUint16 x ++ rest)) pre.length = .ok x := by
  rw [uint16At_of_le (by simp)]
  simp [List.getD_eq_getElem?_getD, putUint16]

/-- A little-endian word is read back from where it was written. -/
theorem uint16LEAt_append {i : ℕ} (pre : List UInt8) (x : UInt16) (rest : List UInt8)
    (hi : i = pre.length) :
    uint16LEAt (ε := ε) (pre ++ (LittleEndian.putUint16 x ++ rest)) i = .ok x := by
  subst hi
  rw [uint16LEAt, if_pos (by simp), List.drop_left,
    List.take_left' (LittleEndian.length_putUint16 x), LittleEndian.uint16_putUint16]

theorem uint32LEAt_append {i : ℕ} (pre : List UInt8) (x : UInt32) (rest : List UInt8)
    (hi : i = pre.length) :
    uint32LEAt (ε := ε) (pre ++ (LittleEndian.putUint32 x ++ rest)) i = .ok x := by
  subst hi
  rw [uint32LEAt_of_le (by simp), List.drop_left,
    List.take_left' (LittleEndian.length_putUint32 x), LittleEndian.uint32_putUint32]

theorem getD_toWords (buf : List UInt8) (i : ℕ) (h : i * 2 + 2 ≤ buf.length) :
    (toWords buf).getD i 0 = uint16 (buf.getD (i * 2) 0) (buf.getD (i * 2 + 1) 0) := by
  induction i generalizing buf with
  | zero =>
    match buf, h with
    | hi :: lo :: rest, _ => rfl
  | succ i ih =>
    match buf, h with
    | hi :: lo :: rest, h =>
      have := ih rest (by simp only [List.length_cons] at h; omega)
      simpa [toWords, Nat.succ_mul] using this

theorem length_toWords (buf : List UInt8) : (toWords buf).length = buf.length / 2 := by
  induction buf using toWords.induct with
  | case1 hi lo rest ih =>
    simp only [toWords, List.length_cons, ih]
    omega
  | case2 buf h =>
    rcases buf with _ | ⟨hi, _ | ⟨lo, rest⟩⟩
    · rfl
    · simp [toWords]
    · exact absurd rfl (h hi lo rest)

/-- Reading words behind `pre` gives the words of the bytes there. -/
theorem readWords_eq (pre buf : List UInt8) (quantity : ℕ) (h : buf.length = 2 * quantity) :
    readWords (ε := ε) (pre ++ buf) pre.length quantity = .ok (toWords buf) := by
  rw [readWords, mapM_ok (g := fun i => (toWords buf).getD i 0)]
  · refine congrArg _ (List.ext_getElem (by simp [length_toWords, h]) fun i h₁ h₂ => ?_)
    simp [List.getD_eq_getElem?_getD, h₂]
  · intro i hi
    have hlt := List.mem_range.mp hi
    rw [uint16At_of_le (by simp; omega), getD_toWords _ _ (by omega)]
    simp [List.getD_eq_getElem?_getD, List.getElem?_append_right, Nat.add_assoc]

/-- Reading bits behind `pre` gives the bits of the bytes there. -/
theorem readBits_eq {test : UInt8 → ℕ → Bool}
    (htest : ∀ buf i, test (List.getD buf (i / 8) 0) (i % 8) = testBit buf i)
    (pre buf : List UInt8) (quantity : ℕ) (h : quantity ≤ 8 * buf.length) :
    readBits (ε := ε) test (pre ++ buf) pre.length quantity =
      .ok ((List.range quantity).map (testBit buf)) := by
  refine mapM_ok fun i hi => ?_
  have hlt := List.mem_range.mp hi
  rw [index_of_lt (by simp; omega)]
  refine congrArg Except.ok (Eq.trans ?_ (htest buf i))
  simp [List.getD_eq_getElem?_getD, List.getElem?_append_right]

/-! ### Writing -/

/-- `buf[i] = b`. -/
def setAt (buf : List UInt8) (i : ℕ) (b : UInt8) : Except (Fault ε) (List UInt8) :=
  if i < buf.length then .ok (buf.set i b) else .error .panic

/-- `copy(buf[lo:hi], src)`. -/
def copyAt (buf : List UInt8) (lo hi : ℕ) (src : List UInt8) : Except (Fault ε) (List UInt8) :=
  if lo ≤ hi ∧ hi ≤ buf.length then
    .ok (buf.take lo ++ src.take (hi - lo) ++ buf.drop (lo + min (hi - lo) src.length))
  else .error .panic

/-- `binary.BigEndian.PutUint16(buf[i:i+2], x)`. -/
def putUint16At (buf : List UInt8) (i : ℕ) (x : UInt16) : Except (Fault ε) (List UInt8) :=
  if i + 2 ≤ buf.length then .ok (buf.take i ++ putUint16 x ++ buf.drop (i + 2)) else .error .panic

/-- `src` written at offset `i`, as by `binary.LittleEndian.PutUint16(buf[i:], x)`. -/
def putAt (buf : List UInt8) (i : ℕ) (src : List UInt8) : Except (Fault ε) (List UInt8) :=
  if i + src.length ≤ buf.length then .ok (buf.take i ++ src ++ buf.drop (i + src.length))
  else .error .panic

/-- Fields written at their offsets, one after the other. -/
def putFields (buf : List UInt8) : List (ℕ × List UInt8) → Except (Fault ε) (List UInt8)
  | [] => .ok buf
  | (i, src) :: fields => do
    let buf ← putAt buf i src
    putFields buf fields

/-- The words `ws`, the first of them at offset `i`. -/
def putWords (buf : List UInt8) : ℕ → List UInt16 → Except (Fault ε) (List UInt8)
  | _, [] => .ok buf
  | i, w :: ws => do
    let buf ← putUint16At buf i w
    putWords buf (i + 2) ws

/-- `buf[off + i/8] |= 1 << (i%8)` for the bits of `vs` that are set, the first of them being bit
`i`. -/
def setBitsAt (off : ℕ) (buf : List UInt8) : ℕ → List Bool → Except (Fault ε) (List UInt8)
  | _, [] => .ok buf
  | i, v :: vs =>
    if v then
      if off + i / 8 < buf.length then
        setBitsAt off (buf.modify (off + i / 8) fun b => b ||| (1 <<< UInt8.ofNat (i % 8)))
          (i + 1) vs
      else .error .panic
    else setBitsAt off buf (i + 1) vs

theorem setAt_replicate (pre : List UInt8) (n : ℕ) (b : UInt8) :
    setAt (ε := ε) (pre ++ List.replicate (n + 1) 0) pre.length b =
      .ok (pre ++ b :: List.replicate n 0) := by
  rw [setAt, if_pos (by simp), List.replicate_succ, List.set_append_right _ _ (Nat.le_refl _)]
  simp

theorem putUint16At_replicate (pre : List UInt8) (n : ℕ) (x : UInt16) :
    putUint16At (ε := ε) (pre ++ List.replicate (n + 2) 0) pre.length x =
      .ok (pre ++ (putUint16 x ++ List.replicate n 0)) := by
  rw [putUint16At, if_pos (by simp), List.take_left, List.drop_append]
  simp [List.append_assoc]

/-- Bytes written into the zeroed rest of a buffer. -/
theorem putAt_replicate {i n : ℕ} (pre src : List UInt8) (m : ℕ) (hi : i = pre.length)
    (hn : n = src.length + m) :
    putAt (ε := ε) (pre ++ List.replicate n 0) i src =
      .ok (pre ++ src ++ List.replicate m 0) := by
  subst hi hn
  rw [putAt, if_pos (by simp), List.take_left, List.drop_append]
  simp

/-- A copy that fills its target. -/
theorem copyAt_eq_putAt {i hi : ℕ} (buf src : List UInt8) (h : hi = i + src.length) :
    copyAt (ε := ε) buf i hi src = putAt buf i src := by
  subst h
  rw [copyAt, putAt, Nat.add_sub_cancel_left, List.take_length, Nat.min_self]
  exact if_congr (and_iff_right (Nat.le_add_right _ _)) rfl rfl

/-- The fields lie one behind the other from offset `i` on. -/
def Consecutive : ℕ → List (ℕ × List UInt8) → Prop
  | _, [] => True
  | i, (j, src) :: fields => j = i ∧ Consecutive (i + src.length) fields

/-- Consecutive fields fill the zeroed rest of a buffer. -/
theorem putFields_replicate {n : ℕ} (pre : List UInt8) (fields : List (ℕ × List UInt8)) (m : ℕ)
    (h : Consecutive pre.length fields) (hn : n = (fields.flatMap Prod.snd).length + m) :
    putFields (ε := ε) (pre ++ List.replicate n 0) fields =
      .ok (pre ++ fields.flatMap Prod.snd ++ List.replicate m 0) := by
  induction fields generalizing pre n with
  | nil =>
    obtain rfl : n = m := hn.trans (Nat.zero_add m)
    rw [List.flatMap_nil, List.append_nil]
    rfl
  | cons field fields ih =>
    obtain ⟨i, src⟩ := field
    obtain ⟨hi, h⟩ := h
    rw [List.flatMap_cons, List.length_append, Nat.add_assoc] at hn
    rw [← List.length_append] at h
    rw [putFields, putAt_replicate pre src _ hi hn]
    change putFields (pre ++ src ++ List.replicate _ 0) fields = _
    rw [ih (pre ++ src) h rfl, List.flatMap_cons, List.append_assoc pre src]

/-- Bytes copied into the zeroed rest of a buffer, which has room for them. -/
theorem copyAt_replicate {i hi n : ℕ} (pre src : List UInt8) (hpre : i = pre.length)
    (hhi : hi = pre.length + n) (hn : src.length ≤ n) :
    copyAt (ε := ε) (pre ++ List.replicate n 0) i hi src =
      .ok (pre ++ src ++ List.replicate (n - src.length) 0) := by
  subst hpre hhi
  have hcopied : min (pre.length + n - pre.length) src.length = src.length := by omega
  rw [copyAt, if_pos (by simp), List.take_left, List.take_of_length_le (by omega), hcopied,
    List.drop_append]
  simp

/-- Words written into a buffer with room for them behind `pre`. -/
theorem putWords_append (pre buf : List UInt8) (ws : List UInt16)
    (h : buf.length = 2 * ws.length) :
    putWords (ε := ε) (pre ++ buf) pre.length ws = .ok (pre ++ ofWords ws) := by
  induction ws generalizing pre buf with
  | nil =>
    obtain rfl : buf = [] := List.length_eq_zero_iff.mp h
    rfl
  | cons w ws ih =>
    rw [List.length_cons] at h
    have hput : putUint16At (ε := ε) (pre ++ buf) pre.length w =
        .ok ((pre ++ putUint16 w) ++ buf.drop 2) := by
      rw [putUint16At, if_pos (by simp; omega), List.take_left, List.drop_append]
      simp
    have hlen : (pre ++ putUint16 w).length = pre.length + 2 := by simp
    rw [putWords, hput]
    change putWords ((pre ++ putUint16 w) ++ buf.drop 2) (pre.length + 2) ws = _
    rw [← hlen, ih _ _ (by simp; omega), List.append_assoc]
    rfl

private theorem modify_append (pre buf : List UInt8) (k : ℕ) (f : UInt8 → UInt8) :
    (pre ++ buf).modify (pre.length + k) f = pre ++ buf.modify k f := by
  induction pre with
  | nil => simp
  | cons b pre ih => simp [Nat.succ_add, List.modify_succ_cons, ih]

/-- Bits set in a buffer with room for them behind `pre`. -/
theorem setBitsAt_append (pre buf : List UInt8) (i : ℕ) (vs : List Bool)
    (h : i + vs.length ≤ 8 * buf.length) :
    setBitsAt (ε := ε) pre.length (pre ++ buf) i vs = .ok (pre ++ setBits buf i vs) := by
  induction vs generalizing buf i with
  | nil => rfl
  | cons v vs ih =>
    rw [List.length_cons] at h
    cases v with
    | false => exact ih buf (i + 1) (by omega)
    | true =>
      have hmod : (pre ++ buf).modify (pre.length + i / 8)
          (fun b => b ||| (1 <<< UInt8.ofNat (i % 8))) = pre ++ setBit buf i :=
        modify_append _ _ _ _
      rw [setBitsAt, if_pos rfl, if_pos (by simp; omega), hmod, ih _ _ (by simp; omega)]
      rfl

end GoSlice
