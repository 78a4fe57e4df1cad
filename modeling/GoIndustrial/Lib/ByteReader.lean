import GoIndustrial.Lib.BitPacking
import GoIndustrial.Lib.LittleEndian

/-!
# Reading from a byte string

Go's `bytes.Reader` with `binary.Read` and `io.ReadFull` on it: a reader has the bytes that remain
and hands out fields from the front. `io.ReadFull` needs all the bytes it is asked for; the reader's
own `Read` is content with fewer, and fails only when nothing remains at all.

A decoder is shown to undo an encoder field by field: `Consumes p bs a` says that `p` takes exactly
the bytes `bs`, whatever follows them, and returns `a`.

## Main definitions

* `ByteReader.Reader` : computations on the bytes that remain.
* `ByteReader.readFull`, `ByteReader.read` : the two ways to read.
* `ByteReader.Consumes` : what is read back.
* `ByteReader.Takes` : how many bytes are read.

## Main results

* `ByteReader.Consumes.bind` : one field after the other.
* `ByteReader.consumes_readMany` : a loop of fields.
* `ByteReader.bind_eq_ok`, `ByteReader.field_eq_ok`, `ByteReader.readMany_eq_ok` : what was read
  when a read succeeds.
-/

namespace ByteReader

open LittleEndian

/-- Why bytes are not read, or not accepted. -/
inductive ReadErr
  | eof
  | unexpectedEOF
  | refused (text : String)
  deriving DecidableEq, Repr

/-- A computation on the bytes that remain. -/
abbrev Reader := StateT (List UInt8) (Except ReadErr)

/-- `io.ReadFull` into `n` bytes. -/
def readFull (n : ℕ) : Reader (List UInt8) := fun bs =>
  if n ≤ bs.length then .ok (bs.take n, bs.drop n)
  else if bs = [] then .error .eof
  else .error .unexpectedEOF

/-- `r.Read` into `n` zeroed bytes. -/
def read (n : ℕ) : Reader (List UInt8) := fun bs =>
  if bs = [] then .error .eof
  else .ok (bs.take n ++ List.replicate (n - bs.length) 0, bs.drop n)

/-- `r.Len()`. -/
def remaining : Reader ℕ := fun bs => .ok (bs.length, bs)

/-- `binary.Read` of one byte. -/
def uint8 : Reader UInt8 := do
  let bs ← readFull 1
  return bs.getD 0 0

/-- `binary.Read` of a `uint16`. -/
def uint16 : Reader UInt16 := do
  let bs ← readFull 2
  return LittleEndian.uint16 bs

/-- `binary.Read` of a big-endian `uint16`. -/
def uint16BE : Reader UInt16 := do
  let bs ← readFull 2
  return BitPacking.uint16 (bs.getD 0 0) (bs.getD 1 0)

/-- `binary.Read` of a `uint32`. -/
def uint32 : Reader UInt32 := do
  let bs ← readFull 4
  return LittleEndian.uint32 bs

/-- `binary.Read` of an array of `n` bytes. -/
def readArray (n : ℕ) : Reader (Vector UInt8 n) := do
  let bs ← readFull n
  return Vector.ofFn fun i => bs.getD i 0

/-- All the bytes that remain, read with `r.Read` if there are any. -/
def rest : Reader (List UInt8) := do
  let n ← remaining
  if 0 < n then read n else return []

/-- A loop of `n` reads. -/
def readMany {α : Type} (p : Reader α) : ℕ → Reader (List α)
  | 0 => return []
  | n + 1 => do
    let a ← p
    let as ← readMany p n
    return a :: as

/-- A computation that reads nothing. -/
def lift {α : Type} (x : Except ReadErr α) : Reader α := fun bs => x.map fun a => (a, bs)

/-- The value read from the whole of `bs`. -/
def decode {α : Type} (p : Reader α) (bs : List UInt8) : Except ReadErr α := (p bs).map Prod.fst

/-! ### What is read back -/

section
variable {α β : Type}

/-- `p` takes the bytes `bs` and returns `a`, whatever follows. -/
def Consumes (p : Reader α) (bs : List UInt8) (a : α) : Prop :=
  ∀ tail, p (bs ++ tail) = .ok (a, tail)

variable {p : Reader α} {f : α → Reader β} {bs cs : List UInt8} {a : α} {b : β}

/-- What follows a read sees the bytes that it leaves. -/
theorem bind_apply {tail : List UInt8} (h : p bs = .ok (a, tail)) :
    (p >>= f) bs = f a tail := by
  change p bs >>= (fun x => f x.1 x.2) = _
  rw [h]
  rfl

theorem consumes_pure (a : α) : Consumes (pure a) [] a := fun _ => rfl

theorem Consumes.bind_apply (h : Consumes p bs a) (tail : List UInt8) :
    (p >>= f) (bs ++ tail) = f a tail :=
  ByteReader.bind_apply (h tail)

theorem Consumes.bind (h : Consumes p bs a) (hf : Consumes (f a) cs b) :
    Consumes (p >>= f) (bs ++ cs) b := by
  intro tail
  rw [List.append_assoc, h.bind_apply, hf tail]

/-- A field, and a computation of its value. -/
theorem Consumes.map (h : Consumes p bs a) (f : α → β) :
    Consumes (p >>= fun x => pure (f x)) bs (f a) := by
  intro tail
  rw [h.bind_apply]
  rfl

theorem Consumes.decode_append (h : Consumes p bs a) (tail : List UInt8) :
    decode p (bs ++ tail) = .ok a := by
  rw [decode, h tail]
  rfl

theorem Consumes.decode (h : Consumes p bs a) : decode p bs = .ok a := by
  simpa using h.decode_append []

theorem consumes_readFull (bs : List UInt8) : Consumes (readFull bs.length) bs bs := by
  intro tail
  rw [readFull, if_pos (by simp), List.take_left, List.drop_left]

theorem consumes_uint8 (b : UInt8) : Consumes uint8 [b] b :=
  (consumes_readFull [b]).map fun bs => bs.getD 0 0

theorem uint8_bind_cons (f : UInt8 → Reader β) (b : UInt8) (bs : List UInt8) :
    (uint8 >>= f) (b :: bs) = f b bs :=
  (consumes_uint8 b).bind_apply bs

theorem consumes_uint16 (x : UInt16) : Consumes uint16 (putUint16 x) x := by
  have h := (consumes_readFull (putUint16 x)).map LittleEndian.uint16
  rwa [uint16_putUint16] at h

theorem consumes_uint32 (x : UInt32) : Consumes uint32 (putUint32 x) x := by
  have h := (consumes_readFull (putUint32 x)).map LittleEndian.uint32
  rwa [uint32_putUint32] at h

theorem consumes_readArray {n : ℕ} (v : Vector UInt8 n) : Consumes (readArray n) v.toList v := by
  have h := (consumes_readFull v.toList).map fun bs => Vector.ofFn fun i : Fin n => bs.getD i 0
  have hv : (Vector.ofFn fun i : Fin n => v.toList.getD i 0) = v := by
    ext i hi
    simp [List.getD_eq_getElem?_getD]
  rw [hv, Vector.length_toList] at h
  exact h

/-- A loop of fields, each of which is read back from its encoding as the value `v`. -/
theorem consumes_readMany_map {γ : Type} {encode : γ → List UInt8} {v : γ → α} {xs : List γ}
    (h : ∀ x ∈ xs, Consumes p (encode x) (v x)) :
    Consumes (readMany p xs.length) (xs.flatMap encode) (xs.map v) := by
  induction xs with
  | nil => exact consumes_pure []
  | cons x xs ih =>
    have htail := ih fun y hy => h y (List.mem_cons_of_mem _ hy)
    rw [List.flatMap_cons, List.map_cons]
    exact (h x List.mem_cons_self).bind (htail.map (v x :: ·))

/-- A loop of fields, each of which is read back from its encoding. -/
theorem consumes_readMany {encode : α → List UInt8} {as : List α}
    (h : ∀ a ∈ as, Consumes p (encode a) a) :
    Consumes (readMany p as.length) (as.flatMap encode) as := by
  have hmap := consumes_readMany_map (v := id) h
  rwa [List.map_id] at hmap

/-- A `Read` that finds all the bytes it is asked for. -/
theorem read_of_le {n : ℕ} (h : bs ≠ []) (hn : n ≤ bs.length) :
    read n bs = .ok (bs.take n, bs.drop n) := by
  rw [read, if_neg h, Nat.sub_eq_zero_of_le hn, List.replicate_zero, List.append_nil]

theorem read_append (bs tail : List UInt8) (h : bs ++ tail ≠ []) :
    read bs.length (bs ++ tail) = .ok (bs, tail) := by
  rw [read_of_le h (by simp), List.take_left, List.drop_left]

@[simp] theorem rest_apply (bs : List UInt8) : rest bs = .ok (bs, []) := by
  match bs with
  | [] => rfl
  | b :: bs =>
    have h := read_append (b :: bs) [] (by simp)
    rw [List.append_nil] at h
    exact h

/-! ### How many bytes are read -/

/-- `p` takes `n` bytes whenever there are as many. -/
def Takes (n : ℕ) (p : Reader α) : Prop := ∀ bs, n ≤ bs.length → ∃ a, p bs = .ok (a, bs.drop n)

theorem takes_pure (a : α) : Takes 0 (pure a) := fun _ _ => ⟨a, rfl⟩

theorem Takes.bind {n m : ℕ} (h : Takes n p) (hf : ∀ a, Takes m (f a)) :
    Takes (n + m) (p >>= f) := by
  intro bs hlen
  obtain ⟨a, ha⟩ := h bs (by omega)
  obtain ⟨b, hb⟩ := hf a (bs.drop n) (by rw [List.length_drop]; omega)
  rw [List.drop_drop] at hb
  exact ⟨b, (ByteReader.bind_apply ha).trans hb⟩

theorem takes_readFull (n : ℕ) : Takes n (readFull n) := fun _ hlen => ⟨_, if_pos hlen⟩

theorem takes_uint8 : Takes 1 uint8 := (takes_readFull 1).bind fun _ => takes_pure _

theorem takes_uint16 : Takes 2 uint16 := (takes_readFull 2).bind fun _ => takes_pure _

theorem takes_uint32 : Takes 4 uint32 := (takes_readFull 4).bind fun _ => takes_pure _

theorem takes_readArray (n : ℕ) : Takes n (readArray n) :=
  (takes_readFull n).bind fun _ => takes_pure _

/-! ### What was read -/

theorem bind_eq_ok {rest : List UInt8} :
    (p >>= f) bs = .ok (b, rest) ↔ ∃ a mid, p bs = .ok (a, mid) ∧ f a mid = .ok (b, rest) := by
  change p bs >>= (fun x => f x.1 x.2) = _ ↔ _
  cases p bs with
  | error e => simp [bind, Except.bind]
  | ok x =>
    obtain ⟨a, mid⟩ := x
    simp [bind, Except.bind]

theorem pure_eq_ok {rest : List UInt8} {a' : α} :
    (pure a : Reader α) bs = .ok (a', rest) ↔ a = a' ∧ bs = rest := by
  change Except.ok (a, bs) = .ok (a', rest) ↔ _
  simp

theorem lift_error_ne_ok {e : ReadErr} {x : α × List UInt8} :
    lift (.error e) bs ≠ .ok x := nofun

/-- The bytes that were read are those in front of the others. -/
theorem readFull_eq_ok {n : ℕ} {out rest : List UInt8} :
    readFull n bs = .ok (out, rest) ↔ out.length = n ∧ bs = out ++ rest := by
  constructor
  · intro h
    rw [readFull] at h
    split_ifs at h with hn
    obtain ⟨rfl, rfl⟩ := Prod.mk.inj (Except.ok.inj h)
    exact ⟨List.length_take_of_le hn, (List.take_append_drop n bs).symm⟩
  · rintro ⟨rfl, rfl⟩
    exact consumes_readFull out rest

theorem length_of_read {n : ℕ} {out rest : List UInt8} (h : read n bs = .ok (out, rest)) :
    out.length = n := by
  rw [read] at h
  split_ifs at h
  obtain ⟨rfl, -⟩ := Prod.mk.inj (Except.ok.inj h)
  rw [List.length_append, List.length_take, List.length_replicate]
  omega

/-- A field of `n` bytes that `encode` writes and `value` reads. -/
theorem field_eq_ok {n : ℕ} {value : List UInt8 → α} {encode : α → List UInt8}
    {rest : List UInt8} (hlen : ∀ x, (encode x).length = n) (hvalue : ∀ x, value (encode x) = x)
    (hencode : ∀ out, out.length = n → encode (value out) = out) :
    (readFull n >>= fun out => pure (value out)) bs = .ok (a, rest) ↔ bs = encode a ++ rest := by
  constructor
  · intro h
    obtain ⟨out, mid, hread, hout⟩ := bind_eq_ok.mp h
    obtain ⟨rfl, rfl⟩ := pure_eq_ok.mp hout
    obtain ⟨hout, rfl⟩ := readFull_eq_ok.mp hread
    rw [hencode out hout]
  · rintro rfl
    have h := (consumes_readFull (encode a)).map value rest
    rwa [hlen, hvalue] at h

theorem uint8_eq_ok {x : UInt8} {rest : List UInt8} :
    uint8 bs = .ok (x, rest) ↔ bs = x :: rest := by
  refine @field_eq_ok _ _ _ 1 (fun out => out.getD 0 0) (fun y => [y]) _ (fun _ => rfl)
    (fun _ => rfl) fun out hout => ?_
  obtain ⟨y, rfl⟩ := List.length_eq_one_iff.mp hout
  rfl

theorem uint16_eq_ok {x : UInt16} {rest : List UInt8} :
    uint16 bs = .ok (x, rest) ↔ bs = putUint16 x ++ rest :=
  field_eq_ok length_putUint16 uint16_putUint16 fun _ => putUint16_uint16

theorem uint16BE_eq_ok {x : UInt16} {rest : List UInt8} :
    uint16BE bs = .ok (x, rest) ↔ bs = BitPacking.putUint16 x ++ rest := by
  refine field_eq_ok (fun _ => rfl) (fun y => ?_) fun out hout => ?_
  · simp [BitPacking.putUint16]
  · obtain ⟨hi, lo, rfl⟩ := List.length_eq_two.mp hout
    exact BitPacking.putUint16_uint16 hi lo

theorem uint32_eq_ok {x : UInt32} {rest : List UInt8} :
    uint32 bs = .ok (x, rest) ↔ bs = putUint32 x ++ rest :=
  field_eq_ok length_putUint32 uint32_putUint32 fun _ => putUint32_uint32

theorem readArray_eq_ok {n : ℕ} {v : Vector UInt8 n} {rest : List UInt8} :
    readArray n bs = .ok (v, rest) ↔ bs = v.toList ++ rest := by
  refine field_eq_ok (fun w => w.length_toList) (fun w => ?_) fun out hout => ?_
  · ext i hi
    simp [List.getD_eq_getElem?_getD]
  · apply List.ext_getElem
    · simp [hout]
    · intro i hi hi'
      simp [hi']

/-- A loop of fields, each of which is the encoding of a value that fulfils `P`. -/
theorem readMany_eq_ok {encode : α → List UInt8} {P : α → Prop}
    (hp : ∀ {bs a rest}, p bs = .ok (a, rest) ↔ P a ∧ bs = encode a ++ rest) {n : ℕ}
    {as : List α} {rest : List UInt8} :
    readMany p n bs = .ok (as, rest) ↔
      as.length = n ∧ (∀ a ∈ as, P a) ∧ bs = as.flatMap encode ++ rest := by
  induction n generalizing bs as rest with
  | zero =>
    rw [readMany, pure_eq_ok, List.length_eq_zero_iff]
    constructor
    · rintro ⟨rfl, rfl⟩
      simp
    · rintro ⟨rfl, -, h⟩
      exact ⟨rfl, h⟩
  | succ n ih =>
    rw [readMany, bind_eq_ok]
    simp only [hp, bind_eq_ok, ih, pure_eq_ok]
    constructor
    · rintro ⟨a, mid, ⟨ha, rfl⟩, as', _, ⟨rfl, has, rfl⟩, rfl, rfl⟩
      exact ⟨rfl, List.forall_mem_cons.mpr ⟨ha, has⟩, by simp⟩
    · rintro ⟨hlen, has, rfl⟩
      obtain ⟨a, as, rfl⟩ := List.exists_cons_of_length_eq_add_one hlen
      obtain ⟨ha, has⟩ := List.forall_mem_cons.mp has
      exact ⟨a, _, ⟨ha, by simp⟩, as, rest, ⟨Nat.succ.inj hlen, has, rfl⟩, rfl, rfl⟩

theorem readMany_add (p : Reader α) (m k : ℕ) : readMany p (m + k) = do
    let as ← readMany p m
    let bs ← readMany p k
    return as ++ bs := by
  induction m with
  | zero => simp only [Nat.zero_add, readMany, pure_bind, List.nil_append, bind_pure]
  | succ m ih =>
    simp only [Nat.succ_add, readMany, ih, bind_assoc, pure_bind, List.cons_append]

/-- What a longer loop reads begins with what a shorter one reads. -/
theorem Consumes.readMany_add {m k : ℕ} {as vs : List α} {tail rest : List UInt8}
    (h : Consumes (readMany p m) bs as) (hread : readMany p (m + k) (bs ++ tail) = .ok (vs, rest)) :
    ∃ ws, vs = as ++ ws := by
  rw [ByteReader.readMany_add, h.bind_apply] at hread
  obtain ⟨ws, mid, -, hread⟩ := bind_eq_ok.mp hread
  exact ⟨ws, (pure_eq_ok.mp hread).1.symm⟩

theorem length_of_readMany {n : ℕ} {vs : List α} {rest : List UInt8}
    (h : readMany p n bs = .ok (vs, rest)) : vs.length = n := by
  induction n generalizing bs vs rest with
  | zero =>
    obtain ⟨rfl, -⟩ := pure_eq_ok.mp h
    rfl
  | succ n ih =>
    obtain ⟨a, mid, -, h⟩ := bind_eq_ok.mp h
    obtain ⟨as, mid', has, h⟩ := bind_eq_ok.mp h
    obtain ⟨rfl, -⟩ := pure_eq_ok.mp h
    rw [List.length_cons, ih has]

theorem decode_eq_ok : decode p bs = .ok a ↔ ∃ rest, p bs = .ok (a, rest) := by
  rw [decode]
  cases p bs with
  | error e => simp [Except.map]
  | ok x =>
    obtain ⟨b, rest⟩ := x
    simp [Except.map]

end

/-! ### Items with further bytes

A loop reads the fields at the beginning of each item, and does not know of further bytes behind
them. -/

section
variable {α γ : Type} {p : Reader α} {core further : γ → List UInt8} {v : γ → α}

/-- If only the last item has further bytes, all items are read. -/
theorem readMany_of_further {xs : List γ} (hcore : ∀ x ∈ xs, Consumes p (core x) (v x))
    (hlast : ∀ x ∈ xs.dropLast, further x = []) :
    ∃ rest, readMany p xs.length (xs.flatMap fun x => core x ++ further x) =
      .ok (xs.map v, rest) := by
  have hbytes : ∃ rest, (xs.flatMap fun x => core x ++ further x) = xs.flatMap core ++ rest := by
    rcases List.eq_nil_or_concat xs with rfl | ⟨init, last, rfl⟩
    · exact ⟨[], rfl⟩
    · rw [List.concat_eq_append, List.dropLast_concat] at hlast
      have hinit : (init.flatMap fun x => core x ++ further x) = init.flatMap core :=
        List.flatMap_congr fun x hx => by rw [hlast x hx, List.append_nil]
      exact ⟨further last, by simp [hinit]⟩
  obtain ⟨rest, hbytes⟩ := hbytes
  exact ⟨rest, by rw [hbytes]; exact consumes_readMany_map hcore rest⟩

/-- If the further bytes of an item that is not the last begin as an item does, they are read as
one. -/
theorem readMany_further_read {pre post : List γ} {x : γ} {cs rest : List UInt8} {c : α}
    {vs : List α} (hcore : ∀ y ∈ pre ++ [x], Consumes p (core y) (v y))
    (hpre : ∀ y ∈ pre, further y = []) (hpost : post ≠ []) (hc : Consumes p cs c)
    (hx : further x = cs)
    (hread : readMany p (pre ++ x :: post).length
      ((pre ++ x :: post).flatMap fun y => core y ++ further y) = .ok (vs, rest)) :
    ∃ ws, vs = pre.map v ++ v x :: c :: ws := by
  have hinit : (pre.flatMap fun y => core y ++ further y) = pre.flatMap core :=
    List.flatMap_congr fun y hy => by rw [hpre y hy, List.append_nil]
  have hconsumes : Consumes (readMany p ((pre ++ [x]).length + 1))
      ((pre ++ [x]).flatMap core ++ cs) ((pre ++ [x]).map v ++ [c]) := by
    rw [ByteReader.readMany_add]
    refine (consumes_readMany_map hcore).bind ?_
    exact Consumes.map (hc.map fun b => [b]) _
  obtain ⟨n, hn⟩ := Nat.exists_eq_add_one_of_ne_zero (List.length_pos_of_ne_nil hpost).ne'
  have hlen : (pre ++ x :: post).length = (pre ++ [x]).length + 1 + n := by
    simp only [List.length_append, List.length_cons, List.length_nil]
    omega
  have hbytes : ((pre ++ x :: post).flatMap fun y => core y ++ further y) =
      (pre ++ [x]).flatMap core ++ cs ++ post.flatMap fun y => core y ++ further y := by
    simp [hinit, hx]
  rw [hlen, hbytes] at hread
  obtain ⟨ws, rfl⟩ := hconsumes.readMany_add hread
  exact ⟨ws, by simp⟩

end

end ByteReader
