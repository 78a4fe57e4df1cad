import GoIndustrial.Pccc.Client
import Mathlib.Data.List.Basic
import Mathlib.Tactic.SplitIfs

/-!
# Data tables

The controller that a PCCC client talks to: numbered files of 16-bit words, each with its file type,
that answer typed-logical reads and writes. An element of a float file is two words, one of a timer,
a counter or a control file three, and one of a string file 42; all others are one word. A command
for a file that is not there or has another type, or for words outside the file, is refused with a
status and changes nothing.

## Main definitions

* `Pccc.DataTable`, `Pccc.DataTable.execute`.
* `Pccc.DataTable.read`, `Pccc.DataTable.write` : reads and writes at an address.

## Main results

* `Pccc.runOn_rawRead`, `Pccc.runOn_writeBytes` : the exchanges of the client with a data table are
  these reads and writes.
-/

namespace GoIndustrial.Pccc

open LittleEndian

/-! ### Words and bytes -/

/-- The bytes of words, low byte first. -/
def bytesOf (words : List UInt16) : List UInt8 := words.flatMap putUint16

@[simp] theorem length_bytesOf (words : List UInt16) :
    (bytesOf words).length = 2 * words.length := by
  induction words with
  | nil => rfl
  | cons w words ih =>
    rw [bytesOf, List.flatMap_cons, List.length_append, length_putUint16, List.length_cons]
    rw [bytesOf] at ih
    omega

theorem bytesOf_cons (w : UInt16) (words : List UInt16) :
    bytesOf (w :: words) = putUint16 w ++ bytesOf words := rfl

@[simp] theorem wordsOf_bytesOf (words : List UInt16) : wordsOf (bytesOf words) = words := by
  induction words with
  | nil => rfl
  | cons w words ih =>
    have hword : uint16 (putUint16 w) = w := uint16_putUint16 w
    exact congrArg₂ List.cons hword ih

theorem drop_bytesOf (words : List UInt16) (i : ℕ) :
    (bytesOf words).drop (2 * i) = bytesOf (words.drop i) := by
  induction i generalizing words with
  | zero => rfl
  | succ i ih =>
    cases words with
    | nil => simp [bytesOf]
    | cons w words =>
      rw [List.drop_succ_cons, ← ih words, Nat.mul_succ, Nat.add_comm, ← List.drop_drop]
      rfl

theorem take_bytesOf (words : List UInt16) (i : ℕ) :
    (bytesOf words).take (2 * i) = bytesOf (words.take i) := by
  induction i generalizing words with
  | zero => rfl
  | succ i ih =>
    cases words with
    | nil => simp [bytesOf]
    | cons w words =>
      rw [List.take_succ_cons, bytesOf_cons, bytesOf_cons, ← ih words, Nat.mul_succ, Nat.add_comm]
      exact @List.take_length_add_append _ (putUint16 w) (bytesOf words) (2 * i)

/-- A list with the items from `i` on replaced. -/
def splice {α : Type} (l : List α) (i : ℕ) (new : List α) : List α :=
  l.take i ++ new ++ l.drop (i + new.length)

section Splice

variable {α : Type} {l new : List α} {i : ℕ}

theorem length_splice (h : i + new.length ≤ l.length) : (splice l i new).length = l.length := by
  simp only [splice, List.length_append, List.length_take, List.length_drop]
  omega

theorem getElem?_splice (h : i + new.length ≤ l.length) (j : ℕ) :
    (splice l i new)[j]? =
      if i ≤ j ∧ j < i + new.length then new[j - i]? else l[j]? := by
  have hi : (l.take i).length = i := List.length_take_of_le (by omega)
  rw [splice, List.append_assoc, List.getElem?_append, hi, List.getElem?_append]
  split_ifs with h₁ h₂ h₃ h₃
  · omega
  · exact List.getElem?_take_of_lt h₁
  · rfl
  · omega
  · omega
  · rw [List.getElem?_drop]
    congr 1
    omega

theorem take_drop_splice (h : i + new.length ≤ l.length) :
    ((splice l i new).drop i).take new.length = new := by
  have hi : (l.take i).length = i := List.length_take_of_le (by omega)
  rw [splice, List.append_assoc, List.drop_left' hi, List.take_left]

end Splice

/-! ### Files -/

structure DataFile where
  fileType : FileType
  words : List UInt16
  deriving DecidableEq, Repr

/-- The files by their numbers. -/
abbrev DataTable := UInt8 → Option DataFile

/-- The number of words of an element. -/
def FileType.wordsPerElement : FileType → ℕ
  | .float => 2
  | .timer | .counter | .control => 3
  | .string => 42
  | _ => 1

/-- `size` bytes from the word `i` on, if the file has them. -/
def DataFile.readBytes (f : DataFile) (i size : ℕ) : Option (List UInt8) :=
  if 2 * i + size ≤ 2 * f.words.length then some (((bytesOf f.words).drop (2 * i)).take size)
  else none

/-- The file with words written from the word `i` on, if the file has them. -/
def DataFile.writeBytes (f : DataFile) (i : ℕ) (data : List UInt8) : Option DataFile :=
  if data.length % 2 = 0 ∧ 2 * i + data.length ≤ 2 * f.words.length then
    some { f with words := splice f.words i (wordsOf data) }
  else none

namespace DataTable

/-- The file of this number and type. -/
def file (dt : DataTable) (n type : UInt8) : Option DataFile :=
  (dt n).filter fun f => f.fileType.code == type

/-- The first word that a command is about. -/
def wordIndex (f : DataFile) (elem sub : UInt8) : ℕ :=
  elem.toNat * f.fileType.wordsPerElement + sub.toNat

/-- A reply: the command with the reply bit, a status, and the transaction number of the command. -/
def reply (sts t₀ t₁ : UInt8) (data : List UInt8) : List UInt8 :=
  (cmdProtectedTypedLogical ||| replyBit) :: sts :: t₀ :: t₁ :: data

/-- The status `remote: addressing problem or memory protect rungs`. -/
def stsAddressing : UInt8 := 0x50

/-- The status `remote: illegal command or format`. -/
def stsIllegal : UInt8 := 0x10

def typedRead (dt : DataTable) (size n type elem sub : UInt8) : Option (List UInt8) := do
  let f ← dt.file n type
  f.readBytes (wordIndex f elem sub) size.toNat

def typedWrite (dt : DataTable) (n type elem sub : UInt8) (data : List UInt8) :
    Option DataTable := do
  let f ← dt.file n type
  let f' ← f.writeBytes (wordIndex f elem sub) data
  return Function.update dt n (some f')

/-- Answer a command. -/
def execute (cmd : List UInt8) (dt : DataTable) : List UInt8 × DataTable :=
  match cmd with
  | c :: _ :: t₀ :: t₁ :: func :: args =>
    if c ≠ cmdProtectedTypedLogical then (reply stsIllegal t₀ t₁ [], dt)
    else if func = funcProtectedTypedLogicalRead then
      match args with
      | [size, n, type, elem, sub] =>
        match dt.typedRead size n type elem sub with
        | some data => (reply 0 t₀ t₁ data, dt)
        | none => (reply stsAddressing t₀ t₁ [], dt)
      | _ => (reply stsIllegal t₀ t₁ [], dt)
    else if func = funcProtectedTypedLogicalWrite then
      match args with
      | n :: type :: elem :: sub :: data =>
        match dt.typedWrite n type elem sub data with
        | some dt' => (reply 0 t₀ t₁ [], dt')
        | none => (reply stsAddressing t₀ t₁ [], dt)
      | _ => (reply stsIllegal t₀ t₁ [], dt)
    else (reply stsIllegal t₀ t₁ [], dt)
  | _ => (reply stsIllegal 0 0 [], dt)

/-- The executor of a client that talks to a data table. -/
def executor {ε : Type} (cmd : List UInt8) (dt : DataTable) : Except ε (List UInt8) × DataTable :=
  (.ok (dt.execute cmd).1, (dt.execute cmd).2)

end DataTable

/-! ### Reads and writes at an address -/

theorem FileType.code_injective : Function.Injective FileType.code := by
  intro ft ft' h
  have hback : some ft = some ft' := by rw [← ofCode_code ft, ← ofCode_code ft', h]
  exact Option.some.inj hback

/-- The first addressed word of the file. -/
def Address.wordIndex (a : Address) : ℕ :=
  a.element.toNat * a.fileType.wordsPerElement + a.subElement.toNat

namespace DataTable

variable (dt : DataTable) (a : Address)

/-- The addressed file. -/
def fileAt : Option DataFile := dt.file (.ofInt a.fileNumber) a.fileType.code

/-- `size` bytes at the address. -/
def read (size : ℕ) : Option (List UInt8) := do
  let f ← dt.fileAt a
  f.readBytes a.wordIndex size

/-- The table with the bytes written at the address. -/
def write (data : List UInt8) : Option DataTable := do
  let f ← dt.fileAt a
  let f' ← f.writeBytes a.wordIndex data
  return Function.update dt (.ofInt a.fileNumber) (some f')

variable {dt a}

theorem fileAt_eq_some {f : DataFile} :
    dt.fileAt a = some f ↔ dt (.ofInt a.fileNumber) = some f ∧ f.fileType = a.fileType := by
  simp only [fileAt, file, Option.filter_eq_some_iff, beq_iff_eq]
  exact and_congr_right fun _ => FileType.code_injective.eq_iff

/-- A byte that an address field is sent as. -/
theorem toNat_ofInt_byte {n : ℤ} (h₀ : 0 ≤ n) (h₁ : n ≤ 255) : (UInt8.ofInt n).toNat = n.toNat := by
  rw [UInt8.ofInt, UInt8.toNat_ofNat']
  omega

theorem wordIndex_eq (ha : a.Valid) {f : DataFile} (hf : dt.fileAt a = some f) :
    wordIndex f (.ofInt a.element) (.ofInt a.subElement) = a.wordIndex := by
  have hsub := ha.subElement
  rw [wordIndex, Address.wordIndex, (fileAt_eq_some.mp hf).2,
    toNat_ofInt_byte ha.element.1 ha.element.2, toNat_ofInt_byte hsub.1 (by omega)]

theorem typedRead_eq (ha : a.Valid) {size : ℤ} (h₀ : 0 ≤ size) (h₁ : size ≤ 255) :
    dt.typedRead (.ofInt size) (.ofInt a.fileNumber) a.fileType.code (.ofInt a.element)
      (.ofInt a.subElement) = dt.read a size.toNat := by
  refine Option.bind_congr fun f hf => ?_
  rw [wordIndex_eq ha hf, toNat_ofInt_byte h₀ h₁]

theorem typedWrite_eq (ha : a.Valid) (data : List UInt8) :
    dt.typedWrite (.ofInt a.fileNumber) a.fileType.code (.ofInt a.element) (.ofInt a.subElement)
      data = dt.write a data := by
  refine Option.bind_congr fun f hf => ?_
  rw [wordIndex_eq ha hf]

end DataTable

/-! ### Words at an address -/

theorem bytesOf_wordsOf {data : List UInt8} (h : data.length % 2 = 0) :
    bytesOf (wordsOf data) = data := by
  fun_induction wordsOf data with
  | case1 b₀ b₁ rest ih =>
    rw [List.length_cons, List.length_cons] at h
    rw [bytesOf_cons, ih (by omega), putUint16_uint16 rfl]
    rfl
  | case2 data hdata =>
    match data, hdata, h with
    | [], _, _ => rfl
    | [_], _, h => simp at h
    | b₀ :: b₁ :: rest, hdata, _ => exact absurd rfl (hdata b₀ b₁ rest)

theorem length_wordsOf {data : List UInt8} (h : data.length % 2 = 0) :
    2 * (wordsOf data).length = data.length := by
  rw [← length_bytesOf, bytesOf_wordsOf h]

theorem DataFile.readBytes_two_mul (f : DataFile) (i k : ℕ) :
    f.readBytes i (2 * k) =
      if i + k ≤ f.words.length then some (bytesOf ((f.words.drop i).take k)) else none := by
  rw [readBytes, drop_bytesOf, take_bytesOf]
  exact if_congr (by omega) rfl rfl

namespace DataTable

variable {dt dt' : DataTable} {a : Address}

/-- The word `i` of the file `n`. -/
def word (dt : DataTable) (n : UInt8) (i : ℕ) : Option UInt16 := (dt n).bind fun f => f.words[i]?

/-- The addressed word. -/
def wordAt (dt : DataTable) (a : Address) : Option UInt16 :=
  (dt.fileAt a).bind fun f => f.words[a.wordIndex]?

theorem read_two_mul (k : ℕ) : dt.read a (2 * k) = (dt.fileAt a).bind fun f =>
    if a.wordIndex + k ≤ f.words.length then
      some (bytesOf ((f.words.drop a.wordIndex).take k)) else none :=
  Option.bind_congr fun f _ => f.readBytes_two_mul _ _

theorem read_two : dt.read a 2 = (dt.wordAt a).map putUint16 := by
  rw [show 2 = 2 * 1 from rfl, read_two_mul, wordAt, Option.map_bind]
  refine Option.bind_congr fun f _ => ?_
  rw [Function.comp_apply]
  split_ifs with h
  · rw [List.getElem?_eq_getElem h, List.drop_eq_getElem_cons h]
    rfl
  · have hout : f.words.length ≤ a.wordIndex := by omega
    rw [List.getElem?_eq_none hout]
    rfl

theorem write_eq_some {data : List UInt8} :
    dt.write a data = some dt' ↔ ∃ f, dt.fileAt a = some f ∧ data.length % 2 = 0 ∧
      2 * a.wordIndex + data.length ≤ 2 * f.words.length ∧
      dt' = Function.update dt (.ofInt a.fileNumber)
        (some { f with words := splice f.words a.wordIndex (wordsOf data) }) := by
  rw [write, Option.bind_eq_bind, Option.bind_eq_some_iff]
  refine exists_congr fun f => and_congr_right fun _ => ?_
  rw [DataFile.writeBytes]
  split_ifs with h
  · rw [Option.bind_some, Option.pure_def, Option.some.injEq, eq_comm]
    exact ⟨fun he => ⟨h.1, h.2, he⟩, fun he => he.2.2⟩
  · exact ⟨fun he => (Option.some_ne_none dt' he.symm).elim, fun he => (h ⟨he.1, he.2.1⟩).elim⟩

/-- The words that can be written are those that can be read. -/
theorem isSome_write {data : List UInt8} (h : data.length % 2 = 0) :
    (dt.write a data).isSome = (dt.read a data.length).isSome := by
  rw [write, read]
  cases dt.fileAt a with
  | none => rfl
  | some f =>
    change (do let f' ← f.writeBytes a.wordIndex data; _ : Option DataTable).isSome =
      (f.readBytes a.wordIndex data.length).isSome
    rw [DataFile.writeBytes, DataFile.readBytes]
    by_cases hlen : 2 * a.wordIndex + data.length ≤ 2 * f.words.length
    · rw [if_pos ⟨h, hlen⟩, if_pos hlen]
      rfl
    · rw [if_neg (mt And.right hlen), if_neg hlen]
      rfl

section Written

variable {data : List UInt8} (h : dt.write a data = some dt')

include h

/-- **Every word after a write**: the addressed words are the new ones, all others the old ones. -/
theorem word_of_write (n : UInt8) (j : ℕ) :
    dt'.word n j =
      if n = .ofInt a.fileNumber ∧ a.wordIndex ≤ j ∧ j < a.wordIndex + (wordsOf data).length then
        (wordsOf data)[j - a.wordIndex]?
      else dt.word n j := by
  obtain ⟨f, hf, heven, hlen, rfl⟩ := write_eq_some.mp h
  have hfit : a.wordIndex + (wordsOf data).length ≤ f.words.length := by
    have := length_wordsOf heven
    omega
  rw [word, Function.update_apply]
  by_cases hn : n = .ofInt a.fileNumber
  · subst hn
    rw [if_pos rfl, Option.bind_some, getElem?_splice hfit, word, (fileAt_eq_some.mp hf).1,
      Option.bind_some]
    simp only [true_and]
  · rw [if_neg hn, if_neg (mt And.left hn), word]

/-- A write keeps the files and their types. -/
theorem fileType_of_write (n : UInt8) :
    (dt' n).map DataFile.fileType = (dt n).map DataFile.fileType := by
  obtain ⟨f, hf, -, -, rfl⟩ := write_eq_some.mp h
  rw [Function.update_apply]
  split_ifs with hn
  · rw [hn, (fileAt_eq_some.mp hf).1]
    rfl
  · rfl

/-- What was written is read back. -/
theorem read_of_write : dt'.read a data.length = some data := by
  obtain ⟨f, hf, heven, hlen, rfl⟩ := write_eq_some.mp h
  have hwords := length_wordsOf heven
  have hfit : a.wordIndex + (wordsOf data).length ≤ f.words.length := by omega
  have hfile : fileAt (Function.update dt (.ofInt a.fileNumber)
      (some { f with words := splice f.words a.wordIndex (wordsOf data) })) a =
      some { f with words := splice f.words a.wordIndex (wordsOf data) } :=
    fileAt_eq_some.mpr ⟨Function.update_self _ _ _, (fileAt_eq_some.mp hf).2⟩
  rw [← hwords, read_two_mul, hfile, Option.bind_some, if_pos (by rwa [length_splice hfit]),
    take_drop_splice hfit, bytesOf_wordsOf heven]

end Written

end DataTable

/-! ### Exchanges -/

section Exchanges

variable {ε : Type} {a : Address} (dt : DataTable)

/-- The reply to the command with this transaction number. -/
def replyTo (tns : UInt16) (sts : UInt8) (data : List UInt8) : List UInt8 :=
  DataTable.reply sts (.ofNat tns.toNat) (.ofNat (tns.toNat / 256)) data

/-- How a table answers the read command for a parsed address. -/
theorem execute_read (ha : a.Valid) (tns : UInt16) {size : ℤ} (h₀ : 0 ≤ size) (h₁ : size ≤ 255) :
    dt.execute (commandHead tns funcProtectedTypedLogicalRead ++
        .ofInt size :: addressFields a.fileNumber a.fileType a.element a.subElement) =
      match dt.read a size.toNat with
      | some data => (replyTo tns 0 data, dt)
      | none => (replyTo tns DataTable.stsAddressing [], dt) := by
  rw [← DataTable.typedRead_eq ha h₀ h₁]
  rfl

/-- How a table answers the write command for a parsed address. -/
theorem execute_write (ha : a.Valid) (tns : UInt16) (data : List UInt8) :
    dt.execute (commandHead tns funcProtectedTypedLogicalWrite ++
        (addressFields a.fileNumber a.fileType a.element a.subElement ++ data)) =
      match dt.write a data with
      | some dt' => (replyTo tns 0 [], dt')
      | none => (replyTo tns DataTable.stsAddressing [], dt) := by
  rw [← DataTable.typedWrite_eq ha]
  rfl

theorem decodeReply_replyTo (tns : UInt16) (data : List UInt8) :
    decodeReply (replyTo tns 0 data) = .ok ⟨cmdProtectedTypedLogical, 0, tns, 0, data⟩ := by
  refine (?_ : decodeReply (replyTo tns 0 data) =
    .ok ⟨cmdProtectedTypedLogical, 0, uint16 (putUint16 tns), 0, data⟩).trans ?_
  · rfl
  · rw [uint16_putUint16]

/-- The link after an exchange: the counter has moved on. -/
def Link.next {σ : Type} (l : Link σ) (device : σ) : Link σ := ⟨(nextTNS l.tns).2, device⟩

/-- The error of a refused command. -/
def refused : ClientErr ε := .frame (.status DataTable.stsAddressing 0)

variable (l : Link DataTable)

/-- **A read of the client is a read of the table** at the address. -/
theorem runOn_rawRead (ha : a.Valid) {size : ℤ} (h₁ : 1 ≤ size) (h₂ : size ≤ 240) :
    runOn (ε := ε) DataTable.executor (rawRead a size) l =
      match l.device.read a size.toNat with
      | some data => (.ok data, l.next l.device)
      | none => (.error refused, l.next l.device) := by
  have h₀ : 0 ≤ size := by omega
  have h₃ : size ≤ 255 := by omega
  have hcmd := ha.encodeTypedRead (nextTNS l.tns).1 h₁ h₃
  rw [rawRead, if_neg (by omega), runOn_bind_ok _ _ (runOn_nextTNS _ l), hcmd,
    runOn_bind_ok _ _ rfl, runOn_bind, runOn_execute, DataTable.executor,
    execute_read l.device ha _ h₀ h₃]
  cases l.device.read a size.toNat with
  | some data =>
    simp only [Except.mapError]
    rw [decodeReply_replyTo]
    rfl
  | none => rfl

/-- **A write of the client is a write of the table** at the address. -/
theorem runOn_writeBytes (ha : a.Valid) {data : List UInt8} (hne : data ≠ [])
    (hlen : data.length ≤ 240) :
    runOn (ε := ε) DataTable.executor (writeBytes a data) l =
      match l.device.write a data with
      | some dt => (.ok (), l.next dt)
      | none => (.error refused, l.next l.device) := by
  have hcmd := ha.encodeTypedWrite (nextTNS l.tns).1 hne hlen
  rw [writeBytes, runOn_bind_ok _ _ (runOn_nextTNS _ l), hcmd, runOn_bind_ok _ _ rfl, runOn_bind,
    runOn_execute, DataTable.executor, execute_write l.device ha]
  cases l.device.write a data with
  | some dt =>
    simp only [Except.mapError]
    rw [decodeReply_replyTo]
    rfl
  | none => rfl

/-- A read of a file point whose size the client accepts. -/
theorem runOn_readFile {f : File} (hparse : parseAddress f.address = .ok a)
    (h₁ : 1 ≤ (elementBytes a f.effectiveCount).toInt)
    (h₂ : (elementBytes a f.effectiveCount).toInt ≤ 240) :
    runOn (ε := ε) DataTable.executor (readFile f) l =
      match l.device.read a (elementBytes a f.effectiveCount).toInt.toNat with
      | some raw => (fileValue f a (elementBytes a f.effectiveCount).toInt raw, l.next l.device)
      | none => (.error refused, l.next l.device) := by
  have hread := runOn_rawRead (ε := ε) l (valid_of_parseAddress hparse) h₁ h₂
  rw [readFile, File.parse, hparse, runOn_bind_ok _ _ rfl, runOn_bind, hread]
  cases l.device.read a (elementBytes a f.effectiveCount).toInt.toNat <;> rfl

end Exchanges

end GoIndustrial.Pccc
