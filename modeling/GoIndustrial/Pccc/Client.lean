import GoIndustrial.Lib.CallTree
import GoIndustrial.Pccc.Frame
import GoIndustrial.Plc.Value

/-!
# The PCCC client

`protocol/ethernetip/pccc/client.go` and `datapoint.go`. A client has a counter for transaction
numbers and an executor, which ships a command and returns the reply; its methods are programs over
these two (`CallTree`). A write to a bit reads the word and writes it back.

Go converts integers and wide floats to `float32`; what the conversions give is a parameter
(`FloatConv`). The points of `Plc.DataPoint File` that the client takes are the `File`s.

## Main definitions

* `Pccc.Program`, `Pccc.perform`, `Pccc.runOn` : programs of the client and their runs.
* `Pccc.rawRead`, `Pccc.writeBytes`, `Pccc.writeBit`, `Pccc.readFile`.
* `Pccc.read`, `Pccc.write`, `Pccc.readAddress`, `Pccc.writeAddress`, `Pccc.readWords`,
  `Pccc.writeWords`.
-/

namespace GoIndustrial.Pccc

open LittleEndian

/-! ### Data points -/

/-- A `File`: the text of an address, and how many elements. -/
structure File where
  address : List Char
  count : Int64
  deriving DecidableEq, Repr

def File.effectiveCount (f : File) : Int64 := if f.count ≤ 0 then 1 else f.count

/-! ### Values -/

/-- A value of a Go type, as the writing methods tell them apart; floats are given by their bits. -/
inductive GoValue
  | bool (x : Bool)
  | int (x : Int64)
  | int16 (x : Int16)
  | int32 (x : Int32)
  | int64 (x : Int64)
  | uint (x : UInt64)
  | uint16 (x : UInt16)
  | uint32 (x : UInt32)
  | uint64 (x : UInt64)
  | byte (x : UInt8)
  | float32 (bits : UInt32)
  | float64 (bits : UInt64)
  /-- A value of any other type. -/
  | other (type : String)
  deriving DecidableEq, Repr

/-- The conversions to `float32`. -/
structure FloatConv where
  ofFloat64 : (bits : UInt64) → UInt32
  ofInt : ℤ → UInt32

def boolOf : GoValue → Option Bool
  | .bool x => some x
  | .int x => some (x != 0)
  | .int16 x => some (x != 0)
  | .int32 x => some (x != 0)
  | .int64 x => some (x != 0)
  | .uint x => some (x != 0)
  | .uint16 x => some (x != 0)
  | .uint32 x => some (x != 0)
  | .uint64 x => some (x != 0)
  | .byte x => some (x != 0)
  | .float32 _ | .float64 _ | .other _ => none

/-- A signed integer, if it is in the range of `int16`. -/
def int16OfSigned (x : ℤ) : Option Int16 :=
  if x < -32768 ∨ 32767 < x then none else some (.ofInt x)

/-- An unsigned integer, if it is in the range of `int16`. -/
def int16OfUnsigned (x : ℕ) : Option Int16 := if 32767 < x then none else some (.ofNat x)

def int16Of : GoValue → Option Int16
  | .int16 x => some x
  -- no check of the range here: the bits are kept
  | .uint16 x => some x.toInt16
  | .int x => int16OfSigned x.toInt
  | .int32 x => int16OfSigned x.toInt
  | .int64 x => int16OfSigned x.toInt
  | .uint x => int16OfUnsigned x.toNat
  | .uint32 x => int16OfUnsigned x.toNat
  | .uint64 x => int16OfUnsigned x.toNat
  | .bool x => some (if x then 1 else 0)
  | .byte _ | .float32 _ | .float64 _ | .other _ => none

def float32Of (conv : FloatConv) : GoValue → Option UInt32
  | .float32 bits => some bits
  | .float64 bits => some (conv.ofFloat64 bits)
  | .int x => some (conv.ofInt x.toInt)
  | .int16 x => some (conv.ofInt x.toInt)
  | .int32 x => some (conv.ofInt x.toInt)
  | _ => none

/-! ### Programs -/

/-- What a method asks of the client's counter and of its executor. -/
inductive PcccCall (ε : Type) : Type → Type
  | nextTNS : PcccCall ε UInt16
  /-- `ExecutePCCC`. -/
  | execute (pcccCmd : List UInt8) : PcccCall ε (Except ε (List UInt8))

/-- How a method fails. -/
inductive ClientErr (ε : Type)
  /-- The error of `ParseAddress`. -/
  | address (e : AddressErr)
  /-- `pccc: %s: %w`, with the error of `ParseAddress`. -/
  | file (f : File) (e : AddressErr)
  /-- The error of an encoder or of `DecodeReply`. -/
  | frame (e : FrameErr)
  /-- The error of the executor. -/
  | executor (e : ε)
  /-- `pccc: expected File DataPoint, got %T`. -/
  | notFile
  /-- `pccc: read size %d out of range [1,240]`. -/
  | readSize (n : ℤ)
  /-- `pccc: bit read returned %d bytes`. -/
  | bitRead (n : ℕ)
  /-- `pccc: write bit: short read (%d bytes)`. -/
  | writeBitShortRead (n : ℕ)
  /-- `pccc: write to bit %s: empty data`. -/
  | bitEmptyData (f : File)
  /-- `pccc: write to bit %s: value %T not coercible to bool`. -/
  | notBool (addr : List Char) (v : GoValue)
  /-- `pccc: write to %s: value %T not coercible to float32`. -/
  | notFloat32 (addr : List Char) (v : GoValue)
  /-- `pccc: write to %s: value %T not coercible to int16`. -/
  | notInt16 (addr : List Char) (v : GoValue)
  /-- `pccc: ReadWords: n must be >= 1, got %d`. -/
  | readWordsTooFew (n : ℤ)
  /-- `pccc: ReadWords: n must be <= 127, got %d`. -/
  | readWordsTooMany (n : ℤ)
  /-- `pccc: ReadWords: bit suffix not supported in %q`. -/
  | readWordsBit (addr : List Char)
  /-- `pccc: ReadWords: short reply (%d bytes, want %d)`. -/
  | readWordsShort (n want : ℤ)
  /-- `pccc: WriteWords: empty slice`. -/
  | writeWordsEmpty
  /-- `pccc: WriteWords: too many words (%d, max 120)`. -/
  | writeWordsTooMany (n : ℕ)
  /-- `pccc: WriteWords: bit suffix not supported in %q`. -/
  | writeWordsBit (addr : List Char)

/-- The programs of a client whose executor fails with `ε`. -/
abbrev Program (ε α : Type) := ExceptT (ClientErr ε) (CallTree (PcccCall ε)) α

namespace Program

variable {ε α : Type}

def nextTNS : Program ε UInt16 := ExceptT.lift (.ofCall .nextTNS)

def execute (pcccCmd : List UInt8) : Program ε (List UInt8) :=
  ExceptT.mk (.call (.execute pcccCmd) fun r => .ret (r.mapError .executor))

def ofFrame (r : Except FrameErr α) : Program ε α := ExceptT.mk (.ret (r.mapError .frame))

def ofAddress (r : Except AddressErr α) : Program ε α := ExceptT.mk (.ret (r.mapError .address))

end Program

/-! ### Runs -/

/-- `nextTNS` with nobody in between: the transaction number and the counter after it. The loop goes
round once more when the number is 0, and then it is 1. -/
def nextTNS (tns : UInt32) : UInt16 × UInt32 :=
  if (tns + 1).toUInt16 ≠ 0 then ((tns + 1).toUInt16, tns + 1)
  else ((tns + 2).toUInt16, tns + 2)

/-- The counter of a client, and what its executor talks to. -/
structure Link (σ : Type) where
  tns : UInt32
  device : σ

section Runs

variable {ε σ : Type} (exec : List UInt8 → σ → Except ε (List UInt8) × σ)

/-- Perform a call with the executor `exec`. -/
def perform : {β : Type} → PcccCall ε β → Link σ → β × Link σ
  | _, .nextTNS, l => ((nextTNS l.tns).1, ⟨(nextTNS l.tns).2, l.device⟩)
  | _, .execute cmd, l => ((exec cmd l.device).1, ⟨l.tns, (exec cmd l.device).2⟩)

/-- Run a method alone. -/
def runOn {α : Type} (p : Program ε α) (l : Link σ) : Except (ClientErr ε) α × Link σ :=
  CallTree.run (perform exec) p l

variable {α β : Type} (l : Link σ)

theorem runOn_bind (p : Program ε α) (f : α → Program ε β) :
    runOn exec (p >>= f) l =
      match runOn exec p l with
      | (.ok a, l') => runOn exec (f a) l'
      | (.error e, l') => (.error e, l') := by
  refine (CallTree.run_bindExcept (perform exec) p f l).trans ?_
  rw [runOn]
  cases CallTree.run (perform exec) p l with
  | mk r l' => cases r <;> rfl

theorem runOn_bind_ok {p : Program ε α} {f : α → Program ε β} {a : α} {l' : Link σ}
    (h : runOn exec p l = (.ok a, l')) : runOn exec (p >>= f) l = runOn exec (f a) l' := by
  rw [runOn_bind, h]

theorem runOn_bind_error {p : Program ε α} {f : α → Program ε β} {e : ClientErr ε} {l' : Link σ}
    (h : runOn exec p l = (.error e, l')) : runOn exec (p >>= f) l = (.error e, l') := by
  rw [runOn_bind, h]

theorem runOn_nextTNS : runOn exec (Program.nextTNS : Program ε UInt16) l =
    (.ok (nextTNS l.tns).1, ⟨(nextTNS l.tns).2, l.device⟩) := rfl

theorem runOn_execute (cmd : List UInt8) : runOn exec (Program.execute cmd) l =
    ((exec cmd l.device).1.mapError .executor, ⟨l.tns, (exec cmd l.device).2⟩) := rfl

@[simp] theorem runOn_pure (a : α) : runOn exec (pure a : Program ε α) l = (.ok a, l) := rfl

@[simp] theorem runOn_throw (e : ClientErr ε) :
    runOn exec (throw e : Program ε α) l = (.error e, l) := rfl

@[simp] theorem runOn_ret (r : Except (ClientErr ε) α) :
    runOn exec (ExceptT.mk (.ret r)) l = (r, l) := rfl

end Runs

/-! ### Exchanges -/

section Methods

variable {ε : Type}

def rawRead (a : Address) (byteSize : ℤ) : Program ε (List UInt8) :=
  if byteSize < 1 ∨ 240 < byteSize then throw (.readSize byteSize)
  else do
    let tns ← Program.nextTNS
    let cmd ← .ofFrame (encodeTypedRead tns byteSize a.fileNumber a.fileType a.element a.subElement)
    let rawReply ← Program.execute cmd
    let reply ← .ofFrame (decodeReply rawReply)
    return reply.data

def writeBytes (a : Address) (data : List UInt8) : Program ε Unit := do
  let tns ← Program.nextTNS
  let cmd ← .ofFrame (encodeTypedWrite tns a.fileNumber a.fileType a.element a.subElement data)
  let rawReply ← Program.execute cmd
  let _ ← .ofFrame (decodeReply rawReply)

/-- The word that holds the addressed bit. -/
def Address.wordAddr (a : Address) : Address := { a with bitNum := -1 }

/-- The word with a bit set or cleared. -/
def maskBit (word : UInt16) (bitNum : ℤ) (on : Bool) : UInt16 :=
  let mask := 1 <<< UInt16.ofInt bitNum
  if on then word ||| mask else word &&& ~~~mask

def writeBit (a : Address) (on : Bool) : Program ε Unit := do
  let raw ← rawRead a.wordAddr 2
  if raw.length < 2 then throw (.writeBitShortRead raw.length)
  else
    let word := maskBit (uint16 (raw.take 2)) a.bitNum on
    writeBytes a.wordAddr [word.toUInt8, (word >>> 8).toUInt8]

/-! ### Files -/

/-- The size of a read of `count` elements, in the machine's integers. -/
def elementBytes (a : Address) (count : Int64) : Int64 :=
  let count := if count < 1 then 1 else count
  if 0 ≤ a.bitNum then 2
  else if a.fileType = .float then 4 * count
  else if a.fileType.isTimerLike then
    if 0 < a.subElement then 2 * count else 6 * count
  else 2 * count

def clip (b : List UInt8) (n : ℤ) : List UInt8 := b.take n.toNat

def File.parse (f : File) : Program ε Address :=
  ExceptT.mk (.ret ((parseAddress f.address).mapError (.file f)))

/-- The value that `readFile` makes of a reply. -/
def fileValue (f : File) (a : Address) (size : ℤ) (raw : List UInt8) :
    Except (ClientErr ε) (Plc.Value File) :=
  if 0 ≤ a.bitNum then
    if raw.length < 2 then .error (.bitRead raw.length)
    else
      let bit := ((uint16 (raw.take 2) >>> UInt16.ofInt a.bitNum) &&& 1).toUInt8
      .ok ⟨none, [bit], .bool, .littleEndian⟩
  else if a.fileType = .float then .ok ⟨none, clip raw 4, .float32, .littleEndian⟩
  else if a.fileType.isTimerLike ∧ a.subElement = 0 then
    .ok ⟨none, clip raw 6, .bytes, .littleEndian⟩
  else if 1 < f.effectiveCount ∨ 2 < size then
    .ok ⟨none, clip raw size, .bytes, .littleEndian⟩
  else .ok ⟨none, clip raw size, .int16, .littleEndian⟩

def readFile (f : File) : Program ε (Plc.Value File) := do
  let a ← f.parse
  let size := (elementBytes a f.effectiveCount).toInt
  let raw ← rawRead a size
  ExceptT.mk (.ret (fileValue f a size raw))

/-- `Client.Read`; a point that is not a `File` ends it. -/
def read : List (Plc.DataPoint File) → Program ε (List (Plc.Value File))
  | [] => return []
  | .other _ :: _ => throw .notFile
  | .clusterable f :: points => do
    let v ← readFile f
    let rest ← read points
    return { v with dataPoint := some (.clusterable f) } :: rest

/-- `Client.Write`. -/
def write (point : Plc.DataPoint File) (data : List UInt8) : Program ε Unit :=
  match point with
  | .other _ => throw .notFile
  | .clusterable f => do
    let a ← f.parse
    if 0 ≤ a.bitNum then
      match data with
      | [] => throw (.bitEmptyData f)
      | b :: _ => writeBit a (b != 0)
    else writeBytes a data

/-! ### Addresses -/

def readAddress (addr : List Char) : Program ε (Plc.Value File) := readFile ⟨addr, 0⟩

/-- What is written for a value to an address without a bit. -/
def valueBytes (conv : FloatConv) (addr : List Char) (a : Address) (v : GoValue) :
    Except (ClientErr ε) (List UInt8) :=
  if a.fileType = .float then
    match float32Of conv v with
    | none => .error (.notFloat32 addr v)
    | some bits => .ok (putUint32 bits)
  else
    match int16Of v with
    | none => .error (.notInt16 addr v)
    | some n => .ok (putUint16 n.toUInt16)

def writeAddress (conv : FloatConv) (addr : List Char) (v : GoValue) : Program ε Unit := do
  let a ← .ofAddress (parseAddress addr)
  if 0 ≤ a.bitNum then
    match boolOf v with
    | none => throw (.notBool addr v)
    | some b => writeBit a b
  else do
    let buf ← ExceptT.mk (.ret (valueBytes conv addr a v))
    writeBytes a buf

/-- The words of a byte string. -/
def wordsOf : List UInt8 → List UInt16
  | b₀ :: b₁ :: rest => uint16 [b₀, b₁] :: wordsOf rest
  | _ => []

def readWords (addr : List Char) (n : ℤ) : Program ε (List Int16) :=
  if n < 1 then throw (.readWordsTooFew n)
  else if 127 < n then throw (.readWordsTooMany n)
  else do
    let a ← .ofAddress (parseAddress addr)
    if 0 ≤ a.bitNum then throw (.readWordsBit addr)
    else
      let raw ← rawRead a (n * 2)
      if raw.length < n * 2 then throw (.readWordsShort raw.length (n * 2))
      else return (wordsOf (raw.take (n * 2).toNat)).map UInt16.toInt16

def writeWords (addr : List Char) (words : List Int16) : Program ε Unit :=
  if words.length = 0 then throw .writeWordsEmpty
  else if 120 < words.length then throw (.writeWordsTooMany words.length)
  else do
    let a ← .ofAddress (parseAddress addr)
    if 0 ≤ a.bitNum then throw (.writeWordsBit addr)
    else writeBytes a (words.flatMap fun w => putUint16 w.toUInt16)

end Methods

end GoIndustrial.Pccc
