import GoIndustrial.Lib.LittleEndian
import GoIndustrial.Pccc.Address
import Mathlib.Tactic.SplitIfs

/-!
# PCCC frames

`protocol/ethernetip/pccc/frame.go`: the typed-logical read and write commands and the reply. Both
commands begin with the command byte, a status of 0, the transaction number and the function; the
read then has a size before the address and the write has the data behind it. A reply repeats the
command with a bit set, and the transaction number, around a status.

## Main definitions

* `Pccc.encodeTypedRead`, `Pccc.encodeTypedWrite`.
* `Pccc.decodeReply`.

## Main results

* `Pccc.Address.Valid.encodeTypedRead`, `Pccc.Address.Valid.encodeTypedWrite` : the commands for a
  parsed address.
-/

namespace GoIndustrial.Pccc

open LittleEndian

/-- What is wrong with a command or a reply. -/
inductive FrameErr
  /-- `pccc: file number %d out of range [0,255]`. -/
  | fileNumber (n : ℤ)
  /-- `pccc: element %d out of range [0,255]`. -/
  | element (n : ℤ)
  /-- `pccc: sub-element %d out of range [0,255]`. -/
  | subElement (n : ℤ)
  /-- `pccc: byte size %d out of range [1,255]`. -/
  | byteSize (n : ℤ)
  /-- `pccc: write data is empty`. -/
  | emptyData
  /-- `pccc: write data too large (%d bytes)`. -/
  | dataTooLarge (n : ℕ)
  /-- `pccc: reply too short (%d bytes, need >=4)`. -/
  | replyTooShort (n : ℕ)
  /-- `pccc: CMD 0x%02X has no reply bit set`. -/
  | noReplyBit (cmd : UInt8)
  /-- `pccc: STS=0xF0 but reply missing EXT STS byte`. -/
  | missingExtSTS
  /-- `pccc.Error`: the status of the reply, and the extended one. -/
  | status (sts extSTS : UInt8)
  deriving DecidableEq, Repr

def cmdProtectedTypedLogical : UInt8 := 0x0F

def funcProtectedTypedLogicalRead : UInt8 := 0xA2

def funcProtectedTypedLogicalWrite : UInt8 := 0xAA

def replyBit : UInt8 := 0x40

def statusUseExtSTS : UInt8 := 0xF0

/-! ### Commands -/

/-- The numbers of an address fit into bytes; that the file type is one of the table needs no
check. -/
def validateAddress (fileNum elem subElem : ℤ) : Except FrameErr Unit :=
  if fileNum < 0 ∨ 255 < fileNum then .error (.fileNumber fileNum)
  else if elem < 0 ∨ 255 < elem then .error (.element elem)
  else if subElem < 0 ∨ 255 < subElem then .error (.subElement subElem)
  else .ok ()

/-- The four address fields. -/
def addressFields (fileNum : ℤ) (ft : FileType) (elem subElem : ℤ) : List UInt8 :=
  [.ofInt fileNum, ft.code, .ofInt elem, .ofInt subElem]

/-- What both commands begin with. -/
def commandHead (tns : UInt16) (func : UInt8) : List UInt8 :=
  [cmdProtectedTypedLogical, 0x00] ++ putUint16 tns ++ [func]

def encodeTypedRead (tns : UInt16) (byteSize fileNum : ℤ) (ft : FileType) (elem subElem : ℤ) :
    Except FrameErr (List UInt8) := do
  validateAddress fileNum elem subElem
  if byteSize < 1 ∨ 255 < byteSize then .error (.byteSize byteSize)
  else return commandHead tns funcProtectedTypedLogicalRead ++
    .ofInt byteSize :: addressFields fileNum ft elem subElem

def encodeTypedWrite (tns : UInt16) (fileNum : ℤ) (ft : FileType) (elem subElem : ℤ)
    (data : List UInt8) : Except FrameErr (List UInt8) := do
  validateAddress fileNum elem subElem
  if data.length = 0 then .error .emptyData
  else if data.length > 240 then .error (.dataTooLarge data.length)
  else return commandHead tns funcProtectedTypedLogicalWrite ++
    (addressFields fileNum ft elem subElem ++ data)

/-! ### Replies -/

structure Reply where
  /-- The command without the reply bit. -/
  command : UInt8
  sts : UInt8
  tns : UInt16
  extSTS : UInt8
  data : List UInt8
  deriving DecidableEq, Repr

/-- The status of a reply, and what follows it. -/
def decodeStatus (command sts : UInt8) (tns : UInt16) (rest : List UInt8) :
    Except FrameErr Reply :=
  if sts = statusUseExtSTS then
    match rest with
    | [] => .error .missingExtSTS
    | extSTS :: _ => .error (.status sts extSTS)
  else if sts ≠ 0 then .error (.status sts 0)
  else .ok ⟨command, sts, tns, 0, rest⟩

def decodeReply (raw : List UInt8) : Except FrameErr Reply :=
  match raw with
  | cmd :: sts :: t₀ :: t₁ :: rest =>
    if cmd &&& replyBit = 0 then .error (.noReplyBit cmd)
    else decodeStatus (cmd &&& ~~~replyBit) sts (uint16 [t₀, t₁]) rest
  | _ => .error (.replyTooShort raw.length)

/-! ### Parsed addresses -/

/-- The word that an address names is one of the first three of the element. -/
theorem FieldOf.subElement {ft : FileType} {i n : ℤ} (h : FieldOf ft i n) : 0 ≤ i ∧ i ≤ 2 := by
  cases h with
  | whole | bit => decide
  | word _ hi => omega

namespace Address

variable {a : Address}

theorem Valid.subElement (h : a.Valid) : 0 ≤ a.subElement ∧ a.subElement ≤ 2 :=
  h.field.subElement

theorem Valid.validateAddress (h : a.Valid) :
    validateAddress a.fileNumber a.element a.subElement = .ok () := by
  have hnumber := h.fileNumber
  have helement := h.element
  have hword := h.subElement
  rw [Pccc.validateAddress, if_neg (by omega), if_neg (by omega), if_neg (by omega)]

theorem Valid.encodeTypedRead (h : a.Valid) (tns : UInt16) {byteSize : ℤ} (h₁ : 1 ≤ byteSize)
    (h₂ : byteSize ≤ 255) :
    encodeTypedRead tns byteSize a.fileNumber a.fileType a.element a.subElement =
      .ok (commandHead tns funcProtectedTypedLogicalRead ++
        .ofInt byteSize :: addressFields a.fileNumber a.fileType a.element a.subElement) := by
  rw [Pccc.encodeTypedRead, h.validateAddress]
  exact if_neg (by omega)

theorem Valid.encodeTypedWrite (h : a.Valid) (tns : UInt16) {data : List UInt8} (hne : data ≠ [])
    (hlen : data.length ≤ 240) :
    encodeTypedWrite tns a.fileNumber a.fileType a.element a.subElement data =
      .ok (commandHead tns funcProtectedTypedLogicalWrite ++
        (addressFields a.fileNumber a.fileType a.element a.subElement ++ data)) := by
  rw [Pccc.encodeTypedWrite, h.validateAddress]
  refine (if_neg ?_).trans (if_neg (by omega))
  rwa [List.length_eq_zero_iff]

end Address

end GoIndustrial.Pccc
