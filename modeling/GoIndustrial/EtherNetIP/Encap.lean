import GoIndustrial.Lib.ByteReader

/-!
# Encapsulation headers and the common packet format

The wire formats of `protocol/ethernetip/eip`: the 24-byte header in front of every packet, the
items of the common packet format (CPF) inside `SendRRData` and `SendUnitData`, and the replies to
`ListIdentity` and `ListServices`. All words are little-endian. Strings are byte strings.

## Main definitions

* `EtherNetIP.EncapsulationHeader`, `EtherNetIP.CommonPacketFormat` : with their encoders.
* `EtherNetIP.decodeHeader`, `EtherNetIP.decodeCommonPacketFormat` : the decoders.

## Main results

* `EtherNetIP.consumes_decodeHeader` : a header read back from a stream.
* `EtherNetIP.decodeCommonPacketFormat_encode` : items read back, whatever follows them.
-/

namespace GoIndustrial.EtherNetIP

open LittleEndian ByteReader

/-! ### Headers -/

def commandListServices : UInt16 := 0x0004
def commandListIdentity : UInt16 := 0x0063
def commandRegisterSession : UInt16 := 0x0065
def commandUnregisterSession : UInt16 := 0x0066
def commandSendRRData : UInt16 := 0x006F
def commandSendUnitData : UInt16 := 0x0070

def statusSuccess : UInt32 := 0x00000000
def statusInvalidCommand : UInt32 := 0x00000001
def statusInvalidSessionHandle : UInt32 := 0x00000064

def headerSize : ℕ := 24

structure EncapsulationHeader where
  command : UInt16
  /-- The length of the data behind the header. -/
  length : UInt16
  sessionHandle : UInt32
  status : UInt32
  senderContext : Vector UInt8 8
  options : UInt32
  deriving DecidableEq, Repr

namespace EncapsulationHeader

def encode (h : EncapsulationHeader) : List UInt8 :=
  putUint16 h.command ++ putUint16 h.length ++ putUint32 h.sessionHandle ++ putUint32 h.status ++
    h.senderContext.toList ++ putUint32 h.options

@[simp] theorem length_encode (h : EncapsulationHeader) : h.encode.length = headerSize := by
  simp [encode, headerSize]

end EncapsulationHeader

/-- The fields of a header, one after the other. -/
def headerFields : Reader EncapsulationHeader := do
  let command ← uint16
  let length ← uint16
  let sessionHandle ← uint32
  let status ← uint32
  let senderContext ← readArray 8
  let options ← uint32
  return { command, length, sessionHandle, status, senderContext, options }

/-- `EncapsulationHeader.Decode`: `binary.Read` reads all bytes of the header at once. -/
def decodeHeader : Reader EncapsulationHeader := do
  let bs ← readFull headerSize
  lift (decode headerFields bs)

theorem consumes_headerFields (h : EncapsulationHeader) : Consumes headerFields h.encode h := by
  simp only [EncapsulationHeader.encode, List.append_assoc]
  refine (consumes_uint16 _).bind <| (consumes_uint16 _).bind <| (consumes_uint32 _).bind <|
    (consumes_uint32 _).bind <| (consumes_readArray _).bind ?_
  exact (consumes_uint32 _).map fun options => { h with options }

/-- A header is read back. -/
theorem consumes_decodeHeader (h : EncapsulationHeader) : Consumes decodeHeader h.encode h := by
  intro tail
  have hfull := consumes_readFull h.encode
  rw [h.length_encode] at hfull
  rw [decodeHeader, hfull.bind_apply, (consumes_headerFields h).decode]
  rfl

/-! ### The common packet format -/

def itemIDNullAddress : UInt16 := 0x0000
def itemIDListIdentity : UInt16 := 0x000C
def itemIDConnectedAddress : UInt16 := 0x00A1
def itemIDConnectedData : UInt16 := 0x00B1
def itemIDUnconnectedMessage : UInt16 := 0x00B2
def itemIDListServices : UInt16 := 0x0100

structure CPFItem where
  typeID : UInt16
  length : UInt16
  data : List UInt8
  deriving DecidableEq, Repr

/-- The length is cut to 16 bits. -/
def newCPFItem (typeID : UInt16) (data : List UInt8) : CPFItem :=
  ⟨typeID, UInt16.ofNat data.length, data⟩

def CPFItem.encode (item : CPFItem) : List UInt8 :=
  putUint16 item.typeID ++ putUint16 item.length ++ if item.length > 0 then item.data else []

structure CommonPacketFormat where
  itemCount : UInt16
  items : List CPFItem
  deriving DecidableEq, Repr

def newCommonPacketFormat (items : List CPFItem) : CommonPacketFormat :=
  ⟨UInt16.ofNat items.length, items⟩

def CommonPacketFormat.encode (cpf : CommonPacketFormat) : List UInt8 :=
  putUint16 cpf.itemCount ++ cpf.items.flatMap CPFItem.encode

def decodeCPFItem : Reader CPFItem := do
  let typeID ← uint16
  let length ← uint16
  let data ← readFull length.toNat
  return { typeID, length, data }

def readCommonPacketFormat : Reader CommonPacketFormat := do
  let itemCount ← uint16
  let remaining ← ByteReader.remaining
  let needed := 4 * itemCount.toNat
  if remaining < needed then
    lift (.error (.refused (s!"cpf: item count {itemCount} requires at least {needed} bytes " ++
      s!"but only {remaining} remain")))
  else
    let items ← readMany decodeCPFItem itemCount.toNat
    return { itemCount, items }

def decodeCommonPacketFormat (data : List UInt8) : Except ReadErr CommonPacketFormat :=
  decode readCommonPacketFormat data

/-- The first item with the type. -/
def CommonPacketFormat.findItemByType (cpf : CommonPacketFormat) (typeID : UInt16) :
    Option CPFItem :=
  cpf.items.find? fun item => item.typeID == typeID

/-- The length field is the length of the data. -/
def CPFItem.IsExact (item : CPFItem) : Prop := item.length.toNat = item.data.length

theorem isExact_newCPFItem {typeID : UInt16} {data : List UInt8} (h : data.length < 65536) :
    (newCPFItem typeID data).IsExact := by
  rw [CPFItem.IsExact, newCPFItem, UInt16.toNat_ofNat', Nat.mod_eq_of_lt h]

theorem CPFItem.IsExact.encode_eq {item : CPFItem} (h : item.IsExact) :
    item.encode = putUint16 item.typeID ++ (putUint16 item.length ++ item.data) := by
  have hdata : (if item.length > 0 then item.data else []) = item.data := by
    split_ifs with hpos
    · rfl
    · rw [gt_iff_lt, UInt16.lt_iff_toNat_lt, h] at hpos
      exact (List.length_eq_zero_iff.mp (Nat.le_zero.mp (Nat.not_lt.mp hpos))).symm
  rw [CPFItem.encode, hdata, List.append_assoc]

theorem consumes_decodeCPFItem {item : CPFItem} (h : item.IsExact) :
    Consumes decodeCPFItem item.encode item := by
  have hfull := consumes_readFull item.data
  rw [← h] at hfull
  rw [h.encode_eq]
  refine (consumes_uint16 _).bind ((consumes_uint16 _).bind ?_)
  exact hfull.map fun data => { item with data }

theorem le_length_flatMap_encode (items : List CPFItem) :
    4 * items.length ≤ (items.flatMap CPFItem.encode).length := by
  induction items with
  | nil => simp
  | cons item items ih =>
    rw [List.flatMap_cons, List.length_append, List.length_cons]
    have hitem : 4 ≤ item.encode.length := by
      simp only [CPFItem.encode, List.length_append, length_putUint16]
      omega
    omega

/-- **Items are read back**, whatever follows them. -/
theorem decodeCommonPacketFormat_encode {items : List CPFItem} (hcount : items.length < 65536)
    (hexact : ∀ item ∈ items, item.IsExact) (tail : List UInt8) :
    decodeCommonPacketFormat ((newCommonPacketFormat items).encode ++ tail) =
      .ok (newCommonPacketFormat items) := by
  have hlen : (UInt16.ofNat items.length).toNat = items.length := by
    rw [UInt16.toNat_ofNat', Nat.mod_eq_of_lt hcount]
  have hmany := consumes_readMany fun item hitem => consumes_decodeCPFItem (hexact item hitem)
  have hle := le_length_flatMap_encode items
  have hread : readCommonPacketFormat ((newCommonPacketFormat items).encode ++ tail) =
      .ok (newCommonPacketFormat items, tail) := by
    rw [CommonPacketFormat.encode, List.append_assoc]
    refine ((consumes_uint16 _).bind_apply _).trans ?_
    change (if (items.flatMap CPFItem.encode ++ tail).length < 4 * (UInt16.ofNat _).toNat
      then _ else _ : Reader CommonPacketFormat) _ = _
    rw [if_neg (by rw [hlen, List.length_append]; omega), newCommonPacketFormat]
    dsimp only
    rw [hlen, hmany.bind_apply]
    rfl
  rw [decodeCommonPacketFormat, decode, hread]
  rfl

/-! ### Discovery replies -/

structure ListIdentityItem where
  typeID : UInt16
  encapsVersion : UInt16
  socketAddr : Vector UInt8 16
  vendorID : UInt16
  deviceType : UInt16
  productCode : UInt16
  revision : Vector UInt8 2
  status : UInt16
  serialNumber : UInt32
  productName : List UInt8
  state : UInt8
  deriving DecidableEq, Repr

/-- Names longer than 32 bytes are cut. -/
def ListIdentityItem.encode (item : ListIdentityItem) : List UInt8 :=
  let nameBytes := item.productName.take 32
  putUint16 item.typeID ++ putUint16 (UInt16.ofNat (34 + nameBytes.length)) ++
    putUint16 item.encapsVersion ++ item.socketAddr.toList ++ putUint16 item.vendorID ++
    putUint16 item.deviceType ++ putUint16 item.productCode ++ item.revision.toList ++
    putUint16 item.status ++ putUint32 item.serialNumber ++ [UInt8.ofNat nameBytes.length] ++
    nameBytes ++ [item.state]

def encodeListIdentityResponse (items : List ListIdentityItem) : List UInt8 :=
  putUint16 (UInt16.ofNat items.length) ++ items.flatMap ListIdentityItem.encode

structure ListServicesItem where
  typeID : UInt16
  version : UInt16
  capabilityFlags : UInt16
  name : List UInt8
  deriving DecidableEq, Repr

/-- The name is cut or padded to 16 bytes. -/
def ListServicesItem.encode (item : ListServicesItem) : List UInt8 :=
  putUint16 item.typeID ++ putUint16 20 ++ putUint16 item.version ++
    putUint16 item.capabilityFlags ++ item.name.take 16 ++
    List.replicate (16 - item.name.length) 0

def encodeListServicesResponse (items : List ListServicesItem) : List UInt8 :=
  putUint16 (UInt16.ofNat items.length) ++ items.flatMap ListServicesItem.encode

end GoIndustrial.EtherNetIP
