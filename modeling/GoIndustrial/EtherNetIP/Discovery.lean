import GoIndustrial.EtherNetIP.Encap
import Mathlib.Data.List.DropRight
import Mathlib.Data.List.ReduceOption

/-!
# Replies to ListIdentity and ListServices

The decoders of `protocol/ethernetip/eip/discovery.go`. A reply is a count and items with a type and
a length. What the encoders write is read back.

## Main definitions

* `EtherNetIP.decodeListIdentityResponse`, `EtherNetIP.decodeListServicesResponse`.

## Main results

* `EtherNetIP.consumes_identityBytes`, `EtherNetIP.consumes_serviceBytes` : the bytes that an item
  is read from, whatever length it declares.
* `EtherNetIP.discovery_round_trip` : what is encoded is read back.
-/

namespace GoIndustrial.EtherNetIP

open LittleEndian ByteReader

/-! ### Decoders -/

/-- An identity item with the length that it was received with. -/
structure ReceivedIdentity extends ListIdentityItem where
  length : UInt16
  deriving DecidableEq, Repr

/-- A service item with the length that it was received with. -/
structure ReceivedService extends ListServicesItem where
  length : UInt16
  deriving DecidableEq, Repr

def readIdentityFields (typeID length : UInt16) : Reader ReceivedIdentity := do
  let encapsVersion ← uint16
  let socketAddr ← readArray 16
  let vendorID ← uint16
  let deviceType ← uint16
  let productCode ← uint16
  let revision ← readArray 2
  let status ← uint16
  let serialNumber ← uint32
  let nameLen ← uint8
  let productName ← readFull nameLen.toNat
  let state ← uint8
  return { typeID, length, encapsVersion, socketAddr, vendorID, deviceType, productCode, revision,
           status, serialNumber, productName, state }

/-- One round of the loop over the items; items of other types are skipped. -/
def readIdentityItem : Reader (Option ReceivedIdentity) := do
  let typeID ← uint16
  let length ← uint16
  if typeID = itemIDListIdentity then
    let item ← readIdentityFields typeID length
    return some item
  else
    let _ ← readFull length.toNat
    return none

def decodeListIdentityResponse (data : List UInt8) : Except ReadErr (List ReceivedIdentity) :=
  decode (do
    let count ← uint16
    let items ← readMany readIdentityItem count.toNat
    return items.reduceOption) data

/-- The name is read without the zeros at its end. -/
def decodeListServicesItem : Reader ReceivedService := do
  let typeID ← uint16
  let length ← uint16
  let version ← uint16
  let capabilityFlags ← uint16
  let nameBytes ← readFull 16
  return { typeID, length, version, capabilityFlags, name := nameBytes.rdropWhile (· == 0) }

def decodeListServicesResponse (data : List UInt8) : Except ReadErr (List ReceivedService) :=
  decode (do
    let count ← uint16
    readMany decodeListServicesItem count.toNat) data

/-! ### Items -/

/-- An identity item on the wire, with the length that it declares. -/
def identityBytes (item : ListIdentityItem) (length : UInt16) : List UInt8 :=
  putUint16 item.typeID ++ (putUint16 length ++ (putUint16 item.encapsVersion ++
    (item.socketAddr.toList ++ (putUint16 item.vendorID ++ (putUint16 item.deviceType ++
    (putUint16 item.productCode ++ (item.revision.toList ++ (putUint16 item.status ++
    (putUint32 item.serialNumber ++ ([UInt8.ofNat item.productName.length] ++
    (item.productName ++ [item.state])))))))))))

theorem length_identityBytes (item : ListIdentityItem) (length : UInt16) :
    (identityBytes item length).length = 38 + item.productName.length := by
  simp only [identityBytes, List.length_append, length_putUint16, length_putUint32,
    Vector.length_toList, List.length_singleton]
  omega

theorem consumes_identityBytes {item : ListIdentityItem} (htype : item.typeID = itemIDListIdentity)
    (hname : item.productName.length ≤ 255) (length : UInt16) :
    Consumes readIdentityItem (identityBytes item length) (some ⟨item, length⟩) := by
  have hlen : (UInt8.ofNat item.productName.length).toNat = item.productName.length := by
    rw [UInt8.toNat_ofNat']
    omega
  have hfull := consumes_readFull item.productName
  rw [← hlen] at hfull
  refine (consumes_uint16 _).bind <| (consumes_uint16 _).bind ?_
  rw [if_pos htype]
  refine Consumes.map ?_ some
  refine (consumes_uint16 _).bind <| (consumes_readArray _).bind <| (consumes_uint16 _).bind <|
    (consumes_uint16 _).bind <| (consumes_uint16 _).bind <| (consumes_readArray _).bind <|
    (consumes_uint16 _).bind <| (consumes_uint32 _).bind <| (consumes_uint8 _).bind <| hfull.bind ?_
  exact (consumes_uint8 _).map fun state => (⟨{ item with state }, length⟩ : ReceivedIdentity)

/-- A service item on the wire, with the length that it declares. -/
def serviceBytes (typeID length version capabilityFlags : UInt16) (name : Vector UInt8 16) :
    List UInt8 :=
  putUint16 typeID ++ (putUint16 length ++ (putUint16 version ++ (putUint16 capabilityFlags ++
    name.toList)))

/-- A service item as it is read. -/
def receivedService (typeID length version capabilityFlags : UInt16) (name : Vector UInt8 16) :
    ReceivedService :=
  ⟨⟨typeID, version, capabilityFlags, name.toList.rdropWhile (· == 0)⟩, length⟩

theorem consumes_serviceBytes (typeID length version capabilityFlags : UInt16)
    (name : Vector UInt8 16) :
    Consumes decodeListServicesItem (serviceBytes typeID length version capabilityFlags name)
      (receivedService typeID length version capabilityFlags name) := by
  have hfull := consumes_readFull name.toList
  rw [Vector.length_toList] at hfull
  refine (consumes_uint16 _).bind <| (consumes_uint16 _).bind <| (consumes_uint16 _).bind <|
    (consumes_uint16 _).bind ?_
  exact hfull.map fun nameBytes => (⟨⟨typeID, version, capabilityFlags,
    nameBytes.rdropWhile (· == 0)⟩, length⟩ : ReceivedService)

/-! ### Counts -/

/-- The count in front of the items. -/
theorem decode_count {α : Type} (q : ℕ → Reader α) {n : ℕ} (hn : n ≤ 65535) (bs : List UInt8) :
    decode (uint16 >>= fun count => q count.toNat) (putUint16 (UInt16.ofNat n) ++ bs) =
      decode (q n) bs := by
  rw [decode, (consumes_uint16 _).bind_apply, UInt16.toNat_ofNat', Nat.mod_eq_of_lt (by omega),
    decode]

theorem decodeListIdentityResponse_count {n : ℕ} (hn : n ≤ 65535) (bs : List UInt8) :
    decodeListIdentityResponse (putUint16 (UInt16.ofNat n) ++ bs) =
      decode (do return (← readMany readIdentityItem n).reduceOption) bs :=
  decode_count (fun n => do return (← readMany readIdentityItem n).reduceOption) hn bs

theorem decodeListServicesResponse_count {n : ℕ} (hn : n ≤ 65535) (bs : List UInt8) :
    decodeListServicesResponse (putUint16 (UInt16.ofNat n) ++ bs) =
      decode (readMany decodeListServicesItem n) bs :=
  decode_count (readMany decodeListServicesItem) hn bs

/-! ### What is encoded -/

theorem ListIdentityItem.encode_eq {item : ListIdentityItem}
    (h : item.productName.length ≤ 32) :
    item.encode = identityBytes item (UInt16.ofNat (34 + item.productName.length)) := by
  simp only [encode, identityBytes, List.take_of_length_le h, List.append_assoc]

/-- The name with zeros behind it. -/
def paddedName (name : List UInt8) : Vector UInt8 16 :=
  ⟨(name.take 16 ++ List.replicate (16 - name.length) 0).toArray, by
    simp only [List.size_toArray, List.length_append, List.length_take, List.length_replicate]
    omega⟩

theorem ListServicesItem.encode_eq (item : ListServicesItem) :
    item.encode =
      serviceBytes item.typeID 20 item.version item.capabilityFlags (paddedName item.name) := by
  simp only [encode, serviceBytes, paddedName, List.append_assoc]
  rfl

/-- Zeros behind a name that does not end in one are taken off again. -/
theorem rdropWhile_paddedName {name : List UInt8} (hlen : name.length ≤ 16)
    (hlast : name.getLast? ≠ some 0) :
    (paddedName name).toList.rdropWhile (· == 0) = name := by
  have hname : name.rdropWhile (· == 0) = name := by
    rw [List.rdropWhile_eq_self_iff]
    intro hne hzero
    rw [List.getLast?_eq_some_getLast hne] at hlast
    exact hlast (congrArg some (beq_iff_eq.mp hzero))
  have hzeros (n : ℕ) : (name ++ List.replicate n 0).rdropWhile (· == 0) = name := by
    induction n with
    | zero => rw [List.replicate_zero, List.append_nil, hname]
    | succ n ih =>
      rw [List.replicate_succ', ← List.append_assoc, List.rdropWhile_concat_pos _ _ _ rfl, ih]
  change (name.take 16 ++ List.replicate (16 - name.length) 0).rdropWhile (· == 0) = name
  rw [List.take_of_length_le hlen, hzeros]

theorem ListIdentityItem.length_encode {item : ListIdentityItem}
    (h : item.productName.length ≤ 32) :
    item.encode.length = 38 + item.productName.length := by
  rw [item.encode_eq h, length_identityBytes]

theorem ListServicesItem.length_encode (item : ListServicesItem) : item.encode.length = 24 := by
  rw [item.encode_eq]
  simp [serviceBytes]

/-- **What is encoded is read back**, with the length of the item behind its type and length
fields. -/
theorem discovery_round_trip :
    (∀ items : List ListIdentityItem, items.length ≤ 65535 →
      (∀ item ∈ items, item.typeID = itemIDListIdentity ∧ item.productName.length ≤ 32) →
      decodeListIdentityResponse (encodeListIdentityResponse items) =
        .ok (items.map fun item => ⟨item, UInt16.ofNat (item.encode.length - 4)⟩)) ∧
    ∀ items : List ListServicesItem, items.length ≤ 65535 →
      (∀ item ∈ items, item.name.length ≤ 16 ∧ item.name.getLast? ≠ some 0) →
      decodeListServicesResponse (encodeListServicesResponse items) =
        .ok (items.map fun item => ⟨item, UInt16.ofNat (item.encode.length - 4)⟩) := by
  refine ⟨fun items hcount hitems => ?_, fun items hcount hitems => ?_⟩
  · have hmany : Consumes (readMany readIdentityItem items.length)
        (items.flatMap ListIdentityItem.encode)
        (items.map fun item => some ⟨item, UInt16.ofNat (item.encode.length - 4)⟩) := by
      refine consumes_readMany_map fun item hitem => ?_
      obtain ⟨htype, hname⟩ := hitems item hitem
      have hlen : 34 + item.productName.length = item.encode.length - 4 := by
        rw [item.length_encode hname]
        omega
      rw [← hlen, item.encode_eq hname]
      exact consumes_identityBytes htype (by omega) _
    rw [encodeListIdentityResponse, decodeListIdentityResponse_count hcount, (hmany.map _).decode,
      List.reduceOption, List.filterMap_map]
    exact congrArg Except.ok (congrFun List.filterMap_eq_map' items)
  · have hmany : Consumes (readMany decodeListServicesItem items.length)
        (items.flatMap ListServicesItem.encode)
        (items.map fun item => ⟨item, UInt16.ofNat (item.encode.length - 4)⟩) := by
      refine consumes_readMany_map fun item hitem => ?_
      obtain ⟨hlen, hlast⟩ := hitems item hitem
      have hservice := consumes_serviceBytes item.typeID 20 item.version item.capabilityFlags
        (paddedName item.name)
      rw [receivedService, rdropWhile_paddedName hlen hlast, ← item.encode_eq] at hservice
      rw [item.length_encode]
      exact hservice
    rw [encodeListServicesResponse, decodeListServicesResponse_count hcount, hmany.decode]

end GoIndustrial.EtherNetIP
