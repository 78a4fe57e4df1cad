import GoIndustrial.Lib.ByteReader
import GoIndustrial.Lib.GoSlice

/-!
# Message router requests and responses

The explicit messages of `protocol/ethernetip/cip`: a request has a service, a path and data, a
response has the reply service, a general status, extended status words and data.

## Main definitions

* `EtherNetIP.MessageRouterRequest`, `EtherNetIP.MessageRouterResponse` : with their encoders.
* `EtherNetIP.decodeMessageRouterRequest`, `EtherNetIP.decodeMessageRouterResponse`.
* `EtherNetIP.Err` : the errors that the functions of the package return.

## Main results

* `EtherNetIP.decodeMessageRouterRequest_encode`, `EtherNetIP.decodeMessageRouterResponse_encode` :
  messages read back from their encoding.
-/

namespace GoIndustrial.EtherNetIP

open LittleEndian ByteReader

/-! ### Errors -/

def statusPathSegmentError : UInt8 := 0x04
def statusConnectionFailure : UInt8 := 0x01
def statusServiceNotSupported : UInt8 := 0x08
def statusInvalidAttributeValue : UInt8 := 0x09
def statusAttributeNotSupported : UInt8 := 0x14
def statusObjectDoesNotExist : UInt8 := 0x16

/-- `cip.Error`. -/
structure CipError where
  status : UInt8
  extStatus : List UInt16
  deriving DecidableEq, Repr

/-- An error value: a CIP error, or another one. -/
inductive Err
  | cip (e : CipError)
  | read (e : ReadErr)
  | other (text : String)
  deriving DecidableEq, Repr

/-- The result of a decoder, which does not panic. -/
def liftRead {α : Type} : Except ReadErr α → Except (Fault Err) α
  | .ok a => .ok a
  | .error e => .error (.error (.read e))

/-- Return a CIP error without extended status. -/
def throwStatus {α : Type} (status : UInt8) : Except (Fault Err) α :=
  .error (.error (.cip ⟨status, []⟩))

/-! ### Paths -/

/-- A logical segment of the type, with a number of 8 or 16 bits. -/
def logicalSegment (logicalType : UInt8) (id : UInt16) : List UInt8 :=
  if id ≤ 0xFF then [0x20 ||| logicalType, id.toUInt8]
  else [0x20 ||| logicalType ||| 0x01, 0x00] ++ putUint16 id

def addClass (path : List UInt8) (classID : UInt16) : List UInt8 :=
  path ++ logicalSegment 0x00 classID

def addInstance (path : List UInt8) (instanceID : UInt16) : List UInt8 :=
  path ++ logicalSegment 0x04 instanceID

/-- Numbers of more than 16 bits have a format of their own. -/
def addInstance32 (path : List UInt8) (instanceID : UInt32) : List UInt8 :=
  if instanceID ≤ 0xFFFF then addInstance path instanceID.toUInt16
  else path ++ [0x26, 0x00] ++ putUint32 instanceID

/-! ### Requests -/

structure MessageRouterRequest where
  service : UInt8
  requestPath : List UInt8
  requestData : List UInt8
  deriving DecidableEq, Repr

/-- `Path.LenWords`: the length of a path in words, cut to a byte. -/
def lenWords (path : List UInt8) : UInt8 := UInt8.ofNat ((path.length + 1) / 2)

def MessageRouterRequest.encode (r : MessageRouterRequest) : List UInt8 :=
  r.service :: lenWords r.requestPath :: (r.requestPath ++ r.requestData)

/-- A path that is not all there is filled up with zeros. -/
def readMessageRouterRequest : Reader MessageRouterRequest := do
  let service ← uint8
  let pathSizeWords ← uint8
  let requestPath ← read (pathSizeWords.toNat * 2)
  let requestData ← rest
  return { service, requestPath, requestData }

def decodeMessageRouterRequest (data : List UInt8) : Except ReadErr MessageRouterRequest :=
  decode readMessageRouterRequest data

/-- The path has whole words and no more of them than its length byte can count, and there is
something behind that byte. -/
structure MessageRouterRequest.WellFormed (r : MessageRouterRequest) : Prop where
  even : r.requestPath.length % 2 = 0
  short : r.requestPath.length ≤ 510
  nonempty : r.requestPath ++ r.requestData ≠ []

/-- A request is read back. -/
theorem decodeMessageRouterRequest_encode {r : MessageRouterRequest} (h : r.WellFormed) :
    decodeMessageRouterRequest r.encode = .ok r := by
  have heven := h.even
  have hshort := h.short
  have hwords : (lenWords r.requestPath).toNat * 2 = r.requestPath.length := by
    rw [lenWords, UInt8.toNat_ofNat']
    omega
  have hread : readMessageRouterRequest r.encode = .ok (r, []) := by
    rw [readMessageRouterRequest, MessageRouterRequest.encode, uint8_bind_cons, uint8_bind_cons,
      hwords, bind_apply (read_append _ _ h.nonempty), bind_apply (rest_apply _)]
    rfl
  rw [decodeMessageRouterRequest, decode, hread]
  rfl

/-! ### Responses -/

structure MessageRouterResponse where
  service : UInt8
  reserved : UInt8
  generalStatus : UInt8
  extStatusSize : UInt8
  extStatus : List UInt16
  responseData : List UInt8
  deriving DecidableEq, Repr

namespace MessageRouterResponse

def encode (r : MessageRouterResponse) : List UInt8 :=
  r.service :: r.reserved :: r.generalStatus :: r.extStatusSize ::
    (r.extStatus.flatMap putUint16 ++ r.responseData)

def isSuccess (r : MessageRouterResponse) : Bool := r.generalStatus == 0

/-- `r.Error()`, `none` being success. -/
def error (r : MessageRouterResponse) : Option CipError :=
  if r.isSuccess then none else some ⟨r.generalStatus, r.extStatus⟩

/-- The size field counts the extended status words. -/
def IsExact (r : MessageRouterResponse) : Prop := r.extStatusSize.toNat = r.extStatus.length

theorem length_encode (r : MessageRouterResponse) :
    r.encode.length = 4 + 2 * r.extStatus.length + r.responseData.length := by
  have hwords : (r.extStatus.flatMap putUint16).length = 2 * r.extStatus.length := by
    simp [List.length_flatMap, Nat.mul_comm]
  simp only [encode, List.length_cons, List.length_append, hwords]
  omega

end MessageRouterResponse

def readMessageRouterResponse : Reader MessageRouterResponse := do
  let service ← uint8
  let reserved ← uint8
  let generalStatus ← uint8
  let extStatusSize ← uint8
  let extStatus ← readMany uint16 extStatusSize.toNat
  let responseData ← rest
  return { service, reserved, generalStatus, extStatusSize, extStatus, responseData }

def decodeMessageRouterResponse (data : List UInt8) : Except ReadErr MessageRouterResponse :=
  decode readMessageRouterResponse data

/-- A response is read back. -/
theorem decodeMessageRouterResponse_encode {r : MessageRouterResponse} (h : r.IsExact) :
    decodeMessageRouterResponse r.encode = .ok r := by
  have hwords : Consumes (readMany uint16 r.extStatusSize.toNat) (r.extStatus.flatMap putUint16)
      r.extStatus := by
    rw [h]
    exact consumes_readMany fun x _ => consumes_uint16 x
  have hread : readMessageRouterResponse r.encode = .ok (r, []) := by
    rw [readMessageRouterResponse, MessageRouterResponse.encode, uint8_bind_cons, uint8_bind_cons,
      uint8_bind_cons, uint8_bind_cons, hwords.bind_apply,
      bind_apply (rest_apply _)]
    rfl
  rw [decodeMessageRouterResponse, decode, hread]
  rfl

end GoIndustrial.EtherNetIP
