import GoIndustrial.EtherNetIP.Encap
import GoIndustrial.EtherNetIP.Message

/-!
# Which byte strings are accepted

The decoders of `protocol/ethernetip` seen from the bytes: whether a byte string that is accepted is
the encoding of what it is decoded to, and whether what is encoded is read back.

The packet format and the router's responses have both, up to the length fields that their values
carry along. The router's requests have neither. Their path is read with the reader's own `Read`,
which is content with the bytes that are there and fails when there are none: a path that is cut
short is filled up with zeros, and a request with an empty path and no data is refused.

## Main definitions

* `EtherNetIP.RequestCanonical` : an accepted byte string is the encoding of the request.
* `EtherNetIP.CutPath` : the path is cut short.

## Main results

* `EtherNetIP.decodeMessageRouterRequest_exact_iff` : which requests are decoded as they should be.
* `EtherNetIP.decode_canonical` : packets and responses.
-/

namespace GoIndustrial.EtherNetIP

open LittleEndian ByteReader

/-! ### Requests -/

/-- If the byte string is accepted, it is the encoding of the request. -/
def RequestCanonical (data : List UInt8) : Prop :=
  ∀ r, decodeMessageRouterRequest data = .ok r → r.encode = data

/-- There is something behind the length byte, but less than it announces. -/
def CutPath : List UInt8 → Prop
  | _ :: words :: rest => rest ≠ [] ∧ rest.length < words.toNat * 2
  | _ => False

instance : DecidablePred CutPath := fun data => by
  unfold CutPath
  split <;> infer_instance

/-- The path has whole words, and no more of them than its length byte can count. -/
structure MessageRouterRequest.Encodable (r : MessageRouterRequest) : Prop where
  even : r.requestPath.length % 2 = 0
  short : r.requestPath.length ≤ 510

theorem lenWords_of_length {path : List UInt8} {words : UInt8}
    (h : path.length = words.toNat * 2) : lenWords path = words := by
  have hwords : words.toNat < 256 := words.toNat_lt
  apply UInt8.toNat_inj.mp
  rw [lenWords, h, UInt8.toNat_ofNat']
  omega

theorem decodeMessageRouterRequest_nil (service words : UInt8) :
    decodeMessageRouterRequest [service, words] = .error .eof := rfl

/-- Whatever is behind the length byte is accepted, as long as there is something. -/
theorem decodeMessageRouterRequest_cons (service words : UInt8) {rest : List UInt8}
    (h : rest ≠ []) :
    decodeMessageRouterRequest (service :: words :: rest) = .ok
      { service
        requestPath := rest.take (words.toNat * 2) ++
          List.replicate (words.toNat * 2 - rest.length) 0
        requestData := rest.drop (words.toNat * 2) } := by
  rw [decodeMessageRouterRequest, decode, readMessageRouterRequest, uint8_bind_cons,
    uint8_bind_cons, bind_apply (if_neg h), bind_apply (rest_apply _)]
  rfl

/-- What a request is encoded to that was decoded from `rest`. -/
theorem encode_of_read (service words : UInt8) (rest : List UInt8) :
    MessageRouterRequest.encode
      { service
        requestPath := rest.take (words.toNat * 2) ++
          List.replicate (words.toNat * 2 - rest.length) 0
        requestData := rest.drop (words.toNat * 2) } =
      service :: words :: (rest ++ List.replicate (words.toNat * 2 - rest.length) 0) := by
  have hlen : (rest.take (words.toNat * 2) ++
      List.replicate (words.toNat * 2 - rest.length) (0 : UInt8)).length = words.toNat * 2 := by
    rw [List.length_append, List.length_take, List.length_replicate]
    omega
  rw [MessageRouterRequest.encode, lenWords_of_length hlen]
  congr 2
  -- either there are no zeros, or nothing is left behind the path
  rcases Nat.le_total (words.toNat * 2) rest.length with hle | hle
  · rw [Nat.sub_eq_zero_of_le hle, List.replicate_zero, List.append_nil, List.append_nil,
      List.take_append_drop]
  · rw [List.take_of_length_le hle, List.drop_of_length_le hle, List.append_nil]

theorem requestCanonical_iff (data : List UInt8) : RequestCanonical data ↔ ¬ CutPath data := by
  match data with
  | [] => exact iff_of_true nofun id
  | [_] => exact iff_of_true nofun id
  | [service, words] => exact iff_of_true nofun fun h => h.1 rfl
  | service :: words :: b :: rest =>
    have hne : b :: rest ≠ [] := List.cons_ne_nil b rest
    rw [RequestCanonical, decodeMessageRouterRequest_cons service words hne]
    simp only [Except.ok.injEq, forall_eq', encode_of_read, CutPath, hne, ne_eq, not_false_eq_true,
      true_and, not_lt, List.cons.injEq, List.append_right_eq_self, List.replicate_eq_nil_iff,
      Nat.sub_eq_zero_iff_le]

theorem MessageRouterRequest.Encodable.decode_encode_iff {r : MessageRouterRequest}
    (h : r.Encodable) :
    decodeMessageRouterRequest r.encode = .ok r ↔ r.requestPath ++ r.requestData ≠ [] := by
  constructor
  · intro hok hnil
    rw [MessageRouterRequest.encode, hnil, decodeMessageRouterRequest_nil] at hok
    cases hok
  · exact fun hne => decodeMessageRouterRequest_encode ⟨h.even, h.short, hne⟩

/-- **Requests are decoded exactly** but for two kinds. A byte string that is accepted is the
encoding of the request, unless the path is cut short; and a request is read back from its
encoding, unless it has neither a path nor data. -/
theorem decodeMessageRouterRequest_exact_iff (data : List UInt8) (r : MessageRouterRequest)
    (h : r.Encodable) :
    (RequestCanonical data ↔ ¬ CutPath data) ∧
      (decodeMessageRouterRequest r.encode = .ok r ↔ r.requestPath ++ r.requestData ≠ []) :=
  ⟨requestCanonical_iff data, h.decode_encode_iff⟩

theorem decodeMessageRouterRequest_exact_identity :
    (RequestCanonical [0x01, 0x02, 0x20, 0x01, 0x24, 0x01] ↔
        ¬ CutPath [0x01, 0x02, 0x20, 0x01, 0x24, 0x01]) ∧
      (decodeMessageRouterRequest (MessageRouterRequest.encode ⟨0x01, [0x20, 0x01], []⟩) =
          .ok ⟨0x01, [0x20, 0x01], []⟩ ↔
        [0x20, 0x01] ++ ([] : List UInt8) ≠ []) :=
  decodeMessageRouterRequest_exact_iff _ ⟨0x01, [0x20, 0x01], []⟩ ⟨rfl, by decide⟩

/-- A path of two words of which one byte is there is accepted, and a request without path and
data is refused. -/
theorem decodeMessageRouterRequest_inexact :
    decodeMessageRouterRequest [0x01, 0x02, 0x20] = .ok ⟨0x01, [0x20, 0x00, 0x00, 0x00], []⟩ ∧
      ¬ RequestCanonical [0x01, 0x02, 0x20] ∧
      MessageRouterRequest.Encodable ⟨0x01, [], []⟩ ∧
      decodeMessageRouterRequest (MessageRouterRequest.encode ⟨0x01, [], []⟩) = .error .eof := by
  refine ⟨rfl, fun h => ?_, ⟨rfl, by decide⟩, rfl⟩
  exact absurd (h ⟨0x01, [0x20, 0x00, 0x00, 0x00], []⟩ rfl) (by decide)

/-! ### Packets -/

theorem decodeCPFItem_eq_ok {bs : List UInt8} {item : CPFItem} {rest : List UInt8} :
    decodeCPFItem bs = .ok (item, rest) ↔ item.IsExact ∧ bs = item.encode ++ rest := by
  constructor
  · intro h
    obtain ⟨typeID, mid₁, htype, h⟩ := bind_eq_ok.mp h
    obtain ⟨length, mid₂, hlength, h⟩ := bind_eq_ok.mp h
    obtain ⟨data, mid₃, hdata, h⟩ := bind_eq_ok.mp h
    obtain ⟨rfl, rfl⟩ := pure_eq_ok.mp h
    obtain ⟨hlen, rfl⟩ := readFull_eq_ok.mp hdata
    have hexact : CPFItem.IsExact ⟨typeID, length, data⟩ := hlen.symm
    rw [uint16_eq_ok.mp htype, uint16_eq_ok.mp hlength, hexact.encode_eq]
    simp only [List.append_assoc, and_true]
    exact hexact
  · rintro ⟨hexact, rfl⟩
    exact consumes_decodeCPFItem hexact rest

/-- What was read when a packet is accepted. -/
theorem readCommonPacketFormat_eq_ok {bs : List UInt8} {cpf : CommonPacketFormat}
    {rest : List UInt8} (h : readCommonPacketFormat bs = .ok (cpf, rest)) :
    cpf.itemCount.toNat = cpf.items.length ∧ (∀ item ∈ cpf.items, item.IsExact) ∧
      bs = cpf.encode ++ rest := by
  obtain ⟨itemCount, mid₁, hcount, h⟩ := bind_eq_ok.mp h
  obtain ⟨remaining, mid₂, hremaining, h⟩ := bind_eq_ok.mp h
  cases hremaining
  split_ifs at h
  · exact absurd h lift_error_ne_ok
  · obtain ⟨items, mid₃, hitems, h⟩ := bind_eq_ok.mp h
    obtain ⟨rfl, rfl⟩ := pure_eq_ok.mp h
    obtain ⟨hlen, hexact, rfl⟩ := (readMany_eq_ok decodeCPFItem_eq_ok).mp hitems
    refine ⟨hlen.symm, hexact, ?_⟩
    rw [uint16_eq_ok.mp hcount, CommonPacketFormat.encode, List.append_assoc]

/-! ### Responses -/

theorem encode_of_decodeMessageRouterResponse {data : List UInt8} {r : MessageRouterResponse}
    (h : decodeMessageRouterResponse data = .ok r) : r.IsExact ∧ r.encode = data := by
  obtain ⟨rest, h⟩ := decode_eq_ok.mp h
  obtain ⟨service, mid₁, hservice, h⟩ := bind_eq_ok.mp h
  obtain ⟨reserved, mid₂, hreserved, h⟩ := bind_eq_ok.mp h
  obtain ⟨generalStatus, mid₃, hstatus, h⟩ := bind_eq_ok.mp h
  obtain ⟨extStatusSize, mid₄, hsize, h⟩ := bind_eq_ok.mp h
  obtain ⟨extStatus, mid₅, hext, h⟩ := bind_eq_ok.mp h
  obtain ⟨responseData, mid₆, hdata, h⟩ := bind_eq_ok.mp h
  obtain ⟨rfl, rfl⟩ := pure_eq_ok.mp h
  rw [rest_apply] at hdata
  cases hdata
  have hword {bs : List UInt8} {x : UInt16} {rest : List UInt8} :
      ByteReader.uint16 bs = .ok (x, rest) ↔ True ∧ bs = putUint16 x ++ rest := by
    rw [uint16_eq_ok, true_and]
  obtain ⟨hlen, -, rfl⟩ := (readMany_eq_ok hword).mp hext
  refine ⟨hlen.symm, ?_⟩
  rw [uint8_eq_ok.mp hservice, uint8_eq_ok.mp hreserved, uint8_eq_ok.mp hstatus,
    uint8_eq_ok.mp hsize, MessageRouterResponse.encode]

/-- **Packets and responses are canonical.** A packet that is accepted is encoded to the bytes that
were read, and a response to the whole byte string; and every packet and response whose length
fields are exact is read back from its encoding. -/
theorem decode_canonical :
    (∀ data cpf, decodeCommonPacketFormat data = .ok cpf →
      newCommonPacketFormat cpf.items = cpf ∧
        ∃ rest, readCommonPacketFormat data = .ok (cpf, rest) ∧ data = cpf.encode ++ rest) ∧
    (∀ items : List CPFItem, items.length ≤ 65535 → (∀ item ∈ items, item.IsExact) →
      decodeCommonPacketFormat (newCommonPacketFormat items).encode =
        .ok (newCommonPacketFormat items)) ∧
    (∀ data r, decodeMessageRouterResponse data = .ok r → r.encode = data) ∧
    ∀ r : MessageRouterResponse, r.IsExact →
      decodeMessageRouterResponse r.encode = .ok r := by
  refine ⟨fun data cpf h => ?_, fun items hcount hexact => ?_, fun data r h =>
    (encode_of_decodeMessageRouterResponse h).2, fun r => decodeMessageRouterResponse_encode⟩
  · obtain ⟨rest, h⟩ := decode_eq_ok.mp h
    obtain ⟨hcount, -, hdata⟩ := readCommonPacketFormat_eq_ok h
    refine ⟨?_, rest, h, hdata⟩
    rw [newCommonPacketFormat, ← hcount, UInt16.ofNat_toNat]
  · simpa using decodeCommonPacketFormat_encode (Nat.lt_succ_of_le hcount) hexact []

/-- A response whose size field does not count its status word is read back without it. -/
theorem decodeMessageRouterResponse_inexact :
    decodeMessageRouterResponse (MessageRouterResponse.encode ⟨0xCC, 0, 0x01, 0, [0x0109], []⟩) =
        .ok ⟨0xCC, 0, 0x01, 0, [], [0x09, 0x01]⟩ ∧
      decodeMessageRouterResponse (MessageRouterResponse.encode ⟨0xCC, 0, 0x01, 0, [0x0109], []⟩) ≠
        .ok ⟨0xCC, 0, 0x01, 0, [0x0109], []⟩ := by
  decide +kernel

end GoIndustrial.EtherNetIP
