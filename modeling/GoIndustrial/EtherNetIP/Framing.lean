import GoIndustrial.EtherNetIP.Session

/-!
# Streams of encapsulation frames

`TCPConn.Send` writes a header and then the whole payload; the header has the length of the payload
in 16 bits. `TCPConn.Receive` reads a header and then as many bytes as it announces. A payload of
65536 bytes or more is announced with its length modulo 65536, so `Receive` returns the beginning of
it, and what it takes for the next header is the rest of the payload. `Send` does not refuse such a
payload.

## Main definitions

* `EtherNetIP.sendAll`, `EtherNetIP.receiveMany` : frames written and read one after the other.
* `EtherNetIP.Lossless` : the stream of the frames is read back.

## Main results

* `EtherNetIP.receive_send` : what is read of one frame, and what is left of it.
* `EtherNetIP.lossless_iff` : the stream is read back if and only if every length fits 16 bits.
-/

namespace GoIndustrial.EtherNetIP

open ByteReader LittleEndian

/-- The arguments of a call of `Send`. -/
structure SentFrame where
  command : UInt16
  sessionHandle : UInt32
  payload : List UInt8
  deriving DecidableEq, Repr

/-- The bytes of calls of `Send`, one after the other. -/
def sendAll (frames : List SentFrame) : List UInt8 :=
  frames.flatMap fun f => send f.command f.payload f.sessionHandle

/-- Calls of `Receive`, one after the other: what they return, and the bytes left. -/
def receiveMany : ℕ → List UInt8 →
    Except SessionErr (List (EncapsulationHeader × List UInt8) × List UInt8)
  | 0, input => .ok ([], input)
  | n + 1, input => do
    let (header, data, input) ← receive input
    let (packets, input) ← receiveMany n input
    return ((header, data) :: packets, input)

/-- What a packet shows of the frame that was sent. -/
def SentFrame.ofPacket (packet : EncapsulationHeader × List UInt8) : SentFrame :=
  ⟨packet.1.command, packet.1.sessionHandle, packet.2⟩

/-- As many calls of `Receive` as there were calls of `Send` return the commands, the handles and
the payloads in order, and leave nothing. -/
def Lossless (frames : List SentFrame) : Prop :=
  ∃ packets, receiveMany frames.length (sendAll frames) = .ok (packets, []) ∧
    packets.map SentFrame.ofPacket = frames

theorem sendHeader_length (cmd : UInt16) (data : List UInt8) (handle : UInt32) :
    (sendHeader cmd data handle).length.toNat = data.length % 65536 := UInt16.toNat_ofNat'

/-- **What is read of a frame**: its length modulo 65536 of the payload; the rest of the payload is
left in front of what follows. -/
theorem receive_send (cmd : UInt16) (data : List UInt8) (handle : UInt32) (tail : List UInt8) :
    receive (send cmd data handle ++ tail) =
      .ok (sendHeader cmd data handle, data.take (data.length % 65536),
        data.drop (data.length % 65536) ++ tail) := by
  have hlen : (sendHeader cmd data handle).length.toNat =
      (data.take (data.length % 65536)).length := by
    rw [sendHeader_length, List.length_take, Nat.min_eq_left (Nat.mod_le _ _)]
  have h := receive_encode hlen (data.drop (data.length % 65536) ++ tail)
  rw [List.append_assoc, ← List.append_assoc (List.take _ _), List.take_append_drop] at h
  rw [send, List.append_assoc, h]

theorem receiveMany_succ {n : ℕ} {input rest : List UInt8} {header : EncapsulationHeader}
    {data : List UInt8} (h : receive input = .ok (header, data, rest)) :
    receiveMany (n + 1) input =
      (receiveMany n rest).map fun r => ((header, data) :: r.1, r.2) := by
  rw [receiveMany, h]
  simp only [bind, Except.bind]
  cases receiveMany n rest <;> rfl

theorem sendAll_cons (f : SentFrame) (frames : List SentFrame) :
    sendAll (f :: frames) = send f.command f.payload f.sessionHandle ++ sendAll frames :=
  List.flatMap_cons

/-- The first frame is read back, and then the others are. -/
theorem Lossless.cons {f : SentFrame} {frames : List SentFrame} (hf : f.payload.length < 65536)
    (h : Lossless frames) : Lossless (f :: frames) := by
  obtain ⟨packets, hreceive, hpackets⟩ := h
  have hfirst := receive_send f.command f.payload f.sessionHandle (sendAll frames)
  rw [Nat.mod_eq_of_lt hf, List.take_length, List.drop_length, List.nil_append] at hfirst
  refine ⟨(sendHeader f.command f.payload f.sessionHandle, f.payload) :: packets, ?_, ?_⟩
  · rw [sendAll_cons, List.length_cons, receiveMany_succ hfirst, hreceive]
    rfl
  · rw [List.map_cons, hpackets]
    rfl

/-- A stream that is read back begins with a frame whose length fits 16 bits. -/
theorem Lossless.of_cons {f : SentFrame} {frames : List SentFrame} (h : Lossless (f :: frames)) :
    f.payload.length < 65536 ∧ Lossless frames := by
  obtain ⟨packets, hreceive, hpackets⟩ := h
  have hfirst := receive_send f.command f.payload f.sessionHandle (sendAll frames)
  rw [sendAll_cons, List.length_cons, receiveMany_succ hfirst] at hreceive
  match hrest : receiveMany frames.length
      (f.payload.drop (f.payload.length % 65536) ++ sendAll frames), hreceive with
  | .ok (others, left), hreceive =>
    obtain ⟨rfl, rfl⟩ := Prod.mk.inj (Except.ok.inj hreceive)
    obtain ⟨hf, hothers⟩ := List.cons.inj hpackets
    -- A shorter prefix of the payload is not the payload.
    have htake : f.payload.take (f.payload.length % 65536) = f.payload :=
      congrArg SentFrame.payload hf
    have hmod : f.payload.length ≤ f.payload.length % 65536 := List.take_eq_self_iff _ |>.mp htake
    have hlt : f.payload.length < 65536 :=
      Nat.lt_of_le_of_lt hmod (Nat.mod_lt _ (by omega))
    rw [Nat.mod_eq_of_lt hlt, List.drop_length, List.nil_append] at hrest
    exact ⟨hlt, others, hrest, hothers⟩
  | .error _, hreceive => cases hreceive

/-- **The stream of any list of frames is read back if and only if every payload has fewer than
65536 bytes.** -/
theorem lossless_iff (frames : List SentFrame) :
    Lossless frames ↔ ∀ f ∈ frames, f.payload.length < 65536 := by
  induction frames with
  | nil => exact ⟨fun _ _ hf => absurd hf List.not_mem_nil, fun _ => ⟨[], rfl, rfl⟩⟩
  | cons f frames ih =>
    rw [List.forall_mem_cons]
    constructor
    · intro h
      exact ⟨h.of_cons.1, ih.mp h.of_cons.2⟩
    · rintro ⟨hf, h⟩
      exact (ih.mpr h).cons hf

/-- The header that is read from the items of a request of 65520 bytes which begins with zeros. -/
def strayHeader : EncapsulationHeader :=
  ⟨0, 0, 0x00020000, 0, #v[0xB2, 0, 0xF0, 0xFF, 0, 0, 0, 0], 0⟩

theorem unconnectedData_eq_strayHeader {rest : List UInt8} (h : rest.length = 65512) :
    unconnectedData (List.replicate 8 0 ++ rest) = strayHeader.encode ++ rest := by
  have hlen : UInt16.ofNat (List.replicate 8 (0 : UInt8) ++ rest).length = 0xFFF0 := by
    rw [List.length_append, List.length_replicate, h]
    rfl
  have hitem : (newCPFItem itemIDUnconnectedMessage (List.replicate 8 0 ++ rest)).encode =
      putUint16 itemIDUnconnectedMessage ++ putUint16 0xFFF0 ++ (List.replicate 8 0 ++ rest) := by
    rw [CPFItem.encode, newCPFItem, hlen]
    rfl
  simp only [unconnectedData, envelope, CommonPacketFormat.encode, newCommonPacketFormat,
    List.flatMap_cons, List.flatMap_nil, List.length_cons, List.length_nil, hitem]
  simp only [List.append_nil, ← List.append_assoc]
  exact congrArg (· ++ rest) (by decide +kernel)

/-- The frame of a request of 65520 bytes has a payload of 65536 bytes and announces none, and its
items are read as the next header. -/
theorem receiveMany_request_of_65520_bytes :
    let frame : SentFrame := ⟨commandSendRRData, 1, unconnectedData (List.replicate 65520 0)⟩
    ¬ Lossless [frame] ∧ receiveMany 2 (sendAll [frame]) =
      .ok ([(sendHeader commandSendRRData [] 1, []), (strayHeader, [])],
        List.replicate 65512 0) := by
  intro frame
  have hreq : List.replicate 65520 (0 : UInt8) = List.replicate 8 0 ++ List.replicate 65512 0 := by
    rw [List.replicate_append_replicate]
  have hpayload : frame.payload = strayHeader.encode ++ List.replicate 65512 0 := by
    rw [← unconnectedData_eq_strayHeader List.length_replicate, ← hreq]
  have hlen : frame.payload.length = 65536 := by
    rw [hpayload, List.length_append, EncapsulationHeader.length_encode, List.length_replicate]
    rfl
  refine ⟨fun h => ?_, ?_⟩
  · have hlt := h.of_cons.1
    omega
  · have hfirst := receive_send frame.command frame.payload frame.sessionHandle []
    have hheader : sendHeader frame.command frame.payload frame.sessionHandle =
        sendHeader commandSendRRData [] 1 := by
      rw [sendHeader, hlen]
      rfl
    have hsecond : receive (strayHeader.encode ++ [] ++ List.replicate 65512 0) =
        .ok (strayHeader, [], List.replicate 65512 0) := receive_encode rfl _
    rw [hheader, hlen, List.append_nil, Nat.mod_self, List.take_zero, List.drop_zero,
      List.append_nil] at hfirst
    rw [List.append_nil, ← hpayload] at hsecond
    rw [sendAll_cons, sendAll, List.flatMap_nil, List.append_nil, receiveMany_succ hfirst,
      receiveMany_succ hsecond]
    rfl

end GoIndustrial.EtherNetIP
