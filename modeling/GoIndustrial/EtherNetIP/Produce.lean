import GoIndustrial.EtherNetIP.Encap
import GoIndustrial.EtherNetIP.Receipt
import Mathlib.Data.List.ReduceOption

/-!
# Datagrams that are produced

The scanner of `protocol/ethernetip/io.go` sends the output of a connection in every period, and the
scheduler of `protocol/ethernetip/runtime/scheduler.go` goes through the producers of a runtime
every 5 ms and sends the assemblies of those that are due. Each of the two has its own code for the
datagram: the scanner makes a buffer of the right size, the scheduler fills a buffer of 2048 bytes
and cuts it off behind the data. When the data does not fit, it is the cut that panics.

A tick of the scheduler goes through a Go map, in an order that is not specified; the results hold
for every order.

## Main definitions

* `EtherNetIP.IOConn.sendPacket`, `EtherNetIP.sendPacketFromSnapshot` : the two producers.
* `EtherNetIP.datagram` : the bytes that both of them send.
* `EtherNetIP.Runtime.processTick` : a tick of the scheduler.

## Main results

* `EtherNetIP.IOConn.sendPacket_eq`, `EtherNetIP.sendPacketFromSnapshot_eq` : what they send.
* `EtherNetIP.data_gets_through` : both send the same bytes, and both receivers store the data.
* `EtherNetIP.Runtime.survivesTick_iff` : a tick panics if and only if a datagram is too long.
-/

namespace GoIndustrial.EtherNetIP

open LittleEndian GoSlice

/-! ### The producers -/

/-- `IOConn.sendPacket`: the datagram and its destination; the sequence count goes up first. -/
def IOConn.sendPacket (c : IOConn) : Except (Fault Err) (UDPAddr × List UInt8) × IOConn :=
  let sequenceCount := c.sequenceCount + 1
  let dataLen :=
    if c.runIdleHeader then 2 + c.outputData.length + 4 else 2 + c.outputData.length
  let sent := do
    let pkt ← putFields (List.replicate (14 + dataLen) 0)
      [(0, putUint16 2), (2, putUint16 itemIDConnectedAddress), (4, putUint16 4),
        (6, putUint32 c.otConnectionID), (10, putUint16 itemIDConnectedData),
        (12, putUint16 (UInt16.ofNat dataLen)), (14, putUint16 sequenceCount)]
    let pkt ← (if c.runIdleHeader then putAt pkt 16 (putUint32 1) else pure pkt)
    let pkt ← copyAt pkt (if c.runIdleHeader then 20 else 16) pkt.length c.outputData
    return (c.remoteAddr, pkt)
  (sent, { c with sequenceCount })

/-- What the scheduler copies of a connection. -/
structure ConnSnapshot where
  connectionID : UInt32
  sequenceCount : UInt16
  runIdleHeader : Bool
  remoteAddr : Option UDPAddr
  assemblyData : List UInt8
  deriving DecidableEq, Repr

/-- The datagram and its destination; without a destination nothing is sent. -/
def sendPacketFromSnapshot (snap : ConnSnapshot) :
    Except (Fault Err) (Option (UDPAddr × List UInt8)) :=
  match snap.remoteAddr with
  | none => .ok none
  | some addr => do
    let dataLen := (if snap.runIdleHeader then 2 + 4 else 2) + snap.assemblyData.length
    let buf ← putFields (List.replicate 2048 0)
      [(0, putUint16 2), (2, putUint16 0x00A1), (4, putUint16 4),
        (6, putUint32 snap.connectionID), (10, putUint16 0x00B1),
        (12, putUint16 (UInt16.ofNat dataLen)), (14, putUint16 snap.sequenceCount)]
    let buf ← (if snap.runIdleHeader then putAt buf 16 (putUint32 1) else pure buf)
    let offset := if snap.runIdleHeader then 20 else 16
    let buf ← copyAt buf offset buf.length snap.assemblyData
    let pkt ← slice buf 0 (offset + snap.assemblyData.length)
    return some (addr, pkt)

/-! ### What they send -/

/-- The items up to the data of the second. -/
def datagramHead (connID : UInt32) (dataLen : ℕ) : List UInt8 :=
  putUint16 2 ++ (putUint16 itemIDConnectedAddress ++ (putUint16 4 ++ (putUint32 connID ++
    (putUint16 itemIDConnectedData ++ putUint16 (UInt16.ofNat dataLen)))))

/-- The sequence count, the run state if there is a header for it, and the data. -/
def ioPayload (sequenceCount : UInt16) (runIdleHeader : Bool) (data : List UInt8) : List UInt8 :=
  putUint16 sequenceCount ++ ((if runIdleHeader then putUint32 1 else []) ++ data)

/-- The datagram with data for a connection. -/
def datagram (connID : UInt32) (sequenceCount : UInt16) (runIdleHeader : Bool)
    (data : List UInt8) : List UInt8 :=
  datagramHead connID (dataOffset runIdleHeader + data.length) ++
    ioPayload sequenceCount runIdleHeader data

@[simp] theorem length_datagramHead (connID : UInt32) (dataLen : ℕ) :
    (datagramHead connID dataLen).length = 14 := rfl

theorem length_ioPayload (sequenceCount : UInt16) (runIdleHeader : Bool) (data : List UInt8) :
    (ioPayload sequenceCount runIdleHeader data).length =
      dataOffset runIdleHeader + data.length := by
  rw [ioPayload, List.length_append, List.length_append, length_putUint16, ← Nat.add_assoc]
  cases runIdleHeader <;> rfl

theorem drop_ioPayload (sequenceCount : UInt16) (runIdleHeader : Bool) (data : List UInt8) :
    (ioPayload sequenceCount runIdleHeader data).drop (dataOffset runIdleHeader) = data := by
  cases runIdleHeader <;> rfl

theorem ioPayload_nil_append (sequenceCount : UInt16) (runIdleHeader : Bool) (data : List UInt8) :
    ioPayload sequenceCount runIdleHeader [] ++ data =
      ioPayload sequenceCount runIdleHeader data := by
  simp only [ioPayload, List.append_assoc, List.append_nil]

/-- The fields written into a zeroed buffer. -/
theorem putFields_datagramHead {n : ℕ} (connID : UInt32) (dataLen : ℕ) (sequenceCount : UInt16)
    (m : ℕ) (hn : n = 16 + m) :
    putFields (ε := Err) (List.replicate n 0)
      [(0, putUint16 2), (2, putUint16 itemIDConnectedAddress), (4, putUint16 4),
        (6, putUint32 connID), (10, putUint16 itemIDConnectedData),
        (12, putUint16 (UInt16.ofNat dataLen)), (14, putUint16 sequenceCount)] =
      .ok (datagramHead connID dataLen ++ putUint16 sequenceCount ++ List.replicate m 0) :=
  putFields_replicate [] _ m ⟨rfl, rfl, rfl, rfl, rfl, rfl, rfl, trivial⟩ hn

/-- The run state behind them, if there is a header for it. -/
theorem putAt_runIdle {n : ℕ} (connID : UInt32) (dataLen : ℕ) (sequenceCount : UInt16)
    (runIdleHeader : Bool) (m : ℕ) (hn : 2 + n = dataOffset runIdleHeader + m) :
    (if runIdleHeader then
      putAt (ε := Err) (datagramHead connID dataLen ++ putUint16 sequenceCount ++
        List.replicate n 0) 16 (putUint32 1)
    else
      pure (datagramHead connID dataLen ++ putUint16 sequenceCount ++ List.replicate n 0)) =
      .ok (datagramHead connID dataLen ++ ioPayload sequenceCount runIdleHeader [] ++
        List.replicate m 0) := by
  cases runIdleHeader with
  | false =>
    obtain rfl : n = m := Nat.add_left_cancel hn
    rfl
  | true =>
    have hn' : n = 4 + m := by
      rw [dataOffset, if_pos rfl] at hn
      omega
    exact putAt_replicate (datagramHead connID dataLen ++ putUint16 sequenceCount) (putUint32 1) m
      rfl hn'

/-- Both producers begin with the fields and the run state. -/
theorem putFields_bind {α : Type} {n : ℕ} (connID : UInt32) (dataLen : ℕ) (sequenceCount : UInt16)
    (runIdleHeader : Bool) (m : ℕ) (hn : n = 14 + dataOffset runIdleHeader + m)
    (f : List UInt8 → Except (Fault Err) α) :
    (do
      let buf ← putFields (List.replicate n 0)
        [(0, putUint16 2), (2, putUint16 itemIDConnectedAddress), (4, putUint16 4),
          (6, putUint32 connID), (10, putUint16 itemIDConnectedData),
          (12, putUint16 (UInt16.ofNat dataLen)), (14, putUint16 sequenceCount)]
      let buf ← (if runIdleHeader then putAt buf 16 (putUint32 1) else pure buf)
      f buf) =
    f (datagramHead connID dataLen ++ ioPayload sequenceCount runIdleHeader [] ++
      List.replicate m 0) := by
  have htwo : 2 ≤ dataOffset runIdleHeader := by
    cases runIdleHeader <;> decide
  rw [putFields_datagramHead connID dataLen sequenceCount (dataOffset runIdleHeader - 2 + m)
    (by omega)]
  change (if runIdleHeader then _ else _) >>= f = _
  rw [putAt_runIdle connID dataLen sequenceCount runIdleHeader m (by omega)]
  rfl

theorem length_head_ioPayload (connID : UInt32) (dataLen : ℕ) (sequenceCount : UInt16)
    (runIdleHeader : Bool) :
    (datagramHead connID dataLen ++ ioPayload sequenceCount runIdleHeader []).length =
      14 + dataOffset runIdleHeader := by
  cases runIdleHeader <;> rfl

theorem offset_eq (runIdleHeader : Bool) :
    (if runIdleHeader then 20 else 16) = 14 + dataOffset runIdleHeader := by
  cases runIdleHeader <;> rfl

/-- **What the scanner sends.** -/
theorem IOConn.sendPacket_eq (c : IOConn) :
    c.sendPacket = (.ok (c.remoteAddr,
      datagram c.otConnectionID (c.sequenceCount + 1) c.runIdleHeader c.outputData),
        { c with sequenceCount := c.sequenceCount + 1 }) := by
  have hlen : (if c.runIdleHeader then 2 + c.outputData.length + 4 else 2 + c.outputData.length) =
      dataOffset c.runIdleHeader + c.outputData.length := by
    cases c.runIdleHeader with
    | false => rfl
    | true =>
      rw [if_pos rfl, dataOffset, if_pos rfl]
      omega
  have hhead := length_head_ioPayload c.otConnectionID
    (dataOffset c.runIdleHeader + c.outputData.length) (c.sequenceCount + 1) c.runIdleHeader
  rw [sendPacket]
  simp only [hlen, offset_eq]
  rw [putFields_bind _ _ _ _ c.outputData.length (by omega),
    copyAt_replicate _ _ hhead.symm (by simp [Nat.add_assoc]) le_rfl, Nat.sub_self,
    List.replicate_zero, List.append_nil, List.append_assoc, ioPayload_nil_append]
  rfl

/-- The buffer of the scheduler when the data is copied into it. -/
def scheduled (snap : ConnSnapshot) : List UInt8 :=
  datagramHead snap.connectionID (dataOffset snap.runIdleHeader + snap.assemblyData.length) ++
    ioPayload snap.sequenceCount snap.runIdleHeader []

theorem length_scheduled (snap : ConnSnapshot) :
    (scheduled snap).length = 14 + dataOffset snap.runIdleHeader :=
  length_head_ioPayload _ _ _ _

theorem sendPacketFromSnapshot_of_addr {snap : ConnSnapshot} {addr : UDPAddr}
    (haddr : snap.remoteAddr = some addr) :
    ∃ n, 2048 = (scheduled snap).length + n ∧ sendPacketFromSnapshot snap = (do
      let buf ← copyAt (scheduled snap ++ List.replicate n 0) (scheduled snap).length 2048
        snap.assemblyData
      let pkt ← slice buf 0 ((scheduled snap).length + snap.assemblyData.length)
      return some (addr, pkt)) := by
  have hlen : (if snap.runIdleHeader then 2 + 4 else 2) = dataOffset snap.runIdleHeader := rfl
  have hsix : dataOffset snap.runIdleHeader ≤ 6 := by
    cases snap.runIdleHeader <;> decide
  obtain ⟨n, hn⟩ : ∃ n, 2048 = 14 + dataOffset snap.runIdleHeader + n :=
    ⟨2048 - (14 + dataOffset snap.runIdleHeader), by omega⟩
  have hbuf : (scheduled snap ++ List.replicate n (0 : UInt8)).length = 2048 := by
    rw [List.length_append, length_scheduled, List.length_replicate, hn]
  refine ⟨n, by rw [length_scheduled]; exact hn, ?_⟩
  rw [sendPacketFromSnapshot, haddr]
  simp only [offset_eq, hlen]
  refine (putFields_bind _ _ _ _ n hn _).trans ?_
  rw [← length_scheduled, ← hbuf]
  rfl

/-- **What the scheduler sends**, when the datagram fits its buffer. -/
theorem sendPacketFromSnapshot_eq {snap : ConnSnapshot} {addr : UDPAddr}
    (haddr : snap.remoteAddr = some addr)
    (h : 14 + dataOffset snap.runIdleHeader + snap.assemblyData.length ≤ 2048) :
    sendPacketFromSnapshot snap = .ok (some (addr, datagram snap.connectionID snap.sequenceCount
      snap.runIdleHeader snap.assemblyData)) := by
  obtain ⟨n, hn, hsend⟩ := sendPacketFromSnapshot_of_addr haddr
  rw [← length_scheduled] at h
  have hdatagram : scheduled snap ++ snap.assemblyData = datagram snap.connectionID
      snap.sequenceCount snap.runIdleHeader snap.assemblyData := by
    rw [scheduled, List.append_assoc, ioPayload_nil_append, datagram]
  rw [hsend]
  refine bind_eq_ok.mpr ⟨_, copyAt_replicate _ _ rfl hn (by omega), ?_⟩
  refine bind_eq_ok.mpr ⟨_, ?_, rfl⟩
  rw [slice, if_pos (by simp only [List.length_append]; omega), List.drop_zero,
    ← List.length_append, List.take_left, hdatagram]

/-- The scheduler panics when it cuts off a datagram that does not fit. -/
theorem sendPacketFromSnapshot_panic {snap : ConnSnapshot} {addr : UDPAddr}
    (haddr : snap.remoteAddr = some addr)
    (h : 2048 < 14 + dataOffset snap.runIdleHeader + snap.assemblyData.length) :
    sendPacketFromSnapshot snap = .error .panic := by
  obtain ⟨n, hn, hsend⟩ := sendPacketFromSnapshot_of_addr haddr
  rw [← length_scheduled] at h
  have hbuf : (scheduled snap ++ List.replicate n (0 : UInt8)).length = 2048 := by
    rw [List.length_append, List.length_replicate, hn]
  -- The copy stops at the end of the buffer, and the cut is beyond it.
  have hcopy : Safe (copyAt (scheduled snap ++ List.replicate n 0) (scheduled snap).length 2048
      snap.assemblyData) (fun out => out.length = (scheduled snap ++ List.replicate n 0).length)
      fun _ : Err => False := safe_copyAt (by omega) (Nat.le_of_eq hbuf.symm)
  obtain ⟨buf, hcopied⟩ := hcopy.exists_ok
  rw [hcopied, safe_ok, hbuf] at hcopy
  rw [hsend, hcopied]
  change (slice buf 0 _ >>= fun pkt => _) = _
  rw [slice, if_neg (by omega)]
  rfl

/-! ### What is received -/

section
variable {connID : UInt32} {sequenceCount : UInt16} {runIdleHeader : Bool} {data : List UInt8}

theorem length_datagram : (datagram connID sequenceCount runIdleHeader data).length =
    14 + (dataOffset runIdleHeader + data.length) := by
  rw [datagram, List.length_append, length_datagramHead, length_ioPayload]

/-- The length of the data item is read back, cut to 16 bits. -/
theorem uint16LEAt_datagram :
    uint16LEAt (ε := Err) (datagram connID sequenceCount runIdleHeader data) 12 =
      .ok (UInt16.ofNat (dataOffset runIdleHeader + data.length)) := by
  rw [datagram, datagramHead]
  simp only [List.append_assoc]
  exact uint16LEAt_append (putUint16 2 ++ (putUint16 itemIDConnectedAddress ++ (putUint16 4 ++
    (putUint32 connID ++ putUint16 itemIDConnectedData)))) _ _ rfl

theorem toNat_dataLen (h : dataOffset runIdleHeader + data.length < 65536) :
    (UInt16.ofNat (dataOffset runIdleHeader + data.length)).toNat =
      dataOffset runIdleHeader + data.length := by
  rw [UInt16.toNat_ofNat', Nat.mod_eq_of_lt h]

/-- The connection and the payload are read back. -/
theorem addressedData_datagram (h : dataOffset runIdleHeader + data.length < 65536) :
    addressedData (datagram connID sequenceCount runIdleHeader data) =
      .ok (some (connID, ioPayload sequenceCount runIdleHeader data)) := by
  have hid : uint32LEAt (ε := Err) (datagram connID sequenceCount runIdleHeader data) 6 =
      .ok connID := by
    rw [datagram, datagramHead]
    simp only [List.append_assoc]
    exact uint32LEAt_append (putUint16 2 ++ (putUint16 itemIDConnectedAddress ++ putUint16 4))
      connID _ rfl
  refine bind_eq_ok.mpr ⟨_, hid, bind_eq_ok.mpr ⟨_, uint16LEAt_datagram, ?_⟩⟩
  rw [toNat_dataLen h, ← length_datagram, if_neg (Nat.lt_irrefl _)]
  refine bind_eq_ok.mpr ⟨_, if_pos ⟨by rw [length_datagram]; omega, Nat.le_refl _⟩, ?_⟩
  rw [List.take_length, datagram, List.drop_left' (length_datagramHead _ _)]
  rfl

theorem Runtime.carries_datagram (h : dataOffset runIdleHeader + data.length < 65536) :
    Runtime.Carries (datagram connID sequenceCount runIdleHeader data) connID
      (ioPayload sequenceCount runIdleHeader data) :=
  ⟨rfl, rfl, addressedData_datagram h⟩

theorem IOScanner.carries_datagram (h : dataOffset runIdleHeader + data.length < 65536) :
    IOScanner.Carries (datagram connID sequenceCount runIdleHeader data) connID
      (ioPayload sequenceCount runIdleHeader data) := by
  refine ⟨?_, rfl, addressedData_datagram h⟩
  have htwo : 2 ≤ dataOffset runIdleHeader := by
    cases runIdleHeader <;> decide
  rw [length_datagram]
  omega

end

/-- **Data gets through unchanged**: when the datagram fits 2048 bytes, the scanner and the
scheduler send the same bytes, and both the runtime and the scanner put exactly the data into the
buffer that it is for, if the sizes agree. -/
theorem data_gets_through (connID : UInt32) (sequenceCount : UInt16) (runIdleHeader : Bool)
    (data : List UInt8) (h : 14 + dataOffset runIdleHeader + data.length ≤ 2048) :
    ∃ pkt,
    (∀ c : IOConn, c.otConnectionID = connID → c.sequenceCount + 1 = sequenceCount →
      c.runIdleHeader = runIdleHeader → c.outputData = data →
      c.sendPacket.1 = .ok (c.remoteAddr, pkt)) ∧
    (∀ addr, sendPacketFromSnapshot ⟨connID, sequenceCount, runIdleHeader, some addr, data⟩ =
      .ok (some (addr, pkt))) ∧
    (∀ (r : Runtime) conn asmID old now, r.connections connID = some conn →
      conn.runIdleHeader = runIdleHeader → conn.assembly = some asmID →
      r.assemblyObj.instances asmID = some old → old.length = data.length →
      r.handlePacket pkt now = .ok ((r.touch connID conn now).install asmID data)) ∧
    ∀ (s : IOScanner) conn now, s.connections connID = some conn →
      conn.runIdleHeader = runIdleHeader → conn.inputData.length = data.length →
      s.handleIncomingPacket pkt now = .ok ⟨Function.update s.connections connID
        (some { conn with inputData := data, lastReceive := now })⟩ := by
  have hword : dataOffset runIdleHeader + data.length < 65536 := by omega
  refine ⟨datagram connID sequenceCount runIdleHeader data, ?_, ?_, ?_, ?_⟩
  · rintro c rfl rfl rfl rfl
    rw [c.sendPacket_eq]
  · intro addr
    exact sendPacketFromSnapshot_eq rfl h
  · rintro r conn asmID old now hconn rfl hasm hold hlen
    have hpayload := length_ioPayload sequenceCount conn.runIdleHeader data
    rw [← hlen] at hpayload
    rw [Runtime.handlePacket_of_fits (Runtime.carries_datagram hword) hconn hasm hold hpayload,
      drop_ioPayload]
  · rintro s conn now hconn rfl hlen
    have hpayload := length_ioPayload sequenceCount conn.runIdleHeader data
    rw [IOScanner.handleIncomingPacket_of_le (IOScanner.carries_datagram hword) hconn (by omega),
      IOScanner.received, if_pos (by omega), drop_ioPayload]

/-- Two bytes with a run state. -/
theorem data_gets_through_two_bytes :
    14 + dataOffset true + [(8 : UInt8), 9].length ≤ 2048 ∧
    ∃ pkt, ∀ addr, sendPacketFromSnapshot ⟨1, 7, true, some addr, [8, 9]⟩ =
      .ok (some (addr, pkt)) := by
  obtain ⟨pkt, -, h, -⟩ := data_gets_through 1 7 true [8, 9] (by decide)
  exact ⟨by decide, pkt, h⟩

/-! ### The scheduler -/

namespace Runtime

/-- A producer whose period is over and which is bound to an assembly. -/
def due (conn : IOConnection) (now : ℤ) : Bool :=
  conn.isProducer && !decide (timeSub now conn.lastSend < conn.rpi) && conn.assembly.isSome

/-- What the scheduler copies of a connection that is due, unless its assembly is not there. -/
def snapshot (r : Runtime) (now : ℤ) (conn : IOConnection) : Option ConnSnapshot :=
  if due conn now then
    match conn.assembly with
    | none => none
    | some asmID =>
      match r.assemblyObj.getAttributeSingle asmID 3 with
      | .error _ => none
      | .ok data => some ⟨conn.connectionID, conn.sequenceCount + 1, conn.runIdleHeader,
          conn.remoteAddr, data⟩
  else none

/-- A connection after a tick: its sequence count goes up when it is due, even if its assembly is
not there. -/
def ticked (now : ℤ) (conn : IOConnection) : IOConnection :=
  if due conn now then
    { conn with sequenceCount := conn.sequenceCount + 1, lastSend := now }
  else conn

/-- `Scheduler.processTick`: the datagrams sent, `order` being the order in which the connections
are gone through. -/
def processTick (r : Runtime) (order : List UInt32) (now : ℤ) :
    Except (Fault Err) (List (UDPAddr × List UInt8)) × Runtime :=
  let snapshots := order.filterMap fun id => (r.connections id).bind (r.snapshot now)
  ((snapshots.mapM sendPacketFromSnapshot).map List.reduceOption,
    { r with connections := fun id => (r.connections id).map (ticked now) })

/-- An order in which Go may go through the connections. -/
structure RangeOrder (r : Runtime) (order : List UInt32) : Prop where
  nodup : order.Nodup
  mem_iff : ∀ id, id ∈ order ↔ (r.connections id).isSome

/-- The length of the data item is the number of bytes behind it. -/
def ExactItem (pkt : List UInt8) : Prop :=
  ∃ dataLen, uint16LEAt (ε := Err) pkt 12 = .ok dataLen ∧ 14 + dataLen.toNat = pkt.length

/-- The tick does not panic, and every datagram it sends has an exact data item. -/
def SurvivesTick (r : Runtime) (order : List UInt32) (now : ℤ) : Prop :=
  ∃ sent, (r.processTick order now).1 = .ok sent ∧ ∀ d ∈ sent, ExactItem d.2

theorem exactItem_datagram {connID : UInt32} {sequenceCount : UInt16} {runIdleHeader : Bool}
    {data : List UInt8} (h : dataOffset runIdleHeader + data.length < 65536) :
    ExactItem (datagram connID sequenceCount runIdleHeader data) :=
  ⟨_, uint16LEAt_datagram, by rw [toNat_dataLen h, length_datagram]⟩

theorem snapshot_eq_some {r : Runtime} {now : ℤ} {conn : IOConnection} {snap : ConnSnapshot} :
    r.snapshot now conn = some snap ↔ due conn now ∧ ∃ asmID data, conn.assembly = some asmID ∧
      r.assemblyObj.instances asmID = some data ∧
      snap = ⟨conn.connectionID, conn.sequenceCount + 1, conn.runIdleHeader, conn.remoteAddr,
        data⟩ := by
  rw [snapshot]
  split_ifs with hdue
  · match hasm : conn.assembly with
    | none => simp
    | some asmID =>
      match hdata : r.assemblyObj.instances asmID with
      | none => simp [AssemblyObject.getAttributeSingle, throwStatus, hdata, hdue]
      | some data => simp [AssemblyObject.getAttributeSingle, hdata, hdue, eq_comm]
  · simp [hdue]

/-- What is sent of a snapshot that fits. -/
def sentOf (snap : ConnSnapshot) : Option (UDPAddr × List UInt8) :=
  snap.remoteAddr.map fun addr =>
    (addr, datagram snap.connectionID snap.sequenceCount snap.runIdleHeader snap.assemblyData)

/-- The snapshot has no destination, or its datagram fits the buffer. -/
def Sendable (snap : ConnSnapshot) : Prop :=
  snap.remoteAddr ≠ none → 14 + dataOffset snap.runIdleHeader + snap.assemblyData.length ≤ 2048

theorem sendPacketFromSnapshot_of_sendable {snap : ConnSnapshot} (h : Sendable snap) :
    sendPacketFromSnapshot snap = .ok (sentOf snap) := by
  match haddr : snap.remoteAddr with
  | none => rw [sendPacketFromSnapshot, sentOf, haddr]; rfl
  | some addr =>
    rw [sendPacketFromSnapshot_eq haddr (h (by rw [haddr]; nofun)), sentOf, haddr]
    rfl

theorem sendPacketFromSnapshot_of_not_sendable {snap : ConnSnapshot} (h : ¬ Sendable snap) :
    sendPacketFromSnapshot snap = .error .panic := by
  obtain ⟨haddr, hlen⟩ := Classical.not_imp.mp h
  obtain ⟨addr, haddr⟩ := Option.ne_none_iff_exists'.mp haddr
  exact sendPacketFromSnapshot_panic haddr (Nat.not_le.mp hlen)

/-- The snapshots of a tick are those of the connections, whatever the order. -/
theorem RangeOrder.mem_snapshots {r : Runtime} {order : List UInt32} (h : r.RangeOrder order)
    {now : ℤ} {snap : ConnSnapshot} :
    (snap ∈ order.filterMap fun id => (r.connections id).bind (r.snapshot now)) ↔
      ∃ id conn, r.connections id = some conn ∧ r.snapshot now conn = some snap := by
  rw [List.mem_filterMap]
  constructor
  · rintro ⟨id, -, hsnap⟩
    exact ⟨id, Option.bind_eq_some_iff.mp hsnap⟩
  · rintro ⟨id, conn, hconn, hsnap⟩
    exact ⟨id, (h.mem_iff id).mpr (by rw [hconn]; rfl),
      Option.bind_eq_some_iff.mpr ⟨conn, hconn, hsnap⟩⟩

/-- **A tick is survived if and only if the datagrams fit the buffer**: those of the producers that
are due, have a destination and are bound to an assembly that is there. -/
theorem survivesTick_iff (r : Runtime) (order : List UInt32) (horder : r.RangeOrder order)
    (now : ℤ) :
    r.SurvivesTick order now ↔ ∀ id conn asmID data, r.connections id = some conn →
      due conn now → conn.remoteAddr ≠ none → conn.assembly = some asmID →
      r.assemblyObj.instances asmID = some data →
      14 + dataOffset conn.runIdleHeader + data.length ≤ 2048 := by
  constructor
  · rintro ⟨sent, hsent, -⟩ id conn asmID data hconn hdue haddr hasm hdata
    by_contra hlen
    have hsnap : r.snapshot now conn = some ⟨conn.connectionID, conn.sequenceCount + 1,
        conn.runIdleHeader, conn.remoteAddr, data⟩ :=
      snapshot_eq_some.mpr ⟨hdue, asmID, data, hasm, hdata, rfl⟩
    have hpanic : (order.filterMap fun id => (r.connections id).bind (r.snapshot now)).mapM
        sendPacketFromSnapshot = .error .panic := by
      refine mapM_panic (fun snap _ => ?_) ⟨_, horder.mem_snapshots.mpr ⟨id, conn, hconn, hsnap⟩,
        sendPacketFromSnapshot_of_not_sendable fun h => hlen (h haddr)⟩
      by_cases h : Sendable snap
      · exact .inl ⟨_, sendPacketFromSnapshot_of_sendable h⟩
      · exact .inr (sendPacketFromSnapshot_of_not_sendable h)
    rw [processTick, hpanic] at hsent
    cases hsent
  · intro h
    have hsendable : ∀ snap ∈ order.filterMap fun id => (r.connections id).bind (r.snapshot now),
        Sendable snap := by
      intro snap hmem haddr
      obtain ⟨id, conn, hconn, hsnap⟩ := horder.mem_snapshots.mp hmem
      obtain ⟨hdue, asmID, data, hasm, hdata, rfl⟩ := snapshot_eq_some.mp hsnap
      exact h id conn asmID data hconn hdue haddr hasm hdata
    have hmapM := mapM_ok fun snap hmem => sendPacketFromSnapshot_of_sendable (hsendable snap hmem)
    refine ⟨_, by rw [processTick, hmapM]; rfl, fun d hd => ?_⟩
    obtain ⟨snap, hmem, hsent⟩ := List.mem_map.mp (List.reduceOption_mem_iff.mp hd)
    obtain ⟨addr, haddr, rfl⟩ := Option.map_eq_some_iff.mp hsent
    have hlen := hsendable snap hmem (by rw [haddr]; nofun)
    exact exactItem_datagram (by omega)

/-- A runtime with one producer, bound to an assembly of zeros. -/
def oneProducer (size : ℕ) : Runtime :=
  (newRuntime ⟨Function.update (fun _ => none) 101 (some (List.replicate size 0))⟩).addConnection
    ⟨0x80000001, 10000000, 0, false, some ⟨[127, 0, 0, 1], 2222⟩, some 101, 0, 0, 0, true, false⟩ 0

theorem rangeOrder_oneProducer (size : ℕ) : (oneProducer size).RangeOrder [0x80000001] where
  nodup := List.nodup_singleton _
  mem_iff id := by
    rw [List.mem_singleton]
    by_cases h : id = 0x80000001
    · subst h
      exact ⟨fun _ => rfl, fun _ => rfl⟩
    · have hnone : (oneProducer size).connections id = none := Function.update_of_ne h _ _
      rw [hnone]
      simp [h]

/-- An assembly of 2032 bytes can be sent. -/
theorem survivesTick_2032_bytes :
    (oneProducer 2032).RangeOrder [0x80000001] ∧
      (oneProducer 2032).SurvivesTick [0x80000001] 10000000 := by
  refine ⟨rangeOrder_oneProducer 2032,
    (survivesTick_iff _ _ (rangeOrder_oneProducer 2032) _).mpr ?_⟩
  intro id conn asmID data hconn _ _ hasm hdata
  rcases Table.update_some_eq_some.mp hconn with ⟨-, rfl⟩ | ⟨-, hnone⟩
  · obtain rfl : 101 = asmID := Option.some.inj hasm
    obtain rfl : List.replicate 2032 0 = data := Option.some.inj hdata
    rw [List.length_replicate]
    decide
  · cases hnone

/-- An assembly of 2033 bytes makes the scheduler panic. -/
theorem processTick_2033_bytes :
    ((oneProducer 2033).processTick [0x80000001] 10000000).1 = .error .panic ∧
      ¬ (oneProducer 2033).SurvivesTick [0x80000001] 10000000 := by
  have hsend : sendPacketFromSnapshot ⟨0x80000001, 1, false, some ⟨[127, 0, 0, 1], 2222⟩,
      List.replicate 2033 0⟩ = .error .panic := by
    refine sendPacketFromSnapshot_panic rfl ?_
    rw [List.length_replicate]
    decide
  have hsnap : (oneProducer 2033).snapshot 10000000
      ⟨0x80000001, 10000000, 0, false, some ⟨[127, 0, 0, 1], 2222⟩, some 101, 0, 0, 0, true,
        false⟩ = some ⟨0x80000001, 1, false, some ⟨[127, 0, 0, 1], 2222⟩,
          List.replicate 2033 0⟩ :=
    snapshot_eq_some.mpr ⟨by decide +kernel, 101, _, rfl, rfl, rfl⟩
  have hconn : (oneProducer 2033).connections 0x80000001 = some
      ⟨0x80000001, 10000000, 0, false, some ⟨[127, 0, 0, 1], 2222⟩, some 101, 0, 0, 0, true,
        false⟩ := rfl
  have hpanic : ((oneProducer 2033).processTick [0x80000001] 10000000).1 = .error .panic := by
    rw [processTick]
    simp only [List.filterMap_cons, List.filterMap_nil, hconn, Option.bind_some, hsnap,
      List.mapM_cons, hsend]
    rfl
  refine ⟨hpanic, fun ⟨sent, hsent, _⟩ => ?_⟩
  rw [hpanic] at hsent
  cases hsent

end Runtime

end GoIndustrial.EtherNetIP
