import GoIndustrial.EtherNetIP.Negotiation
import GoIndustrial.EtherNetIP.Produce
import GoIndustrial.EtherNetIP.Watchdog
import GoIndustrial.Lib.TransitionSystem

/-!
# Cyclic data over an unreliable network

An adapter and a scanner exchange cyclic data over UDP. On one side are the runtime and the
scheduler of `protocol/ethernetip/runtime`, with the assemblies that the application of the adapter
reads and writes; on the other side is the scanner of `protocol/ethernetip/io.go`, whose application
sets the output of a connection and reads its input. Between them is a network that may lose a
datagram, repeat it and deliver it late: whatever was sent once may arrive at any time, any number
of times. Both receivers skip the sequence count, so that old data may come back. What they never
show is data that nobody has sent: a buffer on one side always has the contents of the buffer of the
other side at some time before, as a whole.

A step is what happens under one lock. Both receivers look up the connection of a datagram under one
lock and write its data under another, so that the connection may be gone, or replaced, in between;
`Runtime.handlePacket_eq` and `IOScanner.handleIncomingPacket_eq` say how the parts make a receiver.
A tick of the scheduler reads the assemblies one after the other; it is taken apart into steps for
single connections. A connection that the scanner has closed, or that another has displaced from its
table, may still send: its goroutine chooses between the closed channel and the ticker as long as
both are ready.

## Main definitions

* `EtherNetIP.CyclicIO.Agreeing` : both ends of a connection agree on the header with the run state,
  datagrams fit the buffers of the receivers, and nobody sends to itself.
* `EtherNetIP.CyclicIO.AsExample` : the adapter as the example program sets it up.

## Main results

* `EtherNetIP.CyclicIO.input_was_produced` : where the input of the scanner comes from.
* `EtherNetIP.CyclicIO.assembly_was_output` : where the contents of an assembly come from.
* `EtherNetIP.CyclicIO.kept_iff_fed` : when a consumer of the adapter survives the watchdog.
* `EtherNetIP.CyclicIO.input_stays_zero` : without destinations nothing reaches the scanner.
-/

namespace GoIndustrial.EtherNetIP

open GoSlice

/-! ### The applications -/

/-- An instance that is registered again gets a new buffer, of any size. -/
def AssemblyObject.registerAssembly (ao : AssemblyObject) (instanceID : UInt32)
    (data : List UInt8) : AssemblyObject :=
  ⟨Function.update ao.instances instanceID (some data)⟩

/-- The size of the output does not change. -/
def IOConn.setOutput (c : IOConn) (data : List UInt8) : Except Err IOConn :=
  let got := data.length
  let want := c.outputData.length
  if got ≠ want then .error (.other s!"output size mismatch: got {got}, want {want}")
  else .ok { c with outputData := data }

/-! ### The system -/

structure CyclicIO where
  runtime : Runtime
  /-- The connection that the listener of the adapter has found, as it was then, and the payload
  that it is about to write. -/
  incoming : Option (IOConnection × List UInt8)
  /-- The connections that the scanner has opened, closed ones included. -/
  conns : List IOConn
  /-- The table of the scanner, with places in the list. -/
  table : UInt32 → Option ℕ
  /-- The connection that the listener of the scanner has found, and the payload. -/
  pending : Option (ℕ × List UInt8)
  /-- All datagrams that have been sent, with their destinations. -/
  network : List (UDPAddr × List UInt8)

inductive CyclicStep
  | registerAssembly (asmID : UInt32) (data : List UInt8)
  /-- The application writes an assembly, or an explicit message does. -/
  | setAssembly (asmID : UInt32) (data : List UInt8)
  | addConnection (conn : IOConnection) (now : ℤ)
  | removeConnection (connID : UInt32)
  | setProducerAddr (connID : UInt32) (addr : UDPAddr)
  | watchdog (now : ℤ)
  /-- A tick of the scheduler comes to a connection. -/
  | tick (connID : UInt32) (now : ℤ)
  /-- A datagram arrives at the adapter. -/
  | toAdapter (data : List UInt8) (now : ℤ)
  | install
  /-- The scanner has opened a connection. -/
  | opened (conn : IOConn)
  | closed (connID : UInt32)
  | setOutput (i : ℕ) (data : List UInt8)
  | produce (i : ℕ)
  /-- A datagram arrives at the scanner. -/
  | toScanner (data : List UInt8)
  | store (now : ℤ)

/-- What does not change in a run. -/
structure Setup where
  adapterAddr : UDPAddr
  scannerAddr : UDPAddr
  /-- The assemblies at the start. -/
  ao : AssemblyObject
  /-- Whether the data of a connection has the header with the run state. -/
  header : UInt32 → Bool

namespace CyclicIO

def new (ao : AssemblyObject) : CyclicIO := ⟨.newRuntime ao, none, [], fun _ => none, none, []⟩

section
variable (setup : Setup)

/-- A step; receivers read at most 2048 bytes of a datagram. A step that panics is not taken. -/
def step (s : CyclicIO) : CyclicStep → Option CyclicIO
  | .registerAssembly asmID data =>
    let assemblyObj := s.runtime.assemblyObj.registerAssembly asmID data
    some { s with runtime := { s.runtime with assemblyObj } }
  | .setAssembly asmID data =>
    let assemblyObj := (s.runtime.assemblyObj.setAttributeSingle asmID 3 data).2
    some { s with runtime := { s.runtime with assemblyObj } }
  | .addConnection conn now => some { s with runtime := s.runtime.addConnection conn now }
  | .removeConnection connID => some { s with runtime := s.runtime.removeConnection connID }
  | .setProducerAddr connID addr =>
    some { s with runtime := s.runtime.setProducerAddr connID addr }
  | .watchdog now => some { s with runtime := s.runtime.checkTimeouts now }
  | .tick connID now =>
    match s.runtime.connections connID with
    | none => none
    | some conn =>
      let connections :=
        Function.update s.runtime.connections connID (some (Runtime.ticked now conn))
      let runtime := { s.runtime with connections }
      match s.runtime.snapshot now conn with
      | none => some { s with runtime }
      | some snap =>
        match sendPacketFromSnapshot snap with
        | .error _ => none
        | .ok sent => some { s with runtime, network := s.network ++ sent.toList }
  | .toAdapter data now =>
    if (setup.adapterAddr, data) ∈ s.network ∧ s.incoming = none then
      match Runtime.parse (data.take 2048) with
      | .error _ => none
      | .ok none => some s
      | .ok (some (connID, payload)) =>
        match s.runtime.connections connID with
        | none => some s
        | some conn =>
          some { s with
            runtime := s.runtime.touch connID conn now
            incoming := some ({ conn with lastReceive := now }, payload) }
    else none
  | .install =>
    match s.incoming with
    | none => none
    | some (conn, payload) =>
      match s.runtime.consume conn payload with
      | .error _ => none
      | .ok runtime => some { s with runtime, incoming := none }
  | .opened conn =>
    some { s with
      conns := s.conns ++ [conn]
      table := Function.update s.table conn.toConnectionID (some s.conns.length) }
  | .closed connID => some { s with table := Function.update s.table connID none }
  | .setOutput i data =>
    match s.conns[i]? with
    | none => none
    | some c =>
      match c.setOutput data with
      | .error _ => some s
      | .ok c => some { s with conns := s.conns.set i c }
  | .produce i =>
    match s.conns[i]? with
    | none => none
    | some c =>
      match c.sendPacket with
      | (.error _, _) => none
      | (.ok sent, c) => some { s with conns := s.conns.set i c, network := s.network ++ [sent] }
  | .toScanner data =>
    if (setup.scannerAddr, data) ∈ s.network ∧ s.pending = none then
      match IOScanner.parse (data.take 2048) with
      | .error _ => none
      | .ok none => some s
      | .ok (some (connID, payload)) =>
        match s.table connID with
        | none => some s
        | some i => some { s with pending := some (i, payload) }
    else none
  | .store now =>
    match s.pending with
    | none => none
    | some (i, payload) =>
      match s.conns[i]? with
      | none => none
      | some c =>
        some { s with conns := s.conns.set i (IOScanner.store c payload now), pending := none }

def system : TransitionSystem CyclicIO CyclicStep := ⟨new setup.ao, step setup⟩

/-- Both ends of a connection agree on the header, datagrams fit, nobody sends to itself, and a
connection of the scanner begins with a cleared input, as `IOScanner.Open` makes it. -/
def Agreeing (_ : CyclicIO) : CyclicStep → Prop
  | .addConnection conn _ =>
    conn.runIdleHeader = setup.header conn.connectionID ∧ conn.remoteAddr ≠ some setup.adapterAddr
  | .setProducerAddr _ addr => addr ≠ setup.adapterAddr
  | .opened conn =>
    conn.runIdleHeader = setup.header conn.otConnectionID ∧
      conn.runIdleHeader = setup.header conn.toConnectionID ∧
      conn.remoteAddr ≠ setup.scannerAddr ∧
      14 + dataOffset conn.runIdleHeader + conn.outputData.length ≤ 2048 ∧
      conn.inputData = List.replicate conn.inputData.length 0
  | _ => True

instance (s : CyclicIO) : ∀ a, Decidable (Agreeing setup s a)
  | .addConnection _ _ | .opened _ => inferInstanceAs (Decidable (_ ∧ _))
  | .setProducerAddr _ _ => inferInstanceAs (Decidable (_ ≠ _))
  | .registerAssembly _ _ | .setAssembly _ _ | .removeConnection _ | .watchdog _ | .tick _ _
  | .toAdapter _ _ | .install | .closed _ | .setOutput _ _ | .produce _ | .toScanner _
  | .store _ => inferInstanceAs (Decidable True)

/-- The adapter of `examples/ethernetip/adapter/main.go`: connections are added by its open callback
only, and nobody tells the runtime where to send. The scanner does not send to itself, and its
connections begin with cleared inputs, as `IOScanner.Open` makes them. -/
def AsExample (s : CyclicIO) : CyclicStep → Prop
  | .addConnection conn _ => ∃ c req, conn = consumer s.runtime.assemblyObj c req ∨
      conn = producer s.runtime.assemblyObj c req
  | .setProducerAddr _ _ => False
  | .opened conn =>
    conn.remoteAddr ≠ setup.scannerAddr ∧
      conn.inputData = List.replicate conn.inputData.length 0
  | _ => True

end

/-- **What is asked of a connection that `IOScanner.Open` has returned**: its input is cleared, so
that only the agreement on the header, the size and the address are left. -/
theorem opened_iff {o o' : Originator} {cfg : IOConnectionConfig} {sessionAddr : Option UDPAddr}
    {send : MessageRouterRequest → Except SessionErr MessageRouterResponse} {now : ℤ}
    {conn : IOConn} (setup : Setup) (s : CyclicIO)
    (h : o.openConn send sessionAddr cfg now = (.ok conn, o')) :
    (Agreeing setup s (.opened conn) ↔
      conn.runIdleHeader = setup.header conn.otConnectionID ∧
      conn.runIdleHeader = setup.header conn.toConnectionID ∧
      conn.remoteAddr ≠ setup.scannerAddr ∧
      14 + dataOffset conn.runIdleHeader + conn.outputData.length ≤ 2048) ∧
    (AsExample setup s (.opened conn) ↔ conn.remoteAddr ≠ setup.scannerAddr) := by
  have hinput := Originator.inputData_of_openConn h
  constructor
  · rw [Agreeing]
    tauto
  · rw [AsExample]
    tauto

/-! ### What a step does -/

/-- What a tick sends of a connection: its assembly, when it is due and has a destination. -/
def Sends (r : Runtime) (c : IOConnection) (now : ℤ) (addr : UDPAddr) (pkt : List UInt8) : Prop :=
  ∃ asmID data, Runtime.due c now ∧ c.remoteAddr = some addr ∧ c.assembly = some asmID ∧
    r.assemblyObj.instances asmID = some data ∧
    14 + dataOffset c.runIdleHeader + data.length ≤ 2048 ∧
    pkt = datagram c.connectionID (c.sequenceCount + 1) c.runIdleHeader data

/-- The connection for which a datagram has data. -/
def addressee (data : List UInt8) : Option UInt32 :=
  match Runtime.parse (data.take 2048) with
  | .ok (some (connID, _)) => some connID
  | _ => none

/-- The time of the last datagram for a connection, after a step. -/
def arrival (connID : UInt32) (last : ℤ) : CyclicStep → ℤ
  | .toAdapter data now => if addressee data = some connID then now else last
  | _ => last

section
variable (setup : Setup) (s : CyclicIO)

/-- The outcomes of a step. -/
inductive StepSpec : CyclicStep → CyclicIO → Prop
  | registerAssembly (asmID : UInt32) (data : List UInt8) :
    StepSpec (.registerAssembly asmID data) { s with runtime := s.runtime.install asmID data }
  | setAssembly (asmID : UInt32) (data : List UInt8) :
    StepSpec (.setAssembly asmID data) { s with runtime := s.runtime.install asmID data }
  /-- Data of the wrong size, a datagram without a connection. -/
  | refused (a : CyclicStep) (h : ∀ connID last, arrival connID last a = last) : StepSpec a s
  | addConnection (conn : IOConnection) (now : ℤ) :
    StepSpec (.addConnection conn now) { s with runtime := s.runtime.addConnection conn now }
  | removeConnection (connID : UInt32) :
    StepSpec (.removeConnection connID) { s with runtime := s.runtime.removeConnection connID }
  | setProducerAddr (connID : UInt32) (addr : UDPAddr) :
    StepSpec (.setProducerAddr connID addr)
      { s with runtime := s.runtime.setProducerAddr connID addr }
  | watchdog (now : ℤ) :
    StepSpec (.watchdog now) { s with runtime := s.runtime.checkTimeouts now }
  | tick (connID : UInt32) (now : ℤ) (conn : IOConnection) (sent : List (UDPAddr × List UInt8))
      (hconn : s.runtime.connections connID = some conn)
      (hsent : ∀ addr pkt, (addr, pkt) ∈ sent → Sends s.runtime conn now addr pkt) :
    StepSpec (.tick connID now)
      { s with
        runtime :=
          { s.runtime with
            connections :=
              Function.update s.runtime.connections connID (some (Runtime.ticked now conn)) }
        network := s.network ++ sent }
  | found (data : List UInt8) (now : ℤ) (connID : UInt32) (payload : List UInt8)
      (conn : IOConnection) (hmem : (setup.adapterAddr, data) ∈ s.network)
      (hparse : Runtime.parse (data.take 2048) = .ok (some (connID, payload)))
      (hconn : s.runtime.connections connID = some conn) :
    StepSpec (.toAdapter data now)
      { s with
        runtime := s.runtime.touch connID conn now
        incoming := some ({ conn with lastReceive := now }, payload) }
  | notFound (data : List UInt8) (now : ℤ) (hnone : ∀ connID payload,
      Runtime.parse (data.take 2048) = .ok (some (connID, payload)) →
        s.runtime.connections connID = none) :
    StepSpec (.toAdapter data now) s
  | install (conn : IOConnection) (payload : List UInt8) (asmID : UInt32)
      (hincoming : s.incoming = some (conn, payload)) (hasm : conn.assembly = some asmID) :
    StepSpec .install
      { s with
        runtime := s.runtime.install asmID (payload.drop (dataOffset conn.runIdleHeader))
        incoming := none }
  | discarded : StepSpec .install { s with incoming := none }
  | opened (conn : IOConn) :
    StepSpec (.opened conn)
      { s with
        conns := s.conns ++ [conn]
        table := Function.update s.table conn.toConnectionID (some s.conns.length) }
  | closed (connID : UInt32) :
    StepSpec (.closed connID) { s with table := Function.update s.table connID none }
  | setOutput (i : ℕ) (data : List UInt8) (c : IOConn) (hc : s.conns[i]? = some c)
      (hlen : data.length = c.outputData.length) :
    StepSpec (.setOutput i data) { s with conns := s.conns.set i { c with outputData := data } }
  | produce (i : ℕ) (c : IOConn) (hc : s.conns[i]? = some c) :
    StepSpec (.produce i)
      { s with
        conns := s.conns.set i { c with sequenceCount := c.sequenceCount + 1 }
        network := s.network ++ [(c.remoteAddr,
          datagram c.otConnectionID (c.sequenceCount + 1) c.runIdleHeader c.outputData)] }
  | foundByScanner (data : List UInt8) (connID : UInt32) (payload : List UInt8) (i : ℕ)
      (hmem : (setup.scannerAddr, data) ∈ s.network)
      (hdata : addressedData (data.take 2048) = .ok (some (connID, payload)))
      (hi : s.table connID = some i) :
    StepSpec (.toScanner data) { s with pending := some (i, payload) }
  | store (now : ℤ) (i : ℕ) (payload : List UInt8) (c : IOConn)
      (hpending : s.pending = some (i, payload)) (hc : s.conns[i]? = some c) :
    StepSpec (.store now)
      { s with conns := s.conns.set i (IOScanner.received c payload now), pending := none }
  | dropped (now : ℤ) : StepSpec (.store now) { s with pending := none }

end

section
variable {setup : Setup} {s t : CyclicIO} {a : CyclicStep}

theorem sends_of_mem {r : Runtime} {c : IOConnection} {now : ℤ} {snap : ConnSnapshot}
    {sent : Option (UDPAddr × List UInt8)} (hsnap : r.snapshot now c = some snap)
    (hsend : sendPacketFromSnapshot snap = .ok sent) (addr : UDPAddr) (pkt : List UInt8)
    (hmem : (addr, pkt) ∈ sent.toList) : Sends r c now addr pkt := by
  obtain ⟨hdue, asmID, data, hasm, hdata, rfl⟩ := Runtime.snapshot_eq_some.mp hsnap
  obtain rfl := Option.mem_toList.mp hmem
  by_cases hfits : Runtime.Sendable
      ⟨c.connectionID, c.sequenceCount + 1, c.runIdleHeader, c.remoteAddr, data⟩
  · rw [Runtime.sendPacketFromSnapshot_of_sendable hfits] at hsend
    obtain ⟨addr', haddr, heq⟩ := Option.map_eq_some_iff.mp (Except.ok.inj hsend)
    obtain ⟨rfl, rfl⟩ := Prod.mk.inj heq
    exact ⟨asmID, data, hdue, haddr, hasm, hdata,
      hfits (Option.ne_none_iff_exists'.mpr ⟨_, haddr⟩), rfl⟩
  · rw [Runtime.sendPacketFromSnapshot_of_not_sendable hfits] at hsend
    cases hsend

theorem step_spec (h : s.step setup a = some t) : StepSpec setup s a t := by
  cases a with
  | registerAssembly asmID data =>
    cases h
    exact .registerAssembly asmID data
  | setAssembly asmID data =>
    cases h
    rw [AssemblyObject.setAttributeSingle]
    split
    · exact .refused _ fun _ _ => rfl
    · rw [if_pos rfl]
      split_ifs
      · exact .refused _ fun _ _ => rfl
      · exact .setAssembly asmID data
  | addConnection | removeConnection | setProducerAddr | watchdog | opened | closed =>
    cases h
    constructor
  | tick connID now =>
    rw [step] at h
    split at h
    · cases h
    rename_i conn hconn
    dsimp only at h
    split at h
    · cases h
      rw [← List.append_nil s.network]
      exact .tick connID now conn [] hconn (by simp)
    · rename_i snap hsnap
      split at h
      · cases h
      · rename_i sent hsend
        cases h
        exact .tick connID now conn sent.toList hconn (sends_of_mem hsnap hsend)
  | toAdapter data now =>
    rw [step] at h
    split_ifs at h with hmem
    split at h
    · cases h
    · rename_i hparse
      cases h
      exact .notFound data now fun _ _ heq => by cases hparse.symm.trans heq
    · rename_i connID payload hparse
      split at h
      · rename_i hnone
        cases h
        exact .notFound data now fun _ _ heq => by cases hparse.symm.trans heq; exact hnone
      · rename_i conn hconn
        cases h
        exact .found data now connID payload conn hmem.1 hparse hconn
  | install =>
    rw [step] at h
    split at h
    · cases h
    rename_i conn payload hincoming
    by_cases hfits : s.runtime.Fits conn payload
    · obtain ⟨asmID, old, hasm, hold, hlen⟩ := hfits
      rw [Runtime.consume_of_fits hasm hold hlen] at h
      cases h
      exact .install conn payload asmID hincoming hasm
    · rw [Runtime.consume_of_not_fits hfits] at h
      cases h
      exact .discarded
  | setOutput i data =>
    rw [step] at h
    split at h
    · cases h
    rename_i c hc
    rw [IOConn.setOutput] at h
    split_ifs at h with hlen
    · cases h
      exact .refused _ fun _ _ => rfl
    · cases h
      exact .setOutput i data c hc (not_not.mp hlen)
  | produce i =>
    rw [step] at h
    split at h
    · cases h
    rename_i c hc
    rw [c.sendPacket_eq] at h
    cases h
    exact .produce i c hc
  | toScanner data =>
    rw [step] at h
    split_ifs at h with hmem
    split at h
    · cases h
    · cases h
      exact .refused _ fun _ _ => rfl
    · rename_i connID payload hparse
      split at h
      · cases h
        exact .refused _ fun _ _ => rfl
      · rename_i i hi
        cases h
        exact .foundByScanner data connID payload i hmem.1 
          (IOScanner.parse_eq_some.mp hparse).2.2 hi
  | store now =>
    rw [step] at h
    split at h
    · cases h
    rename_i i payload hpending
    split at h
    · cases h
    rename_i c hc
    cases h
    rw [IOScanner.store]
    split_ifs
    · exact .store now i payload c hpending hc
    · obtain ⟨hi, rfl⟩ := List.getElem?_eq_some_iff.mp hc
      rw [List.set_getElem_self]
      exact .dropped now

/-! ### The connections -/

/-- The parts of a connection of the adapter that do not change. -/
structure SameConn (c c' : IOConnection) : Prop where
  id : c'.connectionID = c.connectionID
  header : c'.runIdleHeader = c.runIdleHeader
  rpi : c'.rpi = c.rpi
  mult : c'.timeoutMult = c.timeoutMult
  consumer : c'.isConsumer = c.isConsumer

theorem SameConn.trans {c c' c'' : IOConnection} (h : SameConn c c') (h' : SameConn c' c'') :
    SameConn c c'' :=
  ⟨h'.id.trans h.id, h'.header.trans h.header, h'.rpi.trans h.rpi, h'.mult.trans h.mult,
    h'.consumer.trans h.consumer⟩

/-- **The connections of the adapter after a step.** -/
theorem runtime_step (h : s.step setup a = some t) {connID : UInt32} {c : IOConnection}
    (hc : t.runtime.connections connID = some c) :
    (∃ conn now, a = .addConnection conn now ∧ connID = conn.connectionID ∧ SameConn conn c ∧
        c.remoteAddr = conn.remoteAddr) ∨
      ∃ c₀, s.runtime.connections connID = some c₀ ∧ SameConn c₀ c ∧
        c.lastReceive = arrival connID c₀.lastReceive a ∧ (c.remoteAddr = c₀.remoteAddr ∨
          ∃ addr, a = .setProducerAddr connID addr ∧ c.remoteAddr = some addr) := by
  -- Most steps leave the connection alone.
  by_cases hkeep : s.runtime.connections connID = some c ∧
      arrival connID c.lastReceive a = c.lastReceive
  · exact .inr ⟨c, hkeep.1, ⟨rfl, rfl, rfl, rfl, rfl⟩, hkeep.2.symm, .inl rfl⟩
  cases step_spec h with
  | addConnection conn now =>
    obtain ⟨rfl, rfl⟩ := (Table.update_some_eq_some.mp hc).resolve_right fun h => hkeep ⟨h.2, rfl⟩
    exact .inl ⟨conn, now, rfl, rfl, ⟨rfl, rfl, rfl, rfl, rfl⟩, rfl⟩
  | removeConnection => exact absurd ⟨(Table.update_none_eq_some.mp hc).2, rfl⟩ hkeep
  | setProducerAddr connID' addr =>
    dsimp only at hc
    rw [Runtime.setProducerAddr] at hc
    split at hc
    · exact absurd ⟨hc, rfl⟩ hkeep
    · rename_i c₀ hc₀
      obtain ⟨rfl, rfl⟩ := (Table.update_some_eq_some.mp hc).resolve_right
        fun h => hkeep ⟨h.2, rfl⟩
      exact .inr ⟨c₀, hc₀, ⟨rfl, rfl, rfl, rfl, rfl⟩, rfl, .inr ⟨addr, rfl, rfl⟩⟩
  | watchdog => exact absurd ⟨(Option.filter_eq_some_iff.mp hc).1, rfl⟩ hkeep
  | tick connID' now c₀ _ hc₀ =>
    obtain ⟨rfl, rfl⟩ := (Table.update_some_eq_some.mp hc).resolve_right fun h => hkeep ⟨h.2, rfl⟩
    refine .inr ⟨c₀, hc₀, ?_⟩
    rw [Runtime.ticked]
    split_ifs <;> exact ⟨⟨rfl, rfl, rfl, rfl, rfl⟩, rfl, .inl rfl⟩
  | found data now connID' payload c₀ _ hparse hc₀ =>
    have haddressee : addressee data = some connID' := by rw [addressee, hparse]
    rcases Table.update_some_eq_some.mp hc with ⟨rfl, rfl⟩ | ⟨hne, hc⟩
    · exact .inr ⟨c₀, hc₀, ⟨rfl, rfl, rfl, rfl, rfl⟩, (if_pos haddressee).symm, .inl rfl⟩
    · refine absurd ⟨hc, if_neg fun heq => hne ?_⟩ hkeep
      exact Option.some.inj (heq.symm.trans haddressee)
  | notFound data now hnone =>
    refine absurd ⟨hc, if_neg fun heq => ?_⟩ hkeep
    rw [addressee] at heq
    split at heq
    · rename_i hparse
      cases heq
      cases (hnone _ _ hparse).symm.trans hc
    · cases heq
  | refused _ harr => exact absurd ⟨hc, harr _ _⟩ hkeep
  | _ => exact absurd ⟨hc, rfl⟩ hkeep

/-- The parts of a connection of the scanner that do not change. -/
structure SameEnds (c c' : IOConn) : Prop where
  otID : c'.otConnectionID = c.otConnectionID
  toID : c'.toConnectionID = c.toConnectionID
  header : c'.runIdleHeader = c.runIdleHeader
  addr : c'.remoteAddr = c.remoteAddr
  size : c'.outputData.length = c.outputData.length

/-- A place of a list after another value was put at a place. -/
theorem getElem?_set_eq_some {l : List IOConn} {i j : ℕ} {c x : IOConn}
    (h : (l.set j x)[i]? = some c) : i = j ∧ c = x ∨ l[i]? = some c := by
  rw [List.getElem?_set] at h
  split_ifs at h with hij
  · exact .inl ⟨hij.symm, (Option.some.inj h).symm⟩
  · exact .inr h

/-- **The connections of the scanner after a step**: one has just been opened, and the others keep
their places and their ends. The input of a connection is as before, or it is what the listener was
about to write. -/
theorem conns_step (h : s.step setup a = some t) {i : ℕ} {c : IOConn}
    (hc : t.conns[i]? = some c) : a = .opened c ∧ s.conns[i]? = none ∨
      ∃ c₀, s.conns[i]? = some c₀ ∧ SameEnds c₀ c ∧
        (c.inputData = c₀.inputData ∨ ∃ payload, s.pending = some (i, payload) ∧
          c.inputData = payload.drop (dataOffset c₀.runIdleHeader)) := by
  by_cases hkeep : s.conns[i]? = some c
  · exact .inr ⟨c, hkeep, ⟨rfl, rfl, rfl, rfl, rfl⟩, .inl rfl⟩
  cases step_spec h with
  | opened conn =>
    rcases Nat.lt_trichotomy i s.conns.length with hi | rfl | hi
    · exact absurd ((List.getElem?_append_left hi).symm.trans hc) hkeep
    · obtain rfl := Option.some.inj (List.getElem?_concat_length.symm.trans hc)
      exact .inl ⟨rfl, List.getElem?_eq_none le_rfl⟩
    · obtain ⟨hi', -⟩ := List.getElem?_eq_some_iff.mp hc
      rw [List.length_append, List.length_singleton] at hi'
      omega
  | setOutput j data c₀ hc₀ hlen =>
    obtain ⟨rfl, rfl⟩ := (getElem?_set_eq_some hc).resolve_right hkeep
    exact .inr ⟨c₀, hc₀, ⟨rfl, rfl, rfl, rfl, hlen⟩, .inl rfl⟩
  | produce j c₀ hc₀ =>
    obtain ⟨rfl, rfl⟩ := (getElem?_set_eq_some hc).resolve_right hkeep
    exact .inr ⟨c₀, hc₀, ⟨rfl, rfl, rfl, rfl, rfl⟩, .inl rfl⟩
  | store now j payload c₀ hpending hc₀ =>
    obtain ⟨rfl, rfl⟩ := (getElem?_set_eq_some hc).resolve_right hkeep
    refine .inr ⟨c₀, hc₀, ⟨rfl, rfl, rfl, rfl, rfl⟩, ?_⟩
    rw [IOScanner.received]
    dsimp only
    split_ifs
    · exact .inr ⟨payload, hpending, rfl⟩
    · exact .inl rfl
  | _ => exact absurd hc hkeep

/-- A connection that was there is there, at its place. -/
theorem exists_conns_step (h : s.step setup a = some t) {i : ℕ} {c₀ : IOConn}
    (hc₀ : s.conns[i]? = some c₀) : ∃ c, t.conns[i]? = some c ∧ SameEnds c₀ c := by
  have hlen : s.conns.length ≤ t.conns.length := by
    cases step_spec h with
    | opened => exact List.length_append ▸ Nat.le_add_right _ _
    | setOutput | produce | store => exact List.length_set.ge
    | _ => exact le_rfl
  obtain ⟨hi, -⟩ := List.getElem?_eq_some_iff.mp hc₀
  have hc := List.getElem?_eq_getElem (hi.trans_le hlen)
  rcases conns_step h hc with ⟨-, hnone⟩ | ⟨c, hc', hends, -⟩
  · cases hnone.symm.trans hc₀
  · obtain rfl := Option.some.inj (hc'.symm.trans hc₀)
    exact ⟨_, hc, hends⟩

/-- The connections are in the table under their own identifiers. -/
def Listed (s : CyclicIO) : Prop :=
  ∀ connID i, s.table connID = some i → ∃ c, s.conns[i]? = some c ∧ c.toConnectionID = connID

theorem Listed.step (hl : s.Listed) (h : s.step setup a = some t) : t.Listed := by
  -- An entry that was there before.
  have hkeep {connID : UInt32} {i : ℕ} (hi : s.table connID = some i) :
      ∃ c, t.conns[i]? = some c ∧ c.toConnectionID = connID := by
    obtain ⟨c₀, hc₀, hid⟩ := hl connID i hi
    obtain ⟨c, hc, hends⟩ := exists_conns_step h hc₀
    exact ⟨c, hc, hends.toID.trans hid⟩
  intro connID i hi
  cases step_spec h with
  | opened conn =>
    rcases Table.update_some_eq_some.mp hi with ⟨rfl, rfl⟩ | ⟨-, hi⟩
    · exact ⟨conn, List.getElem?_concat_length, rfl⟩
    · exact hkeep hi
  | closed => exact hkeep (Table.update_none_eq_some.mp hi).2
  | _ => exact hkeep hi

/-- What the listener of the scanner is about to write. -/
theorem pending_step (h : s.step setup a = some t) {i : ℕ} {payload : List UInt8}
    (hpending : t.pending = some (i, payload)) :
    s.pending = some (i, payload) ∨ ∃ pkt connID, (setup.scannerAddr, pkt) ∈ s.network ∧
      addressedData (pkt.take 2048) = .ok (some (connID, payload)) ∧ s.table connID = some i := by
  cases step_spec h with
  | foundByScanner pkt connID payload' i' hmem hdata hi =>
    cases hpending
    exact .inr ⟨pkt, connID, hmem, hdata, hi⟩
  | store | dropped => cases hpending
  | _ => exact .inl hpending

/-- What the listener of the adapter is about to write. -/
theorem incoming_step (h : s.step setup a = some t) {conn : IOConnection}
    {payload : List UInt8} (hincoming : t.incoming = some (conn, payload)) :
    s.incoming = some (conn, payload) ∨ ∃ pkt connID c, (setup.adapterAddr, pkt) ∈ s.network ∧
      addressedData (pkt.take 2048) = .ok (some (connID, payload)) ∧
      s.runtime.connections connID = some c ∧ conn.runIdleHeader = c.runIdleHeader ∧
      conn.assembly = c.assembly := by
  cases step_spec h with
  | found pkt now connID payload' c hmem hparse hc =>
    cases hincoming
    exact .inr ⟨pkt, connID, c, hmem, (Runtime.parse_eq_some.mp hparse).2.2, hc, rfl, rfl⟩
  | install | discarded => cases hincoming
  | _ => exact .inl hincoming

section
variable (setup : Setup)

/-- What holds of a connection of the adapter. -/
structure AdapterConn (connID : UInt32) (c : IOConnection) : Prop where
  id : c.connectionID = connID
  header : c.runIdleHeader = setup.header connID
  addr : c.remoteAddr ≠ some setup.adapterAddr

/-- What holds of a connection of the scanner. -/
structure ScannerConn (c : IOConn) : Prop where
  otHeader : c.runIdleHeader = setup.header c.otConnectionID
  toHeader : c.runIdleHeader = setup.header c.toConnectionID
  addr : c.remoteAddr ≠ setup.scannerAddr
  fits : 14 + dataOffset c.runIdleHeader + c.outputData.length ≤ 2048

/-- All connections are as the agreement says. -/
structure Wired (s : CyclicIO) : Prop where
  adapter : ∀ connID c, s.runtime.connections connID = some c → AdapterConn setup connID c
  scanner : ∀ (i : ℕ) c, s.conns[i]? = some c → ScannerConn setup c
  listed : s.Listed

end

/-- **The agreement is kept.** -/
theorem Wired.step (hw : Wired setup s) (hg : Agreeing setup s a)
    (h : s.step setup a = some t) : Wired setup t := by
  refine ⟨fun connID c hc => ?_, fun i c hc => ?_, hw.listed.step h⟩
  · rcases runtime_step h hc with ⟨conn, now, rfl, rfl, hsame, haddr⟩ | ⟨c₀, hc₀, hsame, -, haddr⟩
    · exact ⟨hsame.id, hsame.header.trans hg.1, haddr ▸ hg.2⟩
    · obtain ⟨hid, hheader, hother⟩ := hw.adapter connID c₀ hc₀
      refine ⟨hsame.id.trans hid, hsame.header.trans hheader, ?_⟩
      rcases haddr with haddr | ⟨addr, rfl, haddr⟩
      · exact haddr ▸ hother
      · exact fun heq => hg (Option.some.inj (haddr.symm.trans heq))
  · rcases conns_step h hc with ⟨rfl, -⟩ | ⟨c₀, hc₀, hends, -⟩
    · obtain ⟨hot, hto, haddr, hfits, -⟩ := hg
      exact ⟨hot, hto, haddr, hfits⟩
    · obtain ⟨hot, hto, haddr, hfits⟩ := hw.scanner i c₀ hc₀
      refine ⟨?_, ?_, hends.addr ▸ haddr, ?_⟩
      · rw [hends.header, hends.otID, hot]
      · rw [hends.header, hends.toID, hto]
      · rwa [hends.header, hends.size]

/-! ### Where data comes from -/

/-- The data that a producer of the adapter would send. -/
def Produces (connID : UInt32) (data : List UInt8) (s : CyclicIO) : Prop :=
  ∃ c asmID, s.runtime.connections connID = some c ∧ c.isProducer ∧ c.assembly = some asmID ∧
    s.runtime.assemblyObj.instances asmID = some data

/-- The data that a connection of the scanner would send. -/
def Outputs (connID : UInt32) (data : List UInt8) (s : CyclicIO) : Prop :=
  ∃ (i : ℕ) (c : IOConn), s.conns[i]? = some c ∧ c.otConnectionID = connID ∧ c.outputData = data

/-- A connection of the adapter is bound to the assembly. -/
def Bound (connID asmID : UInt32) (s : CyclicIO) : Prop :=
  ∃ c, s.runtime.connections connID = some c ∧ c.assembly = some asmID

/-- A datagram that fits the receiver, with data of a connection that has the property. -/
def Carried (setup : Setup) (P : UInt32 → List UInt8 → Prop) (pkt : List UInt8) : Prop :=
  ∃ connID sequenceCount data, pkt = datagram connID sequenceCount (setup.header connID) data ∧
    14 + dataOffset (setup.header connID) + data.length ≤ 2048 ∧ P connID data

theorem Carried.imp {P Q : UInt32 → List UInt8 → Prop} {pkt : List UInt8}
    (h : Carried setup P pkt) (hPQ : ∀ connID data, P connID data → Q connID data) :
    Carried setup Q pkt := by
  obtain ⟨connID, sequenceCount, data, hpkt, hfits, hP⟩ := h
  exact ⟨connID, sequenceCount, data, hpkt, hfits, hPQ connID data hP⟩

/-- **What a step puts on the network**: the data of a producer, for another than the adapter, or
the output of a connection, for another than the scanner. -/
theorem mem_network_step (hw : Wired setup s) (h : s.step setup a = some t) {addr : UDPAddr}
    {pkt : List UInt8} (hmem : (addr, pkt) ∈ t.network) :
    (addr, pkt) ∈ s.network ∨
      addr ≠ setup.adapterAddr ∧ Carried setup (fun connID data => s.Produces connID data) pkt ∨
      addr ≠ setup.scannerAddr ∧ Carried setup (fun connID data => s.Outputs connID data) pkt := by
  cases step_spec h with
  | tick connID now c sent hc hsent =>
    rcases List.mem_append.mp hmem with hmem | hmem
    · exact .inl hmem
    · obtain ⟨asmID, data, hdue, haddr, hasm, hdata, hfits, rfl⟩ := hsent addr pkt hmem
      obtain ⟨hid, hheader, hother⟩ := hw.adapter connID c hc
      have hproducer : c.isProducer := by
        rw [Runtime.due, Bool.and_assoc, Bool.and_eq_true] at hdue
        exact hdue.1
      exact .inr (.inl ⟨fun heq => hother (haddr.trans (congrArg some heq)), connID,
        c.sequenceCount + 1, data, by rw [hid, hheader], hheader ▸ hfits, c, asmID, hc, hproducer,
        hasm, hdata⟩)
  | produce i c hc =>
    rcases List.mem_append.mp hmem with hmem | hmem
    · exact .inl hmem
    · obtain ⟨rfl, rfl⟩ := Prod.mk.inj (List.mem_singleton.mp hmem)
      obtain ⟨hot, -, hother, hfits⟩ := hw.scanner i c hc
      exact .inr (.inr ⟨hother, c.otConnectionID, c.sequenceCount + 1, c.outputData,
        by rw [hot], hot ▸ hfits, i, c, hc, rfl, rfl⟩)
  | _ => exact .inl hmem

/-- **The contents of an assembly after a step**: as before, what the application has put there, or
what the listener was about to write. -/
theorem instances_step (h : s.step setup a = some t) {asmID : UInt32}
    {data : List UInt8} (hdata : t.runtime.assemblyObj.instances asmID = some data) :
    s.runtime.assemblyObj.instances asmID = some data ∨ a = .registerAssembly asmID data ∨
      a = .setAssembly asmID data ∨
      ∃ conn payload, s.incoming = some (conn, payload) ∧ conn.assembly = some asmID ∧
        data = payload.drop (dataOffset conn.runIdleHeader) := by
  by_cases hkeep : s.runtime.assemblyObj.instances asmID = some data
  · exact .inl hkeep
  cases step_spec h with
  | registerAssembly asmID' data' =>
    obtain ⟨rfl, rfl⟩ := (Table.update_some_eq_some.mp hdata).resolve_right fun h => hkeep h.2
    exact .inr (.inl rfl)
  | setAssembly asmID' data' =>
    obtain ⟨rfl, rfl⟩ := (Table.update_some_eq_some.mp hdata).resolve_right fun h => hkeep h.2
    exact .inr (.inr (.inl rfl))
  | setProducerAddr connID addr =>
    dsimp only at hdata
    rw [Runtime.setProducerAddr] at hdata
    split at hdata <;> exact .inl hdata
  | install conn payload asmID' hincoming hasm =>
    obtain ⟨rfl, rfl⟩ := (Table.update_some_eq_some.mp hdata).resolve_right fun h => hkeep h.2
    exact .inr (.inr (.inr ⟨conn, payload, hincoming, hasm, rfl⟩))
  | _ => exact .inl hdata

/-! ### Whole runs -/

/-- What is read out of a datagram for a connection. -/
theorem data_of_carried {P : UInt32 → List UInt8 → Prop} {pkt payload : List UInt8}
    {connID : UInt32} (hpkt : Carried setup P pkt)
    (h : addressedData (pkt.take 2048) = .ok (some (connID, payload))) :
    P connID (payload.drop (dataOffset (setup.header connID))) := by
  obtain ⟨id, sequenceCount, data, rfl, hfits, hP⟩ := hpkt
  rw [List.take_of_length_le (by rw [length_datagram]; omega),
    addressedData_datagram (by omega)] at h
  obtain ⟨rfl, rfl⟩ := Prod.mk.inj (Option.some.inj (Except.ok.inj h))
  rwa [drop_ioPayload]

end

section
variable {setup : Setup} {as : List CyclicStep} {s : CyclicIO}

/-- The run has been in a state with the property. -/
abbrev Seen (setup : Setup) (as : List CyclicStep) (P : CyclicIO → Prop) : Prop :=
  (system setup).Visited (Agreeing setup) as P

/-- What is on the network was sent by the adapter, for another, or by the scanner, for another, and
its data was that of the buffer that it belongs to; so was what the listeners are about to write. -/
structure Accounted (setup : Setup) (as : List CyclicStep) (s : CyclicIO) : Prop where
  wired : Wired setup s
  network : ∀ addr pkt, (addr, pkt) ∈ s.network →
    addr ≠ setup.adapterAddr ∧
      Carried setup (fun connID data => Seen setup as (Produces connID data)) pkt ∨
    addr ≠ setup.scannerAddr ∧
      Carried setup (fun connID data => Seen setup as (Outputs connID data)) pkt
  pending : ∀ i payload, s.pending = some (i, payload) → ∃ c, s.conns[i]? = some c ∧
    Seen setup as (Produces c.toConnectionID (payload.drop (dataOffset c.runIdleHeader)))
  incoming : ∀ conn payload, s.incoming = some (conn, payload) →
    ∃ connID, Seen setup as (Outputs connID (payload.drop (dataOffset conn.runIdleHeader))) ∧
      ∀ asmID, conn.assembly = some asmID → Seen setup as (Bound connID asmID)

theorem accounted_of_run (h : (system setup).Run (Agreeing setup) (new setup.ao) as s) :
    Accounted setup as s := by
  refine TransitionSystem.Run.history (M := system setup)
    ⟨⟨nofun, nofun, nofun⟩, nofun, nofun, nofun⟩ ?_ h
  intro as s a t hrun hi hg hstep
  refine ⟨hi.wired.step hg hstep, fun addr pkt hmem => ?_, fun i payload hpending => ?_,
    fun conn payload hincoming => ?_⟩
  · rcases mem_network_step hi.wired hstep hmem with hmem | ⟨haddr, hpkt⟩ | ⟨haddr, hpkt⟩
    · rcases hi.network addr pkt hmem with ⟨haddr, hpkt⟩ | ⟨haddr, hpkt⟩
      · exact .inl ⟨haddr, hpkt.imp fun _ _ h => h.append⟩
      · exact .inr ⟨haddr, hpkt.imp fun _ _ h => h.append⟩
    · exact .inl ⟨haddr, hpkt.imp fun _ _ h => hrun.visited h⟩
    · exact .inr ⟨haddr, hpkt.imp fun _ _ h => hrun.visited h⟩
  · -- The connection may have changed since it was found, but not its ends.
    obtain ⟨c₀, hc₀, hseen⟩ : ∃ c₀, s.conns[i]? = some c₀ ∧ Seen setup as
        (Produces c₀.toConnectionID (payload.drop (dataOffset c₀.runIdleHeader))) := by
      rcases pending_step hstep hpending with hpending | ⟨pkt, connID, hmem, hdata, hlisted⟩
      · exact hi.pending i payload hpending
      · obtain ⟨c₀, hc₀, rfl⟩ := hi.wired.listed connID i hlisted
        have hpkt := (hi.network setup.scannerAddr pkt hmem).elim And.right fun h => absurd rfl h.1
        refine ⟨c₀, hc₀, ?_⟩
        rw [(hi.wired.scanner i c₀ hc₀).toHeader]
        exact data_of_carried hpkt hdata
    obtain ⟨c, hc, hends⟩ := exists_conns_step hstep hc₀
    refine ⟨c, hc, ?_⟩
    rw [hends.toID, hends.header]
    exact hseen.append
  · rcases incoming_step hstep hincoming with hincoming | ⟨pkt, connID, c, hmem, hdata, hc,
      hheader, hasm⟩
    · obtain ⟨connID, houtput, hbound⟩ := hi.incoming conn payload hincoming
      exact ⟨connID, houtput.append, fun asmID hasm => (hbound asmID hasm).append⟩
    · have hpkt := (hi.network setup.adapterAddr pkt hmem).elim (fun h => absurd rfl h.1) And.right
      refine ⟨connID, ?_, fun asmID h => hrun.visited ⟨c, hc, hasm.symm.trans h⟩⟩
      rw [hheader, (hi.wired.adapter connID c hc).header]
      exact (data_of_carried hpkt hdata).append

/-- **The input of the scanner was produced**: whatever the network loses, repeats or delivers late,
the input of a connection is cleared, or it is what an assembly had as a whole, at some time before,
while a producer of the adapter with the identifier of the connection was bound to it. -/
theorem input_was_produced (h : (system setup).Run (Agreeing setup) (new setup.ao) as s) (i : ℕ)
    (c : IOConn) (hc : s.conns[i]? = some c) :
    c.inputData = List.replicate c.inputData.length 0 ∨
      Seen setup as (Produces c.toConnectionID c.inputData) := by
  refine TransitionSystem.Run.history (M := system setup)
    (I := fun as s => ∀ (i : ℕ) c, s.conns[i]? = some c →
      c.inputData = List.replicate c.inputData.length 0 ∨
        Seen setup as (Produces c.toConnectionID c.inputData))
    nofun ?_ h i c hc
  intro as s a t hrun ih hg hstep i c hc
  rcases conns_step hstep hc with ⟨rfl, -⟩ | ⟨c₀, hc₀, hends, heq | ⟨payload, hpending, heq⟩⟩
  · exact .inl hg.2.2.2.2
  · rw [heq, hends.toID]
    exact (ih i c₀ hc₀).imp id fun h => h.append
  · obtain ⟨c₁, hc₁, hseen⟩ := (accounted_of_run hrun).pending i payload hpending
    obtain rfl := Option.some.inj (hc₀.symm.trans hc₁)
    rw [heq, hends.toID]
    exact .inr hseen.append

/-- There are no assemblies at the start. -/
def twoHosts : Setup :=
  ⟨⟨[10, 0, 0, 1], 2222⟩, ⟨[10, 0, 0, 2], 2222⟩, ⟨fun _ => none⟩, fun _ => true⟩

/-- A run with data in both directions: the adapter has two assemblies of two bytes, one for each
direction of a connection. -/
def bothDirections : List CyclicStep :=
  [.registerAssembly 100 [0, 0], .registerAssembly 101 [5, 6],
    .addConnection ⟨1, 10000000, 0, true, none, some 100, 0, 0, 0, false, true⟩ 0,
    .addConnection ⟨0x80000001, 10000000, 0, true, some ⟨[10, 0, 0, 2], 2222⟩, some 101, 0, 0, 0,
      true, false⟩ 0,
    .opened ⟨1, 0x80000001, 1, 1, 1, [0, 0], [0, 0], 10000000, 0, 0, 0, true,
      ⟨[10, 0, 0, 1], 2222⟩⟩,
    .setOutput 0 [7, 8], .produce 0, .tick 1 10000000, .tick 0x80000001 10000000,
    .toScanner (datagram 0x80000001 1 true [5, 6]), .setAssembly 101 [9, 9],
    .toAdapter (datagram 1 1 true [7, 8]) 10000001, .closed 0x80000001, .store 10000002,
    .removeConnection 1, .install]

theorem exists_run_bothDirections :
    ∃ s, (system twoHosts).Run (Agreeing twoHosts) (new twoHosts.ao) bothDirections s ∧
      s.conns[0]?.map (fun c => (c.toConnectionID, c.inputData)) = some (0x80000001, [5, 6]) ∧
      s.runtime.assemblyObj.instances 100 = some [7, 8] := by
  have hexec : ((system twoHosts).exec (Agreeing twoHosts) (new twoHosts.ao)
      bothDirections).map (fun s => (s.conns[0]?.map (fun c => (c.toConnectionID, c.inputData)),
        s.runtime.assemblyObj.instances 100)) =
      some (some (0x80000001, [5, 6]), some [7, 8]) := by
    decide +kernel
  obtain ⟨s, hs, heq⟩ := Option.map_eq_some_iff.mp hexec
  obtain ⟨hinput, hdata⟩ := Prod.mk.inj heq
  exact ⟨s, TransitionSystem.run_of_exec hs, hinput, hdata⟩

/-- The input is what the assembly had before it was written again. -/
theorem input_was_produced_bothDirections :
    ∃ s c, (system twoHosts).Run (Agreeing twoHosts) (new twoHosts.ao) bothDirections s ∧
      s.conns[0]? = some c ∧ c.inputData = [5, 6] ∧
      Seen twoHosts bothDirections (Produces 0x80000001 [5, 6]) := by
  obtain ⟨s, hrun, hinput, -⟩ := exists_run_bothDirections
  obtain ⟨c, hc, heq⟩ := Option.map_eq_some_iff.mp hinput
  obtain ⟨hid, hinput⟩ := Prod.mk.inj heq
  have hproduced := input_was_produced hrun 0 c hc
  rw [hid, hinput] at hproduced
  exact ⟨s, c, hrun, hc, hinput, hproduced.resolve_left (by decide)⟩

/-- **The contents of an assembly were put there**: by whoever set up the adapter, by its
application, or by the scanner, whose connection had them as its output as a whole at some time
before. At some time before, not necessarily the same, a connection of the adapter with its
identifier was bound to the assembly. -/
theorem assembly_was_output (h : (system setup).Run (Agreeing setup) (new setup.ao) as s)
    (asmID : UInt32) (data : List UInt8)
    (hdata : s.runtime.assemblyObj.instances asmID = some data) :
    setup.ao.instances asmID = some data ∨ .registerAssembly asmID data ∈ as ∨
      .setAssembly asmID data ∈ as ∨
      ∃ connID, Seen setup as (Outputs connID data) ∧ Seen setup as (Bound connID asmID) := by
  refine TransitionSystem.Run.history (M := system setup)
    (I := fun as s => ∀ asmID data, s.runtime.assemblyObj.instances asmID = some data →
      setup.ao.instances asmID = some data ∨ .registerAssembly asmID data ∈ as ∨
        .setAssembly asmID data ∈ as ∨
        ∃ connID, Seen setup as (Outputs connID data) ∧ Seen setup as (Bound connID asmID))
    (fun _ _ h => .inl h) ?_ h asmID data hdata
  intro as s a t hrun ih hg hstep asmID data hdata
  rcases instances_step hstep hdata with hdata | rfl | rfl | ⟨conn, payload, hincoming, hasm, rfl⟩
  · rcases ih asmID data hdata with h | h | h | ⟨connID, houtput, hbound⟩
    · exact .inl h
    · exact .inr (.inl (List.mem_append_left _ h))
    · exact .inr (.inr (.inl (List.mem_append_left _ h)))
    · exact .inr (.inr (.inr ⟨connID, houtput.append, hbound.append⟩))
  · exact .inr (.inl List.mem_concat_self)
  · exact .inr (.inr (.inl List.mem_concat_self))
  · obtain ⟨connID, houtput, hbound⟩ := (accounted_of_run hrun).incoming conn payload hincoming
    exact .inr (.inr (.inr ⟨connID, houtput.append, (hbound asmID hasm).append⟩))

/-- The assembly has what the scanner has set. -/
theorem assembly_was_output_bothDirections :
    ∃ s, (system twoHosts).Run (Agreeing twoHosts) (new twoHosts.ao) bothDirections s ∧
      s.runtime.assemblyObj.instances 100 = some [7, 8] ∧
      ∃ connID, Seen twoHosts bothDirections (Outputs connID [7, 8]) := by
  obtain ⟨s, hrun, -, hdata⟩ := exists_run_bothDirections
  refine ⟨s, hrun, hdata, ?_⟩
  rcases assembly_was_output hrun 100 [7, 8] hdata with h | h | h | ⟨connID, houtput, -⟩
  · cases h
  · simp [bothDirections] at h
  · simp [bothDirections] at h
  · exact ⟨connID, houtput⟩

/-! ### The watchdog -/

section
variable {t : CyclicIO} {a : CyclicStep} {connID : UInt32} {limit last : ℤ} {c : IOConnection}

/-- The step neither adds a connection with the identifier nor removes it. -/
def Leaves (connID : UInt32) (_ : CyclicIO) : CyclicStep → Prop
  | .addConnection conn _ => conn.connectionID ≠ connID
  | .removeConnection id => id ≠ connID
  | _ => True

/-- The time of the last datagram for a connection after some steps. -/
def lastArrival (connID : UInt32) (last : ℤ) (as : List CyclicStep) : ℤ :=
  as.foldl (arrival connID) last

/-- No round of the watchdog comes later after the last datagram than the limit allows. -/
def Fed (connID : UInt32) (limit last : ℤ) (as : List CyclicStep) : Prop :=
  ∀ bs now, bs ++ [.watchdog now] <+: as → now - lastArrival connID last bs ≤ limit

theorem fed_concat :
    Fed connID limit last (as ++ [a]) ↔ Fed connID limit last as ∧
      ∀ now, a = .watchdog now → now - lastArrival connID last as ≤ limit := by
  constructor
  · intro h
    exact ⟨fun bs now hbs => h bs now (hbs.trans (List.prefix_append _ _)),
      fun now ha => h as now (ha ▸ List.prefix_rfl)⟩
  · rintro ⟨h, hlast⟩ bs now hbs
    rcases List.prefix_concat_iff.mp hbs with heq | hbs
    · obtain ⟨rfl, ha⟩ := List.append_inj' heq rfl
      exact hlast now (List.singleton_inj.mp ha).symm
    · exact h bs now hbs

/-- Only the watchdog takes a connection away. -/
theorem exists_connection_step (h : s.step setup a = some t) (hg : Leaves connID s a)
    (hc : s.runtime.connections connID = some c)
    (ha : ∀ now, a = .watchdog now → Runtime.timedOut c now = false) :
    ∃ c', t.runtime.connections connID = some c' := by
  have hput {id : UInt32} {c₀ c₁ : IOConnection} (hc₀ : s.runtime.connections id = some c₀) :
      ∃ c', Function.update s.runtime.connections id (some c₁) connID = some c' :=
    (Table.exists_update_some (P := fun _ => True) hc₀ (·) ⟨c, hc, trivial⟩).imp fun _ h => h.1
  cases step_spec h with
  | addConnection | removeConnection =>
    exact ⟨c, (Function.update_of_ne (Ne.symm hg) _ _).trans hc⟩
  | setProducerAddr id addr =>
    dsimp only
    rw [Runtime.setProducerAddr]
    split
    · exact ⟨c, hc⟩
    · exact hput ‹_›
  | watchdog now => exact ⟨c, Option.filter_eq_some_iff.mpr ⟨hc, by rw [ha now rfl]; rfl⟩⟩
  | tick _ _ _ _ hc₀ => exact hput hc₀
  | found _ _ _ _ _ _ _ hc₀ => exact hput hc₀
  | _ => exact ⟨c, hc⟩

/-- A consumer that is there was fed, and one that is gone was not. -/
inductive Kept (connID : UInt32) (limit : ℤ) (c : IOConnection) (as : List CyclicStep)
    (s : CyclicIO) : Prop
  | kept (c' : IOConnection) (hc : s.runtime.connections connID = some c') (hsame : SameConn c c')
      (hlast : c'.lastReceive = lastArrival connID c.lastReceive as)
      (hfed : Fed connID limit c.lastReceive as)
  | gone (hnone : s.runtime.connections connID = none)
      (hfed : ¬ Fed connID limit c.lastReceive as)

theorem Kept.step (hlimit : ∀ c' now, SameConn c c' →
      (Runtime.timedOut c' now = true ↔ limit < now - c'.lastReceive))
    (hk : Kept connID limit c as s) (hg : Leaves connID s a) (h : s.step setup a = some t) :
    Kept connID limit c (as ++ [a]) t := by
  cases hk with
  | kept c₀ hc₀ hsame hlast hfed =>
    by_cases ha : ∀ now, a = .watchdog now → Runtime.timedOut c₀ now = false
    · obtain ⟨c', hc'⟩ := exists_connection_step h hg hc₀ ha
      rcases runtime_step h hc' with ⟨conn, now, rfl, hid, -⟩ | ⟨c₁, hc₁, hsame', harr, -⟩
      · exact absurd hid.symm hg
      · obtain rfl := Option.some.inj (hc₁.symm.trans hc₀)
        refine .kept c' hc' (hsame.trans hsame') ?_ (fed_concat.mpr ⟨hfed, fun now hnow => ?_⟩)
        · rw [harr, hlast, lastArrival, lastArrival, List.foldl_concat]
        · rw [← hlast, ← not_lt, ← hlimit c₁ now hsame, ha now hnow]
          exact Bool.false_ne_true
    · push Not at ha
      obtain ⟨now, rfl, hout⟩ := ha
      cases h
      have hout := Bool.ne_false_iff.mp hout
      refine .gone ?_ fun hfed' => ?_
      · change (s.runtime.connections connID).filter _ = none
        rw [hc₀, Option.filter_some, hout]
        rfl
      · have hlate := (hlimit c₀ now hsame).mp hout
        exact absurd ((fed_concat.mp hfed').2 now rfl) (hlast ▸ not_le.mpr hlate)
  | gone hnone hfed =>
    refine .gone ?_ fun hfed' => hfed (fed_concat.mp hfed').1
    rw [Option.eq_none_iff_forall_ne_some]
    intro c' hc'
    rcases runtime_step h hc' with ⟨conn, now, rfl, hid, -⟩ | ⟨c₀, hc₀, -⟩
    · exact hg hid.symm
    · cases hnone.symm.trans hc₀

/-- **A consumer is kept as long as it is fed**: while nobody adds or removes a connection with its
identifier, it is there at the end of a run if and only if no round of the watchdog came later after
the last datagram for it than the limit. A datagram of any size counts. -/
theorem kept_iff_fed (h : (TransitionSystem.mk s (step setup)).Run (Leaves connID) s as t)
    (hc : s.runtime.connections connID = some c) (hconsumer : c.isConsumer = true) (micros : ℕ)
    (hrpi : c.rpi = micros * 1000) (hlimit : watchdogLimit micros c.timeoutMult < 2 ^ 63) :
    (t.runtime.connections connID).isSome ↔ ∀ bs now, bs ++ [.watchdog now] <+: as →
      now - lastArrival connID c.lastReceive bs ≤ watchdogLimit micros c.timeoutMult := by
  have htimedOut (c' : IOConnection) (now : ℤ) (hsame : SameConn c c') :
      Runtime.timedOut c' now = true ↔
        watchdogLimit micros c.timeoutMult < now - c'.lastReceive := by
    have hshort := watchdogTimeout_of_lt hlimit ▸ watchdogTimeout_lt micros c.timeoutMult
    rw [Runtime.timedOut, hsame.consumer, hconsumer, Bool.true_and, decide_eq_true_eq, hsame.rpi,
      hrpi, hsame.mult, watchdogTimeout_of_lt hlimit]
    exact lt_timeSub_iff (watchdogLimit_nonneg _ _) hshort
  have hkept : Kept connID (watchdogLimit micros c.timeoutMult) c as t :=
    TransitionSystem.Run.history (M := ⟨s, step setup⟩)
      (.kept c hc ⟨rfl, rfl, rfl, rfl, rfl⟩ rfl fun bs now hbs => by simp at hbs)
      (fun _ _ _ _ _ hk hg hstep => hk.step htimedOut hg hstep) h
  cases hkept with
  | kept c' hc' _ _ hfed => exact iff_of_true (by rw [hc']; rfl) hfed
  | gone hnone hfed => exact iff_of_false (by rw [hnone]; exact Bool.false_ne_true) hfed

/-- An adapter with a consumer whose limit is 40 ms; a datagram for it is under way. -/
def watched : CyclicIO :=
  { new ⟨fun _ => none⟩ with
    runtime := (Runtime.newRuntime ⟨fun _ => none⟩).addConnection
      ⟨1, 10000000, 0, false, none, none, 0, 0, 0, false, true⟩ 0
    network := [(⟨[10, 0, 0, 1], 2222⟩, datagram 1 1 false [])] }

/-- The datagram arrives in time for the second round of the watchdog and not for the third. -/
def starving : List CyclicStep :=
  [.watchdog 40000000, .toAdapter (datagram 1 1 false []) 41000000, .install, .watchdog 81000000,
    .watchdog 81000001]

theorem kept_iff_fed_starving :
    ∃ t, (TransitionSystem.mk watched (step twoHosts)).Run (Leaves 1) watched starving t ∧
      ¬ (t.runtime.connections 1).isSome := by
  obtain ⟨t, hrun⟩ : ∃ t,
      (TransitionSystem.mk watched (step twoHosts)).Run (Leaves 1) watched starving t :=
    ⟨_, .cons trivial rfl (.cons trivial rfl (.cons trivial rfl (.cons trivial rfl
      (.cons trivial rfl (.nil _)))))⟩
  refine ⟨t, hrun, fun hkept => ?_⟩
  have hfed := (kept_iff_fed hrun rfl rfl 10000 rfl (by decide)).mp hkept (starving.take 4)
    81000001 List.prefix_rfl
  exact absurd hfed (by decide +kernel)

end

/-! ### The adapter of the example -/

/-- Nothing for the scanner is on the network, no producer has a destination, and the inputs are
cleared. -/
structure Silent (setup : Setup) (s : CyclicIO) : Prop where
  network : ∀ pkt, (setup.scannerAddr, pkt) ∉ s.network
  adapter : ∀ connID c, s.runtime.connections connID = some c → c.remoteAddr = none
  scanner : ∀ (i : ℕ) c, s.conns[i]? = some c → c.remoteAddr ≠ setup.scannerAddr
  pending : s.pending = none
  input : ∀ (i : ℕ) c, s.conns[i]? = some c → c.inputData = List.replicate c.inputData.length 0

theorem Silent.step {t : CyclicIO} {a : CyclicStep} (hi : Silent setup s)
    (hg : AsExample setup s a) (h : s.step setup a = some t) : Silent setup t := by
  refine ⟨fun pkt hmem => ?_, fun connID c hc => ?_, fun i c hc => ?_, ?_, fun i c hc => ?_⟩
  · cases step_spec h with
    | tick connID now c sent hc hsent =>
      rcases List.mem_append.mp hmem with hmem | hmem
      · exact hi.network pkt hmem
      · obtain ⟨-, -, -, haddr, -⟩ := hsent setup.scannerAddr pkt hmem
        cases haddr.symm.trans (hi.adapter connID c hc)
    | produce i c hc =>
      rcases List.mem_append.mp hmem with hmem | hmem
      · exact hi.network pkt hmem
      · have heq := (Prod.mk.inj (List.mem_singleton.mp hmem)).1
        exact hi.scanner i c hc heq.symm
    | _ => exact hi.network pkt hmem
  · rcases runtime_step h hc with ⟨conn, now, rfl, -, -, haddr⟩ |
      ⟨c₀, hc₀, -, -, haddr | ⟨addr, rfl, -⟩⟩
    · rw [haddr]
      obtain ⟨c, req, rfl | rfl⟩ := hg <;> rfl
    · exact haddr.trans (hi.adapter connID c₀ hc₀)
    · exact absurd hg id
  · rcases conns_step h hc with ⟨rfl, -⟩ | ⟨c₀, hc₀, hends, -⟩
    · exact hg.1
    · exact hends.addr ▸ hi.scanner i c₀ hc₀
  · rw [Option.eq_none_iff_forall_ne_some]
    rintro ⟨i, payload⟩ hpending
    rcases pending_step h hpending with hpending | ⟨pkt, -, hmem, -⟩
    · cases hi.pending.symm.trans hpending
    · exact hi.network pkt hmem
  · rcases conns_step h hc with ⟨rfl, -⟩ | ⟨c₀, hc₀, -, heq | ⟨payload, hpending, -⟩⟩
    · exact hg.2
    · rw [heq]
      exact hi.input i c₀ hc₀
    · cases hi.pending.symm.trans hpending

/-- **The adapter of the example is silent**: its connections never learn where to send, so that in
no run anything for the scanner is on the network, and the inputs of the scanner stay cleared. -/
theorem input_stays_zero (h : (system setup).Run (AsExample setup) (new setup.ao) as s) :
    (∀ pkt, (setup.scannerAddr, pkt) ∉ s.network) ∧
      ∀ (i : ℕ) c, s.conns[i]? = some c → c.inputData = List.replicate c.inputData.length 0 := by
  have hsilent : Silent setup s :=
    h.invariant (fun _ _ _ hi hg hstep => hi.step hg hstep) ⟨nofun, nofun, nofun, rfl, nofun⟩
  exact ⟨hsilent.network, hsilent.input⟩

/-- A producer is added and comes due while a connection of the scanner waits for it. -/
def waiting : List CyclicStep :=
  [.addConnection (producer ⟨fun _ => some [5, 6]⟩ ⟨1, 0x80000001, 1, 1, 1⟩ (openRequest 1)) 0,
    .opened ⟨1, 0x80000001, 1, 1, 1, [], [0, 0], 10000000, 0, 0, 0, false, ⟨[10, 0, 0, 1], 2222⟩⟩,
    .tick 0x80000001 10000000]

/-- The tick goes by without a datagram. -/
theorem input_stays_zero_waiting :
    let setup := { twoHosts with ao := ⟨fun _ => some [5, 6]⟩ }
    ∃ s, (system setup).Run (AsExample setup) (new setup.ao) waiting s ∧
      (s.runtime.connections 0x80000001).map IOConnection.sequenceCount = some 1 ∧
      ∀ pkt, (setup.scannerAddr, pkt) ∉ s.network := by
  intro setup
  obtain ⟨s, hrun, hcount⟩ : ∃ s, (system setup).Run (AsExample setup) (new setup.ao) waiting s ∧
      (s.runtime.connections 0x80000001).map IOConnection.sequenceCount = some 1 :=
    ⟨_, .cons ⟨_, _, .inr rfl⟩ rfl (.cons ⟨by decide, rfl⟩ rfl (.cons trivial rfl (.nil _))), rfl⟩
  exact ⟨s, hrun, hcount, (input_stays_zero hrun).1⟩

end

end CyclicIO

end GoIndustrial.EtherNetIP
