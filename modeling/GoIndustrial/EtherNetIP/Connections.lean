import GoIndustrial.EtherNetIP.Server
import GoIndustrial.Lib.TransitionSystem
import Mathlib.Data.Finset.Card
import Mathlib.Data.Finset.Range

/-!
# Connections of the EtherNet/IP server

`acceptLoop` and `HandleConn` of `protocol/ethernetip/server.go` as atomic steps of one system. The
accept loop takes a connection, compares the number of entries in the client table with the limit,
and starts a handler; the handler puts its connection into the table when it runs, reads frames,
handles and answers them, and takes its connection out of the table when it leaves its loop. The
counter of session handles and the device are shared by all handlers. The device may change at any
time, by cyclic data or by the application.

A read or a write may fail at any time, which is also all that `Stop` does to a handler. What
happens is kept in a log, with the number of the connection.

## Main definitions

* `EtherNetIP.ServerState`, `EtherNetIP.serverSystem` : the server from `Start` on.
* `EtherNetIP.Event`, `EtherNetIP.ServerState.connLog` : what happened on a connection.

## Main results

* `EtherNetIP.ServerState.handlerStep_spec`, `EtherNetIP.ServerState.loopStep_spec` : what each step
  does.
-/

namespace GoIndustrial.EtherNetIP

variable {σ : Type}

/-! ### States -/

/-- What is done with a connection. -/
inductive ConnPhase
  /-- The accept loop has it. -/
  | held
  /-- Its handler was started and has not put it into the table. -/
  | starting
  /-- Its handler waits for a header. -/
  | reading
  /-- A header was read, and its data is outstanding. -/
  | waiting (header : RequestHeader)
  | received (f : Frame)
  /-- The response header is to be written. -/
  | replying (f : Frame) (r : Reply)
  /-- The response data is to be written. -/
  | writing (respData : List UInt8)
  /-- Its handler has left the loop. -/
  | leaving
  /-- Its handler has taken it out of the table. -/
  | removed
  | ended
  | panicked

structure ServerConn where
  phase : ConnPhase
  /-- The bytes received and not read. -/
  input : List UInt8
  /-- The bytes written. -/
  output : List UInt8
  sessionHandle : UInt32

/-- Where the accept loop is; connections have numbers. -/
inductive AcceptPhase
  | waiting
  | accepted (id : ℕ)
  /-- The limit was checked. -/
  | checked (id : ℕ)
  deriving DecidableEq

/-- The connection that the accept loop has. -/
def AcceptPhase.conn? : AcceptPhase → Option ℕ
  | waiting => none
  | accepted id | checked id => some id

/-- What happens on a connection. -/
inductive Event
  /-- A session handle was assigned. -/
  | registered (handle : UInt32)
  /-- A frame is all there. -/
  | received (f : Frame)
  /-- A request was given to the router. -/
  | routed (req : MessageRouterRequest)
  /-- A response header was written. -/
  | answered (header : List UInt8)

/-- The state of a server; connections have numbers in the order in which they are accepted. -/
structure ServerState (σ : Type) where
  conns : ℕ → Option ServerConn
  /-- The number of accepted connections. -/
  accepted : ℕ
  /-- The connections in the client table. -/
  clients : Finset ℕ
  loop : AcceptPhase
  nextSession : UInt32
  device : σ
  /-- What happened, the last event first. -/
  log : List (ℕ × Event)

/-- A step of the accept loop. -/
inductive LoopStep
  /-- `ln.Accept()` returns a connection. -/
  | accept
  /-- The limit is reached, and the connection is closed. -/
  | refuse
  /-- The limit is not reached. -/
  | pass
  /-- `go s.HandleConn(conn)`. -/
  | start

/-- A step of a handler, or of its peer. -/
inductive HandlerStep
  /-- The peer sends bytes. -/
  | deliver (bytes : List UInt8)
  | register
  | readHeader
  | readData
  | handle
  | writeHeader
  | writeData
  /-- A read or a write fails, or the server was stopped. -/
  | leave
  | remove
  | close

inductive ServerStep (σ : Type)
  | loop (a : LoopStep)
  | handler (id : ℕ) (a : HandlerStep)
  /-- The device changes on its own. -/
  | device (f : σ → σ)

/-- The handler is in its loop and outside the switch, where a read or a write may fail. -/
def ConnPhase.mayLeave : ConnPhase → Bool
  | reading | waiting _ | replying _ _ | writing _ => true
  | held | starting | received _ | leaving | removed | ended | panicked => false

/-- The header of 24 bytes is read. -/
def ServerConn.readHeader (c : ServerConn) : ServerConn :=
  { c with
    phase :=
      match parseHeader (c.input.take headerSize) with
      | .ok header => if maxPacketSize < header.dataLen.toNat then .leaving else .waiting header
      | .error _ => .panicked
    input := c.input.drop headerSize }

/-- Where the handler goes after the switch. -/
def Switched.phase (f : Frame) (w : Switched σ) : ConnPhase :=
  match w.result with
  | .ok none => .leaving
  | .ok (some r) => .replying f r
  | .error _ => .panicked

/-- What happened in the switch, the last event first. -/
def Switched.events (f : Frame) (w : Switched σ) : List Event :=
  if f.command = commandRegisterSession then [.registered w.view.sessionHandle]
  else (w.routed.map Event.routed).toList

namespace ServerState

/-- Change a connection, and log what happened on it. -/
def setConn (s : ServerState σ) (id : ℕ) (c : ServerConn) (events : List Event) : ServerState σ :=
  { s with
    conns := Function.update s.conns id (some c)
    log := events.map (fun e => (id, e)) ++ s.log }

/-- What happened on a connection, the last event first. -/
def connLog (s : ServerState σ) (id : ℕ) : List Event :=
  s.log.filterMap fun e => if e.1 = id then some e.2 else none

/-- The limit is on, and the table is full. -/
def Full (maxClients : ℕ) (s : ServerState σ) : Prop := 0 < maxClients ∧ maxClients ≤ s.clients.card

instance (maxClients : ℕ) (s : ServerState σ) : Decidable (s.Full maxClients) :=
  inferInstanceAs (Decidable (_ ∧ _))

/-- A step of the accept loop. -/
def loopStep (maxClients : ℕ) (s : ServerState σ) : LoopStep → Option (ServerState σ)
  | .accept =>
    if s.loop = .waiting then
      some { s.setConn s.accepted ⟨.held, [], [], 0⟩ [] with
        accepted := s.accepted + 1, loop := .accepted s.accepted }
    else none
  | .refuse =>
    match s.loop with
    | .accepted id => (s.conns id).bind fun c =>
      if s.Full maxClients then
        some { s.setConn id { c with phase := .ended } [] with loop := .waiting }
      else none
    | _ => none
  | .pass =>
    match s.loop with
    | .accepted id => if s.Full maxClients then none else some { s with loop := .checked id }
    | _ => none
  | .start =>
    match s.loop with
    | .checked id => (s.conns id).map fun c =>
      { s.setConn id { c with phase := .starting } [] with loop := .waiting }
    | _ => none

/-- The handler of the connection `c` with number `id` handles a frame. -/
def handle (srv : Server σ) (s : ServerState σ) (id : ℕ) (c : ServerConn) (f : Frame) :
    ServerState σ :=
  let switched := srv.handleFrame f ⟨c.sessionHandle, s.nextSession, s.device⟩
  { s.setConn id
      { c with phase := switched.phase f, sessionHandle := switched.view.sessionHandle }
      (switched.events f) with
    nextSession := switched.view.nextSession
    device := switched.view.device }

/-- A step of the handler of the connection `c` with number `id`. -/
def handlerStep (srv : Server σ) (s : ServerState σ) (id : ℕ) (c : ServerConn) :
    HandlerStep → Option (ServerState σ)
  | .deliver bytes => some (s.setConn id { c with input := c.input ++ bytes } [])
  | .register =>
    match c.phase with
    | .starting =>
      some { s.setConn id { c with phase := .reading } [] with clients := insert id s.clients }
    | _ => none
  | .readHeader =>
    match c.phase with
    | .reading => if c.input.length < headerSize then none else some (s.setConn id c.readHeader [])
    | _ => none
  | .readData =>
    match c.phase with
    | .waiting header =>
      if c.input.length < header.dataLen.toNat then none
      else
        let f : Frame := ⟨header, c.input.take header.dataLen.toNat⟩
        some (s.setConn id
          { c with phase := .received f, input := c.input.drop header.dataLen.toNat } [.received f])
    | _ => none
  | .handle =>
    match c.phase with
    | .received f => some (s.handle srv id c f)
    | _ => none
  | .writeHeader =>
    match c.phase with
    | .replying f r =>
      match respHeader f r with
      | .ok buf => some (s.setConn id
          { c with phase := .writing r.respData, output := c.output ++ buf } [.answered buf])
      | .error _ => some (s.setConn id { c with phase := .panicked } [])
    | _ => none
  | .writeData =>
    match c.phase with
    | .writing respData =>
      some (s.setConn id { c with phase := .reading, output := c.output ++ respData } [])
    | _ => none
  | .leave => if c.phase.mayLeave then some (s.setConn id { c with phase := .leaving } []) else none
  | .remove =>
    match c.phase with
    | .leaving =>
      some { s.setConn id { c with phase := .removed } [] with clients := s.clients.erase id }
    | _ => none
  | .close =>
    match c.phase with
    | .removed => some (s.setConn id { c with phase := .ended } [])
    | _ => none

/-- The state after a step. -/
def step (srv : Server σ) (maxClients : ℕ) (s : ServerState σ) :
    ServerStep σ → Option (ServerState σ)
  | .loop a => s.loopStep maxClients a
  | .handler id a => (s.conns id).bind fun c => s.handlerStep srv id c a
  | .device f => some { s with device := f s.device }

end ServerState

/-- A server with the client limit `maxClients`, 0 being no limit, and its device. -/
def serverSystem (srv : Server σ) (maxClients : ℕ) (device : σ) :
    TransitionSystem (ServerState σ) (ServerStep σ) where
  init :=
    { conns := fun _ => none
      accepted := 0
      clients := ∅
      loop := .waiting
      nextSession := 0
      device := device
      log := [] }
  step := ServerState.step srv maxClients

/-- A server without objects. -/
def bareServer : Server Unit where
  router := ⟨fun _ => none, none⟩
  identity := ⟨itemIDListIdentity, 1, .replicate 16 0, 0, 0, 0, .replicate 2 0, 0, 0, [], 0⟩

/-- The steps that accept a connection, start its handler and put it into the table. -/
def acceptSteps (id : ℕ) : List (ServerStep σ) :=
  [.loop .accept, .loop .pass, .loop .start, .handler id .register]

/-- The steps in which a handler receives and answers a frame. -/
def frameSteps (id : ℕ) (command : UInt16) (session : UInt32) (data : List UInt8) :
    List (ServerStep σ) :=
  [.handler id (.deliver ((EncapsulationHeader.mk command (UInt16.ofNat data.length) session 0
    (.replicate 8 0) 0).encode ++ data)), .handler id .readHeader, .handler id .readData,
    .handler id .handle, .handler id .writeHeader, .handler id .writeData]

/-! ### One step -/

namespace ServerState

/-- What the steps of a handler do. -/
inductive HandlerSpec (srv : Server σ) (s : ServerState σ) (id : ℕ) (c : ServerConn) :
    HandlerStep → ServerState σ → Prop
  | deliver (bytes : List UInt8) : HandlerSpec srv s id c (.deliver bytes)
      (s.setConn id { c with input := c.input ++ bytes } [])
  | register (h : c.phase = .starting) : HandlerSpec srv s id c .register
      { s.setConn id { c with phase := .reading } [] with clients := insert id s.clients }
  | readHeader (h : c.phase = .reading) (hlen : headerSize ≤ c.input.length) :
    HandlerSpec srv s id c .readHeader (s.setConn id c.readHeader [])
  | readData (header : RequestHeader) (h : c.phase = .waiting header) (f : Frame)
    (input : List UInt8) : HandlerSpec srv s id c .readData
      (s.setConn id { c with phase := .received f, input := input } [.received f])
  | handle (f : Frame) (h : c.phase = .received f) :
    HandlerSpec srv s id c .handle (s.handle srv id c f)
  | writeHeader (f : Frame) (r : Reply) (h : c.phase = .replying f r) :
    HandlerSpec srv s id c .writeHeader (s.setConn id
      { c with phase := .writing r.respData, output := c.output ++ (f.answer r).encode }
      [.answered (f.answer r).encode])
  | writeData (respData : List UInt8) (h : c.phase = .writing respData) :
    HandlerSpec srv s id c .writeData
      (s.setConn id { c with phase := .reading, output := c.output ++ respData } [])
  | leave (h : c.phase.mayLeave) : HandlerSpec srv s id c .leave
      (s.setConn id { c with phase := .leaving } [])
  | remove (h : c.phase = .leaving) : HandlerSpec srv s id c .remove
      { s.setConn id { c with phase := .removed } [] with clients := s.clients.erase id }
  | close (h : c.phase = .removed) : HandlerSpec srv s id c .close
      (s.setConn id { c with phase := .ended } [])

variable {srv : Server σ} {maxClients : ℕ} {s t : ServerState σ} {id : ℕ} {c : ServerConn}

theorem handlerStep_spec {a : HandlerStep} (h : s.handlerStep srv id c a = some t) :
    HandlerSpec srv s id c a t := by
  cases a with
  | deliver bytes =>
    cases h
    exact .deliver bytes
  | leave =>
    rw [handlerStep] at h
    split_ifs at h with hphase
    cases h
    exact .leave hphase
  | readHeader =>
    rw [handlerStep] at h
    split at h
    · rename_i hphase
      split_ifs at h with hlen
      cases h
      exact .readHeader hphase (Nat.not_lt.mp hlen)
    · cases h
  | readData =>
    rw [handlerStep] at h
    split at h
    · rename_i header hphase
      split_ifs at h
      cases h
      exact .readData header hphase _ _
    · cases h
  | writeHeader =>
    rw [handlerStep] at h
    split at h
    · rename_i f r hphase
      rw [respHeader_eq] at h
      cases h
      exact .writeHeader f r hphase
    · cases h
  | register | handle | writeData | remove | close =>
    rw [handlerStep] at h
    split at h
    · rename_i hphase
      cases h
      constructor
      exact hphase
    · cases h

@[simp] theorem conns_setConn_self (events : List Event) :
    (s.setConn id c events).conns id = some c :=
  Function.update_self _ _ _

theorem conns_setConn_of_ne {id' : ℕ} (hne : id' ≠ id) (events : List Event) :
    (s.setConn id c events).conns id' = s.conns id' :=
  Function.update_of_ne hne _ _

theorem connLog_setConn_self (events : List Event) :
    (s.setConn id c events).connLog id = events ++ s.connLog id := by
  have hevents : (events.map fun e => (id, e)).filterMap
      (fun e => if e.1 = id then some e.2 else none) = events := by
    simp [List.filterMap_map]
  rw [connLog, setConn, List.filterMap_append, hevents]
  rfl

theorem connLog_setConn_of_ne {id' : ℕ} (hne : id' ≠ id) (events : List Event) :
    (s.setConn id c events).connLog id' = s.connLog id' := by
  have hevents : (events.map fun e => (id, e)).filterMap
      (fun e => if e.1 = id' then some e.2 else none) = [] := by
    simp [List.filterMap_map, Ne.symm hne]
  rw [connLog, setConn, List.filterMap_append, hevents]
  rfl

/-- What the steps of the accept loop do. -/
inductive LoopSpec (maxClients : ℕ) (s : ServerState σ) : LoopStep → ServerState σ → Prop
  | accept (h : s.loop = .waiting) : LoopSpec maxClients s .accept
      { s.setConn s.accepted ⟨.held, [], [], 0⟩ [] with
        accepted := s.accepted + 1, loop := .accepted s.accepted }
  | refuse (id : ℕ) (c : ServerConn) (h : s.loop = .accepted id) (hc : s.conns id = some c) :
    LoopSpec maxClients s .refuse
      { s.setConn id { c with phase := .ended } [] with loop := .waiting }
  | pass (id : ℕ) (h : s.loop = .accepted id) (hfull : ¬ s.Full maxClients) :
    LoopSpec maxClients s .pass { s with loop := .checked id }
  | start (id : ℕ) (c : ServerConn) (h : s.loop = .checked id) (hc : s.conns id = some c) :
    LoopSpec maxClients s .start
      { s.setConn id { c with phase := .starting } [] with loop := .waiting }

theorem loopStep_spec {a : LoopStep} (h : s.loopStep maxClients a = some t) :
    LoopSpec maxClients s a t := by
  cases a with
  | accept =>
    rw [loopStep] at h
    split_ifs at h with hloop
    cases h
    exact .accept hloop
  | refuse =>
    rw [loopStep] at h
    split at h
    · rename_i id hloop
      obtain ⟨c, hc, h⟩ := Option.bind_eq_some_iff.mp h
      split_ifs at h
      cases h
      exact .refuse id c hloop hc
    · cases h
  | pass =>
    rw [loopStep] at h
    split at h
    · rename_i id hloop
      split_ifs at h with hfull
      cases h
      exact .pass id hloop hfull
    · cases h
  | start =>
    rw [loopStep] at h
    split at h
    · rename_i id hloop
      obtain ⟨c, hc, rfl⟩ := Option.map_eq_some_iff.mp h
      exact .start id c hloop hc
    · cases h

/-! ### The connection of the accept loop -/

/-- The accept loop has a connection whose handler was not started; connections that were not
accepted do not exist. -/
structure BaseInv (s : ServerState σ) : Prop where
  unused : ∀ id, s.accepted ≤ id → s.conns id = none
  held : ∀ id, s.loop.conn? = some id → ∃ c, s.conns id = some c ∧ c.phase = .held

namespace BaseInv

theorem unused_setConn (hi : s.BaseInv) (hc : s.conns id = some c) (c' : ServerConn)
    (events : List Event) :
    ∀ id', s.accepted ≤ id' → (s.setConn id c' events).conns id' = none := by
  intro id' hle
  have hne : id' ≠ id := by
    rintro rfl
    rw [hi.unused id' hle] at hc
    cases hc
  rw [conns_setConn_of_ne hne]
  exact hi.unused id' hle

/-- A connection changes, and stays held if it was. -/
theorem setConn (hi : s.BaseInv) (hc : s.conns id = some c) {c' : ServerConn} {events : List Event}
    (hphase : c.phase = .held → c'.phase = .held) : (s.setConn id c' events).BaseInv := by
  refine ⟨hi.unused_setConn hc c' events, fun id' hid' => ?_⟩
  obtain ⟨d, hd, hheld⟩ := hi.held id' hid'
  by_cases heq : id' = id
  · subst heq
    obtain rfl := Option.some.inj (hd.symm.trans hc)
    exact ⟨c', conns_setConn_self _, hphase hheld⟩
  · exact ⟨d, (conns_setConn_of_ne heq _).trans hd, hheld⟩

theorem handlerStep (hi : s.BaseInv) (hc : s.conns id = some c) {a : HandlerStep}
    (h : s.handlerStep srv id c a = some t) : t.BaseInv := by
  -- Only bytes are delivered to a connection that the accept loop has.
  have hset (c' : ServerConn) (events : List Event) (hne : c.phase ≠ .held) :
      (s.setConn id c' events).BaseInv := hi.setConn hc fun hheld => absurd hheld hne
  cases handlerStep_spec h with
  | deliver bytes => exact hi.setConn hc fun hheld => hheld
  | register hphase | remove hphase | handle f hphase =>
    exact { hset _ [] (by rw [hphase]; nofun) with }
  | readHeader hphase | readData header hphase | writeHeader f r hphase
  | writeData respData hphase | close hphase => exact hset _ _ (by rw [hphase]; nofun)
  | leave hphase =>
    refine hset _ _ fun hheld => ?_
    rw [hheld] at hphase
    cases hphase

theorem loopStep (hi : s.BaseInv) {a : LoopStep} (h : s.loopStep maxClients a = some t) :
    t.BaseInv := by
  cases loopStep_spec h with
  | accept hloop =>
    refine ⟨fun id hid => ?_, fun id hid => ?_⟩
    · have hid' : s.accepted + 1 ≤ id := hid
      exact (conns_setConn_of_ne (by omega) []).trans (hi.unused id (by omega))
    · obtain rfl : s.accepted = id := Option.some.inj hid
      exact ⟨_, conns_setConn_self [], rfl⟩
  | refuse id c hloop hc | start id c hloop hc => exact ⟨hi.unused_setConn hc _ [], nofun⟩
  | pass id hloop hfull =>
    refine ⟨hi.unused, fun id' hid' => hi.held id' ?_⟩
    rw [hloop]
    exact hid'

theorem init (srv : Server σ) (maxClients : ℕ) (device : σ) :
    BaseInv (serverSystem srv maxClients device).init :=
  ⟨fun _ _ => rfl, nofun⟩

theorem step (hi : s.BaseInv) {a : ServerStep σ} (h : s.step srv maxClients a = some t) :
    t.BaseInv := by
  cases a with
  | loop a => exact hi.loopStep h
  | handler id a =>
    obtain ⟨c, hc, h⟩ := Option.bind_eq_some_iff.mp h
    exact hi.handlerStep hc h
  | device f =>
    cases h
    exact { hi with }

end BaseInv

end ServerState

end GoIndustrial.EtherNetIP
