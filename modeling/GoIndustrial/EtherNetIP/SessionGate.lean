import GoIndustrial.EtherNetIP.Connections

/-!
# The session gate

Explicit messages reach the message router only under the session handle that was assigned last on
their connection, no two registrations get the same handle before the counter wraps around, and
every frame that is received gets one response header before the next frame is read. The three hold
in every interleaving of any number of connections that share the counter of handles.

## Main definitions

* `EtherNetIP.Gated`, `EtherNetIP.Answered` : what the log of a connection shows.
* `EtherNetIP.SessionGate` : the three properties of a state.

## Main results

* `EtherNetIP.ConnInv.handlerStep` : what a handler keeps about its connection.
* `EtherNetIP.sessionGate_of_reachable` : the gate in every run.
-/

namespace GoIndustrial.EtherNetIP

open ByteReader

variable {σ : Type}

/-! ### Logs of a connection -/

/-- The session handle that was assigned last. -/
def lastHandle : List Event → Option UInt32
  | [] => none
  | .registered handle :: _ => some handle
  | .received _ :: log | .routed _ :: log | .answered _ :: log => lastHandle log

/-- The frame that was received and has not been answered. -/
def pending : List Event → Option Frame
  | [] => none
  | .received f :: _ => some f
  | .answered _ :: _ => none
  | .registered _ :: log | .routed _ :: log => pending log

/-- Requests were given to the router for frames with explicit messages under the handle assigned
last, which is not zero. -/
def Gated : List Event → Prop
  | [] => True
  | .routed _ :: log =>
    (∃ f, pending log = some f ∧
      (f.command = commandSendRRData ∨ f.command = commandSendUnitData) ∧ f.session ≠ 0 ∧
      lastHandle log = some f.session) ∧ Gated log
  | .received _ :: log | .registered _ :: log | .answered _ :: log => Gated log

/-- The bytes are one header with the command and the sender context of the frame. -/
def Answers (buf : List UInt8) (f : Frame) : Prop :=
  buf.length = headerSize ∧ ∃ header, decode decodeHeader buf = .ok header ∧
    header.command = f.command ∧ header.senderContext = f.senderContext

/-- A frame is received when the one before was answered, and a header answers the frame that was
received last, and no other header did. -/
def Answered : List Event → Prop
  | [] => True
  | .received _ :: log => pending log = none ∧ Answered log
  | .answered buf :: log =>
    (∃ f, pending log = some f ∧ f.command ≠ commandUnregisterSession ∧ Answers buf f) ∧
      Answered log
  | .registered _ :: log | .routed _ :: log => Answered log

theorem answers_encode (f : Frame) (r : Reply) : Answers (f.answer r).encode f :=
  ⟨EncapsulationHeader.length_encode _, f.answer r, (consumes_decodeHeader _).decode, rfl, rfl⟩

/-- The handle that was assigned. -/
def Event.handle? : Event → Option UInt32
  | registered handle => some handle
  | received _ | routed _ | answered _ => none

/-- The handles that were assigned, the last one first. -/
def ServerState.handles (s : ServerState σ) : List UInt32 := s.log.filterMap fun e => e.2.handle?

/-- Explicit messages pass only under the handle of their connection, handles are distinct, and a
frame is answered before the next one is received: the handler goes on to handle it and to write the
header. -/
structure SessionGate (srv : Server σ) (maxClients : ℕ) (s : ServerState σ) : Prop where
  gated : ∀ id, Gated (s.connLog id)
  distinct : s.handles.length < 2 ^ 32 → s.handles.Nodup
  answered : ∀ id, Answered (s.connLog id)
  answers : srv.router.Safe → ∀ id c f, s.conns id = some c → c.phase = .received f →
    f.command ≠ commandUnregisterSession → ∃ t u buf,
      s.step srv maxClients (.handler id .handle) = some t ∧
      t.step srv maxClients (.handler id .writeHeader) = some u ∧
      u.connLog id = .answered buf :: t.connLog id ∧ Answers buf f

/-! ### A connection -/

/-- The frame that the handler has. -/
def ConnPhase.Holds (log : List Event) : ConnPhase → Prop
  | held | starting | reading | waiting _ | writing _ => pending log = none
  | received f => pending log = some f
  | replying f _ => pending log = some f ∧ f.command ≠ commandUnregisterSession
  | leaving | removed | ended | panicked => True

/-- What is known about a connection with a log. -/
structure ConnInv (log : List Event) (c : ServerConn) : Prop where
  handle : c.sessionHandle = (lastHandle log).getD 0
  holds : c.phase.Holds log
  gated : Gated log
  answered : Answered log

namespace ConnInv

variable {srv : Server σ} {s : ServerState σ} {log : List Event} {c : ServerConn} {id : ℕ}

/-- A step that logs nothing. -/
theorem of_phase (h : ConnInv log c) {c' : ServerConn}
    (hhandle : c'.sessionHandle = c.sessionHandle) (hholds : c'.phase.Holds log) : ConnInv log c' :=
  ⟨hhandle.trans h.handle, hholds, h.gated, h.answered⟩

theorem readHeader (h : ConnInv log c) (hphase : c.phase = .reading) :
    ConnInv log c.readHeader := by
  refine h.of_phase rfl ?_
  have hholds := h.holds
  rw [hphase] at hholds
  simp only [ServerConn.readHeader]
  split
  · split_ifs
    · trivial
    · exact hholds
  · trivial

theorem received (h : ConnInv log c) {header : RequestHeader} (hphase : c.phase = .waiting header)
    (f : Frame) (input : List UInt8) :
    ConnInv (.received f :: log) { c with phase := .received f, input := input } := by
  have hholds := h.holds
  rw [hphase] at hholds
  exact ⟨h.handle, rfl, h.gated, hholds, h.answered⟩

theorem writeHeader (h : ConnInv log c) {f : Frame} {r : Reply} (hphase : c.phase = .replying f r)
    (output : List UInt8) :
    ConnInv (.answered (f.answer r).encode :: log)
      { c with phase := .writing r.respData, output := output } := by
  have hholds := h.holds
  rw [hphase] at hholds
  exact ⟨h.handle, rfl, h.gated, ⟨f, hholds.1, hholds.2, answers_encode f r⟩, h.answered⟩

/-- Handling a frame: an explicit message passes under the handle of the connection. -/
theorem switch (h : ConnInv log c) {f : Frame} (hphase : c.phase = .received f) {v : View σ}
    (hv : v.sessionHandle = c.sessionHandle) {w : Switched σ} (hw : Server.SwitchSpec srv f v w) :
    ConnInv (w.events f ++ log)
      { c with phase := w.phase f, sessionHandle := w.view.sessionHandle } := by
  have hpending := h.holds
  rw [hphase] at hpending
  have hhandle := hv.trans h.handle
  cases hw with
  | register hcommand respData =>
    have hne : f.command ≠ commandUnregisterSession := by rw [hcommand]; decide
    rw [Switched.events, if_pos hcommand]
    exact ⟨rfl, ⟨hpending, hne⟩, h.gated, h.answered⟩
  | unregister hcommand =>
    rw [Switched.events, if_neg (by rw [hcommand]; decide)]
    exact ⟨hhandle, trivial, h.gated, h.answered⟩
  | simple hcommand hne status respData =>
    rw [Switched.events, if_neg hcommand]
    exact ⟨hhandle, ⟨hpending, hne⟩, h.gated, h.answered⟩
  | explicit hcommand hsession hne handled hsafe =>
    have hcommands : f.command ≠ commandRegisterSession ∧ f.command ≠ commandUnregisterSession := by
      rcases hcommand with h | h <;> rw [h] <;> decide
    have hlast : lastHandle log = some f.session := by
      rw [hsession, hhandle]
      cases hlog : lastHandle log with
      | none => exact absurd (by rw [hhandle, hlog]; rfl) hne
      | some handle => rfl
    obtain ⟨result, device, routed⟩ := handled
    have hholds (log' : List Event) (hlog' : pending log' = some f) :
        (Switched.phase f ⟨explicitReply f.session result, { v with device }, routed⟩).Holds
          log' := by
      simp only [Switched.phase]
      match result with
      | .ok _ | .error (.error _) => exact ⟨hlog', hcommands.2⟩
      | .error .panic => trivial
    rw [Switched.events, if_neg hcommands.1]
    cases routed with
    | none => exact ⟨hhandle, hholds log hpending, h.gated, h.answered⟩
    | some req =>
      have hsession' : f.session ≠ 0 := hsession ▸ hne
      exact ⟨hhandle, hholds (.routed req :: log) hpending,
        ⟨⟨f, hpending, hcommand, hsession', hlast⟩, h.gated⟩, h.answered⟩

end ConnInv

/-! ### The counter of handles -/

/-- Handles in the order of the counter, the last one first. -/
def Counted : List UInt32 → Prop
  | [] => True
  | handle :: handles => handle = UInt32.ofNat (handles.length + 1) ∧ Counted handles

theorem Counted.mem {handles : List UInt32} (h : Counted handles) {handle : UInt32}
    (hmem : handle ∈ handles) :
    ∃ k, 0 < k ∧ k ≤ handles.length ∧ handle = UInt32.ofNat k := by
  induction handles with
  | nil => cases hmem
  | cons last handles ih =>
    rcases List.mem_cons.mp hmem with rfl | hmem
    · exact ⟨handles.length + 1, Nat.succ_pos _, Nat.le_refl _, h.1⟩
    · obtain ⟨k, hpos, hle, hk⟩ := ih h.2 hmem
      exact ⟨k, hpos, hle.trans (Nat.le_succ _), hk⟩

/-- Handles are distinct until the counter wraps around. -/
theorem Counted.nodup {handles : List UInt32} (h : Counted handles)
    (hlen : handles.length < 2 ^ 32) : handles.Nodup := by
  induction handles with
  | nil => exact List.nodup_nil
  | cons last handles ih =>
    rw [List.length_cons] at hlen
    refine List.nodup_cons.mpr ⟨fun hmem => ?_, ih h.2 (by omega)⟩
    obtain ⟨k, hpos, hle, hk⟩ := h.2.mem hmem
    have heq := congrArg UInt32.toNat (h.1.symm.trans hk)
    rw [UInt32.toNat_ofNat', UInt32.toNat_ofNat'] at heq
    omega

/-- The switch assigns a handle and moves the counter, or does neither. -/
theorem handles_switch {srv : Server σ} {f : Frame} {v : View σ} {w : Switched σ}
    (hw : Server.SwitchSpec srv f v w) :
    (w.events f).filterMap Event.handle? = [] ∧ w.view.nextSession = v.nextSession ∨
      (w.events f).filterMap Event.handle? = [v.nextSession + 1] ∧
        w.view.nextSession = v.nextSession + 1 := by
  cases hw with
  | register hcommand respData =>
    rw [Switched.events, if_pos hcommand]
    exact .inr ⟨rfl, rfl⟩
  | unregister hcommand =>
    rw [Switched.events, if_neg (by rw [hcommand]; decide)]
    exact .inl ⟨rfl, rfl⟩
  | simple hcommand =>
    rw [Switched.events, if_neg hcommand]
    exact .inl ⟨rfl, rfl⟩
  | explicit hcommand _ _ handled =>
    have hne : f.command ≠ commandRegisterSession := by
      rcases hcommand with h | h <;> rw [h] <;> decide
    rw [Switched.events, if_neg hne]
    refine .inl ⟨?_, rfl⟩
    cases handled.routed <;> rfl

/-- The switch leads to a reply, unless the session is given up. -/
theorem exists_replying {srv : Server σ} {f : Frame} {v : View σ} {w : Switched σ}
    (hw : Server.SwitchSpec srv f v w) (hsafe : srv.router.Safe)
    (hne : f.command ≠ commandUnregisterSession) : ∃ r, w.phase f = .replying f r := by
  cases hw with
  | register | simple => exact ⟨_, rfl⟩
  | unregister hcommand => exact absurd hcommand hne
  | explicit _ _ _ handled hpanic =>
    simp only [Switched.phase]
    match handled.result, hpanic hsafe with
    | .ok _, _ | .error (.error _), _ => exact ⟨_, rfl⟩

/-! ### Runs -/

namespace ServerState

variable {srv : Server σ} {maxClients : ℕ} {s t : ServerState σ} {id : ℕ} {c c' : ServerConn}

/-- A frame that is received is handled, and its header is written. -/
theorem exists_answer (hsafe : srv.router.Safe) {f : Frame} (hc : s.conns id = some c)
    (hphase : c.phase = .received f) (hne : f.command ≠ commandUnregisterSession) : ∃ t u buf,
      s.step srv maxClients (.handler id .handle) = some t ∧
      t.step srv maxClients (.handler id .writeHeader) = some u ∧
      u.connLog id = .answered buf :: t.connLog id ∧ Answers buf f := by
  obtain ⟨r, hr⟩ := exists_replying
    (srv.handleFrame_spec f ⟨c.sessionHandle, s.nextSession, s.device⟩) hsafe hne
  obtain ⟨d, hd, hdphase⟩ : ∃ d, (s.handle srv id c f).conns id = some d ∧
      d.phase = .replying f r := ⟨_, Function.update_self _ _ _, hr⟩
  refine ⟨s.handle srv id c f, (s.handle srv id c f).setConn id
    { d with phase := .writing r.respData, output := d.output ++ (f.answer r).encode }
    [.answered (f.answer r).encode], (f.answer r).encode, ?_, ?_, ?_, answers_encode f r⟩
  · rw [step, hc, Option.bind_some, handlerStep, hphase]
  · rw [step, hd, Option.bind_some, handlerStep, hdphase]
    dsimp only
    rw [respHeader_eq]
  · rw [connLog_setConn_self]
    rfl

/-- What is known about the connections and their logs. -/
structure LogInv (s : ServerState σ) : Prop where
  conn : ∀ id c, s.conns id = some c → ConnInv (s.connLog id) c
  unlogged : ∀ id, s.conns id = none → s.connLog id = []

/-- A connection changes with its log. -/
theorem LogInv.setConn (hi : s.LogInv) {events : List Event}
    (hconn : ConnInv (events ++ s.connLog id) c') : (s.setConn id c' events).LogInv := by
  refine ⟨fun id' d hd => ?_, fun id' hd => ?_⟩
  · by_cases heq : id' = id
    · subst heq
      rw [conns_setConn_self] at hd
      cases hd
      rw [connLog_setConn_self]
      exact hconn
    · rw [conns_setConn_of_ne heq] at hd
      rw [connLog_setConn_of_ne heq]
      exact hi.conn id' d hd
  · have heq : id' ≠ id := by
      rintro rfl
      rw [conns_setConn_self] at hd
      cases hd
    rw [conns_setConn_of_ne heq] at hd
    rw [connLog_setConn_of_ne heq]
    exact hi.unlogged id' hd

theorem handles_setConn (s : ServerState σ) (id : ℕ) (c : ServerConn) (events : List Event) :
    (s.setConn id c events).handles = events.filterMap Event.handle? ++ s.handles := by
  rw [handles, setConn, List.filterMap_append, List.filterMap_map]
  rfl

/-- What is known about the connections and the counter. -/
structure GateInv (s : ServerState σ) : Prop extends LogInv s where
  counter : s.nextSession = UInt32.ofNat s.handles.length
  counted : Counted s.handles

namespace GateInv

theorem init (srv : Server σ) (maxClients : ℕ) (device : σ) :
    GateInv (serverSystem srv maxClients device).init :=
  ⟨⟨nofun, fun _ _ => rfl⟩, rfl, trivial⟩

/-- A connection changes, and no handle is assigned. -/
theorem setConn (hi : s.GateInv) {events : List Event}
    (hconn : ConnInv (events ++ s.connLog id) c')
    (hevents : events.filterMap Event.handle? = []) : (s.setConn id c' events).GateInv := by
  have hhandles : (s.setConn id c' events).handles = s.handles := by
    rw [handles_setConn, hevents, List.nil_append]
  refine ⟨hi.toLogInv.setConn hconn, ?_, ?_⟩
  · rw [hhandles]
    exact hi.counter
  · rw [hhandles]
    exact hi.counted

/-- A connection changes, and nothing happens that is logged. -/
theorem setPhase (hi : s.GateInv) (hc : s.conns id = some c)
    (hhandle : c'.sessionHandle = c.sessionHandle)
    (hholds : c'.phase.Holds (s.connLog id)) : (s.setConn id c' []).GateInv :=
  hi.setConn ((hi.conn id c hc).of_phase hhandle hholds) rfl

/-- Handling a frame: the counter goes up when a handle is assigned. -/
theorem handle (hi : s.GateInv) (hc : s.conns id = some c) {f : Frame}
    (hphase : c.phase = .received f) : (s.handle srv id c f).GateInv := by
  have hspec := srv.handleFrame_spec f ⟨c.sessionHandle, s.nextSession, s.device⟩
  have hconn := (hi.conn id c hc).switch hphase rfl hspec
  have hlog := hi.toLogInv.setConn hconn
  rw [ServerState.handle]
  generalize srv.handleFrame f ⟨c.sessionHandle, s.nextSession, s.device⟩ = w at hspec hlog
  have hhandles := s.handles_setConn id
    { c with phase := w.phase f, sessionHandle := w.view.sessionHandle } (w.events f)
  have hnext : s.nextSession + 1 = UInt32.ofNat (s.handles.length + 1) := by
    rw [hi.counter, UInt32.ofNat_add]
    rfl
  rcases handles_switch hspec with ⟨hnone, hview⟩ | ⟨hone, hview⟩
  · rw [hnone, List.nil_append] at hhandles
    refine { hlog with counter := ?_, counted := ?_ }
    · exact hview.trans (hi.counter.trans (congrArg _ (congrArg _ hhandles.symm)))
    · exact hhandles ▸ hi.counted
  · rw [hone] at hhandles
    refine { hlog with counter := ?_, counted := ?_ }
    · refine hview.trans (hnext.trans (congrArg _ ?_))
      exact (congrArg List.length hhandles).symm
    · exact hhandles ▸ ⟨hnext, hi.counted⟩

theorem handlerStep (hi : s.GateInv) (hc : s.conns id = some c) {a : HandlerStep}
    (h : s.handlerStep srv id c a = some t) : t.GateInv := by
  have hconn := hi.conn id c hc
  have hholds := hconn.holds
  cases handlerStep_spec h with
  | deliver bytes => exact hi.setPhase hc rfl hholds
  | register hphase =>
    rw [hphase] at hholds
    have hset : (s.setConn id { c with phase := .reading } []).GateInv := hi.setPhase hc rfl hholds
    exact { hset with }
  | readHeader hphase => exact hi.setConn (hconn.readHeader hphase) rfl
  | readData header hphase f input => exact hi.setConn (hconn.received hphase f input) rfl
  | handle f hphase => exact hi.handle hc hphase
  | writeHeader f r hphase => exact hi.setConn (hconn.writeHeader hphase _) rfl
  | writeData respData hphase =>
    rw [hphase] at hholds
    exact hi.setPhase hc rfl hholds
  | leave => exact hi.setPhase hc rfl trivial
  | remove =>
    have hset : (s.setConn id { c with phase := .removed } []).GateInv := hi.setPhase hc rfl trivial
    exact { hset with }
  | close => exact hi.setPhase hc rfl trivial

theorem loopStep (hb : s.BaseInv) (hi : s.GateInv) {a : LoopStep}
    (h : s.loopStep maxClients a = some t) : t.GateInv := by
  cases loopStep_spec h with
  | accept =>
    have hlog := hi.unlogged s.accepted (hb.unused _ (Nat.le_refl _))
    have hset : (s.setConn s.accepted ⟨.held, [], [], 0⟩ []).GateInv := by
      refine hi.setConn ?_ rfl
      rw [List.nil_append, hlog]
      exact ⟨rfl, rfl, trivial, trivial⟩
    exact { hset with }
  | refuse id c hloop hc =>
    have hset : (s.setConn id { c with phase := .ended } []).GateInv := hi.setPhase hc rfl trivial
    exact { hset with }
  | pass => exact { hi with }
  | start id c hloop hc =>
    obtain ⟨d, hd, hheld⟩ := hb.held id (by rw [hloop]; rfl)
    obtain rfl := Option.some.inj (hd.symm.trans hc)
    have hholds := (hi.conn id d hd).holds
    rw [hheld] at hholds
    have hset : (s.setConn id { d with phase := .starting } []).GateInv := hi.setPhase hd rfl hholds
    exact { hset with }

theorem step (hb : s.BaseInv) (hi : s.GateInv) {a : ServerStep σ}
    (h : s.step srv maxClients a = some t) : t.GateInv := by
  cases a with
  | loop a => exact hi.loopStep hb h
  | handler id a =>
    obtain ⟨c, hc, h⟩ := Option.bind_eq_some_iff.mp h
    exact hi.handlerStep hc h
  | device f =>
    cases h
    exact { hi with }

/-- The properties of the gate. -/
theorem sessionGate (hi : s.GateInv) : SessionGate srv maxClients s := by
  have hlogs (id : ℕ) : Gated (s.connLog id) ∧ Answered (s.connLog id) := by
    cases hc : s.conns id with
    | none =>
      rw [hi.unlogged id hc]
      exact ⟨trivial, trivial⟩
    | some c => exact ⟨(hi.conn id c hc).gated, (hi.conn id c hc).answered⟩
  exact ⟨fun id => (hlogs id).1, hi.counted.nodup, fun id => (hlogs id).2,
    fun hsafe _ _ _ hc hphase hne => exists_answer hsafe hc hphase hne⟩

end GateInv

end ServerState

/-- **The session gate** holds in every state of every run, with any number of connections. -/
theorem sessionGate_of_reachable (srv : Server σ) (maxClients : ℕ) (device : σ) (s : ServerState σ)
    (h : (serverSystem srv maxClients device).Reachable (fun _ _ => True) s) :
    SessionGate srv maxClients s :=
  (h.invariant (I := fun s : ServerState σ => s.BaseInv ∧ s.GateInv)
    ⟨.init srv maxClients device, .init srv maxClients device⟩
    fun _ _ _ hi _ hs => ⟨hi.1.step hs, hi.2.step hi.1 hs⟩).2.sessionGate

/-- The data of an explicit message for attribute 1 of the identity object. -/
def identityRequest : List UInt8 :=
  envelope [newCPFItem itemIDNullAddress [], newCPFItem itemIDUnconnectedMessage
    (MessageRouterRequest.mk 0x0E [0x20, 0x01, 0x24, 0x01, 0x30, 0x01] []).encode]

/-- Two connections register; an explicit message passes under the handle of its own connection and
not under that of the other. -/
theorem sessionGate_two_connections :
    ∃ s, (serverSystem bareServer 0 ()).Reachable (fun _ _ => True) s ∧
      SessionGate bareServer 0 s ∧ s.handles = [2, 1] ∧
      (s.connLog 0).length = 5 ∧ (s.connLog 1).length = 6 := by
  obtain ⟨s, hs, hshown⟩ := TransitionSystem.exists_reachable_of_exec
    (M := serverSystem bareServer 0 ()) (G := fun _ _ => True)
    (f := fun s => (s.handles, (s.connLog 0).length, (s.connLog 1).length)) (b := ([2, 1], 5, 6))
    (acceptSteps 0 ++ acceptSteps 1 ++ frameSteps 0 commandRegisterSession 0 [1, 0, 0, 0] ++
      frameSteps 1 commandRegisterSession 0 [1, 0, 0, 0] ++
      frameSteps 0 commandSendRRData 2 identityRequest ++
      frameSteps 1 commandSendRRData 2 identityRequest) (by decide +kernel)
  have hlogs := Prod.mk.inj hshown
  have hlens := Prod.mk.inj hlogs.2
  exact ⟨s, hs, sessionGate_of_reachable bareServer 0 () s hs, hlogs.1, hlens.1, hlens.2⟩

end GoIndustrial.EtherNetIP
