import GoIndustrial.EtherNetIP.Connections

/-!
# The client limit of the EtherNet/IP server

The accept loop compares the limit with the number of connections in the table, and a connection
gets into the table only when its handler runs. A handler that was started and has not put its
connection into the table is not counted, and more connections may be served than the limit says.
The limit is kept in the runs in which it would not make a difference to count them.

## Main definitions

* `EtherNetIP.ServerState.served` : the connections whose handlers are in their loops.
* `EtherNetIP.RoomLeft` : a connection passes only if there is room for it besides the handlers that
  are on their way to the table.

## Main results

* `EtherNetIP.served_le_of_roomLeft` : the limit is kept in such runs.
* `EtherNetIP.limit_exceeded` : a run in which it is not.
-/

namespace GoIndustrial.EtherNetIP

variable {σ : Type}

namespace ConnPhase

/-- The handler is in its loop. -/
def isServed : ConnPhase → Bool
  | reading | waiting _ | received _ | replying _ _ | writing _ => true
  | held | starting | leaving | removed | ended | panicked => false

/-- The connection is in the table. -/
def isTracked : ConnPhase → Bool
  | reading | waiting _ | received _ | replying _ _ | writing _ | leaving | panicked => true
  | held | starting | removed | ended => false

/-- The handler was started and has not put the connection into the table. -/
def isStarting : ConnPhase → Bool
  | starting => true
  | held | reading | waiting _ | received _ | replying _ _ | writing _ | leaving | removed | ended
  | panicked => false

/-- The connection is in the table or will be put into it. -/
def isActive (phase : ConnPhase) : Bool := phase.isStarting || phase.isTracked

theorem isActive_of_isServed {phase : ConnPhase} (h : phase.isServed) : phase.isActive := by
  cases phase <;> first | rfl | cases h

end ConnPhase

namespace ServerState

/-- The accepted connections whose phase is as said. -/
def connsWith (s : ServerState σ) (p : ConnPhase → Bool) : Finset ℕ :=
  (Finset.range s.accepted).filter fun id => (s.conns id).any fun c => p c.phase

/-- The connections being served. -/
def served (s : ServerState σ) : Finset ℕ := s.connsWith ConnPhase.isServed

end ServerState

/-- When a connection passes the limit, the table and the handlers on their way to it are together
below the limit. -/
def RoomLeft (maxClients : ℕ) (s : ServerState σ) : ServerStep σ → Prop
  | .loop .pass => s.clients.card + (s.connsWith ConnPhase.isStarting).card < maxClients
  | _ => True

instance (maxClients : ℕ) (s : ServerState σ) : DecidablePred (RoomLeft maxClients s)
  | .loop .pass => inferInstanceAs (Decidable (_ < maxClients))
  | .loop .accept | .loop .refuse | .loop .start | .handler _ _ | .device _ =>
    inferInstanceAs (Decidable True)

/-! ### One step -/

namespace ServerState

variable {srv : Server σ} {maxClients : ℕ} {s t : ServerState σ} {id : ℕ} {c c' : ServerConn}

theorem mem_connsWith (hb : s.BaseInv) {p : ConnPhase → Bool} :
    id ∈ s.connsWith p ↔ ∃ c, s.conns id = some c ∧ p c.phase := by
  rw [connsWith, Finset.mem_filter, Finset.mem_range]
  constructor
  · rintro ⟨-, h⟩
    cases hc : s.conns id with
    | none => simp [hc] at h
    | some c => exact ⟨c, rfl, by simpa [hc] using h⟩
  · rintro ⟨c, hc, hp⟩
    refine ⟨Nat.not_le.mp fun hle => ?_, by simpa [hc] using hp⟩
    rw [hb.unused id hle] at hc
    cases hc

/-- A connection changes, and the others keep their phase. -/
theorem connsWith_setConn (hb : s.BaseInv) (hc : s.conns id = some c) (events : List Event)
    (p : ConnPhase → Bool) : (s.setConn id c' events).connsWith p =
      if p c'.phase then insert id (s.connsWith p) else (s.connsWith p).erase id := by
  have hlt : id < s.accepted := Nat.not_le.mp fun hle => by
    rw [hb.unused id hle] at hc
    cases hc
  ext id'
  by_cases heq : id' = id
  · subst heq
    have hmem : id' ∈ (s.setConn id' c' events).connsWith p ↔ p c'.phase := by
      rw [connsWith, Finset.mem_filter, Finset.mem_range, conns_setConn_self]
      exact and_iff_right hlt
    rw [hmem]
    split_ifs with hp
    · simp [hp]
    · simp [hp]
  · have hmem : id' ∈ (s.setConn id c' events).connsWith p ↔ id' ∈ s.connsWith p := by
      rw [connsWith, Finset.mem_filter, conns_setConn_of_ne heq, connsWith, Finset.mem_filter]
      rfl
    rw [hmem]
    split_ifs
    · simp [heq]
    · simp [heq]

theorem connsWith_setConn_of_eq (hb : s.BaseInv) (hc : s.conns id = some c) {events : List Event}
    {p : ConnPhase → Bool} (hp : p c'.phase = p c.phase) :
    (s.setConn id c' events).connsWith p = s.connsWith p := by
  rw [connsWith_setConn hb hc, hp]
  split_ifs with h
  · exact Finset.insert_eq_self.mpr ((mem_connsWith hb).mpr ⟨c, hc, h⟩)
  · refine Finset.erase_eq_self.mpr fun hmem => h ?_
    obtain ⟨d, hd, hphase⟩ := (mem_connsWith hb).mp hmem
    obtain rfl := Option.some.inj (hd.symm.trans hc)
    exact hphase

/-- A connection that the accept loop takes has no handler yet. -/
theorem connsWith_accept {p : ConnPhase → Bool} (hp : p .held = false) :
    connsWith { s.setConn s.accepted ⟨.held, [], [], 0⟩ [] with
      accepted := s.accepted + 1, loop := .accepted s.accepted } p = s.connsWith p := by
  ext id
  rw [connsWith, connsWith, Finset.mem_filter, Finset.mem_filter, Finset.mem_range,
    Finset.mem_range]
  by_cases heq : id = s.accepted
  · subst heq
    simp [hp]
  · have hold : (s.setConn s.accepted ⟨.held, [], [], 0⟩ []).conns id = s.conns id :=
      conns_setConn_of_ne heq _
    simp only [hold]
    exact and_congr_left fun _ => by omega

/-! In the loop of its handler a connection stays in the table. -/

theorem inLoop_readHeader (c : ServerConn) :
    c.readHeader.phase.isStarting = false ∧ c.readHeader.phase.isTracked = true := by
  simp only [ServerConn.readHeader]
  split
  · split_ifs <;> exact ⟨rfl, rfl⟩
  · exact ⟨rfl, rfl⟩

theorem inLoop_switched (f : Frame) (w : Switched σ) :
    (w.phase f).isStarting = false ∧ (w.phase f).isTracked = true := by
  rw [Switched.phase]
  split <;> exact ⟨rfl, rfl⟩

theorem inLoop_of_mayLeave {phase : ConnPhase} (h : phase.mayLeave) :
    phase.isStarting = false ∧ phase.isTracked = true := by
  cases phase <;> first | exact ⟨rfl, rfl⟩ | cases h

/-- The table has the connections that it should have, and there is room for those that are on their
way. -/
structure LimitInv (maxClients : ℕ) (s : ServerState σ) : Prop where
  table : s.clients = s.connsWith ConnPhase.isTracked
  bounded : 0 < maxClients → (s.connsWith ConnPhase.isActive).card ≤ maxClients
  room : 0 < maxClients → ∀ id, s.loop = .checked id →
    (s.connsWith ConnPhase.isActive).card < maxClients

namespace LimitInv

theorem init (srv : Server σ) (maxClients : ℕ) (device : σ) :
    LimitInv maxClients (serverSystem srv maxClients device).init :=
  ⟨rfl, fun _ => Nat.zero_le _, nofun⟩

/-- A connection that stays in the table or outside it. -/
theorem setConn (hb : s.BaseInv) (hi : s.LimitInv maxClients) (hc : s.conns id = some c)
    (events : List Event) (hstarting : c'.phase.isStarting = c.phase.isStarting)
    (htracked : c'.phase.isTracked = c.phase.isTracked) :
    (s.setConn id c' events).LimitInv maxClients := by
  have hactive : c'.phase.isActive = c.phase.isActive := by
    rw [ConnPhase.isActive, hstarting, htracked, ConnPhase.isActive]
  have hsame : (s.setConn id c' events).connsWith ConnPhase.isActive = _ :=
    connsWith_setConn_of_eq hb hc hactive
  refine ⟨?_, ?_, ?_⟩
  · rw [connsWith_setConn_of_eq hb hc htracked]
    exact hi.table
  · rw [hsame]
    exact hi.bounded
  · rw [hsame]
    exact hi.room

/-- The handler puts its connection into the table. -/
theorem register (hb : s.BaseInv) (hi : s.LimitInv maxClients) (hc : s.conns id = some c)
    (hphase : c.phase = .starting) :
    LimitInv maxClients
      { s.setConn id { c with phase := .reading } [] with clients := insert id s.clients } := by
  have hactive : ConnPhase.isActive .reading = c.phase.isActive := by rw [hphase]; rfl
  have hsame : (s.setConn id { c with phase := .reading } []).connsWith ConnPhase.isActive = _ :=
    connsWith_setConn_of_eq hb hc hactive
  have htable : (s.setConn id { c with phase := .reading } []).connsWith ConnPhase.isTracked =
      insert id (s.connsWith ConnPhase.isTracked) := connsWith_setConn hb hc [] _
  refine ⟨?_, fun hmax => ?_, fun hmax id' hloop => ?_⟩
  · exact (congrArg (insert id) hi.table).trans htable.symm
  · exact (congrArg Finset.card hsame).trans_le (hi.bounded hmax)
  · exact (congrArg Finset.card hsame).trans_lt (hi.room hmax id' hloop)

/-- The handler takes its connection out of the table. -/
theorem remove (hb : s.BaseInv) (hi : s.LimitInv maxClients) (hc : s.conns id = some c) :
    LimitInv maxClients
      { s.setConn id { c with phase := .removed } [] with clients := s.clients.erase id } := by
  have hactive : (s.setConn id { c with phase := .removed } []).connsWith ConnPhase.isActive =
      (s.connsWith ConnPhase.isActive).erase id := connsWith_setConn hb hc [] _
  have htable : (s.setConn id { c with phase := .removed } []).connsWith ConnPhase.isTracked =
      (s.connsWith ConnPhase.isTracked).erase id := connsWith_setConn hb hc [] _
  have hle : ((s.connsWith ConnPhase.isActive).erase id).card ≤
      (s.connsWith ConnPhase.isActive).card := Finset.card_erase_le
  refine ⟨?_, fun hmax => ?_, fun hmax id' hloop => ?_⟩
  · exact (congrArg (·.erase id) hi.table).trans htable.symm
  · exact (congrArg Finset.card hactive).trans_le (hle.trans (hi.bounded hmax))
  · exact (congrArg Finset.card hactive).trans_lt (hle.trans_lt (hi.room hmax id' hloop))

theorem handlerStep (hb : s.BaseInv) (hi : s.LimitInv maxClients) (hc : s.conns id = some c)
    {a : HandlerStep} (h : s.handlerStep srv id c a = some t) : t.LimitInv maxClients := by
  cases handlerStep_spec h with
  | deliver bytes => exact hi.setConn hb hc _ rfl rfl
  | register hphase => exact hi.register hb hc hphase
  | remove => exact hi.remove hb hc
  | readHeader hphase =>
    have hloop := inLoop_readHeader c
    exact hi.setConn hb hc _ (hloop.1.trans (by rw [hphase]; rfl))
      (hloop.2.trans (by rw [hphase]; rfl))
  | handle f hphase =>
    have hloop := inLoop_switched f (srv.handleFrame f ⟨c.sessionHandle, s.nextSession, s.device⟩)
    exact { hi.setConn hb hc [] (hloop.1.trans (by rw [hphase]; rfl))
      (hloop.2.trans (by rw [hphase]; rfl)) with }
  | leave hphase =>
    have hloop := inLoop_of_mayLeave hphase
    exact hi.setConn hb hc _ hloop.1.symm hloop.2.symm
  | readData header hphase | writeHeader f r hphase | writeData respData hphase | close hphase =>
    exact hi.setConn hb hc _ (by rw [hphase]; rfl) (by rw [hphase]; rfl)

/-- A connection is in the table or on its way to it. -/
theorem card_active_le (hi : s.LimitInv maxClients) (hb : s.BaseInv) :
    (s.connsWith ConnPhase.isActive).card ≤
      s.clients.card + (s.connsWith ConnPhase.isStarting).card := by
  rw [hi.table]
  refine (Finset.card_le_card fun id hid => ?_).trans (Finset.card_union_le _ _)
  obtain ⟨c, hc, hactive⟩ := (mem_connsWith hb).mp hid
  rw [Finset.mem_union, mem_connsWith hb, mem_connsWith hb]
  exact (Bool.or_eq_true_iff.mp hactive).symm.imp (⟨c, hc, ·⟩) (⟨c, hc, ·⟩)

theorem loopStep (hb : s.BaseInv) (hi : s.LimitInv maxClients) {a : LoopStep}
    (hg : RoomLeft maxClients s (.loop a)) (h : s.loopStep maxClients a = some t) :
    t.LimitInv maxClients := by
  cases loopStep_spec h with
  | accept hloop =>
    refine ⟨?_, fun hmax => ?_, nofun⟩
    · exact hi.table.trans (connsWith_accept rfl).symm
    · exact (congrArg Finset.card (connsWith_accept rfl)).trans_le (hi.bounded hmax)
  | refuse id c hloop hc =>
    obtain ⟨d, hd, hheld⟩ := hb.held id (by rw [hloop]; rfl)
    obtain rfl := Option.some.inj (hd.symm.trans hc)
    have hset : (s.setConn id { d with phase := .ended } []).LimitInv maxClients :=
      hi.setConn hb hc _ (by rw [hheld]; rfl) (by rw [hheld]; rfl)
    exact ⟨hset.table, hset.bounded, nofun⟩
  | pass =>
    exact ⟨hi.table, hi.bounded, fun _ _ _ => (hi.card_active_le hb).trans_lt hg⟩
  | start id c hloop hc =>
    obtain ⟨d, hd, hheld⟩ := hb.held id (by rw [hloop]; rfl)
    obtain rfl := Option.some.inj (hd.symm.trans hc)
    have htable : (s.setConn id { d with phase := .starting } []).connsWith ConnPhase.isTracked =
        s.connsWith ConnPhase.isTracked := connsWith_setConn_of_eq hb hd (by rw [hheld]; rfl)
    have hactive : (s.setConn id { d with phase := .starting } []).connsWith ConnPhase.isActive =
        insert id (s.connsWith ConnPhase.isActive) := connsWith_setConn hb hd [] _
    refine ⟨hi.table.trans htable.symm, fun hmax => ?_, nofun⟩
    exact (congrArg Finset.card hactive).trans_le
      ((Finset.card_insert_le _ _).trans (hi.room hmax id hloop))

theorem step (hb : s.BaseInv) (hi : s.LimitInv maxClients) {a : ServerStep σ}
    (hg : RoomLeft maxClients s a) (h : s.step srv maxClients a = some t) :
    t.LimitInv maxClients := by
  cases a with
  | loop a => exact hi.loopStep hb hg h
  | handler id a =>
    obtain ⟨c, hc, h⟩ := Option.bind_eq_some_iff.mp h
    exact hi.handlerStep hb hc h
  | device f =>
    cases h
    exact { hi with }

theorem card_served_le (hi : s.LimitInv maxClients) (hmax : 0 < maxClients) :
    s.served.card ≤ maxClients := by
  refine (Finset.card_le_card fun id hid => ?_).trans (hi.bounded hmax)
  obtain ⟨hlt, hserved⟩ := Finset.mem_filter.mp hid
  refine Finset.mem_filter.mpr ⟨hlt, ?_⟩
  cases hc : s.conns id with
  | none => simp [hc] at hserved
  | some c =>
    simp only [hc, Option.any_some] at hserved ⊢
    exact ConnPhase.isActive_of_isServed hserved

end LimitInv

end ServerState

open TransitionSystem

/-- **The limit is kept** in every run in which a connection passes only if there is room for it
besides the handlers that are on their way to the table. -/
theorem served_le_of_roomLeft (srv : Server σ) (maxClients : ℕ) (device : σ) (s : ServerState σ)
    (hmax : 0 < maxClients)
    (h : (serverSystem srv maxClients device).Reachable (RoomLeft maxClients) s) :
    s.served.card ≤ maxClients :=
  (h.invariant (I := fun s : ServerState σ => s.BaseInv ∧ s.LimitInv maxClients)
    ⟨.init srv maxClients device, .init srv maxClients device⟩
    fun _ _ _ hi hg hs => ⟨hi.1.step hs, hi.2.step hi.1 hg hs⟩).2.card_served_le hmax

/-- With a limit of two, two connections pass before either handler runs; they are served, and the
third one is refused. -/
theorem served_le_third_refused :
    ∃ s, (serverSystem bareServer 2 ()).Reachable (RoomLeft 2) s ∧ s.served.card ≤ 2 ∧
      s.served = {0, 1} ∧ s.accepted = 3 := by
  obtain ⟨s, hs, hshown⟩ := exists_reachable_of_exec (M := serverSystem bareServer 2 ())
    (G := RoomLeft 2) (f := fun s => (s.served, s.accepted)) (b := ({0, 1}, 3))
    [.loop .accept, .loop .pass, .loop .start, .loop .accept, .loop .pass, .loop .start,
      .handler 0 .register, .handler 1 .register, .loop .accept, .loop .refuse] (by decide +kernel)
  have hparts := Prod.mk.inj hshown
  exact ⟨s, hs, served_le_of_roomLeft bareServer 2 () s (by decide) hs, hparts.1, hparts.2⟩

/-- **The limit is exceeded**: with a limit of one, two connections pass before either handler runs,
and both are served. -/
theorem limit_exceeded :
    ∃ s, (serverSystem bareServer 1 ()).Reachable (fun _ _ => True) s ∧ ¬ s.served.card ≤ 1 := by
  obtain ⟨s, hs, hshown⟩ := exists_reachable_of_exec (M := serverSystem bareServer 1 ())
    (G := fun _ _ => True) (f := fun s => s.served.card) (b := 2)
    [.loop .accept, .loop .pass, .loop .start, .loop .accept, .loop .pass, .loop .start,
      .handler 0 .register, .handler 1 .register] (by decide +kernel)
  exact ⟨s, hs, by omega⟩

end GoIndustrial.EtherNetIP
