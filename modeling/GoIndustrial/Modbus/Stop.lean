import GoIndustrial.Modbus.Server

/-!
# After Stop

What is left of a Modbus server once `Stop` has returned, in the system of
`GoIndustrial.Modbus.Server`. `Stop` closes the connections that are in the table at one moment. The
accept loop does not look at the stop channel again between `Accept` and the insertion into the
table, so a connection that it has at that moment is put into the table later, and served.

## Main definitions

* `Modbus.StopIsFinal` : nothing is served after `Stop` has returned.
* `Modbus.Settled` : addresses are fresh, and `Stop` finds the accept loop without a connection that
  is on its way into the table.

## Main results

* `Modbus.stopIsFinal_of_settled` : runs that meet this condition.
* `Modbus.accepted_before_stop_served_after` : a run that does not.
-/

namespace GoIndustrial.Modbus

open TransitionSystem

/-- What has to hold once `Stop` has returned: no connection is open and in the table with a handler
that serves it, and no request was dispatched whose last byte was read later. -/
structure StopIsFinal (s : ServerState) : Prop where
  served : s.stop = .returned → ∀ id c request, s.conns id = some c → c.isOpen = true →
    s.clients.lookup c.remoteAddr = some id → c.phase ≠ .serving request
  executed : ∀ p ∈ s.executed, p.2 = false

/-- Addresses are fresh, and `Stop` closes the connections of the table when the accept loop has no
connection that is on its way into the table. -/
def Settled (s : ServerState) : ServerStep → Prop
  | .stop .closeClients => ¬ s.loop.Holds
  | .stop _ => True
  | .loop a => FreshAddress s (.loop a)
  | .handler _ _ => True

instance (s : ServerState) : DecidablePred (Settled s)
  | .stop .closeClients => inferInstanceAs (Decidable (¬ s.loop.Holds))
  | .stop .signal | .stop .closeListener | .stop .leave | .handler _ _ =>
    inferInstanceAs (Decidable True)
  | .loop a => inferInstanceAs (Decidable (FreshAddress s (.loop a)))

namespace ServerState

variable {maxClients : ℕ} {s t : ServerState} {id : ℕ} {c : ServerConn}

/-- No request that a handler has was read after `Stop` had returned. -/
def Timely (conns : ℕ → Option ServerConn) : Prop :=
  ∀ id c request late, conns id = some c → c.phase = .serving (some (request, late)) →
    late = false

theorem Timely.setConn (h : Timely s.conns)
    (hc : ∀ request late, c.phase = .serving (some (request, late)) → late = false) :
    Timely (s.setConn id c).conns := by
  intro id' d request late hd
  rcases Table.update_some_eq_some.mp hd with ⟨-, rfl⟩ | ⟨-, hd⟩
  · exact hc request late
  · exact h id' d request late hd

/-- `Stop` has closed the connections of the table. -/
def Cleared (s : ServerState) : Prop := s.stop = .cleared ∨ s.stop = .returned

/-- What holds while `Stop` closes the connections of the table with no connection on its way into
it. -/
structure StopInv (s : ServerState) : Prop where
  dead : s.Cleared → ∀ id, ¬ s.Live id
  settled : s.Cleared → ¬ s.loop.Holds
  timely : Timely s.conns
  executed : ∀ p ∈ s.executed, p.2 = false

namespace StopInv

theorem loopStep (hi : s.Inv maxClients) (h : s.StopInv) {a : LoopStep}
    (hs : s.loopStep maxClients a = some t) : t.StopInv := by
  -- Once the table was emptied, the accept loop has no connection on its way into it.
  have hholds (hl : s.loop.Holds) : ¬ s.Cleared := fun hcl => h.settled hcl hl
  cases a with
  | accept remoteAddr =>
    obtain ⟨-, hstop, rfl⟩ := accept_inv hs
    have hcl : ¬ s.Cleared := by
      rintro (hst | hst) <;> rw [hst] at hstop <;> exact absurd hstop (by decide)
    exact ⟨fun hc => absurd hc hcl, fun hc => absurd hc hcl, h.timely.setConn nofun, h.executed⟩
  | refuse =>
    obtain ⟨id, c, hl, hc, rfl⟩ := refuse_inv hs
    have hcl := hholds (by rw [hl]; trivial)
    exact ⟨fun hc => absurd hc hcl, fun hc => absurd hc hcl,
      h.timely.setConn fun request late => h.timely id c request late hc, h.executed⟩
  | pass =>
    obtain ⟨id, hl, -, rfl⟩ := pass_inv hs
    have hcl := hholds (by rw [hl]; trivial)
    exact ⟨fun hc => absurd hc hcl, fun hc => absurd hc hcl, h.timely, h.executed⟩
  | insert =>
    obtain ⟨id, c, hl, -, rfl⟩ := insert_inv hs
    have hcl := hholds (by rw [hl]; trivial)
    exact ⟨fun hc => absurd hc hcl, fun hc => absurd hc hcl, h.timely.setConn nofun, h.executed⟩
  | start =>
    obtain ⟨id, c, hl, hc, rfl⟩ := start_inv hs
    refine ⟨fun hcl id' ⟨addr, hid'⟩ => ?_, fun _ => False.elim, h.timely.setConn nofun,
      h.executed⟩
    exact h.dead hcl id' ⟨addr, hi.tracked_start hl hc ▸ hid'⟩
  | leave =>
    obtain rfl := leave_inv hs
    exact ⟨h.dead, fun _ => False.elim, h.timely, h.executed⟩

/-- A handler makes no connection live. -/
theorem live_of_handlerStep (hc : s.conns id = some c) {a : HandlerStep}
    (hs : s.handlerStep id c a = some t) {id' : ℕ} (ht : t.Live id') : s.Live id' := by
  have hother {d : ServerConn} (hd : d.tracked = c.tracked ∨ d.tracked = none)
      (h : ∃ addr, (s.setConn id d).tracked id' = some (addr, true)) : s.Live id' := by
    obtain ⟨addr, h⟩ := h
    rw [tracked_setConn, Function.update_apply] at h
    split_ifs at h with heq
    · rcases hd with hd | hd
      · exact ⟨addr, by rw [heq, tracked_of_conn hc, ← hd, h]⟩
      · rw [hd] at h
        cases h
    · exact ⟨addr, h⟩
  cases a with
  | receive request =>
    obtain ⟨hphase, -, rfl⟩ := receive_inv hs
    exact hother (.inl (by rw [ServerConn.tracked, ServerConn.tracked, hphase]; rfl)) ht
  | dispatch =>
    obtain ⟨request, late, hphase, rfl⟩ := dispatch_inv hs
    exact hother (.inl (by rw [ServerConn.tracked, ServerConn.tracked, hphase]; rfl)) ht
  | remove =>
    obtain ⟨-, rfl⟩ := remove_inv hs
    exact hother (.inr rfl) ht
  | close =>
    obtain ⟨-, rfl⟩ := close_inv hs
    exact hother (.inr rfl) ht

theorem handlerStep (h : s.StopInv) (hc : s.conns id = some c) {a : HandlerStep}
    (hs : s.handlerStep id c a = some t) : t.StopInv := by
  have hdead : s.Cleared → ∀ id', ¬ t.Live id' := fun hcl id' ht =>
    h.dead hcl id' (live_of_handlerStep hc hs ht)
  cases a with
  | receive request =>
    obtain ⟨hphase, hopen, rfl⟩ := receive_inv hs
    have hid : s.Live id :=
      ⟨c.remoteAddr, by rw [tracked_of_conn hc, ServerConn.tracked, hphase, hopen]; rfl⟩
    refine ⟨hdead, h.settled, h.timely.setConn fun r late hlate => ?_, h.executed⟩
    have hlate : (some (request, decide (s.stop = .returned))) = some (r, late) :=
      ConnPhase.serving.inj hlate
    rw [← (Prod.mk.inj (Option.some.inj hlate)).2, decide_eq_false_iff_not]
    exact fun hst => h.dead (.inr hst) id hid
  | dispatch =>
    obtain ⟨request, late, hphase, rfl⟩ := dispatch_inv hs
    refine ⟨hdead, h.settled, h.timely.setConn (by rintro _ _ ⟨⟩), ?_⟩
    exact List.forall_mem_cons.mpr ⟨h.timely id c request late hc hphase, h.executed⟩
  | remove =>
    obtain ⟨-, rfl⟩ := remove_inv hs
    exact ⟨hdead, h.settled, h.timely.setConn (by rintro _ _ ⟨⟩), h.executed⟩
  | close =>
    obtain ⟨-, rfl⟩ := close_inv hs
    exact ⟨hdead, h.settled, h.timely.setConn (by rintro _ _ ⟨⟩), h.executed⟩

theorem stopStep (hi : s.Inv maxClients) (h : s.StopInv) {a : StopStep}
    (hg : Settled s (.stop a)) (hs : s.stopStep a = some t) : t.StopInv := by
  cases a with
  | signal | closeListener =>
    rw [ServerState.stopStep] at hs
    split_ifs at hs
    cases hs
    refine ⟨fun hcl => ?_, fun hcl => ?_, h.timely, h.executed⟩ <;>
      rcases hcl with hcl | hcl <;> cases hcl
  | closeClients =>
    have hdead := hi.tracksLive.stop t hs
    rw [ServerState.stopStep] at hs
    split_ifs at hs
    cases hs
    refine ⟨fun _ => hdead, fun _ => hg, fun id c request late hc hphase => ?_, h.executed⟩
    obtain ⟨d, hd, rfl⟩ := Option.map_eq_some_iff.mp hc
    refine h.timely id d request late hd ?_
    split_ifs at hphase <;> exact hphase
  | leave =>
    rw [ServerState.stopStep] at hs
    split_ifs at hs with hst
    cases hs
    exact ⟨fun _ => h.dead (.inl hst), fun _ => h.settled (.inl hst), h.timely, h.executed⟩

theorem init (maxClients : ℕ) (store : MemoryStore) :
    StopInv (serverSystem maxClients store).init :=
  ⟨nofun, nofun, nofun, nofun⟩

theorem step (hi : s.Inv maxClients) (h : s.StopInv) {a : ServerStep} (hg : Settled s a)
    (hs : s.step maxClients a = some t) : t.StopInv := by
  cases a with
  | loop a => exact h.loopStep hi hs
  | handler id a =>
    obtain ⟨c, hc, hs⟩ := Option.bind_eq_some_iff.mp hs
    exact h.handlerStep hc hs
  | stop a => exact h.stopStep hi hg hs

theorem stopIsFinal (hi : s.Inv maxClients) (h : s.StopInv) : StopIsFinal s where
  served := by
    intro hst id c request hc hopen hlookup hphase
    exact h.dead (.inr hst) id ⟨_, (hi.entry _ _).mp hlookup⟩
  executed := h.executed

end StopInv

end ServerState

theorem freshAddress_of_settled {s : ServerState} {a : ServerStep} (h : Settled s a) :
    FreshAddress s a := by
  cases a with
  | loop a => exact h
  | handler id a => trivial
  | stop a => trivial

/-- **Nothing is served after Stop** in every run in which addresses are fresh and `Stop` does not
empty the table while the accept loop has a connection that is on its way into it. -/
theorem stopIsFinal_of_settled (maxClients : ℕ) (store : MemoryStore) (s : ServerState)
    (h : (serverSystem maxClients store).Reachable Settled s) : StopIsFinal s := by
  obtain ⟨hi, hstop⟩ := h.invariant (I := fun s => s.Inv maxClients ∧ s.StopInv)
    ⟨.init maxClients store, .init maxClients store⟩
    fun _ _ _ hi hg hs => ⟨hi.1.step (freshAddress_of_settled hg) hs, hi.2.step hi.1 hg hs⟩
  exact hstop.stopIsFinal hi

/-- A request that was read before `Stop` is dispatched after `Stop` has returned. -/
theorem stopIsFinal_request_in_progress :
    ∃ s, (serverSystem 0 newMemoryStore).Reachable Settled s ∧ StopIsFinal s ∧
      s.stop = .returned ∧ s.executed.length = 1 := by
  have hrun : (serverSystem 0 newMemoryStore).Reachable Settled _ :=
    ⟨acceptSteps "pipe" ++ [.handler 0 (.receive (newRequest 1 9 funcWriteSingleRegister
      [0, 0, 0, 7]))] ++ stopSteps ++ [.handler 0 .dispatch, .handler 0 .remove], run_of_exec rfl⟩
  exact ⟨_, hrun, stopIsFinal_of_settled 0 newMemoryStore _ hrun, rfl, rfl⟩

/-- **A connection accepted before Stop and served after it**: `Stop` runs between `Accept` and the
insertion into the table. The connection is then tracked and open, and a request that arrives after
`Stop` has returned writes the store. -/
theorem accepted_before_stop_served_after :
    ∃ s, (serverSystem 0 newMemoryStore).Reachable (fun _ _ => True) s ∧ ¬ StopIsFinal s ∧
      s.stop = .returned ∧ s.Live 0 ∧
      s.executed = [(newRequest 1 9 funcWriteSingleRegister [0, 0, 0, 7], true)] ∧
      s.store.holdingRegisters 0 = some 7 := by
  refine ⟨_, ⟨[.loop (.accept "10.0.0.7:4711"), .loop .pass] ++ stopSteps ++
    [.loop .insert, .loop .start, .handler 0 (.receive (newRequest 1 9 funcWriteSingleRegister
      [0, 0, 0, 7])), .handler 0 .dispatch], run_of_exec rfl⟩, ?_, rfl, ⟨_, rfl⟩, rfl, rfl⟩
  intro h
  exact absurd (h.executed _ List.mem_cons_self) (by decide)

end GoIndustrial.Modbus
