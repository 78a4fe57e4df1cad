import GoIndustrial.Monitor.Delivery
import GoIndustrial.Monitor.Registration

/-!
# Broadcasting events

The monitor as a whole. A goroutine that is in `emit` runs, and `Close` waits for all goroutines
before it closes the channel of the monitor; with this the invariants of the registry, of the
channels and of the delivery hold together in every interleaving.

## Main definitions

* `Monitor.Polling` : only goroutines in their loops are in `emit`.
* `Monitor.MonitorInv` : the invariant of a monitor.

## Main results

* `Monitor.MonitorInv.step`.
* `Monitor.broadcast_safe`.
-/

namespace GoIndustrial.Monitor

/-! ### Goroutines that run -/

section Polling

variable {α κ β E : Type} {s t : MonitorState α κ β E} {r r' : Registry α κ β} {i k : ℕ}

/-- Only goroutines in their loops are in `emit`. -/
def Polling (s : MonitorState α κ β E) : Prop :=
  ∀ i em, s.bus.emission i = some em → s.reg.isRunning i = true

theorem isRunning_iff :
    r.isRunning i = true ↔ ∃ sub, r.all i = some sub ∧ sub.life = .running := by
  rw [Registry.isRunning]
  split
  case h_1 sub hi => simp [hi]
  case h_2 hi => simp [hi]

theorem isRunning_put {sub sub' : Subscription α} (hk : r.all k = some sub)
    (hlife : sub.life = .running → sub'.life = .running) (h : r.isRunning i = true) :
    (r.put k sub').isRunning i = true := by
  rw [isRunning_iff] at h ⊢
  exact Table.exists_update_some hk hlife h

/-- A goroutine enters `emit` from its loop. -/
theorem Polling.busMove {b : Bus E} (h : Polling s)
    (hm : BusMove s.stopCh s.reg.isRunning s.bus b) : Polling { s with bus := b } := by
  cases hm with
  | poll hrun hem => exact Table.forall_update_some h hrun
  | pass hem | rlock hem | runlock hem => exact Table.forall_update_some h (h _ _ hem)
  | send hem hj hmem =>
    refine Table.forall_update_some ?_ (h _ _ hem)
    rw [emission_offer]
    exact h
  | skip | last | lastSent => exact Table.forall_update_none h
  | closeCh hj hphase =>
    intro k em hk
    rw [emission_closeCh] at hk
    exact h k em hk
  | lastPanic | nothing | newSubscriber | insert | done | delete | recv | recvEvent => exact h

theorem Polling.closeMove (h : Polling s) (hm : CloseMove s t) : Polling t := by
  cases hm with
  | stop hc hi => exact fun k em hk => isRunning_put hi id (h k em hk)
  | closeCh hc hj hmem =>
    intro k em hk
    rw [emission_closeCh] at hk
    exact h k em hk
  | again | begin | take | await | wait | closeEvents | closeEventsPanic | lock | unlock => exact h

variable [Clusterable α κ]

/-- `Close` waits for the goroutines before it closes the channel of the monitor. -/
theorem Polling.hasClosedEvents (h : Polling s) (hinv : RegInv s.reg s.stopCh) (hs : Shutdown s)
    {em : Emission E} (hem : s.bus.emission i = some em) : s.close.hasClosedEvents = false := by
  obtain ⟨sub, hi, hlife⟩ := isRunning_iff.mp (h i em hem)
  have hmem : i ∈ s.reg.wg := (hinv.placed i sub hi).wg.mpr (by rw [hlife]; exact nofun)
  refine Bool.eq_false_iff.mpr fun hclosed => ?_
  have hwaited : s.close.hasWaited = true := by
    cases hc : s.close <;> rw [hc] at hclosed <;> first | rfl | contradiction
  rw [hs.wg hwaited] at hmem
  exact List.not_mem_nil hmem

variable [LinearOrder κ] [DecidableEq α] {sort : KeySort (sortKey (α := α))} {stopCh : Bool}

/-- A goroutine does not end while it is in `emit`. -/
theorem isRunning_of_regMove {busy : ℕ → Bool} {a : RegStep α} (hinv : RegInv r stopCh)
    (hm : RegMove sort stopCh busy r a r') (hbusy : busy i = true) (h : r.isRunning i = true) :
    r'.isRunning i = true := by
  cases hm with
  | refuse | stopAgain => exact h
  | subscribe =>
    obtain ⟨sub, hi, hlife⟩ := isRunning_iff.mp h
    have hle := (hinv.placed i sub hi).known
    exact isRunning_iff.mpr ⟨sub, (Function.update_of_ne (by omega) _ _).trans hi, hlife⟩
  | register hk hlife => exact isRunning_put hk (by rw [hlife]; exact nofun) h
  | start hk => exact isRunning_put hk (fun _ => rfl) h
  | @exit k sub hk hlife hnot =>
    have hne : i ≠ k := by
      rintro rfl
      rw [hbusy] at hnot
      contradiction
    obtain ⟨sub, hi, hlife⟩ := isRunning_iff.mp h
    exact isRunning_iff.mpr ⟨sub, (Function.update_of_ne hne _ _).trans hi, hlife⟩
  | stop hk | remove hk | removeGone hk | unregister hk | signal hk | await hk =>
    exact isRunning_put hk id h

theorem Polling.regMove {a : RegStep α} (h : Polling s) (hinv : RegInv s.reg s.stopCh)
    (hm : RegMove sort s.stopCh s.bus.isBusy s.reg a r) : Polling { s with reg := r } := by
  intro i em hem
  have hbusy : s.bus.isBusy i = true := Option.isSome_iff_exists.mpr ⟨em, hem⟩
  exact isRunning_of_regMove hinv hm hbusy (h i em hem)

end Polling

/-! ### The monitor -/

section Broadcast

variable {α κ β E : Type} {s t : MonitorState α κ β E}

theorem BusMove.skipped {stopCh : Bool} {running : ℕ → Bool} {close : ClosePhase} {b b' : Bus E}
    (hm : BusMove stopCh running b b') (hb : BusInv b close) :
    b'.skipped = b.skipped ∨ stopCh = true := by
  cases hm with
  | skip hem hs => exact .inr hs
  | send hem hj hmem =>
    obtain ⟨sub', -, heq, -⟩ := hb.send hem hj hmem
    rw [heq]
    exact .inl rfl
  | closeCh hj hphase =>
    rw [closeCh_eq _ _ _ (hb.subs.stands _ _ hj).once]
    exact .inl rfl
  | poll | pass | rlock | runlock | last | lastSent | lastPanic | nothing | newSubscriber | insert
  | done | delete | recv | recvEvent => exact .inl rfl

theorem CloseMove.skipped (hm : CloseMove s t) (hb : BusInv s.bus s.close) :
    t.bus.skipped = s.bus.skipped ∧ (s.stopCh = true → t.stopCh = true) := by
  cases hm with
  | begin => exact ⟨rfl, fun _ => rfl⟩
  | closeCh hc hj hmem =>
    dsimp only
    rw [closeCh_eq _ _ _ (hb.subs.stands _ _ hj).once]
    exact ⟨rfl, id⟩
  | again | take | stop | await | wait | closeEvents | closeEventsPanic | lock | unlock =>
    exact ⟨rfl, id⟩

variable [Clusterable α κ]

/-- The invariant of a monitor. -/
structure MonitorInv (s : MonitorState α κ β E) : Prop where
  reg : RegInv s.reg s.stopCh
  shutdown : Shutdown s
  bus : BusInv s.bus s.close
  delivery : Delivery s.bus
  polling : Polling s
  skipped : ∀ x ∈ s.bus.skipped, s.stopCh = true

/-- A subscriber of a closed monitor that no `Done` is at work on has a closed channel. -/
theorem MonitorInv.closed_of_done (h : MonitorInv s) (hc : s.close = .done) {j : ℕ}
    {sub : Subscriber E} (hj : s.bus.all j = some sub) (hphase : sub.phase ≠ .closing) :
    sub.ch.closed = true := by
  obtain ⟨hnil, hnew⟩ := h.bus.subs.done hc
  rcases (h.bus.subs.stands j sub hj).rest with hp | hmem | hclosed | hp
  · exact absurd hp (hnew j sub hj)
  · rw [hnil] at hmem
    exact absurd hmem List.not_mem_nil
  · exact hclosed
  · exact absurd hp hphase

/-- An event that was broadcast to a subscriber is missing only if its buffer was full. -/
theorem MonitorInv.fate (h : MonitorInv s) {j : ℕ} {sub : Subscriber E}
    (hj : s.bus.all j = some sub) {x : Item E} (hx : s.bus.Fate j x) :
    x ∈ sub.ch.sent ∨ ∃ buf, (x, buf) ∈ sub.dropped ∧ buf.length = sub.ch.cap := by
  rw [Bus.Fate, sentTo_of_all hj, droppedBy_of_all hj] at hx
  refine hx.imp_right ?_
  rintro ⟨buf, hbuf⟩
  exact ⟨buf, hbuf, (h.bus.subs.stands j sub hj).dropped _ hbuf⟩

variable [LinearOrder κ] [DecidableEq α] {sort : KeySort (sortKey (α := α))}

theorem MonitorInv.step {a : MonitorStep α E} (h : MonitorInv s)
    (hstep : s.step sort a = some t) : MonitorInv t := by
  obtain ⟨hreg, hshut⟩ := regInv_step ⟨h.reg, h.shutdown⟩ hstep
  cases a with
  | reg a =>
    obtain ⟨r, hr, rfl⟩ := Option.map_eq_some_iff.mp hstep
    have hm := RegMove.of_step hr
    exact ⟨hreg, hshut, h.bus, h.delivery, h.polling.regMove h.reg hm, h.skipped⟩
  | bus a =>
    obtain ⟨b, hb, rfl⟩ := Option.map_eq_some_iff.mp hstep
    have hm := BusMove.of_step hb
    have hpolling : ∀ i em, s.bus.emission i = some em → s.close.hasClosedEvents = false :=
      fun i em hem => h.polling.hasClosedEvents h.reg h.shutdown hem
    have hfresh : s.stopCh = false → s.close = .fresh := fun hopen =>
      not_not.mp fun hc => absurd (h.shutdown.stopCh.mpr hc) (Bool.eq_false_iff.mp hopen)
    refine ⟨hreg, hshut, h.bus.busMove hpolling hfresh hm, h.delivery.busMove h.bus hm,
      h.polling.busMove hm, fun x hx => ?_⟩
    rcases hm.skipped h.bus with heq | hstop
    · rw [heq] at hx
      exact h.skipped x hx
    · exact hstop
  | close a =>
    have hm := CloseMove.of_step hstep
    obtain ⟨heq, hstop⟩ := hm.skipped h.bus
    exact ⟨hreg, hshut, h.bus.closeMove hm, h.delivery.closeMove h.bus hm, h.polling.closeMove hm,
      fun x hx => hstop (h.skipped x (heq ▸ hx))⟩

theorem Heard.step {a : MonitorStep α E} {old : List (Item E)} {j : ℕ} (h : Heard old j s.bus)
    (hs : MonitorInv s) (hstep : s.step sort a = some t) : Heard old j t.bus := by
  cases a with
  | reg a =>
    obtain ⟨r, -, rfl⟩ := Option.map_eq_some_iff.mp hstep
    exact h
  | bus a =>
    obtain ⟨b, hb, rfl⟩ := Option.map_eq_some_iff.mp hstep
    exact h.busMove hs.bus (BusMove.of_step hb)
  | close a => exact h.closeMove hs.bus (CloseMove.of_step hstep)

variable {cfg : ClusterConfig} {n : ℕ}

theorem BusInv.new : BusInv (E := E) (.new n) .fresh := by
  refine ⟨?_, ⟨.nil, nofun, nofun, nofun, nofun, nofun⟩, nofun, rfl, rfl⟩
  have hfree : lockHold (E := E) (.new n) .fresh = fun _ => .free := by
    funext holder
    cases holder <;> rfl
  rw [hfree]
  exact .unheld

theorem monitorInv_of_reachable (h : (monitorSystem sort cfg n).Reachable (fun _ _ => True) s) :
    MonitorInv s := by
  refine h.invariant ?_ fun _ _ _ hs _ hstep => hs.step hstep
  obtain ⟨hreg, hshut⟩ := regInv_of_reachable
    (TransitionSystem.Reachable.init (M := monitorSystem (β := β) (E := E) sort cfg n)
      (G := fun _ _ => True))
  exact ⟨hreg, hshut, .new, ⟨rfl, fun _ _ => .refl _, nofun, nofun, nofun, nofun⟩, nofun, nofun⟩

variable (sort cfg n s)

/-- For every interleaving of the calls on a monitor: nothing is sent on a closed channel and no
channel is closed twice; when `Close` and every `Done` have returned all channels are closed; a
subscriber receives, of each subscription, events that this has emitted, in their order and none
twice; and an event that is emitted while the subscriber is in the map and the monitor is not
closing is missing only if it has found the buffer full or is still being broadcast, to this
subscriber among others. -/
theorem broadcast_safe (h : (monitorSystem sort cfg n).Reachable (fun _ _ => True) s) :
    s.bus.panicked = false ∧
    (s.close = .done →
      (∀ j sub, s.bus.all j = some sub → sub.phase ≠ .unregistering ∧ sub.phase ≠ .closing) →
      s.bus.events.closed = true ∧ ∀ j sub, s.bus.all j = some sub → sub.ch.closed = true) ∧
    (∀ j sub i, s.bus.all j = some sub →
      (ofSub i sub.ch.received).Sublist (ofSub i s.bus.emitted) ∧
        (ofSub i sub.ch.received).Nodup) ∧
    (∀ as t, (monitorSystem sort cfg n).Run (fun _ _ => True) s as t → t.stopCh = false →
      ∀ j ∈ s.bus.subscribers, j ∈ t.bus.subscribers →
      ∀ x ∈ t.bus.emitted, x ∉ s.bus.emitted →
        (∃ em, t.bus.emission x.sub = some em ∧ em.item = x ∧ em.Reaches j) ∨
        ∃ sub, t.bus.all j = some sub ∧ (x ∈ sub.ch.sent ∨
          ∃ buf, (x, buf) ∈ sub.dropped ∧ buf.length = sub.ch.cap)) := by
  have hinv := monitorInv_of_reachable h
  refine ⟨hinv.bus.panicked, fun hc hdone => ⟨?_, fun j sub hj => ?_⟩, fun j sub i hj => ⟨?_, ?_⟩,
    fun as t hrun hopen j hj hj' x hx hold => ?_⟩
  · rw [hinv.bus.events, hc]
    rfl
  · exact hinv.closed_of_done hc hj (hdone j sub hj).2
  · exact hinv.delivery.received hj i
  · exact (hinv.delivery.received hj i).nodup (hinv.delivery.nodup_emitted.filter _)
  · obtain ⟨sub₀, hsub₀⟩ := hinv.bus.subs.known j hj
    have hcreated : sub₀.phase ≠ .creating := by
      intro hp
      rcases (hinv.bus.subs.stands j sub₀ hsub₀).phase hj with hp' | hp' <;>
        rw [hp] at hp' <;> contradiction
    have hheard : Heard s.bus.emitted j s.bus :=
      ⟨⟨sub₀, hsub₀, hcreated⟩, fun _ x hx hold => absurd hx hold⟩
    obtain ⟨hinv', hheard'⟩ := hrun.invariant
      (I := fun t => MonitorInv t ∧ Heard s.bus.emitted j t.bus)
      (fun s a t hs _ hstep => ⟨hs.1.step hstep, hs.2.step hs.1 hstep⟩) ⟨hinv, hheard⟩
    obtain ⟨sub, hsub, -⟩ := hheard'.created
    rcases hheard'.reaches hj' x hx hold with hem | ⟨audience, hmem, haud⟩ | hskip
    · exact .inl hem
    · exact .inr ⟨sub, hsub, hinv'.fate hsub (hinv'.delivery.broadcast x audience hmem j haud)⟩
    · rw [hinv'.skipped x hskip] at hopen
      contradiction

end Broadcast

/-- Two subscribers, the first with room for one event. Of two events it misses the second, because
its buffer is full. Then it is done while the monitor is closed. -/
theorem broadcast_safe_run :
    let M := monitorSystem (α := Modbus.Point) (β := Unit) (E := ℕ) (.insertion sortKey)
      defaultClusterConfig 1
    ∃ s as t u, M.Reachable (fun _ _ => True) s ∧ M.Run (fun _ _ => True) s as t ∧
      M.Reachable (fun _ _ => True) u ∧
      (t.bus.emitted = [⟨0, 1, 20⟩, ⟨1, 1, 21⟩] ∧ t.bus.sentTo 0 = [⟨0, 1, 20⟩] ∧
        ∃ sub buf, t.bus.all 0 = some sub ∧ (⟨1, 1, 21⟩, buf) ∈ sub.dropped ∧
          buf.length = sub.ch.cap) ∧
      u.close = .done ∧ u.bus.events.closed = true ∧
        ∀ j sub, u.bus.all j = some sub → sub.ch.closed = true := by
  intro M
  let start : List (MonitorStep Modbus.Point ℕ) :=
    [.reg (.subscribe (.clusterable (.holdingRegister 0 1))), .reg (.register 1), .reg (.start 1),
      .bus (.newSubscriber 1), .bus (.insert 0), .bus (.newSubscriber 0), .bus (.insert 1)]
  let emit (x : ℕ) (send : Bool) : List (MonitorStep Modbus.Point ℕ) :=
    [.bus (.poll 1 x), .bus (.check 1), .bus (.rlock 1), .bus (.send 1 0), .bus (.send 1 1),
      .bus (.runlock 1), .bus (.last 1 send)]
  let stop : List (MonitorStep Modbus.Point ℕ) :=
    [.close .begin, .bus (.done 0), .close .take, .close (.stop 1), .bus (.recv 1), .reg (.exit 1),
      .close .await, .close .wait, .close .closeEvents, .bus (.done 0), .close .lock,
      .close (.closeCh 1), .close (.closeCh 0), .close .unlock, .bus (.delete 0),
      .bus (.closeCh 0)]
  have hopen : (M.exec (fun _ _ => True) M.init start).bind (fun s =>
      (M.exec (fun _ _ => True) s (emit 20 true ++ emit 21 false)).map fun t =>
        decide ((s.bus.subscribers = [1, 0] ∧ s.bus.emitted = []) ∧
          (t.bus.subscribers = [1, 0] ∧ t.stopCh = false ∧ t.bus.isBusy 1 = false) ∧
          t.bus.emitted = [⟨0, 1, 20⟩, ⟨1, 1, 21⟩] ∧ t.bus.sentTo 0 = [⟨0, 1, 20⟩])) =
      some true := by
    decide +kernel
  obtain ⟨u, hu, hclosed⟩ := TransitionSystem.exists_reachable_of_exec (M := M)
    (G := fun _ _ => True)
    (f := fun u => (u.close, u.bus.nextSubscriber, (u.bus.all 0).map Subscriber.phase,
      (u.bus.all 1).map Subscriber.phase)) (b := (.done, 2, some .done, some .active))
    (start ++ emit 20 true ++ emit 21 false ++ stop) (by decide +kernel)
  obtain ⟨s, hs, hst⟩ := Option.bind_eq_some_iff.mp hopen
  obtain ⟨t, ht, hseen⟩ := Option.map_eq_some_iff.mp hst
  have hreach : M.Reachable (fun _ _ => True) s := ⟨start, TransitionSystem.run_of_exec hs⟩
  have hrun := TransitionSystem.run_of_exec ht
  obtain ⟨⟨hsubs, hnone⟩, ⟨hsubs', hstop, hidle⟩, hemitted, hsent⟩ := of_decide_eq_true hseen
  simp only [Prod.mk.injEq] at hclosed
  obtain ⟨hdone, hnext, hzero, hone⟩ := hclosed
  refine ⟨s, _, t, u, hreach, hrun, hu, ⟨hemitted, hsent, ?_⟩, hdone, ?_⟩
  · obtain ⟨-, -, -, hheard⟩ := broadcast_safe s _ _ _ hreach
    obtain ⟨em, hem, -⟩ | ⟨sub, hsub, hmem | ⟨buf, hbuf⟩⟩ := hheard _ t hrun hstop 0
      (by rw [hsubs]; decide) (by rw [hsubs']; decide) ⟨1, 1, 21⟩ (by rw [hemitted]; decide)
      (by rw [hnone]; decide)
    · rw [Bus.isBusy, hem] at hidle
      contradiction
    · rw [← sentTo_of_all hsub, hsent] at hmem
      exact absurd hmem (by decide)
    · exact ⟨sub, buf, hsub, hbuf⟩
  · refine (broadcast_safe u _ _ _ hu).2.1 hdone fun j sub hj => ?_
    have hlt := (monitorInv_of_reachable hu).bus.subs.fresh j sub hj
    rw [hnext] at hlt
    obtain rfl | rfl : j = 0 ∨ j = 1 := by omega
    · rw [hj] at hzero
      rw [show sub.phase = .done from Option.some.inj hzero]
      exact ⟨nofun, nofun⟩
    · rw [hj] at hone
      rw [show sub.phase = .active from Option.some.inj hone]
      exact ⟨nofun, nofun⟩

end GoIndustrial.Monitor
