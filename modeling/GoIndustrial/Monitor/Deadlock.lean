import Mathlib.Logic.Relation
import GoIndustrial.Monitor.Broadcast

/-!
# Who waits for whom when a handler calls `Stop`

A polling goroutine calls the handler of its subscription between the read and `emit`, and the
handler may call `Stop`, of this or of another subscription. `Stop` returns when the goroutine of
the subscription has ended; this goroutine does not end while its handler has not returned. The
calls of `Stop` and `Close` that have not returned and the polling goroutines are the nodes of the
relation `Waits`. It has a cycle if and only if there are handlers each of which is in a call of
`Stop` of the next one's subscription. A handler that stops its own subscription is the shortest
cycle. `Close`, `stopOnce` and the lock of the subscribers are never on one.

A goroutine that is reading is not in a handler and waits for no call; the read itself is one step
with the poll.

## Main definitions

* `Monitor.PendingCall`, `Monitor.CallingMonitor`, `Monitor.callingSystem`.
* `Monitor.Waits`, `Monitor.NoCircularWait`, `Monitor.HandlerStops`.
* `Monitor.StopsAlong` : the handlers call `Stop` along a relation.

## Main results

* `Monitor.noCircularWait_iff` : in a reachable state there is no circular wait if and only if
  `HandlerStops` has no cycle. If the handlers call `Stop` along a relation without cycles, there
  never is one.
-/

namespace GoIndustrial.Monitor

open Relation

/-! ### Calls -/

/-- Who calls: a goroutine of the program, or the handler of a subscription, which runs on the
goroutine of this. -/
inductive Caller
  | client (k : ℕ)
  | handler (i : ℕ)
  deriving DecidableEq

inductive Target
  | stop (j : ℕ)
  | close
  deriving DecidableEq

/-- A call that has not returned; the `first` one of a target is the one in the function that
`sync.Once` runs. -/
structure PendingCall where
  caller : Caller
  target : Target
  first : Bool
  deriving DecidableEq

/-- A monitor with the calls of `Stop` and `Close` that have not returned. -/
structure CallingMonitor (α κ β E : Type) where
  mon : MonitorState α κ β E
  pending : List PendingCall

inductive CallingStep (α E : Type)
  /-- A step of the monitor that begins no call. -/
  | own (a : MonitorStep α E)
  | callStop (c : Caller) (j : ℕ)
  | callClose (k : ℕ)
  | ret (p : PendingCall)

namespace CallingMonitor

variable {α κ β E : Type}

def isCalling (s : CallingMonitor α κ β E) (c : Caller) : Bool :=
  s.pending.any fun p => p.caller = c

/-- `Stop` and `Close` begin as calls, and a goroutine does not move while its handler is in a
call. -/
def allows (s : CallingMonitor α κ β E) : MonitorStep α E → Bool
  | .reg (.stop _) | .close .begin => false
  | .bus a =>
    match a.poller? with
    | some i => !s.isCalling (.handler i)
    | none => true
  | _ => true

/-- The goroutine `i` has read a value and not called `emit`; of an event with an error the handler
is not told. -/
def inHandler (failed : E → Bool) (s : CallingMonitor α κ β E) (i : ℕ) : Bool :=
  match s.mon.bus.emission i with
  | some (.check x) => !failed x.event
  | _ => false

/-- A goroutine makes one call at a time. -/
def canCall (failed : E → Bool) (s : CallingMonitor α κ β E) : Caller → Bool
  | .client k => !s.isCalling (.client k)
  | .handler i => s.inHandler failed i && !s.isCalling (.handler i)

/-- `sync.Once` of the target is done. -/
def isDone (s : CallingMonitor α κ β E) : Target → Bool
  | .stop j =>
    match s.mon.reg.all j with
    | some sub => sub.stop = .done
    | none => false
  | .close => s.mon.close = .done

/-- The first call of `Stop` waits at `doneCh`, which is not closed. -/
def isAwaited (s : CallingMonitor α κ β E) (j : ℕ) : Bool :=
  match s.mon.reg.all j with
  | some sub => sub.stop = .awaiting ∧ sub.life ≠ .finished
  | none => false

variable [LinearOrder κ] [Clusterable α κ] [DecidableEq α]
  (sort : KeySort (sortKey (α := α))) (failed : E → Bool)

def step (s : CallingMonitor α κ β E) : CallingStep α E → Option (CallingMonitor α κ β E)
  | .own a => if s.allows a then (s.mon.step sort a).map fun mon => { s with mon } else none
  | .callStop c j => do
    let sub ← s.mon.reg.all j
    let mon ← s.mon.step sort (.reg (.stop j))
    if s.canCall failed c then
      some ⟨mon, ⟨c, .stop j, sub.stop = .fresh⟩ :: s.pending⟩
    else none
  | .callClose k => do
    let mon ← s.mon.step sort (.close .begin)
    if s.canCall failed (.client k) then
      some ⟨mon, ⟨.client k, .close, s.mon.close = .fresh⟩ :: s.pending⟩
    else none
  | .ret p =>
    if p ∈ s.pending ∧ s.isDone p.target then some { s with pending := s.pending.erase p } else none

end CallingMonitor

/-- The interleavings on a new monitor, with the calls. -/
def callingSystem {α κ β E : Type} [LinearOrder κ] [Clusterable α κ] [DecidableEq α]
    (sort : KeySort (sortKey (α := α))) (failed : E → Bool) (cfg : ClusterConfig)
    (eventBuffer : ℕ) : TransitionSystem (CallingMonitor α κ β E) (CallingStep α E) where
  init := ⟨(monitorSystem sort cfg eventBuffer).init, []⟩
  step := CallingMonitor.step sort failed

/-! ### Waiting -/

section Waits

variable {α κ β E : Type}

inductive Node
  | call (p : PendingCall)
  | poller (i : ℕ)

/-- Who waits for whom. -/
inductive Waits (s : CallingMonitor α κ β E) : Node → Node → Prop
  /-- `Stop`, for the goroutine to close `doneCh`. -/
  | doneCh {p : PendingCall} {j : ℕ} (hp : p ∈ s.pending) (htarget : p.target = .stop j)
      (hfirst : p.first = true) (hawaited : s.isAwaited j = true) :
      Waits s (.call p) (.poller j)
  /-- `Stop` or `Close`, for the first call of the same. -/
  | once {p q : PendingCall} (hp : p ∈ s.pending) (hq : q ∈ s.pending)
      (htarget : p.target = q.target) (hpfirst : p.first = false) (hqfirst : q.first = true)
      (hdone : s.isDone p.target = false) :
      Waits s (.call p) (.call q)
  /-- `Stop`, before `stopOnce`, while `Close` is in its function. -/
  | stopOnce {p q : PendingCall} {j : ℕ} {rest : List ℕ} {sub : Subscription α}
      (hp : p ∈ s.pending) (hq : q ∈ s.pending) (hptarget : p.target = .stop j)
      (hqtarget : q.target = .close) (hpfirst : p.first = true) (hqfirst : q.first = true)
      (hj : s.mon.reg.all j = some sub) (hstop : sub.stop = .stopping)
      (hclose : s.mon.close = .awaiting j rest) :
      Waits s (.call p) (.call q)
  /-- `Close`, before `stopOnce`, while `Stop` is in its function. -/
  | closeStopOnce {p q : PendingCall} {j : ℕ} {rest : List ℕ} {sub : Subscription α}
      (hp : p ∈ s.pending) (hq : q ∈ s.pending) (hptarget : p.target = .close)
      (hqtarget : q.target = .stop j) (hpfirst : p.first = true) (hqfirst : q.first = true)
      (hj : s.mon.reg.all j = some sub) (hstop : sub.stop = .awaiting)
      (hclose : s.mon.close = .stopping rest) (hmem : j ∈ rest) :
      Waits s (.call p) (.call q)
  /-- `Close`, for the goroutine to close `doneCh`. -/
  | closeDoneCh {p : PendingCall} {i : ℕ} {rest : List ℕ} {sub : Subscription α}
      (hp : p ∈ s.pending) (htarget : p.target = .close) (hfirst : p.first = true)
      (hclose : s.mon.close = .awaiting i rest) (hi : s.mon.reg.all i = some sub)
      (hlife : sub.life ≠ .finished) :
      Waits s (.call p) (.poller i)
  /-- `Close`, at `wg.Wait`. -/
  | closeWait {p : PendingCall} {i : ℕ} (hp : p ∈ s.pending) (htarget : p.target = .close)
      (hfirst : p.first = true) (hclose : s.mon.close = .stopping []) (hmem : i ∈ s.mon.reg.wg) :
      Waits s (.call p) (.poller i)
  /-- `Close`, for a reader of the lock. -/
  | closeLock {p : PendingCall} {i : ℕ} (hp : p ∈ s.pending) (htarget : p.target = .close)
      (hfirst : p.first = true) (hclose : s.mon.close = .quiet)
      (hmem : .poller i ∈ s.mon.bus.lock.readers) :
      Waits s (.call p) (.poller i)
  /-- A goroutine, for its handler. -/
  | handler {p : PendingCall} {i : ℕ} (hp : p ∈ s.pending) (hcaller : p.caller = .handler i) :
      Waits s (.poller i) (.call p)
  /-- A goroutine in `emit`, for `Close`, which has the lock or waits for it. -/
  | rlockClose {p : PendingCall} {i : ℕ} {x : Item E}
      (hem : s.mon.bus.emission i = some (.rlock x)) (hp : p ∈ s.pending)
      (htarget : p.target = .close) (hfirst : p.first = true)
      (hlock : s.mon.close = .quiet ∨ s.mon.bus.lock.writer = some .close) :
      Waits s (.poller i) (.call p)
  /-- A goroutine in `emit`, for a reader of the lock: one that any writer waits for, behind which
  new readers queue. -/
  | rlockReader {i k : ℕ} {x : Item E} (hem : s.mon.bus.emission i = some (.rlock x))
      (hmem : .poller k ∈ s.mon.bus.lock.readers) :
      Waits s (.poller i) (.poller k)

/-- No call waits for a polling goroutine that waits for this call, both directly or through a
chain. -/
def NoCircularWait (s : CallingMonitor α κ β E) : Prop :=
  ¬ ∃ p i, TransGen (Waits s) (.call p) (.poller i) ∧ TransGen (Waits s) (.poller i) (.call p)

/-- The handler of `i` is in a call of `Stop` of `j`. -/
def CallsStop (s : CallingMonitor α κ β E) (i j : ℕ) : Prop :=
  ∃ p ∈ s.pending, p.caller = .handler i ∧ p.target = .stop j

/-- The handler of `i` is in a call of `Stop` of `j` when the goroutine of `j` is awaited. -/
def HandlerStops (s : CallingMonitor α κ β E) (i j : ℕ) : Prop :=
  CallsStop s i j ∧ s.isAwaited j = true

/-- Handlers call `Stop` along the relation. -/
def StopsAlong (mayStop : ℕ → ℕ → Prop) (_ : CallingMonitor α κ β E) : CallingStep α E → Prop
  | .callStop (.handler i) j => mayStop i j
  | _ => True

instance (mayStop : ℕ → ℕ → Prop) [DecidableRel mayStop] (s : CallingMonitor α κ β E) :
    ∀ a, Decidable (StopsAlong mayStop s a)
  | .callStop (.handler i) j => inferInstanceAs (Decidable (mayStop i j))
  | .callStop (.client _) _ | .own _ | .callClose _ | .ret _ => inferInstanceAs (Decidable True)

theorem isAwaited_iff {s : CallingMonitor α κ β E} {j : ℕ} :
    s.isAwaited j = true ↔
      ∃ sub, s.mon.reg.all j = some sub ∧ sub.stop = .awaiting ∧ sub.life ≠ .finished := by
  rw [CallingMonitor.isAwaited]
  split
  case h_1 sub hj => simp [hj]
  case h_2 hj => simp [hj]

end Waits

/-! ### The invariant -/

section Inv

variable {α κ β E : Type}

theorem CloseMove.emission_eq {s t : MonitorState α κ β E} (hm : CloseMove s t) :
    t.bus.emission = s.bus.emission := by
  cases hm with
  | closeCh => exact emission_closeCh _ _ _ _
  | again | begin | take | stop | await | wait | closeEvents | closeEventsPanic | lock | unlock =>
    rfl

/-- `Stop` has begun and not returned. -/
def StopPhase.inProgress : StopPhase → Bool
  | .fresh | .done => false
  | .removing | .unregistering | .stopping | .awaiting => true

/-- The subscriptions that `Close` has taken and not stopped. -/
def ClosePhase.left : ClosePhase → List ℕ
  | .stopping rest => rest
  | .awaiting i rest => i :: rest
  | _ => []

/-- If `Stop` is in progress, its first call is among the calls. -/
def Served (pending : List PendingCall) (j : ℕ) (sub : Subscription α) : Prop :=
  sub.stop.inProgress = true → ∃ p ∈ pending, p.target = .stop j ∧ p.first = true

theorem Served.mono {pending : List PendingCall} {j : ℕ} {sub : Subscription α}
    (h : Served pending j sub) (p : PendingCall) : Served (p :: pending) j sub := by
  intro hprogress
  obtain ⟨q, hq, hqs⟩ := h hprogress
  exact ⟨q, List.mem_cons_of_mem p hq, hqs⟩

variable {s : CallingMonitor α κ β E}

theorem Served.erase {p : PendingCall} {j : ℕ} {sub : Subscription α}
    (h : Served s.pending j sub) (hj : s.mon.reg.all j = some sub)
    (hdone : s.isDone p.target = true) : Served (s.pending.erase p) j sub := by
  intro hprogress
  obtain ⟨q, hq, htarget, hfirst⟩ := h hprogress
  refine ⟨q, (List.mem_erase_of_ne ?_).mpr hq, htarget, hfirst⟩
  rintro rfl
  simp only [CallingMonitor.isDone, htarget, hj, decide_eq_true_eq] at hdone
  rw [hdone] at hprogress
  contradiction

theorem ne_stop_of_allows {a : MonitorStep α E} (ha : s.allows a = true) (j : ℕ) :
    a ≠ .reg (.stop j) := by
  rintro rfl
  contradiction

theorem emission_of_canCall {failed : E → Bool} {i : ℕ}
    (hc : s.canCall failed (.handler i) = true) :
    ∃ x, s.mon.bus.emission i = some (.check x) := by
  have hin := (Bool.and_eq_true_iff.mp hc).1
  rw [CallingMonitor.inHandler] at hin
  split at hin
  case h_1 x hem => exact ⟨x, hem⟩
  case h_2 => contradiction

variable [Clusterable α κ]

/-- The invariant of a monitor with the calls that have not returned. -/
structure CallingInv (s : CallingMonitor α κ β E) : Prop where
  mon : MonitorInv s.mon
  handlers : ∀ p ∈ s.pending, ∀ i, p.caller = .handler i →
    (∃ x, s.mon.bus.emission i = some (.check x)) ∧ ∃ j, p.target = .stop j
  served : ∀ j sub, s.mon.reg.all j = some sub → Served s.pending j sub
  taken : s.mon.close.left ⊆ s.mon.reg.abandoned.map Prod.fst

variable [LinearOrder κ] [DecidableEq α] {sort : KeySort (sortKey (α := α))} {failed : E → Bool}

/-- Everything that a step can do. -/
inductive CallingMove (sort : KeySort (sortKey (α := α))) (failed : E → Bool)
    (s : CallingMonitor α κ β E) : CallingStep α E → CallingMonitor α κ β E → Prop
  | own {a : MonitorStep α E} {mon : MonitorState α κ β E} (ha : s.allows a = true)
      (hm : s.mon.step sort a = some mon) : CallingMove sort failed s (.own a) { s with mon }
  | callStop {c : Caller} {j : ℕ} {sub : Subscription α} {r : Registry α κ β}
      (hj : s.mon.reg.all j = some sub)
      (hm : RegMove sort s.mon.stopCh s.mon.bus.isBusy s.mon.reg (.stop j) r)
      (hstep : s.mon.step sort (.reg (.stop j)) = some { s.mon with reg := r })
      (hc : s.canCall failed c = true) :
      CallingMove sort failed s (.callStop c j)
        ⟨{ s.mon with reg := r }, ⟨c, .stop j, sub.stop = .fresh⟩ :: s.pending⟩
  | callClose {k : ℕ} {mon : MonitorState α κ β E}
      (hm : s.mon.step sort (.close .begin) = some mon) :
      CallingMove sort failed s (.callClose k)
        ⟨mon, ⟨.client k, .close, s.mon.close = .fresh⟩ :: s.pending⟩
  | ret {p : PendingCall} (hdone : s.isDone p.target = true) :
      CallingMove sort failed s (.ret p) { s with pending := s.pending.erase p }

theorem CallingMove.of_step {s t : CallingMonitor α κ β E} {a : CallingStep α E}
    (h : s.step sort failed a = some t) : CallingMove sort failed s a t := by
  cases a with
  | own a =>
    obtain ⟨ha, h⟩ := Option.ite_none_right_eq_some.mp h
    obtain ⟨mon, hm, rfl⟩ := Option.map_eq_some_iff.mp h
    exact .own ha hm
  | callStop c j =>
    obtain ⟨sub, hj, h⟩ := Option.bind_eq_some_iff.mp h
    obtain ⟨mon, hm, h⟩ := Option.bind_eq_some_iff.mp h
    obtain ⟨hc, h⟩ := Option.ite_none_right_eq_some.mp h
    cases h
    obtain ⟨r, hr, rfl⟩ := Option.map_eq_some_iff.mp hm
    exact .callStop hj (RegMove.of_step hr) hm hc
  | callClose k =>
    rw [CallingMonitor.step] at h
    obtain ⟨mon, hm, h⟩ := Option.bind_eq_some_iff.mp h
    obtain ⟨-, h⟩ := Option.ite_none_right_eq_some.mp h
    cases h
    exact .callClose hm
  | ret p =>
    obtain ⟨⟨-, hdone⟩, h⟩ := Option.ite_none_right_eq_some.mp h
    cases h
    exact .ret hdone

variable {s t : MonitorState α κ β E} {a : MonitorStep α E} {pending : List PendingCall}

/-- Only a call of `Stop` begins one. -/
theorem served_step (h : ∀ j sub, s.reg.all j = some sub → Served pending j sub)
    (ha : ∀ j, a ≠ .reg (.stop j)) (hstep : s.step sort a = some t) :
    ∀ j sub, t.reg.all j = some sub → Served pending j sub := by
  cases a with
  | reg a =>
    obtain ⟨r, hr, rfl⟩ := Option.map_eq_some_iff.mp hstep
    cases RegMove.of_step hr with
    | refuse => exact h
    | subscribe => exact Table.forall_update_some h nofun
    | register hi | start hi | exit hi =>
      have hi := h _ _ hi
      exact Table.forall_update_some h hi
    | stop | stopAgain => exact absurd rfl (ha _)
    | removeGone | await => exact Table.forall_update_some h nofun
    | remove hi hstop | unregister hi hstop | signal hi hstop =>
      -- the call that has taken the step has begun before it
      exact Table.forall_update_some h fun _ => h _ _ hi (by rw [hstop]; rfl)
  | bus a =>
    obtain ⟨b, -, rfl⟩ := Option.map_eq_some_iff.mp hstep
    exact h
  | close a =>
    cases CloseMove.of_step hstep with
    | stop hc hi =>
      have hi := h _ _ hi
      exact Table.forall_update_some h hi
    | again | begin | take | await | wait | closeEvents | closeEventsPanic | lock | closeCh
    | unlock => exact h

/-- What `Close` is still to stop it has found in the map. -/
theorem taken_step (h : s.close.left ⊆ s.reg.abandoned.map Prod.fst)
    (hinv : RegInv s.reg s.stopCh) (hstep : s.step sort a = some t) :
    t.close.left ⊆ t.reg.abandoned.map Prod.fst := by
  cases a with
  | reg a =>
    obtain ⟨r, hr, rfl⟩ := Option.map_eq_some_iff.mp hstep
    rw [← (RegMove.of_step hr).frame.2.1] at h
    exact h
  | bus a =>
    obtain ⟨b, -, rfl⟩ := Option.map_eq_some_iff.mp hstep
    exact h
  | close a =>
    cases CloseMove.of_step hstep with
    | again | closeEventsPanic => exact h
    | begin | wait | closeEvents | lock | closeCh | unlock => exact List.nil_subset _
    | take hc =>
      intro i hi
      obtain ⟨sub, hsub⟩ := hinv.subs_known i hi
      exact List.mem_map_of_mem (f := Prod.fst) ((mem_abandoned_takeAll hsub).mpr ⟨hi, rfl⟩)
    | stop hc hi hmem =>
      rw [hc] at h
      exact fun k hk => h (List.cons_subset.mpr ⟨hmem, List.erase_subset⟩ hk)
    | await hc hi hlife =>
      rw [hc] at h
      exact fun k hk => h (List.mem_cons_of_mem _ hk)

/-- A goroutine whose handler is in a call stays where it is. -/
theorem emission_of_allows {s : CallingMonitor α κ β E} {mon : MonitorState α κ β E} {i : ℕ}
    {p : PendingCall} (hp : p ∈ s.pending) (hcaller : p.caller = .handler i)
    (ha : s.allows a = true) (hstep : s.mon.step sort a = some mon) :
    mon.bus.emission i = s.mon.bus.emission i := by
  cases a with
  | reg a =>
    obtain ⟨r, -, rfl⟩ := Option.map_eq_some_iff.mp hstep
    rfl
  | bus a =>
    obtain ⟨b, hb, rfl⟩ := Option.map_eq_some_iff.mp hstep
    refine (BusMove.of_step_poller hb).2 i fun hi => ?_
    have hcalling : s.isCalling (.handler i) = true :=
      List.any_eq_true.mpr ⟨p, hp, decide_eq_true hcaller⟩
    simp [CallingMonitor.allows, hi, hcalling] at ha
  | close a => rw [(CloseMove.of_step hstep).emission_eq]

variable {s t : CallingMonitor α κ β E} {a : CallingStep α E}

theorem CallingInv.move (h : CallingInv s) (hm : CallingMove sort failed s a t) :
    CallingInv t := by
  cases hm with
  | own ha hm =>
    refine ⟨h.mon.step hm, fun p hp i hcaller => ?_,
      served_step h.served (ne_stop_of_allows ha) hm, taken_step h.taken h.mon.reg hm⟩
    obtain ⟨⟨x, hem⟩, htarget⟩ := h.handlers p hp i hcaller
    exact ⟨⟨x, (emission_of_allows (s := s) hp hcaller ha hm).trans hem⟩, htarget⟩
  | @callStop c j sub r hj hm hstep hc =>
    refine ⟨h.mon.step hstep, fun p hp i hcaller => ?_, ?_, taken_step h.taken h.mon.reg hstep⟩
    · rcases List.mem_cons.mp hp with rfl | hp
      · obtain rfl : c = .handler i := hcaller
        have hem := emission_of_canCall hc
        exact ⟨hem, j, rfl⟩
      · exact h.handlers p hp i hcaller
    · have hold := fun k sub' hk => (h.served k sub' hk).mono ⟨c, .stop j, sub.stop = .fresh⟩
      cases hm with
      | stop hi hlife hstop =>
        obtain rfl := Option.some.inj (hj.symm.trans hi)
        exact Table.forall_update_some hold fun _ =>
          ⟨_, List.mem_cons_self, rfl, decide_eq_true hstop⟩
      | stopAgain => exact hold
  | callClose hm =>
    have hem : _ = s.mon.bus.emission := CloseMove.emission_eq (CloseMove.of_step (a := .begin) hm)
    refine ⟨h.mon.step hm, fun p hp i hcaller => ?_,
      served_step (a := .close .begin) (fun j sub hj => (h.served j sub hj).mono _)
        (fun _ => nofun) hm, taken_step h.taken h.mon.reg hm⟩
    rcases List.mem_cons.mp hp with rfl | hp
    · contradiction
    · rw [hem]
      exact h.handlers p hp i hcaller
  | ret hdone =>
    exact ⟨h.mon, fun p hp => h.handlers p (List.mem_of_mem_erase hp),
      fun j sub hj => (h.served j sub hj).erase hj hdone, h.taken⟩

end Inv

/-! ### The chains of waiting -/

section Chain

variable {α κ β E : Type} [Clusterable α κ] {s : CallingMonitor α κ β E}

/-- No goroutine is in `emit` when `Close` comes to the lock. -/
theorem CallingInv.not_quiet (h : CallingInv s) {i : ℕ} {em : Emission E}
    (hem : s.mon.bus.emission i = some em) :
    ¬ (s.mon.close = .quiet ∨ s.mon.bus.lock.writer = some .close) := by
  have hopen := h.mon.polling.hasClosedEvents h.mon.reg h.mon.shutdown hem
  rintro (hquiet | hwriter)
  · rw [hquiet] at hopen
    contradiction
  · have hold : s.mon.close.hold = .writing := (h.mon.bus.tracks.writer_iff .close).mp hwriter
    cases hc : s.mon.close <;> rw [hc] at hold hopen <;> contradiction

/-- A reader of the lock is in the loop over the subscribers. -/
theorem CallingInv.sending_of_reader (h : CallingInv s) {i : ℕ}
    (hmem : .poller i ∈ s.mon.bus.lock.readers) :
    ∃ x todo audience, s.mon.bus.emission i = some (.sending x todo audience) := by
  have hold : lockHold s.mon.bus s.mon.close (.poller i) = .reading :=
    (h.mon.bus.tracks.mem_readers _).mp hmem
  cases hem : s.mon.bus.emission i with
  | none =>
    rw [lockHold_poller hem] at hold
    contradiction
  | some em =>
    rw [lockHold_poller hem] at hold
    cases em with
    | sending x todo audience => exact ⟨x, todo, audience, rfl⟩
    | check | rlock | last => contradiction

/-- A reader of the lock waits for nothing. -/
theorem CallingInv.not_waits_of_reader (h : CallingInv s) {i : ℕ} {v : Node}
    (hmem : .poller i ∈ s.mon.bus.lock.readers) : ¬ Waits s (.poller i) v := by
  obtain ⟨x, todo, audience, hsending⟩ := h.sending_of_reader hmem
  intro hw
  cases hw with
  | handler hp hcaller =>
    obtain ⟨⟨y, hem⟩, -⟩ := h.handlers _ hp i hcaller
    rw [hsending] at hem
    exact absurd (Option.some.inj hem) nofun
  | rlockClose hem | rlockReader hem =>
    rw [hsending] at hem
    exact absurd (Option.some.inj hem) nofun

/-- `Stop` and `Close` do not meet in `stopOnce`: what one of them stops the other has not found in
the map. -/
theorem CallingInv.stop_of_left (h : CallingInv s) {j : ℕ} {sub : Subscription α}
    (hj : s.mon.reg.all j = some sub) (hleft : j ∈ s.mon.close.left) :
    sub.stop = .fresh ∨ sub.stop = .removing ∨ sub.stop = .done := by
  obtain ⟨⟨i, point⟩, hmem, rfl⟩ := List.mem_map.mp (h.taken hleft)
  obtain ⟨sub₁, hj₁, rfl⟩ := h.mon.reg.abandoned_known i point hmem
  obtain rfl := Option.some.inj (hj.symm.trans hj₁)
  exact (h.mon.reg.placed i sub hj).abandoned hmem

/-- What a goroutine `i` can come to wait for: goroutines that handlers stop, one after the other,
calls of `Stop` of what the last of these handlers stops, and goroutines that read the lock. -/
def Chain (s : CallingMonitor α κ β E) (i : ℕ) : Node → Prop
  | .poller k => TransGen (HandlerStops s) i k ∨ .poller k ∈ s.mon.bus.lock.readers
  | .call q => ∃ j l, ReflTransGen (HandlerStops s) i j ∧ CallsStop s j l ∧ q.target = .stop l

theorem Chain.of_poller (h : CallingInv s) {i k : ℕ} {v : Node}
    (hik : ReflTransGen (HandlerStops s) i k) (hw : Waits s (.poller k) v) : Chain s i v := by
  cases hw with
  | handler hp hcaller =>
    obtain ⟨-, l, htarget⟩ := h.handlers _ hp k hcaller
    exact ⟨k, l, hik, ⟨_, hp, hcaller, htarget⟩, htarget⟩
  | rlockClose hem hp htarget hfirst hlock => exact absurd hlock (h.not_quiet hem)
  | rlockReader hem hmem => exact .inr hmem

theorem Chain.of_call (h : CallingInv s) {i : ℕ} {q : PendingCall} {v : Node}
    (hc : Chain s i (.call q)) (hw : Waits s (.call q) v) : Chain s i v := by
  obtain ⟨j, l, hij, hcalls, hq⟩ := hc
  cases hw with
  | doneCh hp htarget hfirst hawaited =>
    obtain rfl := Target.stop.inj (hq.symm.trans htarget)
    exact .inl (.tail' hij ⟨hcalls, hawaited⟩)
  | once hp hq' htarget => exact ⟨j, l, hij, hcalls, htarget.symm.trans hq⟩
  | stopOnce hp hq' hptarget hqtarget hpfirst hqfirst hj hstop hclose =>
    have hleft := h.stop_of_left hj (by rw [hclose]; exact List.mem_cons_self)
    rw [hstop] at hleft
    simp at hleft
  | closeStopOnce hp hq' htarget | closeDoneCh hp htarget | closeWait hp htarget
  | closeLock hp htarget =>
    rw [hq] at htarget
    contradiction

/-- Everything that a goroutine waits for, directly or through a chain. -/
theorem Chain.of_transGen (h : CallingInv s) {i : ℕ} {v : Node}
    (hw : TransGen (Waits s) (.poller i) v) : Chain s i v := by
  induction hw with
  | single hw => exact .of_poller h .refl hw
  | @tail u v _ hw ih =>
    cases u with
    | call q => exact .of_call h ih hw
    | poller k =>
      rcases ih with hik | hmem
      · exact .of_poller h hik.to_reflTransGen hw
      · exact absurd hw (h.not_waits_of_reader hmem)

/-- The handler waits for the goroutine that it stops, in a call of its own. -/
theorem HandlerStops.waits (h : CallingInv s) {i j : ℕ} (hij : HandlerStops s i j) :
    ∃ p, Waits s (.poller i) (.call p) ∧ TransGen (Waits s) (.call p) (.poller j) := by
  obtain ⟨⟨p, hp, hcaller, htarget⟩, hawaited⟩ := hij
  refine ⟨p, .handler hp hcaller, ?_⟩
  cases hfirst : p.first with
  | true => exact .single (.doneCh hp htarget hfirst hawaited)
  | false =>
    obtain ⟨sub, hj, hstop, -⟩ := isAwaited_iff.mp hawaited
    obtain ⟨q, hq, hqtarget, hqfirst⟩ := h.served j sub hj (by rw [hstop]; rfl)
    have hdone : s.isDone p.target = false := by
      simp [CallingMonitor.isDone, htarget, hj, hstop]
    exact .head (.once hp hq (htarget.trans hqtarget.symm) hfirst hqfirst hdone)
      (.single (.doneCh hq hqtarget hqfirst hawaited))

theorem CallingInv.noCircularWait (h : CallingInv s)
    (hacyclic : ∀ i, ¬ TransGen (HandlerStops s) i i) : NoCircularWait s := by
  rintro ⟨p, i, hpi, hip⟩
  rcases Chain.of_transGen h (hip.trans hpi) with hcycle | hmem
  · exact hacyclic i hcycle
  · obtain ⟨v, hw, -⟩ := TransGen.head'_iff.mp hip
    exact h.not_waits_of_reader hmem hw

theorem CallingInv.acyclic (h : CallingInv s) (hs : NoCircularWait s) (i : ℕ) :
    ¬ TransGen (HandlerStops s) i i := by
  intro hcycle
  obtain ⟨j, hij, hji⟩ := TransGen.head'_iff.mp hcycle
  obtain ⟨p, hip, hpj⟩ := hij.waits h
  have hlift : ReflTransGen (Waits s) (.poller j) (.poller i) := by
    refine hji.lift' Node.poller fun k l hkl => ?_
    obtain ⟨q, hkq, hql⟩ := hkl.waits h
    exact (hql.head hkq).to_reflTransGen
  exact hs ⟨p, i, hpj.trans_left hlift, .single hip⟩

variable [LinearOrder κ] [DecidableEq α] {sort : KeySort (sortKey (α := α))} {failed : E → Bool}
  {cfg : ClusterConfig} {n : ℕ} {G : CallingMonitor α κ β E → CallingStep α E → Prop}

theorem callingInv_of_reachable (h : (callingSystem sort failed cfg n).Reachable G s) :
    CallingInv s := by
  have hinit : MonitorInv (monitorSystem (β := β) (E := E) sort cfg n).init :=
    monitorInv_of_reachable .init
  refine h.invariant ⟨hinit, nofun, nofun, List.nil_subset _⟩ ?_
  exact fun _ _ _ hs _ hstep => hs.move (CallingMove.of_step hstep)

/-- The calls of `Stop` that are pending are along the relation. -/
theorem mayStop_of_callsStop {mayStop : ℕ → ℕ → Prop}
    (h : (callingSystem sort failed cfg n).Reachable (StopsAlong mayStop) s) :
    ∀ k l, CallsStop s k l → mayStop k l := by
  refine h.invariant (I := fun s => ∀ k l, CallsStop s k l → mayStop k l) ?_ ?_
  · rintro k l ⟨p, hp, -⟩
    exact absurd hp List.not_mem_nil
  rintro s a t hs hg hstep k l ⟨p, hp, hcaller, htarget⟩
  cases CallingMove.of_step hstep with
  | own => exact hs k l ⟨p, hp, hcaller, htarget⟩
  | callStop =>
    rcases List.mem_cons.mp hp with rfl | hp
    · obtain rfl := Target.stop.inj htarget
      obtain rfl : _ = Caller.handler k := hcaller
      exact hg
    · exact hs k l ⟨p, hp, hcaller, htarget⟩
  | callClose =>
    rcases List.mem_cons.mp hp with rfl | hp
    · contradiction
    · exact hs k l ⟨p, hp, hcaller, htarget⟩
  | ret => exact hs k l ⟨p, List.mem_of_mem_erase hp, hcaller, htarget⟩

/-- In every reachable state, whatever the handlers call: no call of `Stop` or `Close` waits for a
polling goroutine that waits for this call, if and only if the handlers that are in a call of `Stop`
of an awaited subscription do not form a cycle. In particular handlers that call `Stop` along a
relation without cycles are safe. -/
theorem noCircularWait_iff (sort : KeySort (sortKey (α := α))) (failed : E → Bool)
    (cfg : ClusterConfig) (n : ℕ) (s : CallingMonitor α κ β E)
    (h : (callingSystem sort failed cfg n).Reachable G s) :
    (NoCircularWait s ↔ ∀ i, ¬ TransGen (HandlerStops s) i i) ∧
      ∀ mayStop : ℕ → ℕ → Prop, (∀ i, ¬ TransGen mayStop i i) →
        (callingSystem sort failed cfg n).Reachable (StopsAlong mayStop) s → NoCircularWait s := by
  have hinv := callingInv_of_reachable h
  refine ⟨⟨hinv.acyclic, hinv.noCircularWait⟩, fun mayStop hacyclic halong => ?_⟩
  refine hinv.noCircularWait fun i hcycle => hacyclic i ?_
  exact hcycle.lift id fun k l hkl => mayStop_of_callsStop halong k l hkl.1

end Chain

/-- The handler of the first subscription stops the second one, which a client stops as well, and
the monitor is closed: `Close` waits for the first goroutine, and that for the second. -/
theorem noCircularWait_iff_chain :
    ∃ s, (callingSystem (α := Modbus.Point) (β := Unit) (E := ℕ) (.insertion sortKey)
        (fun _ => false) defaultClusterConfig 1).Reachable (StopsAlong (· < ·)) s ∧
      s.mon.close = .awaiting 1 [] ∧ CallsStop s 1 2 ∧ s.isAwaited 2 = true ∧
      NoCircularWait s ∧ ∀ i, ¬ TransGen (HandlerStops s) i i := by
  let subscribe (i : ℕ) : List (CallingStep Modbus.Point ℕ) :=
    [.own (.reg (.subscribe (.clusterable (.holdingRegister 0 1)))), .own (.reg (.register i)),
      .own (.reg (.start i))]
  let calls : List PendingCall :=
    [⟨.client 8, .close, true⟩, ⟨.client 7, .stop 2, false⟩, ⟨.handler 1, .stop 2, true⟩]
  obtain ⟨s, hs, heq⟩ := TransitionSystem.exists_reachable_of_exec
    (M := callingSystem (α := Modbus.Point) (β := Unit) (E := ℕ) (.insertion sortKey)
      (fun _ => false) defaultClusterConfig 1) (G := StopsAlong (· < ·))
    (f := fun s => (s.pending, s.mon.close, s.isAwaited 2)) (b := (calls, .awaiting 1 [], true))
    (subscribe 1 ++ subscribe 2 ++
      [.own (.bus (.poll 1 20)), .callStop (.handler 1) 2, .own (.reg (.remove 2)),
        .own (.reg (.unregister 2)), .own (.reg (.signal 2)), .callStop (.client 7) 2,
        .callClose 8, .own (.close .take), .own (.close (.stop 1))]) (by decide +kernel)
  obtain ⟨hpending, heq⟩ := Prod.mk.inj heq
  obtain ⟨hclose, hawaited⟩ := Prod.mk.inj heq
  have hacyclic (i : ℕ) : ¬ TransGen (· < ·) i i := by
    rw [transGen_eq_self]
    exact lt_irrefl i
  obtain ⟨hiff, halong⟩ := noCircularWait_iff _ _ _ _ s hs
  have hno := halong _ hacyclic hs
  exact ⟨s, hs, hclose, ⟨⟨.handler 1, .stop 2, true⟩, by rw [hpending]; decide, rfl, rfl⟩,
    hawaited, hno, hiff.mp hno⟩

/-- A handler stops its own subscription: `Stop` waits for the goroutine, which waits for the
handler, which waits for `Stop`. -/
theorem not_noCircularWait_own_handler :
    ∃ s, (callingSystem (α := Modbus.Point) (β := Unit) (E := ℕ) (.insertion sortKey)
        (fun _ => false) defaultClusterConfig 1).Reachable (fun _ _ => True) s ∧
      s.pending = [⟨.handler 1, .stop 1, true⟩] ∧ ¬ NoCircularWait s := by
  obtain ⟨s, hs, heq⟩ := TransitionSystem.exists_reachable_of_exec
    (M := callingSystem (α := Modbus.Point) (β := Unit) (E := ℕ) (.insertion sortKey)
      (fun _ => false) defaultClusterConfig 1) (G := fun _ _ => True)
    (f := fun s => (s.pending, s.isAwaited 1)) (b := ([⟨.handler 1, .stop 1, true⟩], true))
    [.own (.reg (.subscribe (.clusterable (.holdingRegister 0 1)))), .own (.reg (.register 1)),
      .own (.reg (.start 1)), .own (.bus (.poll 1 20)), .callStop (.handler 1) 1,
      .own (.reg (.remove 1)), .own (.reg (.unregister 1)), .own (.reg (.signal 1))]
    (by decide +kernel)
  obtain ⟨hpending, hawaited⟩ := Prod.mk.inj heq
  have hmem : ⟨.handler 1, .stop 1, true⟩ ∈ s.pending := by
    rw [hpending]
    exact List.mem_singleton_self _
  refine ⟨s, hs, hpending, fun hno => hno ⟨⟨.handler 1, .stop 1, true⟩, 1, ?_, ?_⟩⟩
  · exact .single (.doneCh hmem rfl rfl hawaited)
  · exact .single (.handler hmem rfl)

end GoIndustrial.Monitor
