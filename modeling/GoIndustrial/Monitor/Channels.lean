import GoIndustrial.Lib.Table
import GoIndustrial.Monitor.System
import Mathlib.Data.List.Nodup

/-!
# Channels and the lock

The goroutines of the subscriptions send on the channels of the subscribers under the read lock; a
channel is taken from the map under the write lock before `Done` closes it, and `Close` closes those
that are left under the write lock, when no goroutine runs any more. The channel of the monitor is
closed by `Close` alone, after the goroutines have ended.

The invariant of the bus ties the lock to where its users stand, and the channels that are closed to
the map and to the phases of `Done` and `Close`.

## Main definitions

* `Monitor.lockHold` : how the lock is held.
* `Monitor.Stands`, `Monitor.SubsInv`, `Monitor.BusInv`.

## Main results

* `Monitor.BusInv.send` : an event is offered on an open channel.
* `Monitor.BusInv.busMove`, `Monitor.BusInv.closeMove` : the invariant of the bus.
-/

namespace GoIndustrial.Monitor

/-! ### The lock -/

section Hold

variable {E : Type}

def Emission.hold : Emission E → RWLock.Hold
  | .sending _ _ _ => .reading
  | _ => .free

def SubscriberPhase.hold : SubscriberPhase → RWLock.Hold
  | .creating => .writing
  | _ => .free

def ClosePhase.hold : ClosePhase → RWLock.Hold
  | .closing _ => .writing
  | _ => .free

/-- How the lock is held, by where its users stand. -/
def lockHold (b : Bus E) (close : ClosePhase) : Holder → RWLock.Hold
  | .poller i => (b.emission i).elim .free Emission.hold
  | .subscriber j => (b.all j).elim .free fun sub => sub.phase.hold
  | .close => close.hold

variable (b : Bus E) (close close' : ClosePhase)

theorem lockHold_setEmission (i : ℕ) (em : Option (Emission E)) :
    lockHold (b.setEmission i em) close =
      Function.update (lockHold b close) (.poller i) (em.elim .free Emission.hold) := by
  funext h
  cases h with
  | poller k =>
    rcases eq_or_ne k i with rfl | hne
    · simp [lockHold, Bus.setEmission]
    · simp [lockHold, Bus.setEmission, hne]
  | subscriber | close => simp [lockHold, Bus.setEmission]

theorem lockHold_put (j : ℕ) (sub : Subscriber E) :
    lockHold (b.put j sub) close =
      Function.update (lockHold b close) (.subscriber j) sub.phase.hold := by
  funext h
  cases h with
  | subscriber k =>
    rcases eq_or_ne k j with rfl | hne
    · simp [lockHold, Bus.put]
    · simp [lockHold, Bus.put, hne]
  | poller | close => simp [lockHold, Bus.put]

theorem lockHold_close :
    lockHold b close' = Function.update (lockHold b close) .close close'.hold := by
  funext h
  cases h with
  | close => simp [lockHold]
  | poller | subscriber => simp [lockHold]

end Hold

/-! ### Channels -/

section Stands

variable {E : Type}

/-- `Close` has closed the channel of the subscriber, which is still in the map. -/
def ClosePhase.isPast (j : ℕ) : ClosePhase → Prop
  | .closing todo => j ∉ todo
  | _ => False

/-- Where a subscriber stands that is, or is not, in the map. -/
structure Stands (sub : Subscriber E) (registered past : Prop) : Prop where
  once : sub.closeOnce = sub.ch.closed
  bound : sub.ch.buf.length ≤ sub.ch.cap
  phase : registered → sub.phase = .active ∨ sub.phase = .unregistering
  closed : registered → (sub.ch.closed = true ↔ past)
  new : sub.phase = .creating → sub.ch.closed = false
  rest : sub.phase = .creating ∨ registered ∨ sub.ch.closed = true ∨ sub.phase = .closing
  dropped : ∀ e ∈ sub.dropped, e.2.length = sub.ch.cap

/-- The subscribers and the map. -/
structure SubsInv (b : Bus E) (close : ClosePhase) : Prop where
  nodup : b.subscribers.Nodup
  fresh : ∀ j sub, b.all j = some sub → j < b.nextSubscriber
  known : ∀ j ∈ b.subscribers, ∃ sub, b.all j = some sub
  stands : ∀ j sub, b.all j = some sub → Stands sub (j ∈ b.subscribers) (close.isPast j)
  todo : ∀ todo, close = .closing todo → todo.Nodup
  done : close = .done → b.subscribers = [] ∧
    ∀ j sub, b.all j = some sub → sub.phase ≠ .creating

variable {b b' : Bus E} {close close' : ClosePhase} {j : ℕ} {sub sub' : Subscriber E}

/-- A step that changes the subscriber `j` and its place in the map. -/
theorem SubsInv.change (h : SubsInv b close) (hj : b.all j = some sub)
    (hall : b'.all = Function.update b.all j (some sub'))
    (hnext : b'.nextSubscriber = b.nextSubscriber) (hnodup : b'.subscribers.Nodup)
    (haway : ∀ k ≠ j, (k ∈ b'.subscribers ↔ k ∈ b.subscribers) ∧
      (close'.isPast k ↔ close.isPast k))
    (hstands : Stands sub' (j ∈ b'.subscribers) (close'.isPast j))
    (htodo : ∀ todo, close' = .closing todo → todo.Nodup)
    (hdone : close' = .done → b'.subscribers = [] ∧ sub'.phase ≠ .creating ∧ close = .done) :
    SubsInv b' close' := by
  refine ⟨hnodup, ?_, fun k hk => ?_, fun k sub₁ hk => ?_, htodo, fun hc => ?_⟩
  · rw [hall, hnext]
    exact Table.forall_update_some h.fresh (h.fresh j sub hj)
  · rw [hall]
    rcases eq_or_ne k j with rfl | hne
    · exact ⟨sub', Function.update_self _ _ _⟩
    · obtain ⟨sub₁, hk⟩ := h.known k ((haway k hne).1.mp hk)
      exact ⟨sub₁, (Function.update_of_ne hne _ _).trans hk⟩
  · rw [hall] at hk
    rcases Table.update_some_eq_some.mp hk with ⟨rfl, rfl⟩ | ⟨hne, hk⟩
    · exact hstands
    · have hst := h.stands k sub₁ hk
      obtain ⟨hmem, hpast⟩ := haway k hne
      rwa [← propext hmem, ← propext hpast] at hst
  · obtain ⟨hnil, hphase, hc⟩ := hdone hc
    refine ⟨hnil, ?_⟩
    rw [hall]
    exact Table.forall_update_some (h.done hc).2 hphase

/-- A step that changes only a subscriber. -/
theorem SubsInv.put (h : SubsInv b close) (hj : b.all j = some sub)
    (hstands : Stands sub' (j ∈ b.subscribers) (close.isPast j))
    (hphase : sub'.phase = .creating → sub.phase = .creating) : SubsInv (b.put j sub') close := by
  refine h.change hj rfl rfl h.nodup (fun k _ => ⟨.rfl, .rfl⟩) hstands h.todo fun hc => ?_
  obtain ⟨hnil, hnone⟩ := h.done hc
  exact ⟨hnil, fun hp => hnone j sub hj (hphase hp), hc⟩

/-- What matters of the bus for the subscribers. -/
theorem SubsInv.congr (h : SubsInv b close) (hsubs : b'.subscribers = b.subscribers)
    (hall : b'.all = b.all) (hnext : b'.nextSubscriber = b.nextSubscriber) :
    SubsInv b' close := by
  obtain ⟨hnodup, hfresh, hknown, hstands, htodo, hdone⟩ := h
  rw [← hsubs, ← hall, ← hnext] at *
  exact ⟨hnodup, hfresh, hknown, hstands, htodo, hdone⟩

/-- The subscriber after an event has been offered to it on its open channel. -/
inductive Offered (sub : Subscriber E) (x : Item E) : Subscriber E → Prop
  | sent (hroom : sub.ch.buf.length < sub.ch.cap) :
      Offered sub x { sub with ch := { sub.ch with buf := sub.ch.buf ++ [x] } }
  | dropped (hfull : ¬sub.ch.buf.length < sub.ch.cap) :
      Offered sub x { sub with dropped := sub.dropped ++ [(x, sub.ch.buf)] }

theorem offer_eq (b : Bus E) (j : ℕ) (x : Item E) (hopen : sub.ch.closed = false) :
    ∃ sub', Offered sub x sub' ∧ b.offer j sub x = b.put j sub' := by
  by_cases hroom : sub.ch.buf.length < sub.ch.cap
  · refine ⟨_, .sent hroom, ?_⟩
    simp [Bus.offer, Chan.offer, hopen, hroom]
  · refine ⟨_, .dropped hroom, ?_⟩
    simp [Bus.offer, Chan.offer, hopen, hroom]

/-- `closeCh` does not close a closed channel. -/
theorem closeCh_eq (b : Bus E) (j : ℕ) (phase : SubscriberPhase)
    (honce : sub.closeOnce = sub.ch.closed) : b.closeCh j sub phase =
      b.put j { sub with phase, ch := { sub.ch with closed := true }, closeOnce := true } := by
  obtain ⟨phase₀, ⟨cap, buf, closed, received⟩, once, dropped⟩ := sub
  obtain rfl : once = closed := honce
  cases once <;> rfl

variable {registered past : Prop} {x : Item E}

theorem Offered.stands (ho : Offered sub x sub') (h : Stands sub registered past) :
    Stands sub' registered past := by
  cases ho with
  | sent hroom =>
    refine { h with bound := ?_ }
    rw [List.length_append]
    exact hroom
  | dropped hfull =>
    refine { h with dropped := fun e he => ?_ }
    rcases List.mem_append.mp he with he | he
    · exact h.dropped e he
    · obtain rfl := List.mem_singleton.mp he
      exact le_antisymm h.bound (not_lt.mp hfull)

theorem Offered.phase_eq (ho : Offered sub x sub') : sub'.phase = sub.phase := by
  cases ho <;> rfl

end Stands

/-! ### The invariant of the bus -/

section BusInv

variable {E : Type}

/-- `Close` has closed the channel of the monitor. -/
def ClosePhase.hasClosedEvents : ClosePhase → Bool
  | .quiet | .closing _ | .done => true
  | _ => false

/-- While an event goes round, the map is as it was in the beginning. -/
def Emission.GoesRound (subscribers : List ℕ) : Emission E → Prop
  | .sending _ todo audience => audience = subscribers ∧ todo.Nodup ∧ todo ⊆ audience
  | _ => True

/-- The invariant of the bus, without what has been delivered. -/
structure BusInv (b : Bus E) (close : ClosePhase) : Prop where
  tracks : b.lock.Tracks (lockHold b close)
  subs : SubsInv b close
  sending : ∀ i em, b.emission i = some em → em.GoesRound b.subscribers
  events : b.events.closed = close.hasClosedEvents
  panicked : b.panicked = false

variable {b b' : Bus E} {close close' : ClosePhase} {i j : ℕ} {sub sub' : Subscriber E}
  {em : Option (Emission E)}

theorem lockHold_poller (hem : b.emission i = em) :
    lockHold b close (.poller i) = em.elim .free Emission.hold := by rw [lockHold, hem]

theorem lockHold_subscriber (hj : b.all j = some sub) :
    lockHold b close (.subscriber j) = sub.phase.hold := by
  rw [lockHold, hj]
  rfl

theorem lockHold_put_of_hold (hj : b.all j = some sub)
    (hhold : sub'.phase.hold = sub.phase.hold) :
    lockHold (b.put j sub') close = lockHold b close := by
  rw [lockHold_put, hhold, ← lockHold_subscriber hj, Function.update_eq_self]

/-- What matters of the bus. -/
theorem BusInv.congr (h : BusInv b close) (hlock : b'.lock = b.lock)
    (hem : b'.emission = b.emission) (hsubs : b'.subscribers = b.subscribers)
    (hall : b'.all = b.all) (hnext : b'.nextSubscriber = b.nextSubscriber)
    (hevents : b'.events.closed = b.events.closed) (hpanicked : b'.panicked = b.panicked) :
    BusInv b' close where
  tracks := by
    have hhold : lockHold b' close = lockHold b close := by
      funext holder
      cases holder <;> simp only [lockHold, hem, hall]
    rw [hlock, hhold]
    exact h.tracks
  subs := h.subs.congr hsubs hall hnext
  sending := by
    rw [hem, hsubs]
    exact h.sending
  events := hevents.trans h.events
  panicked := hpanicked.trans h.panicked

/-- A goroutine goes on in `emit`, and keeps the lock if it has it. -/
theorem BusInv.emit (h : BusInv b close) (hem : b.emission i = em) (em' : Option (Emission E))
    (hhold : em'.elim .free Emission.hold = em.elim .free Emission.hold)
    (hround : ∀ e, em' = some e → e.GoesRound b.subscribers) :
    BusInv (b.setEmission i em') close where
  tracks := by
    rw [lockHold_setEmission, hhold, ← lockHold_poller hem, Function.update_eq_self]
    exact h.tracks
  subs := h.subs.congr rfl rfl rfl
  sending := Table.forall_update h.sending hround
  events := h.events
  panicked := h.panicked

/-- A subscriber changes, neither in the map nor under the lock. -/
theorem BusInv.put (h : BusInv b close) (hj : b.all j = some sub)
    (hhold : sub'.phase.hold = sub.phase.hold)
    (hstands : Stands sub' (j ∈ b.subscribers) (close.isPast j)) :
    BusInv (b.put j sub') close where
  tracks := by
    rw [lockHold_put_of_hold hj hhold]
    exact h.tracks
  subs := by
    refine h.subs.put hj hstands fun hphase => ?_
    rw [hphase] at hhold
    cases hp : sub.phase <;> rw [hp] at hhold <;> first | rfl | contradiction
  sending := h.sending
  events := h.events
  panicked := h.panicked

/-- Nobody sends while the lock is held for writing. -/
theorem BusInv.not_sending (h : BusInv b close) (holder : Holder)
    (hw : lockHold b close holder = .writing) (subscribers : List ℕ) :
    ∀ i em, b.emission i = some em → em.GoesRound subscribers := by
  intro i em hem
  have hhold := h.tracks.not_reading hw (.poller i)
  rw [lockHold_poller hem] at hhold
  cases em <;> trivial

/-- `Close` is not closing channels while somebody else holds the lock. -/
theorem BusInv.not_past (h : BusInv b close) (holder : Holder) (hne : holder ≠ .close)
    (hhold : lockHold b close holder ≠ .free) (j : ℕ) : ¬close.isPast j := by
  intro hpast
  have hwriting : lockHold b close .close = .writing := by
    cases close <;> first | rfl | exact hpast.elim
  cases hh : lockHold b close holder with
  | free => exact hhold hh
  | reading => exact h.tracks.not_reading hwriting holder hh
  | writing => exact hne (h.tracks.eq_of_writing hh hwriting)

/-- An event is offered to a subscriber: its channel is open. -/
theorem BusInv.send {x : Item E} {todo audience : List ℕ} (h : BusInv b close)
    (hem : b.emission i = some (.sending x todo audience)) (hj : b.all j = some sub)
    (hmem : j ∈ todo) : ∃ sub', Offered sub x sub' ∧ b.offer j sub x = b.put j sub' ∧
      BusInv ((b.put j sub').setEmission i (some (.sending x (todo.erase j) audience)))
        close := by
  obtain ⟨rfl, hnodup, hsub⟩ := h.sending i _ hem
  have hreading : lockHold b close (.poller i) = .reading := lockHold_poller hem
  have hstands := h.subs.stands j sub hj
  have hopen : sub.ch.closed = false := by
    refine Bool.eq_false_iff.mpr fun hclosed => ?_
    refine h.not_past (.poller i) nofun (by rw [hreading]; exact nofun) j ?_
    exact (hstands.closed (hsub hmem)).mp hclosed
  obtain ⟨sub', ho, heq⟩ := offer_eq b j x hopen
  have hput := h.put hj (by rw [ho.phase_eq]) (ho.stands hstands)
  refine ⟨sub', ho, heq, hput.emit hem _ rfl ?_⟩
  rintro e ⟨⟩
  exact ⟨rfl, hnodup.erase j, fun k hk => hsub (List.mem_of_mem_erase hk)⟩

theorem SubsInv.create (h : SubsInv b .fresh) (cap : ℕ) :
    SubsInv { b.put b.nextSubscriber ⟨.creating, .make cap, false, []⟩ with
      nextSubscriber := b.nextSubscriber + 1 } .fresh := by
  have hnew : b.nextSubscriber ∉ b.subscribers := fun hmem =>
    let ⟨sub, hsub⟩ := h.known _ hmem
    (h.fresh _ sub hsub).ne rfl
  refine ⟨h.nodup, ?_, fun k hk => ?_, ?_, nofun, nofun⟩
  · exact Table.forall_update_some (fun k sub hk => (h.fresh k sub hk).trans (Nat.lt_succ_self _))
      (Nat.lt_succ_self _)
  · obtain ⟨sub, hsub⟩ := h.known k hk
    exact ⟨sub, (Function.update_of_ne (h.fresh k sub hsub).ne _ _).trans hsub⟩
  · refine Table.forall_update_some h.stands ?_
    exact ⟨rfl, Nat.zero_le _, fun hmem => absurd hmem hnew, fun hmem => absurd hmem hnew,
      fun _ => rfl, .inl rfl, nofun⟩

theorem BusInv.newSubscriber (h : BusInv b .fresh) (cap : ℕ) {lock : RWLock Holder}
    (hl : b.lock.lock (.subscriber b.nextSubscriber) = some lock) :
    BusInv { b.put b.nextSubscriber ⟨.creating, .make cap, false, []⟩ with
      lock
      nextSubscriber := b.nextSubscriber + 1 } .fresh where
  tracks := by
    have hhold := lockHold_put b .fresh b.nextSubscriber ⟨.creating, .make cap, false, []⟩
    exact hhold ▸ h.tracks.lock hl
  subs := (h.subs.create cap).congr rfl rfl rfl
  sending := h.sending
  events := h.events
  panicked := h.panicked

/-- `NewSubscriber` puts the subscriber into the map and lets go of the lock. -/
theorem BusInv.insert (h : BusInv b close) (hj : b.all j = some sub)
    (hphase : sub.phase = .creating) :
    BusInv { b.put j { sub with phase := .active } with
      lock := b.lock.unlock
      subscribers := j :: b.subscribers } close := by
  have hwriting : lockHold b close (.subscriber j) = .writing := by
    rw [lockHold_subscriber hj, hphase]
    rfl
  have hpast : ¬close.isPast j :=
    h.not_past (.subscriber j) nofun (by rw [hwriting]; exact nofun) j
  have hstands := h.subs.stands j sub hj
  have hnot : j ∉ b.subscribers := fun hmem => by
    rcases hstands.phase hmem with hp | hp <;> rw [hphase] at hp <;> contradiction
  refine ⟨?_, ?_, h.not_sending (.subscriber j) hwriting _, h.events, h.panicked⟩
  · have hhold := lockHold_put b close j { sub with phase := .active }
    exact hhold ▸ h.tracks.unlock hwriting
  · refine h.subs.change hj rfl rfl (List.nodup_cons.mpr ⟨hnot, h.subs.nodup⟩) (fun k hne => ?_) ?_
      h.subs.todo fun hc => absurd hphase ((h.subs.done hc).2 j sub hj)
    · exact ⟨⟨fun hk => (List.mem_cons.mp hk).resolve_left hne, List.mem_cons_of_mem _⟩, .rfl⟩
    · have hopen := hstands.new hphase
      exact ⟨hstands.once, hstands.bound, fun _ => .inl rfl, fun _ => by simp [hopen, hpast],
        nofun, .inr (.inl List.mem_cons_self), hstands.dropped⟩

/-- `Done` takes the subscriber from the map. -/
theorem BusInv.delete (h : BusInv b close) (hj : b.all j = some sub) {lock : RWLock Holder}
    (hl : b.lock.lock (.subscriber j) = some lock) (hphase : sub.phase = .unregistering) :
    BusInv { b.put j { sub with phase := .closing } with
      subscribers := b.subscribers.erase j } close := by
  obtain ⟨hw, hr, -⟩ := RWLock.lock_eq_some.mp hl
  have hstands := h.subs.stands j sub hj
  refine ⟨?_, ?_, fun i em hem => ?_, h.events, h.panicked⟩
  · have hhold : lockHold (b.put j { sub with phase := .closing }) close = lockHold b close :=
      lockHold_put_of_hold hj (by rw [hphase]; rfl)
    exact hhold ▸ h.tracks
  · refine h.subs.change hj rfl rfl (h.subs.nodup.erase j) (fun k hne => ?_) ?_ h.subs.todo
      fun hc => ?_
    · exact ⟨List.mem_erase_of_ne hne, .rfl⟩
    · have hnot : j ∉ b.subscribers.erase j := h.subs.nodup.not_mem_erase
      exact ⟨hstands.once, hstands.bound, fun hmem => absurd hmem hnot,
        fun hmem => absurd hmem hnot, nofun, .inr (.inr (.inr rfl)), hstands.dropped⟩
    · rw [(h.subs.done hc).1]
      exact ⟨rfl, nofun, hc⟩
  · -- the lock is free, so that no event goes round
    have hnot := (h.tracks.mem_readers (.poller i)).not
    rw [hr, lockHold_poller (b := b) hem] at hnot
    cases em <;> first | trivial | exact absurd rfl (hnot.mp List.not_mem_nil)

theorem closed_of_offer_panic {ch : Chan (Item E)} {x : Item E} (h : ch.offer x = .panic) :
    ch.closed = true := by
  rw [Chan.offer] at h
  split at h
  case isTrue hc => exact hc
  case isFalse =>
    split at h <;> contradiction

theorem closed_of_offer_sent {ch ch' : Chan (Item E)} {x : Item E} (h : ch.offer x = .sent ch') :
    ch'.closed = ch.closed := by
  rw [Chan.offer] at h
  split at h
  · contradiction
  · split at h
    · obtain rfl := Chan.Offer.sent.inj h
      rfl
    · contradiction

/-- What a receive leaves of a channel. -/
theorem recv_eq_some {ch ch' : Chan (Item E)} (h : ch.recv = some ch') :
    ch'.closed = ch.closed ∧ ch'.cap = ch.cap ∧ ch'.buf.length ≤ ch.buf.length ∧
      ch'.sent = ch.sent := by
  rw [Chan.recv] at h
  split at h
  · contradiction
  case h_2 x buf hbuf =>
    obtain rfl := Option.some.inj h
    refine ⟨rfl, rfl, ?_, ?_⟩
    · rw [hbuf]
      exact Nat.le_succ _
    · simp [Chan.sent, hbuf]

theorem BusInv.busMove {stopCh : Bool} {running : ℕ → Bool} (h : BusInv b close)
    (hpolling : ∀ i em, b.emission i = some em → close.hasClosedEvents = false)
    (hstop : stopCh = false → close = .fresh) (hm : BusMove stopCh running b b') :
    BusInv b' close := by
  cases hm with
  | nothing => exact h
  | poll hrun hem =>
    refine (h.emit hem (some _) rfl ?_).congr rfl rfl rfl rfl rfl rfl rfl
    rintro e ⟨⟩
    trivial
  | skip hem hs =>
    exact (h.emit hem none rfl nofun).congr rfl rfl rfl rfl rfl rfl rfl
  | pass hem hs =>
    refine h.emit hem _ rfl ?_
    rintro e ⟨⟩
    trivial
  | @rlock i x lock hem hl =>
    have hhold := lockHold_setEmission b close i (some (.sending x b.subscribers b.subscribers))
    refine ⟨?_, h.subs.congr rfl rfl rfl, ?_, h.events, h.panicked⟩
    · exact hhold ▸ h.tracks.rlock (lockHold_poller hem) hl
    · exact Table.forall_update_some h.sending ⟨rfl, h.subs.nodup, List.Subset.refl _⟩
  | send hem hj hmem =>
    obtain ⟨sub', -, heq, hinv⟩ := h.send hem hj hmem
    rwa [heq]
  | @runlock i x audience hem =>
    have hhold := lockHold_setEmission b close i (some (.last x))
    refine ⟨?_, h.subs.congr rfl rfl rfl, ?_, h.events, h.panicked⟩
    · exact hhold ▸ h.tracks.runlock (lockHold_poller hem)
    · exact Table.forall_update_some h.sending trivial
  | last hem => exact h.emit hem none rfl nofun
  | lastSent hem hch =>
    exact (h.emit hem none rfl nofun).congr rfl rfl rfl rfl rfl (closed_of_offer_sent hch) rfl
  | lastPanic hem hch =>
    have hclosed := closed_of_offer_panic hch
    rw [h.events, hpolling _ _ hem] at hclosed
    contradiction
  | newSubscriber hs hl =>
    obtain rfl := hstop hs
    exact h.newSubscriber _ hl
  | insert hj hphase => exact h.insert hj hphase
  | done hj hphase =>
    refine h.put hj (by rw [hphase]; rfl) ?_
    have hst := h.subs.stands _ _ hj
    refine ⟨hst.once, hst.bound, fun _ => .inr rfl, hst.closed, nofun, ?_, hst.dropped⟩
    simpa [hphase] using hst.rest
  | delete hj hl hphase => exact h.delete hj hl hphase
  | closeCh hj hphase =>
    have hst := h.subs.stands _ _ hj
    rw [closeCh_eq _ _ _ hst.once]
    refine h.put hj (by rw [hphase]; rfl) ⟨rfl, hst.bound, fun hmem => ?_, fun hmem => ?_, nofun,
      .inr (.inr (.inl rfl)), hst.dropped⟩
    all_goals rcases hst.phase hmem with hp | hp <;> rw [hphase] at hp <;> contradiction
  | recv hj hch =>
    obtain ⟨hclosed, hcap, hlen, -⟩ := recv_eq_some hch
    have hst := h.subs.stands _ _ hj
    refine h.put hj rfl ?_
    exact ⟨hst.once.trans hclosed.symm, hcap ▸ hlen.trans hst.bound, hst.phase,
      hclosed ▸ hst.closed, hclosed ▸ hst.new, hclosed ▸ hst.rest, hcap ▸ hst.dropped⟩
  | recvEvent hch =>
    exact h.congr rfl rfl rfl rfl rfl (recv_eq_some hch).1 rfl

/-- `Close` goes on to a phase without the lock, perhaps with another channel for the monitor. -/
theorem BusInv.goOn (h : BusInv b close) (hhold : close.hold = .free) (close' : ClosePhase)
    (hhold' : close'.hold = .free) (hdone : close' ≠ .done) {ch : Chan (Item E)}
    (hch : ch.closed = close'.hasClosedEvents) : BusInv { b with events := ch } close' := by
  have hpast : ∀ {c : ClosePhase}, c.hold = .free → ∀ j, ¬c.isPast j := by
    intro c hc j hj
    cases c <;> first | exact hj | contradiction
  refine ⟨?_, ⟨h.subs.nodup, h.subs.fresh, h.subs.known, fun j sub hj => ?_, ?_,
    fun hc => absurd hc hdone⟩, h.sending, hch, h.panicked⟩
  · have hsame : lockHold b close' = lockHold b close := by
      rw [lockHold_close b close, hhold', ← hhold,
        show close.hold = lockHold b close .close from rfl, Function.update_eq_self]
    exact hsame ▸ h.tracks
  · have hst := h.subs.stands j sub hj
    rwa [eq_false (hpast hhold j), ← eq_false (hpast hhold' j)] at hst
  · rintro todo rfl
    contradiction

/-- `Close` takes the lock. -/
theorem BusInv.lock (h : BusInv b .quiet) {lock : RWLock Holder}
    (hl : b.lock.lock .close = some lock) :
    BusInv { b with lock } (.closing b.subscribers) := by
  refine ⟨?_, ⟨h.subs.nodup, h.subs.fresh, h.subs.known, fun j sub hj => ?_, ?_, nofun⟩, h.sending,
    h.events, h.panicked⟩
  · have hhold := lockHold_close b .quiet (.closing b.subscribers)
    exact hhold ▸ h.tracks.lock hl
  · have hst := h.subs.stands j sub hj
    refine { hst with closed := fun hmem => ?_ }
    exact (hst.closed hmem).trans ⟨False.elim, fun hnot => hnot hmem⟩
  · rintro todo ⟨⟩
    exact h.subs.nodup

/-- `Close` closes the channel of a subscriber, unless `Done` has done so. -/
theorem BusInv.closeOne {todo : List ℕ} (h : BusInv b (.closing todo)) (hj : b.all j = some sub) :
    BusInv (b.closeCh j sub sub.phase) (.closing (todo.erase j)) := by
  have hst := h.subs.stands j sub hj
  have hnodup := h.subs.todo todo rfl
  have hnot : j ∉ todo.erase j := hnodup.not_mem_erase
  rw [closeCh_eq _ _ _ hst.once]
  refine ⟨?_, ?_, h.sending, h.events, h.panicked⟩
  · have hhold := lockHold_close b (.closing todo) (.closing (todo.erase j))
    rw [show ClosePhase.hold (.closing (todo.erase j)) = lockHold b (.closing todo) .close from rfl,
      Function.update_eq_self] at hhold
    rw [lockHold_put_of_hold hj, hhold]
    · exact h.tracks
    · rfl
  · refine h.subs.change hj rfl rfl h.subs.nodup (fun k hne => ⟨.rfl, ?_⟩) ?_ ?_ nofun
    · exact not_congr (List.mem_erase_of_ne hne)
    · refine ⟨rfl, hst.bound, hst.phase, fun _ => ⟨fun _ => hnot, fun _ => rfl⟩, fun hp => ?_,
        .inr (.inr (.inl rfl)), hst.dropped⟩
      -- nobody is in `NewSubscriber` while `Close` has the lock
      have hwriting : lockHold b (.closing todo) (.subscriber j) = .writing := by
        rw [lockHold_subscriber hj, show sub.phase = .creating from hp]
        rfl
      exact absurd (h.tracks.eq_of_writing (j := .close) hwriting rfl) nofun
    · rintro todo' ⟨⟩
      exact hnodup.erase j

/-- `Close` has closed all channels. -/
theorem BusInv.unlock (h : BusInv b (.closing [])) :
    BusInv { b with lock := b.lock.unlock, subscribers := [] } .done := by
  refine ⟨?_, ⟨List.nodup_nil, h.subs.fresh, nofun, fun j sub hj => ?_, nofun, fun _ => ⟨rfl, ?_⟩⟩,
    h.not_sending .close rfl _, h.events, h.panicked⟩
  · have hhold := lockHold_close b (.closing []) .done
    exact hhold ▸ h.tracks.unlock (i := .close) rfl
  · have hst := h.subs.stands j sub hj
    refine ⟨hst.once, hst.bound, nofun, nofun, hst.new, ?_, hst.dropped⟩
    rcases hst.rest with hnew | hmem | hrest
    · exact .inl hnew
    · exact .inr (.inr (.inl ((hst.closed hmem).mpr List.not_mem_nil)))
    · exact .inr (.inr hrest)
  · intro j sub (hj : b.all j = some sub) hp
    have hwriting : lockHold b (.closing []) (.subscriber j) = .writing := by
      rw [lockHold_subscriber hj, hp]
      rfl
    exact absurd (h.tracks.eq_of_writing (j := .close) hwriting rfl) nofun

theorem BusInv.closeMove {α κ β : Type} {s t : MonitorState α κ β E} (h : BusInv s.bus s.close)
    (hm : CloseMove s t) : BusInv t.bus t.close := by
  cases hm with
  | again => exact h
  | begin hc =>
    rw [hc] at h
    exact h.goOn rfl .entered rfl nofun h.events
  | take hc | await hc =>
    rw [hc] at h
    exact h.goOn rfl (.stopping _) rfl nofun h.events
  | stop hc =>
    rw [hc] at h
    exact h.goOn rfl (.awaiting _ _) rfl nofun h.events
  | wait hc =>
    rw [hc] at h
    exact h.goOn rfl .waited rfl nofun h.events
  | @closeEvents ch hc hch =>
    rw [hc] at h
    refine h.goOn rfl .quiet rfl nofun ?_
    obtain ⟨-, heq⟩ := Option.ite_none_left_eq_some.mp hch
    rw [← Option.some.inj heq]
    rfl
  | closeEventsPanic hc hch =>
    rw [hc] at h
    have hopen := h.events
    rw [Chan.close, hopen] at hch
    contradiction
  | lock hc hl =>
    rw [hc] at h
    exact h.lock hl
  | closeCh hc hj hmem =>
    rw [hc] at h
    exact h.closeOne hj
  | unlock hc =>
    rw [hc] at h
    exact h.unlock

end BusInv

end GoIndustrial.Monitor
