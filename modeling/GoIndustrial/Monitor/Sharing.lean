import GoIndustrial.Monitor.Flights

/-!
# The sharing of reads in flight

Without a cache, and while the plan stays as it is, the windows that concurrent `Read`s need are
read once for all that ask at the same time: a `Read` that finds an entry in flight waits for its
outcome, and the others open a flight of their own.

The model adds a record of what is seen of the flights to the interleavings of
`Monitor.sharedSystem`: what the inner reads have answered, who found which entry, what they were
given, where the data of a window came from, and which entries were in the table while a `Read` was
under way, or were taken out before it began. No step depends on the record.

## Main definitions

* `Monitor.TrackedReader`, `Monitor.trackedSystem`.
* `Monitor.NoReplan` : points are registered and unregistered before the first `Read` only.
* `Monitor.SharesSoundly` : what sharing promises.

## Main results

* `Monitor.TrackInv.step` : the invariant of the record.
* `Monitor.shares_soundly` : sharing is sound in every interleaving.
-/

namespace GoIndustrial.Monitor

open Plc Clusterable

/-! ### What is recorded -/

/-- A reader, and what has been seen of its flights. -/
structure TrackedReader (α κ ε : Type) where
  shared : SharedReader α κ ε
  /-- The calls that have begun. -/
  begun : List ℕ
  /-- The outcomes of inner reads, by flight. -/
  answers : ℕ → Option (Except ε (WindowData α κ))
  /-- The calls that found an entry, with its flight. -/
  found : List (ℕ × ℕ)
  /-- The calls that were cancelled while they waited, with the flight. -/
  cancelled : List (ℕ × ℕ)
  /-- The calls that waited and were given an outcome, with the flight. -/
  returned : List (ℕ × ℕ × Except ε (WindowData α κ))
  /-- The flight that a call has the data of a window from. -/
  source : ℕ → ℕ → Option ℕ
  /-- The flights whose entries have been taken out. -/
  removed : Set ℕ
  /-- Those taken out before a call began. -/
  before : ℕ → Set ℕ
  /-- The flights that had an entry at a moment of a call. -/
  present : ℕ → Set ℕ

variable {α κ ε : Type}

/-- The outcome that the inner read of a window has. -/
def ReadWindow.outcome (w : ReadWindow α κ) :
    Except ε (List (Value α)) → Except ε (WindowData α κ)
  | .error e => .error e
  | .ok [] => .ok ⟨w.range, default⟩
  | .ok (val :: _) => .ok ⟨w.range, val⟩

/-- The `Read` has begun and not returned. -/
def UnderWay (s : SharedReader α κ ε) (t : ℕ) : Prop :=
  ∃ call, s.calls t = some call ∧ call.phase ≠ .failed ∧ call.phase ≠ .done

namespace ReadCall

/-- The entry under the key of the current window. -/
def entry? (s : SharedReader α κ ε) (call : ReadCall α κ ε) : Option ℕ :=
  call.needed.head?.bind fun i => s.flights (call.gen, i)

/-- The flight and the outcome of the inner read that a step ends. -/
def answered? (call : ReadCall α κ ε) :
    CallStep α ε → Option (ℕ × Except ε (WindowData α κ))
  | .endRead answer => do
    let f ← call.phase.flight?
    let i ← call.needed.head?
    let w ← call.windows[i]?
    return (f, w.outcome answer)
  | _ => none

/-- The flight whose entry a step finds. -/
def found? (s : SharedReader α κ ε) (call : ReadCall α κ ε) : CallStep α ε → Option ℕ
  | .join => call.entry? s
  | _ => none

/-- The flight that the call was waiting for when it was cancelled. -/
def cancelled? (call : ReadCall α κ ε) : CallStep α ε → Option ℕ
  | .cancel => call.phase.flight?
  | _ => none

/-- The flight whose outcome is given to a call that waited for it. -/
def returned? (s : SharedReader α κ ε) (call : ReadCall α κ ε) :
    CallStep α ε → Option (ℕ × Except ε (WindowData α κ))
  | .wake => do
    let f ← call.phase.flight?
    let outcome ← s.outcomes f
    return (f, outcome)
  | _ => none

/-- The window that a step is done with, and the flight that its data is from. -/
def taken? (call : ReadCall α κ ε) : CallStep α ε → Option (ℕ × ℕ)
  | .wake | .cleanup => do
    let i ← call.needed.head?
    let f ← call.phase.flight?
    return (i, f)
  | _ => none

/-- The flight whose entry a step takes out. -/
def removed? (s : SharedReader α κ ε) (call : ReadCall α κ ε) : CallStep α ε → Option ℕ
  | .cleanup => call.entry? s
  | _ => none

end ReadCall

namespace TrackedReader

/-- What is recorded of a step of the `Read` `t`, which stands at `call`. -/
def record (s : TrackedReader α κ ε) (t : ℕ) (call : ReadCall α κ ε) (a : CallStep α ε) :
    TrackedReader α κ ε :=
  { s with
    answers :=
      match call.answered? a with
      | some (f, outcome) => Function.update s.answers f (some outcome)
      | none => s.answers
    found := s.found ++ (call.found? s.shared a).toList.map (t, ·)
    cancelled := s.cancelled ++ (call.cancelled? a).toList.map (t, ·)
    returned := s.returned ++ (call.returned? s.shared a).toList.map (t, ·)
    source := fun u i =>
      match call.taken? a with
      | some (j, f) => if u = t ∧ i = j then some f else s.source u i
      | none => s.source u i
    removed := {f | f ∈ s.removed ∨ call.removed? s.shared a = some f} }

/-- The reader after a step: all entries that are in the table now are seen by the calls that are
under way. -/
def observe (s : TrackedReader α κ ε) (r : SharedReader α κ ε) : TrackedReader α κ ε :=
  { s with
    shared := r
    present := fun t => {f | f ∈ s.present t ∨ UnderWay r t ∧ ∃ k, r.flights k = some f} }

/-- The `Read` `t` begins. -/
def begin (s : TrackedReader α κ ε) (t : ℕ) : TrackedReader α κ ε :=
  { s with
    begun := s.begun ++ [t]
    before := Function.update s.before t s.removed }

variable [LinearOrder κ] [Clusterable α κ] (sort : KeySort (sortKey (α := α)))

def step (s : TrackedReader α κ ε) : ReaderStep α ε → Option (TrackedReader α κ ε)
  | .plan t points order =>
    (s.shared.step sort (.plan t points order)).map fun r => (s.begin t).observe r
  | .call t a =>
    (s.shared.calls t).bind fun call =>
      (s.shared.stepCall t call a).map fun r => (s.record t call a).observe r
  | a => (s.shared.step sort a).map s.observe

end TrackedReader

section System

variable [LinearOrder κ] [Clusterable α κ]

/-- The interleavings of `Register`, `Unregister` and `Read` on a new reader, with the record. -/
def trackedSystem (ε : Type) (sort : KeySort (sortKey (α := α))) (config : ClusterConfig) :
    TransitionSystem (TrackedReader α κ ε) (ReaderStep α ε) where
  init :=
    { shared := (sharedSystem ε sort config).init
      begun := []
      answers := fun _ => none
      found := []
      cancelled := []
      returned := []
      source := fun _ _ => none
      removed := ∅
      before := fun _ => ∅
      present := fun _ => ∅ }
  step := TrackedReader.step sort

end System

/-- Once a `Read` has begun, the plan stays. -/
def NoReplan (s : TrackedReader α κ ε) : ReaderStep α ε → Prop
  | .register _ | .unregister _ => s.begun = []
  | _ => True

instance (s : TrackedReader α κ ε) (a : ReaderStep α ε) : Decidable (NoReplan s a) :=
  match a with
  | .register _ | .unregister _ => inferInstanceAs (Decidable (s.begun = []))
  | .plan _ _ _ | .call _ _ => inferInstanceAs (Decidable True)

/-! ### What is promised -/

/-- The `Read` `t` waits for the flight `f`. It can only be woken or cancelled; the flight is led by
another `Read` that has not completed, or its outcome is there for `t` to return. -/
structure WaitsFor (s : TrackedReader α κ ε) (t f : ℕ) (call : ReadCall α κ ε) : Prop where
  call_eq : s.shared.calls t = some call
  phase : call.phase = .wait f
  only : ∀ a s', s.shared.stepCall t call a = some s' → a = .wake ∨ a = .cancel
  completes : (s.shared.outcomes f = none ∧
      ∃ u leader, s.shared.calls u = some leader ∧ leader.phase.lead? = some f) ∨
    ∃ outcome i, s.shared.outcomes f = some outcome ∧ s.answers f = some outcome ∧
      call.needed.head? = some i ∧
      s.shared.stepCall t call .wake = some (s.shared.setCall t (call.receive i outcome))

/-- The `Read` has been given the outcome: it has the data for the window of the flight, or it has
failed. -/
def HasReturned (s : TrackedReader α κ ε) (t f : ℕ) : Except ε (WindowData α κ) → Prop
  | .ok data => ∃ call, s.shared.calls t = some call ∧
      call.windowValues (s.shared.flightKeys f).2 = some data
  | .error _ => ∃ call, s.shared.calls t = some call ∧ call.phase = .failed

/-- What the sharing of reads in flight promises. -/
structure SharesSoundly (s : TrackedReader α κ ε) : Prop where
  /-- There is at most one inner read of a window in progress. -/
  one : ∀ t call u call' f g, s.shared.calls t = some call → s.shared.calls u = some call' →
    call.phase = .reading f → call'.phase = .reading g →
    call.needed.head? = call'.needed.head? → t = u
  /-- Who finds an entry waits for its inner read, is cancelled or returns its outcome. -/
  found : ∀ t f, (t, f) ∈ s.found → (∃ call, WaitsFor s t f call) ∨ (t, f) ∈ s.cancelled ∨
    ∃ outcome, (t, f, outcome) ∈ s.returned ∧ s.answers f = some outcome ∧
      HasReturned s t f outcome
  /-- The data of a window is the answer of an inner read whose entry was there during the `Read`,
  and had not been taken out before it began. -/
  data : ∀ t call, s.shared.calls t = some call → ∀ i data, call.windowValues i = some data →
    ∃ f, s.source t i = some f ∧ s.answers f = some (.ok data) ∧ f ∈ s.present t ∧
      f ∉ s.before t

/-! ### The reader -/

/-- What holds of a reader without a cache whose plan does not change while calls are under way. -/
structure SharingInv (s : SharedReader α κ ε) : Prop where
  base : SharedInv s
  flights : FlightInv s
  entries : EntryInv s
  off : s.reader.config.cacheTTL ≤ 0
  gen : ∀ t call, s.calls t = some call → call.gen = s.reader.gen
  fresh : ∀ t call, s.calls t = some call →
    call.needed.Nodup ∧ ∀ i ∈ call.needed, call.windowValues i = none

variable {s s' : SharedReader α κ ε} {t : ℕ} {call call' : ReadCall α κ ε} {a : CallStep α ε}

theorem SharedReader.eq_of_setCall (h : (s.setCall t call).calls t = some call') :
    call = call' := by
  have hself : (s.setCall t call).calls t = some call := Function.update_self _ _ _
  exact Option.some.inj (hself.symm.trans h)

theorem cached_eq_none (h : s.reader.config.cacheTTL ≤ 0) (fresh : Bool) (i : ℕ) :
    s.cached fresh i = none := by
  rw [SharedReader.cached, if_neg fun h' => absurd h'.1 (not_lt.mpr h)]

theorem cachesCurrent_of_off (h : s.reader.config.cacheTTL ≤ 0) (b : ReaderStep α ε) :
    CachesCurrent s b := by
  unfold CachesCurrent
  split
  next fresh =>
    intro call _ i _ hsome
    rw [cached_eq_none h] at hsome
    cases hsome
  next => exact fun _ _ _ _ hpos => absurd hpos (not_lt.mpr h)
  next => trivial

/-- What a step without a cache does to the variables of the `Read`: it is done with a window, or
they stay. -/
structure CallFrame (s : SharedReader α κ ε) (t : ℕ) (call call' : ReadCall α κ ε)
    (s' : SharedReader α κ ε) : Prop where
  calls : s'.calls = Function.update s.calls t (some call')
  gen : call'.gen = call.gen
  reader_gen : s'.reader.gen = s.reader.gen
  config : s'.reader.config = s.reader.config
  keys : ∀ f < s.nextFlight, s'.flightKeys f = s.flightKeys f
  next : s.nextFlight ≤ s'.nextFlight
  values : (call'.needed = call.needed ∧ call'.windowValues = call.windowValues) ∨
    ∃ i rest data, call.needed = i :: rest ∧ call' = call.receive i (.ok data)

/-- Every step of a `Read` has such a frame. -/
theorem CallMove.exists_frame (hm : CallMove s t call a s')
    (hoff : s.reader.config.cacheTTL ≤ 0) : ∃ call', CallFrame s t call call' s' := by
  cases hm with
  | direct | miss | wait | endRead | close | cancel | extract =>
    exact ⟨_, rfl, rfl, rfl, rfl, fun _ _ => rfl, le_rfl, .inl ⟨rfl, rfl⟩⟩
  | hit hp hn hdata =>
    rw [cached_eq_none hoff] at hdata
    cases hdata
  | lead =>
    refine ⟨_, rfl, rfl, rfl, rfl, fun f hf => ?_, Nat.le_succ _, .inl ⟨rfl, rfl⟩⟩
    exact Function.update_of_ne hf.ne _ _
  | @store f i rest data =>
    have hsame : s.storeCache i data = s := if_neg (not_lt.mpr hoff)
    rw [hsame]
    exact ⟨_, rfl, rfl, rfl, rfl, fun _ _ => rfl, le_rfl, .inl ⟨rfl, rfl⟩⟩
  | @cleanup i rest f outcome hp hn | @wake i rest f outcome hp hn =>
    refine ⟨_, rfl, gen_receive _ _ _, rfl, rfl, fun _ _ => rfl, le_rfl, ?_⟩
    cases outcome with
    | error e => exact .inl ⟨rfl, rfl⟩
    | ok data => exact .inr ⟨i, rest, data, hn, rfl⟩

/-- Windows are read once: those that have data are not needed any more. -/
theorem CallFrame.fresh (hframe : CallFrame s t call call' s')
    (h : call.needed.Nodup ∧ ∀ i ∈ call.needed, call.windowValues i = none) :
    call'.needed.Nodup ∧ ∀ i ∈ call'.needed, call'.windowValues i = none := by
  rcases hframe.values with ⟨hneeded, hvalues⟩ | ⟨i, rest, data, hn, rfl⟩
  · rw [hneeded, hvalues]
    exact h
  · rw [hn, List.nodup_cons] at h
    change call.needed.tail.Nodup ∧ ∀ j ∈ call.needed.tail,
      Function.update call.windowValues i (some data) j = none
    rw [hn, List.tail_cons]
    refine ⟨h.1.2, fun j hj => ?_⟩
    have hne : j ≠ i := fun heq => h.1.1 (heq ▸ hj)
    rw [Function.update_of_ne hne]
    exact h.2 j (List.mem_cons_of_mem i hj)

namespace SharingInv

theorem callMove (h : SharingInv s) (ht : s.calls t = some call) (hm : CallMove s t call a s') :
    SharingInv s' := by
  obtain ⟨call', hframe⟩ := hm.exists_frame h.off
  refine ⟨h.base.callMove ht (cachesCurrent_of_off h.off _) hm, h.flights.callMove ht hm,
    h.entries.callMove h.flights ht hm, ?_, ?_, ?_⟩
  · rw [hframe.config]
    exact h.off
  · rw [hframe.calls, hframe.reader_gen]
    exact Table.forall_update_some h.gen (hframe.gen.trans (h.gen t call ht))
  · rw [hframe.calls]
    exact Table.forall_update_some h.fresh (hframe.fresh (h.fresh t call ht))

/-- The plan changes while there are no calls. -/
theorem replan (h : SharingInv s) (hnone : ∀ t, s.calls t = none)
    {r : ClusteringReader α κ (WindowData α κ)} (hgen : r.gen = s.reader.gen + 1)
    (hcache : ∀ i, r.cache i = none) (hconfig : r.config = s.reader.config) :
    SharingInv (s.setReader r) where
  base := h.base.setReader hgen hcache
  flights := ⟨h.flights.lead, h.flights.unique, h.flights.known⟩
  entries := ⟨h.entries.entry, h.entries.led⟩
  off := by
    change r.config.cacheTTL ≤ 0
    rw [hconfig]
    exact h.off
  gen t call ht := by cases (hnone t).symm.trans ht
  fresh := h.fresh

/-- Two inner reads of one window are the same. -/
theorem reading_unique (h : SharingInv s) {u f g : ℕ} (ht : s.calls t = some call)
    (hu : s.calls u = some call') (hf : call.phase = .reading f) (hg : call'.phase = .reading g)
    (hhead : call.needed.head? = call'.needed.head?) : t = u := by
  have hlead : call.phase.lead? = some f := by
    rw [hf]
    rfl
  have hlead' : call'.phase.lead? = some g := by
    rw [hg]
    rfl
  have hne := (h.base.calls t call ht).needs f (by rw [hf]; rfl)
  obtain ⟨i, rest, hn⟩ := List.exists_cons_of_ne_nil hne
  have hi : i ∈ call.needed.head? := by simp [hn]
  -- both have their entries under the same key
  have hentry := h.entries.entry t call ht f hlead i hi
  have hentry' := h.entries.entry u call' hu g hlead' i (hhead ▸ hi)
  rw [h.gen t call ht] at hentry
  rw [h.gen u call' hu, hentry] at hentry'
  obtain rfl := Option.some.inj hentry'
  exact h.flights.unique t call u call' ht hu f hlead hlead'

/-- A `Read` begins. -/
theorem start [LinearOrder κ] [Clusterable α κ] (h : SharingInv s) (ht : s.calls t = none)
    (points : List (DataPoint α)) (order : RangeOrder ℕ) :
    SharingInv (s.setCall t (planCall s.reader points order)) where
  base := h.base.setCall (h.base.planCall points order)
  flights := h.flights.start rfl
  entries := h.entries.start ht rfl
  off := h.off
  gen := Table.forall_update_some h.gen rfl
  fresh := by
    refine Table.forall_update_some h.fresh ⟨?_, fun _ _ => rfl⟩
    exact (order.perm _).nodup_iff.mpr (List.nodup_dedup _)

end SharingInv

/-! ### The record -/

/-- The `Read` `t` was given the outcome of the flight `f`: it has the data for the window of the
flight and does not need it any more, or it has failed. -/
def WasGiven (s : SharedReader α κ ε) (t f : ℕ) (outcome : Except ε (WindowData α κ)) : Prop :=
  f < s.nextFlight ∧ s.outcomes f = some outcome ∧ ∃ call, s.calls t = some call ∧
    (∀ data, outcome = .ok data → (s.flightKeys f).2 ∉ call.needed ∧
      call.windowValues (s.flightKeys f).2 = some data) ∧
    ∀ e, outcome = .error e → call.phase = .failed

/-- What the record says of a reader. -/
structure TrackInv (s : TrackedReader α κ ε) : Prop where
  sharing : SharingInv s.shared
  begun : s.begun = [] → ∀ t, s.shared.calls t = none
  removed : ∀ f ∈ s.removed, f < s.shared.nextFlight ∧ ∀ k, s.shared.flights k ≠ some f
  before : ∀ t, s.before t ⊆ s.removed
  present : ∀ t, UnderWay s.shared t → ∀ k f, s.shared.flights k = some f → f ∈ s.present t
  ended : ∀ t call, s.shared.calls t = some call → ∀ stage f outcome,
    call.phase = .ended stage f outcome → s.answers f = some outcome
  outcomes : ∀ f outcome, s.shared.outcomes f = some outcome → s.answers f = some outcome
  current : ∀ t call, s.shared.calls t = some call → ∀ f, call.phase.flight? = some f →
    f ∈ s.present t ∧ f ∉ s.before t
  data : ∀ t call, s.shared.calls t = some call → ∀ i data, call.windowValues i = some data →
    ∃ f, s.source t i = some f ∧ s.shared.outcomes f = some (.ok data) ∧ f ∈ s.present t ∧
      f ∉ s.before t
  found : ∀ t f, (t, f) ∈ s.found →
    (∃ call, s.shared.calls t = some call ∧ call.phase = .wait f) ∨ (t, f) ∈ s.cancelled ∨
      ∃ outcome, (t, f, outcome) ∈ s.returned
  returned : ∀ t f outcome, (t, f, outcome) ∈ s.returned → WasGiven s.shared t f outcome

section Record

variable {s : TrackedReader α κ ε} {r : SharedReader α κ ε}

/-- An entry of the table was there before, or is that of a new flight. -/
theorem CallMove.flights_cases {s : SharedReader α κ ε} (hm : CallMove s t call a r) {k : ℕ × ℕ}
    {f : ℕ} (hf : r.flights k = some f) : s.flights k = some f ∨ f = s.nextFlight := by
  cases hm with
  | lead =>
    rcases Table.update_some_eq_some.mp hf with ⟨-, rfl⟩ | ⟨-, hf⟩
    · exact .inr rfl
    · exact .inl hf
  | cleanup => exact .inl (Table.update_none_eq_some.mp hf).2
  | @store g i rest data => exact .inl ((congrFun (s.storeCache_frame i data).2.1 k).symm.trans hf)
  | direct | hit | miss | wait | endRead | close | wake | cancel | extract => exact .inl hf

/-- The step of a `Read` leaves the others. -/
theorem TrackInv.calls_of_ne (h : TrackInv s) (hm : CallMove s.shared t call a r) {u : ℕ}
    (hne : u ≠ t) : r.calls u = s.shared.calls u := by
  obtain ⟨call', hframe⟩ := hm.exists_frame h.sharing.off
  rw [hframe.calls, Function.update_of_ne hne]

/-- A flight whose entry has been taken out does not come back. -/
theorem TrackInv.removed_callMove (h : TrackInv s) (hm : CallMove s.shared t call a r) {f : ℕ}
    (hf : f ∈ (s.record t call a).removed) :
    f < r.nextFlight ∧ ∀ k, r.flights k ≠ some f := by
  obtain ⟨call', hframe⟩ := hm.exists_frame h.sharing.off
  rcases hf with hf | hf
  · obtain ⟨hlt, hnone⟩ := h.removed f hf
    refine ⟨hlt.trans_le hframe.next, fun k hk => ?_⟩
    rcases hm.flights_cases hk with hk | rfl
    · exact hnone k hk
    · exact hlt.ne rfl
  · cases hm with
    | @cleanup i rest g outcome hp hn =>
      have hentry : s.shared.flights (call.gen, i) = some f := by
        simpa [ReadCall.removed?, ReadCall.entry?, hn] using hf
      obtain ⟨hlt, hkey⟩ := h.sharing.base.tables.flights _ f hentry
      refine ⟨hlt, fun k hk => ?_⟩
      obtain ⟨hne, hk⟩ := Table.update_none_eq_some.mp hk
      exact hne ((h.sharing.base.tables.flights k f hk).2.symm.trans hkey)
    | direct | hit | miss | wait | lead | endRead | store | close | wake | cancel | extract =>
      cases hf

theorem ReadWindow.exists_ended (w : ReadWindow α κ) (f : ℕ) (answer : Except ε (List (Value α))) :
    ∃ stage, w.ended f answer = .ended stage f (w.outcome answer) := by
  rcases answer with e | _ | ⟨val, vals⟩
  · exact ⟨.close, rfl⟩
  · exact ⟨.close, rfl⟩
  · exact ⟨.store, rfl⟩

/-- A step records the answer of the flight that its `Read` is reading for, and no other. -/
theorem CallMove.answers_eq (hm : CallMove s.shared t call a r) {f : ℕ}
    (hf : call.phase ≠ .reading f) : (s.record t call a).answers f = s.answers f := by
  cases hm with
  | @endRead answer g i rest w hp hn hw =>
    have hne : f ≠ g := by
      rintro rfl
      exact hf hp
    simp [TrackedReader.record, ReadCall.answered?, hp, hn, hw, ReadPhase.flight?, hne]
  | direct | hit | miss | wait | lead | store | close | cleanup | wake | cancel | extract => rfl

theorem answers_endRead {f i : ℕ} {rest : List ℕ} {w : ReadWindow α κ}
    (answer : Except ε (List (Value α))) (hp : call.phase = .reading f)
    (hn : call.needed = i :: rest) (hw : call.windows[i]? = some w) :
    (s.record t call (.endRead answer)).answers f = some (w.outcome answer) := by
  simp [TrackedReader.record, ReadCall.answered?, hp, hn, hw, ReadPhase.flight?]

/-- What a `Read` has from its inner read is what the inner read has answered. -/
theorem TrackInv.ended_callMove (h : TrackInv s) (ht : s.shared.calls t = some call)
    (hm : CallMove s.shared t call a r) : ∀ u call₁, r.calls u = some call₁ →
      ∀ stage f outcome, call₁.phase = .ended stage f outcome →
        (s.record t call a).answers f = some outcome := by
  intro u call₁ hu stage f outcome hphase
  by_cases hne : u = t
  · subst hne
    have hold := h.ended u call ht
    cases hm with
    | @endRead answer g i rest w hp hn hw =>
      obtain rfl := SharedReader.eq_of_setCall hu
      obtain ⟨stage', hended⟩ := w.exists_ended g answer
      obtain ⟨-, rfl, rfl⟩ := ReadPhase.ended.inj (hended.symm.trans hphase)
      exact answers_endRead answer hp hn hw
    | @store g i rest data hp hn =>
      obtain rfl := SharedReader.eq_of_setCall hu
      obtain ⟨-, rfl, rfl⟩ := ReadPhase.ended.inj hphase
      exact hold _ _ _ hp
    | @close g outcome' hp =>
      obtain rfl := SharedReader.eq_of_setCall hu
      obtain ⟨-, rfl, rfl⟩ := ReadPhase.ended.inj hphase
      exact hold _ _ _ hp
    | @direct ok =>
      obtain rfl := SharedReader.eq_of_setCall hu
      cases ok <;> cases hphase
    | @cleanup i rest g outcome' | @wake i rest g outcome' =>
      obtain rfl := SharedReader.eq_of_setCall hu
      cases outcome' <;> cases hphase
    | hit | miss | wait | lead | cancel | extract =>
      obtain rfl := SharedReader.eq_of_setCall hu
      cases hphase
  · rw [h.calls_of_ne hm hne] at hu
    rw [hm.answers_eq, h.ended u call₁ hu stage f outcome hphase]
    -- the flight is led by another `Read`
    intro hp
    refine hne (h.sharing.flights.unique u call₁ t call hu ht f ?_ ?_)
    · rw [hphase]
      rfl
    · rw [hp]
      rfl

theorem TrackInv.outcomes_callMove (h : TrackInv s) (ht : s.shared.calls t = some call)
    (hm : CallMove s.shared t call a r) {f : ℕ} {outcome : Except ε (WindowData α κ)}
    (ho : r.outcomes f = some outcome) : (s.record t call a).answers f = some outcome := by
  have hkeep (ho : s.shared.outcomes f = some outcome) :
      (s.record t call a).answers f = some outcome := by
    rw [hm.answers_eq, h.outcomes f outcome ho]
    intro hp
    have hnone := (h.sharing.flights.lead t call ht f (by rw [hp]; rfl)).2
    rw [hp] at hnone
    cases ho.symm.trans hnone
  cases hm with
  | @close g outcome' hp =>
    rcases Table.update_some_eq_some.mp ho with ⟨rfl, rfl⟩ | ⟨-, ho⟩
    · exact h.ended t call ht _ _ _ hp
    · exact hkeep ho
  | @store g i rest data =>
    exact hkeep ((congrFun (s.shared.storeCache_frame i data).2.2.2 f).symm.trans ho)
  | direct | hit | miss | wait | lead | endRead | cleanup | wake | cancel | extract =>
    exact hkeep ho

/-- A flight in the table was not taken out before the `Read` began. -/
theorem TrackInv.not_mem_before (h : TrackInv s) {k : ℕ × ℕ} {f : ℕ}
    (hf : s.shared.flights k = some f) (u : ℕ) : f ∉ s.before u :=
  fun hb => (h.removed f (h.before u hb)).2 k hf

/-- The flight of a `Read` was in the table during it, and not taken out before. -/
theorem TrackInv.current_callMove (h : TrackInv s) (ht : s.shared.calls t = some call)
    (hm : CallMove s.shared t call a r) : ∀ u call₁, r.calls u = some call₁ →
      ∀ f, call₁.phase.flight? = some f →
        f ∈ ((s.record t call a).observe r).present u ∧ f ∉ s.before u := by
  intro u call₁ hu f hf
  by_cases hne : u = t
  · subst hne
    have hold (hf : call.phase.flight? = some f) :
        f ∈ ((s.record u call a).observe r).present u ∧ f ∉ s.before u :=
      (h.current u call ht f hf).imp_left .inl
    cases hm with
    | @wait i rest g hp hn hentry =>
      obtain rfl := SharedReader.eq_of_setCall hu
      cases hf
      have hunder : UnderWay s.shared u := ⟨call, ht, by rw [hp]; nofun, by rw [hp]; nofun⟩
      exact ⟨.inl (h.present u hunder _ _ hentry), h.not_mem_before hentry u⟩
    | @lead i rest hp hn hnone =>
      have hunder : UnderWay ((s.shared.openFlight (call.gen, i)).setCall u
          { call with phase := .reading s.shared.nextFlight }) u :=
        ⟨_, Function.update_self _ _ _, nofun, nofun⟩
      obtain rfl := SharedReader.eq_of_setCall hu
      cases hf
      refine ⟨.inr ⟨hunder, _, Function.update_self _ _ _⟩, fun hb => ?_⟩
      exact (h.removed _ (h.before u hb)).1.ne rfl
    | @endRead answer g i rest w hp =>
      obtain rfl := SharedReader.eq_of_setCall hu
      rw [flight?_ended] at hf
      exact hold (by rw [hp]; exact hf)
    | store hp | close hp =>
      obtain rfl := SharedReader.eq_of_setCall hu
      exact hold (by rw [hp]; exact hf)
    | @direct ok =>
      obtain rfl := SharedReader.eq_of_setCall hu
      cases ok <;> cases hf
    | @cleanup i rest g outcome' | @wake i rest g outcome' =>
      obtain rfl := SharedReader.eq_of_setCall hu
      cases outcome' <;> cases hf
    | hit | miss | cancel | extract =>
      obtain rfl := SharedReader.eq_of_setCall hu
      cases hf
  · rw [h.calls_of_ne hm hne] at hu
    exact (h.current u call₁ hu f hf).imp_left .inl

/-- What a `Read` is done with is its current window, and the data is that of its flight. -/
theorem ReadCall.taken?_eq_some {i f : ℕ} (h : call.taken? a = some (i, f)) :
    i ∈ call.needed ∧ call.phase.flight? = some f := by
  cases a with
  | wake | cleanup =>
    obtain ⟨j, hj, h⟩ := Option.bind_eq_some_iff.mp h
    obtain ⟨g, hg, h⟩ := Option.bind_eq_some_iff.mp h
    cases h
    exact ⟨List.mem_of_mem_head? hj, hg⟩
  | direct | lookup | join | endRead | store | close | cancel | extract => cases h

theorem source_record_self {i f : ℕ} (h : call.taken? a = some (i, f)) :
    (s.record t call a).source t i = some f := by
  simp [TrackedReader.record, h]

/-- The sources of other calls stay, and those of the windows that are not needed any more. -/
theorem source_record_eq {u i : ℕ} (h : u = t → i ∉ call.needed) :
    (s.record t call a).source u i = s.source u i := by
  simp only [TrackedReader.record]
  cases htaken : call.taken? a with
  | none => rfl
  | some taken =>
    refine if_neg ?_
    rintro ⟨hu, rfl⟩
    exact h hu (ReadCall.taken?_eq_some htaken).1

section
variable (h : TrackInv s) (ht : s.shared.calls t = some call) (hm : CallMove s.shared t call a r)
include h ht hm

/-- The data that a `Read` has keeps its source. -/
theorem TrackInv.data_keep {u i : ℕ} {call₁ : ReadCall α κ ε} {data : WindowData α κ}
    (hu : s.shared.calls u = some call₁) (hdata : call₁.windowValues i = some data) :
    ∃ f, (s.record t call a).source u i = some f ∧ r.outcomes f = some (.ok data) ∧
      f ∈ ((s.record t call a).observe r).present u ∧ f ∉ s.before u := by
  obtain ⟨f, hsource, ho, hpresent, hbefore⟩ := h.data u call₁ hu i data hdata
  refine ⟨f, ?_, h.sharing.flights.outcome_final ht hm ho, .inl hpresent, hbefore⟩
  rw [source_record_eq, hsource]
  rintro rfl hneeded
  obtain rfl := Option.some.inj (ht.symm.trans hu)
  cases ((h.sharing.fresh u call ht).2 i hneeded).symm.trans hdata

/-- The current window gets its data from the flight of the `Read`. -/
theorem TrackInv.data_receive {j f : ℕ} {outcome : Except ε (WindowData α κ)}
    (htaken : call.taken? a = some (j, f)) (ho : s.shared.outcomes f = some outcome) {i : ℕ}
    {data : WindowData α κ} (hdata : (call.receive j outcome).windowValues i = some data) :
    ∃ f, (s.record t call a).source t i = some f ∧ r.outcomes f = some (.ok data) ∧
      f ∈ ((s.record t call a).observe r).present t ∧ f ∉ s.before t := by
  cases outcome with
  | error e => exact h.data_keep ht hm ht hdata
  | ok data' =>
    rcases Table.update_some_eq_some.mp hdata with ⟨rfl, rfl⟩ | ⟨-, hdata⟩
    · obtain ⟨hpresent, hbefore⟩ := h.current t call ht f (ReadCall.taken?_eq_some htaken).2
      exact ⟨f, source_record_self htaken, h.sharing.flights.outcome_final ht hm ho,
        .inl hpresent, hbefore⟩
    · exact h.data_keep ht hm ht hdata

theorem TrackInv.data_callMove : ∀ u call₁, r.calls u = some call₁ →
      ∀ i data, call₁.windowValues i = some data →
        ∃ f, (s.record t call a).source u i = some f ∧ r.outcomes f = some (.ok data) ∧
          f ∈ ((s.record t call a).observe r).present u ∧ f ∉ s.before u := by
  intro u call₁ hu i data hdata
  by_cases hne : u = t
  · subst hne
    have hmove := hm
    cases hm with
    | @cleanup j rest f outcome hp hn =>
      obtain rfl := SharedReader.eq_of_setCall hu
      have hann := (h.sharing.flights.lead u call ht f (by rw [hp]; rfl)).2
      rw [hp] at hann
      exact h.data_receive ht hmove (by simp [ReadCall.taken?, hn, hp, ReadPhase.flight?]) hann
        hdata
    | @wake j rest f outcome hp hn ho =>
      obtain rfl := SharedReader.eq_of_setCall hu
      exact h.data_receive ht hmove (by simp [ReadCall.taken?, hn, hp, ReadPhase.flight?]) ho hdata
    | hit hp hn hcached =>
      rw [cached_eq_none h.sharing.off] at hcached
      cases hcached
    | direct | miss | wait | lead | endRead | store | close | cancel | extract =>
      obtain rfl := SharedReader.eq_of_setCall hu
      exact h.data_keep ht hmove ht hdata
  · rw [h.calls_of_ne hm hne] at hu
    exact h.data_keep ht hm hu hdata

/-- Who has found an entry waits for it until it is woken or cancelled. -/
theorem TrackInv.found_callMove {u f : ℕ} (hmem : (u, f) ∈ (s.record t call a).found) :
    (∃ call, r.calls u = some call ∧ call.phase = .wait f) ∨
      (u, f) ∈ (s.record t call a).cancelled ∨
        ∃ outcome, (u, f, outcome) ∈ (s.record t call a).returned := by
  rcases List.mem_append.mp hmem with hold | hnew
  · rcases h.found u f hold with ⟨call₁, hu, hphase⟩ | hcancelled | ⟨outcome, hreturned⟩
    · by_cases hne : u = t
      · subst hne
        obtain rfl := Option.some.inj (ht.symm.trans hu)
        -- a waiting `Read` is woken or cancelled
        cases hm with
        | @wake j rest g outcome hp hn ho =>
          obtain rfl := ReadPhase.wait.inj (hphase.symm.trans hp)
          refine .inr (.inr ⟨outcome, List.mem_append_right _ ?_⟩)
          simp [ReadCall.returned?, hp, ho, ReadPhase.flight?]
        | @cancel g hp =>
          obtain rfl := ReadPhase.wait.inj (hphase.symm.trans hp)
          refine .inr (.inl (List.mem_append_right _ ?_))
          simp [ReadCall.cancelled?, hp, ReadPhase.flight?]
        | direct hp | hit hp | miss hp | wait hp | lead hp | endRead hp | store hp | close hp
        | cleanup hp | extract hp => cases hphase.symm.trans hp
      · refine .inl ⟨call₁, ?_, hphase⟩
        rw [h.calls_of_ne hm hne, hu]
    · exact .inr (.inl (List.mem_append_left _ hcancelled))
    · exact .inr (.inr ⟨outcome, List.mem_append_left _ hreturned⟩)
  · cases hm with
    | @wait i rest g hp hn hentry =>
      have hself : (u, f) = (t, g) := by
        simpa [ReadCall.found?, ReadCall.entry?, hn, hentry] using hnew
      obtain ⟨rfl, rfl⟩ := Prod.mk.inj hself
      exact .inl ⟨_, Function.update_self _ _ _, rfl⟩
    | @lead i rest hp hn hentry =>
      simp [ReadCall.found?, ReadCall.entry?, hn, hentry] at hnew
    | direct | hit | miss | endRead | store | close | cleanup | wake | cancel | extract =>
      cases hnew

/-- What a `Read` was given stays with it. -/
theorem TrackInv.returned_keep {u f : ℕ} {outcome : Except ε (WindowData α κ)}
    (hmem : (u, f, outcome) ∈ s.returned) : WasGiven r u f outcome := by
  obtain ⟨call', hframe⟩ := hm.exists_frame h.sharing.off
  obtain ⟨hlt, ho, call₁, hu, hok, herror⟩ := h.returned u f outcome hmem
  refine ⟨hlt.trans_le hframe.next, h.sharing.flights.outcome_final ht hm ho, ?_⟩
  rw [hframe.calls, hframe.keys f hlt]
  by_cases hne : u = t
  · subst hne
    obtain rfl := Option.some.inj (ht.symm.trans hu)
    refine ⟨call', Function.update_self _ _ _, fun data hdata => ?_, fun e he => ?_⟩
    · obtain ⟨hneeded, hvalue⟩ := hok data hdata
      rcases hframe.values with ⟨hn, hv⟩ | ⟨i, rest, data', hn, rfl⟩
      · rw [hn, hv]
        exact ⟨hneeded, hvalue⟩
      · have hi : (s.shared.flightKeys f).2 ≠ i := by
          rintro heq
          exact hneeded (by rw [hn, heq]; exact List.mem_cons_self)
        exact ⟨fun hmem => hneeded (List.mem_of_mem_tail hmem),
          (Function.update_of_ne hi _ _).trans hvalue⟩
    · -- a `Read` that has failed does not go on
      have hfailed := herror e he
      cases hm with
      | direct hp | hit hp | miss hp | wait hp | lead hp | endRead hp | store hp | close hp
      | cleanup hp | wake hp | cancel hp | extract hp => cases hfailed.symm.trans hp
  · exact ⟨call₁, (Function.update_of_ne hne _ _).trans hu, hok, herror⟩

theorem TrackInv.returned_callMove {u f : ℕ} {outcome : Except ε (WindowData α κ)}
    (hmem : (u, f, outcome) ∈ (s.record t call a).returned) : WasGiven r u f outcome := by
  rcases List.mem_append.mp hmem with hold | hnew
  · exact h.returned_keep ht hm hold
  · cases hm with
    | @wake i rest g outcome' hp hn ho =>
      have hself : (u, f, outcome) = (t, g, outcome') := by
        simpa [ReadCall.returned?, hp, ho, ReadPhase.flight?] using hnew
      cases hself
      obtain ⟨hlt, hkey⟩ := (h.sharing.base.calls t call ht).flight_current
        (f := f) (by rw [hp]; rfl) hn
      refine ⟨hlt, ho, _, Function.update_self _ _ _, ?_, ?_⟩
      · rintro data rfl
        change (s.shared.flightKeys f).2 ∉ call.needed.tail ∧
          Function.update call.windowValues i (some data) (s.shared.flightKeys f).2 = some data
        have hnodup := (h.sharing.fresh t call ht).1
        rw [hn, List.nodup_cons] at hnodup
        rw [hkey, hn]
        exact ⟨hnodup.1, Function.update_self _ _ _⟩
      · rintro e rfl
        rfl
    | direct | hit | miss | wait | lead | endRead | store | close | cleanup | cancel | extract =>
      cases hnew

/-- The step of a `Read` keeps the invariant. -/
theorem TrackInv.callMove : TrackInv ((s.record t call a).observe r) where
  sharing := h.sharing.callMove ht hm
  begun hnone := by cases (h.begun hnone t).symm.trans ht
  removed _ hf := h.removed_callMove hm hf
  before u _ hf := .inl (h.before u hf)
  present _ hunder k _ hf := .inr ⟨hunder, k, hf⟩
  ended := h.ended_callMove ht hm
  outcomes _ _ ho := h.outcomes_callMove ht hm ho
  current := h.current_callMove ht hm
  data := h.data_callMove ht hm
  found _ _ hmem := h.found_callMove ht hm hmem
  returned _ _ _ hmem := h.returned_callMove ht hm hmem

end

/-- The plan changes while there are no calls. -/
theorem TrackInv.replan (h : TrackInv s) (hnone : s.begun = [])
    {reader : ClusteringReader α κ (WindowData α κ)}
    (hgen : reader.gen = s.shared.reader.gen + 1) (hcache : ∀ i, reader.cache i = none)
    (hconfig : reader.config = s.shared.reader.config) :
    TrackInv (s.observe (s.shared.setReader reader)) where
  sharing := h.sharing.replan (h.begun hnone) hgen hcache hconfig
  begun := h.begun
  removed := h.removed
  before := h.before
  present _ hunder k _ hf := .inr ⟨hunder, k, hf⟩
  ended := h.ended
  outcomes := h.outcomes
  current t call ht := by cases (h.begun hnone t).symm.trans ht
  data t call ht := by cases (h.begun hnone t).symm.trans ht
  found := h.found
  returned := h.returned

variable [LinearOrder κ] [Clusterable α κ]

/-- A `Read` begins. -/
theorem TrackInv.start (h : TrackInv s) (ht : s.shared.calls t = none)
    (points : List (DataPoint α)) (order : RangeOrder ℕ) :
    TrackInv ((s.begin t).observe
      (s.shared.setCall t (planCall s.shared.reader points order))) := by
  have hother : ∀ u call, s.shared.calls u = some call → u ≠ t := by
    rintro u call hu rfl
    cases ht.symm.trans hu
  have hkeep : ∀ u call, s.shared.calls u = some call →
      (s.shared.setCall t (planCall s.shared.reader points order)).calls u = some call :=
    fun u call hu => (Function.update_of_ne (hother u call hu) _ _).trans hu
  have hbefore : ∀ u call, s.shared.calls u = some call → (s.begin t).before u = s.before u :=
    fun u call hu => Function.update_of_ne (hother u call hu) _ _
  refine ⟨h.sharing.start ht points order, fun hnone => ?_, h.removed, fun u f hf => ?_,
    fun u hunder k f hf => .inr ⟨hunder, k, hf⟩, ?_, h.outcomes, ?_, ?_, ?_, ?_⟩
  · simp [TrackedReader.observe, TrackedReader.begin] at hnone
  · rcases eq_or_ne u t with rfl | hne
    · have hself : (s.begin u).before u = s.removed := Function.update_self _ _ _
      exact hself ▸ hf
    · have hold : (s.begin t).before u = s.before u := Function.update_of_ne hne _ _
      exact h.before u (hold ▸ hf)
  · refine Table.forall_update_some h.ended fun stage f outcome hphase => ?_
    cases hphase
  · intro u call hu f hf
    rcases Table.update_some_eq_some.mp hu with ⟨rfl, rfl⟩ | ⟨-, hu⟩
    · cases hf
    · obtain ⟨hpresent, hnot⟩ := h.current u call hu f hf
      exact ⟨.inl hpresent, fun hb => hnot (hbefore u call hu ▸ hb)⟩
  · intro u call hu i data hdata
    rcases Table.update_some_eq_some.mp hu with ⟨rfl, rfl⟩ | ⟨-, hu⟩
    · cases hdata
    · obtain ⟨f, hsource, ho, hpresent, hnot⟩ := h.data u call hu i data hdata
      exact ⟨f, hsource, ho, .inl hpresent, fun hb => hnot (hbefore u call hu ▸ hb)⟩
  · intro u f hmem
    refine (h.found u f hmem).imp_left ?_
    rintro ⟨call, hu, hphase⟩
    exact ⟨call, hkeep u call hu, hphase⟩
  · intro u f outcome hmem
    obtain ⟨hlt, ho, call, hu, hgiven⟩ := h.returned u f outcome hmem
    exact ⟨hlt, ho, call, hkeep u call hu, hgiven⟩

variable {sort : KeySort (sortKey (α := α))}

theorem TrackInv.step {s' : TrackedReader α κ ε} {b : ReaderStep α ε} (h : TrackInv s)
    (hg : NoReplan s b) (hs : s.step sort b = some s') : TrackInv s' := by
  cases b with
  | register points | unregister points =>
    cases hs
    exact h.replan hg rfl (fun _ => rfl) rfl
  | plan t points order =>
    obtain ⟨r, hr, rfl⟩ := Option.map_eq_some_iff.mp hs
    cases ReaderMove.of_step hr with
    | plan points order ht => exact h.start ht points order
  | call t a =>
    obtain ⟨call, ht, hs⟩ := Option.bind_eq_some_iff.mp hs
    obtain ⟨r, hr, rfl⟩ := Option.map_eq_some_iff.mp hs
    exact h.callMove ht (.of_stepCall hr)

theorem TrackInv.init {config : ClusterConfig} (hoff : config.cacheTTL ≤ 0) :
    TrackInv (trackedSystem (κ := κ) ε sort config).init := by
  have hsharing : SharingInv (sharedSystem (κ := κ) ε sort config).init :=
    ⟨.init config, .init config, .init config, hoff, by simp [sharedSystem],
      by simp [sharedSystem]⟩
  refine ⟨hsharing, fun _ _ => rfl, ?_, ?_, ?_, ?_, ?_, ?_, ?_, ?_, ?_⟩ <;>
    simp [trackedSystem, sharedSystem]

end Record

/-! ### Sharing is sound -/

section Sound

variable {s : TrackedReader α κ ε}

/-- A `Read` that waits can only be woken or cancelled. -/
theorem only_wake_or_cancel {s : SharedReader α κ ε} {f : ℕ} (hp : call.phase = .wait f)
    (hs : s.stepCall t call a = some s') : a = .wake ∨ a = .cancel := by
  cases CallMove.of_stepCall hs with
  | wake => exact .inl rfl
  | cancel => exact .inr rfl
  | direct hp' | hit hp' | miss hp' | wait hp' | lead hp' | endRead hp' | store hp' | close hp'
  | cleanup hp' | extract hp' => cases hp.symm.trans hp'

theorem TrackInv.waitsFor (h : TrackInv s) {f : ℕ} (ht : s.shared.calls t = some call)
    (hp : call.phase = .wait f) : WaitsFor s t f call := by
  refine ⟨ht, hp, fun a s' hs => only_wake_or_cancel hp hs, ?_⟩
  have hc := h.sharing.base.calls t call ht
  have hflight : call.phase.flight? = some f := by
    rw [hp]
    rfl
  obtain ⟨i, rest, hn⟩ := List.exists_cons_of_ne_nil (hc.needs f hflight)
  cases ho : s.shared.outcomes f with
  | none => exact .inl ⟨rfl, h.sharing.entries.led f (hc.flight f hflight).1 ho⟩
  | some outcome =>
    refine .inr ⟨outcome, i, rfl, h.outcomes f outcome ho, by simp [hn], ?_⟩
    simp [SharedReader.stepCall, hp, hn, ho]

theorem TrackInv.hasReturned (h : TrackInv s) {f : ℕ} {outcome : Except ε (WindowData α κ)}
    (hmem : (t, f, outcome) ∈ s.returned) : HasReturned s t f outcome := by
  obtain ⟨-, -, call, ht, hok, herror⟩ := h.returned t f outcome hmem
  cases outcome with
  | ok data => exact ⟨call, ht, (hok data rfl).2⟩
  | error e => exact ⟨call, ht, herror e rfl⟩

theorem TrackInv.sharesSoundly (h : TrackInv s) : SharesSoundly s where
  one _ _ _ _ _ _ ht hu hf hg hhead := h.sharing.reading_unique ht hu hf hg hhead
  found t f hmem := by
    rcases h.found t f hmem with ⟨call, ht, hp⟩ | hcancelled | ⟨outcome, hreturned⟩
    · exact .inl ⟨call, h.waitsFor ht hp⟩
    · exact .inr (.inl hcancelled)
    · have ho := (h.returned t f outcome hreturned).2.1
      exact .inr (.inr ⟨outcome, hreturned, h.outcomes f outcome ho, h.hasReturned hreturned⟩)
  data t call ht i data hdata := by
    obtain ⟨f, hsource, ho, hpresent, hbefore⟩ := h.data t call ht i data hdata
    exact ⟨f, hsource, h.outcomes f _ ho, hpresent, hbefore⟩

variable [LinearOrder κ] [Clusterable α κ]

/-- In every interleaving of `Read`s without a cache and without replanning, reads in flight are
shared soundly. -/
theorem shares_soundly (sort : KeySort (sortKey (α := α))) (config : ClusterConfig)
    (hoff : config.cacheTTL ≤ 0) (h : (trackedSystem ε sort config).Reachable NoReplan s) :
    SharesSoundly s :=
  (h.invariant (TrackInv.init hoff) fun _ _ _ hi hg hs => hi.step hg hs).sharesSoundly

end Sound

/-- Two reads of one register: the second finds the flight of the first and is given its outcome.
A third one that asks when the entry has been taken out opens a flight of its own. -/
theorem shares_soundly_three_reads :
    ∃ s : TrackedReader Modbus.Point Modbus.Area Empty,
      (trackedSystem Empty (.insertion sortKey) defaultClusterConfig).Reachable NoReplan s ∧
      s.found = [(2, 0)] ∧ s.returned.map (fun x => (x.1, x.2.1)) = [(2, 0)] ∧
      s.source 2 0 = some 0 ∧ s.shared.flights (1, 0) = some 1 ∧ SharesSoundly s := by
  let p : DataPoint Modbus.Point := .clusterable (.holdingRegister 0 1)
  let ask (t : ℕ) : List (ReaderStep Modbus.Point Empty) :=
    [.plan t [p] .asGiven, .call t (.direct true), .call t (.lookup false), .call t .join]
  let serve : List (ReaderStep Modbus.Point Empty) :=
    [.call 1 (.endRead (.ok [default])), .call 1 .store, .call 1 .close, .call 2 .wake,
      .call 1 .cleanup]
  obtain ⟨s, hs, hseen⟩ := TransitionSystem.exists_reachable_of_exec
    (M := trackedSystem Empty (.insertion sortKey) defaultClusterConfig) (G := NoReplan)
    (f := fun s => (s.found, s.returned.map (fun x => (x.1, x.2.1)), s.source 2 0,
      s.shared.flights (1, 0)))
    (b := ([(2, 0)], [(2, 0)], some 0, some 1))
    (.register [p] :: ask 1 ++ ask 2 ++ serve ++ ask 3) (by decide +kernel)
  obtain ⟨hfound, hreturned, hsource, hflight⟩ : s.found = [(2, 0)] ∧
    s.returned.map (fun x => (x.1, x.2.1)) = [(2, 0)] ∧ s.source 2 0 = some 0 ∧
      s.shared.flights (1, 0) = some 1 := by simpa using hseen
  exact ⟨s, hs, hfound, hreturned, hsource, hflight,
    shares_soundly (.insertion sortKey) defaultClusterConfig (by decide) hs⟩

end GoIndustrial.Monitor
