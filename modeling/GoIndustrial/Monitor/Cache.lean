import GoIndustrial.Lib.TransitionSystem
import GoIndustrial.Modbus.DataPoint
import GoIndustrial.Monitor.Read

/-!
# Windows shared between concurrent reads

Any number of goroutines call `Read` of one `ClusteringReader` while others call `Register` and
`Unregister`. A `Read` takes the windows and the generation of the plan in force when it starts and
keeps them. Two tables are shared: the cache, by the index of a window, and the reads in flight, by
the generation and the index. Replanning renumbers the windows and empties the cache, but a `Read`
that is still under way stores what it reads under the index that its own plan gave to the window.

Window data carries the range it was read for. In flight, the generation in the key keeps plans
apart. In the cache nothing does, so that the data of a window is that of the window it is used for
only if the plan of the `Read` and the plan in force agree on the window whenever the cache is used.

## Main definitions

* `Monitor.WindowRange`, `Monitor.WindowData`, `Monitor.ReadCall`, `Monitor.SharedReader`.
* `Monitor.sharedSystem` : the interleavings of the calls.
* `Monitor.Coherent` : what a `Read` extracts from was read for the window it extracts with.
* `Monitor.CachesCurrent` : the windows taken from and put into the cache are those of the plan in
  force.

## Main results

* `Monitor.SharedInv.step` : the invariant of a shared reader.
* `Monitor.coherent_of_cachesCurrent`.
-/

namespace GoIndustrial.Monitor

open Plc Clusterable

/-- What identifies a window: its area, its start and its count. -/
structure WindowRange (κ : Type) where
  key : κ
  start : UInt16
  count : UInt16
  deriving DecidableEq

/-- A value together with the window it was read for. -/
structure WindowData (α κ : Type) where
  range : WindowRange κ
  val : Value α

/-- What is left to do after the inner read of a window. -/
inductive Stage
  | store
  | close
  | cleanup

/-- Where a `Read` stands. -/
inductive ReadPhase (α κ ε : Type)
  /-- Reading the points that no window covers. -/
  | direct
  /-- Before the cache lookup of the next window, if there is one. -/
  | lookup
  /-- The cache has no fresh data. -/
  | join
  /-- Waiting for the read of another goroutine. -/
  | wait (f : ℕ)
  /-- In the inner read. -/
  | reading (f : ℕ)
  | ended (stage : Stage) (f : ℕ) (outcome : Except ε (WindowData α κ))
  | failed
  /-- The points have been extracted. -/
  | done

def ReadPhase.isDone {α κ ε : Type} : ReadPhase α κ ε → Bool
  | .done => true
  | _ => false

theorem ReadPhase.isDone_iff {α κ ε : Type} {phase : ReadPhase α κ ε} :
    phase.isDone = true ↔ phase = .done := by
  cases phase <;> simp [isDone]

/-- The variables of a `Read`. -/
structure ReadCall (α κ ε : Type) where
  windows : List (ReadWindow α κ)
  gen : ℕ
  /-- The points that windows serve: index in the results, window and point. -/
  clustered : List (ℕ × ℕ × α)
  /-- The windows still to be read, the current one first. -/
  needed : List ℕ
  windowValues : ℕ → Option (WindowData α κ)
  phase : ReadPhase α κ ε

/-- A `ClusteringReader` and the `Read` calls on it. -/
structure SharedReader (α κ ε : Type) where
  reader : ClusteringReader α κ (WindowData α κ)
  /-- The flight of a generation and a window. -/
  flights : ℕ × ℕ → Option ℕ
  nextFlight : ℕ
  /-- What a `flightEntry` holds once its `done` is closed. -/
  outcomes : ℕ → Option (Except ε (WindowData α κ))
  calls : ℕ → Option (ReadCall α κ ε)
  /-- The windows of each generation; not part of the program. -/
  plans : ℕ → List (ReadWindow α κ)
  /-- The key under which a flight was entered; not part of the program. -/
  flightKeys : ℕ → ℕ × ℕ

/-- The steps of a `Read` after its planning. -/
inductive CallStep (α ε : Type)
  | direct (ok : Bool)
  | lookup (fresh : Bool)
  | join
  | endRead (answer : Except ε (List (Value α)))
  | store
  | close
  | cleanup
  | wake
  /-- The context of a waiting `Read` is done. -/
  | cancel
  | extract

inductive ReaderStep (α ε : Type)
  | register (points : List (DataPoint α))
  | unregister (points : List (DataPoint α))
  | plan (t : ℕ) (points : List (DataPoint α)) (order : RangeOrder ℕ)
  | call (t : ℕ) (a : CallStep α ε)

variable {α κ ε : Type}

def ReadWindow.range (w : ReadWindow α κ) : WindowRange κ := ⟨w.key, w.start, w.count⟩

/-- How the inner read of a window ends; an answer without a value is not cached. -/
def ReadWindow.ended (w : ReadWindow α κ) (f : ℕ) :
    Except ε (List (Value α)) → ReadPhase α κ ε
  | .error e => .ended .close f (.error e)
  | .ok [] => .ended .close f (.ok ⟨w.range, default⟩)
  | .ok (val :: _) => .ended .store f (.ok ⟨w.range, val⟩)

/-- `readWindow` returns to the loop over the windows. -/
def ReadCall.receive (call : ReadCall α κ ε) (winIdx : ℕ) :
    Except ε (WindowData α κ) → ReadCall α κ ε
  | .error _ => { call with phase := .failed }
  | .ok data =>
    { call with
      needed := call.needed.tail
      windowValues := Function.update call.windowValues winIdx (some data)
      phase := .lookup }

namespace SharedReader

def setCall (s : SharedReader α κ ε) (t : ℕ) (call : ReadCall α κ ε) : SharedReader α κ ε :=
  { s with calls := Function.update s.calls t (some call) }

/-- The plan in force is replaced. -/
def setReader (s : SharedReader α κ ε) (r : ClusteringReader α κ (WindowData α κ)) :
    SharedReader α κ ε :=
  { s with reader := r, plans := Function.update s.plans r.gen r.windows }

/-- What the cache lookup of a window finds. -/
def cached (s : SharedReader α κ ε) (fresh : Bool) (winIdx : ℕ) : Option (WindowData α κ) :=
  if 0 < s.reader.config.cacheTTL ∧ fresh then s.reader.cache winIdx else none

def storeCache (s : SharedReader α κ ε) (winIdx : ℕ) (data : WindowData α κ) :
    SharedReader α κ ε :=
  if 0 < s.reader.config.cacheTTL then
    { s with
      reader := { s.reader with cache := Function.update s.reader.cache winIdx (some data) } }
  else s

def openFlight (s : SharedReader α κ ε) (key : ℕ × ℕ) : SharedReader α κ ε :=
  { s with
    flights := Function.update s.flights key (some s.nextFlight)
    nextFlight := s.nextFlight + 1
    flightKeys := Function.update s.flightKeys s.nextFlight key }

def closeFlight (s : SharedReader α κ ε) (f : ℕ) (outcome : Except ε (WindowData α κ)) :
    SharedReader α κ ε :=
  { s with outcomes := Function.update s.outcomes f (some outcome) }

def removeFlight (s : SharedReader α κ ε) (key : ℕ × ℕ) : SharedReader α κ ε :=
  { s with flights := Function.update s.flights key none }

/-- A step of the `Read` `t`, which stands at `call`. -/
def stepCall (s : SharedReader α κ ε) (t : ℕ) (call : ReadCall α κ ε) :
    CallStep α ε → Option (SharedReader α κ ε)
  | .direct ok =>
    match call.phase with
    | .direct => some (s.setCall t { call with phase := if ok then .lookup else .failed })
    | _ => none
  | .lookup fresh =>
    match call.phase, call.needed with
    | .lookup, winIdx :: _ =>
      match s.cached fresh winIdx with
      | some data => some (s.setCall t (call.receive winIdx (.ok data)))
      | none => some (s.setCall t { call with phase := .join })
    | _, _ => none
  | .join =>
    match call.phase, call.needed with
    | .join, winIdx :: _ =>
      match s.flights (call.gen, winIdx) with
      | some f => some (s.setCall t { call with phase := .wait f })
      | none =>
        some ((s.openFlight (call.gen, winIdx)).setCall t
          { call with phase := .reading s.nextFlight })
    | _, _ => none
  | .endRead answer =>
    match call.phase, call.needed with
    | .reading f, winIdx :: _ =>
      (call.windows[winIdx]?).map fun w => s.setCall t { call with phase := w.ended f answer }
    | _, _ => none
  | .store =>
    match call.phase, call.needed with
    | .ended .store f (.ok data), winIdx :: _ =>
      some ((s.storeCache winIdx data).setCall t
        { call with phase := .ended .close f (.ok data) })
    | _, _ => none
  | .close =>
    match call.phase with
    | .ended .close f outcome =>
      some ((s.closeFlight f outcome).setCall t { call with phase := .ended .cleanup f outcome })
    | _ => none
  | .cleanup =>
    match call.phase, call.needed with
    | .ended .cleanup _ outcome, winIdx :: _ =>
      some ((s.removeFlight (call.gen, winIdx)).setCall t (call.receive winIdx outcome))
    | _, _ => none
  | .wake =>
    match call.phase, call.needed with
    | .wait f, winIdx :: _ =>
      (s.outcomes f).map fun outcome => s.setCall t (call.receive winIdx outcome)
    | _, _ => none
  | .cancel =>
    match call.phase with
    | .wait _ => some (s.setCall t { call with phase := .failed })
    | _ => none
  | .extract =>
    match call.phase, call.needed with
    | .lookup, [] => some (s.setCall t { call with phase := .done })
    | _, _ => none

end SharedReader

section System

variable [LinearOrder κ] [Clusterable α κ]

/-- The planning of a `Read`. -/
def planCall (r : ClusteringReader α κ (WindowData α κ)) (points : List (DataPoint α))
    (order : RangeOrder ℕ) : ReadCall α κ ε :=
  let clustered :=
    if r.config.enabled then (pendingReads r.windows points).filterMap Pending.clustered? else []
  { windows := r.windows
    gen := r.gen
    clustered
    needed := order.run (clustered.map fun c => c.2.1).dedup
    windowValues := fun _ => none
    phase := .direct }

def SharedReader.step (sort : KeySort (sortKey (α := α))) (s : SharedReader α κ ε) :
    ReaderStep α ε → Option (SharedReader α κ ε)
  | .register points => some (s.setReader (s.reader.register sort points))
  | .unregister points => some (s.setReader (s.reader.unregister sort points))
  | .plan t points order =>
    match s.calls t with
    | some _ => none
    | none => some (s.setCall t (planCall s.reader points order))
  | .call t a => (s.calls t).bind fun call => s.stepCall t call a

/-- The interleavings of `Register`, `Unregister` and `Read` on a new reader. -/
def sharedSystem (ε : Type) (sort : KeySort (sortKey (α := α))) (config : ClusterConfig) :
    TransitionSystem (SharedReader α κ ε) (ReaderStep α ε) where
  init :=
    { reader := newClusteringReader config
      flights := fun _ => none
      nextFlight := 0
      outcomes := fun _ => none
      calls := fun _ => none
      plans := fun _ => []
      flightKeys := fun _ => (0, 0) }
  step := SharedReader.step sort

end System

/-- The window `winIdx` of a plan has the range `range`. -/
def HasRange (windows : List (ReadWindow α κ)) (winIdx : ℕ) (range : WindowRange κ) : Prop :=
  (windows[winIdx]?).map ReadWindow.range = some range

/-- Every `Read` that has extracted its points did so from data that was read for exactly the window
it extracts with. -/
def Coherent (s : SharedReader α κ ε) : Prop :=
  ∀ t call, s.calls t = some call → call.phase = .done → ∀ c ∈ call.clustered,
    ∃ data, call.windowValues c.2.1 = some data ∧ HasRange call.windows c.2.1 data.range

/-- The plan of a `Read` and the plan in force have the same window at an index. -/
def SameWindow (s : SharedReader α κ ε) (call : ReadCall α κ ε) (winIdx : ℕ) : Prop :=
  (s.reader.windows[winIdx]?).map ReadWindow.range = (call.windows[winIdx]?).map ReadWindow.range

/-- The step takes nothing from the cache and puts nothing into it, or the window is that of the
plan in force. -/
def CachesCurrent (s : SharedReader α κ ε) : ReaderStep α ε → Prop
  | .call t (.lookup fresh) =>
    ∀ call ∈ s.calls t, ∀ winIdx ∈ call.needed.head?,
      (s.cached fresh winIdx).isSome → SameWindow s call winIdx
  | .call t .store =>
    ∀ call ∈ s.calls t, ∀ winIdx ∈ call.needed.head?,
      0 < s.reader.config.cacheTTL → SameWindow s call winIdx
  | _ => True

instance [DecidableEq κ] (s : SharedReader α κ ε) (call : ReadCall α κ ε) (winIdx : ℕ) :
    Decidable (SameWindow s call winIdx) := inferInstanceAs (Decidable (_ = _))

instance [DecidableEq κ] (s : SharedReader α κ ε) (a : ReaderStep α ε) :
    Decidable (CachesCurrent s a) := by
  unfold CachesCurrent
  split <;> infer_instance

/-! ### What a step can do -/

/-- Everything that a step of the `Read` `t`, which stands at `call`, can do. -/
inductive CallMove (s : SharedReader α κ ε) (t : ℕ) (call : ReadCall α κ ε) :
    CallStep α ε → SharedReader α κ ε → Prop
  | direct {ok : Bool} (hp : call.phase = .direct) :
      CallMove s t call (.direct ok)
        (s.setCall t { call with phase := if ok then .lookup else .failed })
  | hit {fresh : Bool} {i : ℕ} {rest : List ℕ} {data : WindowData α κ} (hp : call.phase = .lookup)
      (hn : call.needed = i :: rest) (hdata : s.cached fresh i = some data) :
      CallMove s t call (.lookup fresh) (s.setCall t (call.receive i (.ok data)))
  | miss {fresh : Bool} {i : ℕ} {rest : List ℕ} (hp : call.phase = .lookup)
      (hn : call.needed = i :: rest) (hdata : s.cached fresh i = none) :
      CallMove s t call (.lookup fresh) (s.setCall t { call with phase := .join })
  | wait {i : ℕ} {rest : List ℕ} {f : ℕ} (hp : call.phase = .join) (hn : call.needed = i :: rest)
      (hf : s.flights (call.gen, i) = some f) :
      CallMove s t call .join (s.setCall t { call with phase := .wait f })
  | lead {i : ℕ} {rest : List ℕ} (hp : call.phase = .join) (hn : call.needed = i :: rest)
      (hf : s.flights (call.gen, i) = none) :
      CallMove s t call .join ((s.openFlight (call.gen, i)).setCall t
        { call with phase := .reading s.nextFlight })
  | endRead {answer : Except ε (List (Value α))} {f i : ℕ} {rest : List ℕ} {w : ReadWindow α κ}
      (hp : call.phase = .reading f) (hn : call.needed = i :: rest)
      (hw : call.windows[i]? = some w) :
      CallMove s t call (.endRead answer) (s.setCall t { call with phase := w.ended f answer })
  | store {f i : ℕ} {rest : List ℕ} {data : WindowData α κ}
      (hp : call.phase = .ended .store f (.ok data)) (hn : call.needed = i :: rest) :
      CallMove s t call .store ((s.storeCache i data).setCall t
        { call with phase := .ended .close f (.ok data) })
  | close {f : ℕ} {outcome : Except ε (WindowData α κ)}
      (hp : call.phase = .ended .close f outcome) :
      CallMove s t call .close ((s.closeFlight f outcome).setCall t
        { call with phase := .ended .cleanup f outcome })
  | cleanup {i : ℕ} {rest : List ℕ} {f : ℕ} {outcome : Except ε (WindowData α κ)}
      (hp : call.phase = .ended .cleanup f outcome) (hn : call.needed = i :: rest) :
      CallMove s t call .cleanup ((s.removeFlight (call.gen, i)).setCall t
        (call.receive i outcome))
  | wake {i : ℕ} {rest : List ℕ} {f : ℕ} {outcome : Except ε (WindowData α κ)}
      (hp : call.phase = .wait f) (hn : call.needed = i :: rest)
      (ho : s.outcomes f = some outcome) :
      CallMove s t call .wake (s.setCall t (call.receive i outcome))
  | cancel {f : ℕ} (hp : call.phase = .wait f) :
      CallMove s t call .cancel (s.setCall t { call with phase := .failed })
  | extract (hp : call.phase = .lookup) (hn : call.needed = []) :
      CallMove s t call .extract (s.setCall t { call with phase := .done })

theorem CallMove.of_stepCall {s s' : SharedReader α κ ε} {t : ℕ} {call : ReadCall α κ ε}
    {a : CallStep α ε} (hs : s.stepCall t call a = some s') : CallMove s t call a s' := by
  cases a with
  | direct ok =>
    simp only [SharedReader.stepCall] at hs
    split at hs <;> cases hs
    next hp => exact .direct hp
  | lookup fresh =>
    simp only [SharedReader.stepCall] at hs
    split at hs
    next i rest hp hn =>
      split at hs <;> cases hs
      next data hdata => exact .hit hp hn hdata
      next hdata => exact .miss hp hn hdata
    next => cases hs
  | join =>
    simp only [SharedReader.stepCall] at hs
    split at hs
    next i rest hp hn =>
      split at hs <;> cases hs
      next f hf => exact .wait hp hn hf
      next hf => exact .lead hp hn hf
    next => cases hs
  | endRead answer =>
    simp only [SharedReader.stepCall] at hs
    split at hs
    next f i rest hp hn =>
      obtain ⟨w, hw, rfl⟩ := Option.map_eq_some_iff.mp hs
      exact .endRead hp hn hw
    next => cases hs
  | store =>
    simp only [SharedReader.stepCall] at hs
    split at hs <;> cases hs
    next f data i rest hp hn => exact .store hp hn
  | close =>
    simp only [SharedReader.stepCall] at hs
    split at hs <;> cases hs
    next f outcome hp => exact .close hp
  | cleanup =>
    simp only [SharedReader.stepCall] at hs
    split at hs <;> cases hs
    next f outcome i rest hp hn => exact .cleanup hp hn
  | wake =>
    simp only [SharedReader.stepCall] at hs
    split at hs
    next f i rest hp hn =>
      obtain ⟨outcome, ho, rfl⟩ := Option.map_eq_some_iff.mp hs
      exact .wake hp hn ho
    next => cases hs
  | cancel =>
    simp only [SharedReader.stepCall] at hs
    split at hs <;> cases hs
    next f hp => exact .cancel hp
  | extract =>
    simp only [SharedReader.stepCall] at hs
    split at hs <;> cases hs
    next hp hn => exact .extract hp hn

/-- Everything that a step can do. -/
inductive ReaderMove [LinearOrder κ] [Clusterable α κ] (sort : KeySort (sortKey (α := α)))
    (s : SharedReader α κ ε) : ReaderStep α ε → SharedReader α κ ε → Prop
  | register (points : List (DataPoint α)) :
      ReaderMove sort s (.register points) (s.setReader (s.reader.register sort points))
  | unregister (points : List (DataPoint α)) :
      ReaderMove sort s (.unregister points) (s.setReader (s.reader.unregister sort points))
  | plan {t : ℕ} (points : List (DataPoint α)) (order : RangeOrder ℕ) (ht : s.calls t = none) :
      ReaderMove sort s (.plan t points order) (s.setCall t (planCall s.reader points order))
  | call {t : ℕ} {call : ReadCall α κ ε} {a : CallStep α ε} {s' : SharedReader α κ ε}
      (ht : s.calls t = some call) (hm : CallMove s t call a s') :
      ReaderMove sort s (.call t a) s'

theorem ReaderMove.of_step [LinearOrder κ] [Clusterable α κ] {sort : KeySort (sortKey (α := α))}
    {s s' : SharedReader α κ ε} {a : ReaderStep α ε} (hs : s.step sort a = some s') :
    ReaderMove sort s a s' := by
  cases a with
  | register points =>
    cases hs
    exact .register points
  | unregister points =>
    cases hs
    exact .unregister points
  | plan t points order =>
    simp only [SharedReader.step] at hs
    split at hs <;> cases hs
    next ht => exact .plan points order ht
  | call t a =>
    obtain ⟨call, ht, hcall⟩ := Option.bind_eq_some_iff.mp hs
    exact .call ht (.of_stepCall hcall)

/-! ### The invariant -/

namespace ReadPhase

/-- The flight that a `Read` owns or waits for. -/
def flight? : ReadPhase α κ ε → Option ℕ
  | .wait f | .reading f | .ended _ f _ => some f
  | _ => none

/-- The data that a `Read` has read itself and not yet returned. -/
def data? : ReadPhase α κ ε → Option (WindowData α κ)
  | .ended _ _ (.ok data) => some data
  | _ => none

end ReadPhase

/-- What holds of a `Read`: it keeps its plan, and its data is that of its windows. -/
structure CallInv (s : SharedReader α κ ε) (call : ReadCall α κ ε) : Prop where
  gen_le : call.gen ≤ s.reader.gen
  plan : s.plans call.gen = call.windows
  values : ∀ i data, call.windowValues i = some data → HasRange call.windows i data.range
  pending : ∀ c ∈ call.clustered, c.2.1 ∈ call.needed ∨ (call.windowValues c.2.1).isSome
  flight : ∀ f, call.phase.flight? = some f → f < s.nextFlight ∧
    ∀ i ∈ call.needed.head?, s.flightKeys f = (call.gen, i)
  data : ∀ d, call.phase.data? = some d → ∀ i ∈ call.needed.head?, HasRange call.windows i d.range
  needs : ∀ f, call.phase.flight? = some f → call.needed ≠ []
  done : call.phase = .done → call.needed = []

/-- What holds of the tables: the cache agrees with the plan in force, a flight with that of its
generation. -/
structure TableInv (s : SharedReader α κ ε) : Prop where
  plan : s.plans s.reader.gen = s.reader.windows
  cache : ∀ i data, s.reader.cache i = some data → HasRange s.reader.windows i data.range
  flights : ∀ k f, s.flights k = some f → f < s.nextFlight ∧ s.flightKeys f = k
  keys : ∀ f < s.nextFlight, (s.flightKeys f).1 ≤ s.reader.gen
  outcomes : ∀ f data, s.outcomes f = some (.ok data) → f < s.nextFlight ∧
    HasRange (s.plans (s.flightKeys f).1) (s.flightKeys f).2 data.range

structure SharedInv (s : SharedReader α κ ε) : Prop where
  tables : TableInv s
  calls : ∀ t call, s.calls t = some call → CallInv s call

/-- Plans and flights are only added. -/
structure Extends (s s' : SharedReader α κ ε) : Prop where
  gen_le : s.reader.gen ≤ s'.reader.gen
  plans : ∀ g ≤ s.reader.gen, s'.plans g = s.plans g
  next_le : s.nextFlight ≤ s'.nextFlight
  keys : ∀ f < s.nextFlight, s'.flightKeys f = s.flightKeys f

variable {s s' : SharedReader α κ ε} {call : ReadCall α κ ε} {t : ℕ}

theorem CallInv.mono (h : CallInv s call) (he : Extends s s') : CallInv s' call where
  gen_le := h.gen_le.trans he.gen_le
  plan := (he.plans _ h.gen_le).trans h.plan
  values := h.values
  pending := h.pending
  flight f hf := by
    obtain ⟨hlt, hkey⟩ := h.flight f hf
    exact ⟨hlt.trans_le he.next_le, fun i hi => (he.keys f hlt).trans (hkey i hi)⟩
  data := h.data
  needs := h.needs
  done := h.done

namespace SharedInv

/-- The calls of a reader whose tables have been extended. -/
theorem of_extends (h : SharedInv s) (he : Extends s s') (ht : TableInv s')
    (hc : s'.calls = s.calls) : SharedInv s' where
  tables := ht
  calls u call hu := (h.calls u call (hc ▸ hu)).mono he

theorem setCall (h : SharedInv s) (hc : CallInv s call) : SharedInv (s.setCall t call) where
  tables := ⟨h.tables.plan, h.tables.cache, h.tables.flights, h.tables.keys, h.tables.outcomes⟩
  calls u call' hu :=
    (Table.forall_update_some (P := fun _ c => CallInv s c) h.calls hc u call' hu).mono
      ⟨le_rfl, fun _ _ => rfl, le_rfl, fun _ _ => rfl⟩

/-- A replanning: the generation goes up by one and the cache is empty. -/
theorem setReader (h : SharedInv s) {r : ClusteringReader α κ (WindowData α κ)}
    (hgen : r.gen = s.reader.gen + 1) (hcache : ∀ i, r.cache i = none) :
    SharedInv (s.setReader r) := by
  have hplans : ∀ g ≤ s.reader.gen, (s.setReader r).plans g = s.plans g := by
    intro g hg
    exact Function.update_of_ne (by omega) _ _
  have hle : s.reader.gen ≤ (s.setReader r).reader.gen := hgen ▸ Nat.le_succ _
  refine h.of_extends ⟨hle, hplans, le_rfl, fun _ _ => rfl⟩ ?_ rfl
  refine ⟨Function.update_self _ _ _, ?_, h.tables.flights, ?_, ?_⟩
  · intro i data hi
    cases (hcache i).symm.trans hi
  · intro f hf
    exact (h.tables.keys f hf).trans hle
  · intro f data hf
    obtain ⟨hlt, hrange⟩ := h.tables.outcomes f data hf
    rw [← hplans _ (h.tables.keys f hlt)] at hrange
    exact ⟨hlt, hrange⟩

theorem storeCache (h : SharedInv s) {i : ℕ} {data : WindowData α κ}
    (hd : 0 < s.reader.config.cacheTTL → HasRange s.reader.windows i data.range) :
    SharedInv (s.storeCache i data) := by
  unfold SharedReader.storeCache
  split_ifs with httl
  · refine h.of_extends ⟨le_rfl, fun _ _ => rfl, le_rfl, fun _ _ => rfl⟩ ?_ rfl
    exact ⟨h.tables.plan, Table.forall_update_some h.tables.cache (hd httl), h.tables.flights,
      h.tables.keys, h.tables.outcomes⟩
  · exact h

theorem openFlight (h : SharedInv s) {k : ℕ × ℕ} (hk : k.1 ≤ s.reader.gen) :
    SharedInv (s.openFlight k) := by
  have hkeys : ∀ f < s.nextFlight, (s.openFlight k).flightKeys f = s.flightKeys f := by
    intro f hf
    exact Function.update_of_ne hf.ne _ _
  have hself : (s.openFlight k).flightKeys s.nextFlight = k := Function.update_self _ _ _
  refine h.of_extends ⟨le_rfl, fun _ _ => rfl, Nat.le_succ _, hkeys⟩ ?_ rfl
  refine ⟨h.tables.plan, h.tables.cache, ?_, ?_, ?_⟩
  · refine Table.forall_update_some (fun k' f hf => ?_) ⟨Nat.lt_succ_self _, hself⟩
    obtain ⟨hlt, hkey⟩ := h.tables.flights k' f hf
    exact ⟨hlt.trans (Nat.lt_succ_self _), (hkeys f hlt).trans hkey⟩
  · intro f hf
    rcases Nat.lt_succ_iff_lt_or_eq.mp hf with hlt | rfl
    · rw [hkeys f hlt]
      exact h.tables.keys f hlt
    · rw [hself]
      exact hk
  · intro f data hf
    obtain ⟨hlt, hrange⟩ := h.tables.outcomes f data hf
    refine ⟨hlt.trans (Nat.lt_succ_self _), ?_⟩
    rw [hkeys f hlt]
    exact hrange

theorem closeFlight (h : SharedInv s) {f : ℕ} {outcome : Except ε (WindowData α κ)}
    (hf : f < s.nextFlight) (hd : ∀ data, outcome = .ok data →
      HasRange (s.plans (s.flightKeys f).1) (s.flightKeys f).2 data.range) :
    SharedInv (s.closeFlight f outcome) := by
  refine h.of_extends ⟨le_rfl, fun _ _ => rfl, le_rfl, fun _ _ => rfl⟩ ?_ rfl
  refine ⟨h.tables.plan, h.tables.cache, h.tables.flights, h.tables.keys, ?_⟩
  intro g data hg
  refine Table.forall_update_some (P := fun g o => ∀ data, o = .ok data → g < s.nextFlight ∧
    HasRange (s.plans (s.flightKeys g).1) (s.flightKeys g).2 data.range) ?_ ?_ g _ hg data rfl
  · rintro g _ hg data rfl
    exact h.tables.outcomes g data hg
  · exact fun data ho => ⟨hf, hd data ho⟩

theorem removeFlight (h : SharedInv s) (k : ℕ × ℕ) : SharedInv (s.removeFlight k) := by
  refine h.of_extends ⟨le_rfl, fun _ _ => rfl, le_rfl, fun _ _ => rfl⟩ ?_ rfl
  exact ⟨h.tables.plan, h.tables.cache, Table.forall_update_none h.tables.flights, h.tables.keys,
    h.tables.outcomes⟩

end SharedInv

namespace CallInv

/-- A phase without a flight. -/
theorem setPhase (h : CallInv s call) {p : ReadPhase α κ ε} (hf : p.flight? = none)
    (hd : p.data? = none) (hdone : p = .done → call.needed = []) :
    CallInv s { call with phase := p } where
  gen_le := h.gen_le
  plan := h.plan
  values := h.values
  pending := h.pending
  flight f hf' := by cases hf.symm.trans hf'
  data d hd' := by cases hd.symm.trans hd'
  needs f hf' := by cases hf.symm.trans hf'
  done := hdone

/-- A phase with the flight `f` for the window `i`. -/
theorem setFlight (h : CallInv s call) {p : ReadPhase α κ ε} {f i : ℕ} {rest : List ℕ}
    (hn : call.needed = i :: rest) (hf : p.flight? = some f) (hlt : f < s.nextFlight)
    (hkey : s.flightKeys f = (call.gen, i))
    (hd : ∀ d, p.data? = some d → HasRange call.windows i d.range) :
    CallInv s { call with phase := p } where
  gen_le := h.gen_le
  plan := h.plan
  values := h.values
  pending := h.pending
  flight g hg := by
    obtain rfl : f = g := Option.some.inj (hf.symm.trans hg)
    refine ⟨hlt, fun j hj => ?_⟩
    obtain rfl : i = j := by simpa [hn] using hj
    exact hkey
  data d hd' j hj := by
    obtain rfl : i = j := by simpa [hn] using hj
    exact hd d hd'
  needs _ _ := by simp [hn]
  done hp := by
    subst hp
    cases hf

/-- The window `i` has been read. -/
theorem receive (h : CallInv s call) {i : ℕ} {rest : List ℕ} (hn : call.needed = i :: rest)
    {outcome : Except ε (WindowData α κ)}
    (hd : ∀ data, outcome = .ok data → HasRange call.windows i data.range) :
    CallInv s (call.receive i outcome) := by
  cases outcome with
  | error e => exact h.setPhase rfl rfl nofun
  | ok data =>
    refine ⟨h.gen_le, h.plan, ?_, ?_, nofun, nofun, nofun, nofun⟩
    · exact Table.forall_update_some h.values (hd data rfl)
    · intro c hc
      change c.2.1 ∈ call.needed.tail ∨
        (Function.update call.windowValues i (some data) c.2.1).isSome
      by_cases hci : c.2.1 = i
      · exact .inr (by rw [hci, Function.update_self]; rfl)
      · rw [Function.update_of_ne hci, hn, List.tail_cons]
        have hmem := h.pending c hc
        rw [hn, List.mem_cons] at hmem
        exact hmem.imp_left fun h' => h'.resolve_left hci

/-- The flight of a `Read` is that of its current window, under its own plan. -/
theorem flight_current (h : CallInv s call) {f i : ℕ} {rest : List ℕ}
    (hf : call.phase.flight? = some f) (hn : call.needed = i :: rest) :
    f < s.nextFlight ∧ s.flightKeys f = (call.gen, i) := by
  obtain ⟨hlt, hkey⟩ := h.flight f hf
  exact ⟨hlt, hkey i (by simp [hn])⟩

theorem data_current (h : CallInv s call) {d : WindowData α κ} {i : ℕ} {rest : List ℕ}
    (hd : call.phase.data? = some d) (hn : call.needed = i :: rest) :
    HasRange call.windows i d.range :=
  h.data d hd i (by simp [hn])

end CallInv

theorem data?_ended {w : ReadWindow α κ} {f : ℕ} {answer : Except ε (List (Value α))}
    {d : WindowData α κ} (h : (w.ended f answer).data? = some d) : d.range = w.range := by
  rcases answer with e | _ | ⟨val, vals⟩ <;> cases h <;> rfl

theorem flight?_ended {w : ReadWindow α κ} {f : ℕ} (answer : Except ε (List (Value α))) :
    (w.ended f answer).flight? = some f := by
  rcases answer with e | _ | ⟨val, vals⟩ <;> rfl

namespace SharedInv

/-- A cache hit: the data is that of the plan in force, and so of the plan of the call. -/
theorem lookup_hit (h : SharedInv s) (hc : CallInv s call) {i : ℕ} {rest : List ℕ}
    (hn : call.needed = i :: rest) {fresh : Bool} {data : WindowData α κ}
    (hdata : s.cached fresh i = some data) (hsame : SameWindow s call i) :
    SharedInv (s.setCall t (call.receive i (.ok data))) := by
  refine h.setCall (hc.receive hn fun d hd => ?_)
  obtain rfl : data = d := Except.ok.inj hd
  unfold SharedReader.cached at hdata
  split_ifs at hdata
  exact hsame.symm.trans (h.tables.cache i data hdata)

theorem store_ended (h : SharedInv s) (ht : s.calls t = some call) {f i : ℕ} {rest : List ℕ}
    {data : WindowData α κ} (hp : call.phase = .ended .store f (.ok data))
    (hn : call.needed = i :: rest)
    (hsame : 0 < s.reader.config.cacheTTL → SameWindow s call i) :
    SharedInv ((s.storeCache i data).setCall t
      { call with phase := .ended .close f (.ok data) }) := by
  have hc := h.calls t call ht
  have hrange := hc.data_current (d := data) (by rw [hp]; rfl) hn
  obtain ⟨hlt, hkey⟩ := hc.flight_current (f := f) (by rw [hp]; rfl) hn
  have hst : SharedInv (s.storeCache i data) :=
    h.storeCache fun httl => (hsame httl).trans hrange
  -- storing changes the cache alone
  have hframe : (s.storeCache i data).calls t = some call ∧
      (s.storeCache i data).nextFlight = s.nextFlight ∧
      (s.storeCache i data).flightKeys = s.flightKeys := by
    unfold SharedReader.storeCache
    split_ifs <;> exact ⟨ht, rfl, rfl⟩
  obtain ⟨hcall, hnext, hkeys⟩ := hframe
  refine hst.setCall ((hst.calls t call hcall).setFlight hn rfl (hnext ▸ hlt) (hkeys ▸ hkey)
    fun d hd => ?_)
  obtain rfl : data = d := Option.some.inj hd
  exact hrange

theorem close_ended (h : SharedInv s) (ht : s.calls t = some call) {f : ℕ}
    {outcome : Except ε (WindowData α κ)} (hp : call.phase = .ended .close f outcome) :
    SharedInv ((s.closeFlight f outcome).setCall t
      { call with phase := .ended .cleanup f outcome }) := by
  have hc := h.calls t call ht
  obtain ⟨i, rest, hn⟩ := List.exists_cons_of_ne_nil (hc.needs f (by rw [hp]; rfl))
  obtain ⟨hlt, hkey⟩ := hc.flight_current (f := f) (by rw [hp]; rfl) hn
  have hrange : ∀ data, outcome = .ok data → HasRange call.windows i data.range := by
    rintro data rfl
    exact hc.data_current (by rw [hp]; rfl) hn
  have hcl : SharedInv (s.closeFlight f outcome) := by
    refine h.closeFlight hlt fun data hd => ?_
    rw [hkey, hc.plan]
    exact hrange data hd
  refine hcl.setCall ((hcl.calls t call ht).setFlight hn rfl hlt hkey fun d hd => ?_)
  cases outcome with
  | error e => cases hd
  | ok data =>
    obtain rfl : data = d := Option.some.inj hd
    exact hrange data rfl

/-- A step of a `Read` keeps the invariant if it uses the cache for windows of the plan in force. -/
theorem callMove (h : SharedInv s) (ht : s.calls t = some call) {a : CallStep α ε}
    (hg : CachesCurrent s (.call t a)) (hm : CallMove s t call a s') : SharedInv s' := by
  have hc := h.calls t call ht
  cases hm with
  | @direct ok hp =>
    cases ok
    · exact h.setCall (hc.setPhase rfl rfl nofun)
    · exact h.setCall (hc.setPhase rfl rfl nofun)
  | hit hp hn hdata =>
    exact h.lookup_hit hc hn hdata (hg call ht _ (by simp [hn]) (by simp [hdata]))
  | miss | cancel => exact h.setCall (hc.setPhase rfl rfl nofun)
  | wait hp hn hf =>
    obtain ⟨hlt, hkey⟩ := h.tables.flights _ _ hf
    exact h.setCall (hc.setFlight hn rfl hlt hkey nofun)
  | @lead i rest hp hn hf =>
    have ho := h.openFlight (k := (call.gen, i)) hc.gen_le
    have hc' : CallInv (s.openFlight (call.gen, i)) call := ho.calls t call ht
    exact ho.setCall (hc'.setFlight hn rfl (Nat.lt_succ_self _) (Function.update_self _ _ _) nofun)
  | @endRead answer f i rest w hp hn hw =>
    obtain ⟨hlt, hkey⟩ := hc.flight_current (by rw [hp]; rfl) hn
    refine h.setCall (hc.setFlight hn (flight?_ended answer) hlt hkey fun d hd => ?_)
    rw [HasRange, hw, data?_ended hd]
    rfl
  | store hp hn => exact h.store_ended ht hp hn fun httl => hg call ht _ (by simp [hn]) httl
  | close hp => exact h.close_ended ht hp
  | @cleanup i rest f outcome hp hn =>
    have hr := h.removeFlight (call.gen, i)
    refine hr.setCall ((hr.calls t call ht).receive hn ?_)
    rintro data rfl
    exact hc.data_current (by rw [hp]; rfl) hn
  | @wake i rest f outcome hp hn ho =>
    obtain ⟨-, hkey⟩ := hc.flight_current (f := f) (by rw [hp]; rfl) hn
    refine h.setCall (hc.receive hn ?_)
    rintro data rfl
    -- The generation in the key of the flight makes its plan that of the waiting call.
    have hrange := (h.tables.outcomes f data ho).2
    rwa [hkey, hc.plan] at hrange
  | extract hp hn => exact h.setCall (hc.setPhase rfl rfl fun _ => hn)

theorem coherent (h : SharedInv s) : Coherent s := by
  intro t call ht hp c hc
  have hi := h.calls t call ht
  have hsome : (call.windowValues c.2.1).isSome :=
    (hi.pending c hc).resolve_left (by simp [hi.done hp])
  obtain ⟨data, hdata⟩ := Option.isSome_iff_exists.mp hsome
  exact ⟨data, hdata, hi.values _ data hdata⟩

end SharedInv

variable [LinearOrder κ] [Clusterable α κ]

namespace SharedInv

variable {sort : KeySort (sortKey (α := α))}

theorem init (config : ClusterConfig) : SharedInv (sharedSystem (κ := κ) ε sort config).init where
  tables :=
    { plan := rfl
      cache := fun _ _ h => by cases h
      flights := fun _ _ h => by cases h
      keys := fun _ h => absurd h (Nat.not_lt_zero _)
      outcomes := fun _ _ h => by cases h }
  calls _ _ h := by cases h

theorem planCall (h : SharedInv s) (points : List (DataPoint α)) (order : RangeOrder ℕ) :
    CallInv s (planCall s.reader points order) where
  gen_le := le_rfl
  plan := h.tables.plan
  values _ _ hi := by cases hi
  pending c hc := by
    refine .inl ((order.perm _).mem_iff.mpr (List.mem_dedup.mpr ?_))
    exact List.mem_map_of_mem hc
  flight _ hf := by cases hf
  data _ hd := by cases hd
  needs _ hf := by cases hf
  done hp := by cases hp

theorem step (h : SharedInv s) {a : ReaderStep α ε} (hg : CachesCurrent s a)
    (hs : s.step sort a = some s') : SharedInv s' := by
  cases ReaderMove.of_step hs with
  | register | unregister => exact h.setReader rfl fun _ => rfl
  | plan points order => exact h.setCall (h.planCall points order)
  | call ht hm => exact h.callMove ht hg hm

end SharedInv

/-! ### Coherence -/

/-- In every interleaving in which the cache is used only for windows that the plan of the `Read`
and the plan in force have in common, points are extracted from data of their own windows. -/
theorem coherent_of_cachesCurrent (sort : KeySort (sortKey (α := α))) (config : ClusterConfig)
    (h : (sharedSystem ε sort config).Reachable CachesCurrent s) : Coherent s :=
  (h.invariant (I := SharedInv) (.init config) fun _ _ _ hi hg hs => hi.step hg hs).coherent

/-- The default configuration with a cache. -/
def cachingConfig : ClusterConfig := { defaultClusterConfig with cacheTTL := 1000000000 }

/-- Three reads of one register: the first reads the window, the second waits for it, and the third
finds it in the cache after another register has been added behind the window. -/
theorem coherent_three_reads :
    ∃ s : SharedReader Modbus.Point Modbus.Area Empty,
      (∀ t < 3, ∃ call ∈ s.calls t, call.phase = .done ∧ call.clustered.length = 1) ∧
        Coherent s := by
  let p : DataPoint Modbus.Point := .clusterable (.holdingRegister 0 1)
  let q : DataPoint Modbus.Point := .clusterable (.holdingRegister 100 1)
  let steps : List (ReaderStep Modbus.Point Empty) :=
    [.register [p],
      .plan 0 [p] .asGiven, .call 0 (.direct true), .call 0 (.lookup true), .call 0 .join,
      .plan 1 [p] .asGiven, .call 1 (.direct true), .call 1 (.lookup true), .call 1 .join,
      .register [q],
      .call 0 (.endRead (.ok [default])), .call 0 .store, .call 0 .close, .call 0 .cleanup,
      .call 1 .wake,
      .plan 2 [p] .asGiven, .call 2 (.direct true), .call 2 (.lookup true),
      .call 0 .extract, .call 1 .extract, .call 2 .extract]
  let served (s : SharedReader Modbus.Point Modbus.Area Empty) : Bool :=
    (List.range 3).all fun t => (s.calls t).any fun call =>
      call.phase.isDone && call.clustered.length == 1
  obtain ⟨s, hs, hend⟩ := TransitionSystem.exists_reachable_of_exec
    (M := sharedSystem Empty (.insertion sortKey) cachingConfig) (G := CachesCurrent)
    (f := served) (b := true) steps (by decide +kernel)
  refine ⟨s, fun t ht => ?_, coherent_of_cachesCurrent _ _ hs⟩
  obtain ⟨call, hcall, hdone⟩ :=
    (Option.any_eq_true _ _).mp (List.all_eq_true.mp hend t (List.mem_range.mpr ht))
  rw [Bool.and_eq_true, ReadPhase.isDone_iff, beq_iff_eq] at hdone
  exact ⟨call, hcall, hdone⟩

/-- A read of the register 0 is under way while it is replaced by the register 100. Its value is
stored as that of window 0, and a read planned afterwards takes it for the register 100. -/
theorem stale_window_served :
    ∃ s : SharedReader Modbus.Point Modbus.Area Empty,
      (sharedSystem Empty (.insertion sortKey) cachingConfig).Reachable (fun _ _ => True) s ∧
        ¬ Coherent s := by
  let p : DataPoint Modbus.Point := .clusterable (.holdingRegister 0 1)
  let q : DataPoint Modbus.Point := .clusterable (.holdingRegister 100 1)
  let steps : List (ReaderStep Modbus.Point Empty) :=
    [.register [p],
      .plan 0 [p] .asGiven, .call 0 (.direct true), .call 0 (.lookup true), .call 0 .join,
      .unregister [p], .register [q],
      .call 0 (.endRead (.ok [default])), .call 0 .store,
      .plan 1 [q] .asGiven, .call 1 (.direct true), .call 1 (.lookup true), .call 1 .extract]
  let stale (s : SharedReader Modbus.Point Modbus.Area Empty) : Bool :=
    (s.calls 1).any fun call => call.phase.isDone &&
      decide ((0, 0, .holdingRegister 100 1) ∈ call.clustered) &&
      decide ((call.windowValues 0).map WindowData.range = some ⟨.holdingRegister, 0, 1⟩) &&
      decide ((call.windows[0]?).map ReadWindow.range = some ⟨.holdingRegister, 100, 1⟩)
  obtain ⟨s, hs, hend⟩ := TransitionSystem.exists_reachable_of_exec
    (M := sharedSystem Empty (.insertion sortKey) cachingConfig) (G := fun _ _ => True)
    (f := stale) (b := true) steps (by decide +kernel)
  obtain ⟨call, hcall, hend⟩ := (Option.any_eq_true _ _).mp hend
  simp only [Bool.and_eq_true, ReadPhase.isDone_iff, decide_eq_true_eq] at hend
  obtain ⟨⟨⟨hdone, hmem⟩, hread⟩, hwindow⟩ := hend
  refine ⟨s, hs, fun h => ?_⟩
  obtain ⟨data, hdata, hrange⟩ := h 1 call hcall hdone _ hmem
  rw [hdata, Option.map_some] at hread
  have hsame := hread.symm.trans (hrange.symm.trans hwindow)
  exact absurd hsame (by decide)

end GoIndustrial.Monitor
