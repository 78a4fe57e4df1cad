import GoIndustrial.Lib.Chan
import GoIndustrial.Lib.RWLock
import GoIndustrial.Lib.TransitionSystem
import GoIndustrial.Monitor.Read

/-!
# The monitor

A `Monitor` as the goroutines share it: callers of `Subscribe`, `Stop`, `NewSubscriber`, `Done` and
`Close`, and one polling goroutine for each subscription. The steps come in three groups. Those of
the registry are about subscriptions: `Subscribe` puts a subscription into the map, registers its
point with the clustering reader and starts its goroutine; `Stop` takes it out of the map,
unregisters the point, tells the goroutine to stop and waits for it. Those of the bus are about
events: a goroutine that has polled offers the event to the channel of every subscriber, under the
read lock, and then to the channel of the monitor. `Close` shuts down both.

A call that waits for a lock, for a goroutine or for another call under the same `sync.Once` is a
step that is not enabled; a call that finds its `sync.Once` done does nothing. A section under a
mutex that uses nothing else is one step. Beside the fields of the source the state keeps logs,
which no step looks at: what has been registered, emitted, broadcast and dropped.

## Main definitions

* `Monitor.Subscription`, `Monitor.Registry` : the subscriptions, and the reader.
* `Monitor.Subscriber`, `Monitor.Emission`, `Monitor.Bus` : the channels, and the events under way.
* `Monitor.ClosePhase`, `Monitor.MonitorState`, `Monitor.monitorSystem`.

## Main results

* `Monitor.RegMove.of_step`, `Monitor.BusMove.of_step`, `Monitor.CloseMove.of_step` : everything
  that a step can do.
-/

namespace GoIndustrial.Monitor

open Plc

/-! ### Subscriptions -/

/-- Where the goroutine of a subscription stands, and the call of `Subscribe` that starts it. -/
inductive Life
  /-- The subscription is in the map. -/
  | registering
  /-- Its point is registered. -/
  | starting
  /-- The goroutine runs, and `Subscribe` has returned. -/
  | running
  /-- `doneCh` is closed. -/
  | finished
  deriving DecidableEq

/-- Where the first call of `Stop` stands. -/
inductive StopPhase
  | fresh
  | removing
  | unregistering
  | stopping
  | awaiting
  | done
  deriving DecidableEq

/-- A subscription, with the `once` of its handle. -/
structure Subscription (α : Type) where
  point : DataPoint α
  life : Life
  stop : StopPhase
  /-- `stopCh` is closed. -/
  stopCh : Bool

/-- The subscriptions of a monitor: the keys of the map `subs`, the goroutines that `wg` counts, and
all subscriptions so far, by their identifiers. -/
structure Registry (α κ β : Type) where
  reader : ClusteringReader α κ β
  closed : Bool
  nextID : ℕ
  subs : List ℕ
  wg : List ℕ
  all : ℕ → Option (Subscription α)
  /-- The points that were registered and not unregistered, with their subscriptions. -/
  enrolled : List (ℕ × DataPoint α)
  /-- The subscriptions that `Close` found in the map. -/
  abandoned : List (ℕ × DataPoint α)

inductive RegStep (α : Type)
  | subscribe (point : DataPoint α)
  | register (i : ℕ)
  | start (i : ℕ)
  | exit (i : ℕ)
  | stop (i : ℕ)
  | remove (i : ℕ)
  | unregister (i : ℕ)
  | signal (i : ℕ)
  | await (i : ℕ)

namespace Registry

variable {α κ β : Type}

/-- The registry of a new monitor. -/
def new (reader : ClusteringReader α κ β) : Registry α κ β :=
  ⟨reader, false, 0, [], [], fun _ => none, [], []⟩

def put (r : Registry α κ β) (i : ℕ) (sub : Subscription α) : Registry α κ β :=
  { r with all := Function.update r.all i (some sub) }

/-- `Subscribe` under the mutex. -/
def insert (r : Registry α κ β) (point : DataPoint α) : Registry α κ β :=
  { r.put (r.nextID + 1) ⟨point, .registering, .fresh, false⟩ with
    nextID := r.nextID + 1
    subs := (r.nextID + 1) :: r.subs
    wg := (r.nextID + 1) :: r.wg }

/-- `Close` under the mutex. -/
def takeAll (r : Registry α κ β) : Registry α κ β :=
  { r with
    closed := true
    subs := []
    abandoned := r.subs.filterMap fun i => (r.all i).map fun sub => (i, sub.point) }

/-- The goroutine of the subscription is in its loop. -/
def isRunning (r : Registry α κ β) (i : ℕ) : Bool :=
  match r.all i with
  | some sub => sub.life = .running
  | none => false

variable [LinearOrder κ] [Clusterable α κ] [DecidableEq α]
  (sort : KeySort (sortKey (α := α)))

/-- A step of `Subscribe`, of a goroutine or of `Stop`; `stopCh` says that the monitor's channel of
this name is closed and `busy` that a goroutine is not between two polls. -/
def step (stopCh : Bool) (busy : ℕ → Bool) (r : Registry α κ β) :
    RegStep α → Option (Registry α κ β)
  | .subscribe point => some (if r.closed then r else r.insert point)
  | .register i => do
    let sub ← r.all i
    if sub.life = .registering then
      some { r.put i { sub with life := .starting } with
        reader := r.reader.register sort [sub.point]
        enrolled := (i, sub.point) :: r.enrolled }
    else none
  | .start i => do
    let sub ← r.all i
    if sub.life = .starting then some (r.put i { sub with life := .running }) else none
  | .exit i => do
    let sub ← r.all i
    if sub.life = .running ∧ busy i = false ∧ (sub.stopCh || stopCh) then
      some { r.put i { sub with life := .finished } with wg := r.wg.erase i }
    else none
  | .stop i => do
    let sub ← r.all i
    -- the handle is returned when the goroutine has been started
    if sub.life = .running ∨ sub.life = .finished then
      some (if sub.stop = .fresh then r.put i { sub with stop := .removing } else r)
    else none
  | .remove i => do
    let sub ← r.all i
    if sub.stop = .removing then
      some (if i ∈ r.subs then
          { r.put i { sub with stop := .unregistering } with subs := r.subs.erase i }
        else r.put i { sub with stop := .done })
    else none
  | .unregister i => do
    let sub ← r.all i
    if sub.stop = .unregistering then
      some { r.put i { sub with stop := .stopping } with
        reader := r.reader.unregister sort [sub.point]
        enrolled := r.enrolled.erase (i, sub.point) }
    else none
  | .signal i => do
    let sub ← r.all i
    if sub.stop = .stopping then
      some (r.put i { sub with stop := .awaiting, stopCh := true })
    else none
  | .await i => do
    let sub ← r.all i
    if sub.stop = .awaiting ∧ sub.life = .finished then
      some (r.put i { sub with stop := .done })
    else none

end Registry

section RegMove

variable {α κ β : Type} [LinearOrder κ] [Clusterable α κ] [DecidableEq α]

/-- Everything that a step of the registry can do. -/
inductive RegMove (sort : KeySort (sortKey (α := α))) (stopCh : Bool) (busy : ℕ → Bool)
    (r : Registry α κ β) : RegStep α → Registry α κ β → Prop
  | refuse {point : DataPoint α} (hr : r.closed = true) :
      RegMove sort stopCh busy r (.subscribe point) r
  | subscribe {point : DataPoint α} (hr : r.closed = false) :
      RegMove sort stopCh busy r (.subscribe point) (r.insert point)
  | register {i : ℕ} {sub : Subscription α} (hi : r.all i = some sub)
      (hlife : sub.life = .registering) :
      RegMove sort stopCh busy r (.register i) { r.put i { sub with life := .starting } with
        reader := r.reader.register sort [sub.point]
        enrolled := (i, sub.point) :: r.enrolled }
  | start {i : ℕ} {sub : Subscription α} (hi : r.all i = some sub)
      (hlife : sub.life = .starting) :
      RegMove sort stopCh busy r (.start i) (r.put i { sub with life := .running })
  | exit {i : ℕ} {sub : Subscription α} (hi : r.all i = some sub)
      (hlife : sub.life = .running) (hbusy : busy i = false)
      (hstop : sub.stopCh = true ∨ stopCh = true) :
      RegMove sort stopCh busy r (.exit i)
        { r.put i { sub with life := .finished } with wg := r.wg.erase i }
  | stop {i : ℕ} {sub : Subscription α} (hi : r.all i = some sub)
      (hlife : sub.life = .running ∨ sub.life = .finished) (hstop : sub.stop = .fresh) :
      RegMove sort stopCh busy r (.stop i) (r.put i { sub with stop := .removing })
  | stopAgain {i : ℕ} : RegMove sort stopCh busy r (.stop i) r
  | remove {i : ℕ} {sub : Subscription α} (hi : r.all i = some sub)
      (hstop : sub.stop = .removing) (hmem : i ∈ r.subs) :
      RegMove sort stopCh busy r (.remove i)
        { r.put i { sub with stop := .unregistering } with subs := r.subs.erase i }
  | removeGone {i : ℕ} {sub : Subscription α} (hi : r.all i = some sub)
      (hstop : sub.stop = .removing) (hmem : i ∉ r.subs) :
      RegMove sort stopCh busy r (.remove i) (r.put i { sub with stop := .done })
  | unregister {i : ℕ} {sub : Subscription α} (hi : r.all i = some sub)
      (hstop : sub.stop = .unregistering) :
      RegMove sort stopCh busy r (.unregister i) { r.put i { sub with stop := .stopping } with
        reader := r.reader.unregister sort [sub.point]
        enrolled := r.enrolled.erase (i, sub.point) }
  | signal {i : ℕ} {sub : Subscription α} (hi : r.all i = some sub)
      (hstop : sub.stop = .stopping) :
      RegMove sort stopCh busy r (.signal i)
        (r.put i { sub with stop := .awaiting, stopCh := true })
  | await {i : ℕ} {sub : Subscription α} (hi : r.all i = some sub)
      (hstop : sub.stop = .awaiting) (hlife : sub.life = .finished) :
      RegMove sort stopCh busy r (.await i) (r.put i { sub with stop := .done })

variable {sort : KeySort (sortKey (α := α))} {stopCh : Bool} {busy : ℕ → Bool}
  {r r' : Registry α κ β} {a : RegStep α}

theorem RegMove.of_step (h : r.step sort stopCh busy a = some r') :
    RegMove sort stopCh busy r a r' := by
  cases a with
  | subscribe point =>
    cases h
    split
    case isTrue hr => exact .refuse hr
    case isFalse hr => exact .subscribe (Bool.eq_false_iff.mpr hr)
  | register i =>
    obtain ⟨sub, hi, h⟩ := Option.bind_eq_some_iff.mp h
    obtain ⟨hlife, h⟩ := Option.ite_none_right_eq_some.mp h
    cases h
    exact .register hi hlife
  | start i =>
    obtain ⟨sub, hi, h⟩ := Option.bind_eq_some_iff.mp h
    obtain ⟨hlife, h⟩ := Option.ite_none_right_eq_some.mp h
    cases h
    exact .start hi hlife
  | exit i =>
    obtain ⟨sub, hi, h⟩ := Option.bind_eq_some_iff.mp h
    obtain ⟨⟨hlife, hbusy, hstop⟩, h⟩ := Option.ite_none_right_eq_some.mp h
    cases h
    exact .exit hi hlife hbusy (by simpa using hstop)
  | stop i =>
    obtain ⟨sub, hi, h⟩ := Option.bind_eq_some_iff.mp h
    obtain ⟨hlife, h⟩ := Option.ite_none_right_eq_some.mp h
    cases h
    split
    case isTrue hstop => exact .stop hi hlife hstop
    case isFalse => exact .stopAgain
  | remove i =>
    obtain ⟨sub, hi, h⟩ := Option.bind_eq_some_iff.mp h
    obtain ⟨hstop, h⟩ := Option.ite_none_right_eq_some.mp h
    cases h
    split
    case isTrue hmem => exact .remove hi hstop hmem
    case isFalse hmem => exact .removeGone hi hstop hmem
  | unregister i =>
    obtain ⟨sub, hi, h⟩ := Option.bind_eq_some_iff.mp h
    obtain ⟨hstop, h⟩ := Option.ite_none_right_eq_some.mp h
    cases h
    exact .unregister hi hstop
  | signal i =>
    obtain ⟨sub, hi, h⟩ := Option.bind_eq_some_iff.mp h
    obtain ⟨hstop, h⟩ := Option.ite_none_right_eq_some.mp h
    cases h
    exact .signal hi hstop
  | await i =>
    obtain ⟨sub, hi, h⟩ := Option.bind_eq_some_iff.mp h
    obtain ⟨⟨hstop, hlife⟩, h⟩ := Option.ite_none_right_eq_some.mp h
    cases h
    exact .await hi hstop hlife

end RegMove

/-! ### Events -/

/-- An event with the subscription it comes from and the number of the call of `emit`. -/
structure Item (E : Type) where
  n : ℕ
  sub : ℕ
  event : E
  deriving DecidableEq

/-- Where a goroutine is in `emit`. -/
inductive Emission (E : Type)
  /-- Before the look at `stopCh`. -/
  | check (x : Item E)
  /-- Before `RLock`. -/
  | rlock (x : Item E)
  /-- In the loop over the subscribers; `todo` are those that are left of the `audience`. -/
  | sending (x : Item E) (todo audience : List ℕ)
  /-- Before the last `select`. -/
  | last (x : Item E)

def Emission.item {E : Type} : Emission E → Item E
  | .check x | .rlock x | .sending x _ _ | .last x => x

/-- Where the call of `NewSubscriber` that makes a subscriber stands, and the first call of
`Done`. -/
inductive SubscriberPhase
  /-- Under the lock, with `stopCh` open when it was looked at. -/
  | creating
  | active
  | unregistering
  /-- Before `closeCh`. -/
  | closing
  | done
  deriving DecidableEq

structure Subscriber (E : Type) where
  phase : SubscriberPhase
  ch : Chan (Item E)
  /-- `closeOnce` is done. -/
  closeOnce : Bool
  /-- The events that were dropped, each with the buffer at that moment. -/
  dropped : List (Item E × List (Item E))

/-- Who can hold the lock `subscriberMu`. -/
inductive Holder
  | poller (i : ℕ)
  | subscriber (j : ℕ)
  | close
  deriving DecidableEq

/-- The channels of a monitor: the keys of the map `subscribers`, all subscribers so far, the
channel `events`, and the calls of `emit` in progress, by subscription. -/
structure Bus (E : Type) where
  lock : RWLock Holder
  nextSubscriber : ℕ
  subscribers : List ℕ
  all : ℕ → Option (Subscriber E)
  events : Chan (Item E)
  emission : ℕ → Option (Emission E)
  /-- The events that `emit` was called with. -/
  emitted : List (Item E)
  /-- The events that went round all subscribers, with these. -/
  broadcasts : List (Item E × List ℕ)
  /-- The events that `emit` returned with at once. -/
  skipped : List (Item E)
  /-- A send on a closed channel, or a second close. -/
  panicked : Bool

inductive BusStep (E : Type)
  | poll (i : ℕ) (event : E)
  | check (i : ℕ)
  | rlock (i : ℕ)
  | send (i j : ℕ)
  | runlock (i : ℕ)
  | last (i : ℕ) (send : Bool)
  | newSubscriber (bufferSize : ℤ)
  | insert (j : ℕ)
  | done (j : ℕ)
  | delete (j : ℕ)
  | closeCh (j : ℕ)
  | recv (j : ℕ)
  | recvEvent

/-- The polling goroutine that takes the step. -/
def BusStep.poller? {E : Type} : BusStep E → Option ℕ
  | .poll i _ | .check i | .rlock i | .send i _ | .runlock i | .last i _ => some i
  | .newSubscriber _ | .insert _ | .done _ | .delete _ | .closeCh _ | .recv _ | .recvEvent => none

namespace Bus

variable {E : Type}

/-- The bus of a new monitor. -/
def new (eventBuffer : ℕ) : Bus E where
  lock := .unheld
  nextSubscriber := 0
  subscribers := []
  all _ := none
  events := .make eventBuffer
  emission _ := none
  emitted := []
  broadcasts := []
  skipped := []
  panicked := false

def put (b : Bus E) (j : ℕ) (sub : Subscriber E) : Bus E :=
  { b with all := Function.update b.all j (some sub) }

def setEmission (b : Bus E) (i : ℕ) (em : Option (Emission E)) : Bus E :=
  { b with emission := Function.update b.emission i em }

/-- A goroutine is in `emit`. -/
def isBusy (b : Bus E) (i : ℕ) : Bool := (b.emission i).isSome

def panic (b : Bus E) : Bus E := { b with panicked := true }

/-- `closeCh`, with the subscriber in the phase `phase` afterwards. -/
def closeCh (b : Bus E) (j : ℕ) (sub : Subscriber E) (phase : SubscriberPhase) : Bus E :=
  if sub.closeOnce then b.put j { sub with phase }
  else match sub.ch.close with
    | some ch => b.put j { sub with phase, ch, closeOnce := true }
    | none => b.panic

/-- The event is offered to a subscriber. -/
def offer (b : Bus E) (j : ℕ) (sub : Subscriber E) (x : Item E) : Bus E :=
  match sub.ch.offer x with
  | .sent ch => b.put j { sub with ch }
  | .full => b.put j { sub with dropped := sub.dropped ++ [(x, sub.ch.buf)] }
  | .panic => b.panic

/-- The size of the buffer of a new subscriber. -/
def bufferSize (n : ℤ) : ℕ := if n ≤ 0 then 64 else n.toNat

/-- A step of a goroutine in `emit`, of `NewSubscriber`, of `Done` or of a receiver; `running` tells
the goroutines that are in their loop. -/
def step (stopCh : Bool) (running : ℕ → Bool) (b : Bus E) : BusStep E → Option (Bus E)
  | .poll i event =>
    if running i ∧ b.emission i = none then
      let x : Item E := ⟨b.emitted.length, i, event⟩
      some { b.setEmission i (some (.check x)) with emitted := b.emitted ++ [x] }
    else none
  | .check i =>
    match b.emission i with
    | some (.check x) => some (if stopCh then
          { b.setEmission i none with skipped := b.skipped ++ [x] }
        else b.setEmission i (some (.rlock x)))
    | _ => none
  | .rlock i =>
    match b.emission i with
    | some (.rlock x) => do
      let lock ← b.lock.rlock (.poller i)
      some { b.setEmission i (some (.sending x b.subscribers b.subscribers)) with lock }
    | _ => none
  | .send i j =>
    match b.emission i with
    | some (.sending x todo audience) => do
      let sub ← b.all j
      if j ∈ todo then
        some ((b.offer j sub x).setEmission i (some (.sending x (todo.erase j) audience)))
      else none
    | _ => none
  | .runlock i =>
    match b.emission i with
    | some (.sending x [] audience) => some { b.setEmission i (some (.last x)) with
        lock := b.lock.runlock (.poller i)
        broadcasts := b.broadcasts ++ [(x, audience)] }
    | _ => none
  | .last i send =>
    match b.emission i with
    | some (.last x) =>
      match send, b.events.offer x with
      | true, .sent ch => some { b.setEmission i none with events := ch }
      | true, .panic => some b.panic
      | true, .full => none
      | false, .full => some (b.setEmission i none)
      | false, _ => if stopCh then some (b.setEmission i none) else none
    | _ => none
  | .newSubscriber n => do
    let lock ← b.lock.lock (.subscriber b.nextSubscriber)
    some (if stopCh then b
      else { b.put b.nextSubscriber ⟨.creating, .make (bufferSize n), false, []⟩ with
        lock
        nextSubscriber := b.nextSubscriber + 1 })
  | .insert j => do
    let sub ← b.all j
    if sub.phase = .creating then
      some { b.put j { sub with phase := .active } with
        lock := b.lock.unlock
        subscribers := j :: b.subscribers }
    else none
  | .done j => do
    let sub ← b.all j
    if sub.phase = .creating then none
    else some (if sub.phase = .active then b.put j { sub with phase := .unregistering } else b)
  | .delete j => do
    let sub ← b.all j
    let _ ← b.lock.lock (.subscriber j)
    if sub.phase = .unregistering then
      some { b.put j { sub with phase := .closing } with subscribers := b.subscribers.erase j }
    else none
  | .closeCh j => do
    let sub ← b.all j
    if sub.phase = .closing then some (b.closeCh j sub .done) else none
  | .recv j => do
    let sub ← b.all j
    let ch ← sub.ch.recv
    some (b.put j { sub with ch })
  | .recvEvent => do
    let ch ← b.events.recv
    some { b with events := ch }

end Bus

section BusMove

variable {E : Type}

/-- Everything that a step of the bus can do. -/
inductive BusMove (stopCh : Bool) (running : ℕ → Bool) (b : Bus E) : Bus E → Prop
  | poll {i : ℕ} {event : E} (hrun : running i = true) (hem : b.emission i = none) :
      BusMove stopCh running b
        { b.setEmission i (some (.check ⟨b.emitted.length, i, event⟩)) with
          emitted := b.emitted ++ [⟨b.emitted.length, i, event⟩] }
  | skip {i : ℕ} {x : Item E} (hem : b.emission i = some (.check x)) (hs : stopCh = true) :
      BusMove stopCh running b { b.setEmission i none with skipped := b.skipped ++ [x] }
  | pass {i : ℕ} {x : Item E} (hem : b.emission i = some (.check x)) (hs : stopCh = false) :
      BusMove stopCh running b (b.setEmission i (some (.rlock x)))
  | rlock {i : ℕ} {x : Item E} {lock : RWLock Holder} (hem : b.emission i = some (.rlock x))
      (hl : b.lock.rlock (.poller i) = some lock) :
      BusMove stopCh running b
        { b.setEmission i (some (.sending x b.subscribers b.subscribers)) with lock }
  | send {i j : ℕ} {x : Item E} {todo audience : List ℕ} {sub : Subscriber E}
      (hem : b.emission i = some (.sending x todo audience)) (hj : b.all j = some sub)
      (hmem : j ∈ todo) :
      BusMove stopCh running b
        ((b.offer j sub x).setEmission i (some (.sending x (todo.erase j) audience)))
  | runlock {i : ℕ} {x : Item E} {audience : List ℕ}
      (hem : b.emission i = some (.sending x [] audience)) :
      BusMove stopCh running b { b.setEmission i (some (.last x)) with
        lock := b.lock.runlock (.poller i)
        broadcasts := b.broadcasts ++ [(x, audience)] }
  | last {i : ℕ} {x : Item E} (hem : b.emission i = some (.last x)) :
      BusMove stopCh running b (b.setEmission i none)
  | lastSent {i : ℕ} {x : Item E} {ch : Chan (Item E)} (hem : b.emission i = some (.last x))
      (hch : b.events.offer x = .sent ch) :
      BusMove stopCh running b { b.setEmission i none with events := ch }
  | lastPanic {i : ℕ} {x : Item E} (hem : b.emission i = some (.last x))
      (hch : b.events.offer x = .panic) :
      BusMove stopCh running b b.panic
  | nothing : BusMove stopCh running b b
  | newSubscriber {n : ℤ} {lock : RWLock Holder} (hs : stopCh = false)
      (hl : b.lock.lock (.subscriber b.nextSubscriber) = some lock) :
      BusMove stopCh running b
        { b.put b.nextSubscriber ⟨.creating, .make (Bus.bufferSize n), false, []⟩ with
          lock
          nextSubscriber := b.nextSubscriber + 1 }
  | insert {j : ℕ} {sub : Subscriber E} (hj : b.all j = some sub)
      (hphase : sub.phase = .creating) :
      BusMove stopCh running b { b.put j { sub with phase := .active } with
        lock := b.lock.unlock
        subscribers := j :: b.subscribers }
  | done {j : ℕ} {sub : Subscriber E} (hj : b.all j = some sub) (hphase : sub.phase = .active) :
      BusMove stopCh running b (b.put j { sub with phase := .unregistering })
  | delete {j : ℕ} {sub : Subscriber E} {lock : RWLock Holder} (hj : b.all j = some sub)
      (hl : b.lock.lock (.subscriber j) = some lock) (hphase : sub.phase = .unregistering) :
      BusMove stopCh running b
        { b.put j { sub with phase := .closing } with subscribers := b.subscribers.erase j }
  | closeCh {j : ℕ} {sub : Subscriber E} (hj : b.all j = some sub)
      (hphase : sub.phase = .closing) :
      BusMove stopCh running b (b.closeCh j sub .done)
  | recv {j : ℕ} {sub : Subscriber E} {ch : Chan (Item E)} (hj : b.all j = some sub)
      (hch : sub.ch.recv = some ch) :
      BusMove stopCh running b (b.put j { sub with ch })
  | recvEvent {ch : Chan (Item E)} (hch : b.events.recv = some ch) :
      BusMove stopCh running b { b with events := ch }

theorem emission_setEmission_of_ne {b : Bus E} {i k : ℕ} {em : Option (Emission E)}
    (hne : some k ≠ some i) : (b.setEmission k em).emission i = b.emission i := by
  have hik : i ≠ k := fun hik => hne (congrArg some hik.symm)
  exact Function.update_of_ne hik em b.emission

theorem emission_closeCh (b : Bus E) (j : ℕ) (sub : Subscriber E) (phase : SubscriberPhase) :
    (b.closeCh j sub phase).emission = b.emission := by
  rw [Bus.closeCh]
  split
  · rfl
  · split <;> rfl

theorem emission_offer (b : Bus E) (j : ℕ) (sub : Subscriber E) (x : Item E) :
    (b.offer j sub x).emission = b.emission := by
  rw [Bus.offer]
  split <;> rfl

/-- What a step does, and that it leaves what the other goroutines emit. -/
theorem BusMove.of_step_poller {stopCh : Bool} {running : ℕ → Bool} {b b' : Bus E} {a : BusStep E}
    (h : b.step stopCh running a = some b') :
    BusMove stopCh running b b' ∧ ∀ i, a.poller? ≠ some i → b'.emission i = b.emission i := by
  cases a with
  | poll i event =>
    obtain ⟨⟨hrun, hem⟩, h⟩ := Option.ite_none_right_eq_some.mp h
    cases h
    exact ⟨.poll hrun hem, fun _ hi => emission_setEmission_of_ne hi⟩
  | check i =>
    rw [Bus.step] at h
    split at h
    case h_1 x hem =>
      cases h
      split
      case isTrue hs => exact ⟨.skip hem hs, fun _ hi => emission_setEmission_of_ne hi⟩
      case isFalse hs =>
        have hopen := Bool.eq_false_iff.mpr hs
        exact ⟨.pass hem hopen, fun _ hi => emission_setEmission_of_ne hi⟩
    case h_2 => contradiction
  | rlock i =>
    rw [Bus.step] at h
    split at h
    case h_1 x hem =>
      obtain ⟨lock, hl, h⟩ := Option.bind_eq_some_iff.mp h
      cases h
      exact ⟨.rlock hem hl, fun _ hi => emission_setEmission_of_ne hi⟩
    case h_2 => contradiction
  | send i j =>
    rw [Bus.step] at h
    split at h
    case h_1 x todo audience hem =>
      obtain ⟨sub, hj, h⟩ := Option.bind_eq_some_iff.mp h
      obtain ⟨hmem, h⟩ := Option.ite_none_right_eq_some.mp h
      cases h
      refine ⟨.send hem hj hmem, fun i hi => ?_⟩
      exact (emission_setEmission_of_ne hi).trans (congrFun (emission_offer b j sub x) i)
    case h_2 => contradiction
  | runlock i =>
    rw [Bus.step] at h
    split at h
    case h_1 x audience hem =>
      cases h
      exact ⟨.runlock hem, fun _ hi => emission_setEmission_of_ne hi⟩
    case h_2 => contradiction
  | last i send =>
    rw [Bus.step] at h
    split at h
    case h_1 x hem =>
      split at h
      case h_1 ch hch =>
        cases h
        exact ⟨.lastSent hem hch, fun _ hi => emission_setEmission_of_ne hi⟩
      case h_2 hch =>
        cases h
        exact ⟨.lastPanic hem hch, fun _ _ => rfl⟩
      case h_3 => contradiction
      case h_4 =>
        cases h
        exact ⟨.last hem, fun _ hi => emission_setEmission_of_ne hi⟩
      case h_5 =>
        obtain ⟨-, h⟩ := Option.ite_none_right_eq_some.mp h
        cases h
        exact ⟨.last hem, fun _ hi => emission_setEmission_of_ne hi⟩
    case h_2 => contradiction
  | newSubscriber n =>
    obtain ⟨lock, hl, h⟩ := Option.bind_eq_some_iff.mp h
    cases h
    split
    case isTrue => exact ⟨.nothing, fun _ _ => rfl⟩
    case isFalse hs => exact ⟨.newSubscriber (Bool.eq_false_iff.mpr hs) hl, fun _ _ => rfl⟩
  | insert j =>
    obtain ⟨sub, hj, h⟩ := Option.bind_eq_some_iff.mp h
    obtain ⟨hphase, h⟩ := Option.ite_none_right_eq_some.mp h
    cases h
    exact ⟨.insert hj hphase, fun _ _ => rfl⟩
  | done j =>
    obtain ⟨sub, hj, h⟩ := Option.bind_eq_some_iff.mp h
    obtain ⟨-, h⟩ := Option.ite_none_left_eq_some.mp h
    cases h
    split
    case isTrue hphase => exact ⟨.done hj hphase, fun _ _ => rfl⟩
    case isFalse => exact ⟨.nothing, fun _ _ => rfl⟩
  | delete j =>
    obtain ⟨sub, hj, h⟩ := Option.bind_eq_some_iff.mp h
    obtain ⟨lock, hl, h⟩ := Option.bind_eq_some_iff.mp h
    obtain ⟨hphase, h⟩ := Option.ite_none_right_eq_some.mp h
    cases h
    exact ⟨.delete hj hl hphase, fun _ _ => rfl⟩
  | closeCh j =>
    obtain ⟨sub, hj, h⟩ := Option.bind_eq_some_iff.mp h
    obtain ⟨hphase, h⟩ := Option.ite_none_right_eq_some.mp h
    cases h
    exact ⟨.closeCh hj hphase, fun i _ => congrFun (emission_closeCh b j sub _) i⟩
  | recv j =>
    obtain ⟨sub, hj, h⟩ := Option.bind_eq_some_iff.mp h
    obtain ⟨ch, hch, h⟩ := Option.bind_eq_some_iff.mp h
    cases h
    exact ⟨.recv hj hch, fun _ _ => rfl⟩
  | recvEvent =>
    obtain ⟨ch, hch, h⟩ := Option.bind_eq_some_iff.mp h
    cases h
    exact ⟨.recvEvent hch, fun _ _ => rfl⟩

theorem BusMove.of_step {stopCh : Bool} {running : ℕ → Bool} {b b' : Bus E} {a : BusStep E}
    (h : b.step stopCh running a = some b') : BusMove stopCh running b b' := (of_step_poller h).1

end BusMove

/-! ### The monitor -/

/-- Where the first call of `Close` stands. -/
inductive ClosePhase
  | fresh
  /-- `stopCh` is closed. -/
  | entered
  /-- The subscriptions that are still to be stopped. -/
  | stopping (rest : List ℕ)
  /-- Waiting for the goroutine of `i`. -/
  | awaiting (i : ℕ) (rest : List ℕ)
  /-- `wg.Wait` has returned. -/
  | waited
  /-- `events` is closed. -/
  | quiet
  /-- Under the lock, with the subscribers that are still to be closed. -/
  | closing (todo : List ℕ)
  | done
  deriving DecidableEq

inductive CloseStep
  | begin
  | take
  | stop (i : ℕ)
  | await
  | wait
  | closeEvents
  | lock
  | closeCh (j : ℕ)
  | unlock

structure MonitorState (α κ β E : Type) where
  reg : Registry α κ β
  bus : Bus E
  stopCh : Bool
  close : ClosePhase

inductive MonitorStep (α E : Type)
  | reg (a : RegStep α)
  | bus (a : BusStep E)
  | close (a : CloseStep)

namespace MonitorState

variable {α κ β E : Type}

/-- A step of `Close`. -/
def closeStep (s : MonitorState α κ β E) : CloseStep → Option (MonitorState α κ β E)
  | .begin =>
    some (if s.close = .fresh then { s with stopCh := true, close := .entered } else s)
  | .take =>
    if s.close = .entered then
      some { s with reg := s.reg.takeAll, close := .stopping s.reg.subs }
    else none
  | .stop i =>
    match s.close with
    | .stopping rest => do
      let sub ← s.reg.all i
      if i ∈ rest then
        some { s with
          reg := s.reg.put i { sub with stopCh := true }
          close := .awaiting i (rest.erase i) }
      else none
    | _ => none
  | .await =>
    match s.close with
    | .awaiting i rest => do
      let sub ← s.reg.all i
      if sub.life = .finished then some { s with close := .stopping rest } else none
    | _ => none
  | .wait =>
    if s.close = .stopping [] ∧ s.reg.wg = [] then some { s with close := .waited } else none
  | .closeEvents =>
    if s.close = .waited then
      match s.bus.events.close with
      | some ch => some { s with bus := { s.bus with events := ch }, close := .quiet }
      | none => some { s with bus := s.bus.panic }
    else none
  | .lock =>
    if s.close = .quiet then do
      let lock ← s.bus.lock.lock .close
      some { s with bus := { s.bus with lock }, close := .closing s.bus.subscribers }
    else none
  | .closeCh j =>
    match s.close with
    | .closing todo => do
      let sub ← s.bus.all j
      if j ∈ todo then
        some { s with
          bus := s.bus.closeCh j sub sub.phase
          close := .closing (todo.erase j) }
      else none
    | _ => none
  | .unlock =>
    if s.close = .closing [] then
      some { s with
        bus := { s.bus with lock := s.bus.lock.unlock, subscribers := [] }
        close := .done }
    else none

variable [LinearOrder κ] [Clusterable α κ] [DecidableEq α]
  (sort : KeySort (sortKey (α := α)))

def step (s : MonitorState α κ β E) : MonitorStep α E → Option (MonitorState α κ β E)
  | .reg a => (s.reg.step sort s.stopCh s.bus.isBusy a).map fun reg => { s with reg }
  | .bus a => (s.bus.step s.stopCh s.reg.isRunning a).map fun bus => { s with bus }
  | .close a => s.closeStep a

end MonitorState

/-- Everything that a step of `Close` can do. -/
inductive CloseMove {α κ β E : Type} (s : MonitorState α κ β E) : MonitorState α κ β E → Prop
  | again : CloseMove s s
  | begin (hc : s.close = .fresh) : CloseMove s { s with stopCh := true, close := .entered }
  | take (hc : s.close = .entered) :
      CloseMove s { s with reg := s.reg.takeAll, close := .stopping s.reg.subs }
  | stop {i : ℕ} {rest : List ℕ} {sub : Subscription α} (hc : s.close = .stopping rest)
      (hi : s.reg.all i = some sub) (hmem : i ∈ rest) :
      CloseMove s { s with
        reg := s.reg.put i { sub with stopCh := true }
        close := .awaiting i (rest.erase i) }
  | await {i : ℕ} {rest : List ℕ} {sub : Subscription α} (hc : s.close = .awaiting i rest)
      (hi : s.reg.all i = some sub) (hlife : sub.life = .finished) :
      CloseMove s { s with close := .stopping rest }
  | wait (hc : s.close = .stopping []) (hwg : s.reg.wg = []) :
      CloseMove s { s with close := .waited }
  | closeEvents {ch : Chan (Item E)} (hc : s.close = .waited)
      (hch : s.bus.events.close = some ch) :
      CloseMove s { s with bus := { s.bus with events := ch }, close := .quiet }
  | closeEventsPanic (hc : s.close = .waited) (hch : s.bus.events.close = none) :
      CloseMove s { s with bus := s.bus.panic }
  | lock {lock : RWLock Holder} (hc : s.close = .quiet)
      (hl : s.bus.lock.lock .close = some lock) :
      CloseMove s { s with bus := { s.bus with lock }, close := .closing s.bus.subscribers }
  | closeCh {j : ℕ} {todo : List ℕ} {sub : Subscriber E} (hc : s.close = .closing todo)
      (hj : s.bus.all j = some sub) (hmem : j ∈ todo) :
      CloseMove s { s with
        bus := s.bus.closeCh j sub sub.phase
        close := .closing (todo.erase j) }
  | unlock (hc : s.close = .closing []) :
      CloseMove s { s with
        bus := { s.bus with lock := s.bus.lock.unlock, subscribers := [] }
        close := .done }

theorem CloseMove.of_step {α κ β E : Type} {s t : MonitorState α κ β E} {a : CloseStep}
    (h : s.closeStep a = some t) : CloseMove s t := by
  cases a with
  | begin =>
    cases h
    split
    case isTrue hc => exact .begin hc
    case isFalse => exact .again
  | take =>
    obtain ⟨hc, h⟩ := Option.ite_none_right_eq_some.mp h
    cases h
    exact .take hc
  | stop i =>
    rw [MonitorState.closeStep] at h
    split at h
    case h_1 rest hc =>
      obtain ⟨sub, hi, h⟩ := Option.bind_eq_some_iff.mp h
      obtain ⟨hmem, h⟩ := Option.ite_none_right_eq_some.mp h
      cases h
      exact .stop hc hi hmem
    case h_2 => contradiction
  | await =>
    rw [MonitorState.closeStep] at h
    split at h
    case h_1 i rest hc =>
      obtain ⟨sub, hi, h⟩ := Option.bind_eq_some_iff.mp h
      obtain ⟨hlife, h⟩ := Option.ite_none_right_eq_some.mp h
      cases h
      exact .await hc hi hlife
    case h_2 => contradiction
  | wait =>
    obtain ⟨⟨hc, hwg⟩, h⟩ := Option.ite_none_right_eq_some.mp h
    cases h
    exact .wait hc hwg
  | closeEvents =>
    obtain ⟨hc, h⟩ := Option.ite_none_right_eq_some.mp h
    split at h
    case h_1 ch hch =>
      cases h
      exact .closeEvents hc hch
    case h_2 hch =>
      cases h
      exact .closeEventsPanic hc hch
  | lock =>
    obtain ⟨hc, h⟩ := Option.ite_none_right_eq_some.mp h
    obtain ⟨lock, hl, h⟩ := Option.bind_eq_some_iff.mp h
    cases h
    exact .lock hc hl
  | closeCh j =>
    rw [MonitorState.closeStep] at h
    split at h
    case h_1 todo hc =>
      obtain ⟨sub, hj, h⟩ := Option.bind_eq_some_iff.mp h
      obtain ⟨hmem, h⟩ := Option.ite_none_right_eq_some.mp h
      cases h
      exact .closeCh hc hj hmem
    case h_2 => contradiction
  | unlock =>
    obtain ⟨hc, h⟩ := Option.ite_none_right_eq_some.mp h
    cases h
    exact .unlock hc

/-- The interleavings on a new monitor with a new clustering reader. -/
def monitorSystem {α κ β E : Type} [LinearOrder κ] [Clusterable α κ] [DecidableEq α]
    (sort : KeySort (sortKey (α := α))) (cfg : ClusterConfig) (eventBuffer : ℕ) :
    TransitionSystem (MonitorState α κ β E) (MonitorStep α E) where
  init := ⟨.new (newClusteringReader cfg), .new eventBuffer, false, .fresh⟩
  step := MonitorState.step sort

end GoIndustrial.Monitor
