import GoIndustrial.Monitor.Flights

/-!
# Reads under contexts

Every `Read` runs under the context of its caller; a monitor gives each subscription a context of
its own and cancels it when the subscription is stopped. A `Read` that opens a flight reads the
window under its own context, and whatever comes of it, the error of this context included, is
handed to all that wait for the flight.

The model adds contexts to the interleavings of `Monitor.sharedSystem`. Errors carry their cause,
which the source does not record; the logs of what failed, who was handed what and which flights
were interrupted are read by no step.

## Main definitions

* `Monitor.ReadError`, `Monitor.ContextReader`, `Monitor.contextSystem`.
* `Monitor.ContextReader.errorEvents` : the error events of the subscriptions.
* `Monitor.ReadMove`, `Monitor.ContextMove`.

## Main results

* `Monitor.ContextMove.of_step` : everything that a step can do to flights and logs.
* `Monitor.reachable_shared` : contexts add nothing to what a reader does.
-/

namespace GoIndustrial.Monitor

open Plc Clusterable

/-! ### Reads under contexts -/

/-- Why a `Read` fails. -/
inductive ReadError (γ ε : Type)
  | device (e : ε)
  /-- The context was canceled, or its deadline has passed. -/
  | context (c : γ)
  deriving DecidableEq

/-- A reader, the contexts of its callers, and what has come of the calls. -/
structure ContextReader (α κ γ ε : Type) where
  shared : SharedReader α κ (ReadError γ ε)
  /-- The contexts that are done. -/
  done : γ → Bool
  /-- The calls that have failed, with the errors they returned. -/
  failures : List (ℕ × ReadError γ ε)
  /-- The calls that were handed the outcome of a flight, with the flight. -/
  handed : List (ℕ × ℕ)
  /-- The flights whose inner read was ended by its context, with the context. -/
  interrupted : List (ℕ × γ)

inductive ContextStep (α γ ε : Type)
  | cancel (c : γ)
  | reader (a : ReaderStep α (ReadError γ ε))
  /-- The direct read of a point fails. -/
  | failDirect (t : ℕ) (e : ReadError γ ε)

section Step

variable {α κ γ ε : Type}

/-- What the inner reader can return under the context `c`. -/
def MayReturn (done : γ → Bool) (c : γ) : ReadError γ ε → Prop
  | .device _ => True
  | .context c' => c' = c ∧ done c = true

/-- A `Read` under the context `c` can take the step. -/
def Allowed (done : γ → Bool) (c : γ) : CallStep α (ReadError γ ε) → Prop
  | .direct ok => ok = true
  | .endRead (.error e) => MayReturn done c e
  | .cancel => done c = true
  | _ => True

instance [DecidableEq γ] (done : γ → Bool) (c : γ) (e : ReadError γ ε) :
    Decidable (MayReturn done c e) :=
  match e with
  | .device _ => inferInstanceAs (Decidable True)
  | .context c' => inferInstanceAs (Decidable (c' = c ∧ done c = true))

instance [DecidableEq γ] (done : γ → Bool) (c : γ) (a : CallStep α (ReadError γ ε)) :
    Decidable (Allowed done c a) :=
  match a with
  | .direct ok => inferInstanceAs (Decidable (ok = true))
  | .endRead (.error e) => inferInstanceAs (Decidable (MayReturn done c e))
  | .cancel => inferInstanceAs (Decidable (done c = true))
  | .endRead (.ok _) | .lookup _ | .join | .store | .close | .cleanup | .wake | .extract =>
    inferInstanceAs (Decidable True)

namespace ContextReader

/-- What the logs have of a step of the `Read` `t` under the context `c`. -/
def record (s : ContextReader α κ γ ε) (t : ℕ) (c : γ) :
    ReadPhase α κ (ReadError γ ε) → CallStep α (ReadError γ ε) → ContextReader α κ γ ε
  | .reading f, .endRead (.error (.context c')) =>
    { s with interrupted := s.interrupted ++ [(f, c')] }
  | .ended .cleanup _ (.error e), .cleanup => { s with failures := s.failures ++ [(t, e)] }
  | .wait f, .wake =>
    match s.shared.outcomes f with
    | some (.error e) =>
      { s with
        failures := s.failures ++ [(t, e)]
        handed := s.handed ++ [(t, f)] }
    | _ => { s with handed := s.handed ++ [(t, f)] }
  | .wait _, .cancel => { s with failures := s.failures ++ [(t, .context c)] }
  | _, _ => s

variable [LinearOrder κ] [Clusterable α κ] [DecidableEq γ] (ctxOf : ℕ → γ)
  (sort : KeySort (sortKey (α := α)))

/-- A step; `ctxOf` tells the contexts of the calls. -/
def step (s : ContextReader α κ γ ε) : ContextStep α γ ε → Option (ContextReader α κ γ ε)
  | .cancel c => some { s with done := Function.update s.done c true }
  | .reader (.call t a) => do
    let call ← s.shared.calls t
    let shared ← s.shared.stepCall t call a
    if Allowed s.done (ctxOf t) a then
      some { s.record t (ctxOf t) call.phase a with shared }
    else none
  | .reader a => (s.shared.step sort a).map fun shared => { s with shared }
  | .failDirect t e => do
    let call ← s.shared.calls t
    let shared ← s.shared.stepCall t call (.direct false)
    if MayReturn s.done (ctxOf t) e then
      some { s with shared, failures := s.failures ++ [(t, e)] }
    else none

/-- The error events: `poll` emits one, for its subscription, when its `Read` fails. The contexts
are those of the subscriptions. -/
def errorEvents (s : ContextReader α κ γ ε) : List (γ × ReadError γ ε) :=
  s.failures.map fun x => (ctxOf x.1, x.2)

end ContextReader

/-- The interleavings of `Register`, `Unregister`, `Read` and the ends of contexts. -/
def contextSystem [LinearOrder κ] [Clusterable α κ] [DecidableEq γ] (ε : Type) (ctxOf : ℕ → γ)
    (sort : KeySort (sortKey (α := α))) (config : ClusterConfig) :
    TransitionSystem (ContextReader α κ γ ε) (ContextStep α γ ε) where
  init := ⟨(sharedSystem (ReadError γ ε) sort config).init, fun _ => false, [], [], []⟩
  step := ContextReader.step ctxOf sort

end Step

/-! ### What a step can do -/

namespace ReadPhase

variable {α κ ε : Type}

/-- The error of the inner read that a `Read` has ended. -/
def failure? : ReadPhase α κ ε → Option (ℕ × ε)
  | .ended _ f (.error e) => some (f, e)
  | _ => none

end ReadPhase

section Move

variable {α κ γ ε : Type}

/-- The flights and their outcomes are the same. -/
structure SameFlights {ε : Type} (s s' : SharedReader α κ ε) : Prop where
  outcomes : s'.outcomes = s.outcomes
  next : s'.nextFlight = s.nextFlight

/-- What a step of the `Read` `t` does, with the phases before and after it. -/
inductive ReadMove (ctxOf : ℕ → γ) (s : ContextReader α κ γ ε) (t : ℕ)
    (r : SharedReader α κ (ReadError γ ε)) : ReadPhase α κ (ReadError γ ε) →
    ReadPhase α κ (ReadError γ ε) → ContextReader α κ γ ε → Prop
  /-- Neither an error nor a flight comes in. -/
  | quiet {p p' : ReadPhase α κ (ReadError γ ε)} (hsame : SameFlights s.shared r)
      (hlead : p'.lead? = none ∨ p'.lead? = p.lead? ∧ p'.announced? = p.announced?)
      (hfailure : p.failure? = none) (hfailure' : p'.failure? = none)
      (hfailed : p ≠ .failed) (hfailed' : p' ≠ .failed) :
      ReadMove ctxOf s t r p p' { s with shared := r }
  | lead (houtcomes : r.outcomes = s.shared.outcomes)
      (hnext : r.nextFlight = s.shared.nextFlight + 1) :
      ReadMove ctxOf s t r .join (.reading s.shared.nextFlight) { s with shared := r }
  | endDevice {f : ℕ} {e : ε} (hsame : SameFlights s.shared r) :
      ReadMove ctxOf s t r (.reading f) (.ended .close f (.error (.device e)))
        { s with shared := r }
  | interrupt {f : ℕ} (hsame : SameFlights s.shared r) (hdone : s.done (ctxOf t) = true) :
      ReadMove ctxOf s t r (.reading f) (.ended .close f (.error (.context (ctxOf t))))
        { s with shared := r, interrupted := s.interrupted ++ [(f, ctxOf t)] }
  | close {f : ℕ} {outcome : Except (ReadError γ ε) (WindowData α κ)}
      (houtcomes : r.outcomes = Function.update s.shared.outcomes f (some outcome))
      (hnext : r.nextFlight = s.shared.nextFlight) :
      ReadMove ctxOf s t r (.ended .close f outcome) (.ended .cleanup f outcome)
        { s with shared := r }
  | leave {f : ℕ} {e : ReadError γ ε} (hsame : SameFlights s.shared r) :
      ReadMove ctxOf s t r (.ended .cleanup f (.error e)) .failed
        { s with shared := r, failures := s.failures ++ [(t, e)] }
  | wake {f : ℕ} {data : WindowData α κ} (hsame : SameFlights s.shared r)
      (houtcome : s.shared.outcomes f = some (.ok data)) :
      ReadMove ctxOf s t r (.wait f) .lookup
        { s with shared := r, handed := s.handed ++ [(t, f)] }
  | wakeError {f : ℕ} {e : ReadError γ ε} (hsame : SameFlights s.shared r)
      (houtcome : s.shared.outcomes f = some (.error e)) :
      ReadMove ctxOf s t r (.wait f) .failed { s with
        shared := r
        failures := s.failures ++ [(t, e)]
        handed := s.handed ++ [(t, f)] }
  | giveUp {f : ℕ} (hsame : SameFlights s.shared r) (hdone : s.done (ctxOf t) = true) :
      ReadMove ctxOf s t r (.wait f) .failed
        { s with shared := r, failures := s.failures ++ [(t, .context (ctxOf t))] }
  | failDirect {e : ReadError γ ε} (hsame : SameFlights s.shared r)
      (he : MayReturn s.done (ctxOf t) e) :
      ReadMove ctxOf s t r .direct .failed
        { s with shared := r, failures := s.failures ++ [(t, e)] }

/-- Everything that a step can do to flights and logs. -/
inductive ContextMove [DecidableEq γ] (ctxOf : ℕ → γ) (s : ContextReader α κ γ ε) :
    ContextReader α κ γ ε → Prop
  | cancel (c : γ) : ContextMove ctxOf s { s with done := Function.update s.done c true }
  | replan {r : SharedReader α κ (ReadError γ ε)} (hcalls : r.calls = s.shared.calls)
      (hsame : SameFlights s.shared r) : ContextMove ctxOf s { s with shared := r }
  | start {t : ℕ} {call : ReadCall α κ (ReadError γ ε)} (ht : s.shared.calls t = none)
      (hphase : call.phase = .direct) :
      ContextMove ctxOf s { s with shared := s.shared.setCall t call }
  | call {t : ℕ} {call call' : ReadCall α κ (ReadError γ ε)}
      {r : SharedReader α κ (ReadError γ ε)} {p p' : ReadPhase α κ (ReadError γ ε)}
      {s' : ContextReader α κ γ ε} (ht : s.shared.calls t = some call)
      (hcalls : r.calls = Function.update s.shared.calls t (some call')) (hp : call.phase = p)
      (hp' : call'.phase = p') (hm : ReadMove ctxOf s t r p p' s') : ContextMove ctxOf s s'

variable {ctxOf : ℕ → γ} {s s' : ContextReader α κ γ ε} {t : ℕ}
  {call : ReadCall α κ (ReadError γ ε)} {r : SharedReader α κ (ReadError γ ε)}

/-- A step of a `Read` that its context allows. -/
theorem ReadMove.of_stepCall {a : CallStep α (ReadError γ ε)}
    (hstep : s.shared.stepCall t call a = some r) (ha : Allowed s.done (ctxOf t) a) :
    ∃ call', r.calls = Function.update s.shared.calls t (some call') ∧
      ReadMove ctxOf s t r call.phase call'.phase
        { s.record t (ctxOf t) call.phase a with shared := r } := by
  cases CallMove.of_stepCall hstep with
  | direct hp =>
    obtain rfl := ha
    refine ⟨_, rfl, ?_⟩
    rw [hp]
    exact .quiet ⟨rfl, rfl⟩ (.inl rfl) rfl rfl nofun nofun
  | hit hp | miss hp | wait hp | extract hp =>
    refine ⟨_, rfl, ?_⟩
    rw [hp]
    exact .quiet ⟨rfl, rfl⟩ (.inl rfl) rfl rfl nofun nofun
  | lead hp =>
    refine ⟨_, rfl, ?_⟩
    rw [hp]
    exact .lead rfl rfl
  | @endRead answer f i rest w hp =>
    refine ⟨_, rfl, ?_⟩
    rw [hp]
    match answer, ha with
    | .ok [], _ => exact .quiet ⟨rfl, rfl⟩ (.inr ⟨rfl, rfl⟩) rfl rfl nofun nofun
    | .ok (_ :: _), _ => exact .quiet ⟨rfl, rfl⟩ (.inr ⟨rfl, rfl⟩) rfl rfl nofun nofun
    | .error (.device e), _ => exact .endDevice ⟨rfl, rfl⟩
    | .error (.context c), ⟨hc, hdone⟩ =>
      subst hc
      exact .interrupt ⟨rfl, rfl⟩ hdone
  | @store f i rest data hp =>
    have hframe : SameFlights s.shared (s.shared.storeCache i data) ∧
        (s.shared.storeCache i data).calls = s.shared.calls := by
      rw [SharedReader.storeCache]
      split <;> exact ⟨⟨rfl, rfl⟩, rfl⟩
    obtain ⟨⟨houtcomes, hnext⟩, hcalls⟩ := hframe
    refine ⟨_, congrArg (Function.update · t _) hcalls, ?_⟩
    rw [hp]
    exact .quiet ⟨houtcomes, hnext⟩ (.inr ⟨rfl, rfl⟩) rfl rfl nofun nofun
  | close hp =>
    refine ⟨_, rfl, ?_⟩
    rw [hp]
    exact .close rfl rfl
  | @cleanup i rest f outcome hp =>
    rw [hp]
    cases outcome with
    | ok data => exact ⟨_, rfl, .quiet ⟨rfl, rfl⟩ (.inl rfl) rfl rfl nofun nofun⟩
    | error e => exact ⟨_, rfl, .leave ⟨rfl, rfl⟩⟩
  | @wake i rest f outcome hp hn ho =>
    rw [hp, ContextReader.record, ho]
    cases outcome with
    | ok data => exact ⟨_, rfl, .wake ⟨rfl, rfl⟩ ho⟩
    | error e => exact ⟨_, rfl, .wakeError ⟨rfl, rfl⟩ ho⟩
  | cancel hp =>
    refine ⟨_, rfl, ?_⟩
    rw [hp]
    exact .giveUp ⟨rfl, rfl⟩ ha

theorem ContextMove.of_step [LinearOrder κ] [Clusterable α κ] [DecidableEq γ]
    {sort : KeySort (sortKey (α := α))} {a : ContextStep α γ ε}
    (hstep : s.step ctxOf sort a = some s') : ContextMove ctxOf s s' := by
  match a with
  | .cancel c =>
    cases hstep
    exact .cancel c
  | .reader (.register points) | .reader (.unregister points) =>
    cases hstep
    exact .replan rfl ⟨rfl, rfl⟩
  | .reader (.plan t points order) =>
    obtain ⟨r, hr, rfl⟩ := Option.map_eq_some_iff.mp hstep
    rw [SharedReader.step] at hr
    split at hr
    case h_1 => contradiction
    case h_2 ht =>
      cases hr
      exact .start ht rfl
  | .reader (.call t a) =>
    obtain ⟨call, ht, hstep⟩ := Option.bind_eq_some_iff.mp hstep
    obtain ⟨r, hr, hstep⟩ := Option.bind_eq_some_iff.mp hstep
    obtain ⟨ha, hstep⟩ := Option.ite_none_right_eq_some.mp hstep
    cases hstep
    obtain ⟨call', hcalls, hm⟩ := ReadMove.of_stepCall hr ha
    exact .call ht hcalls rfl rfl hm
  | .failDirect t e =>
    obtain ⟨call, ht, hstep⟩ := Option.bind_eq_some_iff.mp hstep
    obtain ⟨r, hr, hstep⟩ := Option.bind_eq_some_iff.mp hstep
    obtain ⟨he, hstep⟩ := Option.ite_none_right_eq_some.mp hstep
    cases hstep
    rw [SharedReader.stepCall] at hr
    split at hr
    case h_1 hp =>
      cases hr
      let call' : ReadCall α κ (ReadError γ ε) := { call with phase := .failed }
      have hcalls : (s.shared.setCall t call').calls =
        Function.update s.shared.calls t (some call') := rfl
      exact .call ht hcalls hp rfl (.failDirect ⟨rfl, rfl⟩ he)
    case h_2 => contradiction

/-- What a step does to the reader is a step of the reader, or nothing. -/
theorem shared_step [LinearOrder κ] [Clusterable α κ] [DecidableEq γ]
    {sort : KeySort (sortKey (α := α))} {a : ContextStep α γ ε}
    (hstep : s.step ctxOf sort a = some s') :
    s'.shared = s.shared ∨ ∃ b, s.shared.step sort b = some s'.shared := by
  match a with
  | .cancel c =>
    cases hstep
    exact .inl rfl
  | .reader (.register points) =>
    cases hstep
    exact .inr ⟨.register points, rfl⟩
  | .reader (.unregister points) =>
    cases hstep
    exact .inr ⟨.unregister points, rfl⟩
  | .reader (.plan _ _ _) =>
    obtain ⟨r, hr, rfl⟩ := Option.map_eq_some_iff.mp hstep
    exact .inr ⟨_, hr⟩
  | .reader (.call t a) | .failDirect t e =>
    obtain ⟨call, ht, hstep⟩ := Option.bind_eq_some_iff.mp hstep
    obtain ⟨r, hr, hstep⟩ := Option.bind_eq_some_iff.mp hstep
    obtain ⟨-, hstep⟩ := Option.ite_none_right_eq_some.mp hstep
    cases hstep
    exact .inr ⟨.call t _, Option.bind_eq_some_iff.mpr ⟨call, ht, hr⟩⟩

/-- Contexts add nothing to what a reader does. -/
theorem reachable_shared [LinearOrder κ] [Clusterable α κ] [DecidableEq γ]
    {sort : KeySort (sortKey (α := α))} {config : ClusterConfig}
    (h : (contextSystem ε ctxOf sort config).Reachable (fun _ _ => True) s) :
    (sharedSystem (ReadError γ ε) sort config).Reachable (fun _ _ => True) s.shared := by
  refine h.invariant (I := fun s => (sharedSystem _ sort config).Reachable _ s.shared) .init
    fun s a t hs _ hstep => ?_
  rcases shared_step hstep with heq | ⟨a, ha⟩
  · rw [heq]
    exact hs
  · exact hs.step trivial ha

end Move

end GoIndustrial.Monitor
