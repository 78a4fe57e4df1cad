import GoIndustrial.Lib.Table
import GoIndustrial.Monitor.Contexts

/-!
# The cancellation of one read and the others

A `Read` can fail because the context of another is done, and this happens exactly to those that are
handed the outcome of a flight which its own context has interrupted. Each flight is opened by one
`Read`, and its outcome is final; an error of a context enters by the `Read` that has opened the
flight, and from there goes to those that wait.

## Main definitions

* `Monitor.Interruptions`, `Monitor.Failures`.

## Main results

* `Monitor.failsAlone_iff` : when a `Read` fails because of the context of another.
* `Monitor.not_failsAlone_stopped` : a subscription is stopped, and another gets an error.
-/

namespace GoIndustrial.Monitor

open Plc Clusterable

section Invariant

variable {α κ γ ε : Type} {ctxOf : ℕ → γ} {s s' : ContextReader α κ γ ε} {t : ℕ}
  {call call' : ReadCall α κ (ReadError γ ε)} {r : SharedReader α κ (ReadError γ ε)}
  {p p' : ReadPhase α κ (ReadError γ ε)}

/-! ### Interrupted flights -/

/-- The error of a context comes from the `Read` that has opened the flight. -/
structure Interruptions (ctxOf : ℕ → γ) (s : ContextReader α κ γ ε) : Prop where
  ended : ∀ t call, s.shared.calls t = some call → ∀ f c,
    call.phase.failure? = some (f, .context c) → c = ctxOf t ∧ (f, c) ∈ s.interrupted
  outcomes : ∀ f c, s.shared.outcomes f = some (.error (.context c)) → (f, c) ∈ s.interrupted
  done : ∀ f c, (f, c) ∈ s.interrupted → s.done c = true
  fate : ∀ f c, (f, c) ∈ s.interrupted → s.shared.outcomes f = some (.error (.context c)) ∨
    ∃ t call, s.shared.calls t = some call ∧ call.phase.failure? = some (f, .context c)

/-- A `Read` that has an error from its inner read announces it, if anything. -/
theorem ReadPhase.of_failure? {f : ℕ} {e : ReadError γ ε} (h : p.failure? = some (f, e)) :
    p.lead? = some f ∧ ∀ outcome, p.announced? = some outcome → outcome = .error e := by
  rw [failure?.eq_def] at h
  split at h
  case h_1 stage g e' =>
    cases h
    refine ⟨rfl, fun outcome ho => ?_⟩
    cases stage <;> cases ho
    rfl
  case h_2 => contradiction

theorem ReadPhase.failure?_ended (stage stage' : Stage) {f : ℕ}
    {outcome : Except (ReadError γ ε) (WindowData α κ)} :
    (ended stage f outcome).failure? = (ended stage' f outcome).failure? := by
  cases outcome <;> rfl

theorem ReadMove.frame (hm : ReadMove ctxOf s t r p p' s') :
    s'.shared = r ∧ s'.done = s.done ∧ s.interrupted ⊆ s'.interrupted ∧
      s.failures ⊆ s'.failures ∧ s.handed ⊆ s'.handed := by
  cases hm <;> simp

/-- The outcome of a flight is final. -/
theorem ReadMove.outcomes (hm : ReadMove ctxOf s t r p p' s') (h : FlightInv s.shared)
    (ht : s.shared.calls t = some call) (hp : call.phase = p) {f : ℕ}
    {outcome : Except (ReadError γ ε) (WindowData α κ)}
    (ho : s.shared.outcomes f = some outcome) : s'.shared.outcomes f = some outcome := by
  cases hm with
  | close houtcomes hnext =>
    have hnone := (h.lead t call ht _ (by rw [hp]; rfl)).2
    rw [hp] at hnone
    refine (congrFun houtcomes f).trans ((Function.update_of_ne ?_ _ _).trans ho)
    rintro rfl
    exact Option.some_ne_none _ (ho.symm.trans hnone)
  | lead houtcomes => exact (congrFun houtcomes f).trans ho
  | quiet hsame | endDevice hsame | interrupt hsame | leave hsame | wake hsame | wakeError hsame
  | giveUp hsame | failDirect hsame => exact (congrFun hsame.outcomes f).trans ho

/-- An error of a context that a `Read` gets from its inner read is that of its own context. -/
theorem Interruptions.ended_readMove (h : Interruptions ctxOf s)
    (ht : s.shared.calls t = some call) (hp : call.phase = p)
    (hm : ReadMove ctxOf s t r p p' s') {f : ℕ} {c : γ}
    (hf : p'.failure? = some (f, .context c)) : c = ctxOf t ∧ (f, c) ∈ s'.interrupted := by
  cases hm with
  | quiet hsame hlead hfailure hfailure' =>
    rw [hfailure'] at hf
    contradiction
  | interrupt =>
    cases hf
    exact ⟨rfl, List.mem_append_right _ List.mem_cons_self⟩
  | close =>
    rw [ReadPhase.failure?_ended .cleanup .close, ← hp] at hf
    exact h.ended t call ht f c hf
  | lead | endDevice | leave | wake | wakeError | giveUp | failDirect => cases hf

/-- An interrupted flight stays with its `Read` until its outcome is known. -/
theorem Interruptions.fate_readMove (hflights : FlightInv s.shared)
    (ht : s.shared.calls t = some call) (hp : call.phase = p)
    (hm : ReadMove ctxOf s t r p p' s') {f : ℕ} {e : ReadError γ ε}
    (hf : p.failure? = some (f, e)) :
    s'.shared.outcomes f = some (.error e) ∨ p'.failure? = some (f, e) := by
  cases hm with
  | quiet hsame hlead hfailure =>
    rw [hfailure] at hf
    contradiction
  | close => exact .inr ((ReadPhase.failure?_ended _ _).trans hf)
  | leave hsame =>
    cases hf
    have hann := (hflights.lead t call ht f (by rw [hp]; rfl)).2
    rw [hp] at hann
    exact .inl ((congrFun hsame.outcomes f).trans hann)
  | lead | endDevice | interrupt | wake | wakeError | giveUp | failDirect => cases hf

theorem Interruptions.outcomes_readMove (h : Interruptions ctxOf s)
    (ht : s.shared.calls t = some call) (hp : call.phase = p)
    (hm : ReadMove ctxOf s t r p p' s') {f : ℕ} {c : γ}
    (ho : s'.shared.outcomes f = some (.error (.context c))) : (f, c) ∈ s'.interrupted := by
  refine hm.frame.2.2.1 ?_
  cases hm with
  | @close g outcome houtcomes hnext =>
    rcases Table.update_some_eq_some.mp ((congrFun houtcomes f).symm.trans ho) with
      ⟨rfl, rfl⟩ | ⟨hne, ho⟩
    · exact (h.ended t call ht f c (by rw [hp]; rfl)).2
    · exact h.outcomes f c ho
  | lead houtcomes => exact h.outcomes f c ((congrFun houtcomes f).symm.trans ho)
  | quiet hsame | endDevice hsame | interrupt hsame | leave hsame | wake hsame | wakeError hsame
  | giveUp hsame | failDirect hsame =>
    exact h.outcomes f c ((congrFun hsame.outcomes f).symm.trans ho)

theorem ReadMove.interrupted (hm : ReadMove ctxOf s t r p p' s') {f : ℕ} {c : γ}
    (hmem : (f, c) ∈ s'.interrupted) : (f, c) ∈ s.interrupted ∨
      s.done c = true ∧ p'.failure? = some (f, .context c) := by
  cases hm with
  | interrupt hsame hdone =>
    refine (List.mem_append.mp hmem).imp_right fun hnew => ?_
    cases List.mem_singleton.mp hnew
    exact ⟨hdone, rfl⟩
  | quiet | lead | endDevice | close | leave | wake | wakeError | giveUp | failDirect =>
    exact .inl hmem

theorem Interruptions.readMove (h : Interruptions ctxOf s) (hflights : FlightInv s.shared)
    (ht : s.shared.calls t = some call)
    (hcalls : r.calls = Function.update s.shared.calls t (some call')) (hp : call.phase = p)
    (hp' : call'.phase = p') (hm : ReadMove ctxOf s t r p p' s') : Interruptions ctxOf s' := by
  obtain ⟨hr, hdone, hsub, -⟩ := hm.frame
  have hself : s'.shared.calls t = some call' := by rw [hr, hcalls, Function.update_self]
  refine ⟨?_, fun f c ho => ?_, fun f c hmem => ?_, fun f c hmem => ?_⟩
  · rw [hr, hcalls]
    refine Table.forall_update_some (fun u call₁ hu f c hf => ?_) fun f c hf => ?_
    · exact (h.ended u call₁ hu f c hf).imp_right (hsub ·)
    · exact h.ended_readMove ht hp hm (hp' ▸ hf)
  · exact h.outcomes_readMove ht hp hm ho
  · rw [hdone]
    exact (hm.interrupted hmem).elim (h.done f c) And.left
  · rcases hm.interrupted hmem with hold | ⟨-, hnew⟩
    · rcases h.fate f c hold with ho | ⟨u, call₁, hu, hf⟩
      · exact .inl (hm.outcomes hflights ht hp ho)
      · rcases eq_or_ne u t with rfl | hne
        · obtain rfl := Option.some.inj (ht.symm.trans hu)
          refine (fate_readMove hflights ht hp hm (hp ▸ hf)).imp_right fun hf' => ?_
          exact ⟨u, call', hself, hp' ▸ hf'⟩
        · refine .inr ⟨u, call₁, ?_, hf⟩
          rw [hr, hcalls, Function.update_of_ne hne, hu]
    · exact .inr ⟨t, call', hself, hp' ▸ hnew⟩

theorem Interruptions.contextMove [DecidableEq γ] (h : Interruptions ctxOf s)
    (hflights : FlightInv s.shared) (hm : ContextMove ctxOf s s') : Interruptions ctxOf s' := by
  cases hm with
  | cancel c =>
    refine { h with done := fun f c' hmem => ?_ }
    have hdone := h.done f c' hmem
    rcases eq_or_ne c' c with rfl | hne
    · exact Function.update_self _ _ _
    · exact (Function.update_of_ne hne _ _).trans hdone
  | replan hcalls hsame =>
    refine ⟨?_, ?_, h.done, ?_⟩
    · exact hcalls ▸ h.ended
    · exact hsame.outcomes ▸ h.outcomes
    · exact hcalls ▸ hsame.outcomes ▸ h.fate
  | @start t call ht hphase =>
    refine ⟨?_, h.outcomes, h.done, fun f c hmem => ?_⟩
    · refine Table.forall_update_some h.ended fun f c hf => ?_
      rw [hphase] at hf
      contradiction
    · refine (h.fate f c hmem).imp_right ?_
      rintro ⟨u, call₁, hu, hf⟩
      refine ⟨u, call₁, (Function.update_of_ne ?_ _ _).trans hu, hf⟩
      rintro rfl
      rw [ht] at hu
      contradiction
  | call ht hcalls hp hp' hm => exact h.readMove hflights ht hcalls hp hp' hm

/-! ### Failed reads -/

/-- The calls that failed, and where their errors come from. -/
structure Failures (ctxOf : ℕ → γ) (s : ContextReader α κ γ ε) : Prop where
  failed : ∀ t, (∃ e, (t, e) ∈ s.failures) ↔
    ∃ call, s.shared.calls t = some call ∧ call.phase = .failed
  handed : ∀ t f, (t, f) ∈ s.handed → ∃ outcome, s.shared.outcomes f = some outcome ∧
    ∀ e, outcome = .error e → (t, e) ∈ s.failures
  context : ∀ t c, (t, .context c) ∈ s.failures → c = ctxOf t ∧ s.done c = true ∨
    ∃ f, (t, f) ∈ s.handed ∧ (f, c) ∈ s.interrupted

/-- A step that adds to the failures is the last one of a `Read`. -/
theorem ReadMove.failures (hm : ReadMove ctxOf s t r p p' s') :
    p ≠ .failed ∧ ∃ l, s'.failures = s.failures ++ l ∧ (∀ x ∈ l, x.1 = t) ∧
      (l ≠ [] ↔ p' = .failed) := by
  cases hm with
  | quiet hsame hlead hfailure hfailure' hfailed hfailed' =>
    exact ⟨hfailed, [], (List.append_nil _).symm, nofun, fun h => absurd rfl h,
      fun h => absurd h hfailed'⟩
  | lead | endDevice | interrupt | close | wake =>
    exact ⟨nofun, [], (List.append_nil _).symm, nofun, fun h => absurd rfl h, nofun⟩
  | leave | wakeError | giveUp | failDirect => exact ⟨nofun, _, rfl, by simp, by simp⟩

theorem Failures.failed_readMove (h : Failures ctxOf s) (ht : s.shared.calls t = some call)
    (hcalls : r.calls = Function.update s.shared.calls t (some call')) (hp : call.phase = p)
    (hp' : call'.phase = p') (hm : ReadMove ctxOf s t r p p' s') (u : ℕ) :
    (∃ e, (u, e) ∈ s'.failures) ↔
      ∃ call, s'.shared.calls u = some call ∧ call.phase = .failed := by
  obtain ⟨hr, -⟩ := hm.frame
  obtain ⟨hnot, l, hl, hown, hlast⟩ := hm.failures
  rw [hr, hcalls, hl]
  have hold := h.failed u
  rcases eq_or_ne u t with rfl | hne
  · have hnone : ¬∃ e, (u, e) ∈ s.failures := by
      rw [hold]
      rintro ⟨call₁, hu, hf⟩
      obtain rfl := Option.some.inj (ht.symm.trans hu)
      exact hnot (hp ▸ hf)
    rw [Function.update_self]
    constructor
    · rintro ⟨e, he⟩
      rcases List.mem_append.mp he with he | he
      · exact absurd ⟨e, he⟩ hnone
      · exact ⟨call', rfl, hp'.trans (hlast.mp (List.ne_nil_of_mem he))⟩
    · rintro ⟨call₁, hu, hf⟩
      obtain rfl := Option.some.inj hu
      obtain ⟨⟨v, e⟩, he⟩ := List.exists_mem_of_ne_nil l (hlast.mpr (hp' ▸ hf))
      obtain rfl : v = u := hown _ he
      exact ⟨e, List.mem_append_right _ he⟩
  · rw [Function.update_of_ne hne, ← hold]
    refine exists_congr fun e => ⟨fun he => ?_, List.mem_append_left _⟩
    exact (List.mem_append.mp he).resolve_right fun he => hne (hown _ he)

theorem Failures.handed_readMove (h : Failures ctxOf s) (hflights : FlightInv s.shared)
    (ht : s.shared.calls t = some call) (hp : call.phase = p)
    (hm : ReadMove ctxOf s t r p p' s') {u f : ℕ} (hmem : (u, f) ∈ s'.handed) :
    ∃ outcome, s'.shared.outcomes f = some outcome ∧
      ∀ e, outcome = .error e → (u, e) ∈ s'.failures := by
  obtain ⟨-, -, -, hsub, -⟩ := hm.frame
  have hkeep (hmem : (u, f) ∈ s.handed) : ∃ outcome, s'.shared.outcomes f = some outcome ∧
      ∀ e, outcome = .error e → (u, e) ∈ s'.failures := by
    obtain ⟨outcome, ho, he⟩ := h.handed u f hmem
    exact ⟨outcome, hm.outcomes hflights ht hp ho, fun e heq => hsub (he e heq)⟩
  cases hm with
  | wake hsame houtcome =>
    rcases List.mem_append.mp hmem with hmem | hmem
    · exact hkeep hmem
    · cases List.mem_singleton.mp hmem
      exact ⟨_, (congrFun hsame.outcomes f).trans houtcome, nofun⟩
  | wakeError hsame houtcome =>
    rcases List.mem_append.mp hmem with hmem | hmem
    · exact hkeep hmem
    · cases List.mem_singleton.mp hmem
      refine ⟨_, (congrFun hsame.outcomes f).trans houtcome, ?_⟩
      rintro e ⟨⟩
      exact List.mem_append_right _ List.mem_cons_self
  | quiet | lead | endDevice | interrupt | close | leave | giveUp | failDirect => exact hkeep hmem

theorem Failures.context_readMove (h : Failures ctxOf s) (hint : Interruptions ctxOf s)
    (ht : s.shared.calls t = some call) (hp : call.phase = p)
    (hm : ReadMove ctxOf s t r p p' s') {u : ℕ} {c : γ}
    (hmem : (u, .context c) ∈ s'.failures) : c = ctxOf u ∧ s.done c = true ∨
      ∃ f, (u, f) ∈ s'.handed ∧ (f, c) ∈ s'.interrupted := by
  obtain ⟨-, -, hsub, -, hsub'⟩ := hm.frame
  have hkeep (hmem : (u, .context c) ∈ s.failures) : c = ctxOf u ∧ s.done c = true ∨
      ∃ f, (u, f) ∈ s'.handed ∧ (f, c) ∈ s'.interrupted := by
    refine (h.context u c hmem).imp_right ?_
    rintro ⟨f, hf, hc⟩
    exact ⟨f, hsub' hf, hsub hc⟩
  cases hm with
  | @leave f e hsame =>
    rcases List.mem_append.mp hmem with hmem | hmem
    · exact hkeep hmem
    · cases List.mem_singleton.mp hmem
      obtain ⟨hc, hc'⟩ := hint.ended t call ht f c (by rw [hp]; rfl)
      exact .inl ⟨hc, hint.done f c hc'⟩
  | @wakeError f e hsame houtcome =>
    rcases List.mem_append.mp hmem with hmem | hmem
    · exact hkeep hmem
    · cases List.mem_singleton.mp hmem
      exact .inr ⟨f, List.mem_append_right _ List.mem_cons_self, hint.outcomes f c houtcome⟩
  | giveUp hsame hdone =>
    rcases List.mem_append.mp hmem with hmem | hmem
    · exact hkeep hmem
    · cases List.mem_singleton.mp hmem
      exact .inl ⟨rfl, hdone⟩
  | failDirect hsame he =>
    rcases List.mem_append.mp hmem with hmem | hmem
    · exact hkeep hmem
    · cases List.mem_singleton.mp hmem
      obtain ⟨rfl, hdone⟩ := he
      exact .inl ⟨rfl, hdone⟩
  | quiet | lead | endDevice | interrupt | close | wake => exact hkeep hmem

theorem Failures.contextMove [DecidableEq γ] (h : Failures ctxOf s) (hflights : FlightInv s.shared)
    (hint : Interruptions ctxOf s) (hm : ContextMove ctxOf s s') : Failures ctxOf s' := by
  cases hm with
  | cancel c =>
    refine { h with context := fun t c' hmem => ?_ }
    refine (h.context t c' hmem).imp_left (And.imp_right fun hdone => ?_)
    rcases eq_or_ne c' c with rfl | hne
    · exact Function.update_self _ _ _
    · exact (Function.update_of_ne hne _ _).trans hdone
  | replan hcalls hsame =>
    exact ⟨hcalls ▸ h.failed, hsame.outcomes ▸ h.handed, h.context⟩
  | @start t call ht hphase =>
    refine ⟨fun u => (h.failed u).trans ?_, h.handed, h.context⟩
    rcases eq_or_ne u t with rfl | hne
    · simp [SharedReader.setCall, ht, hphase]
    · simp [SharedReader.setCall, hne]
  | call ht hcalls hp hp' hm =>
    refine ⟨h.failed_readMove ht hcalls hp hp' hm,
      fun u f hmem => h.handed_readMove hflights ht hp hm hmem, fun u c hmem => ?_⟩
    rw [hm.frame.2.1]
    exact h.context_readMove hint ht hp hm hmem

end Invariant

/-! ### Errors of others -/

section FailsAlone

variable {α κ γ ε : Type} {ctxOf : ℕ → γ} {s : ContextReader α κ γ ε}

/-- The invariant of a reader under contexts. -/
structure ContextInv (ctxOf : ℕ → γ) (s : ContextReader α κ γ ε) : Prop where
  flights : FlightInv s.shared
  interruptions : Interruptions ctxOf s
  failures : Failures ctxOf s

/-- Whoever is handed the outcome of an interrupted flight fails with the error of its context. -/
theorem ContextInv.failure_of_handed (h : ContextInv ctxOf s) {t f : ℕ} {c : γ}
    (hf : (t, f) ∈ s.handed) (hc : (f, c) ∈ s.interrupted) : (t, .context c) ∈ s.failures := by
  obtain ⟨outcome, ho, he⟩ := h.failures.handed t f hf
  refine he _ ?_
  rcases h.interruptions.fate f c hc with ho' | ⟨u, call, hu, hfail⟩
  · exact Option.some.inj (ho.symm.trans ho')
  · -- the flight has been closed, so that its outcome is the one of the `Read` that leads it
    obtain ⟨hlead, hann⟩ := ReadPhase.of_failure? hfail
    exact hann outcome ((h.flights.lead u call hu f hlead).2.symm.trans ho)

variable [LinearOrder κ] [Clusterable α κ] [DecidableEq γ] {sort : KeySort (sortKey (α := α))}
  {config : ClusterConfig}

theorem contextInv_of_reachable
    (h : (contextSystem ε ctxOf sort config).Reachable (fun _ _ => True) s) :
    ContextInv ctxOf s := by
  refine h.invariant ?_ fun s a t hs _ hstep => ?_
  · constructor <;> constructor <;> simp [contextSystem, sharedSystem]
  · have hm := ContextMove.of_step hstep
    refine ⟨?_, hs.interruptions.contextMove hs.flights hm,
      hs.failures.contextMove hs.flights hs.interruptions hm⟩
    rcases shared_step hstep with heq | ⟨b, hb⟩
    · rw [heq]
      exact hs.flights
    · exact hs.flights.step hb

variable (ctxOf sort config s)

/-- In every interleaving, a `Read` fails by itself, that is because the device fails or because its
own context is done, unless it was handed the outcome of a flight that another context had
interrupted. The same holds of the error events of subscriptions. -/
theorem failsAlone_iff
    (h : (contextSystem ε ctxOf sort config).Reachable (fun _ _ => True) s) :
    (∀ t, (∀ e, (t, e) ∈ s.failures →
        (∃ d, e = .device d) ∨ e = .context (ctxOf t) ∧ s.done (ctxOf t) = true) ↔
      ∀ f c, (t, f) ∈ s.handed → (f, c) ∈ s.interrupted → c = ctxOf t) ∧
    ((∀ i c, (i, .context c) ∈ s.errorEvents ctxOf → c = i) ↔
      ∀ t f c, (t, f) ∈ s.handed → (f, c) ∈ s.interrupted → c = ctxOf t) := by
  have hinv := contextInv_of_reachable h
  refine ⟨fun t => ⟨fun halone f c hf hc => ?_, fun hnone e he => ?_⟩,
    fun halone t f c hf hc => ?_, fun hnone i c hmem => ?_⟩
  · rcases halone _ (hinv.failure_of_handed hf hc) with ⟨d, hd⟩ | ⟨hown, -⟩
    · contradiction
    · exact ReadError.context.inj hown
  · cases e with
    | device d => exact .inl ⟨d, rfl⟩
    | context c =>
      rcases hinv.failures.context t c he with ⟨rfl, hdone⟩ | ⟨f, hf, hc⟩
      · exact .inr ⟨rfl, hdone⟩
      · obtain rfl := hnone f c hf hc
        exact .inr ⟨rfl, hinv.interruptions.done f _ hc⟩
  · exact halone _ c (List.mem_map.mpr ⟨_, hinv.failure_of_handed hf hc, rfl⟩)
  · obtain ⟨⟨t, e⟩, he, heq⟩ := List.mem_map.mp hmem
    obtain ⟨rfl, rfl⟩ := Prod.mk.inj heq
    rcases hinv.failures.context t c he with ⟨hown, -⟩ | ⟨f, hf, hc⟩
    · exact hown
    · exact hnone t f c hf hc

end FailsAlone

/-- A `Read` is interrupted while nobody waits for it. Of the two that wait for the next one, the
first is served and the second gives up when its own context is done. -/
theorem failsAlone_unshared :
    ∃ s : ContextReader Modbus.Point Modbus.Area ℕ Empty,
      (contextSystem Empty id (.insertion sortKey) defaultClusterConfig).Reachable
        (fun _ _ => True) s ∧
      s.failures = [(1, .context 1), (4, .context 4)] ∧ s.handed = [(3, 1)] ∧
      s.interrupted = [(0, 1)] ∧ ∀ i c, (i, .context c) ∈ s.errorEvents id → c = i := by
  let p : DataPoint Modbus.Point := .clusterable (.holdingRegister 0 1)
  let ask (t : ℕ) : List (ContextStep Modbus.Point ℕ Empty) :=
    [.reader (.plan t [p] .asGiven), .reader (.call t (.direct true)),
      .reader (.call t (.lookup true)), .reader (.call t .join)]
  let interrupt : List (ContextStep Modbus.Point ℕ Empty) :=
    [.cancel 1, .reader (.call 1 (.endRead (.error (.context 1)))), .reader (.call 1 .close),
      .reader (.call 1 .cleanup)]
  let serve : List (ContextStep Modbus.Point ℕ Empty) :=
    [.cancel 4, .reader (.call 4 .cancel), .reader (.call 2 (.endRead (.ok [default]))),
      .reader (.call 2 .store), .reader (.call 2 .close), .reader (.call 3 .wake)]
  obtain ⟨s, hs, hseen⟩ := TransitionSystem.exists_reachable_of_exec
    (M := contextSystem Empty id (.insertion sortKey) defaultClusterConfig)
    (G := fun _ _ => True) (f := fun s => (s.failures, s.handed, s.interrupted))
    (b := ([(1, .context 1), (4, .context 4)], [(3, 1)], [(0, 1)]))
    (.reader (.register [p]) :: ask 1 ++ interrupt ++ ask 2 ++ ask 3 ++ ask 4 ++ serve)
    (by decide +kernel)
  obtain ⟨hfailures, hhanded, hinterrupted⟩ : s.failures = [(1, .context 1), (4, .context 4)] ∧
    s.handed = [(3, 1)] ∧ s.interrupted = [(0, 1)] := by simpa using hseen
  refine ⟨s, hs, hfailures, hhanded, hinterrupted, ?_⟩
  refine (failsAlone_iff _ _ _ _ hs).2.mpr fun t f c hf hc => ?_
  rw [hhanded] at hf
  rw [hinterrupted] at hc
  cases List.mem_singleton.mp hf
  cases List.mem_singleton.mp hc

/-- Two subscriptions poll registers of one window, and the second waits for the read of the first.
The first subscription is stopped: its point is unregistered and its context canceled. The second
`Read` fails with the error of this context, although its own context is live and the device has not
failed, and its subscription emits an error event. -/
theorem not_failsAlone_stopped :
    ∃ s : ContextReader Modbus.Point Modbus.Area ℕ Empty,
      (contextSystem Empty id (.insertion sortKey) defaultClusterConfig).Reachable
        (fun _ _ => True) s ∧
      s.done 2 = false ∧ (2, .context 1) ∈ s.failures ∧ (2, .context 1) ∈ s.errorEvents id := by
  let p : DataPoint Modbus.Point := .clusterable (.holdingRegister 0 1)
  let q : DataPoint Modbus.Point := .clusterable (.holdingRegister 1 1)
  let ask (t : ℕ) (p : DataPoint Modbus.Point) : List (ContextStep Modbus.Point ℕ Empty) :=
    [.reader (.plan t [p] .asGiven), .reader (.call t (.direct true)),
      .reader (.call t (.lookup true)), .reader (.call t .join)]
  let stop : List (ContextStep Modbus.Point ℕ Empty) :=
    [.reader (.unregister [p]), .cancel 1,
      .reader (.call 1 (.endRead (.error (.context 1)))), .reader (.call 1 .close),
      .reader (.call 1 .cleanup), .reader (.call 2 .wake)]
  obtain ⟨s, hs, hseen⟩ := TransitionSystem.exists_reachable_of_exec
    (M := contextSystem Empty id (.insertion sortKey) defaultClusterConfig)
    (G := fun _ _ => True) (f := fun s => (s.done 2, s.failures))
    (b := (false, [(1, .context 1), (2, .context 1)]))
    (.reader (.register [p]) :: .reader (.register [q]) :: ask 1 p ++ ask 2 q ++ stop)
    (by decide +kernel)
  obtain ⟨hlive, hfailures⟩ : s.done 2 = false ∧
    s.failures = [(1, .context 1), (2, .context 1)] := by simpa using hseen
  refine ⟨s, hs, hlive, ?_, ?_⟩
  · rw [hfailures]
    decide
  · rw [ContextReader.errorEvents, hfailures]
    decide

end GoIndustrial.Monitor
