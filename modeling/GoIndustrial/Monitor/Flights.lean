import GoIndustrial.Lib.Table
import GoIndustrial.Monitor.Cache

/-!
# Flights and the reads that lead them

A flight is opened by one `Read`, which performs the inner read of its window, announces the outcome
and then takes the entry out of the table. Until then the entry stands in the table under the key of
the window, so that no other `Read` opens a flight for it; and a flight without an outcome is led by
a `Read` that is still under way.

## Main definitions

* `Monitor.ReadPhase.lead?`, `Monitor.ReadPhase.announced?`.
* `Monitor.FlightInv` : flights are led by one `Read` each.
* `Monitor.EntryInv` : the entries of the flights that are led.

## Main results

* `Monitor.FlightInv.step`, `Monitor.EntryInv.step` : every step keeps them.
* `Monitor.FlightInv.outcome_final` : the outcome of a flight is final.
-/

namespace GoIndustrial.Monitor

open Plc Clusterable

namespace ReadPhase

variable {α κ ε : Type}

/-- The flight that a `Read` has opened. -/
def lead? : ReadPhase α κ ε → Option ℕ
  | .reading f | .ended _ f _ => some f
  | _ => none

/-- What the waiting calls can see of the flight that a `Read` has opened. -/
def announced? : ReadPhase α κ ε → Option (Except ε (WindowData α κ))
  | .ended .cleanup _ outcome => some outcome
  | _ => none

end ReadPhase

variable {α κ ε : Type} {s s' : SharedReader α κ ε} {t : ℕ} {call call' : ReadCall α κ ε}
  {a : CallStep α ε}

theorem lead?_ended {w : ReadWindow α κ} {f : ℕ} (answer : Except ε (List (Value α))) :
    (w.ended f answer).lead? = some f ∧ (w.ended f answer).announced? = none := by
  rcases answer with e | _ | ⟨val, vals⟩ <;> exact ⟨rfl, rfl⟩

theorem lead?_receive (call : ReadCall α κ ε) (i : ℕ) (outcome : Except ε (WindowData α κ)) :
    (call.receive i outcome).phase.lead? = none := by
  cases outcome <;> rfl

theorem gen_receive (call : ReadCall α κ ε) (i : ℕ) (outcome : Except ε (WindowData α κ)) :
    (call.receive i outcome).gen = call.gen := by
  cases outcome <;> rfl

/-- Storing changes the cache alone. -/
theorem SharedReader.storeCache_frame (s : SharedReader α κ ε) (i : ℕ) (data : WindowData α κ) :
    (s.storeCache i data).calls = s.calls ∧ (s.storeCache i data).flights = s.flights ∧
      (s.storeCache i data).nextFlight = s.nextFlight ∧
      (s.storeCache i data).outcomes = s.outcomes := by
  unfold SharedReader.storeCache
  split_ifs <;> exact ⟨rfl, rfl, rfl, rfl⟩

/-! ### Leading -/

/-- A flight has been opened by one `Read`, and its outcome is known when this has closed it. -/
structure FlightInv (s : SharedReader α κ ε) : Prop where
  lead : ∀ t call, s.calls t = some call → ∀ f, call.phase.lead? = some f →
    f < s.nextFlight ∧ s.outcomes f = call.phase.announced?
  unique : ∀ t call u call', s.calls t = some call → s.calls u = some call' →
    ∀ f, call.phase.lead? = some f → call'.phase.lead? = some f → t = u
  known : ∀ f outcome, s.outcomes f = some outcome → f < s.nextFlight

namespace FlightInv

/-- A `Read` goes on, with a flight that is its own or new, if it has one. -/
theorem change (h : FlightInv s) (ht : s.calls t = some call)
    (hcalls : s'.calls = Function.update s.calls t (some call'))
    (hnext : s.nextFlight ≤ s'.nextFlight)
    (hlead : ∀ f, call'.phase.lead? = some f →
      (call.phase.lead? = some f ∨ f = s.nextFlight) ∧
        f < s'.nextFlight ∧ s'.outcomes f = call'.phase.announced?)
    (hother : ∀ f, call.phase.lead? ≠ some f → s'.outcomes f = s.outcomes f) : FlightInv s' := by
  -- no other `Read` has the flight
  have haway : ∀ u call₁ f, u ≠ t → s.calls u = some call₁ → call₁.phase.lead? = some f →
      call'.phase.lead? ≠ some f := by
    intro u call₁ f hne hu hf hf'
    rcases (hlead f hf').1 with hown | rfl
    · exact hne (h.unique u call₁ t call hu ht f hf hown)
    · exact (h.lead u call₁ hu _ hf).1.ne rfl
  refine ⟨?_, fun u call₁ v call₂ hu hv f hf hf' => ?_, fun f outcome ho => ?_⟩
  · rw [hcalls]
    refine fun u call₁ hu f hf => ?_
    rcases Table.update_some_eq_some.mp hu with ⟨rfl, rfl⟩ | ⟨hne, hu⟩
    · exact (hlead f hf).2
    · obtain ⟨hlt, ho⟩ := h.lead u call₁ hu f hf
      have hnot : call.phase.lead? ≠ some f := fun hown => hne (h.unique _ _ _ _ hu ht f hf hown)
      exact ⟨hlt.trans_le hnext, (hother f hnot).trans ho⟩
  · rw [hcalls] at hu hv
    rcases Table.update_some_eq_some.mp hu with ⟨rfl, rfl⟩ | ⟨hne, hu₁⟩ <;>
      rcases Table.update_some_eq_some.mp hv with ⟨rfl, rfl⟩ | ⟨hne', hv₁⟩
    · rfl
    · exact absurd hf (haway v call₂ f hne' hv₁ hf')
    · exact absurd hf' (haway u call₁ f hne hu₁ hf)
    · exact h.unique u call₁ v call₂ hu₁ hv₁ f hf hf'
  · by_cases hf : call.phase.lead? = some f
    · exact (h.lead t call ht f hf).1.trans_le hnext
    · rw [hother f hf] at ho
      exact (h.known f outcome ho).trans_le hnext

/-- A `Read` goes on with its flight as it was, or without one. -/
theorem stay (h : FlightInv s) (ht : s.calls t = some call)
    (hcalls : s'.calls = Function.update s.calls t (some call'))
    (hnext : s'.nextFlight = s.nextFlight) (houtcomes : s'.outcomes = s.outcomes)
    (hstay : ∀ f, call'.phase.lead? = some f →
      call.phase.lead? = some f ∧ call'.phase.announced? = call.phase.announced?) :
    FlightInv s' := by
  refine h.change ht hcalls hnext.ge (fun f hf => ?_) fun f _ => congrFun houtcomes f
  obtain ⟨hown, hann⟩ := hstay f hf
  obtain ⟨hlt, ho⟩ := h.lead t call ht f hown
  rw [hnext, houtcomes, hann]
  exact ⟨.inl hown, hlt, ho⟩

/-- The step of a `Read` keeps the invariant. -/
theorem callMove (h : FlightInv s) (ht : s.calls t = some call) (hm : CallMove s t call a s') :
    FlightInv s' := by
  have hlead := h.lead t call ht
  cases hm with
  | @direct ok hp => exact h.stay ht rfl rfl rfl (by cases ok <;> nofun)
  | hit | miss | wait | cancel | extract => exact h.stay ht rfl rfl rfl nofun
  | lead hp =>
    refine h.change ht rfl (Nat.le_succ _) (fun f hf => ?_) fun f _ => rfl
    cases hf
    refine ⟨.inr rfl, Nat.lt_succ_self _, ?_⟩
    exact Option.eq_none_iff_forall_ne_some.mpr fun o ho => (h.known _ o ho).ne rfl
  | @endRead answer f i rest w hp =>
    obtain ⟨hf, hann⟩ := lead?_ended (w := w) (f := f) answer
    refine h.stay ht rfl rfl rfl fun g hg => ?_
    change (w.ended f answer).lead? = some g at hg
    rw [hp]
    exact ⟨hf.symm.trans hg, hann⟩
  | @store f i rest data hp =>
    obtain ⟨hcalls, -, hnext, houtcomes⟩ := s.storeCache_frame i data
    refine h.stay ht (congrArg (Function.update · t _) hcalls) hnext houtcomes fun g hg => ?_
    rw [hp]
    exact ⟨hg, rfl⟩
  | @close f outcome hp =>
    rw [hp] at hlead
    refine h.change ht rfl le_rfl (fun g hg => ?_) fun g hg => ?_
    · cases hg
      rw [hp]
      exact ⟨.inl rfl, (hlead f rfl).1, Function.update_self _ _ _⟩
    · rw [hp] at hg
      exact Function.update_of_ne (fun heq => hg (congrArg some heq.symm)) _ _
  | @cleanup i rest f outcome hp | @wake i rest f outcome hp =>
    refine h.stay ht rfl rfl rfl fun g hg => ?_
    rw [lead?_receive] at hg
    cases hg

/-- A `Read` begins. -/
theorem start (h : FlightInv s) (hphase : call.phase = .direct) : FlightInv (s.setCall t call) := by
  have hnone : call.phase.lead? = none := by
    rw [hphase]
    rfl
  refine ⟨?_, fun u call₁ v call₂ hu hv f hf hf' => ?_, h.known⟩
  · exact Table.forall_update_some h.lead fun f hf => by
      rw [hnone] at hf
      contradiction
  · rcases Table.update_some_eq_some.mp hu with ⟨-, rfl⟩ | ⟨-, hu⟩
    · rw [hnone] at hf
      contradiction
    rcases Table.update_some_eq_some.mp hv with ⟨-, rfl⟩ | ⟨-, hv⟩
    · rw [hnone] at hf'
      contradiction
    exact h.unique u call₁ v call₂ hu hv f hf hf'

/-- The outcome of a flight is final. -/
theorem outcome_final (h : FlightInv s) (ht : s.calls t = some call)
    (hm : CallMove s t call a s') {f : ℕ} {outcome : Except ε (WindowData α κ)}
    (ho : s.outcomes f = some outcome) : s'.outcomes f = some outcome := by
  cases hm with
  | @close g outcome' hp =>
    have hnone := (h.lead t call ht g (by rw [hp]; rfl)).2
    rw [hp] at hnone
    refine (Function.update_of_ne ?_ _ _).trans ho
    rintro rfl
    exact Option.some_ne_none _ (ho.symm.trans hnone)
  | @store g i rest data => exact (congrFun (s.storeCache_frame i data).2.2.2 f).trans ho
  | direct | hit | miss | wait | lead | endRead | cleanup | wake | cancel | extract => exact ho

end FlightInv

/-! ### Entries -/

/-- The flight that a `Read` leads has its entry in the table, under the key of its window, and a
flight without an outcome is led. -/
structure EntryInv (s : SharedReader α κ ε) : Prop where
  entry : ∀ t call, s.calls t = some call → ∀ f, call.phase.lead? = some f →
    ∀ i ∈ call.needed.head?, s.flights (call.gen, i) = some f
  led : ∀ f < s.nextFlight, s.outcomes f = none →
    ∃ t call, s.calls t = some call ∧ call.phase.lead? = some f

namespace EntryInv

/-- A `Read` goes on with its flight, or without one whose outcome is known. -/
theorem change (h : EntryInv s) (ht : s.calls t = some call)
    (hcalls : s'.calls = Function.update s.calls t (some call'))
    (hentry : ∀ f, call'.phase.lead? = some f → ∀ i ∈ call'.needed.head?,
      s'.flights (call'.gen, i) = some f)
    (hkeep : ∀ u call₁, u ≠ t → s.calls u = some call₁ → ∀ f, call₁.phase.lead? = some f →
      ∀ i ∈ call₁.needed.head?, s.flights (call₁.gen, i) = some f →
        s'.flights (call₁.gen, i) = some f)
    (hled : ∀ f < s'.nextFlight, s'.outcomes f = none →
      (f < s.nextFlight ∧ s.outcomes f = none ∧ call.phase.lead? ≠ some f) ∨
        call'.phase.lead? = some f) : EntryInv s' := by
  refine ⟨fun u call₁ hu f hf i hi => ?_, fun f hf ho => ?_⟩
  · rw [hcalls] at hu
    rcases Table.update_some_eq_some.mp hu with ⟨rfl, rfl⟩ | ⟨hne, hu⟩
    · exact hentry f hf i hi
    · exact hkeep u call₁ hne hu f hf i hi (h.entry u call₁ hu f hf i hi)
  · rw [hcalls]
    rcases hled f hf ho with ⟨hf, ho, hnot⟩ | hnew
    · obtain ⟨u, call₁, hu, hlead⟩ := h.led f hf ho
      have hne : u ≠ t := by
        rintro rfl
        obtain rfl := Option.some.inj (ht.symm.trans hu)
        exact hnot hlead
      exact ⟨u, call₁, (Function.update_of_ne hne _ _).trans hu, hlead⟩
    · exact ⟨t, call', Function.update_self _ _ _, hnew⟩

/-- A `Read` goes on with its flight as it was, or without one as before. -/
theorem stay (h : EntryInv s) (ht : s.calls t = some call)
    (hcalls : s'.calls = Function.update s.calls t (some call'))
    (hflights : s'.flights = s.flights) (hnext : s'.nextFlight = s.nextFlight)
    (houtcomes : s'.outcomes = s.outcomes) (hlead : call'.phase.lead? = call.phase.lead?)
    (hgen : call'.gen = call.gen)
    (hneeded : call.phase.lead? ≠ none → call'.needed = call.needed) : EntryInv s' := by
  refine h.change ht hcalls (fun f hf i hi => ?_) (fun _ _ _ _ _ _ _ _ hentry => ?_)
    fun f hf ho => ?_
  · rw [hlead] at hf
    rw [hneeded (by rw [hf]; nofun)] at hi
    rw [hflights, hgen]
    exact h.entry t call ht f hf i hi
  · rw [hflights]
    exact hentry
  · rw [hnext] at hf
    rw [houtcomes] at ho
    by_cases hown : call.phase.lead? = some f
    · exact .inr (hlead.trans hown)
    · exact .inl ⟨hf, ho, hown⟩

/-- The step of a `Read` keeps the invariant. -/
theorem callMove (h : EntryInv s) (hflights : FlightInv s) (ht : s.calls t = some call)
    (hm : CallMove s t call a s') : EntryInv s' := by
  cases hm with
  | @direct ok hp =>
    refine h.stay ht rfl rfl rfl rfl ?_ rfl fun _ => rfl
    rw [hp]
    cases ok <;> rfl
  | hit hp | wake hp =>
    refine h.stay ht rfl rfl rfl rfl ?_ (gen_receive _ _ _) fun hne => ?_
    · rw [lead?_receive, hp]
      rfl
    · rw [hp] at hne
      exact absurd rfl hne
  | miss hp | wait hp | cancel hp | extract hp =>
    refine h.stay ht rfl rfl rfl rfl ?_ rfl fun _ => rfl
    rw [hp]
    rfl
  | @lead i rest hp hn hf =>
    refine h.change ht rfl (fun f hlead j hj => ?_) (fun u call₁ _ _ f _ j _ hentry => ?_)
      fun f hlt ho => ?_
    · cases hlead
      obtain rfl : i = j := by simpa [hn] using hj
      exact Function.update_self _ _ _
    · refine (Function.update_of_ne ?_ _ _).trans hentry
      intro hkey
      rw [hkey, hf] at hentry
      cases hentry
    · rcases Nat.lt_succ_iff_lt_or_eq.mp hlt with hlt | rfl
      · refine .inl ⟨hlt, ho, ?_⟩
        rw [hp]
        nofun
      · exact .inr rfl
  | @endRead answer f i rest w hp =>
    refine h.stay ht rfl rfl rfl rfl ?_ rfl fun _ => rfl
    rw [hp]
    exact (lead?_ended answer).1
  | @store f i rest data hp =>
    obtain ⟨hcalls, hentries, hnext, houtcomes⟩ := s.storeCache_frame i data
    refine h.stay ht (congrArg (Function.update · t _) hcalls) hentries hnext houtcomes ?_ rfl
      fun _ => rfl
    rw [hp]
    rfl
  | @close f outcome hp =>
    refine h.change ht rfl (fun g hg i hi => ?_) (fun _ _ _ _ _ _ _ _ hentry => hentry)
      fun g hlt ho => ?_
    · exact h.entry t call ht g (by rw [hp]; exact hg) i hi
    · by_cases hg : g = f
      · exact .inr (congrArg some hg.symm)
      · refine .inl ⟨hlt, (Function.update_of_ne hg _ _).symm.trans ho, ?_⟩
        rw [hp]
        exact fun heq => hg (Option.some.inj heq).symm
  | @cleanup i rest f outcome hp hn =>
    have hlead : call.phase.lead? = some f := by
      rw [hp]
      rfl
    refine h.change ht rfl (fun g hg => ?_) (fun u call₁ hne hu g hg j _ hentry => ?_)
      fun g hlt ho => ?_
    · rw [lead?_receive] at hg
      cases hg
    · -- the entry that is taken out is the one of this `Read`
      refine (Function.update_of_ne ?_ _ _).trans hentry
      intro hkey
      rw [hkey, h.entry t call ht f hlead i (by simp [hn])] at hentry
      cases hentry
      exact hne (hflights.unique u call₁ t call hu ht f hg hlead)
    · refine .inl ⟨hlt, ho, fun hown => ?_⟩
      have hann := (hflights.lead t call ht g hown).2
      rw [hp] at hann
      exact Option.some_ne_none _ (hann.symm.trans ho)

/-- A `Read` begins. -/
theorem start (h : EntryInv s) (ht : s.calls t = none) (hphase : call.phase = .direct) :
    EntryInv (s.setCall t call) := by
  refine ⟨Table.forall_update_some h.entry fun f hf => ?_, fun f hf ho => ?_⟩
  · rw [hphase] at hf
    cases hf
  · obtain ⟨u, call₁, hu, hlead⟩ := h.led f hf ho
    refine ⟨u, call₁, (Function.update_of_ne ?_ _ _).trans hu, hlead⟩
    rintro rfl
    cases ht.symm.trans hu

end EntryInv

/-! ### Every step -/

section Step

variable [LinearOrder κ] [Clusterable α κ] {sort : KeySort (sortKey (α := α))}
  {b : ReaderStep α ε}

theorem FlightInv.step (h : FlightInv s) (hs : s.step sort b = some s') : FlightInv s' := by
  cases ReaderMove.of_step hs with
  | register | unregister => exact ⟨h.lead, h.unique, h.known⟩
  | plan points order => exact h.start rfl
  | call ht hm => exact h.callMove ht hm

theorem EntryInv.step (h : EntryInv s) (hflights : FlightInv s) (hs : s.step sort b = some s') :
    EntryInv s' := by
  cases ReaderMove.of_step hs with
  | register | unregister => exact ⟨h.entry, h.led⟩
  | plan points order ht => exact h.start ht rfl
  | call ht hm => exact h.callMove hflights ht hm

theorem FlightInv.init (config : ClusterConfig) :
    FlightInv (sharedSystem (κ := κ) ε sort config).init := by
  constructor <;> simp [sharedSystem]

theorem EntryInv.init (config : ClusterConfig) :
    EntryInv (sharedSystem (κ := κ) ε sort config).init := by
  constructor <;> simp [sharedSystem]

end Step

end GoIndustrial.Monitor
