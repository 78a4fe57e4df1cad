import GoIndustrial.EtherNetIP.Session
import GoIndustrial.Lib.Retry

/-!
# The client's retry loop and CIP errors

`Client.do` of `protocol/ethernetip/client.go` attempts an operation until it succeeds, is answered
with a CIP error, or the retries are used up; after any other error the session is reset. A negative
number of retries is no limit, and the loop counter, which is started again at a large value, never
ends a loop that has none. So the loop may go on forever, and is given a number of attempts after
which nothing is known.

An operation sends one request through a session. It ends with a CIP error when the response of the
message router has one. Errors that the router does not put into a response reach the client as an
encapsulation status, which is not a CIP error for it.

## Main definitions

* `EtherNetIP.doLoop` : the loop.
* `EtherNetIP.Made` : an attempt is made.
* `EtherNetIP.cipAttempt` : the outcome of an operation.
* `EtherNetIP.Router.Reports` : the router, or an object it calls, reports a CIP error.
* `EtherNetIP.EndsRefused` : the call ends with a CIP error in an attempt, without a reset.

## Main results

* `EtherNetIP.doLoop_of_made` : what the loop did before an attempt.
* `EtherNetIP.Made.ends`, `EtherNetIP.Ends.exists_made` : the attempt that ends a call.
* `EtherNetIP.refused_iff_routable` : a reported CIP error ends the call as that error if and only
  if the path of the request is routable.
-/

namespace GoIndustrial.EtherNetIP

open Retry

/-! ### The loop -/

section
variable {ρ π τ : Type} (retries : ℤ) (outcome : ℕ → Attempt ρ π τ)

/-- The loop of `Client.do` when the loop counter is `i` and `k` attempts were made; `none` when the
fuel is used up. Without retries the error of the transport is returned as it is. -/
def doLoop : (fuel : ℕ) → (i : ℤ) → (k : ℕ) → Option (Trace ρ π τ)
  | 0, _, _ => none
  | fuel + 1, i, k =>
    if retries < 0 ∨ i ≤ retries then
      match outcome k with
      | .unreachable e =>
        if retries = 0 then some ⟨.exhausted (some e), 1, []⟩
        else (doLoop fuel (i + 1) (k + 1)).map (Trace.after 1 [])
      | .failed _ =>
        (doLoop fuel ((if i = 2147483647 then 0 else i) + 1) (k + 1)).map (Trace.after 1 [k])
      | .refused e => some ⟨.refused e, 1, []⟩
      | .done r => some ⟨.done r, 1, []⟩
    else some ⟨.exhausted none, 0, []⟩

/-- The call ends. -/
def Ends (t : Trace ρ π τ) : Prop := ∃ fuel, doLoop retries outcome fuel 0 0 = some t

/-- The loop counter at an attempt. -/
def counter : ℕ → ℤ
  | 0 => 0
  | k + 1 =>
    match outcome k with
    | .failed _ => (if counter k = 2147483647 then 0 else counter k) + 1
    | _ => counter k + 1

/-- The attempt `k` is made. -/
structure Made (k : ℕ) : Prop where
  retried : ∀ j < k, (outcome j).IsRetried
  allowed : ∀ j ≤ k, retries < 0 ∨ counter outcome j ≤ retries

/-- The reset after an attempt. -/
def resetAt (k : ℕ) : List ℕ :=
  match outcome k with
  | .failed _ => [k]
  | _ => []

/-- The resets before an attempt. -/
def resetsBefore (k : ℕ) : List ℕ := (List.range k).flatMap (resetAt outcome)

variable {retries outcome} {k : ℕ}

theorem lt_of_mem_resetsBefore {j : ℕ} (h : j ∈ resetsBefore outcome k) : j < k := by
  obtain ⟨j', hj', hj⟩ := List.mem_flatMap.mp h
  rw [resetAt] at hj
  split at hj
  · exact List.mem_singleton.mp hj ▸ List.mem_range.mp hj'
  · cases hj

theorem resetsBefore_succ (k : ℕ) :
    resetsBefore outcome (k + 1) = resetsBefore outcome k ++ resetAt outcome k := by
  simp [resetsBefore, List.range_succ]

theorem counter_nonneg (k : ℕ) : 0 ≤ counter outcome k := by
  induction k with
  | zero => exact Int.le_refl 0
  | succ k ih =>
    rw [counter]
    split
    · split_ifs <;> omega
    · omega

theorem counter_succ_pos (k : ℕ) : 0 < counter outcome (k + 1) := by
  have h : 0 ≤ counter outcome k := counter_nonneg k
  rw [counter]
  split
  · split_ifs <;> omega
  · omega

theorem made_zero : Made retries outcome 0 := by
  refine ⟨nofun, fun j hj => ?_⟩
  rw [Nat.le_zero.mp hj]
  exact lt_or_ge retries 0

theorem Made.of_succ (h : Made retries outcome (k + 1)) : Made retries outcome k :=
  ⟨fun j hj => h.retried j (by omega), fun j hj => h.allowed j (by omega)⟩

/-- An attempt that is followed by another. -/
theorem Made.doLoop_succ (h : Made retries outcome (k + 1)) (fuel : ℕ) :
    doLoop retries outcome (fuel + 1) (counter outcome k) k =
      (doLoop retries outcome fuel (counter outcome (k + 1)) (k + 1)).map
        (Trace.after 1 (resetAt outcome k)) := by
  have hretried := h.retried k (by omega)
  have hne : retries ≠ 0 := by
    have hpos : 0 < counter outcome (k + 1) := counter_succ_pos k
    have hnext := h.allowed (k + 1) le_rfl
    omega
  rw [doLoop, if_pos (h.allowed k (by omega)), counter, resetAt]
  cases ho : outcome k with
  | unreachable e => exact if_neg hne
  | failed e => rfl
  | refused e | done r => exact absurd hretried (by rw [ho]; exact id)

/-- **What the loop did before an attempt.** -/
theorem doLoop_of_made (h : Made retries outcome k) (fuel : ℕ) :
    doLoop retries outcome (k + fuel) 0 0 =
      (doLoop retries outcome fuel (counter outcome k) k).map
        (Trace.after k (resetsBefore outcome k)) := by
  induction k generalizing fuel with
  | zero =>
    have hid : Trace.after 0 (resetsBefore outcome 0) = (id : Trace ρ π τ → Trace ρ π τ) := by
      funext t
      simp [Trace.after, resetsBefore]
    rw [hid, Option.map_id, Nat.zero_add]
    rfl
  | succ k ih =>
    have hafter : Trace.after k (resetsBefore outcome k) ∘ Trace.after 1 (resetAt outcome k) =
        Trace.after (ρ := ρ) (π := π) (τ := τ) (k + 1) (resetsBefore outcome (k + 1)) := by
      funext t
      rw [Function.comp_apply, Trace.after_after, resetsBefore_succ]
    calc doLoop retries outcome (k + 1 + fuel) 0 0
      _ = doLoop retries outcome (k + (fuel + 1)) 0 0 := by rw [Nat.add_assoc, Nat.add_comm 1]
      _ = (doLoop retries outcome (fuel + 1) (counter outcome k) k).map
            (Trace.after k (resetsBefore outcome k)) := ih h.of_succ (fuel + 1)
      _ = _ := by rw [h.doLoop_succ, Option.map_map, hafter]

/-- An attempt that is not retried ends the call. -/
theorem Made.ends (h : Made retries outcome k) {ending : Ending ρ π τ}
    (hk : ending.attempt = some (outcome k)) :
    Ends retries outcome ⟨ending, k + 1, resetsBefore outcome k⟩ := by
  refine ⟨k + 1, ?_⟩
  rw [doLoop_of_made h, doLoop, if_pos (h.allowed k le_rfl)]
  cases ending with
  | exhausted last => cases hk
  | done r | refused e =>
    rw [← Option.some.inj hk]
    simp [Trace.after]

/-- A loop that ends as an attempt decides goes on with an attempt, which decides or is retried. -/
theorem doLoop_succ_attempt {fuel : ℕ} {t : Trace ρ π τ} {a : Attempt ρ π τ}
    (ht : doLoop retries outcome (fuel + 1) (counter outcome k) k = some t)
    (ha : t.ending.attempt = some a) :
    (retries < 0 ∨ counter outcome k ≤ retries) ∧ (outcome k = a ∧ t.attempts = 1 ∨
      (outcome k).IsRetried ∧ ∃ t', t'.ending = t.ending ∧ t.attempts = 1 + t'.attempts ∧
        doLoop retries outcome fuel (counter outcome (k + 1)) (k + 1) = some t') := by
  rw [doLoop] at ht
  by_cases hguard : retries < 0 ∨ counter outcome k ≤ retries
  · rw [if_pos hguard] at ht
    refine ⟨hguard, ?_⟩
    rw [counter]
    cases ho : outcome k with
    | unreachable e =>
      rw [ho] at ht
      dsimp only at ht
      split_ifs at ht
      · cases ht
        cases ha
      · obtain ⟨t', ht', rfl⟩ := Option.map_eq_some_iff.mp ht
        exact .inr ⟨trivial, t', rfl, rfl, ht'⟩
    | failed e =>
      rw [ho] at ht
      obtain ⟨t', ht', rfl⟩ := Option.map_eq_some_iff.mp ht
      exact .inr ⟨trivial, t', rfl, rfl, ht'⟩
    | refused e | done r =>
      rw [ho] at ht
      cases ht
      exact .inl ⟨Option.some.inj ha, rfl⟩
  · rw [if_neg hguard] at ht
    cases ht
    cases ha

/-- A loop that ends as an attempt decides made that attempt. -/
theorem exists_made_of_doLoop {fuel : ℕ} {t : Trace ρ π τ} {a : Attempt ρ π τ}
    (hretried : ∀ j < k, (outcome j).IsRetried)
    (hallowed : ∀ j < k, retries < 0 ∨ counter outcome j ≤ retries)
    (ht : doLoop retries outcome fuel (counter outcome k) k = some t)
    (ha : t.ending.attempt = some a) :
    ∃ m, Made retries outcome m ∧ outcome m = a ∧ k + t.attempts = m + 1 := by
  induction fuel generalizing k t with
  | zero => cases ht
  | succ fuel ih =>
    obtain ⟨hguard, hnext⟩ := doLoop_succ_attempt ht ha
    have hallowed' := Nat.forall_lt_succ_right.mpr ⟨hallowed, hguard⟩
    rcases hnext with ⟨hk, hattempts⟩ | ⟨hk, t', hending, hattempts, ht'⟩
    · exact ⟨k, ⟨hretried, fun j hj => hallowed' j (Nat.lt_succ_of_le hj)⟩, hk, by rw [hattempts]⟩
    · rw [hattempts, ← Nat.add_assoc]
      exact ih (Nat.forall_lt_succ_right.mpr ⟨hretried, hk⟩) hallowed' ht' (hending ▸ ha)

/-- **A call that ends as an attempt decides** made that attempt as its last one. -/
theorem Ends.exists_made {t : Trace ρ π τ} (ht : Ends retries outcome t) {a : Attempt ρ π τ}
    (ha : t.ending.attempt = some a) :
    ∃ k, Made retries outcome k ∧ outcome k = a ∧ t.attempts = k + 1 := by
  obtain ⟨fuel, ht⟩ := ht
  obtain ⟨k, hmade, hk, hattempts⟩ := exists_made_of_doLoop (k := 0) nofun nofun ht ha
  exact ⟨k, hmade, hk, by omega⟩

/-- A failed attempt leads to a reset, however the call ends. -/
theorem Made.mem_resets (h : Made retries outcome k) {e : τ} (hk : outcome k = .failed e)
    {t : Trace ρ π τ} (ht : Ends retries outcome t) : k ∈ t.resets := by
  obtain ⟨fuel, ht⟩ := ht
  rcases Nat.lt_or_ge k fuel with hlt | hge
  · obtain ⟨n, rfl⟩ := Nat.exists_eq_add_of_lt hlt
    rw [Nat.add_assoc, doLoop_of_made h, doLoop, if_pos (h.allowed k le_rfl), hk] at ht
    obtain ⟨t', ht', rfl⟩ := Option.map_eq_some_iff.mp ht
    obtain ⟨t'', -, rfl⟩ := Option.map_eq_some_iff.mp ht'
    simp [Trace.after]
  · -- The fuel is used up before the attempt.
    have hmade : Made retries outcome fuel :=
      ⟨fun j hj => h.retried j (by omega), fun j hj => h.allowed j (by omega)⟩
    have hnone := doLoop_of_made hmade 0
    rw [Nat.add_zero, ht] at hnone
    cases hnone

end

/-! ### Operations -/

/-- An error of an operation other than a CIP error. -/
inductive OpErr
  /-- There is no session. -/
  | unavailable
  | session (e : SessionErr)
  /-- `failed to decode symbol class attributes: %w`. -/
  | classAttributes (e : ByteReader.ReadErr)
  /-- The data of a response cannot be used. -/
  | other (text : String)
  deriving DecidableEq, Repr

/-- The outcome of an operation that sends a request and uses the data of the response. -/
def cipAttempt {ρ : Type} (sent : Except SessionErr (MessageRouterResponse × List UInt8))
    (use : List UInt8 → Except OpErr ρ) : Attempt ρ CipError OpErr :=
  match sent with
  | .error e => .failed (.session e)
  | .ok (resp, _) =>
    match resp.error with
    | some e => .refused e
    | none =>
      match use resp.responseData with
      | .ok r => .done r
      | .error e => .failed e

/-- The call ends with the CIP error in attempt `k`, which is the last one and is not followed by a
reset. -/
def EndsRefused {ρ : Type} (retries : ℤ) (outcome : ℕ → Attempt ρ CipError OpErr) (k : ℕ)
    (e : CipError) : Prop :=
  ∃ t, Ends retries outcome t ∧ t.ending = .refused e ∧ t.attempts = k + 1 ∧ k ∉ t.resets

variable {σ : Type}

/-- The router reports the CIP error for a request: it returns the error, or a response with it, as
it does for the error of an object. -/
def Router.Reports (router : Router σ) (req : MessageRouterRequest) (s : σ) (e : CipError) : Prop :=
  (router.dispatch req s).1 = .error (.error (.cip e)) ∨
    ∃ resp, (router.dispatch req s).1 = .ok resp ∧ resp.error = some e

section
variable {ρ : Type} {srv : Server σ} {v : View σ} {handle : UInt32} {req : MessageRouterRequest}
  {e : CipError} {use : List UInt8 → Except OpErr ρ}

/-- A response with a CIP error ends in that error. -/
theorem cipAttempt_of_routable (hreg : Registered handle v) (hreq : req.WellFormed)
    (hsize : unconnectedSize req.encode ≤ maxPacketSize)
    (hreports : srv.router.Reports req v.device e) (hext : e.extStatus.length ≤ 255)
    (hroutable : srv.router.Routable req.requestPath) :
    cipAttempt (sendCIPRequest handle (srv.peer v) req) use = .refused e := by
  obtain herror | ⟨resp, hresp, he⟩ := hreports
  · exact absurd herror (Router.dispatch_ne_error hroutable _)
  have hdispatch : srv.router.dispatch req v.device =
      (.ok resp, (srv.router.dispatch req v.device).2) := Prod.ext hresp rfl
  have hextResp : resp.extStatus = e.extStatus := by
    rw [MessageRouterResponse.error] at he
    split_ifs at he
    exact congrArg CipError.extStatus (Option.some.inj he)
  have hlen : unconnectedSize resp.encode < 65536 := by
    rw [unconnectedSize, resp.length_encode, Router.responseData_of_error hdispatch he, hextResp,
      List.length_nil]
    omega
  rw [sendCIPRequest_of_dispatch hreg hreq hsize hdispatch (hextResp ▸ hext) hlen, cipAttempt]
  simp only [he]

/-- What is not routable ends in a failed attempt. -/
theorem cipAttempt_of_not_routable (hreg : Registered handle v) (hreq : req.WellFormed)
    (hsize : unconnectedSize req.encode ≤ maxPacketSize)
    (hroutable : ¬ srv.router.Routable req.requestPath) :
    cipAttempt (sendCIPRequest handle (srv.peer v) req) use =
      .failed (.session (.rrDataStatus statusInvalidCommand)) := by
  have hdispatch := congrArg Prod.fst (Router.dispatch_of_not_routable (s := v.device) hroutable)
  rw [sendCIPRequest_of_error hreg hreq hsize hdispatch, cipAttempt]

end

/-- **A CIP error arrives as a CIP error if and only if the path is routable.** A request of a
registered session is sent in attempt `k` of a call, and the router reports a CIP error for it: the
call ends with that error, without another attempt and without a reset, exactly if the path begins
with a whole class segment, or with a symbol and the router has a handler for symbols. -/
theorem refused_iff_routable {ρ : Type} (srv : Server σ) (v : View σ) (handle : UInt32)
    (hreg : Registered handle v) (req : MessageRouterRequest) (hreq : req.WellFormed)
    (hsize : unconnectedSize req.encode ≤ maxPacketSize) (e : CipError)
    (hreports : srv.router.Reports req v.device e) (hext : e.extStatus.length ≤ 255)
    (use : List UInt8 → Except OpErr ρ) (retries : ℤ) (outcome : ℕ → Attempt ρ CipError OpErr)
    (k : ℕ) (hmade : Made retries outcome k)
    (hk : outcome k = cipAttempt (sendCIPRequest handle (srv.peer v) req) use) :
    EndsRefused retries outcome k e ↔ srv.router.Routable req.requestPath := by
  constructor
  · rintro ⟨t, ht, -, -, hreset⟩
    by_contra hroutable
    rw [cipAttempt_of_not_routable hreg hreq hsize hroutable] at hk
    exact hreset (hmade.mem_resets hk ht)
  · intro hroutable
    rw [cipAttempt_of_routable hreg hreq hsize hreports hext hroutable] at hk
    have hends : Ends retries outcome ⟨.refused e, k + 1, resetsBefore outcome k⟩ :=
      hmade.ends (congrArg some hk.symm)
    exact ⟨_, hends, rfl, rfl, fun h => absurd (lt_of_mem_resetsBefore h) (Nat.lt_irrefl k)⟩

/-- A class that is not registered is reported in a response, and ends the call. -/
theorem refused_iff_routable_missing_class :
    EndsRefused 3 (fun _ => cipAttempt (sendCIPRequest 1 (bareServer.peer ⟨1, 1, ()⟩)
      ⟨0x0E, [0x20, 0x04, 0x24, 0x01], []⟩) Except.ok) 0 ⟨statusObjectDoesNotExist, []⟩ :=
  (refused_iff_routable bareServer ⟨1, 1, ()⟩ 1 ⟨rfl, by decide⟩ _ ⟨rfl, by decide, by decide⟩
    (by decide) _ (.inr ⟨_, rfl, rfl⟩) (by decide) Except.ok 3 _ 0 made_zero rfl).mpr (by decide)

/-- A segment that the router does not know is reported, and the client resets the session and tries
again. -/
theorem unsupported_segment_retried :
    let req : MessageRouterRequest := ⟨0x0E, [0x28, 0x01], []⟩
    let outcome : ℕ → Attempt (List UInt8) CipError OpErr :=
      fun _ => cipAttempt (sendCIPRequest 1 (bareServer.peer ⟨1, 1, ()⟩) req) Except.ok
    bareServer.router.Reports req () ⟨statusPathSegmentError, []⟩ ∧
      Ends 1 outcome ⟨.exhausted none, 2, [0, 1]⟩ ∧
      ¬ EndsRefused 1 outcome 0 ⟨statusPathSegmentError, []⟩ := by
  intro req outcome
  have hreq : MessageRouterRequest.WellFormed ⟨0x0E, [0x28, 0x01], []⟩ :=
    ⟨rfl, by decide, by decide⟩
  have hfailed : ∀ k, outcome k = .failed (.session (.rrDataStatus statusInvalidCommand)) :=
    fun _ => cipAttempt_of_not_routable ⟨rfl, by decide⟩ hreq (by decide) (by decide)
  have hends : Ends 1 outcome ⟨.exhausted none, 2, [0, 1]⟩ := by
    refine ⟨3, ?_⟩
    simp [doLoop, hfailed, Trace.after]
  refine ⟨.inl rfl, hends, ?_⟩
  rintro ⟨t, ht, -, -, hreset⟩
  exact hreset (made_zero.mem_resets (hfailed 0) ht)

end GoIndustrial.EtherNetIP
