import GoIndustrial.EtherNetIP.Client
import GoIndustrial.Modbus.Client

/-!
# The retry loops of the clients

`Client.do` of `protocol/ethernetip/client.go` and `Client.send` of `protocol/modbus/client.go`,
with the attempts and resets in the order in which they are made. `EtherNetIP.doLoop` and
`Modbus.Client.send` are these loops without the order. The number of attempts of the Modbus client
is computed in 64-bit arithmetic: with the largest number of retries it is negative, and no attempt
is made.

An attempt of the Modbus client that brings an exception response ends the call like one that
returns a Modbus error.

## Main definitions

* `EtherNetIP.doLog`, `Modbus.sendLog` : the loops.
* `Modbus.decided` : what an attempt of the Modbus client comes to.

## Main results

* `EtherNetIP.doLoop_eq_doLog`, `Modbus.send_eq_sendLog` : the loops without the order.
* `retries_as_promised` : both loops are orderly.
-/

namespace GoIndustrial

open Retry

/-! ### EtherNet/IP -/

namespace EtherNetIP

section

variable {ρ π τ : Type} (retries : ℤ) (outcome : ℕ → Attempt ρ π τ)

/-- The loop of `Client.do` when the loop counter is `i` and `k` attempts were made; `none` when the
fuel is used up. -/
def doLog : (fuel : ℕ) → (i : ℤ) → (k : ℕ) → Option (Log ρ π τ)
  | 0, _, _ => none
  | fuel + 1, i, k =>
    if retries < 0 ∨ i ≤ retries then
      match outcome k with
      | .unreachable e =>
        if retries = 0 then some ⟨.exhausted (some e), [.attempt k]⟩
        else (doLog fuel (i + 1) (k + 1)).map (Log.after [.attempt k])
      | .failed _ =>
        (doLog fuel ((if i = 2147483647 then 0 else i) + 1) (k + 1)).map
          (Log.after [.attempt k, .reset k])
      | .refused e => some ⟨.refused e, [.attempt k]⟩
      | .done r => some ⟨.done r, [.attempt k]⟩
    else some ⟨.exhausted none, []⟩

theorem doLoop_eq_doLog (fuel : ℕ) (i : ℤ) (k : ℕ) :
    doLoop retries outcome fuel i k = (doLog retries outcome fuel i k).map Log.trace := by
  induction fuel generalizing i k with
  | zero => rfl
  | succ fuel ih =>
    have hafter (events : List Retry.Event) (i : ℤ) :
        ((doLog retries outcome fuel i (k + 1)).map (Log.after events)).map Log.trace =
          (doLoop retries outcome fuel i (k + 1)).map
            (Trace.after (events.filterMap Event.attempt?).length
              (events.filterMap Event.reset?)) := by
      rw [ih, Option.map_map, Option.map_map]
      exact congrArg (Option.map · _) (funext (Log.trace_after events))
    rw [doLoop, doLog]
    by_cases hguard : retries < 0 ∨ i ≤ retries
    · rw [if_pos hguard, if_pos hguard]
      cases outcome k with
      | unreachable e =>
        dsimp only
        by_cases hzero : retries = 0
        · rw [if_pos hzero, if_pos hzero]
          rfl
        · rw [if_neg hzero, if_neg hzero]
          exact (hafter [.attempt k] _).symm
      | failed e => exact (hafter [.attempt k, .reset k] _).symm
      | refused e | done r => rfl
    · rw [if_neg hguard, if_neg hguard]
      rfl

/-- With a limit on the attempts, the loop makes them one after the other. The induction is on the
number `m` of attempts that are left. -/
theorem doLog_eq_attempts {n : ℕ} (hn : n < 2147483647) (m k : ℕ) (hm : k + m = n + 1) :
    ∃ l, (∀ fuel, doLog n outcome (fuel + m + 1) k k = some l) ∧
      (l.ending.attempt, l.events) = attempts outcome m k := by
  induction m generalizing k with
  | zero =>
    have hguard : ¬ ((n : ℤ) < 0 ∨ (k : ℤ) ≤ n) := by omega
    refine ⟨⟨.exhausted none, []⟩, fun fuel => ?_, rfl⟩
    rw [doLog, if_neg hguard]
  | succ m ih =>
    have hguard : (n : ℤ) < 0 ∨ (k : ℤ) ≤ n := by omega
    have hcounter : (if (k : ℤ) = 2147483647 then 0 else (k : ℤ)) + 1 = (k + 1 : ℕ) := by
      rw [if_neg (by omega)]
      rfl
    obtain ⟨l, hl, hattempts⟩ := ih (k + 1) (by omega)
    cases ho : outcome k with
    | unreachable e =>
      rw [attempts_of_retried (by rw [ho]; trivial), ho, ← hattempts]
      by_cases hzero : (n : ℤ) = 0
      · -- Without retries this was the last attempt; its error is returned as it is.
        obtain rfl : m = 0 := by omega
        obtain ⟨hended, hevents⟩ := Prod.mk.inj hattempts
        refine ⟨⟨.exhausted (some e), [.attempt k]⟩, fun fuel => ?_, by rw [hended, hevents]; rfl⟩
        simp only [doLog, if_pos hguard, ho, if_pos hzero]
      · refine ⟨l.after [.attempt k], fun fuel => ?_, rfl⟩
        have hnext : doLog n outcome (fuel + m + 1) ((k : ℤ) + 1) (k + 1) = some l := hl fuel
        rw [← Nat.add_assoc, doLog, if_pos hguard, ho]
        dsimp only
        rw [if_neg hzero, hnext]
        rfl
    | failed e =>
      rw [attempts_of_retried (by rw [ho]; trivial), ho, ← hattempts]
      refine ⟨l.after [.attempt k, .reset k], fun fuel => ?_, rfl⟩
      rw [← Nat.add_assoc, doLog, if_pos hguard, ho]
      dsimp only
      rw [hcounter, hl]
      rfl
    | refused e =>
      rw [attempts_of_final (by rw [ho]; exact id), ho]
      refine ⟨⟨.refused e, [.attempt k]⟩, fun fuel => ?_, rfl⟩
      simp only [doLog, if_pos hguard, ho]
    | done r =>
      rw [attempts_of_final (by rw [ho]; exact id), ho]
      refine ⟨⟨.done r, [.attempt k]⟩, fun fuel => ?_, rfl⟩
      simp only [doLog, if_pos hguard, ho]

end

end EtherNetIP

/-! ### Modbus -/

namespace Modbus

section

/-- `Response.ToError` of an exception response. -/
def Response.toError (r : Response) : ModbusError := ⟨r.pdu.functionCode, r.getException⟩

variable (outcome : ℕ → Attempt Response ModbusError Err)

/-- The loop of `Client.send` with `left` attempts left, when `i` were made and the error before was
`lastErr`. -/
def sendLoop : (left i : ℕ) → (lastErr : Option Err) → Log Response ModbusError Err
  | 0, _, lastErr => ⟨.exhausted lastErr, []⟩
  | left + 1, i, _ =>
    match outcome i with
    | .unreachable e => (sendLoop left (i + 1) (some e)).after [.attempt i]
    | .failed e => (sendLoop left (i + 1) (some e)).after [.attempt i, .reset i]
    | .refused e => ⟨.refused e, [.attempt i]⟩
    | .done r =>
      if r.isException then ⟨.refused r.toError, [.attempt i]⟩ else ⟨.done r, [.attempt i]⟩

/-- The number of attempts that `Client.send` may make: `attempts := 1 + c.retries`, and none if
that is not positive. -/
def attemptsAllowed (retries : Int64) : ℕ := (1 + retries).toInt.toNat

theorem toInt_one_add {retries : Int64} (h : retries ≠ Int64.maxValue) :
    (1 + retries).toInt = 1 + retries.toInt := by
  have hle := retries.le_toInt
  have hlt := retries.toInt_lt
  have hne : retries.toInt ≠ 2 ^ 63 - 1 := fun he => h (Int64.toInt_inj.mp he)
  rw [Int64.toInt_add, Int64.toInt_one]
  exact Int.bmod_eq_of_le (by omega) (by omega)

/-- The attempts that may be made: one more than the retries, and none in the one case in which the
number overflows. -/
theorem attemptsAllowed_le {retries : Int64} (h : 0 ≤ retries) :
    attemptsAllowed retries ≤ retries.toInt.toNat + 1 ∧
      (retries ≠ Int64.maxValue → attemptsAllowed retries = retries.toInt.toNat + 1) := by
  have hpos : 0 ≤ retries.toInt := Int64.le_iff_toInt_le.mp h
  have heq (hne : retries ≠ Int64.maxValue) :
      attemptsAllowed retries = retries.toInt.toNat + 1 := by
    rw [attemptsAllowed, toInt_one_add hne]
    omega
  refine ⟨?_, heq⟩
  by_cases hmax : retries = Int64.maxValue
  · subst hmax
    decide
  · exact (heq hmax).le

/-- `Client.send`. -/
def sendLog (retries : Int64) : Log Response ModbusError Err :=
  sendLoop outcome (attemptsAllowed retries) 0 none

/-- What an attempt comes to: an exception response is a Modbus error. -/
def decided : Attempt Response ModbusError Err → Attempt Response ModbusError Err
  | .done r => if r.isException then .refused r.toError else .done r
  | a => a

theorem sendLoop_eq_attempts (left i : ℕ) (lastErr : Option Err) :
    ((sendLoop outcome left i lastErr).ending.attempt, (sendLoop outcome left i lastErr).events) =
      attempts (fun k => decided (outcome k)) left i := by
  induction left generalizing i lastErr with
  | zero => rfl
  | succ left ih =>
    rw [sendLoop]
    cases ho : outcome i with
    | unreachable e =>
      rw [attempts_of_retried (by rw [ho]; trivial), ho, ← ih (i + 1) (some e)]
      rfl
    | failed e =>
      rw [attempts_of_retried (by rw [ho]; trivial), ho, ← ih (i + 1) (some e)]
      rfl
    | refused e =>
      rw [attempts_of_final (by rw [ho]; exact id), ho]
      rfl
    | done r =>
      by_cases hr : r.isException = true
      · have hdec : decided (.done r) = .refused r.toError := if_pos hr
        rw [attempts_of_final (by rw [ho, hdec]; exact id), ho, hdec]
        simp only [hr, if_true]
        rfl
      · have hdec : decided (.done r) = .done r := if_neg hr
        rw [attempts_of_final (by rw [ho, hdec]; exact id), ho, hdec]
        simp only [hr]
        rfl

variable {outcome}

/-- What `Client.send` returns, by the ending of the loop. -/
def sendResult (attempts : ℤ) : Ending Response ModbusError Err → Except (Fault CallErr) Response
  | .done response => .ok response
  | .refused e => .error (.error (.client (.modbus e)))
  | .exhausted last => .error (.error (.attemptsFailed attempts last))

theorem retry_eq_sendLoop (attempts : ℤ) (left i : ℕ) (lastErr : Option Err) :
    (match (retry outcome left i lastErr).ending with
      | .done response =>
        if response.isException then
          .error (.error (.client (.modbus ⟨response.pdu.functionCode, response.getException⟩)))
        else .ok response
      | .refused e => .error (.error (.client (.modbus e)))
      | .exhausted last => .error (.error (.attemptsFailed attempts last))) =
      sendResult attempts (sendLoop outcome left i lastErr).ending := by
  induction left generalizing i lastErr with
  | zero => rfl
  | succ left ih =>
    rw [retry, sendLoop]
    cases outcome i with
    | unreachable e | failed e => exact ih (i + 1) (some e)
    | refused e => rfl
    | done r =>
      dsimp only
      split_ifs <;> rfl

/-- `Modbus.Client.send` is the loop without the order, where `1 + c.retries` does not overflow. -/
theorem send_eq_sendLog {retries : Int64} (hretries : retries ≠ Int64.maxValue) (unitID : UnitID)
    (outcome : Request → ℕ → Attempt Response ModbusError Err) (functionCode : FunctionCode)
    (data : List UInt8) :
    Client.send retries.toInt unitID outcome functionCode data =
      sendResult (1 + retries.toInt)
        (sendLog (outcome (newRequest 0 unitID functionCode data)) retries).ending := by
  rw [sendLog, attemptsAllowed, toInt_one_add hretries]
  exact retry_eq_sendLoop (1 + retries.toInt) (1 + retries.toInt).toNat 0 none

end

end Modbus

/-- **The retry loops behave as promised.** A call of the EtherNet/IP client with `n` retries, below
the value at which the loop counter starts again, always ends; a call of the Modbus client ends
anyway. Both are orderly: at most `n + 1` attempts, success exactly if an attempt succeeds, an end
at once and without a reset on a CIP error or a Modbus exception, a reset of every connection that
failed before the next attempt. The attempts are all used if none decides; only the Modbus client
with the largest number of retries makes none. -/
theorem retries_as_promised :
    (∀ {ρ : Type} (n : ℕ), n < 2147483647 →
      ∀ outcome : ℕ → Attempt ρ EtherNetIP.CipError EtherNetIP.OpErr,
        ∃ call, (∀ fuel, n + 2 ≤ fuel → EtherNetIP.doLog n outcome fuel 0 0 = some call) ∧
          Orderly outcome (n + 1) 0 call.ending.attempt call.events) ∧
    ∀ n : Int64, 0 ≤ n → ∀ outcome : ℕ → Attempt Modbus.Response Modbus.ModbusError Modbus.Err,
      (Modbus.attemptsAllowed n ≤ n.toInt.toNat + 1 ∧
        (n ≠ Int64.maxValue → Modbus.attemptsAllowed n = n.toInt.toNat + 1)) ∧
      Orderly (fun k => Modbus.decided (outcome k)) (Modbus.attemptsAllowed n) 0
        (Modbus.sendLog outcome n).ending.attempt (Modbus.sendLog outcome n).events := by
  refine ⟨fun {ρ} n hn outcome => ?_, fun n hn outcome => ⟨Modbus.attemptsAllowed_le hn, ?_⟩⟩
  · obtain ⟨call, hcall, hattempts⟩ :=
      EtherNetIP.doLog_eq_attempts outcome hn (n + 1) 0 (Nat.zero_add _)
    obtain ⟨hended, hevents⟩ := Prod.mk.inj hattempts
    refine ⟨call, fun fuel hfuel => ?_, ?_⟩
    · obtain ⟨extra, rfl⟩ := Nat.exists_eq_add_of_le hfuel
      rw [show n + 2 + extra = extra + (n + 1) + 1 by omega]
      exact hcall extra
    · rw [hended, hevents]
      exact orderly_attempts (n + 1) 0
  · obtain ⟨hended, hevents⟩ := Prod.mk.inj
      (Modbus.sendLoop_eq_attempts outcome (Modbus.attemptsAllowed n) 0 none)
    rw [Modbus.sendLog, hended, hevents]
    exact orderly_attempts _ 0

/-- One retry: the session of the first attempt fails and is reset, the second attempt succeeds. -/
theorem retries_as_promised_second_attempt :
    let outcome : ℕ → Attempt Bool EtherNetIP.CipError EtherNetIP.OpErr :=
      fun k => if k = 0 then .failed .unavailable else .done true
    EtherNetIP.doLog (1 : ℕ) outcome 3 0 0 =
        some ⟨.done true, [.attempt 0, .reset 0, .attempt 1]⟩ ∧
      Orderly outcome 2 0 (some (.done true)) [.attempt 0, .reset 0, .attempt 1] := by
  intro outcome
  obtain ⟨call, hcall, horderly⟩ := retries_as_promised.1 1 (by decide) outcome
  have hlog : EtherNetIP.doLog (1 : ℕ) outcome 3 0 0 =
      some ⟨.done true, [.attempt 0, .reset 0, .attempt 1]⟩ := by decide
  obtain rfl := Option.some.inj ((hcall 3 (by decide)).symm.trans hlog)
  exact ⟨hlog, horderly⟩

end GoIndustrial
