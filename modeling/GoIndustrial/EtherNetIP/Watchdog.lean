import GoIndustrial.EtherNetIP.Callbacks
import Mathlib.Tactic.NormNum
import Mathlib.Tactic.Positivity

/-!
# The watchdog of a cyclic connection

A connection has timed out when nothing has arrived for longer than the interval of its packets
times 4 times a power of two. The exponent is a byte of the Forward_Open request, which the
connection manager takes as it is. The runtime (`Runtime.checkTimeouts` of `runtime.go`) and the
scanner (`IOConn.IsTimedOut` of `io.go`) compute the limit alike: the shift is that of a 64-bit
word, and so is the product in nanoseconds, read as a signed number.

Cutting at every step is cutting once at the end, so the limit is exact as long as the exact one is
below 2⁶³ nanoseconds. For all intervals of 32 bits that is so up to the exponent 19; beyond, the
limit of the watchdog is always below the exact one.

## Main definitions

* `EtherNetIP.IOConn.isTimedOut` : the watchdog of the scanner.
* `EtherNetIP.WatchdogExact` : both watchdogs keep to the exact limit.

## Main results

* `EtherNetIP.watchdogExact_iff` : the limits below 2⁶³ nanoseconds are kept, and no others.
* `EtherNetIP.watchdogExact_of_mult_le` : all intervals have such a limit up to the exponent 19.
-/

namespace GoIndustrial.EtherNetIP

namespace IOConn

/-- The time since the last packet, in nanoseconds; a connection has one from its opening on. -/
def inputAge (c : IOConn) (now : ℤ) : ℤ := timeSub now c.lastReceive

def isTimedOut (c : IOConn) (now : ℤ) : Bool :=
  decide (watchdogTimeout c.rpi c.timeoutMult < c.inputAge now)

end IOConn

/-! ### The limit -/

/-- `time.Duration(uint64(4) << mult)`. -/
def shiftedMult (mult : UInt8) : ℤ := (4 * 2 ^ mult.toNat % (2 ^ 64 : ℕ) : ℤ).bmod (2 ^ 64)

/-- Cutting the shift to 64 bits before the product makes no difference. -/
theorem watchdogTimeout_eq_shift (rpi : ℤ) (mult : UInt8) :
    watchdogTimeout rpi mult = (rpi * shiftedMult mult).bmod (2 ^ 64) := by
  have hcut : shiftedMult mult = (4 * 2 ^ mult.toNat : ℤ).bmod (2 ^ 64) := Int.emod_bmod _ _
  rw [hcut, Int.mul_bmod_bmod]
  rfl

/-- The interval times 4 times 2 to the multiplier, in nanoseconds, for an interval in
microseconds. -/
def watchdogLimit (micros : ℕ) (mult : UInt8) : ℤ := micros * 1000 * (4 * 2 ^ mult.toNat)

theorem four_dvd_watchdogLimit (micros : ℕ) (mult : UInt8) : 4 ∣ watchdogLimit micros mult := by
  rw [watchdogLimit, mul_left_comm]
  exact Int.dvd_mul_right _ _

theorem watchdogLimit_nonneg (micros : ℕ) (mult : UInt8) : 0 ≤ watchdogLimit micros mult := by
  rw [watchdogLimit]
  positivity

/-- A limit that fits is the limit of the watchdog. -/
theorem watchdogTimeout_of_lt {micros : ℕ} {mult : UInt8}
    (h : watchdogLimit micros mult < 2 ^ 63) :
    watchdogTimeout (micros * 1000) mult = watchdogLimit micros mult := by
  have hnonneg := watchdogLimit_nonneg micros mult
  change (watchdogLimit micros mult).bmod (2 ^ 64) = _
  exact Int.bmod_eq_of_le (by norm_num; omega) (by norm_num; omega)

/-- The limit of the watchdog is a multiple of four, like the exact one, and therefore not the
longest duration. -/
theorem watchdogTimeout_lt (micros : ℕ) (mult : UInt8) :
    watchdogTimeout (micros * 1000) mult < 2 ^ 63 - 1 := by
  have hlt : watchdogTimeout (micros * 1000) mult < ((2 ^ 64 : ℕ) + 1) / 2 :=
    Int.bmod_lt (by norm_num)
  have hdvd : ((2 ^ 64 : ℕ) : ℤ) ∣ watchdogTimeout (micros * 1000) mult -
      watchdogLimit micros mult := Int.dvd_bmod_sub_self
  have hfour := four_dvd_watchdogLimit micros mult
  norm_num at hlt hdvd
  omega

/-! ### Exactness -/

/-- Both watchdogs declare a timeout exactly when nothing has arrived for longer than the limit. -/
structure WatchdogExact (micros : ℕ) (mult : UInt8) : Prop where
  runtime : ∀ (r : Runtime) (id : UInt32) (conn : IOConnection) (now : ℤ),
    r.connections id = some conn → conn.isConsumer = true → conn.rpi = micros * 1000 →
    conn.timeoutMult = mult →
      ((r.checkTimeouts now).connections id = none ↔
        watchdogLimit micros mult < now - conn.lastReceive)
  scanner : ∀ (conn : IOConn) (now : ℤ), conn.rpi = micros * 1000 → conn.timeoutMult = mult →
    (conn.isTimedOut now = true ↔ watchdogLimit micros mult < now - conn.lastReceive)

/-- Whether a duration is longer than a limit is seen after it was cut to the longest one. -/
theorem lt_timeSub_iff {limit t u : ℤ} (hnonneg : 0 ≤ limit) (h : limit < 2 ^ 63 - 1) :
    limit < timeSub t u ↔ limit < t - u := by
  rw [timeSub]
  omega

theorem checkTimeouts_eq_none_iff {r : Runtime} {id : UInt32} {conn : IOConnection} {now : ℤ}
    (hconn : r.connections id = some conn) (hconsumer : conn.isConsumer = true) :
    (r.checkTimeouts now).connections id = none ↔
      watchdogTimeout conn.rpi conn.timeoutMult < timeSub now conn.lastReceive := by
  have hremoved : (r.checkTimeouts now).connections id = none ↔
      Runtime.timedOut conn now = true := by
    simp [Runtime.checkTimeouts, hconn]
  rw [hremoved, Runtime.timedOut, hconsumer, Bool.true_and, decide_eq_true_eq]

/-- A connection of the scanner that was opened at time 0. -/
def idleConn (micros : ℕ) (mult : UInt8) : IOConn :=
  ⟨1, 0x80000001, 1, 1, 1, [], [], micros * 1000, 0, 0, mult, false, ⟨[127, 0, 0, 1], 2222⟩⟩

/-- **The watchdogs are exact** if and only if the exact limit is below 2⁶³ nanoseconds. -/
theorem watchdogExact_iff (micros : ℕ) (mult : UInt8) :
    WatchdogExact micros mult ↔ micros * 1000 * (4 * 2 ^ mult.toNat) < 2 ^ 63 := by
  have hcast : watchdogLimit micros mult = (micros * 1000 * (4 * 2 ^ mult.toNat) : ℕ) := by
    rw [watchdogLimit]
    push_cast
    rfl
  constructor
  · intro h
    by_contra hlarge
    -- After the longest duration the watchdog has barked, and the exact limit is not yet reached.
    have hage : (idleConn micros mult).inputAge (2 ^ 63 - 1) = 2 ^ 63 - 1 := by
      change timeSub (2 ^ 63 - 1) 0 = _
      decide
    have htimeout : (idleConn micros mult).isTimedOut (2 ^ 63 - 1) = true := by
      rw [IOConn.isTimedOut, hage]
      exact decide_eq_true (watchdogTimeout_lt micros mult)
    have hexceeds := (h.scanner (idleConn micros mult) (2 ^ 63 - 1) rfl rfl).mp htimeout
    rw [hcast] at hexceeds
    change _ < (2 ^ 63 - 1 - 0 : ℤ) at hexceeds
    omega
  · intro h
    have hlimit : watchdogLimit micros mult < 2 ^ 63 := by
      rw [hcast]
      exact_mod_cast h
    have hexact := watchdogTimeout_of_lt hlimit
    have hshort : watchdogLimit micros mult < 2 ^ 63 - 1 := hexact ▸ watchdogTimeout_lt micros mult
    have hnonneg := watchdogLimit_nonneg micros mult
    refine ⟨fun r id conn now hconn hconsumer hrpi hmult => ?_, fun conn now hrpi hmult => ?_⟩
    · rw [checkTimeouts_eq_none_iff hconn hconsumer, hrpi, hmult, hexact]
      exact lt_timeSub_iff hnonneg hshort
    · rw [IOConn.isTimedOut, decide_eq_true_eq, hrpi, hmult, hexact]
      exact lt_timeSub_iff hnonneg hshort

/-- Up to the multiplier 19 the watchdogs are exact for all intervals that a request can carry. -/
theorem watchdogExact_of_mult_le {micros : ℕ} {mult : UInt8} (hmicros : micros < 2 ^ 32)
    (hmult : mult.toNat ≤ 19) : WatchdogExact micros mult := by
  have hpow : 2 ^ mult.toNat ≤ 2 ^ 19 := Nat.pow_le_pow_right (by decide) hmult
  rw [watchdogExact_iff]
  calc micros * 1000 * (4 * 2 ^ mult.toNat)
    _ ≤ (2 ^ 32 - 1) * 1000 * (4 * 2 ^ 19) := Nat.mul_le_mul (by omega) (by omega)
    _ < 2 ^ 63 := by norm_num

/-- A scanner asks for packets every 10 ms and for the multiplier 62. -/
def boundlessRequest : ForwardOpenRequest :=
  { openRequest 1 with connectionTimeoutMultiplier := 62 }

/-- The request is accepted, and its connection is gone a nanosecond after it was added; that of the
scanner has timed out as well. -/
theorem not_watchdogExact_multiplier_62 :
    let opened := serveOpens .newConnectionManager (.newRuntime ⟨fun _ => none⟩)
      [⟨boundlessRequest, 0, 0⟩]
    (opened.2.connections 1).map (fun c => (c.rpi, c.timeoutMult, c.lastReceive)) =
        some (10000 * 1000, 62, 0) ∧
      (opened.2.checkTimeouts 1).connections 1 = none ∧
      (idleConn 10000 62).isTimedOut 1 = true ∧ ¬ WatchdogExact 10000 62 := by
  intro opened
  refine ⟨by decide +kernel, by decide +kernel, by decide +kernel, fun h => ?_⟩
  have hexceeds := (h.scanner (idleConn 10000 62) 1 rfl rfl).mp (by decide +kernel)
  exact absurd hexceeds (by decide +kernel)

end GoIndustrial.EtherNetIP
