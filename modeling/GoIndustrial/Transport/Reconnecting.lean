import GoIndustrial.Lib.RWLock
import GoIndustrial.Lib.TransitionSystem

/-!
# The reconnecting transport

Any number of goroutines call `Conn`, `Reset`, `Close` and `Peek` of one `ReconnectingTransport`.
`Conn` looks at the connection under the read lock, lets go of it, and only when there was no
connection takes the write lock, looks again and connects; `Reset` and `Close` work under the write
lock. Between the two looks of `Conn` anything may happen.

What the connector made, what the closer closed and which callbacks ran is recorded beside the
fields of the transport.

## Main definitions

* `Transport.Core`, `Transport.connBody`, `Transport.resetBody`, `Transport.closeBody` : the
  transport, and what is done under the write lock.
* `Transport.State`, `Transport.system` : the calls in progress and their interleavings.

## Main results

* `Transport.Move.of_step` : everything that a step can do.
-/

namespace GoIndustrial.Transport

/-! ### The transport -/

/-- The callbacks of a transport, in the order they were registered. -/
structure Config (κ : Type) where
  onConnect : List κ
  onDisconnect : List κ

/-- A callback that ran. -/
inductive Fired (κ ε : Type)
  | connect (fn : κ)
  | disconnect (fn : κ) (err : Option ε)
  deriving DecidableEq

/-- The fields of a transport that change, and what has happened so far: the connections made, the
connections closed and the callbacks run. No connection is the zero value of the source. -/
structure Core (C κ ε : Type) where
  conn : Option C
  closed : Bool
  created : List C
  closings : List C
  fired : List (Fired κ ε)

inductive Err (ε : Type)
  /-- An error of the transport itself. -/
  | text (s : String)
  /-- An error of the connector or of the closer. -/
  | inner (e : ε)
  deriving DecidableEq

def errClosed {ε : Type} : Err ε := .text "transport is closed"

/-- A method of the transport with its argument. -/
inductive Op (C : Type)
  | conn
  | reset (stale : Option C)
  | close
  | peek
  deriving DecidableEq

/-- What a method returns. -/
inductive Result (C ε : Type)
  | conn (c : C)
  | peek (established : Bool)
  | ok
  | error (e : Err ε)
  deriving DecidableEq

def Result.ofErr {C ε : Type} : Option ε → Result C ε
  | none => .ok
  | some e => .error (.inner e)

/-- Where a call stands. -/
inductive Phase (C ε : Type)
  | start
  /-- Under the read lock. -/
  | fast
  /-- `Conn` has let go of the read lock and has seen no connection. -/
  | gap
  /-- The write lock has been taken. -/
  | entered
  /-- In the connector. -/
  | connecting
  /-- The new connection is the current one. -/
  | connected (c : C)
  /-- In the closer. -/
  | closing
  /-- The closer has returned. -/
  | closed (err : Option ε)
  /-- The first of the two things that are left to do after that is done. -/
  | halfway (err : Option ε)
  /-- The deferred unlock is left. -/
  | leaving (r : Result C ε)
  | done (r : Result C ε)
  deriving DecidableEq

/-- What makes a call under the write lock go on. -/
inductive Event (C ε : Type)
  /-- Its own next statement. -/
  | statement
  /-- The connector returns. -/
  | connect (r : Except ε C)
  /-- The closer returns. -/
  | close (err : Option ε)

section Body

variable {C κ ε : Type}

/-- A transport as it is constructed. -/
def Core.new : Core C κ ε := ⟨none, false, [], [], []⟩

namespace Core

def fireOnConnect (cfg : Config κ) (core : Core C κ ε) : Core C κ ε :=
  { core with fired := core.fired ++ cfg.onConnect.map .connect }

def fireOnDisconnect (cfg : Config κ) (err : Option ε) (core : Core C κ ε) : Core C κ ε :=
  { core with fired := core.fired ++ cfg.onDisconnect.map (.disconnect · err) }

/-- The closer closes the current connection. -/
def closeConn (core : Core C κ ε) : Core C κ ε :=
  { core with closings := core.closings ++ core.conn.toList }

end Core

variable [DecidableEq C]

/-- `Conn` under the write lock. The connector makes a connection that has not been made before. -/
def connBody (cfg : Config κ) (core : Core C κ ε) :
    Event C ε → Phase C ε → Option (Core C κ ε × Phase C ε)
  | .statement, .entered =>
    if core.closed then some (core, .leaving (.error errClosed))
    else match core.conn with
      | some c => some (core, .leaving (.conn c))
      | none => some (core, .connecting)
  | .connect (.error e), .connecting => some (core, .leaving (.error (.inner e)))
  | .connect (.ok c), .connecting =>
    if c ∈ core.created then none
    else some ({ core with conn := some c, created := core.created ++ [c] }, .connected c)
  | .statement, .connected c => some (core.fireOnConnect cfg, .leaving (.conn c))
  | _, _ => none

/-- `Reset` under the write lock. -/
def resetBody (cfg : Config κ) (stale : Option C) (core : Core C κ ε) :
    Event C ε → Phase C ε → Option (Core C κ ε × Phase C ε)
  | .statement, .entered =>
    if core.conn = none ∨ core.conn ≠ stale then some (core, .leaving .ok)
    else some (core, .closing)
  | .close err, .closing => some (core.closeConn, .closed err)
  | .statement, .closed err => some ({ core with conn := none }, .halfway err)
  | .statement, .halfway err => some (core.fireOnDisconnect cfg err, .leaving .ok)
  | _, _ => none

/-- `Close` under the write lock. Unlike `Reset` it fires the callbacks before it lets go of the
connection. -/
def closeBody (cfg : Config κ) (core : Core C κ ε) :
    Event C ε → Phase C ε → Option (Core C κ ε × Phase C ε)
  | .statement, .entered =>
    if core.closed then some (core, .leaving .ok)
    else if core.conn = none then some ({ core with closed := true }, .leaving .ok)
    else some ({ core with closed := true }, .closing)
  | .close err, .closing => some (core.closeConn, .closed err)
  | .statement, .closed err => some (core.fireOnDisconnect cfg err, .halfway err)
  | .statement, .halfway err => some ({ core with conn := none }, .leaving (.ofErr err))
  | _, _ => none

def body (cfg : Config κ) : Op C → Core C κ ε → Event C ε → Phase C ε →
    Option (Core C κ ε × Phase C ε)
  | .conn => connBody cfg
  | .reset stale => resetBody cfg stale
  | .close => closeBody cfg
  | .peek => fun _ _ _ => none

/-- What `Conn` and `Peek` do with what they see under the read lock. -/
def look (core : Core C κ ε) : Op C → Option (Phase C ε)
  | .conn =>
    if core.closed then some (.done (.error errClosed))
    else match core.conn with
      | some c => some (.done (.conn c))
      | none => some .gap
  | .peek => some (.done (.peek (!core.closed && core.conn.isSome)))
  | .reset _ | .close => none

end Body

/-! ### Calls and their interleavings -/

/-- A call in progress, or one that has returned. -/
structure Call (C ε : Type) where
  op : Op C
  phase : Phase C ε
  deriving DecidableEq

/-- A call that takes the read lock next. -/
def Call.wantsRead {C ε : Type} : Call C ε → Bool
  | ⟨.conn, .start⟩ | ⟨.peek, .start⟩ => true
  | _ => false

/-- A call that takes the write lock next. -/
def Call.wantsWrite {C ε : Type} : Call C ε → Bool
  | ⟨.conn, .gap⟩ | ⟨.reset _, .start⟩ | ⟨.close, .start⟩ => true
  | _ => false

/-- The transport, its lock and the calls. -/
structure State (C κ ε : Type) where
  core : Core C κ ε
  lock : RWLock ℕ
  calls : ℕ → Option (Call C ε)

/-- An atomic step; `i` is the number of the call that takes it. -/
inductive Step (C ε : Type)
  | call (i : ℕ) (op : Op C)
  | rlock (i : ℕ)
  | look (i : ℕ)
  | lock (i : ℕ)
  | body (i : ℕ) (e : Event C ε)
  | unlock (i : ℕ)

/-- The call that takes a step. -/
def Step.caller {C ε : Type} : Step C ε → ℕ
  | .call i _ | .rlock i | .look i | .lock i | .body i _ | .unlock i => i

section System

variable {C κ ε : Type}

/-- The call `i` goes on to a phase. -/
def State.goto (s : State C κ ε) (i : ℕ) (op : Op C) (phase : Phase C ε) :
    ℕ → Option (Call C ε) :=
  Function.update s.calls i (some ⟨op, phase⟩)

variable [DecidableEq C]

def State.step (cfg : Config κ) (s : State C κ ε) : Step C ε → Option (State C κ ε)
  | .call i op =>
    match s.calls i with
    | some _ => none
    | none => some { s with calls := s.goto i op .start }
  | .rlock i => do
    let c ← s.calls i
    if c.wantsRead then
      let lock ← s.lock.rlock i
      return { s with lock, calls := s.goto i c.op .fast }
    else none
  | .look i => do
    let c ← s.calls i
    match c.phase with
    | .fast =>
      let phase ← look s.core c.op
      return { s with lock := s.lock.runlock i, calls := s.goto i c.op phase }
    | _ => none
  | .lock i => do
    let c ← s.calls i
    if c.wantsWrite then
      let lock ← s.lock.lock i
      return { s with lock, calls := s.goto i c.op .entered }
    else none
  | .body i e => do
    let c ← s.calls i
    let (core, phase) ← body cfg c.op s.core e c.phase
    return { s with core, calls := s.goto i c.op phase }
  | .unlock i => do
    let c ← s.calls i
    match c.phase with
    | .leaving r => return { s with lock := s.lock.unlock, calls := s.goto i c.op (.done r) }
    | _ => none

/-- A transport and any number of calls. -/
def system (cfg : Config κ) : TransitionSystem (State C κ ε) (Step C ε) where
  init := ⟨.new, .unheld, fun _ => none⟩
  step := State.step cfg

/-- Everything a step of the call `i` can do. -/
inductive Move (cfg : Config κ) (s : State C κ ε) (i : ℕ) : State C κ ε → Prop
  | call {op : Op C} (hi : s.calls i = none) :
      Move cfg s i { s with calls := s.goto i op .start }
  | rlock {c : Call C ε} {lock : RWLock ℕ} (hi : s.calls i = some c)
      (hc : c.wantsRead) (hl : s.lock.rlock i = some lock) :
      Move cfg s i { s with lock, calls := s.goto i c.op .fast }
  | look {op : Op C} {phase : Phase C ε} (hi : s.calls i = some ⟨op, .fast⟩)
      (hp : look s.core op = some phase) :
      Move cfg s i { s with lock := s.lock.runlock i, calls := s.goto i op phase }
  | lock {c : Call C ε} {lock : RWLock ℕ} (hi : s.calls i = some c)
      (hc : c.wantsWrite) (hl : s.lock.lock i = some lock) :
      Move cfg s i { s with lock, calls := s.goto i c.op .entered }
  | body {op : Op C} {phase phase' : Phase C ε} {e : Event C ε} {core : Core C κ ε}
      (hi : s.calls i = some ⟨op, phase⟩)
      (hb : body cfg op s.core e phase = some (core, phase')) :
      Move cfg s i { s with core, calls := s.goto i op phase' }
  | unlock {op : Op C} {r : Result C ε} (hi : s.calls i = some ⟨op, .leaving r⟩) :
      Move cfg s i { s with lock := s.lock.unlock, calls := s.goto i op (.done r) }

theorem Move.of_step {cfg : Config κ} {s t : State C κ ε} {a : Step C ε}
    (h : s.step cfg a = some t) : Move cfg s a.caller t := by
  cases a with
  | call i op =>
    rw [State.step] at h
    split at h
    · contradiction
    case _ hi =>
      cases h
      exact .call hi
  | rlock i =>
    obtain ⟨c, hi, h⟩ := Option.bind_eq_some_iff.mp h
    split at h
    case isTrue hc =>
      obtain ⟨lock, hl, h⟩ := Option.bind_eq_some_iff.mp h
      cases h
      exact .rlock hi hc hl
    case isFalse => contradiction
  | look i =>
    obtain ⟨⟨op, phase⟩, hi, h⟩ := Option.bind_eq_some_iff.mp h
    cases phase with
    | fast =>
      obtain ⟨phase, hp, h⟩ := Option.bind_eq_some_iff.mp h
      cases h
      exact .look hi hp
    | _ => contradiction
  | lock i =>
    obtain ⟨c, hi, h⟩ := Option.bind_eq_some_iff.mp h
    split at h
    case isTrue hc =>
      obtain ⟨lock, hl, h⟩ := Option.bind_eq_some_iff.mp h
      cases h
      exact .lock hi hc hl
    case isFalse => contradiction
  | body i e =>
    obtain ⟨⟨op, phase⟩, hi, h⟩ := Option.bind_eq_some_iff.mp h
    obtain ⟨⟨core, phase'⟩, hb, h⟩ := Option.bind_eq_some_iff.mp h
    cases h
    exact .body hi hb
  | unlock i =>
    obtain ⟨⟨op, phase⟩, hi, h⟩ := Option.bind_eq_some_iff.mp h
    cases phase with
    | leaving r =>
      cases h
      exact .unlock hi
    | _ => contradiction

end System

end GoIndustrial.Transport
