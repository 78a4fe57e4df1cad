import GoIndustrial.Lib.Table
import GoIndustrial.Transport.Reconnecting
import Mathlib.Data.List.Nodup

/-!
# The life of connections

The record of what was made, closed and announced is kept as books. Under the write lock the books
and the fields of the transport may disagree for a moment (a connection that is closed is still the
current one, a new one has not been announced); `Stage` says by how much, and whoever lets go of the
lock leaves them in agreement, which is `Settled`.

## Main definitions

* `Transport.Account`, `Transport.HookHistory` : the books of connections and of callbacks.
* `Transport.Stage`, `Transport.Settled`, `Transport.Inv`.

## Main results

* `Transport.body_spec` : what a step under the write lock does.
* `Transport.Inv.step` : the invariant of the transport.
* `Transport.lifecycle`.
-/

namespace GoIndustrial.Transport

/-! ### The books -/

section Books

variable {C κ ε : Type}

/-- The callbacks that have run: in turn all connect callbacks and all disconnect callbacks, the
connect callbacks first. `up` says that the connect callbacks ran last. -/
inductive HookHistory (cfg : Config κ) : List (Fired κ ε) → Bool → Prop
  | nil : HookHistory cfg [] false
  | connect {l : List (Fired κ ε)} (h : HookHistory cfg l false) :
      HookHistory cfg (l ++ cfg.onConnect.map .connect) true
  | disconnect {l : List (Fired κ ε)} {err : Option ε} (h : HookHistory cfg l true) :
      HookHistory cfg (l ++ cfg.onDisconnect.map (.disconnect · err)) false

/-- The connections that were made, each once, are those that were closed and the one that is
`live`. -/
structure Account (cfg : Config κ) (core : Core C κ ε) (live : Option C) (up : Bool) : Prop where
  nodup : core.created.Nodup
  perm : core.created.Perm (core.closings ++ live.toList)
  hooks : HookHistory cfg core.fired up

namespace Account

variable {cfg : Config κ} {core : Core C κ ε} {live : Option C} {up : Bool} {c : C}

/-- The books do not depend on the fields. -/
theorem withFields (h : Account cfg core live up) (conn : Option C) (closed : Bool) :
    Account cfg { core with conn, closed } live up :=
  ⟨h.nodup, h.perm, h.hooks⟩

theorem create (h : Account cfg core none up) (hc : c ∉ core.created) :
    Account cfg { core with conn := some c, created := core.created ++ [c] } (some c) up where
  nodup := by simpa using List.Nodup.concat hc h.nodup
  perm := by simpa using h.perm.append_right [c]
  hooks := h.hooks

theorem closeConn (h : Account cfg core (some c) up) (hc : core.conn = some c) :
    Account cfg core.closeConn none up where
  nodup := h.nodup
  perm := by simpa [Core.closeConn, hc] using h.perm
  hooks := h.hooks

theorem fireOnConnect (h : Account cfg core live false) :
    Account cfg (core.fireOnConnect cfg) live true :=
  ⟨h.nodup, h.perm, h.hooks.connect⟩

theorem fireOnDisconnect (h : Account cfg core live true) (err : Option ε) :
    Account cfg (core.fireOnDisconnect cfg err) live false :=
  ⟨h.nodup, h.perm, h.hooks.disconnect⟩

end Account

/-- The books agree with the fields, as whoever holds the lock finds and leaves them. -/
structure Settled (cfg : Config κ) (core : Core C κ ε) : Prop where
  conn_of_closed : core.closed = true → core.conn = none
  account : Account cfg core core.conn core.conn.isSome

/-- How far books and fields are apart while a call of `op` is in a phase. -/
def Stage (cfg : Config κ) (core : Core C κ ε) (op : Op C) : Phase C ε → Prop
  | .entered => Settled cfg core
  | .connecting => core.closed = false ∧ core.conn = none ∧ Account cfg core none false
  | .connected c => core.closed = false ∧ core.conn = some c ∧ Account cfg core (some c) false
  | .closing => ∃ c, (op = .close ∧ core.closed = true ∨ op = .reset (some c)) ∧
      core.conn = some c ∧ Account cfg core (some c) true
  | .closed _ => (op = .close → core.closed = true) ∧ Account cfg core none true
  -- `Close` has fired the callbacks, `Reset` has let go of the connection
  | .halfway _ => op = .close ∧ core.closed = true ∧ Account cfg core none false ∨
      op ≠ .close ∧ core.conn = none ∧ Account cfg core none true
  | .leaving _ => Settled cfg core ∧ (op = .close → core.closed = true)
  | .start | .fast | .gap | .done _ => True

/-- How a call holds the lock. -/
def Phase.hold : Phase C ε → RWLock.Hold
  | .start | .gap | .done _ => .free
  | .fast => .reading
  | _ => .writing

variable {cfg : Config κ} {core core' : Core C κ ε} {op : Op C} {phase phase' : Phase C ε}
  {e : Event C ε}

theorem Stage.of_not_writing (h : phase.hold ≠ .writing) : Stage cfg core op phase := by
  cases phase <;> trivial

/-- A connection that has not been closed is the current one. -/
theorem Stage.account (h : Stage cfg core op phase) (hw : phase.hold = .writing) :
    ∃ live up, Account cfg core live up ∧ ∀ c, live = some c → core.conn = some c := by
  cases phase with
  | start | fast | gap | done => contradiction
  | entered => exact ⟨_, _, h.account, fun c hc => hc⟩
  | leaving => exact ⟨_, _, h.1.account, fun c hc => hc⟩
  | connecting => exact ⟨_, _, h.2.2, nofun⟩
  | connected c =>
    obtain ⟨-, hconn, hacc⟩ := h
    exact ⟨_, _, hacc, fun d hd => hconn.trans hd⟩
  | closing =>
    obtain ⟨c, -, hconn, hacc⟩ := h
    exact ⟨_, _, hacc, fun d hd => hconn.trans hd⟩
  | closed => exact ⟨_, _, h.2, nofun⟩
  | halfway =>
    rcases h with ⟨-, -, hacc⟩ | ⟨-, -, hacc⟩
    · exact ⟨_, _, hacc, nofun⟩
    · exact ⟨_, _, hacc, nofun⟩

/-- What a step under the write lock does. -/
structure Progress (cfg : Config κ) (op : Op C) (core core' : Core C κ ε)
    (phase phase' : Phase C ε) : Prop where
  stage : Stage cfg core' op phase'
  hold : phase.hold = .writing
  hold' : phase'.hold = .writing
  /-- A closed transport without a connection stays so. -/
  shut : core.closed = true → core.conn = none →
    core'.closed = true ∧ core'.conn = none ∧ core'.created = core.created
  /-- Only the current connection is closed, by `Close` or by a `Reset` of just this connection. -/
  closings : core'.closings = core.closings ∨ ∃ c, core.conn = some c ∧
    core'.closings = core.closings ++ [c] ∧ (op = .close ∨ op = .reset (some c))

theorem closeBody_spec (h : Stage cfg core .close phase)
    (hb : closeBody cfg core e phase = some (core', phase')) :
    Progress cfg .close core core' phase phase' := by
  rw [closeBody.eq_def] at hb
  split at hb
  case h_1 =>
    split at hb
    case isTrue hclosed =>
      cases hb
      exact ⟨⟨h, fun _ => hclosed⟩, rfl, rfl, fun h₁ h₂ => ⟨h₁, h₂, rfl⟩, .inl rfl⟩
    case isFalse =>
      have hacc := Settled.account h
      split at hb
      case isTrue hconn =>
        cases hb
        have hset : Settled cfg { core with closed := true } :=
          ⟨fun _ => hconn, hacc.withFields core.conn true⟩
        exact ⟨⟨hset, fun _ => rfl⟩, rfl, rfl, fun _ h₂ => ⟨rfl, h₂, rfl⟩, .inl rfl⟩
      case isFalse hconn =>
        cases hb
        obtain ⟨c, hc⟩ := Option.ne_none_iff_exists'.mp hconn
        rw [hc] at hacc
        exact ⟨⟨c, .inl ⟨rfl, rfl⟩, hc, hacc.withFields core.conn true⟩, rfl, rfl,
          fun _ h₂ => ⟨rfl, h₂, rfl⟩, .inl rfl⟩
  case h_2 err =>
    cases hb
    obtain ⟨c, hop, hc, hacc⟩ := h
    have hclosed : core.closed = true := by simpa using hop
    refine ⟨⟨fun _ => hclosed, hacc.closeConn hc⟩, rfl, rfl, fun h₁ h₂ => ⟨h₁, h₂, rfl⟩,
      .inr ⟨c, hc, ?_, .inl rfl⟩⟩
    rw [Core.closeConn, hc]
    rfl
  case h_3 err =>
    cases hb
    exact ⟨.inl ⟨rfl, h.1 rfl, h.2.fireOnDisconnect err⟩, rfl, rfl,
      fun h₁ h₂ => ⟨h₁, h₂, rfl⟩, .inl rfl⟩
  case h_4 err =>
    cases hb
    rcases h with ⟨-, hclosed, hacc⟩ | ⟨hop, -⟩
    · exact ⟨⟨⟨fun _ => rfl, hacc.withFields none core.closed⟩, fun _ => hclosed⟩, rfl, rfl,
        fun h₁ _ => ⟨h₁, rfl, rfl⟩, .inl rfl⟩
    · contradiction
  case h_5 => contradiction

variable [DecidableEq C]

theorem connBody_spec (h : Stage cfg core .conn phase)
    (hb : connBody cfg core e phase = some (core', phase')) :
    Progress cfg .conn core core' phase phase' := by
  rw [connBody.eq_def] at hb
  split at hb
  case h_1 =>
    split at hb
    case isTrue =>
      cases hb
      exact ⟨⟨h, nofun⟩, rfl, rfl, fun h₁ h₂ => ⟨h₁, h₂, rfl⟩, .inl rfl⟩
    case isFalse hopen =>
      have hopen := Bool.eq_false_iff.mpr hopen
      split at hb
      case h_1 c hc =>
        cases hb
        exact ⟨⟨h, nofun⟩, rfl, rfl, fun h₁ h₂ => ⟨h₁, h₂, rfl⟩, .inl rfl⟩
      case h_2 hc =>
        cases hb
        have hacc := Settled.account h
        rw [hc] at hacc
        exact ⟨⟨hopen, hc, hacc⟩, rfl, rfl, fun h₁ h₂ => ⟨h₁, h₂, rfl⟩, .inl rfl⟩
  case h_2 =>
    cases hb
    obtain ⟨hopen, hconn, hacc⟩ := h
    have hset : Settled cfg core := ⟨fun _ => hconn, by rw [hconn]; exact hacc⟩
    exact ⟨⟨hset, nofun⟩, rfl, rfl, fun h₁ h₂ => ⟨h₁, h₂, rfl⟩, .inl rfl⟩
  case h_3 c =>
    split at hb
    case isTrue => contradiction
    case isFalse hfresh =>
      cases hb
      obtain ⟨hopen, -, hacc⟩ := h
      refine ⟨⟨hopen, rfl, hacc.create hfresh⟩, rfl, rfl, fun h₁ => ?_, .inl rfl⟩
      rw [hopen] at h₁
      contradiction
  case h_4 c =>
    cases hb
    obtain ⟨hopen, hconn, hacc⟩ := h
    have hset : Settled cfg (core.fireOnConnect cfg) := by
      refine ⟨fun h₁ => ?_, ?_⟩
      · rw [Core.fireOnConnect, hopen] at h₁
        contradiction
      · rw [show (core.fireOnConnect cfg).conn = some c from hconn]
        exact hacc.fireOnConnect
    exact ⟨⟨hset, nofun⟩, rfl, rfl, fun h₁ h₂ => ⟨h₁, h₂, rfl⟩, .inl rfl⟩
  case h_5 => contradiction

theorem resetBody_spec {stale : Option C} (h : Stage cfg core (.reset stale) phase)
    (hb : resetBody cfg stale core e phase = some (core', phase')) :
    Progress cfg (.reset stale) core core' phase phase' := by
  rw [resetBody.eq_def] at hb
  split at hb
  case h_1 =>
    split at hb
    case isTrue =>
      cases hb
      exact ⟨⟨h, nofun⟩, rfl, rfl, fun h₁ h₂ => ⟨h₁, h₂, rfl⟩, .inl rfl⟩
    case isFalse hstale =>
      cases hb
      obtain ⟨hne, heq⟩ := not_or.mp hstale
      obtain ⟨c, hc⟩ := Option.ne_none_iff_exists'.mp hne
      have hop : Op.reset stale = .reset (some c) := by rw [← not_not.mp heq, hc]
      have hacc := Settled.account h
      rw [hc] at hacc
      exact ⟨⟨c, .inr hop, hc, hacc⟩, rfl, rfl, fun h₁ h₂ => ⟨h₁, h₂, rfl⟩, .inl rfl⟩
  case h_2 err =>
    cases hb
    obtain ⟨c, hop, hc, hacc⟩ := h
    have hop : Op.reset stale = .reset (some c) := by simpa using hop
    refine ⟨⟨nofun, hacc.closeConn hc⟩, rfl, rfl, fun h₁ h₂ => ⟨h₁, h₂, rfl⟩,
      .inr ⟨c, hc, ?_, .inr hop⟩⟩
    rw [Core.closeConn, hc]
    rfl
  case h_3 err =>
    cases hb
    exact ⟨.inr ⟨nofun, rfl, h.2.withFields none core.closed⟩, rfl, rfl,
      fun h₁ _ => ⟨h₁, rfl, rfl⟩, .inl rfl⟩
  case h_4 err =>
    cases hb
    rcases h with ⟨hop, -⟩ | ⟨-, hconn, hacc⟩
    · contradiction
    have hset : Settled cfg (core.fireOnDisconnect cfg err) := by
      refine ⟨fun _ => hconn, ?_⟩
      rw [show (core.fireOnDisconnect cfg err).conn = none from hconn]
      exact hacc.fireOnDisconnect err
    exact ⟨⟨hset, nofun⟩, rfl, rfl, fun h₁ h₂ => ⟨h₁, h₂, rfl⟩, .inl rfl⟩
  case h_5 => contradiction

theorem body_spec (h : Stage cfg core op phase)
    (hb : body cfg op core e phase = some (core', phase')) :
    Progress cfg op core core' phase phase' := by
  cases op with
  | conn => exact connBody_spec h hb
  | reset stale => exact resetBody_spec h hb
  | close => exact closeBody_spec h hb
  | peek => contradiction

end Books

/-! ### The invariant -/

section Inv

variable {C κ ε : Type}

/-- How the calls hold the lock. -/
def holds (calls : ℕ → Option (Call C ε)) (i : ℕ) : RWLock.Hold :=
  match calls i with
  | some c => c.phase.hold
  | none => .free

theorem holds_goto (s : State C κ ε) (i : ℕ) (op : Op C) (phase : Phase C ε) :
    holds (s.goto i op phase) = Function.update (holds s.calls) i phase.hold := by
  funext j
  rcases eq_or_ne j i with rfl | hne
  · simp [holds, State.goto]
  · simp [holds, State.goto, hne]

/-- The invariant of a transport with its calls. -/
structure Inv (cfg : Config κ) (s : State C κ ε) : Prop where
  tracks : s.lock.Tracks (holds s.calls)
  idle : (∀ i, holds s.calls i ≠ .writing) → Settled cfg s.core
  stage : ∀ i c, s.calls i = some c → Stage cfg s.core c.op c.phase
  returned : ∀ i c, s.calls i = some c → c.op = .close → (∃ r, c.phase = .done r) →
    s.core.closed = true ∧ s.core.conn = none

variable {cfg : Config κ} {s t : State C κ ε} {i : ℕ} {op : Op C} {phase : Phase C ε}

theorem holds_of_call {c : Call C ε} (hi : s.calls i = some c) :
    holds s.calls i = c.phase.hold := by
  rw [holds, hi]

/-- A call goes on outside the write lock. -/
theorem Inv.outside (h : Inv cfg s) {lock : RWLock ℕ}
    (hl : lock.Tracks (holds (s.goto i op phase))) (hi : holds s.calls i ≠ .writing)
    (hphase : phase.hold ≠ .writing) (hdone : op = .close → ∀ r, phase ≠ .done r) :
    Inv cfg { s with lock, calls := s.goto i op phase } where
  tracks := hl
  idle hfree := by
    refine h.idle fun j => ?_
    have hj := hfree j
    rw [holds_goto] at hj
    rcases eq_or_ne j i with rfl | hne
    · exact hi
    · rwa [Function.update_of_ne hne] at hj
  stage := Table.forall_update_some h.stage (.of_not_writing hphase)
  returned := Table.forall_update_some h.returned fun hop ⟨r, hr⟩ => absurd hr (hdone hop r)

/-- The only call under the write lock goes on, or lets go of it. -/
theorem Inv.inside (h : Inv cfg s) {core : Core C κ ε} {lock : RWLock ℕ}
    (hl : lock.Tracks (holds (s.goto i op phase)))
    (hothers : ∀ j ≠ i, holds s.calls j ≠ .writing)
    (hstage : Stage cfg core op phase) (hidle : phase.hold ≠ .writing → Settled cfg core)
    (hshut : s.core.closed = true → s.core.conn = none →
      core.closed = true ∧ core.conn = none)
    (hdone : op = .close → ∀ r, phase = .done r → core.closed = true ∧ core.conn = none) :
    Inv cfg ⟨core, lock, s.goto i op phase⟩ where
  tracks := hl
  idle hfree := by
    refine hidle ?_
    have hi := hfree i
    rwa [holds_goto, Function.update_self] at hi
  stage j c hc := by
    rcases Table.update_some_eq_some.mp hc with ⟨rfl, rfl⟩ | ⟨hne, hj⟩
    · exact hstage
    · have hhold := hothers j hne
      rw [holds_of_call hj] at hhold
      exact .of_not_writing hhold
  returned j c hc hop := by
    rintro ⟨r, hr⟩
    rcases Table.update_some_eq_some.mp hc with ⟨rfl, rfl⟩ | ⟨-, hj⟩
    · exact hdone hop r hr
    · obtain ⟨hclosed, hconn⟩ := h.returned j c hj hop ⟨r, hr⟩
      exact hshut hclosed hconn

theorem Call.hold_of_wantsRead {c : Call C ε} (h : c.wantsRead) : c.phase.hold = .free := by
  unfold Call.wantsRead at h
  split at h <;> first | rfl | contradiction

theorem hold_of_look {core : Core C κ ε} (h : look core op = some phase) :
    phase.hold = .free ∧ op ≠ .close := by
  cases op with
  | conn =>
    rw [look] at h
    split at h
    · cases h
      exact ⟨rfl, nofun⟩
    · split at h <;> obtain rfl := Option.some.inj h <;> exact ⟨rfl, nofun⟩
  | peek =>
    cases h
    exact ⟨rfl, nofun⟩
  | reset | close => contradiction

/-- A connection that has not been closed is the current one, in every state. -/
theorem Inv.account (h : Inv cfg s) :
    ∃ live up, Account cfg s.core live up ∧ ∀ c, live = some c → s.core.conn = some c := by
  by_cases hidle : ∀ i, holds s.calls i ≠ .writing
  · exact ⟨_, _, (h.idle hidle).account, fun c hc => hc⟩
  · obtain ⟨i, hi⟩ := not_forall.mp hidle
    have hi := not_not.mp hi
    rw [holds] at hi
    split at hi
    case h_1 c hc => exact (h.stage i c hc).account hi
    case h_2 => contradiction

variable [DecidableEq C]

theorem Inv.step (h : Inv cfg s) (hm : Move cfg s i t) : Inv cfg t := by
  cases hm with
  | call hi =>
    have hfree : holds s.calls i = .free := by rw [holds, hi]
    refine h.outside ?_ (by rw [hfree]; exact nofun) nofun nofun
    rw [holds_goto]
    simpa [Phase.hold, ← hfree] using h.tracks
  | @rlock c lock hi hc hl =>
    have hfree : holds s.calls i = .free := by rw [holds_of_call hi, c.hold_of_wantsRead hc]
    refine h.outside ?_ (by rw [hfree]; exact nofun) nofun nofun
    rw [holds_goto]
    exact h.tracks.rlock hfree hl
  | @look op phase hi hp =>
    have hreading : holds s.calls i = .reading := holds_of_call hi
    obtain ⟨hhold, hop⟩ := hold_of_look hp
    refine h.outside ?_ (by rw [hreading]; exact nofun) (by rw [hhold]; exact nofun)
      fun hclose => absurd hclose hop
    rw [holds_goto, hhold]
    exact h.tracks.runlock hreading
  | @lock c lock hi hc hl =>
    have hnone := h.tracks.not_writing (RWLock.lock_eq_some.mp hl).1
    refine h.inside ?_ (fun j _ => hnone j) (h.idle hnone) nofun (fun h₁ h₂ => ⟨h₁, h₂⟩) nofun
    rw [holds_goto]
    exact h.tracks.lock hl
  | @body op phase phase' e core hi hb =>
    have hp := body_spec (h.stage i _ hi) hb
    have hwriting : holds s.calls i = .writing := (holds_of_call hi).trans hp.hold
    refine h.inside ?_ (fun j hne hj => hne (h.tracks.eq_of_writing hj hwriting)) hp.stage
      (absurd hp.hold') (fun h₁ h₂ => ?_) fun _ r hr => ?_
    · rw [holds_goto, hp.hold', ← hwriting, Function.update_eq_self]
      exact h.tracks
    · obtain ⟨hclosed, hconn, -⟩ := hp.shut h₁ h₂
      exact ⟨hclosed, hconn⟩
    · have hhold := hp.hold'
      rw [hr] at hhold
      contradiction
  | @unlock op r hi =>
    have hwriting : holds s.calls i = .writing := holds_of_call hi
    obtain ⟨hset, hclose⟩ := h.stage i _ hi
    refine h.inside ?_ (fun j hne hj => hne (h.tracks.eq_of_writing hj hwriting)) trivial
      (fun _ => hset) (fun h₁ h₂ => ⟨h₁, h₂⟩) fun hop _ _ => ?_
    · rw [holds_goto]
      exact h.tracks.unlock hwriting
    · exact ⟨hclose hop, hset.conn_of_closed (hclose hop)⟩

theorem Inv.init : Inv cfg (system cfg : TransitionSystem (State C κ ε) (Step C ε)).init where
  tracks := .unheld
  idle _ := ⟨nofun, List.nodup_nil, .nil, .nil⟩
  stage := nofun
  returned := nofun

end Inv

/-! ### The life of connections -/

section Lifecycle

variable {C κ ε : Type}

/-- A connection that was made and has not been closed. -/
def State.Open (s : State C κ ε) (c : C) : Prop := c ∈ s.core.created ∧ c ∉ s.core.closings

/-- A `Close` has returned. -/
def State.CloseReturned (s : State C κ ε) : Prop := ∃ i r, s.calls i = some ⟨.close, .done r⟩

variable {cfg : Config κ} {s t : State C κ ε} {i : ℕ} {c : C}

theorem Inv.conn_of_open (h : Inv cfg s) (hc : s.Open c) : s.core.conn = some c := by
  obtain ⟨live, up, hacc, hlive⟩ := h.account
  have hmem := hacc.perm.subset hc.1
  rw [List.mem_append] at hmem
  have hmem := hmem.resolve_left hc.2
  exact hlive c (Option.mem_toList.mp hmem)

theorem Inv.nodup_closings (h : Inv cfg s) : s.core.closings.Nodup := by
  obtain ⟨live, up, hacc, -⟩ := h.account
  have hnodup := hacc.perm.nodup_iff.mp hacc.nodup
  exact (List.nodup_append.mp hnodup).1

variable [DecidableEq C]

/-- A step of a call closes at most the current connection, and only if the call is a `Close` or a
`Reset` of just this connection. -/
theorem Inv.closings (h : Inv cfg s) (hm : Move cfg s i t) :
    t.core.closings = s.core.closings ∨ ∃ op phase c, s.calls i = some ⟨op, phase⟩ ∧
      s.core.conn = some c ∧ t.core.closings = s.core.closings ++ [c] ∧
      (op = .close ∨ op = .reset (some c)) := by
  cases hm with
  | call | rlock | look | lock | unlock => exact .inl rfl
  | @body op phase phase' e core hi hb =>
    rcases (body_spec (h.stage i _ hi) hb).closings with heq | ⟨c, hc⟩
    · exact .inl heq
    · exact .inr ⟨op, phase, c, hi, hc⟩

/-- What stays as it is once a `Close` has returned. -/
structure Shut (cfg : Config κ) (created : List C) (s : State C κ ε) : Prop where
  inv : Inv cfg s
  closed : s.core.closed = true
  conn : s.core.conn = none
  created_eq : s.core.created = created

theorem Shut.step {created : List C} (h : Shut cfg created s) (hm : Move cfg s i t) :
    Shut cfg created t := by
  have hinv := h.inv.step hm
  cases hm with
  | call | rlock | look | lock | unlock => exact ⟨hinv, h.closed, h.conn, h.created_eq⟩
  | body hi hb =>
    obtain ⟨hclosed, hconn, hcreated⟩ := (body_spec (h.inv.stage i _ hi) hb).shut h.closed h.conn
    exact ⟨hinv, hclosed, hconn, hcreated.trans h.created_eq⟩

/-- At most one connection is open; every connection that was made is the current one or was closed
exactly once; a `Reset` of a connection that is not the current one closes nothing; connect and
disconnect callbacks run in turn, connect callbacks first; and once a `Close` has returned, no
connection is open and none is made. -/
theorem lifecycle (cfg : Config κ) (s : State C κ ε)
    (h : (system cfg).Reachable (fun _ _ => True) s) :
    (∀ c d, s.Open c → s.Open d → c = d) ∧
    (∀ c ∈ s.core.created, s.core.conn = some c ∧ s.Open c ∨ s.core.closings.count c = 1) ∧
    (∀ a t stale phase, s.calls a.caller = some ⟨.reset stale, phase⟩ → s.core.conn ≠ stale →
      s.step cfg a = some t → t.core.closings = s.core.closings) ∧
    (∃ up, HookHistory cfg s.core.fired up) ∧
    (s.CloseReturned → ∀ as t, (system cfg).Run (fun _ _ => True) s as t →
      (∀ c, ¬t.Open c) ∧ t.core.created = s.core.created) := by
  have hinv : Inv cfg s :=
    h.invariant (M := system cfg) .init fun s a t hs _ hstep => hs.step (Move.of_step hstep)
  refine ⟨fun c d hc hd => ?_, fun c hc => ?_, fun a t stale phase hi hstale hstep => ?_, ?_,
    fun ⟨i, r, hi⟩ as t hrun => ?_⟩
  · exact Option.some.inj ((hinv.conn_of_open hc).symm.trans (hinv.conn_of_open hd))
  · by_cases hclosed : c ∈ s.core.closings
    · exact .inr (List.count_eq_one_of_mem hinv.nodup_closings hclosed)
    · exact .inl ⟨hinv.conn_of_open ⟨hc, hclosed⟩, hc, hclosed⟩
  · rcases hinv.closings (Move.of_step hstep) with heq | ⟨op, phase', c, hi', hc, -, hop⟩
    · exact heq
    · obtain ⟨rfl, -⟩ := Call.mk.inj (Option.some.inj (hi.symm.trans hi'))
      simp only [reduceCtorEq, Op.reset.injEq, false_or] at hop
      exact absurd (hc.trans hop.symm) hstale
  · obtain ⟨live, up, hacc, -⟩ := hinv.account
    exact ⟨up, hacc.hooks⟩
  · obtain ⟨hclosed, hconn⟩ := hinv.returned i _ hi rfl ⟨r, rfl⟩
    have hshut : Shut cfg s.core.created t :=
      hrun.invariant (fun s a t hs _ hstep => hs.step (Move.of_step hstep))
        ⟨hinv, hclosed, hconn, rfl⟩
    refine ⟨fun c hc => ?_, hshut.created_eq⟩
    have hconn' := hshut.inv.conn_of_open hc
    rw [hshut.conn] at hconn'
    contradiction

end Lifecycle

/-- Two calls of `Conn` look before there is a connection, and only one connects; a `Reset` of the
connection closes it, a second one closes nothing, and `Close` closes the next connection. -/
theorem lifecycle_closed :
    let cfg : Config Unit := ⟨[()], [()]⟩
    ∃ s : State ℕ Unit Unit, (system cfg).Reachable (fun _ _ => True) s ∧
      s.core.created = [7, 8] ∧ s.core.closings = [7, 8] ∧ s.CloseReturned ∧
      (∀ c, ¬s.Open c) ∧ ∃ up, HookHistory cfg s.core.fired up := by
  intro cfg
  let seen (s : State ℕ Unit Unit) := (s.core.created, s.core.closings, s.calls 5)
  obtain ⟨s, hs, hseen⟩ := TransitionSystem.exists_reachable_of_exec (M := system cfg)
    (G := fun _ _ => True) (f := seen) (b := ([7, 8], [7, 8], some ⟨.close, .done .ok⟩))
    [.call 0 .conn, .call 1 .conn, .rlock 0, .rlock 1, .look 0, .look 1,
      .lock 0, .body 0 .statement, .body 0 (.connect (.ok 7)), .body 0 .statement, .unlock 0,
      .lock 1, .body 1 .statement, .unlock 1,
      .call 2 (.reset (some 7)), .call 4 (.reset (some 7)),
      .lock 2, .body 2 .statement, .body 2 (.close none), .body 2 .statement, .body 2 .statement,
      .unlock 2,
      .call 3 .conn, .rlock 3, .look 3, .lock 3, .body 3 .statement, .body 3 (.connect (.ok 8)),
      .body 3 .statement, .unlock 3,
      .lock 4, .body 4 .statement, .unlock 4,
      .call 5 .close, .lock 5, .body 5 .statement, .body 5 (.close none), .body 5 .statement,
      .body 5 .statement, .unlock 5]
    (by decide +kernel)
  obtain ⟨hcreated, hclosings, hcall⟩ : s.core.created = [7, 8] ∧ s.core.closings = [7, 8] ∧
    s.calls 5 = some ⟨.close, .done .ok⟩ := by simpa [seen] using hseen
  obtain ⟨-, -, -, hhooks, hclosed⟩ := lifecycle cfg s hs
  have hreturned : s.CloseReturned := ⟨5, .ok, hcall⟩
  exact ⟨s, hs, hcreated, hclosings, hreturned, (hclosed hreturned [] s (.nil s)).1, hhooks⟩

end GoIndustrial.Transport
