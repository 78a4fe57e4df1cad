import GoIndustrial.EtherNetIP.Callbacks
import GoIndustrial.EtherNetIP.Receipt
import GoIndustrial.Lib.TransitionSystem

/-!
# The adapter under concurrent requests

Requests to the connection manager are served by concurrent goroutines. A request changes the table
under the lock of the manager and then runs the callback of the application without it, so that the
change of the table and the two parts of the callback are separate steps, and other requests,
datagrams and the watchdog of the runtime come between them. The state has beside the table and the
runtime what each connection has gone through: connections are numbered in the order in which they
were opened, and for every place of the table and of the runtime it is noted which connection was
put there last.

What the callbacks make of this is in `GoIndustrial.EtherNetIP.CallbackOrder`, and what the watchdog
makes of it in `GoIndustrial.EtherNetIP.Reopening`.

## Main definitions

* `EtherNetIP.ConnLife` : what a connection has gone through.
* `EtherNetIP.IOAdapter`, `EtherNetIP.AdapterStep`, `EtherNetIP.IOAdapter.system`.
* `EtherNetIP.IOAdapter.Inv` : how the table, the runtime and the connections know of each other.

## Main results

* `EtherNetIP.IOAdapter.Inv.step_spec` : what a step does.
* `EtherNetIP.IOAdapter.Inv.step` : the invariant is kept.
-/

namespace GoIndustrial.EtherNetIP

/-! ### The system -/

/-- What the open callback of a connection does next. -/
inductive OpenPhase
  | addConsumer
  | addProducer
  | finished
  deriving DecidableEq, Repr

/-- What the close callback of a connection does next. -/
inductive ClosePhase
  | removeConsumer
  | removeProducer
  | finished
  deriving DecidableEq, Repr

/-- What a connection has gone through. -/
structure ConnLife where
  conn : Connection
  req : ForwardOpenRequest
  opening : OpenPhase
  /-- The connection has been taken out of the table. -/
  closing : Option ClosePhase
  /-- The watchdog has removed one of its cyclic connections. -/
  expired : Bool
  deriving DecidableEq, Repr

structure IOAdapter where
  connMgr : ConnectionManager
  runtime : Runtime
  /-- The connections by the order in which they were opened. -/
  lives : ℕ → Option ConnLife
  opens : ℕ
  /-- The number of the connection that was stored last under an identifier. -/
  number : UInt32 → ℕ
  /-- The number of the connection that has added last a cyclic connection under an identifier. -/
  owner : UInt32 → ℕ

/-- An atomic step. A request is decoded before it takes the lock. -/
inductive AdapterStep
  | forwardOpen (req : ForwardOpenRequest)
  | forwardClose (req : ForwardCloseRequest)
  /-- The next part of the open callback of a connection. -/
  | openCallback (n : ℕ) (now : ℤ)
  /-- The next part of the close callback of a connection. -/
  | closeCallback (n : ℕ)
  | datagram (data : List UInt8) (now : ℤ)
  | watchdog (now : ℤ)

namespace IOAdapter

def new (ao : AssemblyObject) : IOAdapter :=
  ⟨.newConnectionManager, .newRuntime ao, fun _ => none, 0, fun _ => 0, fun _ => 0⟩

/-- A part of the open callback. -/
def add (s : IOAdapter) (n : ℕ) (life : ConnLife) (conn : IOConnection) (now : ℤ) : IOAdapter :=
  { s with
    runtime := s.runtime.addConnection conn now
    lives := Function.update s.lives n (some life)
    owner := Function.update s.owner conn.connectionID n }

/-- A part of the close callback. -/
def remove (s : IOAdapter) (n : ℕ) (life : ConnLife) (connID : UInt32) : IOAdapter :=
  { s with
    runtime := s.runtime.removeConnection connID
    lives := Function.update s.lives n (some life) }

/-- The connection has a cyclic connection that has timed out. -/
def expires (s : IOAdapter) (now : ℤ) (n : ℕ) (life : ConnLife) : Bool :=
  [life.conn.otConnectionID, life.conn.toConnectionID].any fun id =>
    s.owner id == n && (s.runtime.connections id).any fun conn => Runtime.timedOut conn now

def step (s : IOAdapter) : AdapterStep → Option IOAdapter
  | .forwardOpen req =>
    match s.connMgr.openConnection req with
    | (.error _, connMgr) => some { s with connMgr }
    | (.ok conn, connMgr) =>
      some { s with
        connMgr
        lives := Function.update s.lives s.opens (some ⟨conn, req, .addConsumer, none, false⟩)
        opens := s.opens + 1
        number := Function.update s.number conn.toConnectionID s.opens }
  | .forwardClose req =>
    match s.connMgr.closeConnection req with
    | (none, connMgr) => some { s with connMgr }
    | (some conn, connMgr) =>
      some { s with
        connMgr
        lives := Function.update s.lives (s.number conn.toConnectionID)
          ((s.lives (s.number conn.toConnectionID)).map fun life =>
            { life with closing := some .removeConsumer }) }
  | .openCallback n now =>
    match s.lives n with
    | none => none
    | some life =>
      match life.opening with
      | .addConsumer => some (s.add n { life with opening := .addProducer }
          (consumer s.runtime.assemblyObj life.conn life.req) now)
      | .addProducer => some (s.add n { life with opening := .finished }
          (producer s.runtime.assemblyObj life.conn life.req) now)
      | .finished => none
  | .closeCallback n =>
    match s.lives n with
    | none => none
    | some life =>
      match life.closing with
      | some .removeConsumer => some (s.remove n { life with closing := some .removeProducer }
          life.conn.otConnectionID)
      | some .removeProducer => some (s.remove n { life with closing := some .finished }
          life.conn.toConnectionID)
      | _ => none
  | .datagram data now =>
    match s.runtime.handlePacket data now with
    | .ok runtime => some { s with runtime }
    | .error _ => none
  | .watchdog now =>
    some { s with
      runtime := s.runtime.checkTimeouts now
      lives := fun n => (s.lives n).map fun life =>
        { life with expired := life.expired || s.expires now n life } }

def system (ao : AssemblyObject) : TransitionSystem IOAdapter AdapterStep := ⟨new ao, step⟩

/-! ### What a step does -/

/-- The table, the runtime and the connections know of each other. -/
structure Inv (s : IOAdapter) : Prop where
  stored_id : ∀ id conn, s.connMgr.stored id = some conn → conn.toConnectionID = id
  stored_life : ∀ id conn, s.connMgr.stored id = some conn →
    ∃ life, s.lives (s.number id) = some life ∧ life.conn = conn ∧ life.closing = none
  lives_lt : ∀ n life, s.lives n = some life → n < s.opens
  owned : ∀ id c, s.runtime.connections id = some c →
    ∃ life, s.lives (s.owner id) = some life ∧
      (id = life.conn.otConnectionID ∨ id = life.conn.toConnectionID)

/-- The outcomes of a step. -/
inductive StepSpec (s : IOAdapter) : AdapterStep → IOAdapter → Prop
  | rejected (req : ForwardOpenRequest) (h : s.connMgr.Has req.triad) :
    StepSpec s (.forwardOpen req) s
  | opened (req : ForwardOpenRequest) (connMgr : ConnectionManager)
      (h : ¬ s.connMgr.Has req.triad) (hnext : connMgr.nextConnID = s.connMgr.nextConnID + 1)
      (hstored : connMgr.stored = Function.update s.connMgr.stored (s.connMgr.nextConnID + 1)
        (some (s.connMgr.newConnection req))) :
    StepSpec s (.forwardOpen req)
      { s with
        connMgr
        lives := Function.update s.lives s.opens
          (some ⟨s.connMgr.newConnection req, req, .addConsumer, none, false⟩)
        opens := s.opens + 1
        number := Function.update s.number (s.connMgr.nextConnID + 1) s.opens }
  | unknown (req : ForwardCloseRequest) : StepSpec s (.forwardClose req) s
  | closed (req : ForwardCloseRequest) (id : UInt32) (life : ConnLife)
      (connMgr : ConnectionManager) (hid : s.connMgr.stored id = some life.conn)
      (htriad : life.conn.triad = req.triad) (hlife : s.lives (s.number id) = some life)
      (hopen : life.closing = none)
      (hstored : connMgr.stored = Function.update s.connMgr.stored id none) :
    StepSpec s (.forwardClose req)
      { s with
        connMgr
        lives := Function.update s.lives (s.number id)
          (some { life with closing := some .removeConsumer }) }
  | addConsumer (n : ℕ) (now : ℤ) (life : ConnLife) (hlife : s.lives n = some life)
      (hopening : life.opening = .addConsumer) :
    StepSpec s (.openCallback n now) (s.add n { life with opening := .addProducer }
      (consumer s.runtime.assemblyObj life.conn life.req) now)
  | addProducer (n : ℕ) (now : ℤ) (life : ConnLife) (hlife : s.lives n = some life)
      (hopening : life.opening = .addProducer) :
    StepSpec s (.openCallback n now) (s.add n { life with opening := .finished }
      (producer s.runtime.assemblyObj life.conn life.req) now)
  | removeConsumer (n : ℕ) (life : ConnLife) (hlife : s.lives n = some life)
      (hclosing : life.closing = some .removeConsumer) :
    StepSpec s (.closeCallback n) (s.remove n { life with closing := some .removeProducer }
      life.conn.otConnectionID)
  | removeProducer (n : ℕ) (life : ConnLife) (hlife : s.lives n = some life)
      (hclosing : life.closing = some .removeProducer) :
    StepSpec s (.closeCallback n) (s.remove n { life with closing := some .finished }
      life.conn.toConnectionID)
  | datagram (data : List UInt8) (now : ℤ) (runtime : Runtime)
      (h : s.runtime.handlePacket data now = .ok runtime) :
    StepSpec s (.datagram data now) { s with runtime }
  | watchdog (now : ℤ) :
    StepSpec s (.watchdog now)
      { s with
        runtime := s.runtime.checkTimeouts now
        lives := fun n => (s.lives n).map fun life =>
          { life with expired := life.expired || s.expires now n life } }

variable {s s' : IOAdapter} {a : AdapterStep}

theorem Inv.step_spec (hi : s.Inv) (h : s.step a = some s') : StepSpec s a s' := by
  cases a with
  | forwardOpen req =>
    have hspec := s.connMgr.openConnection_spec req
    rw [step] at h
    generalize s.connMgr.openConnection req = result at hspec h
    cases hspec with
    | duplicate hhas =>
      cases h
      exact .rejected req hhas
    | opened connMgr hnew hnext hstored =>
      cases h
      exact .opened req connMgr hnew hnext hstored
  | forwardClose req =>
    have hspec := s.connMgr.closeConnection_spec req
    rw [step] at h
    generalize s.connMgr.closeConnection req = result at hspec h
    cases hspec with
    | unknown =>
      cases h
      exact .unknown req
    | closed id conn connMgr hid htriad hnext hstored =>
      obtain ⟨life, hlife, rfl, hopen⟩ := hi.stored_life id conn hid
      cases h
      rw [hi.stored_id id _ hid, hlife]
      exact .closed req id life connMgr hid htriad hlife hopen hstored
  | openCallback n now =>
    rw [step] at h
    match hlife : s.lives n with
    | none =>
      rw [hlife] at h
      cases h
    | some life =>
      rw [hlife] at h
      match hopening : life.opening with
      | .addConsumer =>
        simp only [hopening, Option.some.injEq] at h
        obtain rfl := h
        exact .addConsumer n now life hlife hopening
      | .addProducer =>
        simp only [hopening, Option.some.injEq] at h
        obtain rfl := h
        exact .addProducer n now life hlife hopening
      | .finished =>
        simp only [hopening] at h
        cases h
  | closeCallback n =>
    rw [step] at h
    match hlife : s.lives n with
    | none =>
      rw [hlife] at h
      cases h
    | some life =>
      rw [hlife] at h
      match hclosing : life.closing with
      | some .removeConsumer =>
        simp only [hclosing, Option.some.injEq] at h
        obtain rfl := h
        exact .removeConsumer n life hlife hclosing
      | some .removeProducer =>
        simp only [hclosing, Option.some.injEq] at h
        obtain rfl := h
        exact .removeProducer n life hlife hclosing
      | some .finished | none =>
        simp only [hclosing] at h
        cases h
  | datagram data now =>
    rw [step] at h
    match hpacket : s.runtime.handlePacket data now with
    | .ok runtime =>
      rw [hpacket] at h
      cases h
      exact .datagram data now runtime hpacket
    | .error _ =>
      rw [hpacket] at h
      cases h
  | watchdog now =>
    cases h
    exact .watchdog now

/-! ### What holds in every run -/

theorem inv_new (ao : AssemblyObject) : (new ao).Inv where
  stored_id _ _ h := nomatch h
  stored_life _ _ h := nomatch h
  lives_lt _ _ h := nomatch h
  owned _ _ h := nomatch h

/-- The next number has not been used. -/
theorem Inv.update_opens (hi : s.Inv) {n : ℕ} {life : ConnLife} (hlife : s.lives n = some life)
    (entry : Option ConnLife) : Function.update s.lives s.opens entry n = some life := by
  rw [Function.update_of_ne (hi.lives_lt n life hlife).ne, hlife]

/-- A new connection. -/
theorem Inv.opened (hi : s.Inv) {connMgr : ConnectionManager} {life : ConnLife}
    (hid : life.conn.toConnectionID = s.connMgr.nextConnID + 1) (hopen : life.closing = none)
    (hstored : connMgr.stored =
      Function.update s.connMgr.stored (s.connMgr.nextConnID + 1) (some life.conn)) :
    Inv { s with
      connMgr
      lives := Function.update s.lives s.opens (some life)
      opens := s.opens + 1
      number := Function.update s.number (s.connMgr.nextConnID + 1) s.opens } := by
  refine ⟨?_, fun id conn h => ?_, ?_, fun id c h => ?_⟩
  · dsimp only
    rw [hstored]
    exact Table.forall_update_some hi.stored_id hid
  · rw [hstored, Table.update_some_eq_some] at h
    dsimp only
    rcases h with ⟨rfl, rfl⟩ | ⟨hne, h⟩
    · rw [Function.update_self, Function.update_self]
      exact ⟨life, rfl, rfl, hopen⟩
    · obtain ⟨l, hl, hconn⟩ := hi.stored_life id conn h
      rw [Function.update_of_ne hne]
      exact ⟨l, hi.update_opens hl _, hconn⟩
  · exact Table.forall_update_some (fun n l h => Nat.lt_succ_of_lt (hi.lives_lt n l h))
      (Nat.lt_succ_self _)
  · obtain ⟨l, hl, hid⟩ := hi.owned id c h
    exact ⟨l, hi.update_opens hl _, hid⟩

/-- A connection that is taken out of the table. -/
theorem Inv.closed (hi : s.Inv) {connMgr : ConnectionManager} {id : UInt32} {life : ConnLife}
    (hid : s.connMgr.stored id = some life.conn) (hlife : s.lives (s.number id) = some life)
    (hstored : connMgr.stored = Function.update s.connMgr.stored id none) :
    Inv { s with
      connMgr
      lives := Function.update s.lives (s.number id)
        (some { life with closing := some .removeConsumer }) } := by
  refine ⟨?_, fun id' conn h => ?_, ?_, fun id' c h => ?_⟩
  · dsimp only
    rw [hstored]
    exact Table.forall_update_none hi.stored_id
  · rw [hstored, Table.update_none_eq_some] at h
    obtain ⟨l, hl, hconn, hopen⟩ := hi.stored_life id' conn h.2
    -- The place of the table tells the connection.
    have hne : s.number id' ≠ s.number id := by
      intro heq
      rw [heq, hlife] at hl
      cases hl
      exact h.1 ((hi.stored_id id' conn h.2).symm.trans
        ((congrArg Connection.toConnectionID hconn).symm.trans (hi.stored_id id _ hid)))
    exact ⟨l, (Function.update_of_ne hne _ _).trans hl, hconn, hopen⟩
  · exact Table.forall_update_some hi.lives_lt (hi.lives_lt _ life hlife)
  · exact Table.exists_update_some hlife (fun hP => hP) (hi.owned id' c h)

/-- A callback, which goes on with a connection and changes the runtime. -/
theorem Inv.callback (hi : s.Inv) {runtime : Runtime} {owner : UInt32 → ℕ} {n : ℕ}
    {life life' : ConnLife} (hlife : s.lives n = some life) (hconn : life'.conn = life.conn)
    (hclosing : life.closing = none → life'.closing = none)
    (howned : ∀ id c, runtime.connections id = some c →
      owner id = n ∧ (id = life.conn.otConnectionID ∨ id = life.conn.toConnectionID) ∨
        owner id = s.owner id ∧ s.runtime.connections id = some c) :
    Inv { s with runtime, lives := Function.update s.lives n (some life'), owner } := by
  refine ⟨hi.stored_id, fun id conn h => ?_, ?_, fun id c h => ?_⟩
  · refine Table.exists_update_some hlife (fun hP => ?_) (hi.stored_life id conn h)
    exact ⟨hconn.trans hP.1, hclosing hP.2⟩
  · exact Table.forall_update_some hi.lives_lt (hi.lives_lt n life hlife)
  · dsimp only
    rcases howned id c h with ⟨hown, hid⟩ | ⟨hown, h⟩
    · rw [hown, Function.update_self]
      exact ⟨life', rfl, hconn ▸ hid⟩
    · rw [hown]
      refine Table.exists_update_some hlife (fun hP => ?_) (hi.owned id c h)
      rwa [hconn]

/-- A cyclic connection is the one that was added, or was there. -/
theorem connections_addConnection {r : Runtime} {conn c : IOConnection} {now : ℤ} {id : UInt32}
    (owner : UInt32 → ℕ) (n : ℕ) (h : (r.addConnection conn now).connections id = some c) :
    id = conn.connectionID ∧ Function.update owner conn.connectionID n id = n ∨
      id ≠ conn.connectionID ∧ Function.update owner conn.connectionID n id = owner id ∧
        r.connections id = some c := by
  rcases Table.update_some_eq_some.mp h with ⟨rfl, -⟩ | ⟨hne, h⟩
  · exact .inl ⟨rfl, Function.update_self _ _ _⟩
  · exact .inr ⟨hne, Function.update_of_ne hne _ _, h⟩

theorem Inv.step (hi : s.Inv) (h : s.step a = some s') : s'.Inv := by
  cases hi.step_spec h with
  | rejected | unknown => exact hi
  | opened req connMgr _ _ hstored => exact hi.opened rfl rfl hstored
  | closed req id life connMgr hid _ hlife _ hstored => exact hi.closed hid hlife hstored
  | addConsumer n now life hlife =>
    refine hi.callback hlife rfl id fun id c hc => ?_
    rcases connections_addConnection s.owner n hc with ⟨rfl, hown⟩ | ⟨-, hown, hc⟩
    · exact .inl ⟨hown, .inl rfl⟩
    · exact .inr ⟨hown, hc⟩
  | addProducer n now life hlife =>
    refine hi.callback hlife rfl id fun id c hc => ?_
    rcases connections_addConnection s.owner n hc with ⟨rfl, hown⟩ | ⟨-, hown, hc⟩
    · exact .inl ⟨hown, .inr rfl⟩
    · exact .inr ⟨hown, hc⟩
  | removeConsumer n life hlife hclosing =>
    refine hi.callback hlife rfl (fun hopen => ?_) fun id c hc => ?_
    · cases hclosing.symm.trans hopen
    · exact .inr ⟨rfl, (Table.update_none_eq_some.mp hc).2⟩
  | removeProducer n life hlife hclosing =>
    refine hi.callback hlife rfl (fun hopen => ?_) fun id c hc => ?_
    · cases hclosing.symm.trans hopen
    · exact .inr ⟨rfl, (Table.update_none_eq_some.mp hc).2⟩
  | datagram data now runtime hpacket =>
    refine ⟨hi.stored_id, hi.stored_life, hi.lives_lt, fun id c hc => ?_⟩
    obtain ⟨c', hc', -⟩ := Runtime.exists_of_handlePacket hpacket hc
    exact hi.owned id c' hc'
  | watchdog now =>
    refine ⟨hi.stored_id, fun id conn hconn => ?_, fun n l hl => ?_, fun id c hc => ?_⟩
    · obtain ⟨life, hlife, hP⟩ := hi.stored_life id conn hconn
      exact ⟨_, Option.map_eq_some_iff.mpr ⟨life, hlife, rfl⟩, hP⟩
    · obtain ⟨life, hlife, -⟩ := Option.map_eq_some_iff.mp hl
      exact hi.lives_lt n life hlife
    · obtain ⟨hc, -⟩ := Option.filter_eq_some_iff.mp hc
      obtain ⟨life, hlife, hP⟩ := hi.owned id c hc
      exact ⟨_, Option.map_eq_some_iff.mpr ⟨life, hlife, rfl⟩, hP⟩

end IOAdapter

end GoIndustrial.EtherNetIP
