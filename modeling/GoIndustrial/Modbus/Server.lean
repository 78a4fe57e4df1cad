import GoIndustrial.Lib.Table
import GoIndustrial.Lib.TransitionSystem
import GoIndustrial.Modbus.Handlers
import Mathlib.Data.Finset.Card
import Mathlib.Data.List.AList

/-!
# Connections from accept to Stop

`acceptLoop`, `handleConnection` and `Stop` of `protocol/modbus/server.go` as atomic steps of one
system: the accept loop takes a connection, checks the client limit, puts the connection into the
table and starts its handler; a handler receives requests, dispatches them on the store and, when it
leaves its loop, deletes its address from the table and closes the connection; `Stop` signals the
accept loop, closes the listener, closes the connections in the table and empties it, and returns.
`dispatchRequest` needs a lock that `Stop` holds from beginning to end.

A handler reads a request only from a connection that is open, and `Accept` returns no connection of
a closed listener. How the bytes of a request are read is `GoIndustrial.Modbus.ServerLoop`.

The table has the remote address as its key. Two connections with one address share an entry, which
the later one overwrites and either cleanup deletes.

## Main definitions

* `Modbus.ServerState`, `Modbus.serverSystem` : the server from `Start` on.
* `Modbus.ServerState.Live` : a connection that is open, with an entry to be expected in the table.
* `Modbus.TracksLive` : the table and the limit are right, and `Stop` reaches every connection.
* `Modbus.FreshAddress` : no two connections share an address.

## Main results

* `Modbus.ServerState.Inv.step` : the invariant that relates the table to the connections.
* `Modbus.tracksLive_of_freshAddress` : runs in which addresses are fresh.
* `Modbus.shared_address_outlives_stop` : a run in which they are not.
-/

namespace GoIndustrial.Modbus

/-! ### States -/

/-- What is done with a connection. -/
inductive ConnPhase
  /-- The accept loop has it. -/
  | held
  /-- It was put into the table, and its handler has not been started. -/
  | tracked
  /-- Its handler reads, or has a request and the news whether `Stop` had returned before the last
  byte of it was read. -/
  | serving (request : Option (Request × Bool))
  /-- Its handler has left the loop and deleted the address from the table. -/
  | removed
  | ended

/-- The connection has an entry in the table that its handler will delete. -/
def ConnPhase.isTracked : ConnPhase → Bool
  | tracked | serving _ => true
  | held | removed | ended => false

structure ServerConn where
  remoteAddr : String
  isOpen : Bool
  phase : ConnPhase

/-- Where the accept loop is; connections have numbers. -/
inductive AcceptPhase
  | waiting
  | accepted (id : ℕ)
  /-- The limit was checked. -/
  | checked (id : ℕ)
  | inserted (id : ℕ)
  | returned
  deriving DecidableEq

/-- The accept loop has a connection that is not in the table. -/
def AcceptPhase.Holds : AcceptPhase → Prop
  | accepted _ | checked _ => True
  | waiting | inserted _ | returned => False

instance : DecidablePred AcceptPhase.Holds
  | .accepted _ | .checked _ => inferInstanceAs (Decidable True)
  | .waiting | .inserted _ | .returned => inferInstanceAs (Decidable False)

/-- How far `Stop` is. -/
inductive StopPhase
  | running
  /-- `stopChan` is closed. -/
  | signalled
  | listenerClosed
  /-- The connections of the table are closed, and the table is empty. -/
  | cleared
  | returned
  deriving DecidableEq

/-- `Stop` holds the server's lock. -/
def StopPhase.Locked : StopPhase → Prop
  | signalled | listenerClosed | cleared => True
  | running | returned => False

instance : DecidablePred StopPhase.Locked
  | .signalled | .listenerClosed | .cleared => inferInstanceAs (Decidable True)
  | .running | .returned => inferInstanceAs (Decidable False)

/-- The state of a server; connections have numbers in the order in which they are accepted. -/
structure ServerState where
  conns : ℕ → Option ServerConn
  /-- The number of accepted connections. -/
  accepted : ℕ
  /-- The table of tracked clients, by remote address. -/
  clients : AList fun _ : String => ℕ
  loop : AcceptPhase
  stop : StopPhase
  store : MemoryStore
  /-- The requests dispatched on the store, the last one first, with the news whether `Stop` had
  returned before the last byte was read. -/
  executed : List (Request × Bool)

/-- A step of the accept loop. -/
inductive LoopStep
  /-- `ln.Accept()` returns a connection. -/
  | accept (remoteAddr : String)
  /-- The limit is reached, and the connection is closed. -/
  | refuse
  /-- The limit is not reached. -/
  | pass
  | insert
  /-- `go s.handleConnection(client)`. -/
  | start
  /-- The loop finds `stopChan` closed. -/
  | leave

/-- A step of a handler. -/
inductive HandlerStep
  /-- The last byte of a request is read. -/
  | receive (request : Request)
  | dispatch
  /-- The handler leaves its loop, and its cleanup deletes the address. -/
  | remove
  | close

/-- A step of `Stop`. -/
inductive StopStep
  | signal
  | closeListener
  | closeClients
  | leave

inductive ServerStep
  | loop (a : LoopStep)
  | handler (id : ℕ) (a : HandlerStep)
  | stop (a : StopStep)

namespace ServerState

/-- Change a connection. -/
def setConn (s : ServerState) (id : ℕ) (c : ServerConn) : ServerState :=
  { s with conns := Function.update s.conns id (some c) }

/-- The limit is on, and the table is full. -/
def Full (maxClients : ℕ) (s : ServerState) : Prop :=
  0 < maxClients ∧ maxClients ≤ s.clients.keys.length

instance (maxClients : ℕ) (s : ServerState) : Decidable (s.Full maxClients) :=
  inferInstanceAs (Decidable (_ ∧ _))

/-- A step of the accept loop. -/
def loopStep (maxClients : ℕ) (s : ServerState) : LoopStep → Option ServerState
  | .accept remoteAddr =>
    if s.loop = .waiting ∧ (s.stop = .running ∨ s.stop = .signalled) then
      some { s.setConn s.accepted ⟨remoteAddr, true, .held⟩ with
        accepted := s.accepted + 1, loop := .accepted s.accepted }
    else none
  | .refuse =>
    match s.loop with
    | .accepted id => (s.conns id).bind fun c =>
      if s.Full maxClients then
        some { s.setConn id { c with isOpen := false } with loop := .waiting }
      else none
    | _ => none
  | .pass =>
    match s.loop with
    | .accepted id => if s.Full maxClients then none else some { s with loop := .checked id }
    | _ => none
  | .insert =>
    match s.loop with
    | .checked id => (s.conns id).map fun c =>
      { s.setConn id { c with phase := .tracked } with
        clients := s.clients.insert c.remoteAddr id, loop := .inserted id }
    | _ => none
  | .start =>
    match s.loop with
    | .inserted id => (s.conns id).map fun c =>
      { s.setConn id { c with phase := .serving none } with loop := .waiting }
    | _ => none
  | .leave =>
    if s.loop = .waiting ∧ s.stop ≠ .running then some { s with loop := .returned } else none

/-- A step of the handler of the connection `c` with number `id`. -/
def handlerStep (s : ServerState) (id : ℕ) (c : ServerConn) : HandlerStep → Option ServerState
  | .receive request =>
    match c.phase with
    | .serving none =>
      if c.isOpen then
        some (s.setConn id { c with phase := .serving (some (request, s.stop = .returned)) })
      else none
    | _ => none
  | .dispatch =>
    match c.phase with
    | .serving (some (request, late)) =>
      if s.stop.Locked then none
      else
        some { s.setConn id { c with phase := .serving none } with
          store := (dispatchOn request s.store).2, executed := (request, late) :: s.executed }
    | _ => none
  | .remove =>
    match c.phase with
    | .serving none =>
      some { s.setConn id { c with phase := .removed } with
        clients := s.clients.erase c.remoteAddr }
    | _ => none
  | .close =>
    match c.phase with
    | .removed => some (s.setConn id { c with isOpen := false, phase := .ended })
    | _ => none

/-- The connections after those of the table were closed. -/
def closeTracked (s : ServerState) (id : ℕ) : Option ServerConn :=
  (s.conns id).map fun c =>
    if s.clients.entries.any fun e => e.2 == id then { c with isOpen := false } else c

/-- A step of `Stop`. -/
def stopStep (s : ServerState) : StopStep → Option ServerState
  | .signal => if s.stop = .running then some { s with stop := .signalled } else none
  | .closeListener => if s.stop = .signalled then some { s with stop := .listenerClosed } else none
  | .closeClients =>
    if s.stop = .listenerClosed then
      some { s with conns := s.closeTracked, clients := ∅, stop := .cleared }
    else none
  | .leave => if s.stop = .cleared then some { s with stop := .returned } else none

/-- The state after a step. -/
def step (maxClients : ℕ) (s : ServerState) : ServerStep → Option ServerState
  | .loop a => s.loopStep maxClients a
  | .handler id a => (s.conns id).bind fun c => s.handlerStep id c a
  | .stop a => s.stopStep a

end ServerState

/-- A server with the store `store` and the client limit `maxClients`, 0 being no limit. -/
def serverSystem (maxClients : ℕ) (store : MemoryStore) :
    TransitionSystem ServerState ServerStep where
  init :=
    { conns := fun _ => none
      accepted := 0
      clients := ∅
      loop := .waiting
      stop := .running
      store := store
      executed := [] }
  step := ServerState.step maxClients

/-! ### What is expected of the table -/

/-- The address of a connection that is in the table or should be, and whether it is open. -/
def ServerConn.tracked (c : ServerConn) : Option (String × Bool) :=
  if c.phase.isTracked then some (c.remoteAddr, c.isOpen) else none

namespace ServerState

def tracked (s : ServerState) (id : ℕ) : Option (String × Bool) :=
  (s.conns id).bind ServerConn.tracked

/-- The connection is live: it was put into the table, its handler has not cleaned up, and it is
open. -/
def Live (s : ServerState) (id : ℕ) : Prop := ∃ addr, s.tracked id = some (addr, true)

end ServerState

/-- The table has one entry for each live connection and no other entry, the limit is kept, and the
step in which `Stop` closes the connections of the table leaves no live connection. -/
structure TracksLive (maxClients : ℕ) (s : ServerState) : Prop where
  entry : ∀ addr id, s.clients.lookup addr = some id ↔ s.tracked id = some (addr, true)
  limit : 0 < maxClients → ∀ ids : Finset ℕ, (∀ id ∈ ids, s.Live id) → ids.card ≤ maxClients
  stop : ∀ t, s.step maxClients (.stop .closeClients) = some t → ∀ id, ¬ t.Live id

/-- No connection with the address is still to be cleaned up. -/
def ServerState.IsFresh (s : ServerState) (addr : String) : Prop :=
  ∀ id < s.accepted, (s.tracked id).map Prod.fst ≠ some addr

instance (s : ServerState) (addr : String) : Decidable (s.IsFresh addr) :=
  inferInstanceAs (Decidable (∀ id < _, _))

/-- The address of the connection that the accept loop is about to put into the table. -/
def ServerState.inserting (s : ServerState) : Option String :=
  match s.loop with
  | .checked id => (s.conns id).map ServerConn.remoteAddr
  | _ => none

/-- A connection is put into the table only when its address is fresh. -/
def FreshAddress (s : ServerState) : ServerStep → Prop
  | .loop .insert => ∀ addr ∈ s.inserting, s.IsFresh addr
  | _ => True

instance (s : ServerState) : DecidablePred (FreshAddress s)
  | .loop .insert => inferInstanceAs (Decidable (∀ addr ∈ s.inserting, s.IsFresh addr))
  | .loop (.accept _) | .loop .refuse | .loop .pass | .loop .start | .loop .leave
  | .handler _ _ | .stop _ => inferInstanceAs (Decidable True)

/-! ### One step -/

namespace ServerState

variable {maxClients : ℕ} {s t : ServerState} {id : ℕ} {c c' : ServerConn}

/-! Inversion of the steps, one lemma for each. -/

theorem accept_inv {remoteAddr : String} (h : s.loopStep maxClients (.accept remoteAddr) = some t) :
    s.loop = .waiting ∧ (s.stop = .running ∨ s.stop = .signalled) ∧
      t = { s.setConn s.accepted ⟨remoteAddr, true, .held⟩ with
        accepted := s.accepted + 1, loop := .accepted s.accepted } := by
  rw [loopStep] at h
  split_ifs at h with hcond
  exact ⟨hcond.1, hcond.2, (Option.some.inj h).symm⟩

theorem refuse_inv (h : s.loopStep maxClients .refuse = some t) :
    ∃ id c, s.loop = .accepted id ∧ s.conns id = some c ∧
      t = { s.setConn id { c with isOpen := false } with loop := .waiting } := by
  rw [loopStep] at h
  split at h
  · rename_i id hl
    obtain ⟨c, hc, h⟩ := Option.bind_eq_some_iff.mp h
    split_ifs at h
    exact ⟨id, c, hl, hc, (Option.some.inj h).symm⟩
  · cases h

theorem pass_inv (h : s.loopStep maxClients .pass = some t) :
    ∃ id, s.loop = .accepted id ∧ ¬ s.Full maxClients ∧ t = { s with loop := .checked id } := by
  rw [loopStep] at h
  split at h
  · rename_i id hl
    split_ifs at h with hfull
    exact ⟨id, hl, hfull, (Option.some.inj h).symm⟩
  · cases h

theorem insert_inv (h : s.loopStep maxClients .insert = some t) :
    ∃ id c, s.loop = .checked id ∧ s.conns id = some c ∧
      t = { s.setConn id { c with phase := .tracked } with
        clients := s.clients.insert c.remoteAddr id, loop := .inserted id } := by
  rw [loopStep] at h
  split at h
  · rename_i id hl
    obtain ⟨c, hc, h⟩ := Option.map_eq_some_iff.mp h
    exact ⟨id, c, hl, hc, h.symm⟩
  · cases h

theorem start_inv (h : s.loopStep maxClients .start = some t) :
    ∃ id c, s.loop = .inserted id ∧ s.conns id = some c ∧
      t = { s.setConn id { c with phase := .serving none } with loop := .waiting } := by
  rw [loopStep] at h
  split at h
  · rename_i id hl
    obtain ⟨c, hc, h⟩ := Option.map_eq_some_iff.mp h
    exact ⟨id, c, hl, hc, h.symm⟩
  · cases h

theorem leave_inv (h : s.loopStep maxClients .leave = some t) :
    t = { s with loop := .returned } := by
  rw [loopStep] at h
  split_ifs at h
  exact (Option.some.inj h).symm

theorem receive_inv {request : Request} (h : s.handlerStep id c (.receive request) = some t) :
    c.phase = .serving none ∧ c.isOpen = true ∧
      t = s.setConn id { c with phase := .serving (some (request, s.stop = .returned)) } := by
  rw [handlerStep] at h
  split at h
  · rename_i hphase
    split_ifs at h with hopen
    exact ⟨hphase, hopen, (Option.some.inj h).symm⟩
  · cases h

theorem dispatch_inv (h : s.handlerStep id c .dispatch = some t) :
    ∃ request late, c.phase = .serving (some (request, late)) ∧
      t = { s.setConn id { c with phase := .serving none } with
        store := (dispatchOn request s.store).2, executed := (request, late) :: s.executed } := by
  rw [handlerStep] at h
  split at h
  · rename_i request late hphase
    split_ifs at h
    exact ⟨request, late, hphase, (Option.some.inj h).symm⟩
  · cases h

theorem remove_inv (h : s.handlerStep id c .remove = some t) :
    c.phase = .serving none ∧ t = { s.setConn id { c with phase := .removed } with
      clients := s.clients.erase c.remoteAddr } := by
  rw [handlerStep] at h
  split at h
  · rename_i hphase
    exact ⟨hphase, (Option.some.inj h).symm⟩
  · cases h

theorem close_inv (h : s.handlerStep id c .close = some t) :
    c.phase = .removed ∧ t = s.setConn id { c with isOpen := false, phase := .ended } := by
  rw [handlerStep] at h
  split at h
  · rename_i hphase
    exact ⟨hphase, (Option.some.inj h).symm⟩
  · cases h

theorem tracked_of_conn (h : s.conns id = some c) : s.tracked id = c.tracked := by
  rw [tracked, h, Option.bind_some]

theorem tracked_setConn (s : ServerState) (id : ℕ) (c : ServerConn) :
    (s.setConn id c).tracked = Function.update s.tracked id c.tracked := by
  funext id'
  by_cases h : id' = id
  · subst h
    simp [tracked, setConn]
  · simp [tracked, setConn, h]

/-- Most changes of a connection leave its address, and whether it is tracked and open. -/
theorem tracked_setConn_of_eq (h : c.tracked = s.tracked id) :
    (s.setConn id c).tracked = s.tracked := by
  rw [tracked_setConn, h, Function.update_eq_self]

/-- The connection that the accept loop has. -/
def LoopConn (s : ServerState) : AcceptPhase → Prop
  | .accepted id | .checked id => ∃ c, s.conns id = some c ∧ c.phase = .held ∧ c.isOpen = true
  | .inserted id => ∃ c, s.conns id = some c ∧ c.phase = .tracked
  | .waiting | .returned => True

/-- The relation of the table to the connections when addresses are fresh. -/
structure Inv (maxClients : ℕ) (s : ServerState) : Prop where
  unused : ∀ id, s.accepted ≤ id → s.conns id = none
  loopConn : s.LoopConn s.loop
  entry : ∀ addr id, s.clients.lookup addr = some id ↔ s.tracked id = some (addr, true)
  distinct : ∀ id id' addr isOpen isOpen', s.tracked id = some (addr, isOpen) →
    s.tracked id' = some (addr, isOpen') → id = id'
  bounded : 0 < maxClients → s.clients.keys.length ≤ maxClients
  room : 0 < maxClients → ∀ id, s.loop = .checked id → s.clients.keys.length < maxClients

/-- The accept loop keeps its connection when another one changes. -/
theorem LoopConn.setConn {a : AcceptPhase} (h : s.LoopConn a) (hc : s.conns id = some c)
    (hheld : c.phase ≠ .held) (htracked : c.phase ≠ .tracked) : (s.setConn id c').LoopConn a := by
  have hne : ∀ id' d, s.conns id' = some d → d.phase = .held ∨ d.phase = .tracked → id' ≠ id := by
    rintro id' d hd hphase rfl
    obtain rfl := Option.some.inj (hd.symm.trans hc)
    exact hphase.elim hheld htracked
  cases a with
  | accepted id' | checked id' =>
    obtain ⟨d, hd, hphase, hopen⟩ := h
    refine ⟨d, ?_, hphase, hopen⟩
    exact (Function.update_of_ne (hne id' d hd (.inl hphase)) _ _).trans hd
  | inserted id' =>
    obtain ⟨d, hd, hphase⟩ := h
    exact ⟨d, (Function.update_of_ne (hne id' d hd (.inr hphase)) _ _).trans hd, hphase⟩
  | waiting | returned => trivial

theorem unused_setConn (h : ∀ id, s.accepted ≤ id → s.conns id = none) (hc : s.conns id = some c) :
    ∀ id', s.accepted ≤ id' → (s.setConn id c').conns id' = none := by
  intro id' hid'
  have hne : id' ≠ id := by
    rintro rfl
    rw [h id' hid'] at hc
    cases hc
  exact (Function.update_of_ne hne _ _).trans (h id' hid')

namespace Inv

/-- A step that leaves the table and the tracked connections. The accept loop has checked the limit
when it goes on to the insertion. -/
theorem of_tracked_eq (hi : s.Inv maxClients) (hclients : t.clients = s.clients)
    (htracked : t.tracked = s.tracked) (hunused : ∀ id, t.accepted ≤ id → t.conns id = none)
    (hloop : t.LoopConn t.loop)
    (hroom : ∀ id, t.loop = .checked id → s.loop = .checked id ∨ ¬ s.Full maxClients) :
    t.Inv maxClients where
  unused := hunused
  loopConn := hloop
  entry := by rw [hclients, htracked]; exact hi.entry
  distinct := by rw [htracked]; exact hi.distinct
  bounded := by rw [hclients]; exact hi.bounded
  room := by
    intro hmax id hid
    rw [hclients]
    rcases hroom id hid with h | h
    · exact hi.room hmax id h
    · exact Nat.not_le.mp fun hle => h ⟨hmax, hle⟩

/-- The cleanup of a handler takes its own entry out of the table. -/
theorem remove (hi : s.Inv maxClients) (hc : s.conns id = some c)
    (hphase : c.phase = .serving none) :
    Inv maxClients { s.setConn id { c with phase := .removed } with
      clients := s.clients.erase c.remoteAddr } := by
  have hid : s.tracked id = some (c.remoteAddr, c.isOpen) := by
    rw [tracked_of_conn hc, ServerConn.tracked, hphase]
    rfl
  have htracked : (s.setConn id { c with phase := .removed }).tracked =
      Function.update s.tracked id none := tracked_setConn _ _ _
  have hother : ∀ id' addr isOpen, Function.update s.tracked id none id' = some (addr, isOpen) →
      id' ≠ id ∧ s.tracked id' = some (addr, isOpen) :=
    fun _ _ _ => Table.update_none_eq_some.mp
  refine ⟨unused_setConn hi.unused hc, ?_, fun addr id' => ?_, ?_, fun hmax => ?_, ?_⟩
  · exact hi.loopConn.setConn hc (by simp [hphase]) (by simp [hphase])
  · change _ ↔ (s.setConn id _).tracked id' = _
    rw [htracked]
    by_cases haddr : addr = c.remoteAddr
    · subst haddr
      rw [AList.lookup_erase]
      refine ⟨nofun, fun h => ?_⟩
      obtain ⟨hne, h⟩ := hother _ _ _ h
      exact absurd (hi.distinct _ _ _ _ _ h hid) hne
    · rw [AList.lookup_erase_ne haddr, hi.entry]
      constructor
      · intro h
        have hne : id' ≠ id := by
          rintro rfl
          rw [hid] at h
          exact haddr (congrArg Prod.fst (Option.some.inj h)).symm
        rwa [Function.update_of_ne hne]
      · exact fun h => (hother _ _ _ h).2
  · intro id₁ id₂ addr o₁ o₂ h₁ h₂
    change (s.setConn id _).tracked id₁ = _ at h₁
    change (s.setConn id _).tracked id₂ = _ at h₂
    rw [htracked] at h₁ h₂
    exact hi.distinct _ _ _ _ _ (hother _ _ _ h₁).2 (hother _ _ _ h₂).2
  · rw [AList.keys_erase]
    exact (List.length_erase_le).trans (hi.bounded hmax)
  · intro hmax id' hid'
    rw [AList.keys_erase]
    exact (List.length_erase_le).trans_lt (hi.room hmax id' hid')

/-- A handler changes its connection, which stays tracked or stays untracked. -/
theorem of_setConn (hi : s.Inv maxClients) (hc : s.conns id = some c) (hheld : c.phase ≠ .held)
    (hphase : c.phase ≠ .tracked) (heq : c'.tracked = c.tracked) :
    (s.setConn id c').Inv maxClients :=
  hi.of_tracked_eq rfl (tracked_setConn_of_eq (heq.trans (tracked_of_conn hc).symm))
    (unused_setConn hi.unused hc) (hi.loopConn.setConn hc hheld hphase) fun _ => .inl

theorem handlerStep (hi : s.Inv maxClients) (hc : s.conns id = some c) {a : HandlerStep}
    (h : s.handlerStep id c a = some t) : t.Inv maxClients := by
  cases a with
  | receive request =>
    obtain ⟨hphase, -, rfl⟩ := receive_inv h
    exact hi.of_setConn hc (by simp [hphase]) (by simp [hphase])
      (by rw [ServerConn.tracked, ServerConn.tracked, hphase]; rfl)
  | dispatch =>
    obtain ⟨request, late, hphase, rfl⟩ := dispatch_inv h
    have hconn : (s.setConn id { c with phase := .serving none }).Inv maxClients :=
      hi.of_setConn hc (by simp [hphase]) (by simp [hphase])
        (by rw [ServerConn.tracked, ServerConn.tracked, hphase]; rfl)
    exact { hconn with }
  | remove =>
    obtain ⟨hphase, rfl⟩ := remove_inv h
    exact hi.remove hc hphase
  | close =>
    obtain ⟨hphase, rfl⟩ := close_inv h
    exact hi.of_setConn hc (by simp [hphase]) (by simp [hphase])
      (by rw [ServerConn.tracked, ServerConn.tracked, hphase]; rfl)

/-- The connection that the accept loop puts into the table gets an entry of its own. -/
theorem insert (hi : s.Inv maxClients) (hloop : s.loop = .checked id) (hc : s.conns id = some c)
    (hfresh : s.IsFresh c.remoteAddr) :
    Inv maxClients { s.setConn id { c with phase := .tracked } with
      clients := s.clients.insert c.remoteAddr id, loop := .inserted id } := by
  obtain ⟨d, hd, hphase, hopen⟩ : ∃ c, s.conns id = some c ∧ c.phase = .held ∧ c.isOpen = true := by
    have := hi.loopConn
    rwa [hloop] at this
  obtain rfl := Option.some.inj (hd.symm.trans hc)
  have hother : ∀ id' isOpen, s.tracked id' ≠ some (d.remoteAddr, isOpen) := by
    intro id' isOpen h
    by_cases hlt : id' < s.accepted
    · exact hfresh id' hlt (by rw [h]; rfl)
    · rw [tracked, hi.unused id' (Nat.not_lt.mp hlt)] at h
      cases h
  have hid : s.tracked id = none := by
    rw [tracked_of_conn hd, ServerConn.tracked, hphase]
    rfl
  have htracked : (s.setConn id { d with phase := .tracked }).tracked =
      Function.update s.tracked id (some (d.remoteAddr, true)) := by
    rw [tracked_setConn, ← hopen]
    rfl
  refine ⟨unused_setConn hi.unused hd, ?_, fun addr id' => ?_, ?_, fun hmax => ?_, nofun⟩
  · exact ⟨_, Function.update_self _ _ _, rfl⟩
  · change _ ↔ (s.setConn id _).tracked id' = _
    rw [htracked]
    by_cases haddr : addr = d.remoteAddr
    · subst haddr
      rw [AList.lookup_insert]
      by_cases heq : id' = id
      · simp [heq]
      · rw [Function.update_of_ne heq]
        exact ⟨fun h => absurd (Option.some.inj h).symm heq, fun h => absurd h (hother _ _)⟩
    · rw [AList.lookup_insert_ne haddr, hi.entry]
      by_cases heq : id' = id
      · subst heq
        simp [hid, Ne.symm haddr]
      · rw [Function.update_of_ne heq]
  · intro id₁ id₂ addr o₁ o₂ h₁ h₂
    change (s.setConn id _).tracked id₁ = _ at h₁
    change (s.setConn id _).tracked id₂ = _ at h₂
    rw [htracked, Function.update_apply] at h₁ h₂
    split_ifs at h₁ h₂ with e₁ e₂ e₂
    · exact e₁.trans e₂.symm
    · obtain ⟨rfl, -⟩ := Prod.mk.inj (Option.some.inj h₁)
      exact absurd h₂ (hother _ _)
    · obtain ⟨rfl, -⟩ := Prod.mk.inj (Option.some.inj h₂)
      exact absurd h₁ (hother _ _)
    · exact hi.distinct _ _ _ _ _ h₁ h₂
  · have hlt := hi.room hmax id hloop
    have hle : (s.clients.keys.erase d.remoteAddr).length ≤ s.clients.keys.length :=
      List.length_erase_le
    rw [AList.keys_insert, List.length_cons]
    omega

/-- The start of its handler leaves a connection tracked. -/
theorem tracked_start (hi : s.Inv maxClients) (hl : s.loop = .inserted id)
    (hc : s.conns id = some c) :
    (s.setConn id { c with phase := .serving none }).tracked = s.tracked := by
  have hloop := hi.loopConn
  rw [hl] at hloop
  obtain ⟨d, hd, hphase⟩ := hloop
  obtain rfl := Option.some.inj (hd.symm.trans hc)
  refine tracked_setConn_of_eq ?_
  rw [tracked_of_conn hd, ServerConn.tracked, ServerConn.tracked, hphase]
  rfl

theorem loopStep (hi : s.Inv maxClients) {a : LoopStep} (hg : FreshAddress s (.loop a))
    (h : s.loopStep maxClients a = some t) : t.Inv maxClients := by
  have hloop := hi.loopConn
  cases a with
  | accept remoteAddr =>
    obtain ⟨-, -, rfl⟩ := accept_inv h
    have hnone : s.conns s.accepted = none := hi.unused _ (Nat.le_refl _)
    have htracked : (s.setConn s.accepted ⟨remoteAddr, true, .held⟩).tracked = s.tracked :=
      tracked_setConn_of_eq (by rw [tracked, hnone]; rfl)
    refine hi.of_tracked_eq rfl htracked (fun id hid => ?_) ?_ nofun
    · have hid' : s.accepted + 1 ≤ id := hid
      exact (Function.update_of_ne (by omega) _ _).trans (hi.unused id (by omega))
    · exact ⟨_, Function.update_self _ _ _, rfl, rfl⟩
  | refuse =>
    obtain ⟨id, c, hl, hc, rfl⟩ := refuse_inv h
    rw [hl] at hloop
    obtain ⟨d, hd, hphase, -⟩ := hloop
    obtain rfl := Option.some.inj (hd.symm.trans hc)
    have htracked : (s.setConn id { d with isOpen := false }).tracked = s.tracked :=
      tracked_setConn_of_eq (by
        rw [tracked_of_conn hd, ServerConn.tracked, ServerConn.tracked, hphase]
        rfl)
    exact hi.of_tracked_eq rfl htracked (unused_setConn hi.unused hc) trivial nofun
  | pass =>
    obtain ⟨id, hl, hfull, rfl⟩ := pass_inv h
    rw [hl] at hloop
    exact hi.of_tracked_eq rfl rfl hi.unused hloop fun _ _ => .inr hfull
  | insert =>
    obtain ⟨id, c, hl, hc, rfl⟩ := insert_inv h
    exact hi.insert hl hc (hg c.remoteAddr (by simp [inserting, hl, hc]))
  | start =>
    obtain ⟨id, c, hl, hc, rfl⟩ := start_inv h
    exact hi.of_tracked_eq rfl (hi.tracked_start hl hc) (unused_setConn hi.unused hc) trivial nofun
  | leave =>
    obtain rfl := leave_inv h
    exact hi.of_tracked_eq rfl rfl hi.unused trivial nofun

/-- The connections that the table leads to. -/
theorem any_entries_iff (hi : s.Inv maxClients) :
    (s.clients.entries.any fun e => e.2 == id) = true ↔ s.Live id := by
  simp only [List.any_eq_true, beq_iff_eq, Live, ← hi.entry]
  constructor
  · rintro ⟨⟨addr, id'⟩, hmem, rfl⟩
    exact ⟨addr, AList.mem_lookup_iff.mpr hmem⟩
  · rintro ⟨addr, h⟩
    exact ⟨⟨addr, id⟩, AList.mem_lookup_iff.mp h, rfl⟩

/-- `Stop` closes every connection that is tracked. -/
theorem tracked_closeTracked (hi : s.Inv maxClients) (id : ℕ) :
    (s.closeTracked id).bind ServerConn.tracked = (s.tracked id).map fun p => (p.1, false) := by
  cases hc : s.conns id with
  | none => simp [closeTracked, tracked, hc]
  | some c =>
    have hid := tracked_of_conn hc
    rw [hid, closeTracked, hc, Option.map_some, Option.bind_some]
    by_cases hphase : c.phase.isTracked = true
    · have hlive : c.isOpen = true → s.Live id := fun hopen =>
        ⟨c.remoteAddr, by simp [hid, ServerConn.tracked, hphase, hopen]⟩
      by_cases hopen : c.isOpen = true
      · rw [if_pos (hi.any_entries_iff.mpr (hlive hopen))]
        simp [ServerConn.tracked, hphase]
      · split_ifs
        · simp [ServerConn.tracked, hphase]
        · simp [ServerConn.tracked, hphase, hopen]
    · split_ifs
      · simp [ServerConn.tracked, hphase]
      · simp [ServerConn.tracked, hphase]

/-- A connection that the accept loop holds is not in the table and stays open. -/
theorem loopConn_closeTracked (hi : s.Inv maxClients) :
    LoopConn { s with conns := s.closeTracked, clients := ∅, stop := .cleared } s.loop := by
  have hloop := hi.loopConn
  have hheld {id : ℕ} (h : ∃ c, s.conns id = some c ∧ c.phase = .held ∧ c.isOpen = true) :
      ∃ c, s.closeTracked id = some c ∧ c.phase = .held ∧ c.isOpen = true := by
    obtain ⟨c, hc, hphase, hopen⟩ := h
    refine ⟨c, ?_, hphase, hopen⟩
    rw [closeTracked, hc, Option.map_some, if_neg]
    rw [hi.any_entries_iff]
    rintro ⟨addr, h⟩
    rw [tracked_of_conn hc, ServerConn.tracked, hphase] at h
    cases h
  cases hl : s.loop with
  | accepted id | checked id =>
    rw [hl] at hloop
    exact hheld hloop
  | inserted id =>
    rw [hl] at hloop
    obtain ⟨c, hc, hphase⟩ := hloop
    have hclosed : s.closeTracked id = some (if s.clients.entries.any fun e => e.2 == id then
        { c with isOpen := false } else c) := by
      rw [closeTracked, hc, Option.map_some]
    refine ⟨_, hclosed, ?_⟩
    split_ifs <;> exact hphase
  | waiting | returned => trivial

theorem stopStep (hi : s.Inv maxClients) {a : StopStep} (h : s.stopStep a = some t) :
    t.Inv maxClients := by
  cases a with
  | signal | closeListener | leave =>
    rw [ServerState.stopStep] at h
    split_ifs at h
    cases h
    exact { hi with }
  | closeClients =>
    rw [ServerState.stopStep] at h
    split_ifs at h
    cases h
    have htracked (id : ℕ) (p : String × Bool)
        (h : (s.closeTracked id).bind ServerConn.tracked = some p) :
        p.2 = false ∧ ∃ isOpen, s.tracked id = some (p.1, isOpen) := by
      rw [hi.tracked_closeTracked] at h
      obtain ⟨q, hq, rfl⟩ := Option.map_eq_some_iff.mp h
      exact ⟨rfl, q.2, hq⟩
    refine ⟨fun id hid => ?_, hi.loopConn_closeTracked, fun addr id => ?_, ?_, fun _ => ?_, ?_⟩
    · exact congrArg (Option.map _) (hi.unused id hid)
    · rw [AList.lookup_empty]
      exact ⟨nofun, fun h => Bool.noConfusion (htracked id _ h).1⟩
    · intro id₁ id₂ addr o₁ o₂ h₁ h₂
      obtain ⟨-, b₁, h₁⟩ := htracked id₁ _ h₁
      obtain ⟨-, b₂, h₂⟩ := htracked id₂ _ h₂
      exact hi.distinct _ _ _ _ _ h₁ h₂
    · exact Nat.zero_le _
    · intro hmax _ _
      exact hmax

theorem init (maxClients : ℕ) (store : MemoryStore) :
    Inv maxClients (serverSystem maxClients store).init :=
  ⟨fun _ _ => rfl, trivial, fun _ _ => ⟨nofun, nofun⟩, nofun, fun _ => Nat.zero_le _, nofun⟩

theorem step (hi : s.Inv maxClients) {a : ServerStep} (hg : FreshAddress s a)
    (h : s.step maxClients a = some t) : t.Inv maxClients := by
  cases a with
  | loop a => exact hi.loopStep hg h
  | handler id a =>
    obtain ⟨c, hc, h⟩ := Option.bind_eq_some_iff.mp h
    exact hi.handlerStep hc h
  | stop a => exact hi.stopStep h

/-- Live connections have entries of their own in the table. -/
theorem card_le (hi : s.Inv maxClients) {ids : Finset ℕ} (h : ∀ id ∈ ids, s.Live id) :
    ids.card ≤ s.clients.keys.length := by
  have haddr : ∀ id ∈ ids, ∃ addr, s.tracked id = some (addr, true) := h
  choose addr haddr using haddr
  have hcard : ids.card ≤ s.clients.keys.toFinset.card := by
    refine Finset.card_le_card_of_injOn (fun id => ((s.tracked id).map Prod.fst).getD "") ?_ ?_
    · intro id hid
      have ht := haddr id hid
      have hmem : addr id hid ∈ s.clients :=
        AList.lookup_isSome.mp (by rw [(hi.entry _ _).mpr ht]; rfl)
      simpa [ht] using AList.mem_keys.mp hmem
    · intro id hid id' hid' heq
      have ht := haddr id hid
      have ht' := haddr id' hid'
      simp only [ht, ht', Option.map_some, Option.getD_some] at heq
      exact hi.distinct _ _ _ _ _ ht (heq ▸ ht')
  exact hcard.trans (List.toFinset_card_le _)

theorem tracksLive (hi : s.Inv maxClients) : TracksLive maxClients s where
  entry := hi.entry
  limit := fun hmax _ h => (hi.card_le h).trans (hi.bounded hmax)
  stop := by
    intro t ht id ⟨addr, h⟩
    rw [ServerState.step, ServerState.stopStep] at ht
    split_ifs at ht
    cases ht
    have h' : (s.closeTracked id).bind ServerConn.tracked = some (addr, true) := h
    rw [hi.tracked_closeTracked] at h'
    obtain ⟨p, -, hp⟩ := Option.map_eq_some_iff.mp h'
    exact Bool.noConfusion (Prod.mk.inj hp).2

end Inv

end ServerState

open TransitionSystem

/-- **The table follows the connections** in every run in which connections are put into the table
with fresh addresses. -/
theorem tracksLive_of_freshAddress (maxClients : ℕ) (store : MemoryStore) (s : ServerState)
    (h : (serverSystem maxClients store).Reachable FreshAddress s) : TracksLive maxClients s :=
  (h.invariant (I := ServerState.Inv maxClients) (.init maxClients store)
    fun _ _ _ hi hg hs => hi.step hg hs).tracksLive

/-- The steps that accept a connection, when there is room, and start its handler. -/
def acceptSteps (remoteAddr : String) : List ServerStep :=
  [.loop (.accept remoteAddr), .loop .pass, .loop .insert, .loop .start]

/-- The steps of `Stop`. -/
def stopSteps : List ServerStep :=
  [.stop .signal, .stop .closeListener, .stop .closeClients, .stop .leave]

/-- Two connections; the first one has left when the third comes with its address. -/
theorem tracksLive_address_reused :
    ∃ s, (serverSystem 2 newMemoryStore).Reachable FreshAddress s ∧ TracksLive 2 s ∧ s.Live 2 := by
  have hrun : (serverSystem 2 newMemoryStore).Reachable FreshAddress _ :=
    ⟨acceptSteps "pipe" ++ acceptSteps "10.0.0.7:4711" ++
      [.handler 0 .remove, .handler 0 .close] ++ acceptSteps "pipe", run_of_exec rfl⟩
  exact ⟨_, hrun, tracksLive_of_freshAddress 2 newMemoryStore _ hrun, "pipe", rfl⟩

/-- **Connections that share an address**: with a limit of two clients, three connections of a pipe
listener are live at once, under one entry, and `Stop` closes only the last of them. -/
theorem shared_address_outlives_stop :
    ∃ s, (serverSystem 2 newMemoryStore).Reachable (fun _ _ => True) s ∧
      ¬ TracksLive 2 s ∧ s.clients.keys.length = 1 ∧ s.Live 0 ∧ s.Live 1 ∧ s.Live 2 ∧
      ∃ t, (serverSystem 2 newMemoryStore).Run (fun _ _ => True) s stopSteps t ∧
        t.stop = .returned ∧ t.Live 0 ∧ t.Live 1 ∧ ¬ t.Live 2 := by
  refine ⟨_, ⟨acceptSteps "pipe" ++ acceptSteps "pipe" ++ acceptSteps "pipe", run_of_exec rfl⟩,
    fun h => absurd ((h.entry "pipe" 0).mpr rfl) (by decide), rfl, ⟨"pipe", rfl⟩, ⟨"pipe", rfl⟩,
    ⟨"pipe", rfl⟩, _, run_of_exec rfl, rfl, ⟨"pipe", rfl⟩, ⟨"pipe", rfl⟩, ?_⟩
  rintro ⟨addr, h⟩
  exact Bool.noConfusion (Prod.mk.inj (Option.some.inj h)).2

end GoIndustrial.Modbus
