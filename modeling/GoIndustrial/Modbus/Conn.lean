import GoIndustrial.Modbus.Pool
import Mathlib.Order.Basic

/-!
# Generations of a connection

`TCPConn` of `protocol/modbus/conn.go` without the traffic on its socket: `Connect`, `Disconnect`
and the `setDisconnected` of the read and write loops, each of which holds the mutex of the
connection and is one atomic step. Every successful `Connect` starts a new generation with a read
loop and a write loop; the loops of older generations, and `Send` calls that took their snapshot
under one, may still run at any time. They only know the channels, the socket and the pool of their
own generation.

Objects of the Go heap are references, which the connection takes in order. The generation counter
is a natural number: the 64 bits of the source do not run out.

## Main definitions

* `Modbus.TCPConn` with `connect`, `disconnect`, `unsafeTeardown`, `setDisconnected`.
* `Modbus.connSystem` : a connection under any interleaving of these calls and of the operations of
  all generations on their pools and write channels.
* `Modbus.TCPConn.Isolated` : generations do not interfere.

## Main results

* `Modbus.isolated_of_reachable` : this holds in every reachable state.
-/

namespace GoIndustrial.Modbus

/-- A reference to a channel, a socket or a pool. -/
abbrev Ref := ℕ

/-- What `connect` passes to the read loop and the write loop of a generation. -/
structure Generation where
  done : Ref
  conn : Ref
  writeChan : Ref
  transactionPool : Ref

/-- The fields of a `TCPConn` that belong to its life cycle, the objects they refer to, and a record
of the generations started and of the calls to `close(c.done)` and `c.conn.Close()`. -/
structure TCPConn where
  injectedConn : Option Ref
  conn : Option Ref
  connected : Bool
  /-- The `sync.Once` has run. -/
  closeOnce : Bool
  gen : ℕ
  transactionPool : Ref
  writeChan : Option Ref
  done : Ref
  /-- The pools, by reference. -/
  pools : Ref → PoolState
  /-- The contents of the write channels, by reference. -/
  queues : Ref → List TxRef
  /-- The next unused reference. -/
  next : Ref
  generations : ℕ → Option Generation
  /-- The channels closed by teardowns. -/
  doneCloses : List Ref
  /-- The sockets closed by teardowns, with the generation that was torn down. -/
  socketCloses : List (ℕ × Ref)

/-- `NewTCPConn`, with or without the option `WithConn`. -/
def newTCPConn (injected : Bool) : TCPConn where
  injectedConn := if injected then some 2 else none
  conn := none
  connected := false
  closeOnce := false
  gen := 0
  transactionPool := 0
  writeChan := none
  done := 1
  pools _ := newPoolState
  queues _ := []
  next := 3
  generations _ := none
  doneCloses := []
  socketCloses := []

/-- The capacity of the write channel. -/
def writeChanCap : ℕ := 100

namespace TCPConn

/-- Replace the pool at a reference. -/
def setPool (c : TCPConn) (p : Ref) (pool : PoolState) : TCPConn :=
  { c with pools := Function.update c.pools p pool }

/-- The first `select` of `connect`: a new pool when the current one is closed, else a reset. -/
def renewPool (c : TCPConn) : TCPConn :=
  if (c.pools c.transactionPool).pool.closed then
    { c.setPool c.next newPoolState with transactionPool := c.next, next := c.next + 1 }
  else c.setPool c.transactionPool (c.pools c.transactionPool).reset

/-- The end of `connect`: a new generation on the socket `conn`. -/
def start (c : TCPConn) (conn : Ref) : TCPConn :=
  { c with
    conn := some conn
    gen := c.gen + 1
    done := c.next
    writeChan := some (c.next + 1)
    closeOnce := false
    connected := true
    next := c.next + 2
    generations := Function.update c.generations (c.gen + 1)
      (some ⟨c.next, conn, c.next + 1, c.transactionPool⟩) }

/-- The middle of `connect`: the injected socket or a new one; `dialed` tells whether `DialContext`
succeeds. -/
def dial (c : TCPConn) (dialed : Bool) : TCPConn :=
  match c.injectedConn with
  | some conn => c.start conn
  | none =>
    if dialed then start { c with next := c.next + 1 } c.next
    else c.setPool c.transactionPool (c.pools c.transactionPool).close

/-- `connect`. -/
def connect (c : TCPConn) (dialed : Bool) : TCPConn :=
  if c.connected then c else c.renewPool.dial dialed

/-- `unsafeTeardown`. -/
def unsafeTeardown (c : TCPConn) : TCPConn :=
  if c.closeOnce then c
  else
    { c.setPool c.transactionPool (c.pools c.transactionPool).close with
      closeOnce := true
      doneCloses := c.doneCloses ++ [c.done]
      socketCloses := c.socketCloses ++ (c.conn.map fun conn => (c.gen, conn)).toList }

/-- `Disconnect`. -/
def disconnect (c : TCPConn) : TCPConn := unsafeTeardown { c with connected := false }

/-- `setDisconnected`, called by a loop of generation `gen`. -/
def setDisconnected (c : TCPConn) (gen : ℕ) : TCPConn :=
  if gen ≠ c.gen then c else unsafeTeardown { c with connected := false }

end TCPConn

/-- A call on a connection, or an operation of one of its generations. -/
inductive ConnStep
  | connect (dialed : Bool)
  | disconnect
  /-- A loop of a generation fails or exits. -/
  | setDisconnected (gen : ℕ)
  /-- An operation on the pool of a generation by its loops, its `Send` calls, its timeout monitor
  or `ResetTransactions`; only teardown and failed dials call `Close`. -/
  | pool (gen : ℕ) (op : PoolStep)
  /-- A `Send` that took its snapshot under a generation queues a transaction for writing. -/
  | queue (gen : ℕ) (tx : TxRef)
  /-- The write loop of a generation takes a transaction out of its write channel. -/
  | dequeue (gen : ℕ)

/-- The generation whose loops or `Send` calls make the step. -/
def ConnStep.generation : ConnStep → Option ℕ
  | .connect _ | .disconnect => none
  | .setDisconnected gen | .pool gen _ | .queue gen _ | .dequeue gen => some gen

/-- The connection after a step. -/
def TCPConn.step (c : TCPConn) : ConnStep → Option TCPConn
  | .connect dialed => some (c.connect dialed)
  | .disconnect => some c.disconnect
  | .setDisconnected gen => (c.generations gen).map fun _ => c.setDisconnected gen
  | .pool _ .close => none
  | .pool gen op =>
    (c.generations gen).bind fun G =>
      ((c.pools G.transactionPool).step op).map (c.setPool G.transactionPool)
  | .queue gen tx =>
    (c.generations gen).bind fun G =>
      if (c.queues G.writeChan).length < writeChanCap then
        some { c with
          queues := Function.update c.queues G.writeChan (c.queues G.writeChan ++ [tx]) }
      else none
  | .dequeue gen =>
    (c.generations gen).bind fun G =>
      match c.queues G.writeChan with
      | [] => none
      | _ :: queue => some { c with queues := Function.update c.queues G.writeChan queue }

/-- A new connection under any interleaving of the calls. -/
def connSystem (injected : Bool) : TransitionSystem TCPConn ConnStep where
  init := newTCPConn injected
  step := TCPConn.step

namespace TCPConn

/-- The generation has been torn down: its `done` channel is closed. -/
def TornDown (c : TCPConn) (G : Generation) : Prop := G.done ∈ c.doneCloses

/-- The flag, socket, pool and write channel of the connection and of its generation `G` are the
same in `c` and `c'`. -/
structure Untouched (c c' : TCPConn) (G : Generation) : Prop where
  connected : c'.connected = c.connected
  conn : c'.conn = c.conn
  transactionPool : c'.transactionPool = c.transactionPool
  writeChan : c'.writeChan = c.writeChan
  pool : c'.pools G.transactionPool = c.pools G.transactionPool
  queue : c'.queues G.writeChan = c.queues G.writeChan
  doneCloses : c'.doneCloses = c.doneCloses
  socketCloses : c'.socketCloses = c.socketCloses

/-- The generations of a connection are isolated. -/
structure Isolated (c : TCPConn) : Prop where
  /-- Each `done` channel is closed at most once. -/
  done_once : c.doneCloses.Nodup
  /-- Each generation closes its socket at most once, -/
  socket_once : (c.socketCloses.map Prod.fst).Nodup
  /-- and no other socket; -/
  socket_own : ∀ e ∈ c.socketCloses, ∃ G, c.generations e.1 = some G ∧ G.conn = e.2
  /-- sockets that were dialed are closed at most once altogether. -/
  dialed_once : c.injectedConn = none → (c.socketCloses.map Prod.snd).Nodup
  /-- No step of an older generation touches a newer one. -/
  stale : ∀ g g' G', g < g' → c.generations g' = some G' →
    ∀ a c', a.generation = some g → c.step a = some c' → Untouched c c' G'
  /-- The connection is connected only while its current generation has not been torn down. -/
  connected_live : c.connected = true → ∃ G, c.generations c.gen = some G ∧ ¬ c.TornDown G ∧
    c.gen ∉ c.socketCloses.map Prod.fst
  /-- The pool of a generation that was torn down is empty, -/
  torn_down_empty : ∀ g G, c.generations g = some G → c.TornDown G →
    ∀ txID, (c.pools G.transactionPool).pool.transactions.lookup txID = none
  /-- accepts no transaction, -/
  torn_down_closed : ∀ g G, c.generations g = some G → c.TornDown G →
    ∀ tx, (c.pools G.transactionPool).pool.place tx =
      (.error .poolClosed, (c.pools G.transactionPool).pool)
  /-- and every transaction ever placed in it has a result or was released. -/
  torn_down_settled : ∀ g G, c.generations g = some G → c.TornDown G →
    ∀ tx, (c.pools G.transactionPool).ids tx ≠ none → (c.pools G.transactionPool).Settled tx

/-! ### The invariant -/

/-- The objects of different generations differ. -/
structure Distinct (injectedConn : Option Ref) (G G' : Generation) : Prop where
  done : G.done ≠ G'.done
  writeChan : G.writeChan ≠ G'.writeChan
  transactionPool : G.transactionPool ≠ G'.transactionPool
  conn : injectedConn = none → G.conn ≠ G'.conn

/-- The objects of a generation have been allocated. -/
structure Allocated (c : TCPConn) (G : Generation) : Prop where
  done : G.done < c.next
  conn : G.conn < c.next
  writeChan : G.writeChan < c.next
  transactionPool : G.transactionPool < c.next

/-- The invariant that `renewPool` keeps as well. -/
structure Core (c : TCPConn) : Prop where
  pool_lt : c.transactionPool < c.next
  done_lt : c.done < c.next
  injected_lt : ∀ conn, c.injectedConn = some conn → conn < c.next
  closes_lt : ∀ d ∈ c.doneCloses, d < c.next
  allocated : ∀ g G, c.generations g = some G → c.Allocated G
  gen_le : ∀ g G, c.generations g = some G → g ≤ c.gen
  distinct : ∀ g g' G G', g ≠ g' → c.generations g = some G → c.generations g' = some G' →
    Distinct c.injectedConn G G'
  /-- Generations start with 1, and only a generation has a socket. -/
  unstarted : c.generations c.gen = none → c.conn = none ∧ c.connected = false ∧
    ∀ g, c.generations g = none
  current : ∀ G, c.generations c.gen = some G → G.done = c.done ∧ c.conn = some G.conn ∧
    (c.closeOnce = false → G.transactionPool = c.transactionPool ∧ c.connected = true)
  done_once : c.doneCloses.Nodup
  done_closed : c.done ∈ c.doneCloses ↔ c.closeOnce = true
  socket_once : (c.socketCloses.map Prod.fst).Nodup
  socket_closed : c.gen ∈ c.socketCloses.map Prod.fst → c.closeOnce = true
  socket_own : ∀ e ∈ c.socketCloses, ∃ G, c.generations e.1 = some G ∧ G.conn = e.2
  live : c.connected = true → c.closeOnce = false
  accounts : ∀ p, (c.pools p).Accounts
  torn_down : ∀ g G, c.generations g = some G → c.TornDown G →
    (c.pools G.transactionPool).pool.closed = true

/-- The invariant: after a teardown the pool of the connection is closed until the next `connect`.
-/
structure Inv (c : TCPConn) : Prop extends Core c where
  pool_closed : c.closeOnce = true → (c.pools c.transactionPool).pool.closed = true

theorem Inv.init (injected : Bool) : (newTCPConn injected).Inv where
  pool_lt := Nat.succ_pos _
  done_lt := Nat.succ_lt_succ (Nat.succ_pos _)
  injected_lt conn h := by
    cases injected with
    | false => cases h
    | true =>
      cases h
      exact Nat.lt_succ_self 2
  closes_lt _ h := by cases h
  allocated _ _ h := by cases h
  gen_le _ _ h := by cases h
  distinct _ _ _ _ _ h := by cases h
  unstarted _ := ⟨rfl, rfl, fun _ => rfl⟩
  current _ h := by cases h
  done_once := List.nodup_nil
  done_closed := by simp [newTCPConn]
  socket_once := List.nodup_nil
  socket_closed h := by cases h
  socket_own _ h := by cases h
  live h := by cases h
  accounts _ := PoolState.accounts_newPoolState
  torn_down _ _ h := by cases h
  pool_closed h := by cases h

variable {c : TCPConn}

/-! ### Pools -/

@[simp]
theorem setPool_pools_self {p : Ref} {pool : PoolState} : (c.setPool p pool).pools p = pool :=
  Function.update_self _ _ _

theorem setPool_pools_of_ne {p q : Ref} {pool : PoolState} (h : q ≠ p) :
    (c.setPool p pool).pools q = c.pools q :=
  Function.update_of_ne h _ _

theorem setPool_accounts {p : Ref} {pool : PoolState} (h : ∀ q, (c.pools q).Accounts)
    (hpool : pool.Accounts) (q : Ref) : ((c.setPool p pool).pools q).Accounts := by
  by_cases hq : q = p
  · subst hq
    rwa [setPool_pools_self]
  · rw [setPool_pools_of_ne hq]
    exact h q

theorem setPool_closed {p q : Ref} {pool : PoolState}
    (hpool : (c.pools p).pool.closed = true → pool.pool.closed = true)
    (hq : (c.pools q).pool.closed = true) :
    ((c.setPool p pool).pools q).pool.closed = true := by
  by_cases h : q = p
  · subst h
    rw [setPool_pools_self]
    exact hpool hq
  · rwa [setPool_pools_of_ne h]

theorem Core.setPool (h : c.Core) {p : Ref} {pool : PoolState} (hacc : pool.Accounts)
    (hclosed : (c.pools p).pool.closed = true → pool.pool.closed = true) :
    (c.setPool p pool).Core :=
  { h with
    allocated := fun g G hG => ⟨(h.allocated g G hG).done, (h.allocated g G hG).conn,
      (h.allocated g G hG).writeChan, (h.allocated g G hG).transactionPool⟩
    accounts := setPool_accounts h.accounts hacc
    torn_down := fun g G hG ht => setPool_closed hclosed (h.torn_down g G hG ht) }

theorem Inv.setPool (h : c.Inv) {p : Ref} {pool : PoolState} (hacc : pool.Accounts)
    (hclosed : (c.pools p).pool.closed = true → pool.pool.closed = true) :
    (c.setPool p pool).Inv :=
  { h.toCore.setPool hacc hclosed with
    pool_closed := fun ho => setPool_closed hclosed (h.pool_closed ho) }

theorem closed_setPool_close {p : Ref} :
    ((c.setPool p (c.pools p).close).pools p).pool.closed = true := by
  rw [setPool_pools_self]
  exact Pool.closed_close

/-- Closing the pool of the connection establishes the rest of the invariant. -/
theorem Core.close (h : c.Core) :
    (c.setPool c.transactionPool (c.pools c.transactionPool).close).Inv :=
  { h.setPool (h.accounts _).close fun _ => Pool.closed_close with
    pool_closed := fun _ => closed_setPool_close }

/-! ### Connecting -/

theorem Allocated.mono {c' : TCPConn} {G : Generation} (h : c.Allocated G)
    (hle : c.next ≤ c'.next) : c'.Allocated G where
  done := h.done.trans_le hle
  conn := h.conn.trans_le hle
  writeChan := h.writeChan.trans_le hle
  transactionPool := h.transactionPool.trans_le hle

theorem Core.connected_of_open (h : c.Core) {G : Generation} (hG : c.generations c.gen = some G)
    (ho : c.closeOnce = false) : c.connected = true :=
  ((h.current G hG).2.2 ho).2

/-- A connection that is not connected has closed its pool, unless no generation was started. -/
theorem Inv.generations_eq_none (h : c.Inv) (hd : c.connected = false)
    (hopen : (c.pools c.transactionPool).pool.closed = false) (g : ℕ) :
    c.generations g = none := by
  have ho : c.closeOnce = false := by
    by_contra ho
    rw [h.pool_closed ((Bool.not_eq_false _).mp ho)] at hopen
    cases hopen
  cases hG : c.generations c.gen with
  | none => exact (h.unstarted hG).2.2 g
  | some G =>
    rw [h.connected_of_open hG ho] at hd
    cases hd

theorem Inv.renewPool (h : c.Inv) (hd : c.connected = false) : c.renewPool.Core := by
  rw [TCPConn.renewPool]
  split_ifs with hclosed
  · have hle : c.next ≤ c.next + 1 := Nat.le_succ _
    exact
      { h.toCore with
        pool_lt := Nat.lt_succ_self _
        done_lt := h.done_lt.trans_le hle
        injected_lt := fun conn hc => (h.injected_lt conn hc).trans_le hle
        closes_lt := fun d hmem => (h.closes_lt d hmem).trans_le hle
        allocated := fun g G hG => (h.allocated g G hG).mono hle
        current := fun G hG => by
          refine ⟨(h.current G hG).1, (h.current G hG).2.1, fun ho => ?_⟩
          rw [h.connected_of_open hG ho] at hd
          cases hd
        accounts := setPool_accounts h.accounts PoolState.accounts_newPoolState
        torn_down := fun g G hG ht => by
          have hne := (h.allocated g G hG).transactionPool.ne
          exact (congrArg (fun s => s.pool.closed) (setPool_pools_of_ne hne)).trans
            (h.torn_down g G hG ht) }
  · exact h.toCore.setPool (h.accounts _).reset fun hc => hc

theorem Inv.renewPool_fresh (h : c.Inv) (hd : c.connected = false) {g : ℕ} {G : Generation}
    (hG : c.renewPool.generations g = some G) :
    G.transactionPool ≠ c.renewPool.transactionPool := by
  rw [TCPConn.renewPool] at hG ⊢
  split_ifs at hG ⊢ with hclosed
  · exact (h.allocated g G hG).transactionPool.ne
  · have hnone := h.generations_eq_none hd (Bool.eq_false_iff.mpr hclosed) g
    rw [show c.generations g = some G from hG] at hnone
    cases hnone

theorem generations_start_self {conn : Ref} : (c.start conn).generations (c.gen + 1) =
    some ⟨c.next, conn, c.next + 1, c.transactionPool⟩ :=
  Function.update_self _ _ _

theorem generations_start_of_ne {conn : Ref} {g : ℕ} (h : g ≠ c.gen + 1) :
    (c.start conn).generations g = c.generations g :=
  Function.update_of_ne h _ _

theorem generations_start {conn : Ref} {g : ℕ} {G : Generation}
    (h : (c.start conn).generations g = some G) :
    (g = c.gen + 1 ∧ G = ⟨c.next, conn, c.next + 1, c.transactionPool⟩) ∨
      g ≠ c.gen + 1 ∧ c.generations g = some G := by
  by_cases hg : g = c.gen + 1
  · subst hg
    rw [generations_start_self] at h
    exact .inl ⟨rfl, (Option.some.inj h).symm⟩
  · rw [generations_start_of_ne hg] at h
    exact .inr ⟨hg, h⟩

/-- A new generation differs from the older ones. -/
theorem Core.distinct_start (h : c.Core) {conn : Ref} {g : ℕ} {G : Generation}
    (hG : c.generations g = some G) (hpool : G.transactionPool ≠ c.transactionPool)
    (hconn : c.injectedConn = none → G.conn ≠ conn) :
    Distinct c.injectedConn G ⟨c.next, conn, c.next + 1, c.transactionPool⟩ where
  done := (h.allocated g G hG).done.ne
  writeChan := ((h.allocated g G hG).writeChan.trans (Nat.lt_succ_self _)).ne
  transactionPool := hpool
  conn := hconn

theorem Distinct.symm {injectedConn : Option Ref} {G G' : Generation}
    (h : Distinct injectedConn G G') : Distinct injectedConn G' G :=
  ⟨h.done.symm, h.writeChan.symm, h.transactionPool.symm, fun hi => (h.conn hi).symm⟩

theorem Core.start (h : c.Core) {conn : Ref} (hlt : conn < c.next)
    (hpool : ∀ g G, c.generations g = some G → G.transactionPool ≠ c.transactionPool)
    (hconn : c.injectedConn = none → ∀ g G, c.generations g = some G → G.conn ≠ conn) :
    (c.start conn).Inv := by
  have hle : c.next ≤ (c.start conn).next := Nat.le_add_right _ 2
  have hdone : c.next ∉ c.doneCloses := fun hmem => (h.closes_lt _ hmem).false
  have hnew : (c.start conn).generations (c.gen + 1) =
      some ⟨c.next, conn, c.next + 1, c.transactionPool⟩ := generations_start_self
  have hold : ∀ e ∈ c.socketCloses, e.1 ≠ c.gen + 1 := fun e he => by
    obtain ⟨G, hG, -⟩ := h.socket_own e he
    exact (Nat.lt_succ_of_le (h.gen_le _ G hG)).ne
  refine
    { pool_lt := h.pool_lt.trans_le hle
      done_lt := Nat.lt_add_of_pos_right Nat.two_pos
      injected_lt := fun k hk => (h.injected_lt k hk).trans_le hle
      closes_lt := fun d hmem => (h.closes_lt d hmem).trans_le hle
      allocated := fun g G hG => ?_
      gen_le := fun g G hG => ?_
      distinct := fun g g' G G' hne hG hG' => ?_
      unstarted := fun hnone => ?_
      current := fun G hG => ?_
      done_once := h.done_once
      done_closed := ⟨fun hmem => absurd hmem hdone, fun ho => by cases ho⟩
      socket_once := h.socket_once
      socket_closed := fun hmem => ?_
      socket_own := fun e he => ?_
      live := fun _ => rfl
      accounts := h.accounts
      torn_down := fun g G hG ht => ?_
      pool_closed := fun ho => by cases ho }
  · rcases generations_start hG with ⟨rfl, rfl⟩ | ⟨-, hG⟩
    · exact ⟨Nat.lt_add_of_pos_right Nat.two_pos, hlt.trans_le hle,
        Nat.lt_succ_self _, h.pool_lt.trans_le hle⟩
    · exact (h.allocated g G hG).mono hle
  · rcases generations_start hG with ⟨rfl, rfl⟩ | ⟨-, hG⟩
    · exact le_refl _
    · exact (h.gen_le g G hG).trans (Nat.le_succ _)
  · rcases generations_start hG with ⟨rfl, rfl⟩ | ⟨hg, hG⟩ <;>
      rcases generations_start hG' with ⟨rfl, rfl⟩ | ⟨hg', hG'⟩
    · exact absurd rfl hne
    · exact (h.distinct_start hG' (hpool _ _ hG') fun hi => hconn hi _ _ hG').symm
    · exact h.distinct_start hG (hpool _ _ hG) fun hi => hconn hi _ _ hG
    · exact h.distinct g g' G G' hne hG hG'
  · rw [show (c.start conn).gen = c.gen + 1 from rfl, hnew] at hnone
    cases hnone
  · obtain rfl := Option.some.inj (hnew.symm.trans hG)
    exact ⟨rfl, rfl, fun _ => ⟨rfl, rfl⟩⟩
  · obtain ⟨e, he, heq⟩ := List.mem_map.mp hmem
    exact absurd heq (hold e he)
  · obtain ⟨G, hG, hk⟩ := h.socket_own e he
    exact ⟨G, (generations_start_of_ne (hold e he)).trans hG, hk⟩
  · rcases generations_start hG with ⟨rfl, rfl⟩ | ⟨-, hG⟩
    · exact absurd ht hdone
    · exact h.torn_down g G hG ht

theorem Core.dial (h : c.Core) (dialed : Bool)
    (hpool : ∀ g G, c.generations g = some G → G.transactionPool ≠ c.transactionPool) :
    (c.dial dialed).Inv := by
  rw [TCPConn.dial]
  split
  next conn hi =>
    refine h.start (h.injected_lt conn hi) hpool fun hn => ?_
    rw [hi] at hn
    cases hn
  next hi =>
    split_ifs
    · have hle : c.next ≤ c.next + 1 := Nat.le_succ _
      have hcore : Core { c with next := c.next + 1 } :=
        { h with
          pool_lt := h.pool_lt.trans_le hle
          done_lt := h.done_lt.trans_le hle
          injected_lt := fun conn hk => (h.injected_lt conn hk).trans_le hle
          closes_lt := fun d hmem => (h.closes_lt d hmem).trans_le hle
          allocated := fun g G hG => (h.allocated g G hG).mono hle }
      exact hcore.start (Nat.lt_succ_self _) hpool fun _ g G hG => (h.allocated g G hG).conn.ne
    · exact h.close

theorem Inv.connect (h : c.Inv) (dialed : Bool) : (c.connect dialed).Inv := by
  rw [TCPConn.connect]
  split_ifs with hc
  · exact h
  · have hd := Bool.eq_false_iff.mpr hc
    exact (h.renewPool hd).dial dialed fun g G => h.renewPool_fresh hd

/-! ### Teardown -/

/-- Only the current generation has the `done` channel of the connection. -/
theorem Core.current_of_done (h : c.Core) {g : ℕ} {G : Generation}
    (hG : c.generations g = some G) (hd : G.done = c.done) : c.generations c.gen = some G := by
  cases hcur : c.generations c.gen with
  | none =>
    rw [(h.unstarted hcur).2.2 g] at hG
    cases hG
  | some G' =>
    by_cases hg : g = c.gen
    · rw [← hcur, ← hg, hG]
    · have hne := (h.distinct g c.gen G G' hg hG hcur).done
      exact absurd (hd.trans (h.current G' hcur).1.symm) hne

theorem Core.socket_own_current (h : c.Core) {conn : Ref} (hc : c.conn = some conn) :
    ∃ G, c.generations c.gen = some G ∧ G.conn = conn := by
  cases hcur : c.generations c.gen with
  | none =>
    rw [(h.unstarted hcur).1] at hc
    cases hc
  | some G =>
    rw [(h.current G hcur).2.1] at hc
    exact ⟨G, rfl, Option.some.inj hc⟩

theorem Inv.teardown_first (h : c.Inv) (ho : c.closeOnce = false) :
    Inv { c.setPool c.transactionPool (c.pools c.transactionPool).close with
      connected := false
      closeOnce := true
      doneCloses := c.doneCloses ++ [c.done]
      socketCloses := c.socketCloses ++ (c.conn.map fun conn => (c.gen, conn)).toList } := by
  have hclose := h.toCore.close
  have hdone : c.done ∉ c.doneCloses := fun hmem => by
    rw [h.done_closed.mp hmem] at ho
    cases ho
  have hgen : c.gen ∉ c.socketCloses.map Prod.fst := fun hmem => by
    rw [h.socket_closed hmem] at ho
    cases ho
  refine
    { pool_lt := h.pool_lt
      done_lt := h.done_lt
      injected_lt := h.injected_lt
      closes_lt := fun d hmem => ?_
      allocated := fun g G hG => (h.allocated g G hG).mono le_rfl
      gen_le := h.gen_le
      distinct := h.distinct
      unstarted := fun hnone => ⟨(h.unstarted hnone).1, rfl, (h.unstarted hnone).2.2⟩
      current := fun G hG => ⟨(h.current G hG).1, (h.current G hG).2.1, fun hf => by cases hf⟩
      done_once := ?_
      done_closed := ⟨fun _ => rfl, fun _ => List.mem_append_right _ (List.mem_singleton_self _)⟩
      socket_once := ?_
      socket_closed := fun _ => rfl
      socket_own := fun e he => ?_
      live := fun hf => by cases hf
      accounts := hclose.accounts
      torn_down := fun g G hG ht => ?_
      pool_closed := fun _ => ?_ }
  · rcases List.mem_append.mp hmem with hmem | hmem
    · exact h.closes_lt d hmem
    · rw [List.mem_singleton.mp hmem]
      exact h.done_lt
  · rw [List.nodup_append]
    refine ⟨h.done_once, by simp, fun d hd d' hd' => ?_⟩
    rw [List.mem_singleton.mp hd']
    exact fun he => hdone (he ▸ hd)
  · rw [List.map_append, List.nodup_append]
    refine ⟨h.socket_once, by cases c.conn <;> simp, fun g hg g' hg' => ?_⟩
    have : g' = c.gen := by
      cases hc : c.conn <;> simp_all
    rw [this]
    exact fun he => hgen (he ▸ hg)
  · rcases List.mem_append.mp he with he | he
    · exact h.socket_own e he
    · obtain ⟨conn, hc, rfl⟩ := Option.map_eq_some_iff.mp (Option.mem_toList.mp he)
      exact h.socket_own_current hc
  · rcases List.mem_append.mp ht with ht | ht
    · exact hclose.torn_down g G hG ht
    · have hcur := h.current_of_done hG (List.mem_singleton.mp ht)
      have hpool := ((h.current G hcur).2.2 ho).1
      rw [hpool]
      exact closed_setPool_close
  · exact closed_setPool_close

theorem Inv.teardown (h : c.Inv) : (unsafeTeardown { c with connected := false }).Inv := by
  rw [unsafeTeardown]
  split_ifs with ho
  · exact
      { h with
        allocated := fun g G hG => (h.allocated g G hG).mono le_rfl
        unstarted := fun hnone => ⟨(h.unstarted hnone).1, rfl, (h.unstarted hnone).2.2⟩
        current := fun G hG => ⟨(h.current G hG).1, (h.current G hG).2.1, fun hf => by
          rw [show c.closeOnce = false from hf] at ho
          cases ho⟩
        live := fun hf => by cases hf }
  · exact h.teardown_first (Bool.eq_false_iff.mpr ho)

/-! ### Steps of a generation -/

theorem Inv.queues (h : c.Inv) (queues : Ref → List TxRef) : Inv { c with queues } :=
  { h with allocated := fun g G hG => (h.allocated g G hG).mono le_rfl }

theorem step_pool {gen : ℕ} {op : PoolStep} {c' : TCPConn}
    (h : c.step (.pool gen op) = some c') :
    ∃ G pool, c.generations gen = some G ∧ (c.pools G.transactionPool).step op = some pool ∧
      c' = c.setPool G.transactionPool pool := by
  have hs : (c.generations gen).bind (fun G =>
      ((c.pools G.transactionPool).step op).map (c.setPool G.transactionPool)) = some c' := by
    cases op with
    | close => cases h
    | _ => exact h
  obtain ⟨G, hG, hs⟩ := Option.bind_eq_some_iff.mp hs
  obtain ⟨pool, hpool, rfl⟩ := Option.map_eq_some_iff.mp hs
  exact ⟨G, pool, hG, hpool, rfl⟩

/-- A step on the write channel of a generation changes the contents of that channel only. -/
theorem step_queue {gen : ℕ} {a : ConnStep} {c' : TCPConn} (h : c.step a = some c')
    (ha : a = .dequeue gen ∨ ∃ tx, a = .queue gen tx) :
    ∃ G queue, c.generations gen = some G ∧
      c' = { c with queues := Function.update c.queues G.writeChan queue } := by
  rcases ha with rfl | ⟨tx, rfl⟩ <;> obtain ⟨G, hG, hs⟩ := Option.bind_eq_some_iff.mp h
  · split at hs
    next => cases hs
    next => exact ⟨G, _, hG, (Option.some.inj hs).symm⟩
  · split_ifs at hs
    exact ⟨G, _, hG, (Option.some.inj hs).symm⟩

theorem Inv.step {a : ConnStep} {c' : TCPConn} (h : c.Inv) (hs : c.step a = some c') : c'.Inv := by
  cases a with
  | connect dialed =>
    cases hs
    exact h.connect dialed
  | disconnect =>
    cases hs
    exact h.teardown
  | setDisconnected gen =>
    obtain ⟨G, -, rfl⟩ := Option.map_eq_some_iff.mp hs
    rw [setDisconnected]
    split_ifs
    · exact h
    · exact h.teardown
  | pool gen op =>
    obtain ⟨G, pool, -, hpool, rfl⟩ := step_pool hs
    exact h.setPool ((h.accounts _).step hpool) (PoolState.closed_step hpool)
  | queue gen tx =>
    obtain ⟨G, queue, -, rfl⟩ := step_queue hs (.inr ⟨tx, rfl⟩)
    exact h.queues _
  | dequeue gen =>
    obtain ⟨G, queue, -, rfl⟩ := step_queue hs (.inl rfl)
    exact h.queues _

/-- A step of a generation leaves every newer generation alone. -/
theorem Inv.untouched (h : c.Inv) {g g' : ℕ} {G' : Generation} (hlt : g < g')
    (hG' : c.generations g' = some G') {a : ConnStep} {c' : TCPConn}
    (ha : a.generation = some g) (hs : c.step a = some c') : Untouched c c' G' := by
  cases a with
  | connect | disconnect => cases ha
  | setDisconnected gen =>
    obtain rfl := Option.some.inj ha
    obtain ⟨G, -, rfl⟩ := Option.map_eq_some_iff.mp hs
    have hne : gen ≠ c.gen := (hlt.trans_le (h.gen_le g' G' hG')).ne
    rw [setDisconnected, if_pos hne]
    exact ⟨rfl, rfl, rfl, rfl, rfl, rfl, rfl, rfl⟩
  | pool gen op =>
    obtain rfl := Option.some.inj ha
    obtain ⟨G, pool, hG, -, rfl⟩ := step_pool hs
    have hne := (h.distinct g' gen G' G hlt.ne' hG' hG).transactionPool
    exact ⟨rfl, rfl, rfl, rfl, setPool_pools_of_ne hne, rfl, rfl, rfl⟩
  | queue gen tx =>
    obtain rfl := Option.some.inj ha
    obtain ⟨G, queue, hG, rfl⟩ := step_queue hs (.inr ⟨tx, rfl⟩)
    have hne := (h.distinct g' gen G' G hlt.ne' hG' hG).writeChan
    exact ⟨rfl, rfl, rfl, rfl, rfl, Function.update_of_ne hne _ _, rfl, rfl⟩
  | dequeue gen =>
    obtain rfl := Option.some.inj ha
    obtain ⟨G, queue, hG, rfl⟩ := step_queue hs (.inl rfl)
    have hne := (h.distinct g' gen G' G hlt.ne' hG' hG).writeChan
    exact ⟨rfl, rfl, rfl, rfl, rfl, Function.update_of_ne hne _ _, rfl, rfl⟩

theorem Core.dialed_once (h : c.Core) (hi : c.injectedConn = none) :
    (c.socketCloses.map Prod.snd).Nodup := by
  have hfst := List.pairwise_map.mp h.socket_once
  refine List.pairwise_map.mpr (hfst.imp_of_mem fun {e e'} he he' hne => ?_)
  obtain ⟨G, hG, hconn⟩ := h.socket_own e he
  obtain ⟨G', hG', hconn'⟩ := h.socket_own e' he'
  rw [← hconn, ← hconn']
  exact (h.distinct e.1 e'.1 G G' hne hG hG').conn hi

theorem Inv.isolated (h : c.Inv) : c.Isolated where
  done_once := h.done_once
  socket_once := h.socket_once
  socket_own := h.socket_own
  dialed_once := h.dialed_once
  stale g g' G' hlt hG' a c' ha hs := h.untouched hlt hG' ha hs
  connected_live hc := by
    have ho := h.live hc
    cases hcur : c.generations c.gen with
    | none =>
      rw [(h.unstarted hcur).2.1] at hc
      cases hc
    | some G =>
      refine ⟨G, rfl, fun ht => ?_, fun hmem => ?_⟩
      · rw [TornDown, (h.current G hcur).1, h.done_closed, ho] at ht
        cases ht
      · rw [h.socket_closed hmem] at ho
        cases ho
  torn_down_empty g G hG ht := (h.accounts _).closed_empty (h.torn_down g G hG ht)
  torn_down_closed g G hG ht tx := by
    rw [Pool.place, if_pos (h.torn_down g G hG ht)]
  torn_down_settled g G hG ht tx htx := by
    refine ((h.accounts _).placed tx htx).resolve_left ?_
    rintro ⟨txID, hl⟩
    rw [(h.accounts _).closed_empty (h.torn_down g G hG ht) txID] at hl
    cases hl

end TCPConn

/-- **Connection generations are isolated** in every state that any interleaving of `Connect`,
`Disconnect`, failed dials, exits of loops and the operations of all generations reaches. -/
theorem isolated_of_reachable (injected : Bool) {c : TCPConn}
    (h : (connSystem injected).Reachable (fun _ _ => True) c) : c.Isolated := by
  have hinv : c.Inv :=
    h.invariant (I := TCPConn.Inv) (.init injected) fun _ _ _ hc _ hs => hc.step hs
  exact hinv.isolated

/-- A connection is dropped with a request in flight, a dial fails, and the loops of the first
generation exit after the reconnect. -/
theorem isolated_reconnect :
    ∃ c, (connSystem false).Run (fun _ _ => True) (connSystem false).init
        [.connect true, .pool 1 (.place 0), .queue 1 0, .setDisconnected 1, .connect false,
          .connect true, .pool 2 (.place 0), .dequeue 1, .setDisconnected 1, .setDisconnected 1] c ∧
      c.connected = true ∧ c.gen = 2 ∧ c.socketCloses = [(1, 3)] ∧ c.Isolated := by
  have hrun : ∃ c, (connSystem false).Run (fun _ _ => True) (connSystem false).init
        [.connect true, .pool 1 (.place 0), .queue 1 0, .setDisconnected 1, .connect false,
          .connect true, .pool 2 (.place 0), .dequeue 1, .setDisconnected 1, .setDisconnected 1] c ∧
      c.connected = true ∧ c.gen = 2 ∧ c.socketCloses = [(1, 3)] :=
    ⟨_, TransitionSystem.run_of_exec rfl, rfl, rfl, rfl⟩
  obtain ⟨c, hrun, hconn, hgen, hcloses⟩ := hrun
  exact ⟨c, hrun, hconn, hgen, hcloses, isolated_of_reachable false ⟨_, hrun⟩⟩

end GoIndustrial.Modbus
