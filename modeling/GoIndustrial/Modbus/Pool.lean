import GoIndustrial.Lib.TransitionSystem
import GoIndustrial.Modbus.Types
import Mathlib.Data.List.AList
import Mathlib.Data.List.Perm.Basic

/-!
# The transaction pool

`TransactionPool` of `protocol/modbus/transaction.go`. The map of the pool is an association list
from transaction IDs to transactions, which are numbered; each operation holds the lock of the pool,
so it is one atomic step. The background goroutine that sweeps for timed-out transactions may run at
any time, and which transactions have lived too long is up to the clock.

The steps of `poolSystem` are these operations, together with the arrival of response frames: the
read loop of the connection releases the transaction from the pool in one step and completes it in a
later one.

## Main definitions

* `Modbus.Pool` and its operations.
* `Modbus.PoolState`, `Modbus.poolSystem` : a pool, its requests and the responses delivered.
* `Modbus.MatchesResponses` : responses go to the transaction that waits for them.

## Main results

* `Modbus.matchesResponses_of_reachable` : this holds in every reachable state.
-/

namespace GoIndustrial.Modbus

/-- The number of a transaction. -/
abbrev TxRef := ℕ

/-! ### Operations of the pool -/

/-- The fields `transactions`, `nextID` and `done` of a `TransactionPool`. -/
structure Pool where
  transactions : AList fun _ : TransactionID => TxRef
  nextID : UInt32
  /-- The `done` channel is closed. -/
  closed : Bool

/-- `NewTransactionPool`. -/
def newTransactionPool : Pool := ⟨∅, 0, false⟩

def maxIDAttempts : ℕ := 16

namespace Pool

/-- The loop of `Place`: `attempts` more IDs are tried; the counter is a 32-bit one of which the low
16 bits are used. -/
def findID (transactions : AList fun _ : TransactionID => TxRef) :
    ℕ → UInt32 → Option TransactionID × UInt32
  | 0, nextID => (none, nextID)
  | attempts + 1, nextID =>
    let candidate : TransactionID := (nextID &&& 0xFFFF).toUInt16
    if (transactions.lookup candidate).isNone then (some candidate, nextID + 1)
    else findID transactions attempts (nextID + 1)

/-- `TransactionPool.Place` of the transaction `tx`: the ID that is written into its request. -/
def place (p : Pool) (tx : TxRef) : Except Err TransactionID × Pool :=
  if p.closed then (.error .poolClosed, p)
  else
    match findID p.transactions maxIDAttempts p.nextID with
    | (none, nextID) => (.error .poolFull, { p with nextID })
    | (some txID, nextID) =>
      (.ok txID, { p with transactions := p.transactions.insert txID tx, nextID })

/-- `TransactionPool.Release`. -/
def release (p : Pool) (txID : TransactionID) : Option TxRef × Pool :=
  match p.transactions.lookup txID with
  | none => (none, p)
  | some tx => (some tx, { p with transactions := p.transactions.erase txID })

/-- Delete the entries with the given IDs. -/
def eraseAll (transactions : AList fun _ : TransactionID => TxRef) (ids : List TransactionID) :
    AList fun _ : TransactionID => TxRef :=
  ids.foldl (fun m txID => m.erase txID) transactions

/-- `TransactionPool.checkTimeouts`: the transactions that have `expired` are released; they are
cancelled with `ErrTransactionTimeout`. -/
def checkTimeouts (p : Pool) (expired : TxRef → Bool) : List TxRef × Pool :=
  let timedOut := p.transactions.entries.filter fun e => expired e.2
  (timedOut.map fun e => e.2,
    { p with transactions := eraseAll p.transactions (timedOut.map fun e => e.1) })

/-- The pooled transactions. -/
def pooled (p : Pool) : List TxRef := p.transactions.entries.map fun e => e.2

/-- `TransactionPool.unsafeReset`: all pooled transactions are cancelled with `ErrTransportClosing`.
-/
def unsafeReset (p : Pool) : List TxRef × Pool := (p.pooled, { p with transactions := ∅ })

/-- `TransactionPool.Close`: all pooled transactions are cancelled with `ErrTransportClosing`. -/
def close (p : Pool) : List TxRef × Pool :=
  if p.closed then ([], p) else (p.pooled, { p with transactions := ∅, closed := true })

/-! ### What the operations do -/

theorem findID_lookup {transactions : AList fun _ : TransactionID => TxRef} {attempts : ℕ}
    {nextID nextID' : UInt32} {txID : TransactionID}
    (h : findID transactions attempts nextID = (some txID, nextID')) :
    transactions.lookup txID = none := by
  induction attempts generalizing nextID with
  | zero => cases h
  | succ attempts ih =>
    rw [findID] at h
    split_ifs at h with hfree
    · obtain ⟨hid, -⟩ := Prod.mk.inj h
      rw [← Option.some.inj hid]
      exact Option.isNone_iff_eq_none.mp hfree
    · exact ih h

/-- `Place` takes an ID that is not pooled, in a pool that is not closed. -/
theorem place_ok {p p' : Pool} {tx : TxRef} {txID : TransactionID}
    (h : p.place tx = (.ok txID, p')) :
    p.closed = false ∧ p.transactions.lookup txID = none ∧ p'.closed = false ∧
      p'.transactions = p.transactions.insert txID tx := by
  rw [place] at h
  split_ifs at h with hclosed
  · cases (Prod.mk.inj h).1
  · split at h
    next => cases (Prod.mk.inj h).1
    next hfind =>
      obtain ⟨hid, rfl⟩ := Prod.mk.inj h
      cases hid
      have hopen := Bool.eq_false_iff.mpr hclosed
      exact ⟨hopen, findID_lookup hfind, hopen, rfl⟩

theorem place_error {p p' : Pool} {tx : TxRef} {e : Err} (h : p.place tx = (.error e, p')) :
    p'.closed = p.closed ∧ p'.transactions = p.transactions := by
  rw [place] at h
  split_ifs at h with hclosed
  · obtain ⟨-, rfl⟩ := Prod.mk.inj h
    exact ⟨rfl, rfl⟩
  · split at h
    next =>
      obtain ⟨-, rfl⟩ := Prod.mk.inj h
      exact ⟨rfl, rfl⟩
    next => cases (Prod.mk.inj h).1

theorem lookup_of_release {p p' : Pool} {txID : TransactionID} {tx : TxRef}
    (h : p.release txID = (some tx, p')) : p.transactions.lookup txID = some tx := by
  rw [release] at h
  split at h
  next => cases (Prod.mk.inj h).1
  next hsome => rw [hsome, ← (Prod.mk.inj h).1]

theorem lookup_release {p : Pool} {txID : TransactionID} {i : TransactionID} {tx : TxRef} :
    (p.release txID).2.transactions.lookup i = some tx ↔
      i ≠ txID ∧ p.transactions.lookup i = some tx := by
  rw [release]
  split
  next hnone =>
    refine ⟨fun h => ⟨?_, h⟩, fun h => h.2⟩
    rintro rfl
    rw [hnone] at h
    cases h
  next hsome =>
    by_cases h : i = txID
    · subst h
      simp
    · simp [AList.lookup_erase_ne h, h]

theorem lookup_eraseAll (m : AList fun _ : TransactionID => TxRef) (ids : List TransactionID)
    (i : TransactionID) :
    (eraseAll m ids).lookup i = if i ∈ ids then none else m.lookup i := by
  induction ids generalizing m with
  | nil => rfl
  | cons k ids ih =>
    rw [eraseAll, List.foldl_cons]
    refine (ih (m.erase k)).trans ?_
    by_cases hk : i = k
    · subst hk
      simp
    · simp [hk, AList.lookup_erase_ne hk]

theorem mem_entries {p : Pool} {i : TransactionID} {tx : TxRef} :
    ⟨i, tx⟩ ∈ p.transactions.entries ↔ p.transactions.lookup i = some tx :=
  AList.mem_lookup_iff.symm

theorem lookup_checkTimeouts {p : Pool} {expired : TxRef → Bool} {i : TransactionID} {tx : TxRef} :
    (p.checkTimeouts expired).2.transactions.lookup i = some tx ↔
      expired tx = false ∧ p.transactions.lookup i = some tx := by
  have hmem : i ∈ (p.transactions.entries.filter fun e => expired e.2).map (fun e => e.1) ↔
      ∃ tx, p.transactions.lookup i = some tx ∧ expired tx = true := by
    rw [List.mem_map]
    constructor
    · rintro ⟨⟨i', tx⟩, he, rfl⟩
      obtain ⟨he, hx⟩ := List.mem_filter.mp he
      exact ⟨tx, mem_entries.mp he, hx⟩
    · rintro ⟨tx, he, hx⟩
      exact ⟨⟨i, tx⟩, List.mem_filter.mpr ⟨mem_entries.mpr he, hx⟩, rfl⟩
  rw [checkTimeouts, lookup_eraseAll]
  split_ifs with h
  · obtain ⟨tx', he, hx⟩ := hmem.mp h
    refine ⟨fun hn => (by cases hn), ?_⟩
    rintro ⟨hx', he'⟩
    obtain rfl : tx' = tx := Option.some.inj (he.symm.trans he')
    rw [hx] at hx'
    cases hx'
  · refine ⟨fun he => ⟨?_, he⟩, fun he => he.2⟩
    by_contra hx
    exact h (hmem.mpr ⟨tx, he, (Bool.not_eq_false _).mp hx⟩)

theorem lookup_close {p : Pool} {i : TransactionID} {tx : TxRef}
    (h : p.close.2.transactions.lookup i = some tx) : p.transactions.lookup i = some tx := by
  rw [close] at h
  split_ifs at h
  · exact h
  · cases h

@[simp]
theorem closed_release {p : Pool} {txID : TransactionID} :
    (p.release txID).2.closed = p.closed := by
  rw [release]
  split <;> rfl

@[simp]
theorem closed_close {p : Pool} : p.close.2.closed = true := by
  rw [close]
  split_ifs with h
  · exact h
  · rfl

theorem mem_pooled {p : Pool} {tx : TxRef} :
    tx ∈ p.pooled ↔ ∃ i, p.transactions.lookup i = some tx := by
  rw [pooled, List.mem_map]
  constructor
  · rintro ⟨⟨i, tx⟩, he, rfl⟩
    exact ⟨i, mem_entries.mp he⟩
  · rintro ⟨i, hl⟩
    exact ⟨⟨i, tx⟩, mem_entries.mpr hl, rfl⟩

theorem mem_checkTimeouts {p : Pool} {expired : TxRef → Bool} {tx : TxRef} :
    tx ∈ (p.checkTimeouts expired).1 ↔
      ∃ i, p.transactions.lookup i = some tx ∧ expired tx = true := by
  rw [checkTimeouts, List.mem_map]
  constructor
  · rintro ⟨⟨i, tx⟩, he, rfl⟩
    obtain ⟨he, hx⟩ := List.mem_filter.mp he
    exact ⟨i, mem_entries.mp he, hx⟩
  · rintro ⟨i, hl, hx⟩
    exact ⟨⟨i, tx⟩, List.mem_filter.mpr ⟨mem_entries.mpr hl, hx⟩, rfl⟩

theorem mem_close {p : Pool} {tx : TxRef} (h : tx ∈ p.close.1) :
    ∃ i, p.transactions.lookup i = some tx ∧ p.close.2.transactions.lookup i ≠ some tx := by
  rw [close] at h ⊢
  split_ifs at h ⊢ with hc
  · cases h
  · obtain ⟨i, hl⟩ := mem_pooled.mp h
    exact ⟨i, hl, fun hl' => by cases hl'⟩

end Pool

/-! ### Requests, responses and deliveries -/

/-- A pool with the requests placed in it. -/
structure PoolState where
  pool : Pool
  /-- The transaction ID written into a request, once it has been placed. -/
  ids : TxRef → Option TransactionID
  /-- Transactions that the read loop released for a response and has not completed yet. -/
  inHand : List (TxRef × Response)
  /-- The responses given to transactions, by `Complete`. -/
  delivered : List (TxRef × Response)
  /-- The errors given to transactions, by `Cancel`. -/
  cancelled : List (TxRef × Err)
  /-- Transactions released by their own `Send`, which gives up on them. -/
  released : List TxRef

/-- A new pool, without requests. -/
def newPoolState : PoolState := ⟨newTransactionPool, fun _ => none, [], [], [], []⟩

namespace PoolState

/-- `unsafeReset` with the cancellations it makes. -/
def reset (s : PoolState) : PoolState :=
  { s with
    pool := s.pool.unsafeReset.2
    cancelled := s.cancelled ++ s.pool.unsafeReset.1.map fun tx => (tx, .transportClosing) }

/-- `Close` with the cancellations it makes. -/
def close (s : PoolState) : PoolState :=
  { s with
    pool := s.pool.close.2
    cancelled := s.cancelled ++ s.pool.close.1.map fun tx => (tx, .transportClosing) }

end PoolState

/-- An operation of the pool or of the read loop. -/
inductive PoolStep
  /-- `Place` with a request that was not placed before. -/
  | place (tx : TxRef)
  | release (txID : TransactionID)
  | checkTimeouts (expired : TxRef → Bool)
  | reset
  | close
  /-- A response frame arrives: `pool.Release(transactionID)` in the read loop. -/
  | arrive (response : Response)
  /-- `tx.Complete(response, nil)` for the `k`-th transaction in hand. -/
  | complete (k : ℕ)
  /-- `processError`: the read loop fails the transaction of a frame it cannot use. -/
  | processError (txID : TransactionID) (err : Err)

/-- The state after an operation. -/
def PoolState.step (s : PoolState) : PoolStep → Option PoolState
  | .place tx =>
    if s.ids tx = none then
      match s.pool.place tx with
      | (.error _, pool) => some { s with pool }
      | (.ok txID, pool) => some { s with pool, ids := Function.update s.ids tx (some txID) }
    else none
  | .release txID =>
    some { s with
      pool := (s.pool.release txID).2
      released := s.released ++ (s.pool.release txID).1.toList }
  | .checkTimeouts expired =>
    some { s with
      pool := (s.pool.checkTimeouts expired).2
      cancelled := s.cancelled ++
        (s.pool.checkTimeouts expired).1.map fun tx => (tx, .transactionTimeout) }
  | .reset => some s.reset
  | .close => some s.close
  | .arrive response =>
    match s.pool.release response.transactionID with
    | (none, _) => some s
    | (some tx, pool) => some { s with pool, inHand := s.inHand ++ [(tx, response)] }
  | .complete k =>
    match s.inHand[k]? with
    | none => none
    | some d => some { s with inHand := s.inHand.eraseIdx k, delivered := s.delivered ++ [d] }
  | .processError txID err =>
    some { s with
      pool := (s.pool.release txID).2
      cancelled := s.cancelled ++ (s.pool.release txID).1.toList.map fun tx => (tx, err) }

/-- A new pool under any interleaving of the operations. -/
def poolSystem : TransitionSystem PoolState PoolStep where
  init := newPoolState
  step := PoolState.step

/-- Responses are matched to the right transaction. -/
structure MatchesResponses (s : PoolState) : Prop where
  /-- `Place` never hands out an ID that is still pooled. -/
  place_unpooled : ∀ tx txID pool, s.pool.place tx = (.ok txID, pool) →
    s.pool.transactions.lookup txID = none
  /-- Each pooled transaction is stored under the ID written in its own request. -/
  stored : ∀ txID tx, s.pool.transactions.lookup txID = some tx → s.ids tx = some txID
  /-- A transaction is taken for a response only while it is stored under the ID of the response. -/
  taken : ∀ a t, s.step a = some t → ∀ d ∈ t.inHand, d ∈ s.inHand ∨
    a = .arrive d.2 ∧ s.pool.transactions.lookup d.2.transactionID = some d.1
  /-- A response is delivered only to the transaction taken for it. -/
  delivered : ∀ a t, s.step a = some t → ∀ d ∈ t.delivered, d ∈ s.delivered ∨ d ∈ s.inHand
  /-- No transaction is delivered two responses. -/
  once : ((s.delivered ++ s.inHand).map Prod.fst).Nodup
  /-- A response whose ID is not pooled changes nothing. -/
  unknown : ∀ response, s.pool.transactions.lookup response.transactionID = none →
    s.step (.arrive response) = some s

/-- The transactions that the read loop took for a response, or that were given an error. -/
def PoolState.answered (s : PoolState) : List TxRef :=
  (s.delivered ++ s.inHand).map Prod.fst ++ s.cancelled.map Prod.fst

/-- The invariant: pooled transactions have their own ID and have not been answered. -/
structure PoolInv (s : PoolState) : Prop where
  stored : ∀ txID tx, s.pool.transactions.lookup txID = some tx → s.ids tx = some txID
  placed : ∀ tx ∈ s.answered, s.ids tx ≠ none
  unanswered : ∀ txID tx, s.pool.transactions.lookup txID = some tx → tx ∉ s.answered
  once : ((s.delivered ++ s.inHand).map Prod.fst).Nodup

theorem PoolInv.init : PoolInv newPoolState where
  stored _ _ h := by cases h
  placed _ h := by cases h
  unanswered _ _ h := by cases h
  once := List.nodup_nil

/-- A step that only takes transactions out of the pool keeps the invariant, provided that those it
answers were pooled and are not any more. -/
theorem PoolInv.of_lookup {s t : PoolState} (h : PoolInv s) (hids : t.ids = s.ids)
    (hpool : ∀ txID tx, t.pool.transactions.lookup txID = some tx →
      s.pool.transactions.lookup txID = some tx)
    (hans : ∀ tx ∈ t.answered, tx ∈ s.answered ∨ ∃ txID,
      s.pool.transactions.lookup txID = some tx ∧ t.pool.transactions.lookup txID ≠ some tx)
    (honce : ((t.delivered ++ t.inHand).map Prod.fst).Nodup) : PoolInv t where
  stored txID tx hl := by
    rw [hids]
    exact h.stored txID tx (hpool txID tx hl)
  placed tx htx := by
    rw [hids]
    rcases hans tx htx with htx | ⟨txID, hl, -⟩
    · exact h.placed tx htx
    · rw [h.stored txID tx hl]
      exact Option.some_ne_none _
  unanswered txID tx hl htx := by
    rcases hans tx htx with htx | ⟨i, hi, hne⟩
    · exact h.unanswered txID tx (hpool txID tx hl) htx
    · -- the transaction is stored under one ID only
      have hids := (h.stored _ _ hi).symm.trans (h.stored _ _ (hpool txID tx hl))
      cases hids
      exact hne hl
  once := honce

/-- A step that cancels the transactions it takes out of the pool keeps the invariant. -/
theorem PoolInv.cancel {s : PoolState} (h : PoolInv s) {p : Pool} {txs : List TxRef} {e : Err}
    (hpool : ∀ txID tx, p.transactions.lookup txID = some tx →
      s.pool.transactions.lookup txID = some tx)
    (htxs : ∀ tx ∈ txs, ∃ txID, s.pool.transactions.lookup txID = some tx ∧
      p.transactions.lookup txID ≠ some tx) :
    PoolInv { s with pool := p, cancelled := s.cancelled ++ txs.map fun tx => (tx, e) } := by
  refine h.of_lookup rfl hpool (fun tx htx => ?_) h.once
  rcases List.mem_append.mp htx with htx | htx
  · exact .inl (List.mem_append_left _ htx)
  · rcases List.mem_append.mp (List.map_append ▸ htx) with htx | htx
    · exact .inl (List.mem_append_right _ htx)
    · rw [List.map_map, List.mem_map] at htx
      obtain ⟨tx', hmem, rfl⟩ := htx
      exact .inr (htxs _ hmem)

theorem PoolInv.place {s : PoolState} (h : PoolInv s) {tx : TxRef} {txID : TransactionID}
    {pool : Pool} (hnew : s.ids tx = none) (hp : s.pool.place tx = (.ok txID, pool)) :
    PoolInv { s with pool, ids := Function.update s.ids tx (some txID) } := by
  obtain ⟨-, hfree, -, htrans⟩ := Pool.place_ok hp
  have hids : ∀ tx', s.ids tx' ≠ none → Function.update s.ids tx (some txID) tx' = s.ids tx' :=
    fun tx' hne => Function.update_of_ne (fun he : tx' = tx => hne (he ▸ hnew)) _ _
  -- a pooled transaction is the new one, or was pooled under its ID before
  have hcases : ∀ i tx', pool.transactions.lookup i = some tx' →
      (i = txID ∧ tx' = tx) ∨ (i ≠ txID ∧ s.pool.transactions.lookup i = some tx') := by
    intro i tx' hl
    rw [htrans] at hl
    by_cases hi : i = txID
    · subst hi
      rw [AList.lookup_insert] at hl
      exact .inl ⟨rfl, (Option.some.inj hl).symm⟩
    · rw [AList.lookup_insert_ne hi] at hl
      exact .inr ⟨hi, hl⟩
  refine ⟨fun i tx' hl => ?_, fun tx' htx' => ?_, fun i tx' hl => ?_, h.once⟩
  · rcases hcases i tx' hl with ⟨rfl, rfl⟩ | ⟨-, hl⟩
    · exact Function.update_self _ _ _
    · have hs := h.stored i tx' hl
      exact (hids tx' (by rw [hs]; exact Option.some_ne_none i)).trans hs
  · have hne := h.placed tx' htx'
    exact fun he => hne ((hids tx' hne).symm.trans he)
  · rcases hcases i tx' hl with ⟨-, rfl⟩ | ⟨-, hl⟩
    · exact fun hmem => h.placed _ hmem hnew
    · exact h.unanswered i tx' hl

theorem PoolInv.arrive {s : PoolState} (h : PoolInv s) {response : Response} {tx : TxRef}
    {pool : Pool} (hr : s.pool.release response.transactionID = (some tx, pool)) :
    PoolInv { s with pool, inHand := s.inHand ++ [(tx, response)] } := by
  have hpool : pool = (s.pool.release response.transactionID).2 := by rw [hr]
  have hl := Pool.lookup_of_release hr
  have hmap : (s.delivered ++ (s.inHand ++ [(tx, response)])).map Prod.fst =
      (s.delivered ++ s.inHand).map Prod.fst ++ [tx] := by simp
  refine h.of_lookup rfl (fun i tx' hl' => ?_) (fun tx' htx' => ?_) ?_
  · rw [hpool] at hl'
    exact (Pool.lookup_release.mp hl').2
  · rw [PoolState.answered, hmap, List.append_assoc, List.mem_append, List.mem_append,
      List.mem_singleton] at htx'
    rcases htx' with htx' | rfl | htx'
    · exact .inl (List.mem_append_left _ htx')
    · refine .inr ⟨_, hl, ?_⟩
      rw [hpool]
      exact fun hl' => (Pool.lookup_release.mp hl').1 rfl
    · exact .inl (List.mem_append_right _ htx')
  · rw [hmap, List.nodup_append]
    refine ⟨h.once, by simp, fun a ha b hb => ?_⟩
    obtain rfl := List.mem_singleton.mp hb
    exact fun he => h.unanswered _ _ hl (List.mem_append_left _ (he ▸ ha))

theorem PoolState.perm_of_complete {s : PoolState} {k : ℕ} {d : TxRef × Response}
    (hk : s.inHand[k]? = some d) :
    (s.delivered ++ [d] ++ s.inHand.eraseIdx k).Perm (s.delivered ++ s.inHand) := by
  obtain ⟨hlt, rfl⟩ := List.getElem?_eq_some_iff.mp hk
  rw [List.append_assoc]
  exact (List.getElem_cons_eraseIdx_perm hlt).append_left _

theorem PoolInv.complete {s : PoolState} (h : PoolInv s) {k : ℕ} {d : TxRef × Response}
    (hk : s.inHand[k]? = some d) :
    PoolInv { s with inHand := s.inHand.eraseIdx k, delivered := s.delivered ++ [d] } := by
  have hperm := (PoolState.perm_of_complete hk).map Prod.fst
  refine h.of_lookup rfl (fun _ _ => id) (fun tx htx => .inl ?_) (hperm.nodup_iff.mpr h.once)
  exact (hperm.append_right _).mem_iff.mp htx

theorem PoolInv.step {s t : PoolState} {a : PoolStep} (h : PoolInv s) (ht : s.step a = some t) :
    PoolInv t := by
  cases a with
  | place tx =>
    simp only [PoolState.step] at ht
    split_ifs at ht with hnew
    split at ht
    next e pool hp =>
      cases ht
      exact h.of_lookup rfl (fun _ _ hl => (Pool.place_error hp).2 ▸ hl) (fun _ => .inl) h.once
    next txID pool hp =>
      cases ht
      exact h.place hnew hp
  | release txID =>
    cases ht
    exact h.of_lookup rfl (fun _ _ hl => (Pool.lookup_release.mp hl).2) (fun _ => .inl) h.once
  | checkTimeouts expired =>
    cases ht
    refine h.cancel (fun _ _ hl => (Pool.lookup_checkTimeouts.mp hl).2) fun tx htx => ?_
    obtain ⟨txID, hl, hx⟩ := Pool.mem_checkTimeouts.mp htx
    refine ⟨txID, hl, fun hl' => ?_⟩
    rw [(Pool.lookup_checkTimeouts.mp hl').1] at hx
    cases hx
  | reset =>
    cases ht
    refine h.cancel (fun _ _ hl => by cases hl) fun tx htx => ?_
    obtain ⟨txID, hl⟩ := Pool.mem_pooled.mp htx
    exact ⟨txID, hl, fun hl' => by cases hl'⟩
  | close =>
    cases ht
    exact h.cancel (fun _ _ hl => Pool.lookup_close hl) fun _ => Pool.mem_close
  | arrive response =>
    simp only [PoolState.step] at ht
    split at ht
    next =>
      cases ht
      exact h
    next tx pool hr =>
      cases ht
      exact h.arrive hr
  | complete k =>
    simp only [PoolState.step] at ht
    split at ht
    next => cases ht
    next d hk =>
      cases ht
      exact h.complete hk
  | processError txID err =>
    cases ht
    refine h.cancel (fun _ _ hl => (Pool.lookup_release.mp hl).2) fun tx htx => ?_
    have hl := Pool.lookup_of_release (Prod.ext (Option.mem_toList.mp htx) rfl)
    exact ⟨txID, hl, fun hl' => (Pool.lookup_release.mp hl').1 rfl⟩

/-- What a step puts into the hand of the read loop, and what it delivers. -/
theorem PoolState.step_deliveries {s t : PoolState} {a : PoolStep} (h : s.step a = some t) :
    (∀ d ∈ t.inHand, d ∈ s.inHand ∨
      a = .arrive d.2 ∧ s.pool.transactions.lookup d.2.transactionID = some d.1) ∧
    ∀ d ∈ t.delivered, d ∈ s.delivered ∨ d ∈ s.inHand := by
  cases a with
  | place tx =>
    simp only [PoolState.step] at h
    split_ifs at h
    split at h <;> obtain rfl := Option.some.inj h <;> exact ⟨fun _ => .inl, fun _ => .inl⟩
  | release | checkTimeouts | reset | close | processError =>
    cases h
    exact ⟨fun _ => .inl, fun _ => .inl⟩
  | arrive response =>
    simp only [PoolState.step] at h
    split at h
    next =>
      cases h
      exact ⟨fun _ => .inl, fun _ => .inl⟩
    next tx pool hr =>
      cases h
      refine ⟨fun d hd => ?_, fun _ => .inl⟩
      rcases List.mem_append.mp hd with hd | hd
      · exact .inl hd
      · obtain rfl := List.mem_singleton.mp hd
        exact .inr ⟨rfl, Pool.lookup_of_release hr⟩
  | complete k =>
    simp only [PoolState.step] at h
    split at h
    next => cases h
    next d hk =>
      cases h
      refine ⟨fun e he => .inl (List.mem_of_mem_eraseIdx he), fun e he => ?_⟩
      rcases List.mem_append.mp he with he | he
      · exact .inl he
      · obtain rfl := List.mem_singleton.mp he
        exact .inr (List.mem_of_getElem? hk)

/-- Only `Place` puts a transaction into the pool. -/
theorem PoolState.lookup_of_step {s t : PoolState} {a : PoolStep} (h : s.step a = some t)
    {txID : TransactionID} {tx : TxRef} (hl : t.pool.transactions.lookup txID = some tx) :
    s.pool.transactions.lookup txID = some tx ∨ a = .place tx := by
  cases a with
  | place tx' =>
    simp only [PoolState.step] at h
    split_ifs at h
    split at h
    next hp =>
      cases h
      exact .inl ((Pool.place_error hp).2 ▸ hl)
    next txID' pool hp =>
      cases h
      rw [(Pool.place_ok hp).2.2.2] at hl
      by_cases hi : txID = txID'
      · subst hi
        rw [AList.lookup_insert] at hl
        exact .inr (congrArg PoolStep.place (Option.some.inj hl))
      · exact .inl ((AList.lookup_insert_ne hi).symm.trans hl)
  | release | processError =>
    cases h
    exact .inl (Pool.lookup_release.mp hl).2
  | checkTimeouts expired =>
    cases h
    exact .inl (Pool.lookup_checkTimeouts.mp hl).2
  | reset =>
    cases h
    cases hl
  | close =>
    cases h
    exact .inl (Pool.lookup_close hl)
  | arrive response =>
    simp only [PoolState.step] at h
    split at h
    next =>
      cases h
      exact .inl hl
    next tx' pool hr =>
      cases h
      have hpool : pool = (s.pool.release response.transactionID).2 := by rw [hr]
      rw [hpool] at hl
      exact .inl (Pool.lookup_release.mp hl).2
  | complete k =>
    simp only [PoolState.step] at h
    split at h
    next => cases h
    next =>
      cases h
      exact .inl hl

/-- Answered transactions stay answered. -/
theorem PoolState.answered_of_step {s t : PoolState} {a : PoolStep} (h : s.step a = some t)
    {tx : TxRef} (htx : tx ∈ s.answered) : tx ∈ t.answered := by
  have hcancel : ∀ l : List (TxRef × Err), tx ∈ (s.delivered ++ s.inHand).map Prod.fst ++
      (s.cancelled ++ l).map Prod.fst := fun l => by
    rcases List.mem_append.mp htx with hmem | hmem
    · exact List.mem_append_left _ hmem
    · exact List.mem_append_right _ (List.map_subset _ (List.subset_append_left _ _) hmem)
  cases a with
  | place tx' =>
    simp only [PoolState.step] at h
    split_ifs at h
    split at h <;> obtain rfl := Option.some.inj h <;> exact htx
  | release =>
    cases h
    exact htx
  | checkTimeouts | reset | close | processError =>
    cases h
    exact hcancel _
  | arrive response =>
    simp only [PoolState.step] at h
    split at h <;> obtain rfl := Option.some.inj h
    next => exact htx
    next =>
      rcases List.mem_append.mp htx with hmem | hmem
      · refine List.mem_append_left _ ?_
        rw [← List.append_assoc, List.map_append]
        exact List.mem_append_left _ hmem
      · exact List.mem_append_right _ hmem
  | complete k =>
    simp only [PoolState.step] at h
    split at h
    next => cases h
    next d hk =>
      cases h
      exact (((perm_of_complete hk).map Prod.fst).append_right _).mem_iff.mpr htx

theorem PoolState.step_arrive_of_unpooled {s : PoolState} {response : Response}
    (h : s.pool.transactions.lookup response.transactionID = none) :
    s.step (.arrive response) = some s := by
  simp only [PoolState.step, Pool.release, h]

/-- **Responses are matched to the right transaction** in every state that any interleaving of the
operations of the pool and of arriving responses reaches. -/
theorem matchesResponses_of_reachable {s : PoolState}
    (h : poolSystem.Reachable (fun _ _ => True) s) : MatchesResponses s := by
  have hinv : PoolInv s := h.invariant .init fun _ _ _ hs _ ht => hs.step ht
  exact
    { place_unpooled := fun _ _ _ hp => (Pool.place_ok hp).2.1
      stored := hinv.stored
      taken := fun _ _ ht => (PoolState.step_deliveries ht).1
      delivered := fun _ _ ht => (PoolState.step_deliveries ht).2
      once := hinv.once
      unknown := fun _ => PoolState.step_arrive_of_unpooled }

/-- Two requests, the second answered first, and a duplicate of its response. -/
theorem matchesResponses_two_requests :
    ∃ s, poolSystem.Run (fun _ _ => True) poolSystem.init
        [.place 0, .place 1, .arrive (newResponse 1 9 3 []), .complete 0,
          .arrive (newResponse 1 9 3 []), .arrive (newResponse 0 9 3 [])] s ∧
      s.delivered = [(1, newResponse 1 9 3 [])] ∧ s.inHand = [(0, newResponse 0 9 3 [])] ∧
      MatchesResponses s := by
  have hrun : ∃ s, poolSystem.Run (fun _ _ => True) poolSystem.init
        [.place 0, .place 1, .arrive (newResponse 1 9 3 []), .complete 0,
          .arrive (newResponse 1 9 3 []), .arrive (newResponse 0 9 3 [])] s ∧
      s.delivered = [(1, newResponse 1 9 3 [])] ∧ s.inHand = [(0, newResponse 0 9 3 [])] :=
    ⟨_, TransitionSystem.run_of_exec rfl, rfl, rfl⟩
  obtain ⟨s, hrun, hdel, hhand⟩ := hrun
  exact ⟨s, hrun, hdel, hhand, matchesResponses_of_reachable ⟨_, hrun⟩⟩

/-! ### Every transaction is accounted for -/

namespace PoolState

/-- The transaction has been given a result or was released from the pool. -/
def Settled (s : PoolState) (tx : TxRef) : Prop :=
  tx ∈ (s.delivered ++ s.inHand).map Prod.fst ∨ tx ∈ s.cancelled.map Prod.fst ∨ tx ∈ s.released

/-- No transaction is lost: one that was placed is pooled or settled, and a closed pool is empty. -/
structure Accounts (s : PoolState) : Prop where
  placed : ∀ tx, s.ids tx ≠ none →
    (∃ txID, s.pool.transactions.lookup txID = some tx) ∨ s.Settled tx
  closed_empty : s.pool.closed = true → ∀ txID, s.pool.transactions.lookup txID = none

theorem accounts_newPoolState : Accounts newPoolState where
  placed _ h := absurd rfl h
  closed_empty h := by cases h

/-- A step that places nothing keeps the accounts if whatever it takes out of the pool is settled.
-/
theorem Accounts.of_settled {s t : PoolState} (h : s.Accounts) (hids : t.ids = s.ids)
    (hkeep : ∀ tx, s.Settled tx → t.Settled tx)
    (hout : ∀ txID tx, s.pool.transactions.lookup txID = some tx →
      t.pool.transactions.lookup txID = some tx ∨ t.Settled tx)
    (hempty : t.pool.closed = true → ∀ txID, t.pool.transactions.lookup txID = none) :
    t.Accounts where
  placed tx htx := by
    rw [hids] at htx
    rcases h.placed tx htx with ⟨txID, hl⟩ | hs
    · exact (hout txID tx hl).imp_left fun hl => ⟨txID, hl⟩
    · exact .inr (hkeep tx hs)
  closed_empty := hempty

/-- The pool stays empty when nothing new is found in it. -/
theorem Accounts.lookup_eq_none {s : PoolState} (h : s.Accounts) {p : Pool}
    (hsub : ∀ txID tx, p.transactions.lookup txID = some tx →
      s.pool.transactions.lookup txID = some tx) (hc : s.pool.closed = true)
    (txID : TransactionID) : p.transactions.lookup txID = none := by
  refine Option.eq_none_iff_forall_ne_some.mpr fun tx hl => ?_
  have hs := hsub txID tx hl
  rw [h.closed_empty hc txID] at hs
  cases hs

theorem Accounts.place {s : PoolState} (h : s.Accounts) {tx : TxRef} {txID : TransactionID}
    {pool : Pool} (hp : s.pool.place tx = (.ok txID, pool)) :
    Accounts { s with pool, ids := Function.update s.ids tx (some txID) } := by
  obtain ⟨-, hfree, hopen, htrans⟩ := Pool.place_ok hp
  refine ⟨fun tx' htx' => ?_, fun hc => ?_⟩
  · rw [htrans]
    by_cases hne : tx' = tx
    · subst hne
      exact .inl ⟨txID, AList.lookup_insert _⟩
    · have hold : s.ids tx' ≠ none := by
        simpa only [Function.update_of_ne hne] using htx'
      refine (h.placed tx' hold).imp_left ?_
      rintro ⟨i, hl⟩
      have hi : i ≠ txID := by
        rintro rfl
        rw [hfree] at hl
        cases hl
      exact ⟨i, (AList.lookup_insert_ne hi).trans hl⟩
  · rw [hopen] at hc
    cases hc

theorem Accounts.release {s : PoolState} (h : s.Accounts) (txID : TransactionID) :
    Accounts { s with
      pool := (s.pool.release txID).2
      released := s.released ++ (s.pool.release txID).1.toList } := by
  refine h.of_settled rfl (fun tx hs => ?_) (fun i tx hl => ?_) (fun hc => ?_)
  · exact hs.imp_right fun hs => hs.imp_right (List.mem_append_left _)
  · by_cases hi : i = txID
    · subst hi
      refine .inr (.inr (.inr (List.mem_append_right _ ?_)))
      rw [Pool.release, hl]
      exact List.mem_singleton_self tx
    · exact .inl (Pool.lookup_release.mpr ⟨hi, hl⟩)
  · rw [Pool.closed_release] at hc
    exact h.lookup_eq_none (fun _ _ hl => (Pool.lookup_release.mp hl).2) hc

/-- A step that cancels the transactions it takes out of the pool keeps the accounts. -/
theorem Accounts.cancel {s : PoolState} (h : s.Accounts) {p : Pool} {txs : List TxRef} {e : Err}
    (hout : ∀ txID tx, s.pool.transactions.lookup txID = some tx →
      p.transactions.lookup txID = some tx ∨ tx ∈ txs)
    (hempty : p.closed = true → ∀ txID, p.transactions.lookup txID = none) :
    Accounts { s with
      pool := p, cancelled := s.cancelled ++ txs.map fun tx => (tx, e) } := by
  refine h.of_settled rfl (fun tx hs => ?_) (fun i tx hl => ?_) hempty
  · refine hs.imp_right fun hs => hs.imp_left fun hmem => ?_
    rw [List.map_append]
    exact List.mem_append_left _ hmem
  · refine (hout i tx hl).imp_right fun hmem => .inr (.inl ?_)
    rw [List.map_append]
    exact List.mem_append_right _ (List.mem_map.mpr ⟨(tx, e), List.mem_map_of_mem hmem, rfl⟩)

theorem Accounts.reset {s : PoolState} (h : s.Accounts) : s.reset.Accounts :=
  h.cancel (fun _ _ hl => .inr (Pool.mem_pooled.mpr ⟨_, hl⟩)) fun _ _ => rfl

theorem Accounts.close {s : PoolState} (h : s.Accounts) : s.close.Accounts := by
  refine h.cancel (fun txID tx hl => ?_) (fun _ txID => ?_)
  · rw [Pool.close]
    split_ifs with hc
    · exact .inl hl
    · exact .inr (Pool.mem_pooled.mpr ⟨_, hl⟩)
  · rw [Pool.close]
    split_ifs with hc
    · exact h.closed_empty hc txID
    · rfl

theorem Accounts.arrive {s : PoolState} (h : s.Accounts) {response : Response} {tx : TxRef}
    {pool : Pool} (hr : s.pool.release response.transactionID = (some tx, pool)) :
    Accounts { s with pool, inHand := s.inHand ++ [(tx, response)] } := by
  have hpool : pool = (s.pool.release response.transactionID).2 := by rw [hr]
  have hl := Pool.lookup_of_release hr
  subst hpool
  refine h.of_settled rfl (fun tx' hs => ?_) (fun i tx' hl' => ?_) (fun hc => ?_)
  · rw [Settled, ← List.append_assoc, List.map_append, List.mem_append]
    exact hs.imp_left .inl
  · by_cases hi : i = response.transactionID
    · subst hi
      obtain rfl : tx = tx' := Option.some.inj (hl.symm.trans hl')
      exact .inr (.inl (by simp))
    · exact .inl (Pool.lookup_release.mpr ⟨hi, hl'⟩)
  · rw [Pool.closed_release] at hc
    exact h.lookup_eq_none (fun _ _ hl => (Pool.lookup_release.mp hl).2) hc

theorem Accounts.step {s t : PoolState} {a : PoolStep} (h : s.Accounts) (ht : s.step a = some t) :
    t.Accounts := by
  cases a with
  | place tx =>
    simp only [PoolState.step] at ht
    split_ifs at ht
    split at ht
    next e pool hp =>
      cases ht
      obtain ⟨hc, htrans⟩ := Pool.place_error hp
      refine ⟨fun tx htx => ?_, fun hclosed => ?_⟩
      · rw [htrans]
        exact h.placed tx htx
      · rw [htrans]
        exact h.closed_empty (hc ▸ hclosed)
    next txID pool hp =>
      cases ht
      exact h.place hp
  | release txID =>
    cases ht
    exact h.release txID
  | checkTimeouts expired =>
    cases ht
    refine h.cancel (fun txID tx hl => ?_) fun hc => ?_
    · by_cases hx : expired tx = true
      · exact .inr (Pool.mem_checkTimeouts.mpr ⟨_, hl, hx⟩)
      · exact .inl (Pool.lookup_checkTimeouts.mpr ⟨Bool.eq_false_iff.mpr hx, hl⟩)
    · exact h.lookup_eq_none (fun _ _ hl => (Pool.lookup_checkTimeouts.mp hl).2) hc
  | reset =>
    cases ht
    exact h.reset
  | close =>
    cases ht
    exact h.close
  | arrive response =>
    simp only [PoolState.step] at ht
    split at ht
    next =>
      cases ht
      exact h
    next tx pool hr =>
      cases ht
      exact h.arrive hr
  | complete k =>
    simp only [PoolState.step] at ht
    split at ht
    next => cases ht
    next d hk =>
      cases ht
      have hmem : ∀ tx, tx ∈ ((s.delivered ++ [d]) ++ s.inHand.eraseIdx k).map Prod.fst ↔
          tx ∈ (s.delivered ++ s.inHand).map Prod.fst :=
        fun tx => ((perm_of_complete hk).map Prod.fst).mem_iff
      refine h.of_settled rfl (fun tx hs => ?_) (fun _ _ => .inl) h.closed_empty
      exact hs.imp_left (hmem tx).mpr
  | processError txID err =>
    cases ht
    refine h.cancel (fun i tx hl => ?_) fun hc => ?_
    · by_cases hi : i = txID
      · subst hi
        refine .inr ?_
        rw [Pool.release, hl]
        exact List.mem_singleton_self tx
      · exact .inl (Pool.lookup_release.mpr ⟨hi, hl⟩)
    · rw [Pool.closed_release] at hc
      exact h.lookup_eq_none (fun _ _ hl => (Pool.lookup_release.mp hl).2) hc

/-- A closed pool stays closed. -/
theorem closed_step {s t : PoolState} {a : PoolStep} (ht : s.step a = some t)
    (hc : s.pool.closed = true) : t.pool.closed = true := by
  cases a with
  | place tx =>
    simp only [PoolState.step, Pool.place, hc, if_true] at ht
    split_ifs at ht
    cases ht
    exact hc
  | release | processError =>
    cases ht
    exact Pool.closed_release.trans hc
  | checkTimeouts | reset =>
    cases ht
    exact hc
  | close =>
    cases ht
    exact Pool.closed_close
  | arrive response =>
    simp only [PoolState.step] at ht
    split at ht
    next =>
      cases ht
      exact hc
    next tx pool hr =>
      cases ht
      have hpool : pool = (s.pool.release response.transactionID).2 := by rw [hr]
      rw [hpool]
      exact Pool.closed_release.trans hc
  | complete k =>
    simp only [PoolState.step] at ht
    split at ht
    next => cases ht
    next d hk =>
      cases ht
      exact hc

end PoolState

end GoIndustrial.Modbus
