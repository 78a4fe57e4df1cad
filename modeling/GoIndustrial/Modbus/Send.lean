import GoIndustrial.Modbus.Conn

/-!
# Sending a request

`TCPConn.Send` and `writeLoop` of `protocol/modbus/conn.go`, for the `Send` calls of one generation
of a connection: those that took their snapshot while it was connected. A call places its
transaction in the pool, offers it to the write loop in a first `select` and waits for its result in
a second one; where several cases of a `select` are ready, any of them may be taken. The read loop,
the timeout monitor, `ResetTransactions` and the teardown act on the pool at any time, and give
results to transactions with `Complete`. Encoding a request into a buffer does not fail.

Not every way out of `Send` takes the transaction out of the pool: the second `select` does not
release it when the context expires, and neither does the write loop when it completes a transaction
with an error.

## Main definitions

* `Modbus.SendState`, `Modbus.sendSystem` : the `Send` calls, the write loop and the pool.
* `Modbus.LeavesNothing` : the transaction of a call that has returned is not pooled.
* `Modbus.ResultFirst` : a call leaves its second `select` for another reason than a response only
  when the read loop or the pool has taken its transaction out of the pool.

## Main results

* `Modbus.leavesNothing_of_resultFirst` : runs that meet this condition leave nothing behind.
* `Modbus.abandoned_transaction_consumes_response` : a run that does not.
-/

namespace GoIndustrial.Modbus

/-- Where a `Send` call is. -/
inductive SendPhase
  | unsent
  /-- In the first `select`, with a placed transaction. -/
  | placed
  /-- In the second `select`. -/
  | waiting
  | returned (result : Except Err Response)

/-- Where the write loop is. -/
inductive WriterPhase
  /-- In its outer `select`. -/
  | idle
  /-- It has received a transaction. -/
  | taken (tx : TxRef)
  /-- The transaction was neither cancelled nor the connection closed. -/
  | checked (tx : TxRef)
  | exited

/-- The `Send` calls of a generation, one for each transaction. -/
structure SendState where
  pool : PoolState
  /-- The `done` channel is closed. -/
  done : Bool
  writeChan : List TxRef
  sends : TxRef → SendPhase
  /-- The context of the call has expired. -/
  ctxDone : TxRef → Bool
  /-- The buffers of the channels of a transaction. -/
  responseCh : TxRef → Option Response
  errCh : TxRef → Option Err
  writer : WriterPhase

/-- A step of the write loop. -/
inductive WriteStep
  | take
  /-- The transaction was cancelled before writing. -/
  | skip
  | check
  /-- The transaction is completed because the connection is closed. -/
  | closing
  | write (ok : Bool)
  | exit

/-- A step of a `Send` call or of something that acts on its transaction. -/
inductive SendStep
  | place (tx : TxRef)
  /-- The context of a call expires. -/
  | expire (tx : TxRef)
  | queue (tx : TxRef)
  /-- The first `select` takes `<-ctx.Done()`. -/
  | cancel (tx : TxRef)
  /-- The first `select` takes `<-done`. -/
  | closing (tx : TxRef)
  /-- The second `select` takes `<-tx.ResponseCh`. -/
  | receive (tx : TxRef)
  /-- The second `select` takes `<-tx.ErrCh`. -/
  | fail (tx : TxRef)
  /-- The second `select` takes `<-ctx.Done()`. -/
  | abandon (tx : TxRef)
  | writeLoop (a : WriteStep)
  /-- The teardown closes `done`; after that it closes the pool. -/
  | closeDone
  /-- The read loop, the timeout monitor, `ResetTransactions` or the teardown acts on the pool. -/
  | pool (op : PoolStep)

namespace SendState

/-- The context of the transaction is done: that of the call has expired, or `Complete` cancelled
it. -/
def txDone (s : SendState) (tx : TxRef) : Bool :=
  s.ctxDone tx || (s.responseCh tx).isSome || (s.errCh tx).isSome

/-- The call returns. -/
def finish (s : SendState) (tx : TxRef) (result : Except Err Response) : SendState :=
  { s with sends := Function.update s.sends tx (.returned result) }

/-- `pool.Release(request.GetTransactionID())`. -/
def release (s : SendState) (tx : TxRef) : SendState :=
  match s.pool.ids tx with
  | none => s
  | some txID =>
    { s with pool := { s.pool with
        pool := (s.pool.pool.release txID).2
        released := s.pool.released ++ (s.pool.pool.release txID).1.toList } }

/-- `tx.Complete(nil, err)` in the write loop; the channel keeps the first error. -/
def complete (s : SendState) (tx : TxRef) (err : Err) : SendState :=
  { s with errCh := Function.update s.errCh tx ((s.errCh tx).or (some err)) }

/-- The read loop or the pool acts: the results that `pool` gives and `s.pool` had not given are put
into the channels that are empty. -/
def deliver (s : SendState) (pool : PoolState) : SendState :=
  { s with
    pool
    responseCh := fun tx =>
      (s.responseCh tx).or ((pool.delivered.drop s.pool.delivered.length).lookup tx)
    errCh := fun tx => (s.errCh tx).or ((pool.cancelled.drop s.pool.cancelled.length).lookup tx) }

/-- A step of the write loop. -/
def writeLoop (s : SendState) : WriteStep → Option SendState
  | .take =>
    match s.writer, s.writeChan with
    | .idle, tx :: writeChan => some { s with writer := .taken tx, writeChan }
    | _, _ => none
  | .skip =>
    match s.writer with
    | .taken tx => if s.txDone tx then some { s with writer := .idle } else none
    | _ => none
  | .check =>
    match s.writer with
    | .taken tx => if s.txDone tx || s.done then none else some { s with writer := .checked tx }
    | _ => none
  | .closing =>
    match s.writer with
    | .taken tx | .checked tx =>
      if s.done then some { s.complete tx .transportClosing with writer := .exited } else none
    | _ => none
  | .write ok =>
    match s.writer with
    | .checked tx =>
      if ok then some { s with writer := .idle }
      else some { s.complete tx (if s.done then .transportClosing else .io) with writer := .exited }
    | _ => none
  | .exit =>
    match s.writer with
    | .idle => if s.done then some { s with writer := .exited } else none
    | _ => none

/-- The state after a step. -/
def step (s : SendState) : SendStep → Option SendState
  | .place tx =>
    match s.sends tx with
    | .unsent => (s.pool.step (.place tx)).map fun pool =>
      { s with
        pool
        sends := Function.update s.sends tx
          (match (s.pool.pool.place tx).1 with
          | .ok _ => .placed
          | .error e => .returned (.error e)) }
    | _ => none
  | .expire tx => some { s with ctxDone := Function.update s.ctxDone tx true }
  | .queue tx =>
    match s.sends tx with
    | .placed =>
      if s.writeChan.length < writeChanCap then
        some { s with
          writeChan := s.writeChan ++ [tx], sends := Function.update s.sends tx .waiting }
      else none
    | _ => none
  | .cancel tx =>
    match s.sends tx with
    | .placed =>
      if s.ctxDone tx then some ((s.release tx).finish tx (.error .contextDone)) else none
    | _ => none
  | .closing tx =>
    match s.sends tx with
    | .placed => if s.done then some ((s.release tx).finish tx (.error .transportClosing)) else none
    | _ => none
  | .receive tx =>
    match s.sends tx, s.responseCh tx with
    | .waiting, some response => some (s.finish tx (.ok response))
    | _, _ => none
  | .fail tx =>
    match s.sends tx, s.errCh tx with
    | .waiting, some err => some (s.finish tx (.error err))
    | _, _ => none
  | .abandon tx =>
    match s.sends tx with
    | .waiting => if s.ctxDone tx then some (s.finish tx (.error .contextDone)) else none
    | _ => none
  | .writeLoop a => s.writeLoop a
  | .closeDone => some { s with done := true }
  | .pool (.place _) | .pool (.release _) => none
  | .pool .close => if s.done then (s.pool.step .close).map s.deliver else none
  | .pool op => (s.pool.step op).map s.deliver

end SendState

/-- The start of a generation. -/
def newSendState : SendState where
  pool := newPoolState
  done := false
  writeChan := []
  sends _ := .unsent
  ctxDone _ := false
  responseCh _ := none
  errCh _ := none
  writer := .idle

/-- The `Send` calls of a generation under any interleaving. -/
def sendSystem : TransitionSystem SendState SendStep where
  init := newSendState
  step := SendState.step

/-- `Send` leaves nothing behind. -/
structure LeavesNothing (s : SendState) : Prop where
  /-- The transaction of a call that has returned is not in the pool, -/
  unpooled : ∀ tx result, s.sends tx = .returned result →
    ∀ txID, s.pool.pool.transactions.lookup txID ≠ some tx
  /-- and no response is taken for it. -/
  unconsumed : ∀ tx result, s.sends tx = .returned result → ∀ a t, s.step a = some t →
    ∀ response, (tx, response) ∈ t.pool.inHand → (tx, response) ∈ s.pool.inHand

/-- A call leaves its second `select` with an error or with an expired context only when the read
loop has taken its transaction for a response, the pool has given it an error, or the pool is
closed. -/
def ResultFirst (s : SendState) : SendStep → Prop
  | .fail tx | .abandon tx => s.pool.pool.closed = true ∨ tx ∈ s.pool.answered
  | _ => True

instance : ∀ s a, Decidable (ResultFirst s a)
  | _, .fail _ | _, .abandon _ => inferInstanceAs (Decidable (_ ∨ _))
  | _, .place _ | _, .expire _ | _, .queue _ | _, .cancel _ | _, .closing _ | _, .receive _
  | _, .writeLoop _ | _, .closeDone | _, .pool _ => inferInstanceAs (Decidable True)

/-! ### The invariant -/

/-- The transaction is in the pool. -/
def PoolState.Pooled (s : PoolState) (tx : TxRef) : Prop :=
  ∃ txID, s.pool.transactions.lookup txID = some tx

/-- The invariant of runs that meet the condition. -/
structure SendInv (s : SendState) : Prop where
  pool : PoolInv s.pool
  accounts : s.pool.Accounts
  response : ∀ tx response, s.responseCh tx = some response → tx ∈ s.pool.answered
  returned : ∀ tx result, s.sends tx = .returned result → ¬ s.pool.Pooled tx

theorem SendInv.init : SendInv newSendState where
  pool := .init
  accounts := PoolState.accounts_newPoolState
  response _ _ h := by cases h
  returned _ _ h := by cases h

variable {s : SendState}

theorem SendInv.not_pooled_of_answered (h : SendInv s) {tx : TxRef} (ha : tx ∈ s.pool.answered) :
    ¬ s.pool.Pooled tx := by
  rintro ⟨txID, hl⟩
  exact h.pool.unanswered txID tx hl ha

theorem SendInv.not_pooled_of_closed (h : SendInv s) {tx : TxRef}
    (hc : s.pool.pool.closed = true) : ¬ s.pool.Pooled tx := by
  rintro ⟨txID, hl⟩
  rw [h.accounts.closed_empty hc txID] at hl
  cases hl

theorem SendInv.not_pooled_of_resultFirst (h : SendInv s) {tx : TxRef}
    (hg : s.pool.pool.closed = true ∨ tx ∈ s.pool.answered) : ¬ s.pool.Pooled tx :=
  hg.elim h.not_pooled_of_closed h.not_pooled_of_answered

/-- A call may return once its transaction is not pooled. -/
theorem SendInv.finish (h : SendInv s) {tx : TxRef} (result : Except Err Response)
    (hp : ¬ s.pool.Pooled tx) : SendInv (s.finish tx result) where
  pool := h.pool
  accounts := h.accounts
  response := h.response
  returned tx' result' hr := by
    by_cases htx : tx' = tx
    · rw [htx]
      exact hp
    · have hold : s.sends tx' = .returned result' := (Function.update_of_ne htx _ _).symm.trans hr
      exact h.returned tx' result' hold

/-- A step that changes neither the pool nor the responses and makes no call return. -/
theorem SendInv.of_sends (h : SendInv s) {t : SendState} (hpool : t.pool = s.pool)
    (hresp : t.responseCh = s.responseCh)
    (hsends : ∀ tx result, t.sends tx = .returned result → s.sends tx = .returned result) :
    SendInv t where
  pool := hpool ▸ h.pool
  accounts := hpool ▸ h.accounts
  response tx response hr := by
    rw [hresp] at hr
    rw [hpool]
    exact h.response tx response hr
  returned tx result hr := by
    rw [hpool]
    exact h.returned tx result (hsends tx result hr)

theorem SendInv.release (h : SendInv s) (tx : TxRef) :
    SendInv (s.release tx) ∧ ¬ (s.release tx).pool.Pooled tx := by
  rw [SendState.release]
  split
  next hid =>
    refine ⟨h, ?_⟩
    rintro ⟨txID, hl⟩
    rw [h.pool.stored txID tx hl] at hid
    cases hid
  next txID hid =>
    have hstep : s.pool.step (.release txID) = some { s.pool with
        pool := (s.pool.pool.release txID).2
        released := s.pool.released ++ (s.pool.pool.release txID).1.toList } := rfl
    refine ⟨⟨h.pool.step hstep, h.accounts.step hstep, h.response, fun tx' result hr => ?_⟩, ?_⟩
    · rintro ⟨i, hl⟩
      exact h.returned tx' result hr ⟨i, (Pool.lookup_release.mp hl).2⟩
    · rintro ⟨i, hl⟩
      obtain ⟨hne, hl⟩ := Pool.lookup_release.mp hl
      rw [h.pool.stored i tx hl] at hid
      exact hne (Option.some.inj hid)

theorem mem_of_lookup_drop {l : List (TxRef × Response)} {n : ℕ} {tx : TxRef} {r : Response}
    (h : (l.drop n).lookup tx = some r) : tx ∈ l.map Prod.fst := by
  obtain ⟨l₁, l₂, hl, -⟩ := List.lookup_eq_some_iff.mp h
  have hmem : (tx, r) ∈ l.drop n := by
    rw [hl]
    simp
  exact List.mem_map_of_mem (List.mem_of_mem_drop hmem)

theorem SendInv.deliver (h : SendInv s) {op : PoolStep} {pool : PoolState}
    (hop : ∀ tx, op ≠ .place tx) (hs : s.pool.step op = some pool) : SendInv (s.deliver pool) where
  pool := h.pool.step hs
  accounts := h.accounts.step hs
  response tx response hr := by
    rcases Option.or_eq_some_iff.mp hr with hr | ⟨-, hr⟩
    · exact PoolState.answered_of_step hs (h.response tx response hr)
    · refine List.mem_append_left _ ?_
      rw [List.map_append]
      exact List.mem_append_left _ (mem_of_lookup_drop hr)
  returned tx result hr := by
    rintro ⟨txID, hl⟩
    rcases PoolState.lookup_of_step hs hl with hl | rfl
    · exact h.returned tx result hr ⟨txID, hl⟩
    · exact hop tx rfl

theorem SendInv.place (h : SendInv s) {tx : TxRef} {pool : PoolState}
    (hs : s.pool.step (.place tx) = some pool) :
    SendInv { s with
      pool
      sends := Function.update s.sends tx
        (match (s.pool.pool.place tx).1 with
        | .ok _ => .placed
        | .error e => .returned (.error e)) } := by
  refine ⟨h.pool.step hs, h.accounts.step hs,
    fun tx' r hr => PoolState.answered_of_step hs (h.response tx' r hr), fun tx' result hr => ?_⟩
  rintro ⟨txID, hl⟩
  by_cases htx : tx' = tx
  · subst htx
    -- the call returns at once only if `Place` failed
    have hret := (Function.update_self tx' _ s.sends).symm.trans hr
    simp only [PoolState.step] at hs
    split_ifs at hs with hnew
    split at hs
    next e p hp =>
      cases hs
      rw [(Pool.place_error hp).2] at hl
      rw [h.pool.stored txID tx' hl] at hnew
      cases hnew
    next id p hp =>
      rw [hp] at hret
      cases hret
  · have hold : s.sends tx' = .returned result := (Function.update_of_ne htx _ _).symm.trans hr
    rcases PoolState.lookup_of_step hs hl with hl | he
    · exact h.returned tx' result hold ⟨txID, hl⟩
    · exact htx (PoolStep.place.inj he).symm

/-- The write loop touches neither the pool nor the `Send` calls. -/
theorem SendState.writeLoop_frame {a : WriteStep} {t : SendState} (hs : s.writeLoop a = some t) :
    t.pool = s.pool ∧ t.responseCh = s.responseCh ∧ t.sends = s.sends := by
  cases a with
  | take =>
    simp only [writeLoop] at hs
    split at hs
    next =>
      cases hs
      exact ⟨rfl, rfl, rfl⟩
    next => cases hs
  | skip | check | closing | write | exit =>
    simp only [writeLoop] at hs
    split at hs
    all_goals
      first
      | cases hs
      | split_ifs at hs <;> obtain rfl := Option.some.inj hs <;> exact ⟨rfl, rfl, rfl⟩

theorem SendState.step_pool {op : PoolStep} {t : SendState} (hs : s.step (.pool op) = some t) :
    ∃ pool, (∀ tx, op ≠ .place tx) ∧ s.pool.step op = some pool ∧ t = s.deliver pool := by
  have hmap : (∀ tx, op ≠ .place tx) ∧ (s.pool.step op).map s.deliver = some t := by
    cases op with
    | place | release => cases hs
    | close =>
      simp only [step] at hs
      split_ifs at hs
      exact ⟨fun _ he => (by cases he), hs⟩
    | _ => exact ⟨fun _ he => (by cases he), hs⟩
  obtain ⟨pool, hpool, rfl⟩ := Option.map_eq_some_iff.mp hmap.2
  exact ⟨pool, hmap.1, hpool, rfl⟩

theorem SendInv.step (h : SendInv s) {a : SendStep} (hg : ResultFirst s a) {t : SendState}
    (hs : s.step a = some t) : SendInv t := by
  cases a with
  | place tx =>
    simp only [SendState.step] at hs
    split at hs
    next =>
      obtain ⟨pool, hpool, rfl⟩ := Option.map_eq_some_iff.mp hs
      exact h.place hpool
    next => cases hs
  | expire tx =>
    cases hs
    exact h.of_sends rfl rfl fun _ _ => id
  | queue tx =>
    simp only [SendState.step] at hs
    split at hs
    next =>
      split_ifs at hs
      cases hs
      refine h.of_sends rfl rfl fun tx' result hr => ?_
      by_cases htx : tx' = tx
      · subst htx
        cases (Function.update_self tx' _ s.sends).symm.trans hr
      · exact (Function.update_of_ne htx _ _).symm.trans hr
    next => cases hs
  | cancel tx =>
    simp only [SendState.step] at hs
    split at hs
    next =>
      split_ifs at hs
      cases hs
      exact (h.release tx).1.finish _ (h.release tx).2
    next => cases hs
  | closing tx =>
    simp only [SendState.step] at hs
    split at hs
    next =>
      split_ifs at hs
      cases hs
      exact (h.release tx).1.finish _ (h.release tx).2
    next => cases hs
  | receive tx =>
    simp only [SendState.step] at hs
    split at hs
    next response hsend hresp =>
      cases hs
      exact h.finish _ (h.not_pooled_of_answered (h.response tx response hresp))
    next => cases hs
  | fail tx =>
    simp only [SendState.step] at hs
    split at hs
    next =>
      cases hs
      exact h.finish _ (h.not_pooled_of_resultFirst hg)
    next => cases hs
  | abandon tx =>
    simp only [SendState.step] at hs
    split at hs
    next =>
      split_ifs at hs
      cases hs
      exact h.finish _ (h.not_pooled_of_resultFirst hg)
    next => cases hs
  | writeLoop a =>
    obtain ⟨hpool, hresp, hsends⟩ := SendState.writeLoop_frame hs
    exact h.of_sends hpool hresp fun tx result hr => hsends ▸ hr
  | closeDone =>
    cases hs
    exact h.of_sends rfl rfl fun _ _ => id
  | pool op =>
    obtain ⟨pool, hop, hpool, rfl⟩ := SendState.step_pool hs
    exact h.deliver hop hpool

theorem SendState.release_pool (tx : TxRef) :
    (s.release tx).pool = s.pool ∨ ∃ op, s.pool.step op = some (s.release tx).pool := by
  rw [release]
  split
  next => exact .inl rfl
  next txID _ => exact .inr ⟨.release txID, rfl⟩

/-- Every step is at most one operation on the pool. -/
theorem SendState.pool_of_step {a : SendStep} {t : SendState} (hs : s.step a = some t) :
    t.pool = s.pool ∨ ∃ op, s.pool.step op = some t.pool := by
  cases a with
  | place tx =>
    simp only [step] at hs
    split at hs
    next =>
      obtain ⟨pool, hpool, rfl⟩ := Option.map_eq_some_iff.mp hs
      exact .inr ⟨_, hpool⟩
    next => cases hs
  | expire | closeDone =>
    cases hs
    exact .inl rfl
  | queue tx | abandon tx =>
    simp only [step] at hs
    split at hs
    next =>
      split_ifs at hs
      cases hs
      exact .inl rfl
    next => cases hs
  | cancel tx | closing tx =>
    simp only [step] at hs
    split at hs
    next =>
      split_ifs at hs
      cases hs
      exact release_pool tx
    next => cases hs
  | receive tx | fail tx =>
    simp only [step] at hs
    split at hs
    next =>
      cases hs
      exact .inl rfl
    next => cases hs
  | writeLoop a => exact .inl (writeLoop_frame hs).1
  | pool op =>
    obtain ⟨pool, -, hpool, rfl⟩ := step_pool hs
    exact .inr ⟨op, hpool⟩

theorem SendInv.leavesNothing (h : SendInv s) : LeavesNothing s where
  unpooled tx result hr txID hl := h.returned tx result hr ⟨txID, hl⟩
  unconsumed tx result hr a t hs response hmem := by
    rcases SendState.pool_of_step hs with hpool | ⟨op, hop⟩
    · rwa [hpool] at hmem
    · rcases (PoolState.step_deliveries hop).1 _ hmem with hmem | ⟨-, hl⟩
      · exact hmem
      · exact absurd ⟨_, hl⟩ (h.returned tx result hr)

/-- **`Send` leaves nothing behind** in every run in which no call leaves its second `select` with
an error or an expired context before the read loop has taken its transaction for a response, the
pool has given it an error, or the pool is closed. -/
theorem leavesNothing_of_resultFirst (h : sendSystem.Reachable ResultFirst s) :
    LeavesNothing s := by
  have hinv : SendInv s :=
    h.invariant (I := SendInv) .init fun _ _ _ hi hg hs => hi.step hg hs
  exact hinv.leavesNothing

/-- Four calls: one answered, one cancelled before it is written, one timed out, one in the write
loop when the connection is torn down. -/
theorem leavesNothing_four_sends :
    ∃ s, sendSystem.Run ResultFirst sendSystem.init
        [.place 0, .queue 0, .writeLoop .take, .writeLoop .check, .writeLoop (.write true),
          .pool (.arrive (newResponse 0 9 3 [])), .pool (.complete 0), .receive 0,
          .place 1, .expire 1, .cancel 1,
          .place 2, .queue 2, .pool (.checkTimeouts fun _ => true), .expire 2, .abandon 2,
          .place 3, .queue 3, .writeLoop .take, .writeLoop .skip, .writeLoop .take, .closeDone,
          .writeLoop .closing, .pool .close, .fail 3] s ∧
      s.sends 3 = .returned (.error .transportClosing) ∧ LeavesNothing s := by
  have hrun : ∃ s, sendSystem.Run ResultFirst sendSystem.init
        [.place 0, .queue 0, .writeLoop .take, .writeLoop .check, .writeLoop (.write true),
          .pool (.arrive (newResponse 0 9 3 [])), .pool (.complete 0), .receive 0,
          .place 1, .expire 1, .cancel 1,
          .place 2, .queue 2, .pool (.checkTimeouts fun _ => true), .expire 2, .abandon 2,
          .place 3, .queue 3, .writeLoop .take, .writeLoop .skip, .writeLoop .take, .closeDone,
          .writeLoop .closing, .pool .close, .fail 3] s ∧
      s.sends 3 = .returned (.error .transportClosing) :=
    ⟨_, TransitionSystem.run_of_exec rfl, rfl⟩
  obtain ⟨s, hrun, hret⟩ := hrun
  exact ⟨s, hrun, hret, leavesNothing_of_resultFirst ⟨_, hrun⟩⟩

/-- The context of a call expires while it waits for its response. The call returns, its transaction
stays in the pool, and the late response is taken for it. -/
theorem abandoned_transaction_consumes_response :
    ∃ s, sendSystem.Run (fun _ _ => True) sendSystem.init
        [.place 0, .queue 0, .writeLoop .take, .writeLoop .check, .writeLoop (.write true),
          .expire 0, .abandon 0] s ∧
      s.sends 0 = .returned (.error .contextDone) ∧
      s.pool.pool.transactions.lookup 0 = some 0 ∧
      (∃ t, s.step (.pool (.arrive (newResponse 0 9 3 []))) = some t ∧
        t.pool.inHand = [(0, newResponse 0 9 3 [])]) ∧
      ¬ LeavesNothing s := by
  have hrun : ∃ s, sendSystem.Run (fun _ _ => True) sendSystem.init
        [.place 0, .queue 0, .writeLoop .take, .writeLoop .check, .writeLoop (.write true),
          .expire 0, .abandon 0] s ∧
      s.sends 0 = .returned (.error .contextDone) ∧
      s.pool.pool.transactions.lookup 0 = some 0 ∧
      ∃ t, s.step (.pool (.arrive (newResponse 0 9 3 []))) = some t ∧
        t.pool.inHand = [(0, newResponse 0 9 3 [])] :=
    ⟨_, TransitionSystem.run_of_exec rfl, rfl, rfl, _, rfl, rfl⟩
  obtain ⟨s, hrun, hret, hl, harrive⟩ := hrun
  exact ⟨s, hrun, hret, hl, harrive, fun h => h.unpooled 0 _ hret 0 hl⟩

end GoIndustrial.Modbus
