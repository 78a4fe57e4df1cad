import GoIndustrial.Lib.Table
import GoIndustrial.Lib.TransitionSystem
import GoIndustrial.Modbus.Device

/-!
# Requests of several connections on one store

Each connection of the server has its own goroutine, and all of them work on one data store. A store
call takes the lock of the memory store, so it is one atomic step; between two calls of a handler,
the calls of other handlers may come. The steps of the system are the start of a request and the
next store call of a request that was started.

Every handler makes at most one store call, except Read/Write Multiple Registers, which first writes
and then reads. A concurrent run therefore is a serial run, in the order of the first calls, as long
as nobody writes a register that such a request is about to read; the request then gets the
registers as they were right after its own write.

## Main definitions

* `Modbus.Requests`, `Modbus.requestSystem` : the requests in progress and their interleavings.
* `Modbus.Serializable` : the responses are those of a serial order of whole requests.
* `Modbus.ReadsOwnWrite` : a read/write request is answered from the store as its write has left it.
* `Modbus.LeavesReadsAlone` : no write to the registers that a started read/write request will read.

## Main results

* `Modbus.serializable_of_leavesReadsAlone` : runs without such writes are serializable, and
  read/write requests are atomic in them.
-/

namespace GoIndustrial.Modbus

/-! ### Interleavings of store calls -/

/-- The outcome of a handler. -/
abbrev Answer := Except (Fault HandlerErr) Response

/-- The store, and the requests that were started: a request and what is left of its handling. -/
structure Requests where
  store : MemoryStore
  jobs : ℕ → Option (Request × Handling)

/-- An atomic step of the server. -/
inductive RequestStep
  /-- Some connection received the request; `i` is a number for it that was not used before. -/
  | start (i : ℕ) (req : Request)
  /-- The handler of request `i` makes its next store call. -/
  | call (i : ℕ)

/-- `rest` is left of request `i`, and `store` is the store. -/
def Requests.set (s : Requests) (store : MemoryStore) (i : ℕ) (req : Request) (rest : Handling) :
    Requests := ⟨store, Function.update s.jobs i (some (req, rest))⟩

@[simp] theorem Requests.store_set (s : Requests) (store : MemoryStore) (i : ℕ) (req : Request)
    (rest : Handling) : (s.set store i req rest).store = store := rfl

@[simp] theorem Requests.jobs_set_self (s : Requests) (store : MemoryStore) (i : ℕ) (req : Request)
    (rest : Handling) : (s.set store i req rest).jobs i = some (req, rest) :=
  Function.update_self _ _ _

theorem Requests.jobs_set_of_ne (s : Requests) (store : MemoryStore) {i j : ℕ} (h : j ≠ i)
    (req : Request) (rest : Handling) : (s.set store i req rest).jobs j = s.jobs j :=
  Function.update_of_ne h _ _

/-- The state after a step. -/
def Requests.step (s : Requests) : RequestStep → Option Requests
  | .start i req =>
    match s.jobs i with
    | none => some (s.set s.store i req (dispatchRequest setupDefaultHandlers req))
    | some _ => none
  | .call i =>
    match s.jobs i with
    | some (req, .call c k) =>
      some (s.set (MemoryStore.perform c s.store).2 i req (k (MemoryStore.perform c s.store).1))
    | _ => none

/-- The server with the store `store₀` and no request yet. -/
def requestSystem (store₀ : MemoryStore) : TransitionSystem Requests RequestStep where
  init := ⟨store₀, fun _ => none⟩
  step := Requests.step

/-! ### Serial runs -/

/-- The responses of the requests run one after the other. -/
def serialAnswers : List (ℕ × Request) → MemoryStore → List (ℕ × Answer)
  | [], _ => []
  | (i, req) :: rest, store =>
    (i, (dispatchOn req store).1) :: serialAnswers rest (dispatchOn req store).2

/-- The store after the requests were run one after the other. -/
def serialStore : List (ℕ × Request) → MemoryStore → MemoryStore
  | [], store => store
  | (_, req) :: rest, store => serialStore rest (dispatchOn req store).2

theorem serialAnswers_append (l l' : List (ℕ × Request)) (store : MemoryStore) :
    serialAnswers (l ++ l') store =
      serialAnswers l store ++ serialAnswers l' (serialStore l store) := by
  induction l generalizing store with
  | nil => rfl
  | cons p l ih => exact congrArg (_ :: ·) (ih _)

theorem serialStore_append (l l' : List (ℕ × Request)) (store : MemoryStore) :
    serialStore (l ++ l') store = serialStore l' (serialStore l store) := by
  induction l generalizing store with
  | nil => rfl
  | cons p l ih => exact ih _

/-- A serial order of started requests, in which every request that has ended gets the response it
got. -/
structure SerialOrder (store₀ : MemoryStore) (s : Requests) (order : List (ℕ × Request)) :
    Prop where
  nodup : (order.map Prod.fst).Nodup
  started : ∀ p ∈ order, ∃ rest, s.jobs p.1 = some (p.2, rest)
  answers : ∀ i req answer, s.jobs i = some (req, .ret answer) →
    (i, answer) ∈ serialAnswers order store₀

def Serializable (store₀ : MemoryStore) (s : Requests) : Prop :=
  ∃ order, SerialOrder store₀ s order

/-- A read/write request that is between its write and its read in `s` and has ended in `t` was
answered with the registers of the store of `s`. -/
def ReadsOwnWrite (s t : Requests) : Prop :=
  ∀ i req a q k answer, s.jobs i = some (req, .call (.readHoldingRegisters a q) k) →
    req.pdu.functionCode = funcReadWriteMultipleRegisters → t.jobs i = some (req, .ret answer) →
    k (s.store.readHoldingRegisters a q) = .ret answer

/-! ### The shape of handlers -/

/-- What is left of a handling after its first call: nothing, or the read of a read/write request.
-/
def Tail (req : Request) (t : Handling) : Prop :=
  (∃ r, t = .ret r) ∨ ∃ a q k, t = .call (.readHoldingRegisters a q) k ∧
    req.pdu.functionCode = funcReadWriteMultipleRegisters ∧ ∀ b, ∃ r, k b = .ret r

/-- A handling that has ended or has a first call before a tail. -/
def Shaped (req : Request) (t : Handling) : Prop :=
  (∃ r, t = .ret r) ∨ ∃ (β : Type) (c : StoreCall β) (k : β → Handling),
    t = .call c k ∧ ∀ b, Tail req (k b)

theorem Shaped.ofParsed {α : Type} {req : Request} {k : α → Handling} (h : ∀ a, Shaped req (k a))
    (parsed : Except (Fault HandlerErr) α) : Shaped req (.ofParsed parsed k) := by
  cases parsed with
  | error e => exact .inl ⟨_, rfl⟩
  | ok a => exact h a

theorem Shaped.ofCall {β : Type} {req : Request} {exception : Err → Fault HandlerErr}
    {c : StoreCall (Except Err β)} {k : β → Handling} (h : ∀ b, Tail req (k b)) :
    Shaped req (.ofCall exception c k) := by
  refine .inr ⟨_, c, _, rfl, fun b => ?_⟩
  cases b with
  | error e => exact .inl ⟨_, rfl⟩
  | ok b => exact h b

theorem Tail.ret {req : Request} (r : Answer) : Tail req (.ret r) := .inl ⟨r, rfl⟩

/-- Every default handler has at most one call, or is the write and the read of a read/write
request. -/
theorem shaped_dispatchRequest (req : Request) :
    Shaped req (dispatchRequest setupDefaultHandlers req) := by
  rw [dispatchRequest]
  split
  next => exact .inl ⟨_, rfl⟩
  next handler hlookup =>
    obtain ⟨l₁, l₂, hl, -⟩ := List.lookup_eq_some_iff.mp hlookup
    have hmem : (req.pdu.functionCode, handler) ∈ setupDefaultHandlers := by simp [hl]
    simp only [setupDefaultHandlers, List.mem_cons, Prod.mk.injEq, List.not_mem_nil,
      or_false] at hmem
    rcases hmem with ⟨-, rfl⟩ | ⟨-, rfl⟩ | ⟨-, rfl⟩ | ⟨-, rfl⟩ | ⟨-, rfl⟩ | ⟨-, rfl⟩ | ⟨-, rfl⟩ |
      ⟨-, rfl⟩ | ⟨hcode, rfl⟩ | ⟨-, rfl⟩
    -- the four reads
    · exact .ofParsed (fun _ => .ofCall fun _ => .ret _) _
    · exact .ofParsed (fun _ => .ofCall fun _ => .ret _) _
    · exact .ofParsed (fun _ => .ofCall fun _ => .ret _) _
    · exact .ofParsed (fun _ => .ofCall fun _ => .ret _) _
    -- the four writes
    · exact .ofParsed (fun _ => .ofParsed (fun _ => .ofCall fun _ => .ret _) _) _
    · exact .ofParsed (fun _ => .ofCall fun _ => .ret _) _
    · exact .ofParsed (fun _ => .ofCall fun _ => .ret _) _
    · exact .ofParsed (fun _ => .ofCall fun _ => .ret _) _
    -- the write and the read
    · refine .ofParsed (fun fields => .ofCall fun _ => .inr ⟨_, _, _, rfl, hcode, fun b => ?_⟩) _
      cases b <;> exact ⟨_, rfl⟩
    · exact .inl ⟨_, rfl⟩

/-- The range of holding registers that the next call of the handling reads. -/
def nextRead : Handling → Option (Address × Quantity)
  | .call (.readHoldingRegisters a q) _ => some (a, q)
  | _ => none

/-- A read/write request does not begin with a read. -/
theorem nextRead_dispatchRequest {req : Request}
    (hcode : req.pdu.functionCode = funcReadWriteMultipleRegisters) :
    nextRead (dispatchRequest setupDefaultHandlers req) = none := by
  have hlookup : setupDefaultHandlers.lookup req.pdu.functionCode =
      some handleReadWriteMultipleRegisters := by rw [hcode]; rfl
  rw [dispatchRequest, hlookup]
  dsimp only [handleReadWriteMultipleRegisters]
  cases parseReadWriteMultiple req <;> rfl

/-- A tail leaves the store as it is. -/
theorem Tail.run_snd {req : Request} {t : Handling} (h : Tail req t) (store : MemoryStore) :
    (t.run MemoryStore.perform store).2 = store := by
  rcases h with ⟨r, rfl⟩ | ⟨a, q, k, rfl, -, hk⟩
  · rfl
  · obtain ⟨r, hr⟩ := hk (store.readHoldingRegisters a q)
    simp only [CallTree.run_call, MemoryStore.perform, hr, CallTree.run_ret]

/-- The answer of a tail depends only on the registers that it reads. -/
theorem Tail.run_congr {req : Request} {t : Handling} (h : Tail req t) {store store' : MemoryStore}
    (hread : ∀ a q, nextRead t = some (a, q) →
      store'.readHoldingRegisters a q = store.readHoldingRegisters a q) :
    (t.run MemoryStore.perform store').1 = (t.run MemoryStore.perform store).1 := by
  rcases h with ⟨r, rfl⟩ | ⟨a, q, k, rfl, -, hk⟩
  · rfl
  · obtain ⟨r, hr⟩ := hk (store.readHoldingRegisters a q)
    simp only [CallTree.run_call, MemoryStore.perform, hread a q rfl, hr, CallTree.run_ret]

/-! ### Writes that leave pending reads alone -/

/-- The next call of the handling writes the holding register `b`. -/
def NextWrites (t : Handling) (b : Address) : Prop :=
  match t with
  | .call (.writeSingleRegister a _) _ => b = a
  | .call (.writeMultipleRegisters a vs) _ => (b - a).toNat < vs.length
  | _ => False

/-- The step does not write a register that a read/write request, between its write and its read, is
about to read. -/
def LeavesReadsAlone (s : Requests) : RequestStep → Prop
  | .start _ _ => True
  | .call i => ∀ req t, s.jobs i = some (req, t) →
      ∀ j req' t' a q, s.jobs j = some (req', t') →
        req'.pdu.functionCode = funcReadWriteMultipleRegisters → nextRead t' = some (a, q) →
        ∀ n < q.toNat, ¬ NextWrites t (a + UInt16.ofNat n)

/-- A call changes only the holding registers that it writes. -/
theorem perform_holdingRegisters {β : Type} (c : StoreCall β) (k : β → Handling)
    (store : MemoryStore) {b : Address} (h : ¬ NextWrites (.call c k) b) :
    (MemoryStore.perform c store).2.holdingRegisters b = store.holdingRegisters b := by
  cases c with
  | readCoils | readDiscreteInputs | readHoldingRegisters | readInputRegisters | writeSingleCoil =>
    rfl
  | writeSingleRegister a v => exact Function.update_of_ne h _ _
  | writeMultipleCoils a vs =>
    change (store.writeMultipleCoils a vs).2.holdingRegisters b = _
    rw [MemoryStore.writeMultipleCoils]
    split_ifs <;> rfl
  | writeMultipleRegisters a vs =>
    change (store.writeMultipleRegisters a vs).2.holdingRegisters b = _
    rw [MemoryStore.writeMultipleRegisters]
    split_ifs with hlen
    · rfl
    · have hmax : vs.length ≤ 123 := Nat.not_lt.mp (not_or.mp hlen).2
      change writeCells store.holdingRegisters a vs b = _
      rw [writeCells_apply _ _ _ (by omega), List.getElem?_eq_none (Nat.not_lt.mp h),
        Option.none_or]

theorem perform_readHoldingRegisters {β : Type} (c : StoreCall β) (k : β → Handling)
    (store : MemoryStore) {a : Address} {q : Quantity}
    (h : ∀ n < q.toNat, ¬ NextWrites (.call c k) (a + UInt16.ofNat n)) :
    (MemoryStore.perform c store).2.readHoldingRegisters a q = store.readHoldingRegisters a q := by
  have hcells : readCells (MemoryStore.perform c store).2.holdingRegisters 0 a q =
      readCells store.holdingRegisters 0 a q := by
    refine List.map_congr_left fun n hn => ?_
    rw [perform_holdingRegisters c k store (h n (List.mem_range.mp hn))]
  rw [MemoryStore.readHoldingRegisters, MemoryStore.readHoldingRegisters, hcells]

/-- What is left of a request would always give the same answer. -/
theorem Tail.step {s t : Requests} {a : RequestStep} {i : ℕ} {req : Request} {rest : Handling}
    (h : Tail req rest) (hjob : s.jobs i = some (req, rest)) (halone : LeavesReadsAlone s a)
    (hstep : s.step a = some t) : ∃ rest', t.jobs i = some (req, rest') ∧ Tail req rest' ∧
      (rest'.run MemoryStore.perform t.store).1 = (rest.run MemoryStore.perform s.store).1 := by
  cases a with
  | start j req' =>
    simp only [Requests.step] at hstep
    split at hstep
    next hnone =>
      cases hstep
      have hne : i ≠ j := fun he => by cases hnone.symm.trans (he ▸ hjob)
      exact ⟨rest, (s.jobs_set_of_ne _ hne _ _).trans hjob, h, rfl⟩
    next => cases hstep
  | call j =>
    simp only [Requests.step] at hstep
    split at hstep
    next req' β c k hcall =>
      cases hstep
      by_cases hij : i = j
      · subst hij
        cases hcall.symm.trans hjob
        rcases h with ⟨r, hr⟩ | ⟨a, q, k', hread, -, hk⟩
        · cases hr
        · cases hread
          exact ⟨_, s.jobs_set_self _ _ _ _, .inl (hk _), rfl⟩
      · refine ⟨rest, (s.jobs_set_of_ne _ hij _ _).trans hjob, h, h.run_congr fun a q hread => ?_⟩
        have hcode : req.pdu.functionCode = funcReadWriteMultipleRegisters := by
          rcases h with ⟨r, rfl⟩ | ⟨a', q', k', -, hcode, -⟩
          · cases hread
          · exact hcode
        exact perform_readHoldingRegisters c k s.store
          (halone req' _ hcall i req rest a q hjob hcode hread)
    next => cases hstep

/-! ### Serializability -/

/-- The requests that made their first call, in the order of these calls, run one after the other:
the store is the present one, and each of them gets the answer that the rest of its handling would
give now. The others have made no call. -/
structure SerialUpTo (store₀ : MemoryStore) (s : Requests) (order : List (ℕ × Request)) : Prop where
  nodup : (order.map Prod.fst).Nodup
  store_eq : serialStore order store₀ = s.store
  placed : ∀ p ∈ order, ∃ rest, s.jobs p.1 = some (p.2, rest) ∧ Tail p.2 rest ∧
    (p.1, (rest.run MemoryStore.perform s.store).1) ∈ serialAnswers order store₀
  fresh : ∀ i req rest, s.jobs i = some (req, rest) → (i, req) ∈ order ∨
    rest = dispatchRequest setupDefaultHandlers req ∧ ∀ r, rest ≠ .ret r

namespace SerialUpTo

variable {store₀ : MemoryStore} {s : Requests} {order : List (ℕ × Request)}

theorem serialOrder (h : SerialUpTo store₀ s order) : SerialOrder store₀ s order := by
  refine ⟨h.nodup, fun p hp => ?_, fun i req answer hjob => ?_⟩
  · obtain ⟨rest, hrest, -⟩ := h.placed p hp
    exact ⟨rest, hrest⟩
  · rcases h.fresh i req _ hjob with hmem | ⟨-, hne⟩
    · obtain ⟨rest, hrest, -, hans⟩ := h.placed _ hmem
      obtain rfl : .ret answer = rest := congrArg Prod.snd (Option.some.inj (hjob.symm.trans hrest))
      exact hans
    · exact absurd rfl (hne answer)

/-- A request that is in the order is in it under its number only. -/
theorem not_mem_of_jobs (h : SerialUpTo store₀ s order) {i : ℕ} {req : Request} {rest : Handling}
    (hjob : s.jobs i = some (req, rest)) (hnot : (i, req) ∉ order) : i ∉ order.map Prod.fst := by
  intro hi
  obtain ⟨⟨i', req'⟩, hmem, rfl⟩ := List.mem_map.mp hi
  obtain ⟨rest', hrest', -⟩ := h.placed _ hmem
  obtain rfl : req = req' := congrArg Prod.fst (Option.some.inj (hjob.symm.trans hrest'))
  exact hnot hmem

/-- The requests in the order keep their answers. -/
theorem placed_step (h : SerialUpTo store₀ s order) {t : Requests} {a : RequestStep}
    (halone : LeavesReadsAlone s a) (hstep : s.step a = some t) (p : ℕ × Request) (hp : p ∈ order) :
    ∃ rest, t.jobs p.1 = some (p.2, rest) ∧ Tail p.2 rest ∧
      (p.1, (rest.run MemoryStore.perform t.store).1) ∈ serialAnswers order store₀ := by
  obtain ⟨rest, hrest, htail, hans⟩ := h.placed p hp
  obtain ⟨rest', hrest', htail', heq⟩ := htail.step hrest halone hstep
  exact ⟨rest', hrest', htail', heq ▸ hans⟩

/-- Append a request that now gets its place: `rest` is what is left of it, and `store` the store
after its first call. -/
theorem snoc (h : SerialUpTo store₀ s order) {a : RequestStep} {i : ℕ} {req : Request}
    {rest : Handling} {store : MemoryStore} (halone : LeavesReadsAlone s a)
    (hstep : s.step a = some (s.set store i req rest)) (hi : i ∉ order.map Prod.fst)
    (htail : Tail req rest)
    (hrun : dispatchOn req s.store = rest.run MemoryStore.perform store) :
    SerialUpTo store₀ (s.set store i req rest) (order ++ [(i, req)]) := by
  refine ⟨?_, ?_, fun p hp => ?_, fun j req' rest' hjob => ?_⟩
  · rw [List.map_append, List.nodup_append]
    refine ⟨h.nodup, by simp, fun x hx y hy => ?_⟩
    obtain rfl := List.mem_singleton.mp hy
    exact fun he => hi (he ▸ hx)
  · rw [serialStore_append, h.store_eq]
    change (dispatchOn req s.store).2 = store
    rw [hrun, htail.run_snd]
  · rw [serialAnswers_append, h.store_eq]
    rcases List.mem_append.mp hp with hp | hp
    · obtain ⟨t, ht, htail', hans⟩ := h.placed_step halone hstep p hp
      exact ⟨t, ht, htail', List.mem_append_left _ hans⟩
    · obtain rfl := List.mem_singleton.mp hp
      refine ⟨rest, s.jobs_set_self _ _ _ _, htail, List.mem_append_right _ ?_⟩
      rw [Requests.store_set, ← hrun]
      exact List.mem_singleton.mpr rfl
  · rcases Table.update_some_eq_some.mp hjob with ⟨rfl, heq⟩ | ⟨-, hjob⟩
    · cases heq
      exact .inl (List.mem_append_right _ (List.mem_singleton.mpr rfl))
    · exact (h.fresh j req' rest' hjob).imp_left (List.mem_append_left _)

theorem start (h : SerialUpTo store₀ s order) {i : ℕ} {req : Request} (hi : s.jobs i = none)
    (hstep : s.step (.start i req) =
      some (s.set s.store i req (dispatchRequest setupDefaultHandlers req))) :
    ∃ order', SerialUpTo store₀
      (s.set s.store i req (dispatchRequest setupDefaultHandlers req)) order' := by
  have hnew : i ∉ order.map Prod.fst := by
    intro hmem
    obtain ⟨p, hp, rfl⟩ := List.mem_map.mp hmem
    obtain ⟨rest, hrest, -⟩ := h.placed p hp
    rw [hi] at hrest
    cases hrest
  rcases shaped_dispatchRequest req with ⟨r, hr⟩ | ⟨β, c, k, hcall, -⟩
  · exact ⟨_, h.snoc (a := .start i req) trivial hstep hnew (.inl ⟨r, hr⟩) rfl⟩
  · refine ⟨order, h.nodup, h.store_eq, h.placed_step (a := .start i req) trivial hstep,
      fun j req' rest' hjob => ?_⟩
    rcases Table.update_some_eq_some.mp hjob with ⟨rfl, heq⟩ | ⟨-, hjob⟩
    · cases heq
      exact .inr ⟨rfl, fun r hr => by rw [hcall] at hr; cases hr⟩
    · exact h.fresh j req' rest' hjob

theorem call (h : SerialUpTo store₀ s order) {i : ℕ} {req : Request} {β : Type}
    {c : StoreCall β} {k : β → Handling} (hjob : s.jobs i = some (req, .call c k))
    (halone : LeavesReadsAlone s (.call i))
    (hstep : s.step (.call i) = some (s.set (MemoryStore.perform c s.store).2 i req
      (k (MemoryStore.perform c s.store).1))) :
    ∃ order', SerialUpTo store₀ (s.set (MemoryStore.perform c s.store).2 i req
      (k (MemoryStore.perform c s.store).1)) order' := by
  by_cases hmem : (i, req) ∈ order
  · -- A call of a request that is in the order is the read of a read/write request.
    obtain ⟨rest, hrest, htail, -⟩ := h.placed _ hmem
    obtain rfl : .call c k = rest := congrArg Prod.snd (Option.some.inj (hjob.symm.trans hrest))
    have hstore : (MemoryStore.perform c s.store).2 = s.store := by
      rcases htail with ⟨r, hr⟩ | ⟨a, q, k', hcall, -, -⟩
      · cases hr
      · cases hcall
        rfl
    refine ⟨order, h.nodup, h.store_eq.trans hstore.symm, h.placed_step halone hstep,
      fun j req' rest' hjob' => ?_⟩
    rcases Table.update_some_eq_some.mp hjob' with ⟨rfl, heq⟩ | ⟨-, hjob'⟩
    · cases heq
      exact .inl hmem
    · exact h.fresh j req' rest' hjob'
  · obtain ⟨hdisp, -⟩ := (h.fresh i req _ hjob).resolve_left hmem
    have htail : ∀ b, Tail req (k b) := by
      rcases shaped_dispatchRequest req with ⟨r, hr⟩ | ⟨β', c', k', hcall, htail⟩
      · rw [← hdisp] at hr
        cases hr
      · rw [← hdisp] at hcall
        cases hcall
        exact htail
    refine ⟨_, h.snoc halone hstep (h.not_mem_of_jobs hjob hmem) (htail _) ?_⟩
    rw [dispatchOn, ← hdisp, CallTree.run_call]

/-- A request that is about to read has made its write, and nothing that it reads changes. -/
theorem readsOwnWrite (h : SerialUpTo store₀ s order) {t : Requests} {as : List RequestStep}
    (hrun : (requestSystem store₀).Run LeavesReadsAlone s as t) : ReadsOwnWrite s t := by
  intro i req a q k answer hjob hcode hend
  rcases h.fresh i req _ hjob with hmem | ⟨hdisp, -⟩
  · obtain ⟨rest, hrest, htail, -⟩ := h.placed _ hmem
    cases hjob.symm.trans hrest
    obtain ⟨rest', hrest', -, hans⟩ := hrun.invariant
      (I := fun t => ∃ rest', t.jobs i = some (req, rest') ∧ Tail req rest' ∧
        (rest'.run MemoryStore.perform t.store).1 = _)
      (fun _ _ _ ⟨_, hjob, htail, hans⟩ hg hstep =>
        (htail.step hjob hg hstep).imp fun _ h => ⟨h.1, h.2.1, h.2.2.trans hans⟩)
      ⟨_, hjob, htail, rfl⟩
    cases hend.symm.trans hrest'
    rcases htail with ⟨r, hr⟩ | ⟨a, q, k, hread, -, hk⟩
    · cases hr
    · cases hread
      obtain ⟨r, hr⟩ := hk (s.store.readHoldingRegisters a q)
      simp only [CallTree.run_call, MemoryStore.perform, hr, CallTree.run_ret] at hans
      rw [hr, hans]
  · have hnone := nextRead_dispatchRequest hcode
    rw [← hdisp] at hnone
    cases hnone

end SerialUpTo

theorem serialUpTo_step {store₀ : MemoryStore} {s t : Requests} {a : RequestStep}
    (h : ∃ order, SerialUpTo store₀ s order) (halone : LeavesReadsAlone s a)
    (hstep : s.step a = some t) : ∃ order, SerialUpTo store₀ t order := by
  obtain ⟨order, h⟩ := h
  cases a with
  | start i req =>
    have hstep' := hstep
    simp only [Requests.step] at hstep'
    split at hstep'
    next hnone =>
      cases hstep'
      exact h.start hnone hstep
    next => cases hstep'
  | call i =>
    have hstep' := hstep
    simp only [Requests.step] at hstep'
    split at hstep'
    next req β c k hjob =>
      cases hstep'
      exact h.call hjob halone hstep
    next => cases hstep'

/-- **Concurrent requests are serializable** in every run in which no step writes a register that a
read/write request, between its write and its read, is about to read: responses and store are those
of a serial order, and a read/write request gets the registers as they were after its own write. -/
theorem serializable_of_leavesReadsAlone (store₀ : MemoryStore) {s : Requests}
    (h : (requestSystem store₀).Reachable LeavesReadsAlone s) :
    (∃ order, SerialOrder store₀ s order ∧ serialStore order store₀ = s.store) ∧
      ∀ as t, (requestSystem store₀).Run LeavesReadsAlone s as t → ReadsOwnWrite s t := by
  have hinv : ∃ order, SerialUpTo store₀ s order := by
    refine h.invariant ⟨[], List.nodup_nil, rfl, ?_, ?_⟩ fun _ _ _ hs hg ht =>
      serialUpTo_step hs hg ht
    · exact fun p hp => absurd hp List.not_mem_nil
    · intro i req rest hjob
      cases hjob
  obtain ⟨order, h⟩ := hinv
  exact ⟨⟨order, h.serialOrder, h.store_eq⟩, fun _ _ hrun => h.readsOwnWrite hrun⟩

/-- A request that writes 1 to register 0 and reads it back. -/
def swapRegister : Request := newRequest 1 9 0x17 [0, 0, 0, 1, 0, 0, 0, 1, 2, 0, 1]

/-- A write of register `r`, low byte of the address, by another client. -/
def writeRegister (r v : UInt8) : Request := newRequest 2 9 6 [0, r, 0, v]

/-- The answer of `swapRegister` in every serial run: it reads its own write. -/
theorem dispatchOn_swapRegister (store : MemoryStore) :
    (dispatchOn swapRegister store).1 = .ok (newResponse 1 9 0x17 [2, 0, 1]) := by
  have h := dispatchOn_command 1 9 store (.readWriteMultipleRegisters 0 1 0 [1]) (by decide)
  have hreply : Command.replyData store (.readWriteMultipleRegisters 0 1 0 [1]) = [2, 0, 1] := by
    simp [Command.replyData, Command.registerData, readCells, writeCells]
    decide
  rw [hreply] at h
  exact congrArg Prod.fst h

/-- The run in which the other client writes register `r` between the write and the read. -/
def interruptedSwap (r v : UInt8) : List RequestStep :=
  [.start 0 swapRegister, .start 1 (writeRegister r v), .call 0, .call 1, .call 0]

/-- The other client writes register 5, which `swapRegister` does not read. -/
theorem serializable_write_beside_read :
    ∃ s t, (requestSystem newMemoryStore).Run LeavesReadsAlone
        (requestSystem newMemoryStore).init ((interruptedSwap 5 2).take 3) s ∧
      (requestSystem newMemoryStore).Run LeavesReadsAlone s ((interruptedSwap 5 2).drop 3) t ∧
      Serializable newMemoryStore t ∧ ReadsOwnWrite s t := by
  obtain ⟨s, t, hwrite, hread⟩ : ∃ s t, (requestSystem newMemoryStore).Run LeavesReadsAlone
        (requestSystem newMemoryStore).init ((interruptedSwap 5 2).take 3) s ∧
      (requestSystem newMemoryStore).Run LeavesReadsAlone s ((interruptedSwap 5 2).drop 3) t := by
    refine ⟨_, _, .cons trivial rfl (.cons trivial rfl (.cons ?_ rfl (.nil _))),
      .cons ?_ rfl (.cons ?_ rfl (.nil _))⟩
    · rintro req t - (_ | _ | j) req' t' a q hj hcode hread
      · cases hj
        cases hread
      · cases hj
        cases hread
      · cases hj
    · rintro req t ht (_ | _ | j) req' t' a q hj hcode hread
      · cases hj
        cases ht
        cases hread
        intro n hn
        obtain rfl : n = 0 := Nat.lt_one_iff.mp hn
        change ¬ (0 + UInt16.ofNat 0 = (5 : Address))
        decide
      · cases hj
        cases hread
      · cases hj
    · rintro req t ht j req' t' a q hj hcode hread n hn hw
      cases ht
      exact hw
  obtain ⟨⟨order, horder, -⟩, -⟩ :=
    serializable_of_leavesReadsAlone newMemoryStore ⟨_, hwrite.append hread⟩
  exact ⟨s, t, hwrite, hread, ⟨order, horder⟩,
    (serializable_of_leavesReadsAlone newMemoryStore ⟨_, hwrite⟩).2 _ t hread⟩

/-- Every answer of a serial run is the answer of its request on some store. -/
theorem exists_of_mem_serialAnswers {order : List (ℕ × Request)} {store : MemoryStore} {i : ℕ}
    {answer : Answer} (h : (i, answer) ∈ serialAnswers order store) :
    ∃ req store', (i, req) ∈ order ∧ answer = (dispatchOn req store').1 := by
  induction order generalizing store with
  | nil => cases h
  | cons p order ih =>
    rcases List.mem_cons.mp h with h | h
    · obtain ⟨rfl, rfl⟩ := Prod.mk.inj h
      exact ⟨p.2, store, List.mem_cons_self, rfl⟩
    · obtain ⟨req, store', hmem, hans⟩ := ih h
      exact ⟨req, store', List.mem_cons_of_mem _ hmem, hans⟩

/-- The other client writes 2 to register 0, between the write of 1 and the read: the request
returns 2, which it does in no serial order. -/
theorem not_serializable_interruptedSwap :
    ∃ s, (requestSystem newMemoryStore).Run (fun _ _ => True)
        (requestSystem newMemoryStore).init (interruptedSwap 0 2) s ∧
      s.jobs 0 = some (swapRegister, .ret (.ok (newResponse 1 9 0x17 [2, 0, 2]))) ∧
      ¬ Serializable newMemoryStore s := by
  have hrun : ∃ s, (requestSystem newMemoryStore).Run (fun _ _ => True)
        (requestSystem newMemoryStore).init (interruptedSwap 0 2) s ∧
      s.jobs 0 = some (swapRegister, .ret (.ok (newResponse 1 9 0x17 [2, 0, 2]))) :=
    ⟨_, TransitionSystem.run_of_exec rfl, rfl⟩
  obtain ⟨s, hrun, hjob⟩ := hrun
  refine ⟨s, hrun, hjob, ?_⟩
  rintro ⟨order, horder⟩
  obtain ⟨req, store', hmem, heq⟩ := exists_of_mem_serialAnswers (horder.answers 0 _ _ hjob)
  obtain ⟨rest, hrest⟩ := horder.started _ hmem
  obtain rfl : swapRegister = req := congrArg Prod.fst (Option.some.inj (hjob.symm.trans hrest))
  rw [dispatchOn_swapRegister] at heq
  exact absurd (Except.ok.inj heq) (by decide)

end GoIndustrial.Modbus
