import GoIndustrial.EtherNetIP.Client

/-!
# Listing the tags of a controller

`Client.ListTags` of `protocol/ethernetip/client.go` asks the class of symbols for its largest
instance number and then every instance for its name and type, all in one attempt of the client's
retry loop. An answer with an error, an empty name, an answer that cannot be decoded and an exchange
that fails are all passed over, so an attempt whose class request is answered always ends the call.

The other side of an attempt is the sequence of its exchanges: the answer to the class request is
the exchange 0, and the answer for an instance is the exchange with its number.

## Main definitions

* `EtherNetIP.decodeSymbolClassAttributesResponse`, `EtherNetIP.decodeSymbolAttributesResponse`.
* `EtherNetIP.listTags` : an attempt.
* `EtherNetIP.Complete` : a list has all named symbols, in order.
* `EtherNetIP.ListsAll` : what a call returns is complete.

## Main results

* `EtherNetIP.complete_collect_iff` : an enumeration is complete if and only if every answer is
  understood.
* `EtherNetIP.listsAll_iff` : a call that returns a list returns a complete one if and only if no
  exchange of the enumeration fails and no answer is passed over because it cannot be decoded.
-/

namespace GoIndustrial.EtherNetIP

open ByteReader LittleEndian Retry

/-! ### Requests and responses -/

def classSymbol : UInt16 := 0x6B

/-- The number of attributes, and their numbers 1 and 2. -/
def attributeList : List UInt8 := putUint16 2 ++ putUint16 1 ++ putUint16 2

def newGetSymbolClassAttributesRequest : MessageRouterRequest where
  service := 0x03
  requestPath := addInstance (addClass [] classSymbol) 0
  requestData := attributeList

def newGetSymbolAttributesRequest (instanceID : UInt32) : MessageRouterRequest where
  service := 0x03
  requestPath := addInstance32 (addClass [] classSymbol) instanceID
  requestData := attributeList

/-- A loop over attributes, each with its number, a status and, if that is 0, a value. -/
def readAttributes {α : Type} (field : UInt16 → α → Reader α) : ℕ → α → Reader α
  | 0, a => return a
  | n + 1, a => do
    let attrID ← uint16
    let status ← uint16
    let a ← if status = 0 then field attrID a else return a
    readAttributes field n a

/-- The revision and the largest instance number. -/
def classField (attrID : UInt16) : UInt16 × UInt16 → Reader (UInt16 × UInt16)
  | (revision, maxInstance) =>
    if attrID = 1 then return (← uint16, maxInstance)
    else if attrID = 2 then return (revision, ← uint16)
    else return (revision, maxInstance)

def decodeSymbolClassAttributesResponse (data : List UInt8) : Except ReadErr (UInt16 × UInt16) :=
  decode (do readAttributes classField (← uint16).toNat (0, 0)) data

/-- The name and the type. -/
def symbolField (attrID : UInt16) : List UInt8 × UInt16 → Reader (List UInt8 × UInt16)
  | (name, typeCode) =>
    if attrID = 1 then do
      let nameLen ← uint16
      return (← readFull nameLen.toNat, typeCode)
    else if attrID = 2 then return (name, ← uint16)
    else return (name, typeCode)

def decodeSymbolAttributesResponse (data : List UInt8) : Except ReadErr (List UInt8 × UInt16) :=
  decode (do readAttributes symbolField (← uint16).toNat ([], 0)) data

/-! ### An attempt -/

structure SymbolInstance where
  instanceID : ℕ
  name : List UInt8
  type : UInt16
  deriving DecidableEq, Repr

/-- What the session returns for the requests of an attempt, by their number. -/
abbrev Exchanges := ℕ → MessageRouterRequest → Except SessionErr MessageRouterResponse

/-- The answer for an instance. -/
def Exchanges.answer (send : Exchanges) (id : ℕ) : Except SessionErr MessageRouterResponse :=
  send id (newGetSymbolAttributesRequest (UInt32.ofNat id))

/-- What an iteration of the loop appends for the answer of an instance. -/
def symbolOf (id : ℕ) : Except SessionErr MessageRouterResponse → Option SymbolInstance
  | .error _ => none
  | .ok resp =>
    if resp.isSuccess then
      match decodeSymbolAttributesResponse resp.responseData with
      | .error _ => none
      | .ok (name, typeCode) => if name ≠ [] then some ⟨id, name, typeCode⟩ else none
    else none

/-- The loop over the instances from 1 to `maxInstance`. -/
def collect (send : Exchanges) (maxInstance : UInt16) : List SymbolInstance :=
  (List.range' 1 maxInstance.toNat).foldl
    (fun allSymbols id => allSymbols ++ (symbolOf id (send.answer id)).toList) []

def listTags (send : Exchanges) : Attempt (List SymbolInstance) CipError OpErr :=
  match send 0 newGetSymbolClassAttributesRequest with
  | .error e => .failed (.session e)
  | .ok respClass =>
    match respClass.error with
    | some e => .refused e
    | none =>
      match decodeSymbolClassAttributesResponse respClass.responseData with
      | .error e => .failed (.classAttributes e)
      | .ok (_, maxInstance) => .done (collect send maxInstance)

/-- The attempts of a call, with a session or without one. -/
def tagAttempts (sessions : ℕ → Option Exchanges) :
    ℕ → Attempt (List SymbolInstance) CipError OpErr := fun k =>
  match sessions k with
  | none => .unreachable .unavailable
  | some send => listTags send

/-! ### Complete lists -/

/-- The controller answers with a name, which is not empty, and a type. -/
def Names (answer : Except SessionErr MessageRouterResponse) (name : List UInt8) (type : UInt16) :
    Prop :=
  ∃ resp, answer = .ok resp ∧ resp.isSuccess ∧ name ≠ [] ∧
    decodeSymbolAttributesResponse resp.responseData = .ok (name, type)

/-- The controller answers with an error or with an empty name. -/
def Declines (answer : Except SessionErr MessageRouterResponse) : Prop :=
  ∃ resp, answer = .ok resp ∧ (resp.isSuccess = false ∨ ∃ type,
    decodeSymbolAttributesResponse resp.responseData = .ok ([], type))

/-- The controller answers with an error, or with data that can be decoded. -/
def Understood (answer : Except SessionErr MessageRouterResponse) : Prop :=
  ∃ resp, answer = .ok resp ∧ (resp.isSuccess = true → ∃ symbol,
    decodeSymbolAttributesResponse resp.responseData = .ok symbol)

/-- The list has, in increasing order and without repetition, every instance from 1 to
`maxInstance` with its name and type, but for those that the controller declines. -/
structure Complete (send : Exchanges) (maxInstance : ℕ) (result : List SymbolInstance) : Prop where
  increasing : result.Pairwise fun a b => a.instanceID < b.instanceID
  named : ∀ s ∈ result, 1 ≤ s.instanceID ∧ s.instanceID ≤ maxInstance ∧
    Names (send.answer s.instanceID) s.name s.type
  all : ∀ id, 1 ≤ id → id ≤ maxInstance →
    (∃ s ∈ result, s.instanceID = id) ∨ Declines (send.answer id)

section
variable {answer : Except SessionErr MessageRouterResponse} {send : Exchanges}

theorem Names.understood {name : List UInt8} {type : UInt16} (h : Names answer name type) :
    Understood answer := by
  obtain ⟨resp, hresp, -, -, hdecode⟩ := h
  exact ⟨resp, hresp, fun _ => ⟨_, hdecode⟩⟩

theorem Declines.understood (h : Declines answer) : Understood answer := by
  obtain ⟨resp, hresp, hdeclines⟩ := h
  refine ⟨resp, hresp, fun hsuccess => ?_⟩
  rcases hdeclines with hfailure | ⟨type, hdecode⟩
  · rw [hfailure] at hsuccess
    cases hsuccess
  · exact ⟨_, hdecode⟩

theorem Understood.names_or_declines (h : Understood answer) :
    (∃ name type, Names answer name type) ∨ Declines answer := by
  obtain ⟨resp, hresp, hdecode⟩ := h
  cases hsuccess : resp.isSuccess with
  | false => exact .inr ⟨resp, hresp, .inl hsuccess⟩
  | true =>
    obtain ⟨⟨name, type⟩, hdecode⟩ := hdecode hsuccess
    by_cases hname : name = []
    · subst hname
      exact .inr ⟨resp, hresp, .inr ⟨type, hdecode⟩⟩
    · exact .inl ⟨name, type, resp, hresp, hsuccess, hname, hdecode⟩

theorem symbolOf_eq_some {id : ℕ} {s : SymbolInstance} :
    symbolOf id answer = some s ↔ s.instanceID = id ∧ Names answer s.name s.type := by
  constructor
  · intro h
    match answer, h with
    | .ok resp, h =>
      rw [symbolOf] at h
      split_ifs at h with hsuccess
      split at h
      · cases h
      · rename_i name typeCode hdecode
        split_ifs at h with hname
        cases h
        exact ⟨rfl, resp, rfl, hsuccess, hname, hdecode⟩
  · rintro ⟨rfl, resp, rfl, hsuccess, hname, hdecode⟩
    rw [symbolOf, if_pos hsuccess, hdecode]
    exact if_pos hname

theorem collect_eq_filterMap (send : Exchanges) (maxInstance : UInt16) :
    collect send maxInstance =
      (List.range' 1 maxInstance.toNat).filterMap fun id => symbolOf id (send.answer id) := by
  rw [collect, List.filterMap_eq_flatMap_toList, List.flatMap_eq_foldl]

theorem mem_collect {maxInstance : UInt16} {s : SymbolInstance} :
    s ∈ collect send maxInstance ↔ 1 ≤ s.instanceID ∧ s.instanceID ≤ maxInstance.toNat ∧
      Names (send.answer s.instanceID) s.name s.type := by
  rw [collect_eq_filterMap, List.mem_filterMap]
  simp only [symbolOf_eq_some, List.mem_range'_1]
  constructor
  · rintro ⟨_, hid, rfl, hnames⟩
    exact ⟨hid.1, by omega, hnames⟩
  · rintro ⟨hone, hmax, hnames⟩
    exact ⟨_, ⟨hone, by omega⟩, rfl, hnames⟩

theorem pairwise_collect (send : Exchanges) (maxInstance : UInt16) :
    (collect send maxInstance).Pairwise fun a b => a.instanceID < b.instanceID := by
  rw [collect_eq_filterMap, List.pairwise_filterMap]
  refine (List.pairwise_lt_range' _).imp fun {i j} hij a ha b hb => ?_
  rw [(symbolOf_eq_some.mp ha).1, (symbolOf_eq_some.mp hb).1]
  exact hij

/-- **An enumeration is complete** if and only if every answer is understood. -/
theorem complete_collect_iff {maxInstance : UInt16} :
    Complete send maxInstance.toNat (collect send maxInstance) ↔
      ∀ id, 1 ≤ id → id ≤ maxInstance.toNat → Understood (send.answer id) := by
  constructor
  · intro h id hone hmax
    rcases h.all id hone hmax with ⟨s, hs, rfl⟩ | hdeclines
    · exact (h.named s hs).2.2.understood
    · exact hdeclines.understood
  · intro h
    refine ⟨pairwise_collect send maxInstance, fun s hs => mem_collect.mp hs,
      fun id hone hmax => ?_⟩
    refine (h id hone hmax).names_or_declines.imp_left ?_
    rintro ⟨name, type, hnames⟩
    exact ⟨⟨id, name, type⟩, mem_collect.mpr ⟨hone, hmax, hnames⟩, rfl⟩

/-! ### Calls -/

/-- The class request is answered, with the largest instance number. -/
def Enumerates (send : Exchanges) (maxInstance : UInt16) : Prop :=
  ∃ resp revision, send 0 newGetSymbolClassAttributesRequest = .ok resp ∧ resp.isSuccess ∧
    decodeSymbolClassAttributesResponse resp.responseData = .ok (revision, maxInstance)

theorem Enumerates.unique {m n : UInt16} (hm : Enumerates send m) (hn : Enumerates send n) :
    m = n := by
  obtain ⟨resp, revision, hresp, -, hdecode⟩ := hm
  obtain ⟨resp', revision', hresp', -, hdecode'⟩ := hn
  obtain rfl := Except.ok.inj (hresp.symm.trans hresp')
  exact congrArg Prod.snd (Except.ok.inj (hdecode.symm.trans hdecode'))

theorem listTags_eq_done {result : List SymbolInstance} :
    listTags send = .done result ↔
      ∃ maxInstance, Enumerates send maxInstance ∧ result = collect send maxInstance := by
  constructor
  · intro h
    rw [listTags] at h
    split at h
    · cases h
    rename_i resp hresp
    split at h
    · cases h
    rename_i herror
    split at h
    · cases h
    rename_i revision maxInstance hdecode
    have hsuccess : resp.isSuccess := by
      by_contra hfailure
      rw [MessageRouterResponse.error, if_neg hfailure] at herror
      cases herror
    exact ⟨maxInstance, ⟨resp, revision, hresp, hsuccess, hdecode⟩, (Attempt.done.inj h).symm⟩
  · rintro ⟨maxInstance, ⟨resp, revision, hresp, hsuccess, hdecode⟩, rfl⟩
    have herror : resp.error = none := if_pos hsuccess
    rw [listTags, hresp]
    simp only [herror, hdecode]

end

/-- A list that the call returns is complete for the exchanges of its last attempt. -/
def ListsAll (retries : ℤ) (sessions : ℕ → Option Exchanges) : Prop :=
  ∀ t result, Ends retries (tagAttempts sessions) t → t.ending = .done result →
    ∃ k send maxInstance, t.attempts = k + 1 ∧ sessions k = some send ∧
      Enumerates send maxInstance ∧ Complete send maxInstance.toNat result

/-- In an attempt that is made and gets the largest instance number, the answers for all instances
are understood. -/
def AllUnderstood (retries : ℤ) (sessions : ℕ → Option Exchanges) : Prop :=
  ∀ k send maxInstance, Made retries (tagAttempts sessions) k → sessions k = some send →
    Enumerates send maxInstance →
    ∀ id, 1 ≤ id → id ≤ maxInstance.toNat → Understood (send.answer id)

/-- **A returned list is complete** if and only if no exchange of the enumeration fails and every
answer without an error can be decoded. -/
theorem listsAll_iff (retries : ℤ) (sessions : ℕ → Option Exchanges) :
    ListsAll retries sessions ↔ AllUnderstood retries sessions := by
  constructor
  · intro hall k send maxInstance hmade hsend henum
    have hdone : tagAttempts sessions k = .done (collect send maxInstance) := by
      rw [tagAttempts, hsend]
      exact listTags_eq_done.mpr ⟨maxInstance, henum, rfl⟩
    have hends : Ends retries (tagAttempts sessions)
        ⟨.done (collect send maxInstance), k + 1, resetsBefore (tagAttempts sessions) k⟩ :=
      hmade.ends (congrArg some hdone.symm)
    obtain ⟨k', send', maxInstance', hk, hsend', henum', hcomplete⟩ := hall _ _ hends rfl
    obtain rfl : k = k' := Nat.succ.inj hk
    obtain rfl := Option.some.inj (hsend.symm.trans hsend')
    obtain rfl := henum.unique henum'
    exact complete_collect_iff.mp hcomplete
  · intro hall t result ht hr
    obtain ⟨k, hmade, hdone, hattempts⟩ := ht.exists_made (congrArg Ending.attempt hr)
    rw [tagAttempts] at hdone
    split at hdone
    · cases hdone
    · rename_i send hsend
      obtain ⟨maxInstance, henum, rfl⟩ := listTags_eq_done.mp hdone
      exact ⟨k, send, maxInstance, hattempts, hsend, henum,
        complete_collect_iff.mpr (hall k send maxInstance hmade hsend henum)⟩

/-- The class has two instances; the first has the name `A`, and the request for the second
fails. -/
def lossyExchanges : Exchanges := fun n _ =>
  match n with
  | 0 => .ok ⟨0x83, 0, 0, 0, [], [2, 0, 1, 0, 0, 0, 1, 0, 2, 0, 0, 0, 2, 0]⟩
  | 1 => .ok ⟨0x83, 0, 0, 0, [], [2, 0, 1, 0, 0, 0, 1, 0, 0x41, 2, 0, 0, 0, 0xC4, 0]⟩
  | _ => .error (.readHeader .eof)

/-- The call returns a list without the second instance. -/
theorem listTags_shortened :
    (∃ t, Ends 3 (tagAttempts fun _ => some lossyExchanges) t ∧
      t.ending = .done [⟨1, [0x41], 0xC4⟩] ∧ t.attempts = 1) ∧
    lossyExchanges.answer 2 = .error (.readHeader .eof) ∧
    ¬ ListsAll 3 fun _ => some lossyExchanges := by
  have hends : Ends 3 (tagAttempts fun _ => some lossyExchanges)
      ⟨.done [⟨1, [0x41], 0xC4⟩], 1, []⟩ := ⟨1, by decide +kernel⟩
  refine ⟨⟨_, hends, rfl, rfl⟩, rfl, fun hall => ?_⟩
  obtain ⟨k, send, maxInstance, -, hsend, henum, hcomplete⟩ := hall _ _ hends rfl
  cases hsend
  have htwo : Enumerates lossyExchanges 2 := ⟨_, 1, rfl, rfl, by decide +kernel⟩
  obtain rfl := henum.unique htwo
  rcases hcomplete.all 2 (by decide) (by decide) with ⟨s, hs, hid⟩ | ⟨resp, hresp, -⟩
  · obtain rfl := List.mem_singleton.mp hs
    cases hid
  · cases hresp

end GoIndustrial.EtherNetIP
