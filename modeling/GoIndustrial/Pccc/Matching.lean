import GoIndustrial.EtherNetIP.Client
import GoIndustrial.Pccc.Client

/-!
# The answers that a PCCC client believes

`Client.ExecutePCCC` of `protocol/ethernetip/pccc.go` is the executor of a PCCC client. A command
goes out with a requestor ID in front of it, in a request of the service Execute_PCCC, in a
`SendRRData` frame; the reply is taken out of the same layers. Each layer of a reply carries an
identifier: the command of the frame, the service, the requestor ID, and the PCCC command with its
transaction number. A reply that can be taken apart and has no error status is taken for the answer;
none of the identifiers is compared with what was sent.

## Main definitions

* `Pccc.PcccSession`, `Pccc.PcccSession.executePCCC` : the executor.
* `Pccc.decodeAnswer` : all layers of a reply.
* `Pccc.Answer.Matches` : every identifier of a reply is that of the request.

## Main results

* `Pccc.exists_runOn_program_eq_ok` : the replies on which a read or a write succeeds.
* `Pccc.believesOnlyMatching_iff` : only matching answers are believed, if and only if no other
  well-formed reply arrives.
* `Pccc.not_believesOnlyMatching_strange` : a read that returns the data of another answer.
-/

namespace GoIndustrial.Pccc

open EtherNetIP LittleEndian Retry

/-! ### The executor -/

def classPCCC : UInt16 := 0x67

def serviceExecutePCCC : UInt8 := 0x4B

/-- The header in front of a command: its length, the vendor and the serial number. -/
def requestorID (vendorID : UInt16) (serialNumber : UInt32) : List UInt8 :=
  0x07 :: (putUint16 vendorID ++ putUint32 serialNumber)

def newExecutePCCCRequest (vendorID : UInt16) (serialNumber : UInt32) (pcccCmd : List UInt8) :
    MessageRouterRequest where
  service := serviceExecutePCCC
  requestPath := addInstance (addClass [] classPCCC) 1
  requestData := requestorID vendorID serialNumber ++ pcccCmd

/-- The reply behind the requestor ID. -/
def stripRequestorID (responseData : List UInt8) : Except OpErr (List UInt8) :=
  let n := responseData.length
  if n < 7 then
    .error (.other
      s!"ethernetip: Execute_PCCC reply too short ({n} bytes, need >=7 for requestor ID)")
  else .ok (responseData.drop 7)

/-- The client that executes PCCC commands. -/
structure PcccSession where
  retries : ℤ
  cipVendorID : UInt16
  cipSerialNumber : UInt32
  /-- The session that an attempt gets, if it gets one: its handle and the other side. -/
  session : ℕ → Option (UInt32 × Peer)

/-- How `ExecutePCCC` fails. -/
inductive ExecErr
  /-- `ethernetip: ExecutePCCC: empty PCCC command`. -/
  | emptyCommand
  | refused (e : CipError)
  /-- The retries are used up. -/
  | exhausted (last : Option OpErr)
  /-- The attempts have not ended yet. -/
  | running
  deriving DecidableEq, Repr

namespace PcccSession

variable (c : PcccSession)

def request (pcccCmd : List UInt8) : MessageRouterRequest :=
  newExecutePCCCRequest c.cipVendorID c.cipSerialNumber pcccCmd

/-- The outcome of attempt `k`. -/
def attempt (pcccCmd : List UInt8) (k : ℕ) : Attempt (List UInt8) CipError OpErr :=
  match c.session k with
  | none => .unreachable .unavailable
  | some (handle, peer) =>
    cipAttempt (sendCIPRequest handle peer (c.request pcccCmd)) stripRequestorID

/-- `ExecutePCCC`, watched for `fuel` rounds of the retry loop. -/
def executePCCC (fuel : ℕ) (pcccCmd : List UInt8) : Except ExecErr (List UInt8) :=
  if pcccCmd.length = 0 then .error .emptyCommand
  else
    match doLoop c.retries (c.attempt pcccCmd) fuel 0 0 with
    | none => .error .running
    | some t =>
      match t.ending with
      | .done reply => .ok reply
      | .refused e => .error (.refused e)
      | .exhausted last => .error (.exhausted last)

/-- The executor of a PCCC client. -/
def executor (fuel : ℕ) (pcccCmd : List UInt8) (s : Unit) : Except ExecErr (List UInt8) × Unit :=
  (c.executePCCC fuel pcccCmd, s)

/-- The bytes that arrive in attempt `k`. -/
def arrived (pcccCmd : List UInt8) (k : ℕ) : Option (List UInt8) :=
  (c.session k).bind fun s =>
    s.2 (send commandSendRRData (unconnectedData (c.request pcccCmd).encode) s.1)

variable {c} {pcccCmd raw : List UInt8}

/-- A command is executed if an attempt that is made executes it. -/
theorem exists_executePCCC_eq_ok (hne : pcccCmd ≠ []) :
    (∃ fuel, c.executePCCC fuel pcccCmd = .ok raw) ↔
      ∃ k, Made c.retries (c.attempt pcccCmd) k ∧ c.attempt pcccCmd k = .done raw := by
  have hlen : pcccCmd.length ≠ 0 := fun h => hne (List.length_eq_zero_iff.mp h)
  constructor
  · rintro ⟨fuel, h⟩
    rw [executePCCC, if_neg hlen] at h
    cases ht : doLoop c.retries (c.attempt pcccCmd) fuel 0 0 with
    | none => simp [ht] at h
    | some t =>
      obtain ⟨ending, attempts, resets⟩ := t
      cases ending with
      | done reply =>
        simp only [ht, Except.ok.injEq] at h
        obtain ⟨k, hmade, hk, -⟩ := Ends.exists_made ⟨fuel, ht⟩ (a := .done reply) rfl
        exact ⟨k, hmade, h ▸ hk⟩
      | refused e | exhausted last => simp [ht] at h
  · rintro ⟨k, hmade, hk⟩
    have hends : Ends c.retries (c.attempt pcccCmd) ⟨.done raw, k + 1, _⟩ :=
      hmade.ends (congrArg some hk.symm)
    obtain ⟨fuel, ht⟩ := hends
    refine ⟨fuel, ?_⟩
    rw [executePCCC, if_neg hlen, ht]

end PcccSession

/-! ### The layers of a reply -/

/-- A reply that has been taken apart. -/
structure Answer where
  header : EncapsulationHeader
  resp : MessageRouterResponse
  reply : Reply


/-- Every identifier of the reply is that of the request. -/
structure Answer.Matches (ans : Answer) (c : PcccSession) (tns : UInt16) : Prop where
  command : ans.header.command = commandSendRRData
  service : ans.resp.service = serviceExecutePCCC ||| 0x80
  requestor : ans.resp.responseData.take 7 = requestorID c.cipVendorID c.cipSerialNumber
  pcccCommand : ans.reply.command = cmdProtectedTypedLogical
  tns : ans.reply.tns = tns

/-- The response of the message router in the bytes that arrived. -/
def receivedResponse (input : List UInt8) :
    Except SessionErr (EncapsulationHeader × MessageRouterResponse) := do
  let (header, respData, _) ← receive input
  let message ← unconnectedMessage header respData
  match decodeMessageRouterResponse message with
  | .error e => .error (.response e)
  | .ok resp => return (header, resp)

/-- All layers of the bytes that arrived, if they are there and no status is an error. -/
def decodeAnswer (input : List UInt8) : Option Answer := do
  let (header, resp) ← (receivedResponse input).toOption
  if resp.error = none then
    let raw ← (stripRequestorID resp.responseData).toOption
    let reply ← (decodeReply raw).toOption
    return ⟨header, resp, reply⟩
  else none

/-- An attempt on a session, in terms of the bytes that arrive. -/
theorem PcccSession.attempt_of_session {c : PcccSession} {pcccCmd : List UInt8} {k : ℕ}
    {handle : UInt32} {peer : Peer} (hs : c.session k = some (handle, peer)) :
    c.attempt pcccCmd k =
      match c.arrived pcccCmd k with
      | none => .failed (.session .write)
      | some input =>
        match receivedResponse input with
        | .error e => .failed (.session e)
        | .ok (_, resp) =>
          match resp.error with
          | some e => .refused e
          | none =>
            match stripRequestorID resp.responseData with
            | .ok raw => .done raw
            | .error e => .failed e := by
  rw [attempt, arrived, hs]
  dsimp only [Option.bind_some]
  unfold cipAttempt sendCIPRequest sendRRData EtherNetIP.exchange
  cases peer (send commandSendRRData (unconnectedData (c.request pcccCmd).encode) handle) with
  | none => rfl
  | some input =>
    dsimp only
    rw [receivedResponse]
    cases receive input with
    | error e => rfl
    | ok received =>
      obtain ⟨header, respData, rest⟩ := received
      dsimp only [bind, Except.bind]
      cases unconnectedMessage header respData with
      | error e => rfl
      | ok message =>
        dsimp only [pure, Except.pure]
        cases decodeMessageRouterResponse message with
        | error e => rfl
        | ok resp =>
          dsimp only
          cases resp.error with
          | some e => rfl
          | none => cases stripRequestorID resp.responseData <;> rfl

/-- An attempt whose reply is decoded without an error is one whose bytes can be taken apart. -/
theorem decoded_iff {c : PcccSession} {pcccCmd : List UInt8} {k : ℕ} {reply : Reply} :
    (∃ raw, c.attempt pcccCmd k = .done raw ∧ decodeReply raw = .ok reply) ↔
      ∃ ans, (c.arrived pcccCmd k).bind decodeAnswer = some ans ∧ ans.reply = reply := by
  cases hs : c.session k with
  | none => simp [PcccSession.attempt, PcccSession.arrived, hs]
  | some s =>
    rw [PcccSession.attempt_of_session hs]
    cases c.arrived pcccCmd k with
    | none => simp
    | some input =>
      simp only [Option.bind_some]
      rw [decodeAnswer]
      cases receivedResponse input with
      | error e => simp [Except.toOption]
      | ok received =>
        obtain ⟨header, resp⟩ := received
        dsimp only [Except.toOption, Option.bind_eq_bind, Option.bind_some]
        cases resp.error with
        | some e => simp
        | none =>
          cases stripRequestorID resp.responseData with
          | error e => simp
          | ok raw => cases hreply : decodeReply raw <;> simp [hreply]

/-! ### Reads and writes -/

/-- A read or a write of the client. -/
inductive PcccOp
  | read (a : Address) (byteSize : ℤ)
  | write (a : Address) (data : List UInt8)

namespace PcccOp

/-- What runs; a write returns no data. -/
def program {ε : Type} : PcccOp → Program ε (List UInt8)
  | read a byteSize => rawRead a byteSize
  | write a data => do
    writeBytes a data
    return []

/-- The command that is sent, if one is sent. -/
def command (tns : UInt16) : PcccOp → Option (List UInt8)
  | read a byteSize =>
    if byteSize < 1 ∨ 240 < byteSize then none
    else
      (encodeTypedRead tns byteSize a.fileNumber a.fileType a.element a.subElement).toOption
  | write a data =>
    (encodeTypedWrite tns a.fileNumber a.fileType a.element a.subElement data).toOption

/-- What is returned on a reply. -/
def result (r : Reply) : PcccOp → List UInt8
  | read _ _ => r.data
  | write _ _ => []

end PcccOp

theorem toOption_eq_some {ε α : Type} {x : Except ε α} {a : α} (h : x.toOption = some a) :
    x = .ok a := by
  cases x with
  | error e => cases h
  | ok b => exact congrArg Except.ok (Option.some.inj h)

/-- What an operation makes of what the executor returns. -/
theorem runOn_program {ε σ : Type} (exec : List UInt8 → σ → Except ε (List UInt8) × σ)
    {op : PcccOp} {l : Link σ} {cmd : List UInt8}
    (hcmd : op.command (nextTNS l.tns).1 = some cmd) :
    (runOn exec op.program l).1 =
      match (exec cmd l.device).1 with
      | .error e => .error (.executor e)
      | .ok raw =>
        match decodeReply raw with
        | .error e => .error (.frame e)
        | .ok reply => .ok (op.result reply) := by
  cases op with
  | read a byteSize =>
    rw [PcccOp.command] at hcmd
    split_ifs at hcmd with hsize
    rw [PcccOp.program, rawRead, if_neg hsize, runOn_bind_ok _ _ (runOn_nextTNS _ l),
      toOption_eq_some hcmd, runOn_bind_ok _ _ rfl, runOn_bind, runOn_execute]
    cases (exec cmd l.device).1 with
    | error e => rfl
    | ok raw =>
      dsimp only [Except.mapError]
      cases decodeReply raw <;> rfl
  | write a data =>
    rw [PcccOp.command] at hcmd
    rw [PcccOp.program, writeBytes, runOn_bind, runOn_bind_ok _ _ (runOn_nextTNS _ l),
      toOption_eq_some hcmd, runOn_bind_ok _ _ rfl, runOn_bind, runOn_execute]
    cases (exec cmd l.device).1 with
    | error e => rfl
    | ok raw =>
      dsimp only [Except.mapError]
      cases decodeReply raw <;> rfl

/-- A command that is sent is not empty. -/
theorem PcccOp.command_ne_nil {op : PcccOp} {tns : UInt16} {cmd : List UInt8}
    (h : op.command tns = some cmd) : cmd ≠ [] := by
  cases op with
  | read a byteSize =>
    rw [command] at h
    split_ifs at h
    have hok := toOption_eq_some h
    obtain ⟨-, -, hok⟩ := GoSlice.bind_eq_ok.mp hok
    split_ifs at hok
    rw [← Except.ok.inj hok]
    exact List.cons_ne_nil _ _
  | write a data =>
    have hok := toOption_eq_some h
    obtain ⟨-, -, hok⟩ := GoSlice.bind_eq_ok.mp hok
    split_ifs at hok
    rw [← Except.ok.inj hok]
    exact List.cons_ne_nil _ _

/-- The operation reports success only on a reply that matches its request at every layer, and
returns the data of that reply. -/
def BelievesOnlyMatching (c : PcccSession) (op : PcccOp) (l : Link Unit) (cmd : List UInt8) :
    Prop :=
  ∀ fuel data, (runOn (c.executor fuel) op.program l).1 = .ok data →
    ∃ k ans, Made c.retries (c.attempt cmd) k ∧
      (c.arrived cmd k).bind decodeAnswer = some ans ∧ ans.Matches c (nextTNS l.tns).1 ∧
      data = op.result ans.reply

variable {c : PcccSession} {op : PcccOp} {l : Link Unit} {cmd : List UInt8}

/-- **When an operation succeeds**: an attempt is made in which bytes arrive that can be taken
apart. -/
theorem exists_runOn_program_eq_ok (hcmd : op.command (nextTNS l.tns).1 = some cmd)
    {data : List UInt8} :
    (∃ fuel, (runOn (c.executor fuel) op.program l).1 = .ok data) ↔
      ∃ k ans, Made c.retries (c.attempt cmd) k ∧
        (c.arrived cmd k).bind decodeAnswer = some ans ∧ data = op.result ans.reply := by
  have hexec : ∀ fuel, (runOn (c.executor fuel) op.program l).1 = .ok data ↔
      ∃ raw reply, c.executePCCC fuel cmd = .ok raw ∧ decodeReply raw = .ok reply ∧
        data = op.result reply := by
    intro fuel
    rw [runOn_program _ hcmd, PcccSession.executor]
    cases c.executePCCC fuel cmd with
    | error e => simp
    | ok raw => cases hreply : decodeReply raw <;> simp [hreply, eq_comm]
  constructor
  · rintro ⟨fuel, h⟩
    obtain ⟨raw, reply, hraw, hreply, rfl⟩ := (hexec fuel).mp h
    obtain ⟨k, hmade, hk⟩ :=
      (PcccSession.exists_executePCCC_eq_ok (PcccOp.command_ne_nil hcmd)).mp ⟨fuel, hraw⟩
    obtain ⟨ans, hans, rfl⟩ := decoded_iff.mp ⟨raw, hk, hreply⟩
    exact ⟨k, ans, hmade, hans, rfl⟩
  · rintro ⟨k, ans, hmade, hans, rfl⟩
    obtain ⟨raw, hk, hreply⟩ := decoded_iff.mpr ⟨ans, hans, rfl⟩
    obtain ⟨fuel, hraw⟩ :=
      (PcccSession.exists_executePCCC_eq_ok (PcccOp.command_ne_nil hcmd)).mpr ⟨k, hmade, hk⟩
    exact ⟨fuel, (hexec fuel).mpr ⟨raw, ans.reply, hraw, hreply, rfl⟩⟩

/-- Only one attempt brings a reply that can be taken apart. -/
theorem decoded_unique {k k' : ℕ} {ans ans' : Answer} (hk : Made c.retries (c.attempt cmd) k)
    (hk' : Made c.retries (c.attempt cmd) k')
    (h : (c.arrived cmd k).bind decodeAnswer = some ans)
    (h' : (c.arrived cmd k').bind decodeAnswer = some ans') : ans = ans' := by
  obtain ⟨raw, hdone, -⟩ := decoded_iff.mpr ⟨ans, h, rfl⟩
  obtain ⟨raw', hdone', -⟩ := decoded_iff.mpr ⟨ans', h', rfl⟩
  rcases Nat.lt_trichotomy k k' with hlt | rfl | hlt
  · have hretried := hk'.retried k hlt
    rw [hdone] at hretried
    exact hretried.elim
  · exact Option.some.inj (h.symm.trans h')
  · have hretried := hk.retried k' hlt
    rw [hdone'] at hretried
    exact hretried.elim

/-- **Only matching answers are believed**, if and only if every reply that arrives, can be taken
apart and has no error status carries the identifiers of the request. -/
theorem believesOnlyMatching_iff (hcmd : op.command (nextTNS l.tns).1 = some cmd) :
    BelievesOnlyMatching c op l cmd ↔ ∀ k ans, Made c.retries (c.attempt cmd) k →
      (c.arrived cmd k).bind decodeAnswer = some ans → ans.Matches c (nextTNS l.tns).1 := by
  constructor
  · intro h k ans hmade hans
    obtain ⟨fuel, hrun⟩ := (exists_runOn_program_eq_ok hcmd).mpr ⟨k, ans, hmade, hans, rfl⟩
    obtain ⟨k', ans', hmade', hans', hmatch, -⟩ := h fuel _ hrun
    obtain rfl := decoded_unique hmade hmade' hans hans'
    exact hmatch
  · intro h fuel data hrun
    obtain ⟨k, ans, hmade, hans, hdata⟩ := (exists_runOn_program_eq_ok hcmd).mp ⟨fuel, hrun⟩
    exact ⟨k, ans, hmade, hans, h k ans hmade hans, hdata⟩

/-! ### Two answers to a read -/

/-- A client whose attempts all get the same bytes back. -/
def answeredBy (bytes : List UInt8) : PcccSession :=
  ⟨0, 0x1234, 0x12345678, fun _ => some (1, fun _ => some bytes)⟩

/-- A reply without an error, in all its layers. -/
def replyBytes (command : UInt16) (resp : MessageRouterResponse) : List UInt8 :=
  send command (unconnectedData resp.encode) 1

/-- The answer to a read of `N7:0` with the transaction number 2. -/
def honestReply : MessageRouterResponse where
  service := 0xCB
  reserved := 0
  generalStatus := 0
  extStatusSize := 0
  extStatus := []
  responseData := requestorID 0x1234 0x12345678 ++ [0x4F, 0x00, 0x02, 0x00, 0x07, 0x00]

/-- The answer to another request of another client, to another service and another command. -/
def strangeReply : MessageRouterResponse where
  service := 0xCC
  reserved := 0
  generalStatus := 0
  extStatusSize := 0
  extStatus := []
  responseData := requestorID 0 0 ++ [0x46, 0x00, 0xEE, 0xEE, 0x63, 0x00]

theorem believesOnlyMatching_honest :
    BelievesOnlyMatching (answeredBy (replyBytes commandSendRRData honestReply))
      (.read ⟨.integer, 7, 0, 0, -1⟩ 2) ⟨1, ()⟩
      [0x0F, 0x00, 0x02, 0x00, 0xA2, 0x02, 0x07, 0x89, 0x00, 0x00] := by
  have hans : decodeAnswer (replyBytes commandSendRRData honestReply) =
      some ⟨sendHeader commandSendRRData (unconnectedData honestReply.encode) 1, honestReply,
        ⟨0x0F, 0, 2, 0, [0x07, 0x00]⟩⟩ := by rfl
  refine (believesOnlyMatching_iff rfl).mpr fun k ans _ h => ?_
  obtain rfl := Option.some.inj (hans.symm.trans h)
  exact ⟨rfl, rfl, rfl, rfl, rfl⟩

/-- The read returns the data of the strange reply, which has come in the answer to a
`ListIdentity`. -/
theorem not_believesOnlyMatching_strange :
    (runOn ((answeredBy (replyBytes commandListIdentity strangeReply)).executor 1)
      (PcccOp.read ⟨.integer, 7, 0, 0, -1⟩ 2).program ⟨1, ()⟩).1 = .ok [0x63, 0x00] ∧
    ¬BelievesOnlyMatching (answeredBy (replyBytes commandListIdentity strangeReply))
      (.read ⟨.integer, 7, 0, 0, -1⟩ 2) ⟨1, ()⟩
      [0x0F, 0x00, 0x02, 0x00, 0xA2, 0x02, 0x07, 0x89, 0x00, 0x00] := by
  have hrun : (runOn ((answeredBy (replyBytes commandListIdentity strangeReply)).executor 1)
      (PcccOp.read ⟨.integer, 7, 0, 0, -1⟩ 2).program ⟨1, ()⟩).1 = .ok [0x63, 0x00] := by rfl
  have hans : decodeAnswer (replyBytes commandListIdentity strangeReply) =
      some ⟨sendHeader commandListIdentity (unconnectedData strangeReply.encode) 1, strangeReply,
        ⟨0x06, 0, 0xEEEE, 0, [0x63, 0x00]⟩⟩ := by rfl
  refine ⟨hrun, fun h => ?_⟩
  obtain ⟨k, ans, -, hdecoded, hmatch, -⟩ := h 1 _ hrun
  obtain rfl := Option.some.inj (hans.symm.trans hdecoded)
  exact absurd hmatch.command (by decide)

end GoIndustrial.Pccc
