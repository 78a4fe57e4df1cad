import GoIndustrial.EtherNetIP.Session

/-!
# A session shared by concurrent callers

The methods of a session (`protocol/ethernetip/session.go`) may be called from any number of
goroutines. Requests and answers carry nothing that says which belong together: the sender context
is always zero, and the answer is taken to be the next frame that arrives. What keeps the callers
apart is the lock `ioMu`, which a caller holds from before its request until it has the answer.
`Unregister` and `Close` do not take it; the one writes a frame at any time, though never into
another, and the other breaks the connection.

The other side is a server of this package. A step of its handler is a round of its loop, and what
the other connections and the application do to the server happens in between. A handler that has
left its loop takes no further step, and a connection on which a write or a read has failed does not
come back: later calls fail as well.

## Main results

* `EtherNetIP.SharedSession.own_answer` : a call returns the answer to its own request.
-/

namespace GoIndustrial.EtherNetIP

variable {σ : Type}

/-! ### The system -/

/-- What is exchanged under the lock of a session. -/
inductive SessionOp
  | register
  | sendRRData (request : List UInt8)
  | listIdentity
  | listServices
  deriving DecidableEq

namespace SessionOp

def command : SessionOp → UInt16
  | register => commandRegisterSession
  | sendRRData _ => commandSendRRData
  | listIdentity => commandListIdentity
  | listServices => commandListServices

def data : SessionOp → List UInt8
  | register => registerSessionData
  | sendRRData request => unconnectedData request
  | listIdentity | listServices => []

/-- The handle in the header of the request, `handle` being that of the session. -/
def sessionHandle (handle : UInt32) : SessionOp → UInt32
  | sendRRData _ => handle
  | register | listIdentity | listServices => 0

end SessionOp

inductive CallPhase
  /-- The request is encoded and the handle is read. -/
  | ready
  /-- The lock is taken and the request is written. -/
  | waiting
  /-- What `Receive` has returned; the rest of the method works on that. -/
  | done (result : Except SessionErr (EncapsulationHeader × List UInt8))
  deriving DecidableEq

structure SessionCall where
  op : SessionOp
  /-- The handle in the header of the request. -/
  handle : UInt32
  phase : CallPhase
  deriving DecidableEq

structure SharedSession (σ : Type) where
  /-- What the handler of the connection sees. -/
  view : View σ
  calls : ℕ → Option SessionCall
  /-- The caller that has the lock. -/
  ioMu : Option ℕ
  handle : UInt32
  /-- The bytes of the client that the handler has not read. -/
  sent : List UInt8
  /-- The bytes of the server that the client has not read. -/
  answers : List UInt8
  /-- A write or a read has failed, or the connection was closed. -/
  broken : Bool

inductive SessionStep (σ : Type)
  /-- Other connections give out sessions and change the device, and so does the application. -/
  | others (nextSession : UInt32) (device : σ)
  /-- A round of the handler. -/
  | serve
  | call (i : ℕ) (op : SessionOp)
  | send (i : ℕ)
  /-- The write fails, perhaps after some bytes. -/
  | failWrite (i n : ℕ)
  | receive (i : ℕ)
  | failRead (i : ℕ) (inHeader : Bool) (e : ByteReader.ReadErr)
  | unregister (handle : UInt32)
  | close

namespace SharedSession

def setCall (s : SharedSession σ) (i : ℕ) (c : SessionCall) : SharedSession σ :=
  { s with calls := Function.update s.calls i (some c) }

def step (srv : Server σ) (s : SharedSession σ) : SessionStep σ → Option (SharedSession σ)
  | .others nextSession device => some { s with view := { s.view with nextSession, device } }
  | .serve =>
    match srv.serve s.sent s.view with
    | (.ok (some (out, sent)), view) => some { s with view, sent, answers := s.answers ++ out }
    | _ => none
  | .call i op =>
    match s.calls i with
    | none => some (s.setCall i ⟨op, op.sessionHandle s.handle, .ready⟩)
    | some _ => none
  | .send i =>
    match s.calls i, s.ioMu, s.broken with
    | some ⟨op, handle, .ready⟩, none, false =>
      some { s.setCall i ⟨op, handle, .waiting⟩ with
        ioMu := some i, sent := s.sent ++ send op.command op.data handle }
    | _, _, _ => none
  | .failWrite i n =>
    match s.calls i, s.ioMu with
    | some ⟨op, handle, .ready⟩, none =>
      let bytes := if s.broken then [] else (send op.command op.data handle).take n
      some { s.setCall i ⟨op, handle, .done (.error .write)⟩ with
        sent := s.sent ++ bytes, broken := true }
    | _, _ => none
  | .receive i =>
    match s.calls i, s.broken with
    | some ⟨op, handle, .waiting⟩, false =>
      match receive s.answers with
      | .error _ => none
      | .ok (header, data, answers) =>
        -- `Register` keeps the handle that the server has given.
        let registered : Prop := op.command = commandRegisterSession ∧ header.status = statusSuccess
        some { s.setCall i ⟨op, handle, .done (.ok (header, data))⟩ with
          ioMu := none
          handle := if registered then header.sessionHandle else s.handle
          answers }
    | _, _ => none
  | .failRead i inHeader e =>
    match s.calls i with
    | some ⟨op, handle, .waiting⟩ =>
      let err := if inHeader then SessionErr.readHeader e else SessionErr.readData e
      some { s.setCall i ⟨op, handle, .done (.error err)⟩ with ioMu := none, broken := true }
    | _ => none
  | .unregister handle =>
    if s.broken then none
    else some { s with sent := s.sent ++ send commandUnregisterSession [] handle }
  | .close => some { s with broken := true }

/-- A session on a connection that the server has just accepted. -/
def system (srv : Server σ) (view : View σ) : TransitionSystem (SharedSession σ) (SessionStep σ) :=
  ⟨⟨view, fun _ => none, none, 0, [], [], false⟩, step srv⟩

/-- Requests and answers are short enough for the length field of their headers. -/
def Framed (srv : Server σ) (s : SharedSession σ) : SessionStep σ → Prop
  | .call _ op => op.data.length < 65536
  | .serve => (match (srv.serve s.sent s.view).1 with
    | .ok (some (out, _)) => decide (out.length < headerSize + 65536)
    | _ => true) = true
  | _ => True

instance (srv : Server σ) (s : SharedSession σ) : ∀ a, Decidable (Framed srv s a)
  | .call _ _ => inferInstanceAs (Decidable (_ < _))
  | .serve => inferInstanceAs (Decidable (_ = true))
  | .others _ _ | .send _ | .failWrite _ _ | .receive _ | .failRead _ _ _ | .unregister _
  | .close => inferInstanceAs (Decidable True)

/-! ### A round of the handler -/

/-- The round in which the handler comes to a frame of the client. -/
theorem serve_send_append {srv : Server σ} {cmd : UInt16} {data rest out sent : List UInt8}
    {handle : UInt32} {v v' : View σ} (hlen : data.length < 65536)
    (h : srv.serve (send cmd data handle ++ rest) v = (.ok (some (out, sent)), v')) :
    data.length ≤ maxPacketSize ∧ sent = rest ∧ ∃ r,
      (srv.handleFrame (sentFrame cmd data handle) v).result = .ok (some r) ∧
      out = ((sentFrame cmd data handle).answer r).encode ++ r.respData := by
  obtain ⟨-, header, r, hheader, hmax, -, hreply, hout, hsent, -⟩ := Server.serve_eq_some h
  have hdrop : (send cmd data handle ++ rest).drop headerSize = data ++ rest := by
    rw [send, List.append_assoc]
    exact List.drop_left' (EncapsulationHeader.length_encode _)
  rw [send, List.append_assoc, List.take_left' (EncapsulationHeader.length_encode _),
    parseHeader_encode] at hheader
  cases hheader
  have hsize : (sendHeader cmd data handle).request.dataLen.toNat = data.length :=
    Nat.mod_eq_of_lt hlen
  rw [hsize] at hmax
  rw [hdrop, hsize, List.take_left] at hreply hout
  rw [hdrop, hsize, List.drop_left] at hsent
  exact ⟨hmax, hsent, r, hreply, hout⟩

/-- Behind the request of a caller there is nothing, or a frame that makes the handler leave. -/
def Tail (bytes : List UInt8) : Prop :=
  bytes = [] ∨ ∃ handle, send commandUnregisterSession [] handle <+: bytes

theorem Tail.append {bytes : List UInt8} (h : Tail bytes) (handle : UInt32) :
    Tail (bytes ++ send commandUnregisterSession [] handle) := by
  rcases h with rfl | ⟨handle', h⟩
  · exact .inr ⟨handle, List.prefix_rfl⟩
  · exact .inr ⟨handle', h.trans (List.prefix_append _ _)⟩

/-- The handler answers nothing where there is no request. -/
theorem Tail.serve_ne {srv : Server σ} {bytes out sent : List UInt8} {v v' : View σ}
    (ht : Tail bytes) : srv.serve bytes v ≠ (.ok (some (out, sent)), v') := by
  intro h
  rcases ht with rfl | ⟨handle, rest, rfl⟩
  · cases (Server.serve_eq_some h).1
  · obtain ⟨-, -, r, hreply, -⟩ := serve_send_append (by decide) h
    cases hreply

/-! ### What holds along a run -/

section
variable (srv : Server σ) (view : View σ) (as : List (SessionStep σ))

/-- At some moment at which the call was waiting, this was what the server answers to it. -/
abbrev Answered (i : ℕ) (op : SessionOp) (handle : UInt32) (header : EncapsulationHeader)
    (data : List UInt8) : Prop :=
  (system srv view).Visited (Framed srv) as fun t => t.calls i = some ⟨op, handle, .waiting⟩ ∧
    exchange (srv.peer t.view) op.command op.data handle = .ok (header, data, [])

/-- A caller that waits has the lock, and one that has returned has its own answer. -/
structure CallInv (ioMu : Option ℕ) (i : ℕ) (c : SessionCall) : Prop where
  framed : c.op.data.length < 65536
  lock : c.phase = .waiting → ioMu = some i
  answered : ∀ header data, c.phase = .done (.ok (header, data)) →
    Answered srv view as i c.op c.handle header data

/-- What is under way on a connection that is not broken: nothing, or the request of a caller, or
its answer. -/
inductive Stage (s : SharedSession σ) : Prop
  | quiet (hanswers : s.answers = []) (htail : Tail s.sent)
  | queued (i : ℕ) (op : SessionOp) (handle : UInt32) (rest : List UInt8)
      (hc : s.calls i = some ⟨op, handle, .waiting⟩) (hanswers : s.answers = [])
      (hsent : s.sent = send op.command op.data handle ++ rest) (htail : Tail rest)
  | answered (i : ℕ) (op : SessionOp) (handle : UInt32) (header : EncapsulationHeader)
      (data : List UInt8) (hc : s.calls i = some ⟨op, handle, .waiting⟩)
      (hanswered : Answered srv view as i op handle header data)
      (hanswers : receive s.answers = .ok (header, data, [])) (htail : Tail s.sent)

structure Inv (s : SharedSession σ) : Prop where
  calls : ∀ i c, s.calls i = some c → CallInv srv view as s.ioMu i c
  stage : s.broken = false → Stage srv view as s

end

section
variable {srv : Server σ} {view : View σ} {as : List (SessionStep σ)} {s t : SharedSession σ}
  {a : SessionStep σ}

theorem CallInv.append {ioMu : Option ℕ} {i : ℕ} {c : SessionCall}
    (h : CallInv srv view as ioMu i c) (bs : List (SessionStep σ)) :
    CallInv srv view (as ++ bs) ioMu i c :=
  ⟨h.framed, h.lock, fun header data hphase => (h.answered header data hphase).append⟩

/-- The stage stays when the bytes do and nobody stops waiting. -/
theorem Stage.keep (hs : Stage srv view as s) (hsent : t.sent = s.sent)
    (hanswers : t.answers = s.answers) (hcalls : ∀ i op handle,
      s.calls i = some ⟨op, handle, .waiting⟩ → t.calls i = some ⟨op, handle, .waiting⟩) :
    Stage srv view (as ++ [a]) t := by
  rcases hs with ⟨h, htail⟩ | ⟨i, op, handle, rest, hc, h, hrest, htail⟩ |
    ⟨i, op, handle, header, data, hc, hanswered, h, htail⟩
  · exact .quiet (hanswers.trans h) (hsent ▸ htail)
  · exact .queued i op handle rest (hcalls i op handle hc) (hanswers.trans h) (hsent.trans hrest)
      htail
  · exact .answered i op handle header data (hcalls i op handle hc) hanswered.append (hanswers ▸ h)
      (hsent ▸ htail)

/-- **The handler answers the caller that waits.** -/
theorem Inv.stage_serve (hrun : (system srv view).Run (Framed srv) (system srv view).init as s)
    (hi : Inv srv view as s) (hg : Framed srv s .serve) {out sent : List UInt8} {v : View σ}
    (h : srv.serve s.sent s.view = (.ok (some (out, sent)), v)) (hbroken : s.broken = false) :
    Stage srv view (as ++ [.serve]) { s with view := v, sent, answers := s.answers ++ out } := by
  rcases hi.stage hbroken with ⟨-, htail⟩ | ⟨i, op, handle, rest, hc, hanswers, hrest, htail⟩ |
    ⟨-, -, -, -, -, -, -, -, htail⟩
  · exact absurd h htail.serve_ne
  · rw [Framed, h] at hg
    rw [hrest] at h
    obtain ⟨hmax, rfl, r, hreply, rfl⟩ := serve_send_append (hi.calls i _ hc).framed h
    have hshort : r.respData.length < 65536 := by
      have hlength := of_decide_eq_true hg
      rw [List.length_append, EncapsulationHeader.length_encode] at hlength
      omega
    have hlen : ((sentFrame op.command op.data handle).answer r).length.toNat =
        r.respData.length := Nat.mod_eq_of_lt hshort
    have hreceive := receive_encode hlen []
    rw [List.append_nil] at hreceive
    refine .answered i op handle _ _ hc (hrun.visited ⟨hc, exchange_peer hmax hreply hshort⟩) ?_
      htail
    rwa [hanswers, List.nil_append]
  · exact absurd h htail.serve_ne

/-- **A caller that takes the lock finds nothing under way**, unless the session was ended. -/
theorem Inv.stage_send (hi : Inv srv view as s) {i : ℕ} {op : SessionOp} {handle : UInt32}
    (hmu : s.ioMu = none) (hbroken : s.broken = false) :
    Stage srv view (as ++ [a]) { s.setCall i ⟨op, handle, .waiting⟩ with
      ioMu := some i, sent := s.sent ++ send op.command op.data handle } := by
  -- Whoever waits would have the lock.
  have hfree {j : ℕ} {op : SessionOp} {handle : UInt32} :
      s.calls j ≠ some ⟨op, handle, .waiting⟩ := fun hc => by
    cases hmu.symm.trans ((hi.calls j _ hc).lock rfl)
  rcases hi.stage hbroken with ⟨hanswers, htail | ⟨handle', htail⟩⟩ | ⟨_, _, _, _, hc⟩ |
    ⟨_, _, _, _, _, hc⟩
  · refine .queued i op handle [] (Function.update_self ..) hanswers ?_ (.inl rfl)
    change s.sent ++ _ = _
    rw [htail, List.nil_append, List.append_nil]
  · exact .quiet hanswers (.inr ⟨handle', htail.trans (List.prefix_append _ _)⟩)
  · exact absurd hc hfree
  · exact absurd hc hfree

/-- **The answer that is received** is the one to the request of the caller. -/
theorem Inv.answered_of_receive (hi : Inv srv view as s) {i : ℕ} {op : SessionOp} {handle : UInt32}
    (hc : s.calls i = some ⟨op, handle, .waiting⟩) (hbroken : s.broken = false)
    {header : EncapsulationHeader} {data answers : List UInt8}
    (h : receive s.answers = .ok (header, data, answers)) :
    answers = [] ∧ Tail s.sent ∧ Answered srv view as i op handle header data := by
  rcases hi.stage hbroken with ⟨hanswers, -⟩ | ⟨_, _, _, _, -, hanswers, -⟩ |
    ⟨j, op', handle', header', data', hc', hanswered, hanswers, htail⟩
  · rw [hanswers] at h
    cases h
  · rw [hanswers] at h
    cases h
  · obtain rfl := Option.some.inj
      (((hi.calls i _ hc).lock rfl).symm.trans ((hi.calls j _ hc').lock rfl))
    cases hc.symm.trans hc'
    cases hanswers.symm.trans h
    exact ⟨rfl, htail, hanswered⟩

/-- When the caller with the lock returns, nobody waits. -/
theorem Inv.calls_return (hi : Inv srv view as s) {i : ℕ} {op : SessionOp} {handle : UInt32}
    (hc : s.calls i = some ⟨op, handle, .waiting⟩)
    {result : Except SessionErr (EncapsulationHeader × List UInt8)}
    (h : ∀ header data, result = .ok (header, data) → Answered srv view as i op handle header data)
    (j : ℕ) (c : SessionCall) (hj : (s.setCall i ⟨op, handle, .done result⟩).calls j = some c) :
    CallInv srv view (as ++ [a]) none j c := by
  rcases Table.update_some_eq_some.mp hj with ⟨rfl, rfl⟩ | ⟨hne, hj⟩
  · refine ⟨(hi.calls j _ hc).framed, nofun, fun header data hphase => ?_⟩
    exact (h header data (CallPhase.done.inj hphase)).append
  · have hcall := hi.calls j c hj
    refine ⟨hcall.framed, fun hphase => ?_, (hcall.append _).answered⟩
    have hmu := ((hi.calls i _ hc).lock rfl).symm.trans (hcall.lock hphase)
    exact absurd (Option.some.inj hmu).symm hne

/-- **Every step keeps the callers apart.** -/
theorem inv_step (hrun : (system srv view).Run (Framed srv) (system srv view).init as s)
    (hi : Inv srv view as s) (hg : Framed srv s a) (h : s.step srv a = some t) :
    Inv srv view (as ++ [a]) t := by
  have hcalls : ∀ i c, s.calls i = some c → CallInv srv view (as ++ [a]) s.ioMu i c :=
    fun i c hc => (hi.calls i c hc).append _
  cases a with
  | others nextSession device =>
    cases h
    exact ⟨hcalls, fun hbroken => (hi.stage hbroken).keep rfl rfl fun _ _ _ hc => hc⟩
  | serve =>
    rw [step] at h
    split at h
    · rename_i hserve
      cases h
      exact ⟨hcalls, hi.stage_serve hrun hg hserve⟩
    · cases h
  | call i op =>
    rw [step] at h
    split at h
    · rename_i hfresh
      cases h
      refine ⟨Table.forall_update_some hcalls ⟨hg, nofun, nofun⟩, fun hbroken =>
        (hi.stage hbroken).keep rfl rfl fun j op' handle hc => ?_⟩
      have hne : j ≠ i := by
        rintro rfl
        cases hfresh.symm.trans hc
      exact (Function.update_of_ne hne _ _).trans hc
    · cases h
  | send i =>
    rw [step] at h
    split at h
    · rename_i op handle hc hmu hbroken
      cases h
      refine ⟨fun j c hj => ?_, fun _ => hi.stage_send hmu hbroken⟩
      rcases Table.update_some_eq_some.mp hj with ⟨rfl, rfl⟩ | ⟨-, hj⟩
      · exact ⟨(hi.calls j _ hc).framed, fun _ => rfl, nofun⟩
      · refine ⟨(hcalls j c hj).framed, fun hphase => ?_, (hcalls j c hj).answered⟩
        cases hmu.symm.trans ((hcalls j c hj).lock hphase)
    · cases h
  | failWrite i n =>
    rw [step] at h
    split at h
    · rename_i op handle hc hmu
      cases h
      exact ⟨Table.forall_update_some hcalls ⟨(hi.calls i _ hc).framed, nofun, nofun⟩, nofun⟩
    · cases h
  | receive i =>
    rw [step] at h
    split at h
    · rename_i op handle hc hbroken
      split at h
      · cases h
      · rename_i header data answers hreceive
        cases h
        obtain ⟨rfl, htail, hanswered⟩ := hi.answered_of_receive hc hbroken hreceive
        refine ⟨hi.calls_return hc fun header' data' heq => ?_, fun _ => .quiet rfl htail⟩
        cases heq
        exact hanswered
    · cases h
  | failRead i inHeader e =>
    rw [step] at h
    split at h
    · rename_i op handle hc
      cases h
      exact ⟨hi.calls_return hc nofun, nofun⟩
    · cases h
  | unregister handle =>
    rw [step] at h
    split_ifs at h with hbroken
    cases h
    refine ⟨hcalls, fun _ => ?_⟩
    rcases hi.stage (Bool.not_eq_true _ ▸ hbroken) with ⟨hanswers, htail⟩ |
      ⟨i, op, handle', rest, hc, hanswers, hsent, htail⟩ |
      ⟨i, op, handle', header, data, hc, hanswered, hanswers, htail⟩
    · exact .quiet hanswers (htail.append handle)
    · refine .queued i op handle' _ hc hanswers ?_ (htail.append handle)
      change s.sent ++ _ = _
      rw [hsent, List.append_assoc]
    · exact .answered i op handle' header data hc hanswered.append hanswers (htail.append handle)
  | close =>
    cases h
    exact ⟨hcalls, nofun⟩

/-- **A call returns the answer to its own request**: however the calls of any number of goroutines
on one session interleave, and whatever else the server has to do, what a call returns is what the
server answers to the request of this call, at some moment at which the call was waiting. -/
theorem own_answer (h : (system srv view).Run (Framed srv) (system srv view).init as s)
    {i : ℕ} {op : SessionOp} {handle : UInt32} {header : EncapsulationHeader} {data : List UInt8}
    (hc : s.calls i = some ⟨op, handle, .done (.ok (header, data))⟩) :
    (system srv view).Visited (Framed srv) as fun t => t.calls i = some ⟨op, handle, .waiting⟩ ∧
      exchange (srv.peer t.view) op.command op.data handle = .ok (header, data, []) := by
  have hinv : Inv srv view as s :=
    TransitionSystem.Run.history (M := system srv view)
      ⟨nofun, fun _ => .quiet rfl (.inl rfl)⟩
      (fun _ _ _ _ hrun hi hg hstep => inv_step hrun hi hg hstep) h
  exact (hinv.calls i _ hc).answered header data rfl

/-- One caller registers the session while another waits for the lock; the session is unregistered
while the second has not read its answer. -/
def twoCallers : List (SessionStep Unit) :=
  [.call 0 .register, .call 1 .listServices, .send 0, .serve, .receive 0, .send 1, .unregister 1,
    .serve, .receive 1]

/-- The header of the answer to the second caller. -/
def servicesHeader : EncapsulationHeader :=
  (sentFrame commandListServices [] 0).answer ⟨0, statusSuccess, Server.handleListServices⟩

/-- The second caller gets the services. -/
theorem own_answer_twoCallers :
    let M := system bareServer ⟨0, 0, ()⟩
    ∃ s, M.Run (Framed bareServer) M.init twoCallers s ∧
      s.calls 1 =
        some ⟨.listServices, 0, .done (.ok (servicesHeader, Server.handleListServices))⟩ ∧
      ∃ v : View Unit, exchange (bareServer.peer v) commandListServices [] 0 =
        .ok (servicesHeader, Server.handleListServices, []) := by
  intro M
  have hexec : (M.exec (Framed bareServer) M.init twoCallers).map (fun s => s.calls 1) =
      some (some ⟨.listServices, 0, .done (.ok (servicesHeader, Server.handleListServices))⟩) := by
    decide +kernel
  obtain ⟨s, hs, hc⟩ := Option.map_eq_some_iff.mp hexec
  have hrun := TransitionSystem.run_of_exec hs
  obtain ⟨-, t, -, -, -, hexchange⟩ := own_answer hrun hc
  exact ⟨s, hrun, hc, t.view, hexchange⟩

end

end SharedSession

end GoIndustrial.EtherNetIP
