import GoIndustrial.EtherNetIP.ForwardRequests

/-!
# What a Forward_Close says

A Forward_Close names a connection by its triad. If the triad is in the table the entry is taken out
and `onClose` is called with it; if it is not, the handler should answer with a connection failure
and the extended status for a connection that was not found. It does not: it answers as if it had
closed one. The status `ExtStatusConnectionNotFound` is defined and never used.

What a run of requests says about its connections is therefore right as long as only connections are
closed that are open.

## Main definitions

* `EtherNetIP.managerAfter` : the manager after a run of requests.
* `EtherNetIP.CloseReported` : what one Forward_Close should do and answer.
* `EtherNetIP.ClosesReported` : what the closes of a run should do and answer.

## Main results

* `EtherNetIP.closeReported_iff` : one request in a reachable state.
* `EtherNetIP.exists_open_between` : a triad that appears in the table was opened.
* `EtherNetIP.closesReported_iff` : the runs in which every close is reported as it should be.
-/

namespace GoIndustrial.EtherNetIP

open ByteReader

def extStatusConnectionNotFound : UInt16 := 0x0109

/-! ### Runs -/

/-- The manager after some requests to `cm`. -/
def managerFrom (cm : ConnectionManager) (reqs : List ConnRequest) : ConnectionManager :=
  reqs.foldl (fun cm req => (req.handle cm).2) cm

/-- The manager after a run of requests. -/
def managerAfter (reqs : List ConnRequest) : ConnectionManager :=
  managerFrom .newConnectionManager reqs

theorem managerFrom_append (cm : ConnectionManager) (reqs reqs' : List ConnRequest) :
    managerFrom cm (reqs ++ reqs') = managerFrom (managerFrom cm reqs) reqs' :=
  List.foldl_append

theorem uniqueTriads_handle {cm : ConnectionManager} (h : cm.UniqueTriads) (req : ConnRequest) :
    (req.handle cm).2.UniqueTriads := by
  have hspec := req.handle_spec cm
  generalize req.handle cm = result at hspec
  cases hspec with
  | failed => exact h
  | opened _ _ req conn cm' _ hopen =>
    have hunique := h.openConnection req
    rwa [hopen] at hunique
  | closed _ _ req => exact h.closeConnection req

theorem uniqueTriads_managerFrom {cm : ConnectionManager} (h : cm.UniqueTriads)
    (reqs : List ConnRequest) : (managerFrom cm reqs).UniqueTriads := by
  induction reqs generalizing cm with
  | nil => exact h
  | cons req reqs ih => exact ih (uniqueTriads_handle h req)

/-- The request opened a connection with the triad in this state. -/
def ConnRequest.Opens (req : ConnRequest) (cm : ConnectionManager) (t : Triad) : Prop :=
  ∃ reqData open' conn cm', req = .forwardOpen reqData ∧
    decode readForwardOpen reqData = .ok open' ∧ open'.triad = t ∧
    cm.openConnection open' = (.ok conn, cm')

/-- A request after which a triad is in the table that was not there before opened it. -/
theorem opens_of_has {cm : ConnectionManager} {req : ConnRequest} {t : Triad}
    (hunique : cm.UniqueTriads) (hnot : ¬ cm.Has t) (hhas : (req.handle cm).2.Has t) :
    req.Opens cm t := by
  have hspec := req.handle_spec cm
  generalize req.handle cm = result at hspec hhas
  cases hspec with
  | failed => exact absurd hhas hnot
  | opened reqData resp open' conn cm' hreq hopen =>
    have hopenSpec := cm.openConnection_spec open'
    rw [hopen] at hopenSpec
    cases hopenSpec with
    | opened _ _ _ hstored =>
      rcases ConnectionManager.Has.of_insert hstored hhas with ht | hold
      · exact ⟨reqData, open', _, cm', rfl, hreq, ht.symm, hopen⟩
      · exact absurd hold hnot
  | closed reqData resp close hreq =>
    have hcloseSpec := cm.closeConnection_spec close
    generalize cm.closeConnection close = result at hcloseSpec hhas
    cases hcloseSpec with
    | unknown => exact absurd hhas hnot
    | closed id conn cm' hconn _ _ hstored =>
      exact absurd ((hunique.has_iff_of_erase hconn hstored).mp hhas).2 hnot

/-- **A triad that appears in the table was opened** on the way. -/
theorem exists_open_between {cm : ConnectionManager} {reqs : List ConnRequest} {t : Triad}
    (hunique : cm.UniqueTriads) (hnot : ¬ cm.Has t) (hhas : (managerFrom cm reqs).Has t) :
    ∃ before req after, reqs = before ++ req :: after ∧ req.Opens (managerFrom cm before) t := by
  induction reqs generalizing cm with
  | nil => exact absurd hhas hnot
  | cons req reqs ih =>
    by_cases hnext : (req.handle cm).2.Has t
    · exact ⟨[], req, reqs, rfl, opens_of_has hunique hnot hnext⟩
    · obtain ⟨before, req', after, rfl, hopens⟩ := ih (uniqueTriads_handle hunique req) hnext hhas
      exact ⟨req :: before, req', after, rfl, hopens⟩

/-! ### One request -/

/-- What should come of a Forward_Close. If its triad is open, the request succeeds, exactly the
entry with the triad is taken out, and `onClose` is called once, with that connection; otherwise the
connection is reported as not found, and nothing changes. -/
structure CloseReported (cm : ConnectionManager) (reqData : List UInt8)
    (req : ForwardCloseRequest) : Prop where
  closed : cm.Has req.triad → ∃ id conn, cm.stored id = some conn ∧ conn.triad = req.triad ∧
    (cm.serveForwardClose reqData).result = .ok (ConnectionManager.forwardCloseResponse req) ∧
    (cm.serveForwardClose reqData).connMgr.stored = Function.update cm.stored id none ∧
    (cm.serveForwardClose reqData).connMgr.nextConnID = cm.nextConnID ∧
    (cm.serveForwardClose reqData).calls = [conn]
  unknown : ¬ cm.Has req.triad → cm.serveForwardClose reqData =
    ⟨.error (.error (.cip ⟨statusConnectionFailure, [extStatusConnectionNotFound]⟩)), cm, []⟩

/-- A request is read unless it has no path and nothing stands behind it. -/
theorem serveForwardClose_of_carries {reqData : List UInt8} {req : ForwardCloseRequest}
    (h : ForwardCloseRequest.pathRequest.Carries reqData req) (cm : ConnectionManager)
    (hlen : 12 < reqData.length) : cm.serveForwardClose reqData = cm.performClose req := by
  have hdecode := h.decode_eq (Nat.ne_of_gt hlen)
  rw [ForwardCloseRequest.reader_pathRequest] at hdecode
  rw [ConnectionManager.serveForwardClose, hdecode]

/-- A request that holds nothing but its fixed part is not read. -/
theorem serveForwardClose_of_length {reqData : List UInt8} (cm : ConnectionManager)
    (hlen : ¬ 12 < reqData.length) : ∃ e, cm.serveForwardClose reqData = cm.refuse e := by
  rw [ConnectionManager.serveForwardClose]
  cases hdecode : decode readForwardClose reqData with
  | error e => exact ⟨e, rfl⟩
  | ok req =>
    rw [← ForwardCloseRequest.reader_pathRequest] at hdecode
    exact absurd (PathRequest.decode_eq_ok_iff.mp ⟨req, hdecode⟩) hlen

/-- A Forward_Close does and says what it should exactly if its triad is open, and something stands
behind its fixed part. -/
theorem closeReported_iff {cm : ConnectionManager} {reqData : List UInt8}
    {req : ForwardCloseRequest} (h : ForwardCloseRequest.pathRequest.Carries reqData req) :
    CloseReported cm reqData req ↔ cm.Has req.triad ∧ 12 < reqData.length := by
  constructor
  · intro hreported
    by_cases hlen : 12 < reqData.length
    · refine ⟨?_, hlen⟩
      by_contra hnot
      have heq := hreported.unknown hnot
      rw [serveForwardClose_of_carries h cm hlen] at heq
      exact absurd (congrArg ConnectionManager.Effect.result heq) nofun
    · obtain ⟨e, he⟩ := serveForwardClose_of_length cm hlen
      by_cases hhas : cm.Has req.triad
      · obtain ⟨_, _, _, _, hresult, _⟩ := hreported.closed hhas
        rw [he] at hresult
        exact absurd hresult nofun
      · have heq := hreported.unknown hhas
        rw [he] at heq
        exact absurd (congrArg ConnectionManager.Effect.result heq) (by
          simp [ConnectionManager.refuse])
  · rintro ⟨hhas, hlen⟩
    refine ⟨fun _ => ?_, fun hnot => absurd hhas hnot⟩
    rw [serveForwardClose_of_carries h cm hlen, ConnectionManager.performClose]
    have hspec := cm.closeConnection_spec req
    generalize cm.closeConnection req = result at hspec
    cases hspec with
    | unknown hnot => exact absurd hhas hnot
    | closed id conn cm' hconn htriad hnext hstored =>
      exact ⟨id, conn, hconn, htriad, rfl, hstored, hnext, rfl⟩

/-! ### The closes of a run -/

/-- The Forward_Close of the run that comes after the requests `before`. -/
def ClosesAt (reqs before : List ConnRequest) (reqData : List UInt8)
    (req : ForwardCloseRequest) : Prop :=
  (∃ after, reqs = before ++ .forwardClose reqData :: after) ∧
    ForwardCloseRequest.pathRequest.Carries reqData req

/-- What the closes of a run should do and say: each of them what it should, and no two of them
succeed for one triad unless it is opened in between. -/
structure ClosesReported (reqs : List ConnRequest) : Prop where
  each : ∀ before reqData req, ClosesAt reqs before reqData req →
    CloseReported (managerAfter before) reqData req
  not_twice : ∀ before reqData req between reqData' req',
    ClosesAt reqs before reqData req →
    ClosesAt reqs (before ++ .forwardClose reqData :: between) reqData' req' →
    req.triad = req'.triad →
    (∃ resp, ((managerAfter before).serveForwardClose reqData).result = .ok resp) →
    (∃ resp, ((managerAfter (before ++ .forwardClose reqData :: between)).serveForwardClose
      reqData').result = .ok resp) →
    ∃ b req₁ a, between = b ++ req₁ :: a ∧
      req₁.Opens (managerAfter (before ++ .forwardClose reqData :: b)) req.triad

/-- Every Forward_Close of the run is for an open triad, and something stands behind its fixed
part. -/
def ClosesOpen (reqs : List ConnRequest) : Prop :=
  ∀ before reqData req, ClosesAt reqs before reqData req →
    (managerAfter before).Has req.triad ∧ 12 < reqData.length

theorem managerAfter_forwardClose (before between : List ConnRequest) (reqData : List UInt8) :
    managerAfter (before ++ .forwardClose reqData :: between) =
      managerFrom ((managerAfter before).serveForwardClose reqData).connMgr between := by
  rw [managerAfter, managerFrom_append, ← managerAfter]
  change managerFrom ((managerAfter before).handleForwardClose reqData).2 between = _
  rw [ConnectionManager.handleForwardClose_eq]

/-- After a close that was reported the triad is not open. -/
theorem CloseReported.not_has {cm : ConnectionManager} {reqData : List UInt8}
    {req : ForwardCloseRequest} (h : CloseReported cm reqData req) (hunique : cm.UniqueTriads)
    (hhas : cm.Has req.triad) : ¬ (cm.serveForwardClose reqData).connMgr.Has req.triad := by
  obtain ⟨id, conn, hconn, htriad, -, hstored, -⟩ := h.closed hhas
  intro hafter
  exact ((hunique.has_iff_of_erase hconn hstored).mp hafter).1 htriad.symm

/-- **The closes of a run are reported as they should be** exactly if each of them is for an open
triad, and has something behind its fixed part. -/
theorem closesReported_iff (reqs : List ConnRequest) : ClosesReported reqs ↔ ClosesOpen reqs := by
  constructor
  · intro h before reqData req hat
    exact (closeReported_iff hat.2).mp (h.each before reqData req hat)
  · intro h
    refine ⟨fun before reqData req hat => ?_, ?_⟩
    · exact (closeReported_iff hat.2).mpr (h before reqData req hat)
    · intro before reqData req between reqData' req' hat hat' htriad _ _
      have hunique : (managerAfter before).UniqueTriads :=
        uniqueTriads_managerFrom ConnectionManager.uniqueTriads_newConnectionManager before
      have hopen := h before reqData req hat
      have hnot := ((closeReported_iff hat.2).mpr hopen).not_has hunique hopen.1
      have hagain := (h _ reqData' req' hat').1
      rw [← htriad, managerAfter_forwardClose] at hagain
      have hunique' : ((managerAfter before).serveForwardClose reqData).connMgr.UniqueTriads := by
        have hclose := uniqueTriads_handle hunique (.forwardClose reqData)
        rwa [ConnRequest.handle, ConnectionManager.handleForwardClose_eq] at hclose
      -- the triad is gone after the first close, so that it was opened before the second
      obtain ⟨b, req₁, a, rfl, hopens⟩ := exists_open_between hunique' hnot hagain
      refine ⟨b, req₁, a, rfl, ?_⟩
      rwa [managerAfter_forwardClose]

/-- A connection that is closed twice is reported closed twice. -/
theorem not_closesReported_twice :
    ¬ ClosesReported [.forwardOpen (openRequest 1).encode, .forwardClose (closeRequest 1).encode,
      .forwardClose (closeRequest 1).encode] := by
  intro h
  have hcarries : ForwardCloseRequest.pathRequest.Carries (closeRequest 1).encode
      { closeRequest 1 with connectionPathSize := 2 } := ⟨rfl, [], rfl⟩
  have hfirst : ((managerAfter [.forwardOpen (openRequest 1).encode]).serveForwardClose
      (closeRequest 1).encode).result = .ok [1, 0, 1, 0, 1, 0, 0, 0, 0, 0] := by decide +kernel
  have hsecond : ((managerAfter [.forwardOpen (openRequest 1).encode,
      .forwardClose (closeRequest 1).encode]).serveForwardClose (closeRequest 1).encode).result =
        .ok [1, 0, 1, 0, 1, 0, 0, 0, 0, 0] := by decide +kernel
  obtain ⟨b, req, a, hnil, -⟩ := h.not_twice [.forwardOpen (openRequest 1).encode]
    (closeRequest 1).encode _ [] (closeRequest 1).encode _ ⟨⟨_, rfl⟩, hcarries⟩
    ⟨⟨_, rfl⟩, hcarries⟩ rfl ⟨_, hfirst⟩ ⟨_, hsecond⟩
  exact absurd hnil (by simp)

end GoIndustrial.EtherNetIP
