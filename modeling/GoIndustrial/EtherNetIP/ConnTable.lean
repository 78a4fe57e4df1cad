import GoIndustrial.EtherNetIP.Objects
import GoIndustrial.Lib.Table
import Mathlib.Data.Finset.Basic

/-!
# The table of the connection manager

What requests do to the table of open connections. A Forward_Open is refused when its triad is in
the table, and otherwise stored under the next identifier of a counter that starts at
`0x80000000`; a Forward_Close takes the entry with its triad out. The table is seen through the
function that gives the connection stored under an identifier, so that a request updates it at one
place or not at all.

A history is a sequence of requests together with what the answers say: the triads that were opened
successfully and not closed since, and the number of successful opens. As long as the counter has
not wrapped around, the table has one entry for each of these triads.

## Main definitions

* `EtherNetIP.Triad` : what a connection is known by.
* `EtherNetIP.ConnectionManager.stored` : the connection under an identifier.
* `EtherNetIP.TableHistory` : the manager and what its answers say.

## Main results

* `EtherNetIP.ConnectionManager.openConnection_spec`,
  `EtherNetIP.ConnectionManager.closeConnection_spec` : what a request does to the table.
* `EtherNetIP.connection_table` : the table after every history with fewer than 2 ^ 31 opens.
-/

namespace GoIndustrial.EtherNetIP

open ByteReader GoSlice

/-! ### Triads -/

/-- What a connection is known by, over all originators. -/
structure Triad where
  connectionSerialNumber : UInt16
  vendorID : UInt16
  originatorSerialNumber : UInt32
  deriving DecidableEq, Repr

def Connection.triad (conn : Connection) : Triad :=
  ⟨conn.connectionSerialNumber, conn.vendorID, conn.originatorSerialNumber⟩

def ForwardOpenRequest.triad (req : ForwardOpenRequest) : Triad :=
  ⟨req.connectionSerialNumber, req.vendorID, req.originatorSerialNumber⟩

def ForwardCloseRequest.triad (req : ForwardCloseRequest) : Triad :=
  ⟨req.connectionSerialNumber, req.vendorID, req.originatorSerialNumber⟩

theorem Connection.hasTriad_iff {conn : Connection} {serial vendor : UInt16}
    {originator : UInt32} :
    conn.hasTriad serial vendor originator ↔ conn.triad = ⟨serial, vendor, originator⟩ := by
  simp [Connection.hasTriad, Connection.triad, and_assoc]

/-! ### One request -/

namespace ConnectionManager

variable {cm : ConnectionManager}

/-- The connection stored under an identifier. -/
def stored (cm : ConnectionManager) (id : UInt32) : Option Connection := cm.connections.lookup id

theorem mem_entries_iff {id : UInt32} {conn : Connection} :
    (⟨id, conn⟩ : Σ _ : UInt32, Connection) ∈ cm.connections.entries ↔ cm.stored id = some conn :=
  AList.mem_lookup_iff.symm

/-- The triad is in the table. -/
def Has (cm : ConnectionManager) (t : Triad) : Prop :=
  ∃ id conn, cm.stored id = some conn ∧ conn.triad = t

/-- The connection that a Forward_Open makes when it is accepted. -/
def newConnection (cm : ConnectionManager) (req : ForwardOpenRequest) : Connection :=
  ⟨req.otConnectionID, cm.nextConnID + 1, req.connectionSerialNumber, req.vendorID,
    req.originatorSerialNumber⟩

/-- What a Forward_Open does to the table. -/
inductive OpenSpec (cm : ConnectionManager) (req : ForwardOpenRequest) :
    Except CipError Connection × ConnectionManager → Prop
  | duplicate (h : cm.Has req.triad) :
    OpenSpec cm req (.error ⟨statusConnectionFailure, [extStatusConnectionInUse]⟩, cm)
  | opened (cm' : ConnectionManager) (h : ¬ cm.Has req.triad)
      (hnext : cm'.nextConnID = cm.nextConnID + 1)
      (hstored : cm'.stored =
        Function.update cm.stored (cm.nextConnID + 1) (some (cm.newConnection req))) :
    OpenSpec cm req (.ok (cm.newConnection req), cm')

theorem has_iff_any {serial vendor : UInt16} {originator : UInt32} :
    (cm.connections.entries.any fun e => e.2.hasTriad serial vendor originator) = true ↔
      cm.Has ⟨serial, vendor, originator⟩ := by
  rw [List.any_eq_true]
  constructor
  · rintro ⟨⟨id, conn⟩, hmem, htriad⟩
    exact ⟨id, conn, mem_entries_iff.mp hmem, Connection.hasTriad_iff.mp htriad⟩
  · rintro ⟨id, conn, hmem, htriad⟩
    exact ⟨⟨id, conn⟩, mem_entries_iff.mpr hmem, Connection.hasTriad_iff.mpr htriad⟩

theorem stored_insert (connections : AList fun _ : UInt32 => Connection) (id nextConnID : UInt32)
    (conn : Connection) :
    (⟨connections.insert id conn, nextConnID⟩ : ConnectionManager).stored =
      Function.update (⟨connections, nextConnID⟩ : ConnectionManager).stored id (some conn) := by
  funext id'
  by_cases h : id' = id
  · subst h
    rw [Function.update_self]
    exact AList.lookup_insert connections
  · rw [Function.update_of_ne h]
    exact AList.lookup_insert_ne h

theorem stored_erase (connections : AList fun _ : UInt32 => Connection) (id nextConnID : UInt32) :
    (⟨connections.erase id, nextConnID⟩ : ConnectionManager).stored =
      Function.update (⟨connections, nextConnID⟩ : ConnectionManager).stored id none := by
  funext id'
  by_cases h : id' = id
  · subst h
    rw [Function.update_self]
    exact AList.lookup_erase _ connections
  · rw [Function.update_of_ne h]
    exact AList.lookup_erase_ne h

theorem openConnection_spec (cm : ConnectionManager) (req : ForwardOpenRequest) :
    OpenSpec cm req (cm.openConnection req) := by
  rw [openConnection]
  split_ifs with h
  · exact .duplicate (has_iff_any.mp h)
  · exact .opened _ (fun hhas => h (has_iff_any.mpr hhas)) rfl (stored_insert _ _ _ _)

/-- What a Forward_Close does to the table. -/
inductive CloseSpec (cm : ConnectionManager) (req : ForwardCloseRequest) :
    Option Connection × ConnectionManager → Prop
  | unknown (h : ¬ cm.Has req.triad) : CloseSpec cm req (none, cm)
  | closed (id : UInt32) (conn : Connection) (cm' : ConnectionManager)
      (h : cm.stored id = some conn) (htriad : conn.triad = req.triad)
      (hnext : cm'.nextConnID = cm.nextConnID)
      (hstored : cm'.stored = Function.update cm.stored id none) :
    CloseSpec cm req (some conn, cm')

theorem closeConnection_spec (cm : ConnectionManager) (req : ForwardCloseRequest) :
    CloseSpec cm req (cm.closeConnection req) := by
  rw [closeConnection]
  split
  · rename_i hnone
    refine .unknown fun hhas => ?_
    obtain ⟨e, hmem, htriad⟩ := List.any_eq_true.mp (has_iff_any.mpr hhas)
    exact List.find?_eq_none.mp hnone e hmem htriad
  · rename_i e hsome
    have htriad := List.find?_some hsome
    exact .closed e.1 e.2 _ (mem_entries_iff.mp (List.mem_of_find?_eq_some hsome))
      (Connection.hasTriad_iff.mp htriad) rfl (stored_erase _ _ _)

theorem has_of_stored {id : UInt32} {conn : Connection} (h : cm.stored id = some conn) :
    cm.Has conn.triad := ⟨id, conn, h, rfl⟩

/-- A triad after a connection has been put into the table is its triad or was there. -/
theorem Has.of_insert {cm' : ConnectionManager} {id : UInt32} {conn : Connection}
    (h : cm'.stored = Function.update cm.stored id (some conn)) {t : Triad} (hhas : cm'.Has t) :
    t = conn.triad ∨ cm.Has t := by
  obtain ⟨id', conn', hstored, rfl⟩ := hhas
  rw [h, Table.update_some_eq_some] at hstored
  rcases hstored with ⟨-, rfl⟩ | ⟨-, hstored⟩
  · exact .inl rfl
  · exact .inr (has_of_stored hstored)

/-- The triads after a connection has been put into a free place of the table. -/
theorem has_iff_of_insert {cm' : ConnectionManager} {id : UInt32} {conn : Connection}
    (hnone : cm.stored id = none) (h : cm'.stored = Function.update cm.stored id (some conn))
    {t : Triad} : cm'.Has t ↔ t = conn.triad ∨ cm.Has t := by
  refine ⟨Has.of_insert h, ?_⟩
  rintro (rfl | ⟨id', conn', hstored, rfl⟩)
  · exact has_of_stored (h ▸ Function.update_self id _ _)
  · have hne : id' ≠ id := by
      rintro rfl
      rw [hnone] at hstored
      cases hstored
    have hstored' : cm'.stored id' = some conn' := by
      rw [h, Function.update_of_ne hne, hstored]
    exact has_of_stored hstored'

/-- The entries with one triad are one entry. -/
theorem UniqueTriads.eq (h : cm.UniqueTriads) {id id' : UInt32} {conn conn' : Connection}
    (hid : cm.stored id = some conn) (hid' : cm.stored id' = some conn')
    (htriad : conn.triad = conn'.triad) : id = id' := by
  by_contra hne
  have hsymm : Std.Symm fun e e' : Σ _ : UInt32, Connection => ¬ e'.2.hasTriad
      e.2.connectionSerialNumber e.2.vendorID e.2.originatorSerialNumber :=
    ⟨fun _ _ h h' => h (Connection.hasTriad_iff.mpr (Connection.hasTriad_iff.mp h').symm)⟩
  exact h.forall (mem_entries_iff.mpr hid) (mem_entries_iff.mpr hid')
    (fun he => hne (congrArg Sigma.fst he)) (Connection.hasTriad_iff.mpr htriad.symm)

/-- The triads after a connection has been taken out of the table. -/
theorem UniqueTriads.has_iff_of_erase (hunique : cm.UniqueTriads) {cm' : ConnectionManager}
    {id : UInt32} {conn : Connection} (hconn : cm.stored id = some conn)
    (h : cm'.stored = Function.update cm.stored id none) {t : Triad} :
    cm'.Has t ↔ t ≠ conn.triad ∧ cm.Has t := by
  constructor
  · rintro ⟨id', conn', hstored, rfl⟩
    rw [h, Table.update_none_eq_some] at hstored
    exact ⟨fun htriad => hstored.1 (hunique.eq hstored.2 hconn htriad), has_of_stored hstored.2⟩
  · rintro ⟨hne, id', conn', hstored, rfl⟩
    have hid : id' ≠ id := by
      rintro rfl
      exact hne (congrArg _ (Option.some.inj (hstored.symm.trans hconn)))
    have hstored' : cm'.stored id' = some conn' := by
      rw [h, Function.update_of_ne hid, hstored]
    exact has_of_stored hstored'

end ConnectionManager

/-! ### Histories -/

/-- A request to the connection manager, with its service data. -/
inductive ConnRequest
  | forwardOpen (reqData : List UInt8)
  | forwardClose (reqData : List UInt8)
  deriving DecidableEq, Repr

namespace ConnRequest

def handle : ConnRequest → ConnectionManager →
    Except (Fault Err) (List UInt8) × ConnectionManager
  | forwardOpen reqData, cm => cm.handleForwardOpen reqData
  | forwardClose reqData, cm => cm.handleForwardClose reqData

/-- What becomes of a request. -/
inductive HandleSpec (cm : ConnectionManager) :
    ConnRequest → Except (Fault Err) (List UInt8) × ConnectionManager → Prop
  | failed (req : ConnRequest) (e : Err) : HandleSpec cm req (.error (.error e), cm)
  | opened (reqData resp : List UInt8) (req : ForwardOpenRequest) (conn : Connection)
      (cm' : ConnectionManager) (hreq : decode readForwardOpen reqData = .ok req)
      (h : cm.openConnection req = (.ok conn, cm')) :
    HandleSpec cm (.forwardOpen reqData) (.ok resp, cm')
  | closed (reqData resp : List UInt8) (req : ForwardCloseRequest)
      (hreq : decode readForwardClose reqData = .ok req) :
    HandleSpec cm (.forwardClose reqData) (.ok resp, (cm.closeConnection req).2)

theorem handle_spec (req : ConnRequest) (cm : ConnectionManager) :
    HandleSpec cm req (req.handle cm) := by
  cases req with
  | forwardOpen reqData =>
    rw [handle, ConnectionManager.handleForwardOpen]
    split
    · exact .failed _ _
    · rename_i req hreq
      have hspec := cm.openConnection_spec req
      generalize hresult : cm.openConnection req = result at hspec
      cases hspec with
      | duplicate => exact .failed _ _
      | opened => exact .opened _ _ _ _ _ hreq hresult
  | forwardClose reqData =>
    rw [handle, ConnectionManager.handleForwardClose]
    split
    · exact .failed _ _
    · rename_i req hreq
      exact .closed _ _ _ hreq

end ConnRequest

/-- The manager after some requests, and what the answers to them say. -/
structure TableHistory where
  connMgr : ConnectionManager
  /-- The triads that were opened successfully and not closed since. -/
  openTriads : Finset Triad
  /-- How often a connection was opened successfully. -/
  opens : ℕ

namespace TableHistory

def new : TableHistory := ⟨.newConnectionManager, ∅, 0⟩

/-- A request that succeeds opens or closes the triad in it. -/
def serve (s : TableHistory) (req : ConnRequest) : TableHistory :=
  match req.handle s.connMgr with
  | (.error _, connMgr) => { s with connMgr }
  | (.ok _, connMgr) =>
    match req with
    | .forwardOpen reqData =>
      match decode readForwardOpen reqData with
      | .ok req => ⟨connMgr, insert req.triad s.openTriads, s.opens + 1⟩
      | .error _ => { s with connMgr }
    | .forwardClose reqData =>
      match decode readForwardClose reqData with
      | .ok req => ⟨connMgr, s.openTriads.erase req.triad, s.opens⟩
      | .error _ => { s with connMgr }

/-- The table has an entry for each open triad, under its own identifier, and the counter has
counted the opens. -/
structure Inv (s : TableHistory) : Prop where
  unique : s.connMgr.UniqueTriads
  mem_openTriads : ∀ t, t ∈ s.openTriads ↔ s.connMgr.Has t
  stored_id : ∀ id conn, s.connMgr.stored id = some conn → conn.toConnectionID = id
  id_bounds : ∀ id conn, s.connMgr.stored id = some conn →
    0x80000000 < id.toNat ∧ id.toNat ≤ s.connMgr.nextConnID.toNat
  nextConnID : s.connMgr.nextConnID.toNat = 0x80000000 + s.opens

theorem inv_new : new.Inv where
  unique := ConnectionManager.uniqueTriads_newConnectionManager
  mem_openTriads _ := ⟨fun h => absurd h (Finset.notMem_empty _), fun ⟨_, _, h, _⟩ => nomatch h⟩
  stored_id _ _ h := nomatch h
  id_bounds _ _ h := nomatch h
  nextConnID := rfl

/-- The next identifier has not been given out. -/
theorem Inv.stored_next {s : TableHistory} (hi : s.Inv) (hopens : s.opens + 1 < 2 ^ 31) :
    (s.connMgr.nextConnID + 1).toNat = s.connMgr.nextConnID.toNat + 1 ∧
      s.connMgr.stored (s.connMgr.nextConnID + 1) = none := by
  have hcount := hi.nextConnID
  have hone : (1 : UInt32).toNat = 1 := rfl
  have hid : (s.connMgr.nextConnID + 1).toNat = s.connMgr.nextConnID.toNat + 1 := by
    rw [UInt32.toNat_add, hone]
    exact Nat.mod_eq_of_lt (by omega)
  refine ⟨hid, ?_⟩
  match hstored : s.connMgr.stored (s.connMgr.nextConnID + 1) with
  | none => rfl
  | some conn =>
    have hle := (hi.id_bounds _ _ hstored).2
    omega

/-- A successful open. -/
theorem Inv.openConnection {s : TableHistory} (hi : s.Inv) (hopens : s.opens + 1 < 2 ^ 31)
    {req : ForwardOpenRequest} {conn : Connection} {cm : ConnectionManager}
    (h : s.connMgr.openConnection req = (.ok conn, cm)) :
    (⟨cm, insert req.triad s.openTriads, s.opens + 1⟩ : TableHistory).Inv := by
  have hunique := hi.unique.openConnection req
  have hspec := s.connMgr.openConnection_spec req
  rw [h] at hunique hspec
  cases hspec with
  | opened _ hnew hnext hstored =>
    have hcount := hi.nextConnID
    obtain ⟨hid, hnone⟩ := hi.stored_next hopens
    refine ⟨hunique, fun t => ?_, ?_, ?_, ?_⟩
    · rw [Finset.mem_insert, ConnectionManager.has_iff_of_insert hnone hstored, hi.mem_openTriads]
      rfl
    · rw [hstored]
      exact Table.forall_update_some hi.stored_id rfl
    · rw [hstored, hnext]
      refine Table.forall_update_some (fun id conn hconn => ?_) ?_
      · have hbounds := hi.id_bounds id conn hconn
        omega
      · omega
    · rw [hnext, hid, hcount, Nat.add_assoc]

theorem Inv.closeConnection {s : TableHistory} (hi : s.Inv) (req : ForwardCloseRequest) :
    (⟨(s.connMgr.closeConnection req).2, s.openTriads.erase req.triad, s.opens⟩ :
      TableHistory).Inv := by
  have hunique := hi.unique.closeConnection req
  have hspec := s.connMgr.closeConnection_spec req
  generalize s.connMgr.closeConnection req = result at hunique hspec
  cases hspec with
  | unknown hnot =>
    refine ⟨hunique, fun t => ?_, hi.stored_id, hi.id_bounds, hi.nextConnID⟩
    rw [Finset.mem_erase, hi.mem_openTriads]
    exact and_iff_right_of_imp fun hhas heq => hnot (heq ▸ hhas)
  | closed id conn cm hconn htriad hnext hstored =>
    refine ⟨hunique, fun t => ?_, ?_, ?_, ?_⟩
    · rw [Finset.mem_erase, hi.unique.has_iff_of_erase hconn hstored, hi.mem_openTriads, htriad]
    · rw [hstored]
      exact Table.forall_update_none hi.stored_id
    · rw [hstored, hnext]
      exact Table.forall_update_none hi.id_bounds
    · rw [hnext]
      exact hi.nextConnID

theorem Inv.serve {s : TableHistory} (hi : s.Inv) (req : ConnRequest)
    (hopens : (s.serve req).opens < 2 ^ 31) : (s.serve req).Inv := by
  have hspec := req.handle_spec s.connMgr
  rw [TableHistory.serve] at hopens ⊢
  generalize req.handle s.connMgr = result at hspec hopens
  cases hspec with
  | failed => exact hi
  | opened reqData resp req conn cm hreq h =>
    simp only [hreq] at hopens ⊢
    exact hi.openConnection hopens h
  | closed reqData resp req hreq =>
    simp only [hreq]
    exact hi.closeConnection req

theorem opens_le_serve (s : TableHistory) (req : ConnRequest) : s.opens ≤ (s.serve req).opens := by
  rw [TableHistory.serve]
  split
  · rfl
  · split
    · split
      · exact Nat.le_succ _
      · rfl
    · split <;> rfl

/-- The invariant after a sequence of requests; the opens do not get fewer on the way. -/
theorem Inv.serveAll {s : TableHistory} (hi : s.Inv) (reqs : List ConnRequest)
    (hopens : (reqs.foldl TableHistory.serve s).opens < 2 ^ 31) :
    (reqs.foldl TableHistory.serve s).Inv := by
  have hmono (reqs : List ConnRequest) (s : TableHistory) :
      s.opens ≤ (reqs.foldl TableHistory.serve s).opens := by
    induction reqs generalizing s with
    | nil => rfl
    | cons req reqs ih => exact (s.opens_le_serve req).trans (ih _)
  induction reqs generalizing s with
  | nil => exact hi
  | cons req reqs ih =>
    exact ih (hi.serve req (Nat.lt_of_le_of_lt (hmono reqs _) hopens)) hopens

end TableHistory

/-- **The table after every history** with fewer than 2 ^ 31 successful opens: it has exactly one
entry for each triad that was opened successfully and not closed since; each entry is stored under
its own identifier, the identifiers are distinct and at least `0x80000001`; and a request that fails
leaves the table and the counter as they are. -/
theorem connection_table (reqs : List ConnRequest)
    (hopens : (reqs.foldl TableHistory.serve .new).opens < 2 ^ 31) :
    let s := reqs.foldl TableHistory.serve .new
    (∀ t, t ∈ s.openTriads → ∃! e, e ∈ s.connMgr.connections.entries ∧ e.2.triad = t) ∧
    (∀ e ∈ s.connMgr.connections.entries, e.2.triad ∈ s.openTriads ∧
      e.1 = e.2.toConnectionID ∧ 0x80000001 ≤ e.2.toConnectionID) ∧
    (s.connMgr.connections.entries.map fun e => e.2.toConnectionID).Nodup ∧
    ∀ (req : ConnRequest) (e : Fault Err), (req.handle s.connMgr).1 = .error e →
      (req.handle s.connMgr).2 = s.connMgr := by
  intro s
  have hi : s.Inv := TableHistory.inv_new.serveAll reqs hopens
  refine ⟨fun t ht => ?_, fun ⟨id, conn⟩ he => ?_, ?_, fun req e h => ?_⟩
  · obtain ⟨id, conn, hconn, rfl⟩ := (hi.mem_openTriads t).mp ht
    refine ⟨⟨id, conn⟩, ⟨ConnectionManager.mem_entries_iff.mpr hconn, rfl⟩, ?_⟩
    rintro ⟨id', conn'⟩ ⟨hmem, htriad⟩
    have hconn' := ConnectionManager.mem_entries_iff.mp hmem
    obtain rfl := hi.unique.eq hconn' hconn htriad
    rw [Option.some.inj (hconn'.symm.trans hconn)]
  · have hconn := ConnectionManager.mem_entries_iff.mp he
    have hbounds := hi.id_bounds id conn hconn
    refine ⟨(hi.mem_openTriads _).mpr ⟨id, conn, hconn, rfl⟩, (hi.stored_id id conn hconn).symm, ?_⟩
    rw [hi.stored_id id conn hconn, UInt32.le_iff_toNat_le]
    exact hbounds.1
  · have hids : (s.connMgr.connections.entries.map fun e => e.2.toConnectionID) =
        s.connMgr.connections.keys :=
      List.map_congr_left fun e he =>
        hi.stored_id e.1 e.2 (ConnectionManager.mem_entries_iff.mp he)
    rw [hids]
    exact s.connMgr.connections.keys_nodup
  · have hspec := req.handle_spec s.connMgr
    generalize req.handle s.connMgr = result at hspec h
    cases hspec with
    | failed => rfl
    | opened => cases h
    | closed => cases h

/-- A request for a connection, known by its serial number. -/
def openRequest (serial : UInt16) : ForwardOpenRequest :=
  ⟨0x0A, 0xF0, 1, 0, serial, 1, 1, 0, Vector.replicate 3 0, 10000, 0x4004, 10000, 0x4004, 0x01, 0,
    [0x20, 0x04, 0x24, 0x01]⟩

def closeRequest (serial : UInt16) : ForwardCloseRequest :=
  ⟨0x0A, 0xF0, serial, 1, 1, 0, 0, [0x20, 0x04, 0x24, 0x01]⟩

/-- A duplicate, a request that cannot be read, and one of two connections closed. -/
def shortHistory : List ConnRequest :=
  [.forwardOpen (openRequest 1).encode, .forwardOpen (openRequest 1).encode, .forwardClose [],
    .forwardOpen (openRequest 2).encode, .forwardClose (closeRequest 1).encode]

theorem connection_table_shortHistory :
    (shortHistory.foldl TableHistory.serve .new).opens = 2 ∧
      (shortHistory.foldl TableHistory.serve .new).openTriads = {⟨2, 1, 1⟩} ∧
      ∃! e, e ∈ (shortHistory.foldl TableHistory.serve .new).connMgr.connections.entries ∧
        e.2.triad = ⟨2, 1, 1⟩ := by
  have hopens : (shortHistory.foldl TableHistory.serve .new).opens = 2 := by decide +kernel
  have htriads : (shortHistory.foldl TableHistory.serve .new).openTriads = {⟨2, 1, 1⟩} := by
    decide +kernel
  have htable := connection_table shortHistory (by rw [hopens]; decide)
  exact ⟨hopens, htriads, htable.1 _ (htriads ▸ Finset.mem_singleton_self _)⟩

end GoIndustrial.EtherNetIP
