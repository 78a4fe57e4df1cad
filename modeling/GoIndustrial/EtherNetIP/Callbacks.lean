import GoIndustrial.EtherNetIP.ConnTable
import GoIndustrial.EtherNetIP.Negotiation
import Mathlib.Data.List.Flatten
import Mathlib.Data.List.Nodup

/-!
# The callbacks of the adapter

The adapter of `examples/ethernetip/adapter/main.go` adds two cyclic connections to its runtime when
the connection manager has opened a connection, and removes them when it has closed one. The
connection that consumes is stored under the identifier that the scanner chose, the one that
produces under the identifier that the manager chose, and both are in one table. A scanner counts
its identifiers from one, whatever other scanners do, so that the connections of two scanners are in
each other's place unless the identifiers differ by chance.

Requests are served here one after the other, each with its callback.

## Main definitions

* `EtherNetIP.Runtime.onOpen`, `EtherNetIP.Runtime.onClose` : the callbacks.
* `EtherNetIP.serveOpens` : the connections after a sequence of requests.
* `EtherNetIP.NoDisplacement` : every connection is where its callback has put it.

## Main results

* `EtherNetIP.serveOpens_eq` : requests with different triads are all accepted.
* `EtherNetIP.noDisplacement_iff` : when no connection takes another's place.
-/

namespace GoIndustrial.EtherNetIP

/-! ### The callbacks -/

/-- The instance, if it is registered. -/
def AssemblyObject.getInstance (ao : AssemblyObject) (instanceID : UInt32) : Option UInt32 :=
  (ao.instances instanceID).map fun _ => instanceID

/-- The interval of both connections, in nanoseconds. -/
def callbackRPI (req : ForwardOpenRequest) : ℤ :=
  if req.otRPI.toNat * 1000 < 1000000 then 10000000 else req.otRPI.toNat * 1000

/-- Receives what the scanner sends. -/
def consumer (ao : AssemblyObject) (c : Connection) (req : ForwardOpenRequest) : IOConnection where
  connectionID := c.otConnectionID
  rpi := callbackRPI req
  sequenceCount := 0
  runIdleHeader := false
  remoteAddr := none
  assembly := ao.getInstance 100
  lastReceive := 0
  lastSend := 0
  timeoutMult := req.connectionTimeoutMultiplier
  isProducer := false
  isConsumer := true

/-- Sends to the scanner. -/
def producer (ao : AssemblyObject) (c : Connection) (req : ForwardOpenRequest) : IOConnection where
  connectionID := c.toConnectionID
  rpi := callbackRPI req
  sequenceCount := 0
  runIdleHeader := false
  remoteAddr := none
  assembly := ao.getInstance 101
  lastReceive := 0
  lastSend := 0
  timeoutMult := 0
  isProducer := true
  isConsumer := false

/-- A request, and the times at which its callback adds the two connections. -/
structure OpenEvent where
  req : ForwardOpenRequest
  consumerAdded : ℤ
  producerAdded : ℤ

/-- A request that was accepted. -/
structure Opened extends OpenEvent where
  conn : Connection

namespace Runtime

def onOpen (r : Runtime) (o : Opened) : Runtime :=
  (r.addConnection (consumer r.assemblyObj o.conn o.req) o.consumerAdded).addConnection
    (producer r.assemblyObj o.conn o.req) o.producerAdded

def onClose (r : Runtime) (c : Connection) : Runtime :=
  (r.removeConnection c.otConnectionID).removeConnection c.toConnectionID

end Runtime

/-- The identifiers under which the runtime has the two connections. -/
def Opened.ids (o : Opened) : List UInt32 := [o.conn.otConnectionID, o.conn.toConnectionID]

/-- Serve requests one after the other. -/
def serveOpens : ConnectionManager → Runtime → List OpenEvent → List Opened × Runtime
  | _, r, [] => ([], r)
  | cm, r, e :: es =>
    match cm.openConnection e.req with
    | (.error _, cm) => serveOpens cm r es
    | (.ok conn, cm) =>
      let (opened, r) := serveOpens cm (r.onOpen ⟨e, conn⟩) es
      (⟨e, conn⟩ :: opened, r)

/-! ### What the runtime has -/

namespace Runtime

variable {r r' : Runtime} {o o' : Opened}

/-- Both connections are as the callback has added them. -/
structure Keeps (r : Runtime) (o : Opened) : Prop where
  consumer : r.connections o.conn.otConnectionID =
    some { EtherNetIP.consumer r.assemblyObj o.conn o.req with lastReceive := o.consumerAdded }
  producer : r.connections o.conn.toConnectionID =
    some { EtherNetIP.producer r.assemblyObj o.conn o.req with lastReceive := o.producerAdded }

theorem Keeps.congr (h : r.Keeps o) (hao : r'.assemblyObj = r.assemblyObj)
    (hids : ∀ id ∈ o.ids, r'.connections id = r.connections id) : r'.Keeps o where
  consumer := by rw [hids _ (by simp [Opened.ids]), hao, h.consumer]
  producer := by rw [hids _ (by simp [Opened.ids]), hao, h.producer]

theorem connections_onOpen_of_notMem (r : Runtime) {id : UInt32} (h : id ∉ o.ids) :
    (r.onOpen o).connections id = r.connections id := by
  simp only [Opened.ids, List.mem_cons, List.not_mem_nil, or_false, not_or] at h
  exact (Function.update_of_ne h.2 _ _).trans (Function.update_of_ne h.1 _ _)

theorem connections_onClose_of_notMem (r : Runtime) {id : UInt32} (h : id ∉ o.ids) :
    (r.onClose o.conn).connections id = r.connections id := by
  simp only [Opened.ids, List.mem_cons, List.not_mem_nil, or_false, not_or] at h
  exact (Function.update_of_ne h.2 _ _).trans (Function.update_of_ne h.1 _ _)

theorem keeps_onOpen (r : Runtime) (h : o.ids.Nodup) : (r.onOpen o).Keeps o where
  consumer := by
    have hne : o.conn.otConnectionID ≠ o.conn.toConnectionID := by simpa [Opened.ids] using h
    exact (Function.update_of_ne hne _ _).trans (Function.update_self _ _ _)
  producer := Function.update_self _ _ _

/-- The connections that are added later do not matter. -/
theorem Keeps.foldl_onOpen {os : List Opened} (h : r.Keeps o)
    (hos : ∀ o' ∈ os, o.ids.Disjoint o'.ids) : (os.foldl onOpen r).Keeps o := by
  induction os generalizing r with
  | nil => exact h
  | cons o' os ih =>
    have hdisjoint := hos o' List.mem_cons_self
    refine ih (h.congr rfl fun id hid => ?_) fun o'' ho'' => hos o'' (List.mem_cons_of_mem _ ho'')
    exact connections_onOpen_of_notMem r (hdisjoint hid)

theorem keeps_foldl_onOpen {os : List Opened} (r : Runtime) (h : (os.flatMap Opened.ids).Nodup)
    (ho : o ∈ os) : (os.foldl onOpen r).Keeps o := by
  induction os generalizing r with
  | nil => cases ho
  | cons o' os ih =>
    rw [List.flatMap_cons, List.nodup_append'] at h
    obtain ⟨hids, hrest, hdisjoint⟩ := h
    rcases List.mem_cons.mp ho with rfl | ho
    · refine (keeps_onOpen r hids).foldl_onOpen fun o' ho' id hid hid' => ?_
      exact hdisjoint hid (List.mem_flatMap.mpr ⟨o', ho', hid'⟩)
    · exact ih (r.onOpen o') hrest ho

end Runtime

/-! ### The identifiers -/

/-- What the manager makes of requests that it accepts one after the other. -/
def assigned : UInt32 → List OpenEvent → List Opened
  | _, [] => []
  | nextConnID, e :: es =>
    ⟨e, ⟨e.req.otConnectionID, nextConnID + 1, e.req.connectionSerialNumber, e.req.vendorID,
      e.req.originatorSerialNumber⟩⟩ :: assigned (nextConnID + 1) es

/-- Requests whose triads are new and different are all accepted. -/
theorem serveOpens_eq {cm : ConnectionManager} {es : List OpenEvent} (r : Runtime)
    (htriads : (es.map fun e => e.req.triad).Nodup) (hnew : ∀ e ∈ es, ¬ cm.Has e.req.triad) :
    serveOpens cm r es =
      (assigned cm.nextConnID es, (assigned cm.nextConnID es).foldl Runtime.onOpen r) := by
  induction es generalizing cm r with
  | nil => rfl
  | cons e es ih =>
    rw [List.map_cons, List.nodup_cons] at htriads
    have hspec := cm.openConnection_spec e.req
    generalize hresult : cm.openConnection e.req = result at hspec
    cases hspec with
    | duplicate h => exact absurd h (hnew e List.mem_cons_self)
    | opened cm' _ hnext hstored =>
      have hnew' : ∀ e' ∈ es, ¬ cm'.Has e'.req.triad := by
        intro e' he' hhas
        rcases hhas.of_insert hstored with heq | hhas
        · exact htriads.1 (List.mem_map.mpr ⟨e', he', heq⟩)
        · exact hnew e' (List.mem_cons_of_mem _ he') hhas
      rw [serveOpens, hresult]
      simp only [ih _ htriads.2 hnew', hnext]
      rfl

theorem map_otConnectionID_assigned (nextConnID : UInt32) (es : List OpenEvent) :
    (assigned nextConnID es).map (fun o => o.conn.otConnectionID) =
      es.map fun e => e.req.otConnectionID := by
  induction es generalizing nextConnID with
  | nil => rfl
  | cons e es ih => rw [assigned, List.map_cons, List.map_cons, ih]

/-- The manager counts. -/
theorem map_toConnectionID_assigned (nextConnID : UInt32) (es : List OpenEvent) :
    (assigned nextConnID es).map (fun o => o.conn.toConnectionID) =
      (List.range es.length).map fun k => nextConnID + 1 + UInt32.ofNat k := by
  induction es generalizing nextConnID with
  | nil => rfl
  | cons e es ih =>
    rw [assigned, List.map_cons, ih, List.length_cons, List.range_succ_eq_map, List.map_cons,
      List.map_map]
    congr 1
    · simp
    · refine List.map_congr_left fun k _ => ?_
      rw [Function.comp_apply, Nat.succ_eq_add_one, UInt32.ofNat_add,
        UInt32.add_assoc (nextConnID + 1), UInt32.add_comm 1]
      rfl

/-- Two identifiers for each are all different when the identifiers of each kind are, and no
identifier of one kind is one of the other. -/
theorem nodup_flatMap_ids {os : List Opened} :
    (os.flatMap Opened.ids).Nodup ↔
      (os.map fun o => o.conn.otConnectionID).Nodup ∧
        (os.map fun o => o.conn.toConnectionID).Nodup ∧
        (os.map fun o => o.conn.otConnectionID).Disjoint
          (os.map fun o => o.conn.toConnectionID) := by
  have hperm := List.flatMap_append_perm os (fun o => [o.conn.otConnectionID])
    fun o => [o.conn.toConnectionID]
  rw [← List.map_eq_flatMap, ← List.map_eq_flatMap] at hperm
  rw [← List.nodup_append', hperm.nodup_iff]
  rfl

/-- There are no more different identifiers than numbers of 32 bits. -/
theorem length_le_of_nodup {ids : List UInt32} (h : ids.Nodup) : ids.length ≤ 2 ^ 32 := by
  have hnodup : (ids.map UInt32.toNat).Nodup := h.map fun _ _ heq => UInt32.toNat_inj.mp heq
  have hsubset : ids.map UInt32.toNat ⊆ List.range (2 ^ 32) := by
    intro x hx
    obtain ⟨id, -, rfl⟩ := List.mem_map.mp hx
    exact List.mem_range.mpr id.toNat_lt
  have hle := (hnodup.subperm hsubset).length_le
  rwa [List.length_map, List.length_range] at hle

/-- A counter of 32 bits does not come back to a number before it has gone through all. -/
theorem nodup_counted (first : UInt32) {n : ℕ} (hn : n ≤ 2 ^ 32) :
    ((List.range n).map fun k => first + UInt32.ofNat k).Nodup := by
  refine List.nodup_range.map_on fun k hk k' hk' heq => ?_
  rw [List.mem_range] at hk hk'
  have hnat := congrArg UInt32.toNat ((UInt32.add_right_inj first).mp heq)
  rw [UInt32.toNat_ofNat', UInt32.toNat_ofNat'] at hnat
  omega

/-! ### Displacement -/

/-- The connections of different requests are all under different identifiers, every one is where
its callback has put it, and closing one leaves the others there. -/
structure NoDisplacement (opened : List Opened) (r : Runtime) : Prop where
  distinct : (opened.flatMap Opened.ids).Nodup
  keeps : ∀ o ∈ opened, r.Keeps o
  close_keeps : ∀ o ∈ opened, ∀ o' ∈ opened, o ≠ o' → (r.onClose o.conn).Keeps o'

/-- Different identifiers are enough. -/
theorem noDisplacement_foldl {os : List Opened} (r : Runtime)
    (h : (os.flatMap Opened.ids).Nodup) : NoDisplacement os (os.foldl Runtime.onOpen r) := by
  refine ⟨h, fun o ho => Runtime.keeps_foldl_onOpen r h ho, fun o ho o' ho' hne => ?_⟩
  have hsymm : Std.Symm (Function.onFun List.Disjoint Opened.ids) := ⟨fun _ _ h => h.symm⟩
  have hdisjoint : o'.ids.Disjoint o.ids := (List.nodup_flatMap.mp h).2.forall ho' ho hne.symm
  refine (Runtime.keeps_foldl_onOpen r h ho').congr rfl fun id hid => ?_
  exact Runtime.connections_onClose_of_notMem _ (hdisjoint hid)

/-- When the identifiers of requests to a new manager are all different. -/
theorem nodup_ids_assigned {es : List OpenEvent} :
    ((assigned 0x80000000 es).flatMap Opened.ids).Nodup ↔
      (es.map fun e => e.req.otConnectionID).Nodup ∧
        ∀ e ∈ es, ∀ k < es.length, e.req.otConnectionID ≠ 0x80000001 + UInt32.ofNat k := by
  rw [nodup_flatMap_ids, map_otConnectionID_assigned, map_toConnectionID_assigned]
  constructor
  · rintro ⟨hots, -, hdisjoint⟩
    refine ⟨hots, fun e he k hk heq => ?_⟩
    exact hdisjoint (List.mem_map.mpr ⟨e, he, heq⟩)
      (List.mem_map.mpr ⟨k, List.mem_range.mpr hk, rfl⟩)
  · rintro ⟨hots, hne⟩
    have hlength := length_le_of_nodup hots
    rw [List.length_map] at hlength
    refine ⟨hots, nodup_counted _ hlength, fun id hot hto => ?_⟩
    obtain ⟨e, he, rfl⟩ := List.mem_map.mp hot
    obtain ⟨k, hk, heq⟩ := List.mem_map.mp hto
    exact hne e he k (List.mem_range.mp hk) heq.symm

/-- **No connection takes another's place**, after requests with different triads, exactly when the
identifiers that the scanners chose are all different and none of them is one that the manager has
chosen. -/
theorem noDisplacement_iff (ao : AssemblyObject) (es : List OpenEvent)
    (htriads : (es.map fun e => e.req.triad).Nodup) :
    NoDisplacement (serveOpens .newConnectionManager (.newRuntime ao) es).1
        (serveOpens .newConnectionManager (.newRuntime ao) es).2 ↔
      (es.map fun e => e.req.otConnectionID).Nodup ∧
        ∀ e ∈ es, ∀ k < es.length, e.req.otConnectionID ≠ 0x80000001 + UInt32.ofNat k := by
  have hnew : ∀ e ∈ es, ¬ ConnectionManager.newConnectionManager.Has e.req.triad :=
    fun _ _ ⟨_, _, h, _⟩ => nomatch h
  rw [serveOpens_eq _ htriads hnew, ← nodup_ids_assigned]
  exact ⟨NoDisplacement.distinct, noDisplacement_foldl _⟩

/-- The next request of a scanner with the vendor number that has made `n` requests. -/
def nextRequest (vendorID : UInt16) (n : UInt32) : OpenEvent where
  req := { Originator.newIOScanner vendorID 1 with
    nextOTID := n, nextSerial := n }.forwardOpenRequest
      ⟨100, 101, 0, 4, 4, 10000000, 0, false, none, none⟩
  consumerAdded := 0
  producerAdded := 0

/-- One scanner that opens two connections. -/
theorem noDisplacement_one_scanner :
    let events : List OpenEvent := [nextRequest 1 0, nextRequest 1 1]
    (events.map fun e => e.req.triad).Nodup ∧
      NoDisplacement (serveOpens .newConnectionManager (.newRuntime ⟨fun _ => none⟩) events).1
        (serveOpens .newConnectionManager (.newRuntime ⟨fun _ => none⟩) events).2 := by
  intro events
  have htriads : (events.map fun e => e.req.triad).Nodup := by decide
  exact ⟨htriads, (noDisplacement_iff _ events htriads).mpr (by decide)⟩

/-- Two scanners begin with the same identifier: the second takes the place of the first, and when
the first is closed the second has no connection that consumes. -/
theorem not_noDisplacement_two_scanners :
    let events : List OpenEvent := [nextRequest 1 0, nextRequest 2 0]
    let served := serveOpens .newConnectionManager (.newRuntime ⟨fun _ => none⟩) events
    (events.map fun e => e.req.triad).Nodup ∧
      (served.1.map fun o => o.conn.otConnectionID) = [1, 1] ∧
      (served.1.map fun o => ((served.2.onClose o.conn).connections 1).isNone) = [true, true] ∧
      ¬ NoDisplacement served.1 served.2 := by
  intro events served
  have hots : (served.1.map fun o => o.conn.otConnectionID) = [1, 1] := by decide +kernel
  refine ⟨by decide, hots, by decide +kernel, fun h => ?_⟩
  have hnodup := (nodup_flatMap_ids.mp h.distinct).1
  rw [hots] at hnodup
  exact absurd hnodup (by decide)

end GoIndustrial.EtherNetIP
