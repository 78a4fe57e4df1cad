import GoIndustrial.EtherNetIP.Implicit
import GoIndustrial.Lib.Table

/-!
# What a datagram changes

The runtime and the scanner look at a datagram in the same order: the two items, the connection with
the identifier in the first of them, and then the data in the second. What they do before they take
a lock is one function, which never fails. They note the time of receipt at different places. The
runtime does so as soon as it has found the connection, before it looks at the data, and it does not
ask whether the connection is a consumer; the scanner does so even when the data does not have the
size of the input buffer and is dropped.

The outcomes of a datagram are listed once for each receiver. From them follows that none makes a
receiver panic, which datagrams write only what a consumer is bound to, and which either do all they
are for or nothing.

## Main definitions

* `EtherNetIP.Runtime.parse`, `EtherNetIP.IOScanner.parse` : the receivers up to their locks.
* `EtherNetIP.Runtime.Carries`, `EtherNetIP.IOScanner.Carries` : what the receiver finds in a
  datagram.
* `EtherNetIP.Runtime.WritesOnlyConsumers` : no assembly changes but that of the addressed consumer.
* `EtherNetIP.Runtime.AllOrNothing`, `EtherNetIP.IOScanner.AllOrNothing` : the data is installed and
  the time noted, or nothing changes.

## Main results

* `EtherNetIP.Runtime.handlePacket_eq`, `EtherNetIP.IOScanner.handleIncomingPacket_eq` : the
  receivers as what they do before their locks and behind them.
* `EtherNetIP.Runtime.handlePacket_spec`, `EtherNetIP.IOScanner.handleIncomingPacket_spec` : the
  outcomes.
* `EtherNetIP.Runtime.writesOnlyConsumers_iff` : when only a consumer's assembly is written.
* `EtherNetIP.allOrNothing_iff` : when receipt is all or nothing.
-/

namespace GoIndustrial.EtherNetIP

open GoSlice

/-! ### The items of a datagram -/

/-- The items of a datagram: the identifier of the connection and the payload. -/
def parseItems (minLen : ℕ) (checkLen1 : Bool) (data : List UInt8) :
    Except (Fault Err) (Option (UInt32 × List UInt8)) :=
  if data.length < minLen then .ok none
  else do
    let itemCount ← uint16LEAt data 0
    if itemCount ≠ 2 then return none
    else
      let len1 ← (if checkLen1 then uint16LEAt data 4 else pure 4)
      if len1 ≠ 4 then return none
      else addressedData data

theorem exists_parseItems {minLen : ℕ} (hmin : 14 ≤ minLen) (checkLen1 : Bool) (data : List UInt8) :
    ∃ item, parseItems minLen checkLen1 data = .ok item := by
  refine Safe.exists_ok (P := fun _ => True) (.ite (fun _ => trivial) fun hlen => ?_)
  refine (safe_uint16LEAt (by omega)).bind fun itemCount _ => .ite (fun _ => trivial) fun _ => ?_
  refine Safe.bind (Q := fun _ => True) (.ite (fun _ => ?_) fun _ => trivial) fun len1 _ =>
    .ite (fun _ => trivial) fun _ => safe_addressedData (by omega)
  exact (safe_uint16LEAt (by omega)).imp (fun _ _ => trivial) fun _ h => h

/-- What is found in a datagram is the data of its second item, for the connection in its first. -/
theorem parseItems_eq_some {minLen : ℕ} {checkLen1 : Bool} {data payload : List UInt8}
    {connID : UInt32} : parseItems minLen checkLen1 data = .ok (some (connID, payload)) ↔
      minLen ≤ data.length ∧ uint16LEAt (ε := Err) data 0 = .ok 2 ∧
        (checkLen1 → uint16LEAt (ε := Err) data 4 = .ok 4) ∧
        addressedData data = .ok (some (connID, payload)) := by
  rw [parseItems]
  constructor
  · intro h
    split at h
    · cases h
    rename_i hlen
    obtain ⟨itemCount, hcount, h⟩ := bind_eq_ok.mp h
    split at h
    · cases h
    rename_i htwo
    obtain ⟨len1, hlen1, h⟩ := bind_eq_ok.mp h
    split at h
    · cases h
    rename_i hfour
    rw [not_not] at htwo hfour
    subst htwo hfour
    exact ⟨Nat.not_lt.mp hlen, hcount, fun hcheck => by rwa [if_pos hcheck] at hlen1, h⟩
  · rintro ⟨hlen, hcount, hlen1, h⟩
    rw [if_neg (Nat.not_lt.mpr hlen)]
    refine bind_eq_ok.mpr ⟨2, hcount, ?_⟩
    rw [if_neg (not_not.mpr rfl)]
    refine bind_eq_ok.mpr ⟨4, ?_, h⟩
    split_ifs with hcheck
    · exact hlen1 hcheck
    · rfl

theorem addressedData_eq_ok {data payload : List UInt8} {connID : UInt32}
    (h : addressedData data = .ok (some (connID, payload))) :
    14 ≤ data.length ∧ uint32LEAt (ε := Err) data 6 = .ok connID := by
  obtain ⟨connID', hid, h⟩ := bind_eq_ok.mp h
  obtain ⟨dataLen, hlen, h⟩ := bind_eq_ok.mp h
  have hlong : 14 ≤ data.length := by
    by_contra hshort
    rw [uint16LEAt, if_neg hshort] at hlen
    cases hlen
  split_ifs at h
  · cases h
  · obtain ⟨payload', -, h⟩ := bind_eq_ok.mp h
    obtain ⟨rfl, rfl⟩ := Prod.mk.inj (Option.some.inj (Except.ok.inj h))
    exact ⟨hlong, hid⟩

namespace Runtime

variable {r : Runtime} {data payload : List UInt8} {connID asmID : UInt32} {conn : IOConnection}

/-- What the runtime finds in a datagram: two items, an identifier of four bytes in the first, and
the data of the second. -/
def Carries (data : List UInt8) (connID : UInt32) (payload : List UInt8) : Prop :=
  uint16LEAt (ε := Err) data 0 = .ok 2 ∧ uint16LEAt (ε := Err) data 4 = .ok 4 ∧
    addressedData data = .ok (some (connID, payload))

theorem Carries.eq {connID' : UInt32} {payload' : List UInt8} (h : Carries data connID payload)
    (h' : Carries data connID' payload') : connID' = connID ∧ payload' = payload :=
  Prod.mk.inj (Option.some.inj (Except.ok.inj (h'.2.2.symm.trans h.2.2)))

/-- `Runtime.handlePacket` up to the lock. -/
def parse := parseItems 14 true

theorem parse_eq_some :
    parse data = .ok (some (connID, payload)) ↔ Carries data connID payload := by
  rw [parse, parseItems_eq_some]
  exact ⟨fun h => ⟨h.2.1, h.2.2.1 rfl, h.2.2.2⟩,
    fun h => ⟨(addressedData_eq_ok h.2.2).1, h.1, fun _ => h.2.1, h.2.2⟩⟩

/-- The payload is a sequence count, the header if there is one, and data of the size of the
assembly that the connection is bound to. -/
def Fits (r : Runtime) (conn : IOConnection) (payload : List UInt8) : Prop :=
  ∃ asmID old, conn.assembly = some asmID ∧ r.assemblyObj.instances asmID = some old ∧
    payload.length = dataOffset conn.runIdleHeader + old.length

/-- The time of receipt is noted. -/
def touch (r : Runtime) (connID : UInt32) (conn : IOConnection) (now : ℤ) : Runtime :=
  { r with
    connections := Function.update r.connections connID (some { conn with lastReceive := now }) }

/-- An assembly gets new data. -/
def install (r : Runtime) (asmID : UInt32) (data : List UInt8) : Runtime :=
  { r with assemblyObj := ⟨Function.update r.assemblyObj.instances asmID (some data)⟩ }

/-- **The receiver of the adapter in two parts**: what it finds in the datagram, and what it does
with it under its locks. -/
theorem handlePacket_eq (r : Runtime) (data : List UInt8) (now : ℤ) :
    r.handlePacket data now = parse data >>= fun
      | none => .ok r
      | some (connID, payload) =>
        match r.connections connID with
        | none => .ok r
        | some conn =>
          (r.touch connID conn now).consume { conn with lastReceive := now } payload := by
  rw [handlePacket, parse, parseItems, if_pos rfl]
  split_ifs with hlen
  · rfl
  rw [bind_assoc]
  congr 1
  funext itemCount
  split_ifs with htwo
  · rfl
  rw [bind_assoc]
  congr 1
  funext len1
  split_ifs with hfour
  · rfl
  · rfl

theorem instances_install (r : Runtime) (asmID : UInt32) (data : List UInt8) :
    (r.install asmID data).assemblyObj.instances asmID = some data := Function.update_self _ _ _

/-- What becomes of a datagram. -/
inductive PacketSpec (r : Runtime) (data : List UInt8) (now : ℤ) :
    Except (Fault Err) Runtime → Prop
  | dropped (h : ∀ connID payload, Carries data connID payload → r.connections connID = none) :
    PacketSpec r data now (.ok r)
  | touched (connID : UInt32) (payload : List UInt8) (conn : IOConnection)
      (hcarries : Carries data connID payload) (hconn : r.connections connID = some conn)
      (h : ¬ r.Fits conn payload) :
    PacketSpec r data now (.ok (r.touch connID conn now))
  | installed (connID : UInt32) (payload : List UInt8) (conn : IOConnection) (asmID : UInt32)
      (old : List UInt8) (hcarries : Carries data connID payload)
      (hconn : r.connections connID = some conn) (hasm : conn.assembly = some asmID)
      (hold : r.assemblyObj.instances asmID = some old)
      (hlen : payload.length = dataOffset conn.runIdleHeader + old.length) :
    PacketSpec r data now (.ok ((r.touch connID conn now).install asmID
      (payload.drop (dataOffset conn.runIdleHeader))))

theorem consume_of_fits {old : List UInt8} (hasm : conn.assembly = some asmID)
    (hold : r.assemblyObj.instances asmID = some old)
    (hlen : payload.length = dataOffset conn.runIdleHeader + old.length) :
    r.consume conn payload =
      .ok (r.install asmID (payload.drop (dataOffset conn.runIdleHeader))) := by
  have hdata : (payload.drop (dataOffset conn.runIdleHeader)).length = old.length := by
    rw [List.length_drop]
    omega
  rw [consume, if_neg (by omega), hasm]
  refine bind_eq_ok.mpr ⟨_, if_pos (by omega), ?_⟩
  rw [AssemblyObject.setAttributeSingle, hold]
  dsimp only
  rw [if_pos rfl, if_neg (not_not.mpr hdata)]
  rfl

theorem consume_of_not_fits (h : ¬ r.Fits conn payload) : r.consume conn payload = .ok r := by
  rw [consume]
  split_ifs with hshort
  · rfl
  · cases hasm : conn.assembly with
    | none => rfl
    | some asmID =>
      refine bind_eq_ok.mpr ⟨_, if_pos (by omega), ?_⟩
      rw [AssemblyObject.setAttributeSingle]
      cases hold : r.assemblyObj.instances asmID with
      | none => rfl
      | some old =>
        have hlen : (payload.drop (dataOffset conn.runIdleHeader)).length ≠ old.length := by
          intro hlen
          rw [List.length_drop] at hlen
          exact h ⟨asmID, old, hasm, hold, by omega⟩
        dsimp only
        rw [if_pos rfl, if_pos hlen]
        rfl

/-- A datagram without a connection changes nothing. -/
theorem handlePacket_of_none
    (h : ∀ connID payload, Carries data connID payload → r.connections connID = none) (now : ℤ) :
    r.handlePacket data now = .ok r := by
  obtain ⟨item, hparse⟩ : ∃ item, parse data = .ok item := exists_parseItems le_rfl true data
  rw [handlePacket_eq, hparse]
  cases item with
  | none => rfl
  | some item =>
    dsimp only [bind, Except.bind]
    rw [h item.1 item.2 (parse_eq_some.mp hparse)]

theorem handlePacket_of_carries (hcarries : Carries data connID payload)
    (hconn : r.connections connID = some conn) (now : ℤ) :
    r.handlePacket data now =
      (r.touch connID conn now).consume { conn with lastReceive := now } payload := by
  rw [handlePacket_eq, parse_eq_some.mpr hcarries]
  dsimp only [bind, Except.bind]
  rw [hconn]

/-- Data that fits is installed. -/
theorem handlePacket_of_fits {old : List UInt8} (hcarries : Carries data connID payload)
    (hconn : r.connections connID = some conn) (hasm : conn.assembly = some asmID)
    (hold : r.assemblyObj.instances asmID = some old)
    (hlen : payload.length = dataOffset conn.runIdleHeader + old.length) (now : ℤ) :
    r.handlePacket data now = .ok ((r.touch connID conn now).install asmID
      (payload.drop (dataOffset conn.runIdleHeader))) := by
  rw [handlePacket_of_carries hcarries hconn]
  exact consume_of_fits hasm hold hlen

/-- The time is noted even if the data does not fit. -/
theorem handlePacket_of_not_fits (hcarries : Carries data connID payload)
    (hconn : r.connections connID = some conn) (hfits : ¬ r.Fits conn payload) (now : ℤ) :
    r.handlePacket data now = .ok (r.touch connID conn now) := by
  rw [handlePacket_of_carries hcarries hconn]
  exact consume_of_not_fits hfits

/-- **The outcomes of a datagram at the runtime.** -/
theorem handlePacket_spec (r : Runtime) (data : List UInt8) (now : ℤ) :
    PacketSpec r data now (r.handlePacket data now) := by
  by_cases h : ∀ connID payload, Carries data connID payload → r.connections connID = none
  · rw [handlePacket_of_none h]
    exact .dropped h
  · push Not at h
    obtain ⟨connID, payload, hcarries, hsome⟩ := h
    obtain ⟨conn, hconn⟩ := Option.ne_none_iff_exists'.mp hsome
    by_cases hfits : r.Fits conn payload
    · obtain ⟨asmID, old, hasm, hold, hlen⟩ := hfits
      rw [handlePacket_of_fits hcarries hconn hasm hold hlen]
      exact .installed connID payload conn asmID old hcarries hconn hasm hold hlen
    · rw [handlePacket_of_not_fits hcarries hconn hfits]
      exact .touched connID payload conn hcarries hconn hfits

/-- **No datagram makes the runtime panic.** -/
theorem handlePacket_ne_panic (r : Runtime) (data : List UInt8) (now : ℤ) :
    r.handlePacket data now ≠ .error .panic := by
  intro h
  have hspec := r.handlePacket_spec data now
  rw [h] at hspec
  cases hspec

theorem map_isConsumer_touch (hconn : r.connections connID = some conn) (now : ℤ) (id : UInt32) :
    ((r.touch connID conn now).connections id).map IOConnection.isConsumer =
      (r.connections id).map IOConnection.isConsumer := by
  by_cases h : id = connID
  · subst h
    simp only [touch, Function.update_self, hconn, Option.map_some]
  · simp only [touch, Function.update_of_ne h]

/-- A datagram neither adds nor removes a connection, and does not change what it is for. -/
theorem map_isConsumer_handlePacket {r' : Runtime} {now : ℤ}
    (h : r.handlePacket data now = .ok r') (id : UInt32) :
    (r'.connections id).map IOConnection.isConsumer =
      (r.connections id).map IOConnection.isConsumer := by
  have hspec := r.handlePacket_spec data now
  rw [h] at hspec
  cases hspec with
  | dropped => rfl
  | touched connID payload conn _ hconn => exact map_isConsumer_touch hconn now id
  | installed connID payload conn asmID old _ hconn => exact map_isConsumer_touch hconn now id

theorem exists_of_handlePacket {r' : Runtime} {now : ℤ} (h : r.handlePacket data now = .ok r')
    (hconn : r'.connections connID = some conn) :
    ∃ conn', r.connections connID = some conn' ∧ conn'.isConsumer = conn.isConsumer := by
  have hmap := map_isConsumer_handlePacket h connID
  rw [hconn] at hmap
  exact Option.map_eq_some_iff.mp hmap.symm

end Runtime

namespace IOScanner

variable {s : IOScanner} {data payload : List UInt8} {connID : UInt32} {conn : IOConn}

/-- What the scanner finds in a datagram: two items, and the data of the second. -/
def Carries (data : List UInt8) (connID : UInt32) (payload : List UInt8) : Prop :=
  16 ≤ data.length ∧ uint16LEAt (ε := Err) data 0 = .ok 2 ∧
    addressedData data = .ok (some (connID, payload))

theorem Carries.eq {connID' : UInt32} {payload' : List UInt8} (h : Carries data connID payload)
    (h' : Carries data connID' payload') : connID' = connID ∧ payload' = payload :=
  Prod.mk.inj (Option.some.inj (Except.ok.inj (h'.2.2.symm.trans h.2.2)))

/-- `IOScanner.handleIncomingPacket` up to the lock; it does not look at the first length. -/
def parse := parseItems 16 false

theorem parse_eq_some :
    parse data = .ok (some (connID, payload)) ↔ Carries data connID payload := by
  rw [parse, parseItems_eq_some]
  exact ⟨fun h => ⟨h.1, h.2.1, h.2.2.2⟩,
    fun h => ⟨h.1, h.2.1, fun h => absurd h Bool.false_ne_true, h.2.2⟩⟩

/-- The buffer after data has arrived. -/
def received (conn : IOConn) (payload : List UInt8) (now : ℤ) : IOConn :=
  { conn with
    inputData :=
      if payload.length = dataOffset conn.runIdleHeader + conn.inputData.length then
        payload.drop (dataOffset conn.runIdleHeader)
      else conn.inputData
    lastReceive := now }

/-- A payload that ends before the data changes nothing. -/
def store (conn : IOConn) (payload : List UInt8) (now : ℤ) : IOConn :=
  if dataOffset conn.runIdleHeader ≤ payload.length then received conn payload now else conn

/-- What becomes of a datagram. -/
inductive PacketSpec (s : IOScanner) (data : List UInt8) (now : ℤ) :
    Except (Fault Err) IOScanner → Prop
  | dropped (h : ∀ connID payload conn, Carries data connID payload →
      s.connections connID = some conn → payload.length < dataOffset conn.runIdleHeader) :
    PacketSpec s data now (.ok s)
  | received (connID : UInt32) (payload : List UInt8) (conn : IOConn)
      (hcarries : Carries data connID payload) (hconn : s.connections connID = some conn)
      (hlen : dataOffset conn.runIdleHeader ≤ payload.length) :
    PacketSpec s data now
      (.ok ⟨Function.update s.connections connID (some (received conn payload now))⟩)

theorem consume_eq_store (hconn : s.connections connID = some conn) (payload : List UInt8)
    (now : ℤ) : s.consume connID conn payload now =
      .ok ⟨Function.update s.connections connID (some (store conn payload now))⟩ := by
  rw [consume, store]
  by_cases hlen : dataOffset conn.runIdleHeader ≤ payload.length
  · have hdata : (payload.drop (dataOffset conn.runIdleHeader)).length = conn.inputData.length ↔
        payload.length = dataOffset conn.runIdleHeader + conn.inputData.length := by
      rw [List.length_drop]
      omega
    rw [if_neg (Nat.not_lt.mpr hlen), if_pos hlen]
    refine bind_eq_ok.mpr ⟨_, if_pos hlen, ?_⟩
    rw [received]
    simp only [hdata]
    rfl
  · rw [if_pos (Nat.not_le.mp hlen), if_neg hlen, ← hconn, Function.update_eq_self]

/-- **The receiver of the scanner in two parts**, as at the adapter. -/
theorem handleIncomingPacket_eq (s : IOScanner) (data : List UInt8) (now : ℤ) :
    s.handleIncomingPacket data now = parse data >>= fun
      | none => .ok s
      | some (connID, payload) =>
        match s.connections connID with
        | none => .ok s
        | some conn =>
          .ok ⟨Function.update s.connections connID (some (store conn payload now))⟩ := by
  rw [handleIncomingPacket, parse, parseItems, if_neg Bool.false_ne_true, pure_bind,
    if_neg (not_not.mpr rfl)]
  split_ifs with hlen
  · rfl
  rw [bind_assoc]
  congr 1
  funext itemCount
  split_ifs with htwo
  · rfl
  congr 1
  funext item
  cases item with
  | none => rfl
  | some item =>
    cases hconn : s.connections item.1 with
    | none => simp only [hconn]; rfl
    | some conn => simp only [hconn, consume_eq_store hconn]

/-- Data for a connection is received, whatever its size. -/
theorem handleIncomingPacket_of_le (hcarries : Carries data connID payload)
    (hconn : s.connections connID = some conn)
    (hlen : dataOffset conn.runIdleHeader ≤ payload.length) (now : ℤ) :
    s.handleIncomingPacket data now =
      .ok ⟨Function.update s.connections connID (some (received conn payload now))⟩ := by
  rw [handleIncomingPacket_eq, parse_eq_some.mpr hcarries]
  dsimp only [bind, Except.bind]
  simp only [hconn]
  rw [store, if_pos hlen]

/-- A datagram without a connection, or without data for it, changes nothing. -/
theorem handleIncomingPacket_of_lt (h : ∀ connID payload conn, Carries data connID payload →
      s.connections connID = some conn → payload.length < dataOffset conn.runIdleHeader) (now : ℤ) :
    s.handleIncomingPacket data now = .ok s := by
  obtain ⟨item, hparse⟩ : ∃ item, parse data = .ok item :=
    exists_parseItems (by decide) false data
  rw [handleIncomingPacket_eq, hparse]
  cases item with
  | none => rfl
  | some item =>
    dsimp only [bind, Except.bind]
    cases hconn : s.connections item.1 with
    | none => rfl
    | some conn =>
      have hlen := h item.1 item.2 conn (parse_eq_some.mp hparse) hconn
      dsimp only
      rw [store, if_neg (Nat.not_le.mpr hlen), ← hconn, Function.update_eq_self]

/-- **The outcomes of a datagram at the scanner.** -/
theorem handleIncomingPacket_spec (s : IOScanner) (data : List UInt8) (now : ℤ) :
    PacketSpec s data now (s.handleIncomingPacket data now) := by
  by_cases h : ∀ connID payload conn, Carries data connID payload →
      s.connections connID = some conn → payload.length < dataOffset conn.runIdleHeader
  · rw [handleIncomingPacket_of_lt h]
    exact .dropped h
  · push Not at h
    obtain ⟨connID, payload, conn, hcarries, hconn, hlen⟩ := h
    rw [handleIncomingPacket_of_le hcarries hconn hlen]
    exact .received connID payload conn hcarries hconn hlen

/-- **No datagram makes the scanner panic.** -/
theorem handleIncomingPacket_ne_panic (s : IOScanner) (data : List UInt8) (now : ℤ) :
    s.handleIncomingPacket data now ≠ .error .panic := by
  intro h
  have hspec := s.handleIncomingPacket_spec data now
  rw [h] at hspec
  cases hspec

end IOScanner

/-! ### What a datagram writes -/

namespace Runtime

/-- No assembly changes but the one that the consumer with the identifier in the datagram is bound
to. -/
def WritesOnlyConsumers (r : Runtime) (data : List UInt8) : Prop :=
  ∀ now r', r.handlePacket data now = .ok r' →
    ∀ asmID, r'.assemblyObj.instances asmID ≠ r.assemblyObj.instances asmID →
      ∃ connID conn, uint32LEAt (ε := Err) data 6 = .ok connID ∧
        r.connections connID = some conn ∧ conn.isConsumer ∧ conn.assembly = some asmID

/-- **Only consumers' assemblies are written**, if and only if a datagram for a connection that is
not a consumer does not fit its assembly or brings the data that is there. -/
theorem writesOnlyConsumers_iff (r : Runtime) (data : List UInt8) :
    r.WritesOnlyConsumers data ↔
      ∀ connID payload conn asmID old, Carries data connID payload →
        r.connections connID = some conn → conn.isConsumer = false →
        conn.assembly = some asmID → r.assemblyObj.instances asmID = some old →
        payload.length = dataOffset conn.runIdleHeader + old.length →
        payload.drop (dataOffset conn.runIdleHeader) = old := by
  constructor
  · intro h connID payload conn asmID old hcarries hconn hconsumer hasm hold hlen
    by_contra hne
    have hresult := handlePacket_of_fits hcarries hconn hasm hold hlen 0
    have hchanged : ((r.touch connID conn 0).install asmID
        (payload.drop (dataOffset conn.runIdleHeader))).assemblyObj.instances asmID ≠
          r.assemblyObj.instances asmID := by
      rw [hold, instances_install]
      exact fun heq => hne (Option.some.inj heq)
    obtain ⟨connID', conn', hid, hconn', hconsumer', -⟩ := h 0 _ hresult asmID hchanged
    obtain rfl := Except.ok.inj (hid.symm.trans (addressedData_eq_ok hcarries.2.2).2)
    obtain rfl := Option.some.inj (hconn'.symm.trans hconn)
    rw [hconsumer] at hconsumer'
    cases hconsumer'
  · intro h now r' hr' asmID hchanged
    have hspec := r.handlePacket_spec data now
    rw [hr'] at hspec
    cases hspec with
    | dropped => exact absurd rfl hchanged
    | touched => exact absurd rfl hchanged
    | installed connID payload conn asmID' old hcarries hconn hasm hold hlen =>
      by_cases hid : asmID = asmID'
      · subst hid
        refine ⟨connID, conn, (addressedData_eq_ok hcarries.2.2).2, hconn, ?_, hasm⟩
        by_contra hconsumer
        have hsame := h connID payload conn asmID old hcarries hconn
          (Bool.eq_false_iff.mpr hconsumer) hasm hold hlen
        rw [instances_install, hsame, hold] at hchanged
        exact hchanged rfl
      · exact absurd (Function.update_of_ne hid _ _) hchanged

/-- An adapter with one producer. -/
def producing : Runtime :=
  (newRuntime ⟨Function.update (fun _ => none) 101 (some [1, 2])⟩).addConnection
    ⟨0x80000001, 10000000, 0, false, none, some 101, 0, 0, 0, true, false⟩ 0

/-- A datagram with the identifier of a producer overwrites what the producer sends. -/
theorem not_writesOnlyConsumers_producing :
    let data := [2, 0, 0xA1, 0, 4, 0, 0x01, 0, 0, 0x80, 0xB1, 0, 4, 0, 7, 0, 8, 9]
    ¬ producing.WritesOnlyConsumers data ∧
    producing.assemblyObj.instances 101 = some [1, 2] ∧
    ∃ r, producing.handlePacket data 5 = .ok r ∧ r.assemblyObj.instances 101 = some [8, 9] := by
  intro data
  refine ⟨fun h => ?_, rfl, _, rfl, rfl⟩
  obtain ⟨connID, conn, hid, hconn, hconsumer, -⟩ := h 5 _ rfl 101 (by decide +kernel)
  obtain rfl : 0x80000001 = connID := Except.ok.inj hid
  cases hconn
  cases hconsumer

end Runtime

/-! ### All or nothing -/

namespace Runtime

/-- The complete data is installed in the bound assembly and the time noted, or nothing changes. -/
def AllOrNothing (r : Runtime) (data : List UInt8) : Prop :=
  ∀ now r', r.handlePacket data now = .ok r' → r' = r ∨
    ∃ connID payload conn asmID header block, Carries data connID payload ∧
      r.connections connID = some conn ∧ conn.assembly = some asmID ∧
      payload = header ++ block ∧ header.length = dataOffset conn.runIdleHeader ∧
      r' = (r.touch connID conn now).install asmID block

theorem touch_ne {r : Runtime} {connID : UInt32} {conn : IOConnection} {now : ℤ}
    (hconn : r.connections connID = some conn) (hnow : now ≠ conn.lastReceive) :
    r.touch connID conn now ≠ r := by
  intro heq
  have hentry : some { conn with lastReceive := now } = some conn := by
    rw [← hconn, ← Function.update_self connID (some { conn with lastReceive := now })
      r.connections]
    exact congrFun (congrArg connections heq) connID
  exact hnow (congrArg IOConnection.lastReceive (Option.some.inj hentry))

/-- Receipt is all or nothing if and only if the data for every connection of the runtime fits the
assembly that it is bound to. -/
theorem allOrNothing_iff_fits (r : Runtime) (data : List UInt8) :
    r.AllOrNothing data ↔ ∀ connID payload conn, Carries data connID payload →
      r.connections connID = some conn → r.Fits conn payload := by
  constructor
  · intro h connID payload conn hcarries hconn
    by_contra hfits
    -- The time of receipt is noted, although nothing is installed.
    have hresult := handlePacket_of_not_fits hcarries hconn hfits (conn.lastReceive + 1)
    rcases h _ _ hresult with heq | ⟨connID', payload', conn', asmID, header, block, hcarries',
      hconn', hasm, rfl, hheader, heq⟩
    · exact touch_ne hconn (by omega) heq
    · obtain ⟨rfl, rfl⟩ := hcarries.eq hcarries'
      obtain rfl := Option.some.inj (hconn'.symm.trans hconn)
      have hold : r.assemblyObj.instances asmID = some block := by
        rw [← instances_install (r.touch connID' conn' (conn'.lastReceive + 1)), ← heq]
        rfl
      exact hfits ⟨asmID, block, hasm, hold, by rw [List.length_append, hheader]⟩
  · intro h now r' hr'
    have hspec := r.handlePacket_spec data now
    rw [hr'] at hspec
    cases hspec with
    | dropped => exact .inl rfl
    | touched connID payload conn hcarries hconn hfits =>
      exact absurd (h connID payload conn hcarries hconn) hfits
    | installed connID payload conn asmID old hcarries hconn hasm hold hlen =>
      refine .inr ⟨connID, payload, conn, asmID, payload.take (dataOffset conn.runIdleHeader), _,
        hcarries, hconn, hasm, (List.take_append_drop _ _).symm, ?_, rfl⟩
      exact List.length_take_of_le (by omega)

end Runtime

namespace IOScanner

/-- The complete data is put into the input buffer and the time noted, or nothing changes. -/
def AllOrNothing (s : IOScanner) (data : List UInt8) : Prop :=
  ∀ now s', s.handleIncomingPacket data now = .ok s' → s' = s ∨
    ∃ connID payload conn header block, Carries data connID payload ∧
      s.connections connID = some conn ∧ payload = header ++ block ∧
      header.length = dataOffset conn.runIdleHeader ∧
      s' = ⟨Function.update s.connections connID
        (some { conn with inputData := block, lastReceive := now })⟩

/-- Receipt is all or nothing if and only if the data for every connection of the scanner has the
size of its input buffer, unless the payload ends before the data. -/
theorem allOrNothing_iff_size (s : IOScanner) (data : List UInt8) :
    s.AllOrNothing data ↔ ∀ connID payload conn, Carries data connID payload →
      s.connections connID = some conn → dataOffset conn.runIdleHeader ≤ payload.length →
      payload.length = dataOffset conn.runIdleHeader + conn.inputData.length := by
  constructor
  · intro h connID payload conn hcarries hconn hlen
    by_contra hsize
    have hresult := handleIncomingPacket_of_le hcarries hconn hlen (conn.lastReceive + 1)
    rw [received, if_neg hsize] at hresult
    rcases h _ _ hresult with heq | ⟨connID', payload', conn', header, block, hcarries', hconn',
      rfl, hheader, heq⟩
    · have hsame := congrFun (congrArg connections heq) connID
      dsimp only at hsame
      rw [Function.update_self, hconn] at hsame
      have htime := congrArg IOConn.lastReceive (Option.some.inj hsame)
      dsimp only at htime
      omega
    · obtain ⟨rfl, rfl⟩ := hcarries.eq hcarries'
      obtain rfl := Option.some.inj (hconn'.symm.trans hconn)
      have hsame := congrFun (congrArg connections heq) connID'
      dsimp only at hsame
      rw [Function.update_self, Function.update_self] at hsame
      have hblock : conn'.inputData = block :=
        congrArg IOConn.inputData (Option.some.inj hsame)
      rw [hblock, List.length_append, hheader] at hsize
      exact hsize rfl
  · intro h now s' hs'
    have hspec := s.handleIncomingPacket_spec data now
    rw [hs'] at hspec
    cases hspec with
    | dropped => exact .inl rfl
    | received connID payload conn hcarries hconn hlen =>
      refine .inr ⟨connID, payload, conn, payload.take (dataOffset conn.runIdleHeader),
        payload.drop (dataOffset conn.runIdleHeader), hcarries, hconn,
        (List.take_append_drop _ _).symm, List.length_take_of_le hlen, ?_⟩
      rw [received, if_pos (h connID payload conn hcarries hconn hlen)]

end IOScanner

/-- **When receipt is all or nothing**, at the runtime and at the scanner: the data for a connection
fits the buffer that it is for. Of the two only the scanner drops a payload that is too short for
its header. -/
theorem allOrNothing_iff (r : Runtime) (s : IOScanner) (data : List UInt8) :
    (r.AllOrNothing data ↔ ∀ connID payload conn, Runtime.Carries data connID payload →
      r.connections connID = some conn → r.Fits conn payload) ∧
    (s.AllOrNothing data ↔ ∀ connID payload conn, IOScanner.Carries data connID payload →
      s.connections connID = some conn → dataOffset conn.runIdleHeader ≤ payload.length →
      payload.length = dataOffset conn.runIdleHeader + conn.inputData.length) :=
  ⟨r.allOrNothing_iff_fits data, s.allOrNothing_iff_size data⟩

/-- An adapter with one consumer of two bytes, which allows 40 ms between datagrams. -/
def consuming : Runtime :=
  (Runtime.newRuntime ⟨Function.update (fun _ => none) 100 (some [1, 2])⟩).addConnection
    ⟨1, 10000000, 0, false, none, some 100, 0, 0, 0, false, true⟩ 0

/-- A scanner with one connection, whose input has two bytes. -/
def scanning : IOScanner :=
  ⟨Function.update (fun _ => none) 1
    (some ⟨7, 1, 1, 1, 1, [], [1, 2], 10000000, 0, 0, 0, false, ⟨[127, 0, 0, 1], 2222⟩⟩)⟩

/-- Datagrams with three bytes of data keep the watchdog quiet at both receivers, and the data that
was there stays: 50 ms after the last datagram that could be used, and 10 ms after the last one, the
connection of the adapter has not timed out. -/
theorem not_allOrNothing_of_three_bytes :
    let data := [2, 0, 0xA1, 0, 4, 0, 1, 0, 0, 0, 0xB1, 0, 5, 0, 7, 0, 3, 4, 5]
    ¬ consuming.AllOrNothing data ∧ ¬ scanning.AllOrNothing data ∧
    (∃ r, consuming.handlePacket data 40000000 = .ok r ∧
      r.assemblyObj.instances 100 = some [1, 2] ∧
      (consuming.checkTimeouts 50000000).connections 1 = none ∧
      (r.checkTimeouts 50000000).connections 1 ≠ none) ∧
    ∃ s, scanning.handleIncomingPacket data 40000000 = .ok s ∧
      (s.connections 1).map IOConn.inputData = some [1, 2] ∧
      (s.connections 1).map IOConn.lastReceive = some 40000000 := by
  intro data
  have hruntime : Runtime.Carries data 1 [7, 0, 3, 4, 5] := ⟨rfl, rfl, rfl⟩
  have hscanner : IOScanner.Carries data 1 [7, 0, 3, 4, 5] := ⟨by decide, rfl, rfl⟩
  refine ⟨fun h => ?_, fun h => ?_, ⟨_, rfl, rfl, by decide +kernel, by decide +kernel⟩,
    _, rfl, rfl, rfl⟩
  · obtain ⟨asmID, old, hasm, hold, hlen⟩ :=
      (Runtime.allOrNothing_iff_fits _ _).mp h _ _ _ hruntime rfl
    obtain rfl : 100 = asmID := Option.some.inj hasm
    obtain rfl : [1, 2] = old := Option.some.inj hold
    cases hlen
  · cases (IOScanner.allOrNothing_iff_size _ _).mp h _ _ _ hscanner rfl (by decide)

end GoIndustrial.EtherNetIP
