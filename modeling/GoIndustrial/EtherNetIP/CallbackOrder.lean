import GoIndustrial.EtherNetIP.IOAdapter

/-!
# The order of callbacks

A close callback is run by the request that has taken the connection out of the table, an open
callback by the request that has put it in. As soon as the connection is in the table it can be
taken out, and nothing makes the close callback wait for the open callback: the close callback finds
nothing to remove, and what the open callback adds after it stays in the runtime for good.

When no connection is taken out before its open callback has returned, and no connection is stored
in the place of another, the callbacks are in order. For this it is enough that the close callback,
once the connection has been taken out, waits for the open callback.

## Main definitions

* `EtherNetIP.IOAdapter.CallbackOrder` : close callbacks run after open callbacks and leave nothing.
* `EtherNetIP.IOAdapter.OpenedFirst`, `EtherNetIP.IOAdapter.CloseWaits` : the conditions on a step.

## Main results

* `EtherNetIP.IOAdapter.CallbackOrder.of_closeWaits`, `EtherNetIP.IOAdapter.callbackOrder` : the
  callbacks in runs under the weaker condition and under the stronger one.
* `EtherNetIP.IOAdapter.not_callbackOrder_early_close` : a run without them.
-/

namespace GoIndustrial.EtherNetIP

/-- The close callback has left a cyclic connection under the identifier. -/
def ConnLife.MayHave (life : ConnLife) (id : UInt32) : Prop :=
  life.closing ≠ some .finished ∧
    (life.closing = some .removeProducer → id ≠ life.conn.otConnectionID)

/-- The close callback has removed something. -/
def ConnLife.Removing (life : ConnLife) : Prop :=
  life.closing = some .removeProducer ∨ life.closing = some .finished

theorem ConnLife.mayHave_of_not_removing {life : ConnLife} (h : ¬ life.Removing) (id : UInt32) :
    life.MayHave id :=
  ⟨fun hfinished => h (.inr hfinished), fun hproducer => absurd (.inl hproducer) h⟩

namespace IOAdapter

variable {s s' : IOAdapter} {a : AdapterStep}

/-! ### The property -/

/-- No callback is in progress. -/
def Quiet (s : IOAdapter) : Prop :=
  ∀ n life, s.lives n = some life →
    life.opening = .finished ∧ (life.closing = none ∨ life.closing = some .finished)

/-- A close callback has removed something only if the open callback has returned; and when no
callback is in progress, the runtime has cyclic connections only for triads in the table. -/
structure CallbackOrder (s : IOAdapter) : Prop where
  order : ∀ n life, s.lives n = some life → life.Removing → life.opening = .finished
  clean : s.Quiet → ∀ id c, s.runtime.connections id = some c →
    ∃ life, s.lives (s.owner id) = some life ∧ s.connMgr.Has life.conn.triad

/-- A connection is not stored in the place of another, and not taken out before its open callback
has returned. -/
def OpenedFirst (s : IOAdapter) : AdapterStep → Prop
  | .forwardOpen _ => s.connMgr.stored (s.connMgr.nextConnID + 1) = none
  | .forwardClose req => ∀ n < s.opens, ∀ life ∈ s.lives n, life.conn.triad = req.triad →
      life.closing = none → life.opening = .finished
  | _ => True

instance : ∀ (s : IOAdapter) (a : AdapterStep), Decidable (s.OpenedFirst a)
  | s, .forwardOpen _ => inferInstanceAs (Decidable (s.connMgr.stored _ = none))
  | s, .forwardClose req => inferInstanceAs (Decidable (∀ n < s.opens, ∀ life ∈ s.lives n,
      life.conn.triad = req.triad → life.closing = none → life.opening = .finished))
  | _, .openCallback _ _ | _, .closeCallback _ | _, .datagram _ _ | _, .watchdog _ =>
    inferInstanceAs (Decidable True)

/-- A connection is not stored in the place of another, and its close callback does not run before
its open callback has returned. -/
def CloseWaits (s : IOAdapter) : AdapterStep → Prop
  | .forwardOpen _ => s.connMgr.stored (s.connMgr.nextConnID + 1) = none
  | .closeCallback n => ∀ life ∈ s.lives n, life.opening = .finished
  | _ => True

/-! ### The invariant -/

/-- A connection that has not been closed is in the table; one whose close callback has removed
something was opened before, and has no more cyclic connections than the callback has left. -/
structure Ordered (s : IOAdapter) : Prop where
  stored : ∀ n life, s.lives n = some life → life.closing = none →
    s.connMgr.stored life.conn.toConnectionID = some life.conn ∧
      s.number life.conn.toConnectionID = n
  opening : ∀ n life, s.lives n = some life → life.Removing → life.opening = .finished
  mayHave : ∀ id c life, s.runtime.connections id = some c → s.lives (s.owner id) = some life →
    life.MayHave id

theorem ordered_new (ao : AssemblyObject) : (new ao).Ordered where
  stored _ _ h := nomatch h
  opening _ _ h := nomatch h
  mayHave _ _ _ h := nomatch h

/-- A new connection, in a free place of the table. -/
theorem Ordered.opened (ho : s.Ordered) {connMgr : ConnectionManager} {life : ConnLife}
    (hfree : s.connMgr.stored (s.connMgr.nextConnID + 1) = none)
    (hid : life.conn.toConnectionID = s.connMgr.nextConnID + 1) (hopen : life.closing = none)
    (hstored : connMgr.stored =
      Function.update s.connMgr.stored (s.connMgr.nextConnID + 1) (some life.conn)) :
    Ordered { s with
      connMgr
      lives := Function.update s.lives s.opens (some life)
      opens := s.opens + 1
      number := Function.update s.number (s.connMgr.nextConnID + 1) s.opens } := by
  have hnot : ¬ life.Removing := by
    rw [ConnLife.Removing, hopen]
    nofun
  refine ⟨fun n l h hclosing => ?_, ?_, fun id c l hc h => ?_⟩
  · dsimp only
    rw [hstored]
    rcases Table.update_some_eq_some.mp h with ⟨rfl, rfl⟩ | ⟨-, h⟩
    · rw [hid, Function.update_self, Function.update_self]
      exact ⟨rfl, rfl⟩
    · obtain ⟨hl, hn⟩ := ho.stored n l h hclosing
      have hne : l.conn.toConnectionID ≠ s.connMgr.nextConnID + 1 := by
        intro heq
        rw [heq, hfree] at hl
        cases hl
      rw [Function.update_of_ne hne, Function.update_of_ne hne]
      exact ⟨hl, hn⟩
  · exact Table.forall_update_some ho.opening fun hremoving => absurd hremoving hnot
  · rcases Table.update_some_eq_some.mp h with ⟨-, rfl⟩ | ⟨-, h⟩
    · exact ConnLife.mayHave_of_not_removing hnot id
    · exact ho.mayHave id c l hc h

/-- A connection is taken out of the table. -/
theorem Ordered.closed (ho : s.Ordered) {connMgr : ConnectionManager} {id : UInt32}
    {life : ConnLife}
    (hstored : connMgr.stored = Function.update s.connMgr.stored id none) :
    Ordered { s with
      connMgr
      lives := Function.update s.lives (s.number id)
        (some { life with closing := some .removeConsumer }) } := by
  refine ⟨fun n l h hclosing => ?_, ?_, fun id' c l hc h => ?_⟩
  · rcases Table.update_some_eq_some.mp h with ⟨-, rfl⟩ | ⟨hne, h⟩
    · cases hclosing
    · obtain ⟨hl, hn⟩ := ho.stored n l h hclosing
      have hid : l.conn.toConnectionID ≠ id := fun heq => hne (heq ▸ hn.symm)
      dsimp only
      rw [hstored, Function.update_of_ne hid]
      exact ⟨hl, hn⟩
  · exact Table.forall_update_some ho.opening nofun
  · rcases Table.update_some_eq_some.mp h with ⟨-, rfl⟩ | ⟨-, h⟩
    · exact ⟨nofun, nofun⟩
    · exact ho.mayHave id' c l hc h

/-- A callback, which goes on with a connection and changes the runtime. -/
theorem Ordered.callback (ho : s.Ordered) {runtime : Runtime} {owner : UInt32 → ℕ} {n : ℕ}
    {life life' : ConnLife} (hlife : s.lives n = some life) (hconn : life'.conn = life.conn)
    (hclosing : life'.closing = none → life.closing = none)
    (hopening : life'.Removing → life'.opening = .finished)
    (hhave : ∀ id c, runtime.connections id = some c →
      owner id = n ∧ life'.MayHave id ∨
        owner id ≠ n ∧ owner id = s.owner id ∧ s.runtime.connections id = some c) :
    Ordered { s with runtime, lives := Function.update s.lives n (some life'), owner } := by
  refine ⟨?_, Table.forall_update_some ho.opening hopening, fun id c l hc h => ?_⟩
  · refine Table.forall_update_some ho.stored fun hopen => ?_
    rw [hconn]
    exact ho.stored n life hlife (hclosing hopen)
  · rcases hhave id c hc with ⟨hown, hmay⟩ | ⟨hne, hown, hc⟩
    · rcases Table.update_some_eq_some.mp h with ⟨-, rfl⟩ | ⟨hne, -⟩
      · exact hmay
      · exact absurd hown hne
    · rcases Table.update_some_eq_some.mp h with ⟨heq, -⟩ | ⟨-, h⟩
      · exact absurd heq hne
      · exact ho.mayHave id c l hc (hown ▸ h)

/-- A part of an open callback: the close callback has not begun, so that the connection may have
what it likes. -/
theorem Ordered.add (ho : s.Ordered) {n : ℕ} {life : ConnLife} (hlife : s.lives n = some life)
    (hopening : life.opening ≠ .finished) (phase : OpenPhase) (conn : IOConnection) (now : ℤ) :
    (s.add n { life with opening := phase } conn now).Ordered := by
  have hnot : ¬ ConnLife.Removing { life with opening := phase } :=
    fun hremoving => hopening (ho.opening n life hlife hremoving)
  refine ho.callback hlife rfl (fun h => h) (fun h => absurd h hnot) fun id c hc => ?_
  have hmay := ConnLife.mayHave_of_not_removing hnot id
  rcases connections_addConnection s.owner n hc with ⟨-, hown⟩ | ⟨-, hown, hc⟩
  · exact .inl ⟨hown, hmay⟩
  · by_cases hn : s.owner id = n
    · exact .inl ⟨hown.trans hn, hmay⟩
    · exact .inr ⟨hown ▸ hn, hown, hc⟩

/-- A part of a close callback: it leaves what the next part removes. -/
theorem Ordered.remove (ho : s.Ordered) {n : ℕ} {life : ConnLife} {phase : ClosePhase}
    {connID : UInt32} (hlife : s.lives n = some life) (hopening : life.opening = .finished)
    (hleft : ∀ id c, id ≠ connID → s.runtime.connections id = some c → s.owner id = n →
      ConnLife.MayHave { life with closing := some phase } id) :
    (s.remove n { life with closing := some phase } connID).Ordered := by
  refine ho.callback hlife rfl nofun (fun _ => hopening) fun id c hc => ?_
  obtain ⟨hne, hc⟩ := Table.update_none_eq_some.mp hc
  by_cases hn : s.owner id = n
  · exact .inl ⟨hn, hleft id c hne hc hn⟩
  · exact .inr ⟨hn, rfl, hc⟩

theorem Ordered.step (ho : s.Ordered) (hi : s.Inv) (hg : s.CloseWaits a)
    (h : s.step a = some s') : s'.Ordered := by
  cases hi.step_spec h with
  | rejected | unknown => exact ho
  | opened req connMgr _ _ hstored => exact ho.opened hg rfl rfl hstored
  | closed req id life connMgr _ _ _ _ hstored => exact ho.closed hstored
  | addConsumer n now life hlife hopening => exact ho.add hlife (by rw [hopening]; nofun) _ _ _
  | addProducer n now life hlife hopening => exact ho.add hlife (by rw [hopening]; nofun) _ _ _
  | removeConsumer n life hlife hclosing =>
    exact ho.remove hlife (hg life hlife) fun id c hne _ _ => ⟨nofun, fun _ => hne⟩
  | removeProducer n life hlife hclosing =>
    refine ho.remove hlife (hg life hlife) fun id c hne hc hown => ?_
    -- What is left would be under one of the two identifiers, and both have been removed.
    obtain ⟨l, hl, hid⟩ := hi.owned id c hc
    have hmay := ho.mayHave id c l hc hl
    rw [hown, hlife] at hl
    cases hl
    rcases hid with hid | hid
    · exact absurd hid (hmay.2 hclosing)
    · exact absurd hid hne
  | datagram data now runtime hpacket =>
    refine ⟨ho.stored, ho.opening, fun id c life hc hlife => ?_⟩
    obtain ⟨c', hc', -⟩ := Runtime.exists_of_handlePacket hpacket hc
    exact ho.mayHave id c' life hc' hlife
  | watchdog now =>
    refine ⟨fun n l hl hopen => ?_, fun n l hl hclosing => ?_, fun id c l hc hl => ?_⟩
    · obtain ⟨life, hlife, rfl⟩ := Option.map_eq_some_iff.mp hl
      exact ho.stored n life hlife hopen
    · obtain ⟨life, hlife, rfl⟩ := Option.map_eq_some_iff.mp hl
      exact ho.opening n life hlife hclosing
    · obtain ⟨life, hlife, rfl⟩ := Option.map_eq_some_iff.mp hl
      exact ho.mayHave id c life (Option.filter_eq_some_iff.mp hc).1 hlife

/-! ### The order -/

theorem CallbackOrder.of_ordered (hi : s.Inv) (ho : s.Ordered) : s.CallbackOrder := by
  refine ⟨ho.opening, fun hquiet id c hc => ?_⟩
  obtain ⟨life, hlife, -⟩ := hi.owned id c hc
  have hclosing := (hquiet _ life hlife).2
  have hopen := hclosing.resolve_right (ho.mayHave id c life hc hlife).1
  exact ⟨life, hlife, ConnectionManager.has_of_stored (ho.stored _ life hlife hopen).1⟩

/-- When close callbacks wait for open callbacks, and no connection is stored in the place of
another, the callbacks are in order. -/
theorem CallbackOrder.of_closeWaits {ao : AssemblyObject}
    (h : (system ao).Reachable CloseWaits s) : s.CallbackOrder := by
  have hinv : s.Inv ∧ s.Ordered :=
    h.invariant (I := fun s => s.Inv ∧ s.Ordered) ⟨inv_new ao, ordered_new ao⟩
      fun _ _ _ ⟨hi, ho⟩ hg hs => ⟨hi.step hs, ho.step hi hg hs⟩
  exact .of_ordered hinv.1 hinv.2

/-- A connection that has been taken out of the table was opened before. -/
def ClosesOpened (s : IOAdapter) : Prop :=
  ∀ n life, s.lives n = some life → life.closing ≠ none → life.opening = .finished

/-- A close callback need not wait when connections are taken out only after their open callback. -/
theorem ClosesOpened.step (hc : s.ClosesOpened) (hi : s.Inv) (hg : s.OpenedFirst a)
    (h : s.step a = some s') : s'.ClosesOpened ∧ s.CloseWaits a := by
  cases hi.step_spec h with
  | rejected => exact ⟨hc, hg⟩
  | unknown | datagram => exact ⟨hc, trivial⟩
  | opened => exact ⟨Table.forall_update_some hc fun hne => absurd rfl hne, hg⟩
  | closed req id life connMgr _ htriad hlife hopen =>
    refine ⟨Table.forall_update_some hc fun _ => ?_, trivial⟩
    exact hg _ (hi.lives_lt _ life hlife) life hlife htriad hopen
  | addConsumer n now life hlife hopening =>
    refine ⟨Table.forall_update_some hc fun hne => ?_, trivial⟩
    cases hopening.symm.trans (hc n life hlife hne)
  | addProducer => exact ⟨Table.forall_update_some hc fun _ => rfl, trivial⟩
  | removeConsumer n life hlife hclosing | removeProducer n life hlife hclosing =>
    have hopened := hc n life hlife (by rw [hclosing]; nofun)
    refine ⟨Table.forall_update_some hc fun _ => hopened, fun l hl => ?_⟩
    cases hlife.symm.trans hl
    exact hopened
  | watchdog now =>
    refine ⟨fun n l hl hne => ?_, trivial⟩
    obtain ⟨life, hlife, rfl⟩ := Option.map_eq_some_iff.mp hl
    exact hc n life hlife hne

/-- **The order of callbacks.** In every run in which no connection is taken out of the table before
its open callback has returned, nor stored in the place of another, close callbacks run after open
callbacks, and leave no cyclic connection for a triad that is not in the table. -/
theorem callbackOrder (ao : AssemblyObject) {s : IOAdapter}
    (h : (system ao).Reachable OpenedFirst s) : s.CallbackOrder := by
  have hinv : s.Inv ∧ s.ClosesOpened ∧ (system ao).Reachable CloseWaits s := by
    refine h.invariant (I := fun s => s.Inv ∧ s.ClosesOpened ∧ (system ao).Reachable CloseWaits s)
      ⟨inv_new ao, nofun, .init⟩ ?_
    intro s a s' ⟨hi, hc, hr⟩ hg hs
    obtain ⟨hc', hw⟩ := hc.step hi hg hs
    exact ⟨hi.step hs, hc', hr.step hw hs⟩
  exact .of_closeWaits hinv.2.2

/-- A connection that is opened and closed. -/
theorem callbackOrder_open_close :
    ∃ s, (system ⟨fun _ => none⟩).Reachable OpenedFirst s ∧
      (s.lives 0).map (fun life => (life.opening, life.closing)) =
        some (.finished, some .finished) ∧ s.CallbackOrder := by
  obtain ⟨s, hs, hend⟩ := TransitionSystem.exists_reachable_of_exec
    (M := system ⟨fun _ => none⟩) (G := OpenedFirst)
    (f := fun s => (s.lives 0).map fun life => (life.opening, life.closing))
    (b := some (.finished, some .finished))
    [.forwardOpen (openRequest 1), .openCallback 0 0, .openCallback 0 0,
      .forwardClose (closeRequest 1), .closeCallback 0, .closeCallback 0] (by decide +kernel)
  exact ⟨s, hs, hend, callbackOrder _ hs⟩

/-- Without the conditions: the connection is taken out of the table and its close callback runs
before its open callback, whose cyclic connections stay. -/
theorem not_callbackOrder_early_close :
    ∃ s, (system ⟨fun _ => none⟩).Reachable (fun _ _ => True) s ∧
      s.Quiet ∧ s.connMgr.connections.entries = [] ∧ (s.runtime.connections 1).isSome ∧
      ¬ s.CallbackOrder := by
  obtain ⟨s, hs, hend⟩ := TransitionSystem.exists_reachable_of_exec
    (M := system ⟨fun _ => none⟩) (G := fun _ _ => True)
    (f := fun s => (s.connMgr.connections.entries.isEmpty && (s.runtime.connections 1).isSome,
      s.opens, (s.lives 0).map fun life => (life.opening, life.closing)))
    (b := (true, 1, some (.finished, some .finished)))
    [.forwardOpen (openRequest 1), .forwardClose (closeRequest 1), .closeCallback 0,
      .closeCallback 0, .openCallback 0 0, .openCallback 0 0] (by decide +kernel)
  simp only [Prod.mk.injEq, Bool.and_eq_true, Option.map_eq_some_iff] at hend
  obtain ⟨⟨hempty, hconn⟩, hopens, life, hlife, hopening, hclosing⟩ := hend
  have htable := List.isEmpty_iff.mp hempty
  have hi : s.Inv := hs.invariant (inv_new _) fun _ _ _ hi _ hstep => hi.step hstep
  have hquiet : s.Quiet := by
    intro n l hl
    have hn := hi.lives_lt n l hl
    obtain rfl : n = 0 := by omega
    obtain rfl := Option.some.inj (hlife.symm.trans hl)
    exact ⟨hopening, .inr hclosing⟩
  refine ⟨s, hs, hquiet, htable, hconn, fun horder => ?_⟩
  obtain ⟨c, hc⟩ := Option.isSome_iff_exists.mp hconn
  obtain ⟨l, -, id, conn, hstored, -⟩ := horder.clean hquiet 1 c hc
  rw [← ConnectionManager.mem_entries_iff, htable] at hstored
  cases hstored

end IOAdapter

end GoIndustrial.EtherNetIP
