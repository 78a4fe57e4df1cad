import GoIndustrial.EtherNetIP.IOAdapter

/-!
# Opening a connection again

The watchdog of the runtime removes a cyclic connection for which nothing has arrived for too long.
It does not tell the connection manager, which keeps the connection in its table: a scanner that
opens the connection again after a failure is refused as a duplicate until somebody closes the
connection that is no longer there. Only the cyclic connection that consumes is watched; the one
that produces stays in the runtime until a close callback removes it, or until a connection with the
same identifier takes its place.

A triad is therefore refused only for a connection that is alive when the watchdog finds nothing to
remove of the connections in the table, and no connection gets an identifier that one in use has.

## Main definitions

* `EtherNetIP.IOAdapter.Reopenable` : a triad is refused only for a connection that is alive.
* `EtherNetIP.IOAdapter.KeptAlive` : the condition on a step.

## Main results

* `EtherNetIP.IOAdapter.reopenable` : what is refused in runs under the condition.
* `EtherNetIP.IOAdapter.not_reopenable_timeout` : a run without it.
-/

namespace GoIndustrial.EtherNetIP

/-- A callback of the connection may still run, or the connection is in the table. -/
def ConnLife.InUse (life : ConnLife) : Prop :=
  life.opening ≠ .finished ∨ life.closing ≠ some .finished

instance (life : ConnLife) : Decidable life.InUse := inferInstanceAs (Decidable (_ ∨ _))

theorem ConnLife.InUse.of_open {life : ConnLife} (h : life.closing = none) : life.InUse :=
  .inr (by rw [h]; nofun)

namespace ConnectionManager

instance (cm : ConnectionManager) (t : Triad) : Decidable (cm.Has t) :=
  decidable_of_iff _ has_iff_any

end ConnectionManager

namespace IOAdapter

variable {s s' : IOAdapter} {a : AdapterStep}

/-! ### The property -/

/-- A Forward_Open is refused only for a connection in the table of which the watchdog has removed
nothing, and which has a cyclic connection in the runtime once its open callback has returned. -/
def Reopenable (s : IOAdapter) : Prop :=
  ∀ req e, (s.connMgr.openConnection req).1 = .error e →
    ∃ id life, s.connMgr.stored id = some life.conn ∧ life.conn.triad = req.triad ∧
      s.lives (s.number id) = some life ∧ life.expired = false ∧
      (life.opening = .finished →
        ∃ id' c, s.runtime.connections id' = some c ∧ s.owner id' = s.number id)

/-- The identifiers of a new connection are not those of a connection that produces, and the one
that the manager chooses is not one that a scanner has chosen. -/
def Clear (s : IOAdapter) (req : ForwardOpenRequest) : Prop :=
  req.otConnectionID ≠ s.connMgr.nextConnID + 1 ∧
    ∀ n < s.opens, ∀ life ∈ s.lives n, life.InUse →
      req.otConnectionID ≠ life.conn.toConnectionID ∧
        s.connMgr.nextConnID + 1 ≠ life.conn.otConnectionID ∧
        s.connMgr.nextConnID + 1 ≠ life.conn.toConnectionID

instance (s : IOAdapter) (req : ForwardOpenRequest) : Decidable (s.Clear req) :=
  inferInstanceAs (Decidable (_ ∧ _))

/-- A new connection has identifiers of its own, and nothing has timed out of a connection in the
table. -/
def KeptAlive (s : IOAdapter) : AdapterStep → Prop
  | .forwardOpen req => s.connMgr.Has req.triad ∨ s.Clear req
  | .watchdog now => ∀ n < s.opens, ∀ life ∈ s.lives n, life.closing = none →
      s.expires now n life = false
  | _ => True

instance : ∀ (s : IOAdapter) (a : AdapterStep), Decidable (s.KeptAlive a)
  | s, .forwardOpen req => inferInstanceAs (Decidable (s.connMgr.Has req.triad ∨ s.Clear req))
  | s, .watchdog now => inferInstanceAs (Decidable (∀ n < s.opens, ∀ life ∈ s.lives n,
      life.closing = none → s.expires now n life = false))
  | _, .forwardClose _ | _, .openCallback _ _ | _, .closeCallback _ | _, .datagram _ _ =>
    inferInstanceAs (Decidable True)

/-! ### Identifiers in use -/

/-- The identifier under which a connection in use produces is no other identifier in use. -/
def Apart (lives : ℕ → Option ConnLife) : Prop :=
  ∀ n m life l, lives n = some life → lives m = some l → life.InUse → l.InUse →
    life.conn.toConnectionID ≠ l.conn.otConnectionID ∧
      (life.conn.toConnectionID = l.conn.toConnectionID → n = m)

/-- A connection goes on. -/
theorem Apart.update {lives : ℕ → Option ConnLife} (h : Apart lives) {n : ℕ}
    {life life' : ConnLife} (hlife : lives n = some life) (huse : life.InUse)
    (hconn : life'.conn = life.conn) : Apart (Function.update lives n (some life')) := by
  -- What is in use after the step was in use before it, with the same identifiers.
  have hbefore : ∀ m l, Function.update lives n (some life') m = some l → l.InUse →
      ∃ l₀, lives m = some l₀ ∧ l₀.InUse ∧ l₀.conn = l.conn := by
    intro m l hl hluse
    rcases Table.update_some_eq_some.mp hl with ⟨rfl, rfl⟩ | ⟨-, hl⟩
    · exact ⟨life, hlife, huse, hconn.symm⟩
    · exact ⟨l, hl, hluse, rfl⟩
  intro m₁ m₂ l₁ l₂ h₁ h₂ huse₁ huse₂
  obtain ⟨k₁, hk₁, hkuse₁, hconn₁⟩ := hbefore m₁ l₁ h₁ huse₁
  obtain ⟨k₂, hk₂, hkuse₂, hconn₂⟩ := hbefore m₂ l₂ h₂ huse₂
  rw [← hconn₁, ← hconn₂]
  exact h m₁ m₂ k₁ k₂ hk₁ hk₂ hkuse₁ hkuse₂

/-- A new connection that keeps clear of those in use. -/
theorem Apart.opened (hi : s.Inv) (h : Apart s.lives) {req : ForwardOpenRequest}
    (hclear : s.Clear req) {life : ConnLife} (hlife : life.conn = s.connMgr.newConnection req) :
    Apart (Function.update s.lives s.opens (some life)) := by
  have hot : life.conn.otConnectionID = req.otConnectionID := by rw [hlife]; rfl
  have hto : life.conn.toConnectionID = s.connMgr.nextConnID + 1 := by rw [hlife]; rfl
  have hothers : ∀ m l, s.lives m = some l → l.InUse →
      req.otConnectionID ≠ l.conn.toConnectionID ∧
        s.connMgr.nextConnID + 1 ≠ l.conn.otConnectionID ∧
        s.connMgr.nextConnID + 1 ≠ l.conn.toConnectionID :=
    fun m l hl huse => hclear.2 m (hi.lives_lt m l hl) l hl huse
  intro m₁ m₂ l₁ l₂ h₁ h₂ huse₁ huse₂
  rcases Table.update_some_eq_some.mp h₁ with ⟨rfl, rfl⟩ | ⟨-, hm₁⟩ <;>
    rcases Table.update_some_eq_some.mp h₂ with ⟨rfl, rfl⟩ | ⟨-, hm₂⟩
  · rw [hot, hto]
    exact ⟨hclear.1.symm, fun _ => rfl⟩
  · obtain ⟨-, hne, hne'⟩ := hothers m₂ l₂ hm₂ huse₂
    rw [hto]
    exact ⟨hne, fun heq => absurd heq hne'⟩
  · obtain ⟨hne, -, hne'⟩ := hothers m₁ l₁ hm₁ huse₁
    rw [hot, hto]
    exact ⟨hne.symm, fun heq => absurd heq.symm hne'⟩
  · exact h m₁ m₂ l₁ l₂ hm₁ hm₂ huse₁ huse₂

/-! ### The invariant -/

/-- A connection in the table has lost nothing to the watchdog, and produces once its open callback
has returned. -/
structure Alive (s : IOAdapter) : Prop where
  apart : Apart s.lives
  expired : ∀ n life, s.lives n = some life → life.closing = none → life.expired = false
  produces : ∀ n life, s.lives n = some life → life.closing = none → life.opening = .finished →
    ∃ c, s.runtime.connections life.conn.toConnectionID = some c ∧
      s.owner life.conn.toConnectionID = n ∧ c.isConsumer = false

theorem alive_new (ao : AssemblyObject) : (new ao).Alive where
  apart _ _ _ _ h := nomatch h
  expired _ _ h := nomatch h
  produces _ _ h := nomatch h

/-- A connection goes on, and the runtime changes at its identifiers only. -/
theorem Alive.goOn (ha : s.Alive) {connMgr : ConnectionManager} {runtime : Runtime}
    {owner : UInt32 → ℕ} {n : ℕ} {life life' : ConnLife} (hlife : s.lives n = some life)
    (huse : life.InUse) (hconn : life'.conn = life.conn)
    (hexpired : life'.closing = none → life.closing = none ∧ life'.expired = life.expired)
    (hkeep : ∀ id, id ≠ life.conn.otConnectionID → id ≠ life.conn.toConnectionID →
      runtime.connections id = s.runtime.connections id ∧ owner id = s.owner id)
    (hself : life'.closing = none → life'.opening = .finished →
      ∃ c, runtime.connections life.conn.toConnectionID = some c ∧
        owner life.conn.toConnectionID = n ∧ c.isConsumer = false) :
    Alive { s with connMgr, runtime, lives := Function.update s.lives n (some life'), owner } := by
  refine ⟨ha.apart.update hlife huse hconn, ?_, fun m l hl hopen hopening => ?_⟩
  · refine Table.forall_update_some ha.expired fun hopen => ?_
    obtain ⟨hopen, hsame⟩ := hexpired hopen
    rw [hsame]
    exact ha.expired n life hlife hopen
  · rcases Table.update_some_eq_some.mp hl with ⟨rfl, rfl⟩ | ⟨hne, hl⟩
    · rw [hconn]
      exact hself hopen hopening
    · obtain ⟨hot, hto⟩ := ha.apart m n l life hl hlife (.of_open hopen) huse
      obtain ⟨hconns, hown⟩ := hkeep _ hot fun heq => hne (hto heq)
      dsimp only
      rw [hconns, hown]
      exact ha.produces m l hl hopen hopening

/-- A part of an open callback that does not end it with a cyclic connection that consumes. -/
theorem Alive.add (ha : s.Alive) {n : ℕ} {life : ConnLife} {phase : OpenPhase}
    {conn : IOConnection} {now : ℤ} (hlife : s.lives n = some life)
    (hopening : life.opening ≠ .finished)
    (hid : conn.connectionID = life.conn.otConnectionID ∨
      conn.connectionID = life.conn.toConnectionID)
    (hself : phase = .finished →
      conn.connectionID = life.conn.toConnectionID ∧ conn.isConsumer = false) :
    (s.add n { life with opening := phase } conn now).Alive := by
  refine ha.goOn hlife (.inl hopening) rfl (fun hopen => ⟨hopen, rfl⟩)
    (fun id hot hto => ?_) fun _ hphase => ?_
  · have hne : id ≠ conn.connectionID := by
      rcases hid with hid | hid <;> rw [hid]
      · exact hot
      · exact hto
    exact ⟨Function.update_of_ne hne _ _, Function.update_of_ne hne _ _⟩
  · obtain ⟨hto, hconsumer⟩ := hself hphase
    rw [← hto]
    exact ⟨_, Function.update_self _ _ _, Function.update_self _ _ _, hconsumer⟩

/-- A part of a close callback. -/
theorem Alive.remove (ha : s.Alive) {n : ℕ} {life : ConnLife} {phase : ClosePhase}
    {connID : UInt32} (hlife : s.lives n = some life) (hclosing : life.closing ≠ some .finished)
    (hid : connID = life.conn.otConnectionID ∨ connID = life.conn.toConnectionID) :
    (s.remove n { life with closing := some phase } connID).Alive := by
  refine ha.goOn hlife (.inr hclosing) rfl nofun (fun id hot hto => ⟨?_, rfl⟩) nofun
  have hne : id ≠ connID := by
    rcases hid with hid | hid <;> rw [hid]
    · exact hot
    · exact hto
  exact Function.update_of_ne hne _ _

/-- The watchdog leaves the connections that produce. -/
theorem Alive.watchdog (ha : s.Alive) (hi : s.Inv) {now : ℤ} (hg : s.KeptAlive (.watchdog now)) :
    Alive { s with
      runtime := s.runtime.checkTimeouts now
      lives := fun n => (s.lives n).map fun life =>
        { life with expired := life.expired || s.expires now n life } } := by
  refine ⟨fun n m life l hlife hl huse huse' => ?_, fun n l hl hopen => ?_,
    fun n l hl hopen hopening => ?_⟩
  · obtain ⟨life₀, hlife₀, rfl⟩ := Option.map_eq_some_iff.mp hlife
    obtain ⟨l₀, hl₀, rfl⟩ := Option.map_eq_some_iff.mp hl
    exact ha.apart n m life₀ l₀ hlife₀ hl₀ huse huse'
  · obtain ⟨life, hlife, rfl⟩ := Option.map_eq_some_iff.mp hl
    have hexpires := hg n (hi.lives_lt n life hlife) life hlife hopen
    dsimp only
    rw [ha.expired n life hlife hopen, hexpires]
    rfl
  · obtain ⟨life, hlife, rfl⟩ := Option.map_eq_some_iff.mp hl
    obtain ⟨c, hc, hown, hconsumer⟩ := ha.produces n life hlife hopen hopening
    have hkept : (!Runtime.timedOut c now) = true := by
      rw [Runtime.timedOut, hconsumer]
      rfl
    exact ⟨c, Option.filter_eq_some_iff.mpr ⟨hc, hkept⟩, hown, hconsumer⟩

theorem Alive.step (ha : s.Alive) (hi : s.Inv) (hg : s.KeptAlive a) (h : s.step a = some s') :
    s'.Alive := by
  cases hi.step_spec h with
  | rejected | unknown => exact ha
  | opened req connMgr hnew _ hstored =>
    have hclear : s.Clear req := hg.resolve_left hnew
    -- The new connection has lost nothing yet, and its open callback has not returned.
    refine ⟨ha.apart.opened hi hclear rfl, ?_, ?_⟩
    · exact Table.forall_update_some ha.expired fun _ => rfl
    · exact Table.forall_update_some ha.produces fun _ hopening => nomatch hopening
  | closed req id life connMgr hid _ hlife hopen hstored =>
    refine ha.goOn hlife (.of_open hopen) rfl ?_ (fun _ _ _ => ⟨rfl, rfl⟩) ?_
    · nofun
    · nofun
  | addConsumer n now life hlife hopening =>
    exact ha.add hlife (by rw [hopening]; nofun) (.inl rfl) nofun
  | addProducer n now life hlife hopening =>
    exact ha.add hlife (by rw [hopening]; nofun) (.inr rfl) fun _ => ⟨rfl, rfl⟩
  | removeConsumer n life hlife hclosing =>
    exact ha.remove hlife (by rw [hclosing]; nofun) (.inl rfl)
  | removeProducer n life hlife hclosing =>
    exact ha.remove hlife (by rw [hclosing]; nofun) (.inr rfl)
  | datagram data now runtime hpacket =>
    refine ⟨ha.apart, ha.expired, fun n life hlife hopen hopening => ?_⟩
    obtain ⟨c, hc, hown, hconsumer⟩ := ha.produces n life hlife hopen hopening
    have hmap := Runtime.map_isConsumer_handlePacket hpacket life.conn.toConnectionID
    rw [hc] at hmap
    obtain ⟨c', hc', hsame⟩ := Option.map_eq_some_iff.mp hmap
    exact ⟨c', hc', hown, hsame.trans hconsumer⟩
  | watchdog now => exact ha.watchdog hi hg

/-! ### What is refused -/

theorem Reopenable.of_alive (hi : s.Inv) (ha : s.Alive) : s.Reopenable := by
  intro req e hrefused
  have hspec := s.connMgr.openConnection_spec req
  generalize s.connMgr.openConnection req = result at hspec hrefused
  cases hspec with
  | opened => cases hrefused
  | duplicate hhas =>
    obtain ⟨id, conn, hstored, htriad⟩ := hhas
    obtain ⟨life, hlife, rfl, hopen⟩ := hi.stored_life id conn hstored
    refine ⟨id, life, hstored, htriad, hlife, ha.expired _ life hlife hopen, fun hopening => ?_⟩
    obtain ⟨c, hc, hown, -⟩ := ha.produces _ life hlife hopen hopening
    exact ⟨_, c, hc, hown⟩

/-- **A triad can be opened again.** In every run in which new connections have identifiers of
their own and the watchdog finds nothing to remove of the connections in the table, a triad is
refused only for a connection that is alive. -/
theorem reopenable (ao : AssemblyObject) {s : IOAdapter}
    (h : (system ao).Reachable KeptAlive s) : s.Reopenable := by
  have hinv : s.Inv ∧ s.Alive :=
    h.invariant (I := fun s => s.Inv ∧ s.Alive) ⟨inv_new ao, alive_new ao⟩
      fun _ _ _ ⟨hi, ha⟩ hg hs => ⟨hi.step hs, ha.step hi hg hs⟩
  exact .of_alive hinv.1 hinv.2

/-- A connection that is closed in time can be opened again. -/
theorem reopenable_after_close :
    ∃ s, (system ⟨fun _ => none⟩).Reachable KeptAlive s ∧ s.opens = 2 ∧ s.Reopenable := by
  obtain ⟨s, hs, hend⟩ := TransitionSystem.exists_reachable_of_exec
    (M := system ⟨fun _ => none⟩) (G := KeptAlive) (f := fun s => s.opens) (b := 2)
    [.forwardOpen (openRequest 1), .openCallback 0 0, .openCallback 0 0, .watchdog 40000000,
      .forwardClose (closeRequest 1), .watchdog 50000000, .closeCallback 0, .closeCallback 0,
      .forwardOpen (openRequest 1)] (by decide +kernel)
  exact ⟨s, hs, hend, reopenable _ hs⟩

/-- Without the condition: nothing arrives for 50 ms, the watchdog removes the cyclic connection
that consumes, and the scanner cannot open its connection again. -/
theorem not_reopenable_timeout :
    ∃ s, (system ⟨fun _ => none⟩).Reachable (fun _ _ => True) s ∧
      s.runtime.connections 1 = none ∧ s.connMgr.Has (openRequest 1).triad ∧ ¬ s.Reopenable := by
  obtain ⟨s, hs, hend⟩ := TransitionSystem.exists_reachable_of_exec
    (M := system ⟨fun _ => none⟩) (G := fun _ _ => True)
    (f := fun s => ((s.runtime.connections 1).isNone &&
        decide (s.connMgr.Has (openRequest 1).triad),
      s.opens, (s.lives 0).map ConnLife.expired))
    (b := (true, 1, some true))
    [.forwardOpen (openRequest 1), .openCallback 0 0, .openCallback 0 0, .watchdog 50000000]
    (by decide +kernel)
  simp only [Prod.mk.injEq, Bool.and_eq_true, decide_eq_true_eq, Option.map_eq_some_iff] at hend
  obtain ⟨⟨hnone, hhas⟩, hopens, life, hlife, hexpired⟩ := hend
  have hi : s.Inv := hs.invariant (inv_new _) fun _ _ _ hi _ hstep => hi.step hstep
  refine ⟨s, hs, Option.isNone_iff_eq_none.mp hnone, hhas, fun h => ?_⟩
  obtain ⟨e, he⟩ : ∃ e, (s.connMgr.openConnection (openRequest 1)).1 = .error e := by
    have hspec := s.connMgr.openConnection_spec (openRequest 1)
    generalize s.connMgr.openConnection (openRequest 1) = result at hspec
    cases hspec with
    | duplicate => exact ⟨_, rfl⟩
    | opened _ hnew => exact absurd hhas hnew
  obtain ⟨id, l, -, -, hl, hexpired', -⟩ := h _ e he
  have hn := hi.lives_lt _ l hl
  have hzero : s.number id = 0 := by omega
  rw [hzero, hlife] at hl
  cases hl
  cases hexpired.symm.trans hexpired'

end IOAdapter

end GoIndustrial.EtherNetIP
