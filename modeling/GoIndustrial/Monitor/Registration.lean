import GoIndustrial.Lib.Table
import GoIndustrial.Modbus.DataPoint
import GoIndustrial.Monitor.System
import Mathlib.Data.List.Nodup
import Mathlib.Data.List.Perm.Basic

/-!
# Subscriptions and registered points

`Subscribe` registers the point of a subscription with the clustering reader and `Stop` unregisters
it. `Close` stops the subscriptions that it finds in the map, but it does not unregister their
points, and a `Stop` that comes later finds nothing in the map any more: the points of these
subscriptions stay registered.

`Unregister` removes a point of the same area, address and quantity, which need not be the point
that was registered. Registered points are therefore told apart only as far as `SameRange` does.

## Main definitions

* `Monitor.Placed`, `Monitor.RegInv` : where a subscription can be, by the phases of its goroutine
  and of `Stop`.
* `Monitor.Quiescent` : no `Subscribe`, `Stop` or `Close` is in progress.
* `Monitor.InStep` : the registered points are those of the running subscriptions.

## Main results

* `Monitor.RegInv.regMove`, `Monitor.RegInv.closeMove` : the invariant of the registry.
* `Monitor.inStep_iff` : when reader and monitor are in step.
* `Monitor.not_inStep_closed` : a run that leaves a point registered.
-/

namespace GoIndustrial.Monitor

open Plc Clusterable ClusteringReader

/-! ### Registering and unregistering -/

section Points

variable {α κ β : Type} [Clusterable α κ]

/-- What the reader compares. -/
def rangeOf (c : α) : κ × UInt16 × UInt16 := (clusterKey c, clusterAddr c, clusterQty c)

theorem sameRange_iff {c existing : α} : SameRange c existing ↔ rangeOf existing = rangeOf c := by
  simp [SameRange, rangeOf]

variable [LinearOrder κ] (sort : KeySort (sortKey (α := α))) (r : ClusteringReader α κ β)

theorem points_register (p : DataPoint α) :
    (r.register sort [p]).points = r.points ++ clusterables [p] := rfl

theorem points_unregister (c : α) : (r.unregister sort [.clusterable c]).points =
    r.points.eraseP fun existing => SameRange c existing := rfl

theorem clusterables_append (l l' : List (DataPoint α)) :
    clusterables (l ++ l') = clusterables l ++ clusterables l' := List.filterMap_append

/-- The points that are registered for the subscriptions of a list. -/
def pointsOf (l : List (ℕ × DataPoint α)) : List α := clusterables (l.map Prod.snd)

theorem pointsOf_cons (e : ℕ × DataPoint α) (l : List (ℕ × DataPoint α)) :
    pointsOf (e :: l) = clusterables [e.2] ++ pointsOf l := clusterables_append [e.2] _

theorem pointsOf_append (l l' : List (ℕ × DataPoint α)) :
    pointsOf (l ++ l') = pointsOf l ++ pointsOf l' := by
  rw [pointsOf, List.map_append, clusterables_append]
  rfl

theorem pointsOf_perm {l l' : List (ℕ × DataPoint α)} (h : l.Perm l') :
    (pointsOf l).Perm (pointsOf l') := (h.map Prod.snd).filterMap _

variable {r sort} {l : List α} {c : α}

/-- Unregistering a point takes away one of its range. -/
theorem perm_of_eraseP (h : (r.points.map rangeOf).Perm (rangeOf c :: l.map rangeOf)) :
    ((r.points.eraseP fun existing => SameRange c existing).map rangeOf).Perm
      (l.map rangeOf) := by
  have hmem : rangeOf c ∈ r.points.map rangeOf := h.symm.subset List.mem_cons_self
  obtain ⟨q, hq, hrange⟩ := List.mem_map.mp hmem
  have hsame := decide_eq_true (sameRange_iff.mpr hrange)
  obtain ⟨b, l₁, l₂, -, hb, hsplit, herase⟩ :=
    List.exists_of_eraseP (p := fun existing => decide (SameRange c existing)) hq hsame
  have hrange' : rangeOf b = rangeOf c := sameRange_iff.mp (of_decide_eq_true hb)
  rw [herase]
  rw [hsplit, List.map_append, List.map_cons, hrange'] at h
  rw [List.map_append]
  exact (List.perm_middle.symm.trans h).cons_inv

end Points

/-! ### Where a subscription can be -/

section Placed

variable {α κ β : Type}

/-- Where the subscription `i` is: in the map, with `Close`, which has taken it from the map, or
with `Stop`, which has taken it; and whether its point is registered. -/
structure Placed (r : Registry α κ β) (stopCh : Bool) (i : ℕ) (sub : Subscription α) : Prop where
  known : i ≤ r.nextID
  wg : i ∈ r.wg ↔ sub.life ≠ .finished
  enrolled : (i, sub.point) ∈ r.enrolled ↔ sub.life ≠ .registering ∧
    (i ∈ r.subs ∨ (i, sub.point) ∈ r.abandoned ∨ sub.stop = .unregistering)
  inMap : i ∈ r.subs → (i, sub.point) ∉ r.abandoned ∧
    (sub.stop = .fresh ∨ sub.stop = .removing) ∧ sub.stopCh = false
  abandoned : (i, sub.point) ∈ r.abandoned →
    sub.stop = .fresh ∨ sub.stop = .removing ∨ sub.stop = .done
  owned : i ∈ r.subs ∨ (i, sub.point) ∈ r.abandoned ∨ sub.stop = .unregistering ∨
    sub.stop = .stopping ∨ sub.stop = .awaiting ∨ sub.stop = .done ∧ sub.life = .finished
  exited : sub.life = .finished → sub.stopCh = true ∨ stopCh = true
  handle : sub.stop ≠ .fresh → sub.life = .running ∨ sub.life = .finished

/-- The lists of the registry have not changed but for `i`. -/
structure AwayFrom (i : ℕ) (r r' : Registry α κ β) : Prop where
  nextID : r.nextID ≤ r'.nextID
  subs : ∀ j ≠ i, j ∈ r'.subs ↔ j ∈ r.subs
  wg : ∀ j ≠ i, j ∈ r'.wg ↔ j ∈ r.wg
  enrolled : ∀ j ≠ i, ∀ p, (j, p) ∈ r'.enrolled ↔ (j, p) ∈ r.enrolled
  abandoned : r'.abandoned = r.abandoned

variable {r r' : Registry α κ β} {stopCh stopCh' : Bool} {i j : ℕ} {sub : Subscription α}

theorem Placed.awayFrom (h : Placed r stopCh j sub) (ha : AwayFrom i r r') (hne : j ≠ i) :
    Placed r' stopCh j sub where
  known := h.known.trans ha.nextID
  wg := by rw [ha.wg j hne, h.wg]
  enrolled := by rw [ha.enrolled j hne, ha.subs j hne, ha.abandoned, h.enrolled]
  inMap := by rw [ha.subs j hne, ha.abandoned]; exact h.inMap
  abandoned := by rw [ha.abandoned]; exact h.abandoned
  owned := by rw [ha.subs j hne, ha.abandoned]; exact h.owned
  exited := h.exited
  handle := h.handle

theorem mem_abandoned_takeAll (hi : r.all i = some sub) {p : DataPoint α} :
    (i, p) ∈ r.takeAll.abandoned ↔ i ∈ r.subs ∧ sub.point = p := by
  simp only [Registry.takeAll, List.mem_filterMap, Option.map_eq_some_iff, Prod.mk.injEq]
  constructor
  · rintro ⟨j, hj, sub₁, hsub₁, rfl, hp⟩
    obtain rfl := Option.some.inj (hi.symm.trans hsub₁)
    exact ⟨hj, hp⟩
  · rintro ⟨hmem, hp⟩
    exact ⟨i, hmem, sub, hi, rfl, hp⟩

end Placed

/-! ### The invariant of the registry -/

section RegInv

variable {α κ β : Type} [Clusterable α κ]

/-- The invariant of the registry. The ranges of the registered points are those that the
subscriptions have registered. -/
structure RegInv (r : Registry α κ β) (stopCh : Bool) : Prop where
  nodup_subs : r.subs.Nodup
  nodup_wg : r.wg.Nodup
  nodup_enrolled : r.enrolled.Nodup
  nodup_abandoned : r.abandoned.Nodup
  subs_known : ∀ i ∈ r.subs, ∃ sub, r.all i = some sub
  wg_known : ∀ i ∈ r.wg, ∃ sub, r.all i = some sub
  enrolled_known : ∀ i p, (i, p) ∈ r.enrolled → ∃ sub, r.all i = some sub ∧ sub.point = p
  abandoned_known : ∀ i p, (i, p) ∈ r.abandoned → ∃ sub, r.all i = some sub ∧ sub.point = p
  placed : ∀ i sub, r.all i = some sub → Placed r stopCh i sub
  books : (r.reader.points.map rangeOf).Perm ((pointsOf r.enrolled).map rangeOf)

variable {r r' : Registry α κ β} {stopCh : Bool} {i : ℕ}
  {sub sub' : Subscription α}

theorem RegInv.point_eq (h : RegInv r stopCh) (hi : r.all i = some sub) {p : DataPoint α}
    (hp : (i, p) ∈ r.enrolled) : p = sub.point := by
  obtain ⟨sub₁, hi₁, rfl⟩ := h.enrolled_known i p hp
  rw [Option.some.inj (hi.symm.trans hi₁)]

/-- A step that changes the subscription `i` and what the lists have of it. -/
theorem RegInv.change (h : RegInv r stopCh) (hi : r.all i = some sub)
    (hall : r'.all = Function.update r.all i (some sub')) (hpoint : sub'.point = sub.point)
    (ha : AwayFrom i r r') (hsubs : r'.subs.Nodup) (hwg : r'.wg.Nodup)
    (henrolled : r'.enrolled.Nodup) (hown : ∀ p, (i, p) ∈ r'.enrolled → p = sub.point)
    (hplaced : Placed r' stopCh i sub')
    (hbooks : (r'.reader.points.map rangeOf).Perm ((pointsOf r'.enrolled).map rangeOf)) :
    RegInv r' stopCh := by
  have hself : r'.all i = some sub' := by rw [hall, Function.update_self]
  have hkeep : ∀ j p, (∃ sub, r.all j = some sub ∧ sub.point = p) →
      ∃ sub, r'.all j = some sub ∧ sub.point = p := by
    intro j p hj
    rw [hall]
    exact Table.exists_update_some hi (fun hp => hpoint.trans hp) hj
  have hknown : ∀ j, (∃ sub, r.all j = some sub) → ∃ sub, r'.all j = some sub := by
    rintro j ⟨sub, hj⟩
    obtain ⟨sub', hj', -⟩ := hkeep j sub.point ⟨sub, hj, rfl⟩
    exact ⟨sub', hj'⟩
  refine ⟨hsubs, hwg, henrolled, ha.abandoned ▸ h.nodup_abandoned, fun j hj => ?_, fun j hj => ?_,
    fun j p hj => ?_, fun j p hj => ?_, fun j sub hj => ?_, hbooks⟩
  · rcases eq_or_ne j i with rfl | hne
    · exact ⟨sub', hself⟩
    · exact hknown j (h.subs_known j ((ha.subs j hne).mp hj))
  · rcases eq_or_ne j i with rfl | hne
    · exact ⟨sub', hself⟩
    · exact hknown j (h.wg_known j ((ha.wg j hne).mp hj))
  · rcases eq_or_ne j i with rfl | hne
    · exact ⟨sub', hself, hpoint.trans (hown p hj).symm⟩
    · exact hkeep j p (h.enrolled_known j p ((ha.enrolled j hne p).mp hj))
  · rw [ha.abandoned] at hj
    exact hkeep j p (h.abandoned_known j p hj)
  · rw [hall] at hj
    rcases Table.update_some_eq_some.mp hj with ⟨rfl, rfl⟩ | ⟨hne, hj⟩
    · exact hplaced
    · exact (h.placed j sub hj).awayFrom ha hne

/-- A step that changes only the phases of one subscription. -/
theorem RegInv.put (h : RegInv r stopCh) (hi : r.all i = some sub)
    (hpoint : sub'.point = sub.point) (hplaced : Placed r stopCh i sub') :
    RegInv (r.put i sub') stopCh := by
  have hself : Placed (r.put i sub') stopCh i sub' :=
    ⟨hplaced.known, hplaced.wg, hplaced.enrolled, hplaced.inMap, hplaced.abandoned,
      hplaced.owned, hplaced.exited, hplaced.handle⟩
  refine h.change hi rfl hpoint ?_ h.nodup_subs h.nodup_wg h.nodup_enrolled
    (fun p => h.point_eq hi) hself h.books
  exact ⟨le_rfl, fun _ _ => .rfl, fun _ _ => .rfl, fun _ _ _ => .rfl, rfl⟩

/-- A new subscription. -/
theorem RegInv.insert (h : RegInv r stopCh) (p : DataPoint α) :
    RegInv (r.insert p) stopCh := by
  have hnew : r.all (r.nextID + 1) = none := by
    refine Option.eq_none_iff_forall_ne_some.mpr fun sub hsub => ?_
    have hle := (h.placed _ sub hsub).known
    omega
  have hne : ∀ {j : ℕ} {sub : Subscription α}, r.all j = some sub → j ≠ r.nextID + 1 := by
    rintro j sub hj rfl
    rw [hnew] at hj
    contradiction
  have hkeep : ∀ {j : ℕ} {sub : Subscription α}, r.all j = some sub →
      (r.insert p).all j = some sub := fun hj =>
    (Function.update_of_ne (hne hj) _ _).trans hj
  have hself : (r.insert p).all (r.nextID + 1) = some ⟨p, .registering, .fresh, false⟩ :=
    Function.update_self _ _ _
  have hsubs : r.nextID + 1 ∉ r.subs := fun hmem =>
    let ⟨_, hsub⟩ := h.subs_known _ hmem
    hne hsub rfl
  have hwg : r.nextID + 1 ∉ r.wg := fun hmem =>
    let ⟨_, hsub⟩ := h.wg_known _ hmem
    hne hsub rfl
  have henr : (r.nextID + 1, p) ∉ r.enrolled := fun hmem =>
    let ⟨_, hsub, _⟩ := h.enrolled_known _ _ hmem
    hne hsub rfl
  have hab : (r.nextID + 1, p) ∉ r.abandoned := fun hmem =>
    let ⟨_, hsub, _⟩ := h.abandoned_known _ _ hmem
    hne hsub rfl
  refine ⟨List.nodup_cons.mpr ⟨hsubs, h.nodup_subs⟩, List.nodup_cons.mpr ⟨hwg, h.nodup_wg⟩,
    h.nodup_enrolled, h.nodup_abandoned, fun j hj => ?_, fun j hj => ?_, fun j q hj => ?_,
    fun j q hj => ?_, ?_, h.books⟩
  · rcases List.mem_cons.mp hj with rfl | hj
    · exact ⟨_, hself⟩
    · obtain ⟨sub, hsub⟩ := h.subs_known j hj
      exact ⟨sub, hkeep hsub⟩
  · rcases List.mem_cons.mp hj with rfl | hj
    · exact ⟨_, hself⟩
    · obtain ⟨sub, hsub⟩ := h.wg_known j hj
      exact ⟨sub, hkeep hsub⟩
  · obtain ⟨sub, hsub, hq⟩ := h.enrolled_known j q hj
    exact ⟨sub, hkeep hsub, hq⟩
  · obtain ⟨sub, hsub, hq⟩ := h.abandoned_known j q hj
    exact ⟨sub, hkeep hsub, hq⟩
  · intro j sub hj
    rcases Table.update_some_eq_some.mp hj with ⟨rfl, rfl⟩ | ⟨hne, hj⟩
    · constructor <;> simp [Registry.insert, Registry.put, henr, hab]
    · refine (h.placed j sub hj).awayFrom ⟨Nat.le_succ _, fun k hk => ?_, fun k hk => ?_,
        fun _ _ _ => .rfl, rfl⟩ hne
      · exact ⟨fun hmem => (List.mem_cons.mp hmem).resolve_left hk, List.mem_cons_of_mem _⟩
      · exact ⟨fun hmem => (List.mem_cons.mp hmem).resolve_left hk, List.mem_cons_of_mem _⟩

theorem RegInv.exit (h : RegInv r stopCh) (hi : r.all i = some sub)
    (hlife : sub.life = .running) (hstop : sub.stopCh = true ∨ stopCh = true) :
    RegInv { r.put i { sub with life := .finished } with wg := r.wg.erase i } stopCh := by
  refine h.change hi rfl rfl ?_ h.nodup_subs (h.nodup_wg.erase i) h.nodup_enrolled
    (fun p => h.point_eq hi) ?_ h.books
  · exact ⟨le_rfl, fun _ _ => .rfl, fun j hne => List.mem_erase_of_ne hne, fun _ _ _ => .rfl, rfl⟩
  · have herase : i ∉ r.wg.erase i := h.nodup_wg.not_mem_erase
    obtain ⟨hknown, hwg, henr, hmap, hab, hown, hex, hh⟩ := h.placed i sub hi
    constructor <;> grind [Registry.put]

theorem RegInv.remove (h : RegInv r stopCh) (hi : r.all i = some sub)
    (hstop : sub.stop = .removing) (hmem : i ∈ r.subs) :
    RegInv { r.put i { sub with stop := .unregistering } with subs := r.subs.erase i }
      stopCh := by
  refine h.change hi rfl rfl ?_ (h.nodup_subs.erase i) h.nodup_wg h.nodup_enrolled
    (fun p => h.point_eq hi) ?_ h.books
  · exact ⟨le_rfl, fun j hne => List.mem_erase_of_ne hne, fun _ _ => .rfl, fun _ _ _ => .rfl, rfl⟩
  · have herase : i ∉ r.subs.erase i := h.nodup_subs.not_mem_erase
    obtain ⟨hknown, hwg, henr, hmap, hab, hown, hex, hh⟩ := h.placed i sub hi
    constructor <;> grind [Registry.put]

/-- The channel `stopCh` of the monitor is closed. -/
theorem RegInv.stopAll (h : RegInv r stopCh) : RegInv r true where
  __ := h
  placed i sub hi :=
    { h.placed i sub hi with exited := fun _ => .inr rfl }

/-- `Close` takes the subscriptions from the map. -/
theorem RegInv.takeAll (h : RegInv r stopCh) (hab : r.abandoned = []) :
    RegInv r.takeAll stopCh where
  __ := h
  nodup_subs := List.nodup_nil
  nodup_abandoned := by
    refine List.Nodup.filterMap (fun i j e hi hj => ?_) h.nodup_subs
    obtain ⟨_, -, rfl⟩ := Option.map_eq_some_iff.mp hi
    obtain ⟨_, -, heq⟩ := Option.map_eq_some_iff.mp hj
    exact (congrArg Prod.fst heq).symm
  subs_known := nofun
  abandoned_known i p hmem := by
    obtain ⟨j, -, hj⟩ := List.mem_filterMap.mp hmem
    obtain ⟨sub, hsub, heq⟩ := Option.map_eq_some_iff.mp hj
    obtain ⟨rfl, rfl⟩ := Prod.mk.inj heq
    exact ⟨sub, hsub, rfl⟩
  placed i sub hi := by
    have hi : r.all i = some sub := hi
    have hmem := mem_abandoned_takeAll hi (p := sub.point)
    have hsubs : i ∉ r.takeAll.subs := List.not_mem_nil
    obtain ⟨hknown, hwg, henr, hmap, -, hown, hex, hh⟩ := h.placed i sub hi
    rw [hab] at henr hown
    refine ⟨hknown, hwg, henr.trans ?_, ?_, ?_, ?_, hex, hh⟩ <;> grind

variable [LinearOrder κ] {sort : KeySort (sortKey (α := α))}

theorem RegInv.register (h : RegInv r stopCh) (hi : r.all i = some sub)
    (hlife : sub.life = .registering) :
    RegInv { r.put i { sub with life := .starting } with
      reader := r.reader.register sort [sub.point]
      enrolled := (i, sub.point) :: r.enrolled } stopCh := by
  have hnot : (i, sub.point) ∉ r.enrolled := fun hmem =>
    ((h.placed i sub hi).enrolled.mp hmem).1 hlife
  refine h.change hi rfl rfl ?_ h.nodup_subs h.nodup_wg
    (List.nodup_cons.mpr ⟨hnot, h.nodup_enrolled⟩) ?_ ?_ ?_
  · refine ⟨le_rfl, fun _ _ => .rfl, fun _ _ => .rfl, fun j hne p => ?_, rfl⟩
    exact ⟨fun hmem => (List.mem_cons.mp hmem).resolve_left (by grind), List.mem_cons_of_mem _⟩
  · intro p hp
    rcases List.mem_cons.mp hp with heq | hp
    · exact congrArg Prod.snd heq
    · exact h.point_eq hi hp
  · obtain ⟨hknown, hwg, henr, hmap, hab, hown, hex, hh⟩ := h.placed i sub hi
    constructor <;> grind [Registry.put]
  · rw [points_register, pointsOf_cons, List.map_append, List.map_append]
    exact List.perm_append_comm.trans (h.books.append_left _)

theorem RegInv.unregister [DecidableEq α] (h : RegInv r stopCh)
    (hi : r.all i = some sub) (hstop : sub.stop = .unregistering) :
    RegInv { r.put i { sub with stop := .stopping } with
      reader := r.reader.unregister sort [sub.point]
      enrolled := r.enrolled.erase (i, sub.point) } stopCh := by
  have hplaced := h.placed i sub hi
  have hmem : (i, sub.point) ∈ r.enrolled := by
    refine hplaced.enrolled.mpr ⟨?_, .inr (.inr hstop)⟩
    rcases hplaced.handle (by rw [hstop]; exact nofun) with hl | hl <;> rw [hl] <;> exact nofun
  have hbooks := h.books.trans ((pointsOf_perm (List.perm_cons_erase hmem)).map rangeOf)
  rw [pointsOf_cons, List.map_append] at hbooks
  have hpoints : ((r.reader.unregister sort [sub.point]).points.map rangeOf).Perm
      ((pointsOf (r.enrolled.erase (i, sub.point))).map rangeOf) := by
    cases hp : sub.point with
    | other d =>
      rw [hp] at hbooks
      exact hbooks
    | clusterable c =>
      rw [hp] at hbooks
      rw [points_unregister]
      exact perm_of_eraseP hbooks
  refine h.change hi rfl rfl ?_ h.nodup_subs h.nodup_wg (h.nodup_enrolled.erase _) ?_ ?_ hpoints
  · refine ⟨le_rfl, fun _ _ => .rfl, fun _ _ => .rfl, fun j hne p => ?_, rfl⟩
    exact List.mem_erase_of_ne fun heq => hne (congrArg Prod.fst heq)
  · exact fun p hp => h.point_eq hi (List.mem_of_mem_erase hp)
  · have herase : (i, sub.point) ∉ r.enrolled.erase (i, sub.point) :=
      h.nodup_enrolled.not_mem_erase
    obtain ⟨hknown, hwg, henr, hmap, hab, hown, hex, hh⟩ := hplaced
    constructor <;> grind [Registry.put]

theorem RegInv.regMove [DecidableEq α] {busy : ℕ → Bool} {a : RegStep α}
    (h : RegInv r stopCh) (hm : RegMove sort stopCh busy r a r') : RegInv r' stopCh := by
  cases hm with
  | refuse | stopAgain => exact h
  | subscribe => exact h.insert _
  | register hi hlife => exact h.register hi hlife
  | exit hi hlife hbusy hstop => exact h.exit hi hlife hstop
  | remove hi hstop hmem => exact h.remove hi hstop hmem
  | unregister hi hstop => exact h.unregister hi hstop
  | start hi | stop hi | removeGone hi | signal hi | await hi =>
    -- the phases of a subscription change, and the lists stay
    refine h.put hi rfl ?_
    obtain ⟨hknown, hwg, henr, hmap, hab, hown, hex, hh⟩ := h.placed _ _ hi
    constructor <;> grind

/-- What the steps of the registry leave to `Close`. -/
theorem RegMove.frame [DecidableEq α] {busy : ℕ → Bool} {a : RegStep α}
    (hm : RegMove sort stopCh busy r a r') :
    r'.closed = r.closed ∧ r'.abandoned = r.abandoned ∧
      (r.closed = true → r'.subs ⊆ r.subs ∧ r'.wg ⊆ r.wg) := by
  cases hm with
  | refuse | stopAgain => exact ⟨rfl, rfl, fun _ => ⟨List.Subset.refl _, List.Subset.refl _⟩⟩
  | subscribe hopen =>
    refine ⟨rfl, rfl, fun hclosed => ?_⟩
    rw [hopen] at hclosed
    contradiction
  | exit => exact ⟨rfl, rfl, fun _ => ⟨List.Subset.refl _, List.erase_subset⟩⟩
  | remove => exact ⟨rfl, rfl, fun _ => ⟨List.erase_subset, List.Subset.refl _⟩⟩
  | register | start | stop | removeGone | unregister | signal | await =>
    exact ⟨rfl, rfl, fun _ => ⟨List.Subset.refl _, List.Subset.refl _⟩⟩

end RegInv

/-! ### The invariant of the monitor -/

section MonitorInv

variable {α κ β E : Type}

/-- `Close` has been in its first section under the mutex. -/
def ClosePhase.hasTaken : ClosePhase → Bool
  | .fresh | .entered => false
  | _ => true

/-- `Close` has waited for the goroutines. -/
def ClosePhase.hasWaited : ClosePhase → Bool
  | .waited | .quiet | .closing _ | .done => true
  | _ => false

/-- What `Close` has done, by its phase. -/
structure Shutdown (s : MonitorState α κ β E) : Prop where
  stopCh : s.stopCh = true ↔ s.close ≠ .fresh
  closed : s.reg.closed = s.close.hasTaken
  subs : s.close.hasTaken = true → s.reg.subs = []
  abandoned : s.close.hasTaken = false → s.reg.abandoned = []
  wg : s.close.hasWaited = true → s.reg.wg = []

theorem ClosePhase.hasTaken_of_hasWaited {c : ClosePhase} (h : c.hasWaited = true) :
    c.hasTaken = true := by
  cases c <;> first | rfl | contradiction

variable {s t : MonitorState α κ β E} {r : Registry α κ β}

theorem Shutdown.closeMove (h : Shutdown s) (hm : CloseMove s t) : Shutdown t := by
  cases hm with
  | again => exact h
  | begin hc =>
    obtain ⟨-, hclosed, -, hab, -⟩ := h
    rw [hc] at hclosed hab
    exact ⟨by simp, hclosed, nofun, hab, nofun⟩
  | take hc =>
    have hs := h.stopCh
    rw [hc] at hs
    exact ⟨by simpa using hs, rfl, fun _ => rfl, nofun, nofun⟩
  | stop hc | await hc =>
    obtain ⟨hs, hclosed, hsubs, -, -⟩ := h
    rw [hc] at hs hclosed hsubs
    exact ⟨by simpa using hs, hclosed, hsubs, nofun, nofun⟩
  | wait hc hwg =>
    obtain ⟨hs, hclosed, hsubs, -, -⟩ := h
    rw [hc] at hs hclosed hsubs
    exact ⟨by simpa using hs, hclosed, hsubs, nofun, fun _ => hwg⟩
  | closeEvents hc | lock hc | closeCh hc | unlock hc =>
    obtain ⟨hs, hclosed, hsubs, -, hwg⟩ := h
    rw [hc] at hs hclosed hsubs hwg
    exact ⟨by simpa using hs, hclosed, hsubs, nofun, hwg⟩
  | closeEventsPanic => exact ⟨h.stopCh, h.closed, h.subs, h.abandoned, h.wg⟩

theorem RegInv.closeMove [Clusterable α κ] (h : RegInv s.reg s.stopCh) (hs : Shutdown s)
    (hm : CloseMove s t) : RegInv t.reg t.stopCh := by
  cases hm with
  | begin => exact h.stopAll
  | take hc => exact h.takeAll (hs.abandoned (by rw [hc]; rfl))
  | @stop i rest sub hc hi hmem =>
    refine h.put hi rfl ?_
    have hsubs := hs.subs (by rw [hc]; rfl)
    obtain ⟨hknown, hwg, henr, hmap, hab, hown, hex, hh⟩ := h.placed i sub hi
    constructor <;> grind
  | again | await | wait | closeEvents | closeEventsPanic | lock | closeCh | unlock => exact h

variable [LinearOrder κ] [Clusterable α κ] [DecidableEq α] {sort : KeySort (sortKey (α := α))}

theorem Shutdown.regMove {a : RegStep α} (h : Shutdown s)
    (hm : RegMove sort s.stopCh s.bus.isBusy s.reg a r) : Shutdown { s with reg := r } := by
  obtain ⟨hclosed, hab, hsub⟩ := hm.frame
  refine ⟨h.stopCh, hclosed.trans h.closed, fun ht => ?_, fun ht => ?_, fun hw => ?_⟩
  · obtain ⟨hsubs, -⟩ := hsub (h.closed.trans ht)
    exact List.subset_nil.mp (h.subs ht ▸ hsubs)
  · exact hab.trans (h.abandoned ht)
  · obtain ⟨-, hwg⟩ := hsub (h.closed.trans (ClosePhase.hasTaken_of_hasWaited hw))
    exact List.subset_nil.mp (h.wg hw ▸ hwg)

/-- What every step keeps of the registry and of `Close`. -/
theorem regInv_step {a : MonitorStep α E} (h : RegInv s.reg s.stopCh ∧ Shutdown s)
    (hstep : s.step sort a = some t) : RegInv t.reg t.stopCh ∧ Shutdown t := by
  obtain ⟨hreg, hshut⟩ := h
  cases a with
  | reg a =>
    obtain ⟨r, hr, rfl⟩ := Option.map_eq_some_iff.mp hstep
    have hm := RegMove.of_step hr
    exact ⟨hreg.regMove hm, hshut.regMove hm⟩
  | bus a =>
    obtain ⟨b, -, rfl⟩ := Option.map_eq_some_iff.mp hstep
    exact ⟨hreg, ⟨hshut.stopCh, hshut.closed, hshut.subs, hshut.abandoned, hshut.wg⟩⟩
  | close a =>
    have hm := CloseMove.of_step hstep
    exact ⟨hreg.closeMove hshut hm, hshut.closeMove hm⟩

theorem regInv_of_reachable {cfg : ClusterConfig} {n : ℕ} {G : MonitorState α κ β E →
    MonitorStep α E → Prop} (h : (monitorSystem sort cfg n).Reachable G s) :
    RegInv s.reg s.stopCh ∧ Shutdown s := by
  refine h.invariant (I := fun s => RegInv s.reg s.stopCh ∧ Shutdown s) ?_
    fun s a t hs _ hstep => regInv_step hs hstep
  refine ⟨⟨?_, ?_, ?_, ?_, nofun, nofun, nofun, nofun, nofun, .nil⟩, ⟨by simp [monitorSystem], rfl,
    nofun, fun _ => rfl, nofun⟩⟩
  all_goals exact List.nodup_nil

end MonitorInv

/-! ### In step -/

section InStep

variable {α κ β E : Type}

/-- The subscriptions whose goroutines are in their loops. -/
def Registry.running (r : Registry α κ β) : List (ℕ × DataPoint α) :=
  (List.range (r.nextID + 1)).filterMap fun i => (r.all i).bind fun sub =>
    if sub.life = .running then some (i, sub.point) else none

/-- No call of `Subscribe`, `Stop` or `Close` is in progress. -/
structure Quiescent (s : MonitorState α κ β E) : Prop where
  subs : ∀ i sub, s.reg.all i = some sub →
    (sub.life = .running ∨ sub.life = .finished) ∧ (sub.stop = .fresh ∨ sub.stop = .done)
  close : s.close = .fresh ∨ s.close = .done

theorem nodup_running (r : Registry α κ β) : r.running.Nodup := by
  refine List.Nodup.filterMap (fun i j e hi hj => ?_) List.nodup_range
  obtain ⟨sub, -, hi⟩ := Option.bind_eq_some_iff.mp hi
  obtain ⟨sub', -, hj⟩ := Option.bind_eq_some_iff.mp hj
  obtain ⟨-, hi⟩ := Option.ite_none_right_eq_some.mp hi
  obtain ⟨-, hj⟩ := Option.ite_none_right_eq_some.mp hj
  exact congrArg Prod.fst (Option.some.inj (hi.trans hj.symm))

variable [Clusterable α κ] {s : MonitorState α κ β E} {i : ℕ} {p : DataPoint α}

theorem mem_running (h : RegInv s.reg s.stopCh) : (i, p) ∈ s.reg.running ↔
    ∃ sub, s.reg.all i = some sub ∧ sub.life = .running ∧ sub.point = p := by
  simp only [Registry.running, List.mem_filterMap, Option.bind_eq_some_iff,
    Option.ite_none_right_eq_some, Option.some.injEq, Prod.mk.injEq]
  constructor
  · rintro ⟨j, -, sub, hsub, hlife, rfl, hp⟩
    exact ⟨sub, hsub, hlife, hp⟩
  · rintro ⟨sub, hsub, hlife, hp⟩
    have hle := (h.placed i sub hsub).known
    exact ⟨i, List.mem_range.mpr (Nat.lt_succ_of_le hle), sub, hsub, hlife, rfl, hp⟩

/-- Between calls, a point is registered for a subscription if it runs or has been abandoned, and
not both. -/
theorem enrolled_iff {sub : Subscription α} (h : RegInv s.reg s.stopCh) (hs : Shutdown s)
    (hq : Quiescent s) (hi : s.reg.all i = some sub) :
    ((i, sub.point) ∈ s.reg.enrolled ↔
      sub.life = .running ∨ (i, sub.point) ∈ s.reg.abandoned) ∧
    ¬(sub.life = .running ∧ (i, sub.point) ∈ s.reg.abandoned) := by
  obtain ⟨hlife, hstop⟩ := hq.subs i sub hi
  obtain ⟨-, hwg, henr, hmap, -, hown, hex, -⟩ := h.placed i sub hi
  rcases hq.close with hc | hc
  · -- without `Close`, a running subscription is in the map
    have hopen : s.stopCh ≠ true := fun hopen => hs.stopCh.mp hopen hc
    have hab := hs.abandoned (by rw [hc]; rfl)
    rw [hab] at henr hown ⊢
    constructor <;> grind
  · -- after `Close`, nothing runs
    have hsubs := hs.subs (by rw [hc]; rfl)
    rw [hs.wg (by rw [hc]; rfl)] at hwg
    rw [hsubs] at henr hown
    constructor <;> grind

theorem enrolled_perm (h : RegInv s.reg s.stopCh) (hs : Shutdown s) (hq : Quiescent s) :
    s.reg.enrolled.Perm (s.reg.running ++ s.reg.abandoned) := by
  have hnodup : (s.reg.running ++ s.reg.abandoned).Nodup := by
    refine (nodup_running s.reg).append h.nodup_abandoned fun ⟨i, p⟩ hrun hab => ?_
    obtain ⟨sub, hi, hlife, rfl⟩ := (mem_running h).mp hrun
    exact (enrolled_iff h hs hq hi).2 ⟨hlife, hab⟩
  refine (List.perm_ext_iff_of_nodup h.nodup_enrolled hnodup).mpr fun ⟨i, p⟩ => ?_
  rw [List.mem_append, mem_running h]
  constructor
  · intro henr
    obtain ⟨sub, hi, rfl⟩ := h.enrolled_known i p henr
    rcases (enrolled_iff h hs hq hi).1.mp henr with hlife | hab
    · exact .inl ⟨sub, hi, hlife, rfl⟩
    · exact .inr hab
  · rintro (⟨sub, hi, hlife, rfl⟩ | hab)
    · exact (enrolled_iff h hs hq hi).1.mpr (.inl hlife)
    · obtain ⟨sub, hi, rfl⟩ := h.abandoned_known i p hab
      exact (enrolled_iff h hs hq hi).1.mpr (.inr hab)

variable [LinearOrder κ]

/-- The registered points are those of the running subscriptions: of every range that the reader can
tell from others there are as many. -/
def InStep (s : MonitorState α κ β E) : Prop :=
  ∀ c : α, (s.reg.reader.points.countP fun q => SameRange c q) =
    (pointsOf s.reg.running).countP fun q => SameRange c q

theorem countP_sameRange (c : α) (l : List α) :
    (l.countP fun q => SameRange c q) = (l.map rangeOf).count (rangeOf c) := by
  rw [List.count, List.countP_map]
  refine List.countP_congr fun q _ => ?_
  simp [sameRange_iff]

/-- What is registered too much has been abandoned. -/
theorem countP_points (h : RegInv s.reg s.stopCh) (hs : Shutdown s) (hq : Quiescent s) (c : α) :
    (s.reg.reader.points.countP fun q => SameRange c q) =
      ((pointsOf s.reg.running).countP fun q => SameRange c q) +
        (pointsOf s.reg.abandoned).countP fun q => SameRange c q := by
  have hperm := h.books.trans ((pointsOf_perm (enrolled_perm h hs hq)).map rangeOf)
  rw [countP_sameRange, hperm.count_eq, pointsOf_append, List.map_append, List.count_append,
    countP_sameRange, countP_sameRange]

variable [DecidableEq α] (sort : KeySort (sortKey (α := α))) (cfg : ClusterConfig) (n : ℕ)

/-- Between calls, reader and monitor are in step iff `Close` has not abandoned a point that the
reader can cluster. -/
theorem inStep_iff (h : (monitorSystem sort cfg n).Reachable (fun _ _ => True) s)
    (hq : Quiescent s) : InStep s ↔ pointsOf s.reg.abandoned = [] := by
  obtain ⟨hreg, hs⟩ := regInv_of_reachable h
  have hcount := countP_points hreg hs hq
  constructor
  · intro hstep
    refine List.eq_nil_iff_forall_not_mem.mpr fun c hc => ?_
    have hzero : ((pointsOf s.reg.abandoned).countP fun q => SameRange c q) = 0 := by
      have hc := hcount c
      have hs := hstep c
      omega
    have hself := List.countP_eq_zero.mp hzero c hc
    exact hself (decide_eq_true (sameRange_iff.mpr rfl))
  · intro hnil c
    rw [hcount c, hnil]
    rfl

end InStep

/-! ### Registers -/

section Modbus

variable {β E : Type} {s : MonitorState Modbus.Point Modbus.Area β E}

/-- A point of a Modbus device is its range, so that being in step is equality of multisets. -/
theorem inStep_iff_perm : InStep s ↔ s.reg.reader.points.Perm (pointsOf s.reg.running) := by
  have hinj : Function.Injective (rangeOf : Modbus.Point → Modbus.Area × UInt16 × UInt16) := by
    rintro ⟨a, b, c⟩ ⟨a', b', c'⟩ h
    obtain ⟨rfl, h⟩ := Prod.mk.inj h
    obtain ⟨rfl, rfl⟩ := Prod.mk.inj h
    rfl
  have hcount (c : Modbus.Point) (l : List Modbus.Point) :
      (l.countP fun q => SameRange c q) = l.count c := by
    refine List.countP_congr fun q _ => ?_
    rw [decide_eq_true_iff, beq_iff_eq, sameRange_iff, hinj.eq_iff]
  rw [List.perm_iff_count]
  exact forall_congr' fun c => by rw [hcount, hcount]

/-- Nothing is in progress, as far as the identifiers in use go. -/
def isQuiet (s : MonitorState Modbus.Point Modbus.Area β E) : Bool :=
  ((List.range (s.reg.nextID + 1)).all fun i => (s.reg.all i).all fun sub =>
    decide ((sub.life = .running ∨ sub.life = .finished) ∧
      (sub.stop = .fresh ∨ sub.stop = .done))) &&
  decide (s.close = .fresh ∨ s.close = .done)

theorem quiescent_of_isQuiet (h : RegInv s.reg s.stopCh) (hs : isQuiet s = true) :
    Quiescent s := by
  rw [isQuiet, Bool.and_eq_true, decide_eq_true_iff, List.all_eq_true] at hs
  refine ⟨fun i sub hi => ?_, hs.2⟩
  have hle := (h.placed i sub hi).known
  have hsub := hs.1 i (List.mem_range.mpr (Nat.lt_succ_of_le hle))
  rw [hi] at hsub
  exact of_decide_eq_true hsub

end Modbus

/-- Two subscriptions to one register. One of them is stopped, twice. -/
theorem inStep_stopped :
    let p : Modbus.Point := .holdingRegister 0 1
    ∃ s : MonitorState Modbus.Point Modbus.Area Unit Unit,
      (monitorSystem (.insertion sortKey) defaultClusterConfig 64).Reachable (fun _ _ => True) s ∧
        Quiescent s ∧ s.reg.running = [(1, .clusterable p)] ∧
        s.reg.reader.points.Perm (pointsOf s.reg.running) := by
  intro p
  let steps : List (MonitorStep Modbus.Point Unit) :=
    [.reg (.subscribe (.clusterable p)), .reg (.subscribe (.clusterable p)),
      .reg (.register 2), .reg (.register 1), .reg (.start 1), .reg (.start 2),
      .reg (.stop 2), .reg (.stop 2), .reg (.remove 2), .reg (.unregister 2), .reg (.signal 2),
      .reg (.exit 2), .reg (.await 2)]
  let seen (s : MonitorState Modbus.Point Modbus.Area Unit Unit) :=
    (isQuiet s, s.reg.running, s.reg.abandoned)
  obtain ⟨s, hs, hseen⟩ := TransitionSystem.exists_reachable_of_exec
    (M := monitorSystem (.insertion sortKey) defaultClusterConfig 64) (G := fun _ _ => True)
    (f := seen) (b := (true, [(1, .clusterable p)], [])) steps (by decide +kernel)
  obtain ⟨hquiet, hrunning, hab⟩ : isQuiet s = true ∧ s.reg.running = [(1, .clusterable p)] ∧
    s.reg.abandoned = [] := by simpa [seen] using hseen
  have hq := quiescent_of_isQuiet (regInv_of_reachable hs).1 hquiet
  have hstep := (inStep_iff _ _ _ hs hq).mpr (by rw [hab]; rfl)
  exact ⟨s, hs, hq, hrunning, inStep_iff_perm.mp hstep⟩

/-- A subscription is open when the monitor is closed. Its point stays registered. -/
theorem not_inStep_closed :
    let p : Modbus.Point := .holdingRegister 0 1
    ∃ s : MonitorState Modbus.Point Modbus.Area Unit Unit,
      (monitorSystem (.insertion sortKey) defaultClusterConfig 64).Reachable (fun _ _ => True) s ∧
        Quiescent s ∧ s.close = .done ∧ s.reg.running = [] ∧ s.reg.reader.points = [p] ∧
        ¬InStep s := by
  intro p
  let steps : List (MonitorStep Modbus.Point Unit) :=
    [.reg (.subscribe (.clusterable p)), .reg (.register 1), .reg (.start 1),
      .close .begin, .close .take, .close (.stop 1), .reg (.exit 1), .close .await, .close .wait,
      .close .closeEvents, .close .lock, .close .unlock]
  let seen (s : MonitorState Modbus.Point Modbus.Area Unit Unit) :=
    ((isQuiet s, s.close), s.reg.running, s.reg.reader.points)
  obtain ⟨s, hs, hseen⟩ := TransitionSystem.exists_reachable_of_exec
    (M := monitorSystem (.insertion sortKey) defaultClusterConfig 64) (G := fun _ _ => True)
    (f := seen) (b := ((true, .done), [], [p])) steps (by decide +kernel)
  obtain ⟨hquiet, hclose, hrunning, hpoints⟩ : isQuiet s = true ∧ s.close = .done ∧
    s.reg.running = [] ∧ s.reg.reader.points = [p] := by simpa [seen, and_assoc] using hseen
  have hq := quiescent_of_isQuiet (regInv_of_reachable hs).1 hquiet
  refine ⟨s, hs, hq, hclose, hrunning, hpoints, fun h => ?_⟩
  have hperm := inStep_iff_perm.mp h
  rw [hpoints, hrunning] at hperm
  exact absurd hperm.length_eq (by decide)

end GoIndustrial.Monitor
