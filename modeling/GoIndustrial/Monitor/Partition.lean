import GoIndustrial.Modbus.DataPoint
import Mathlib.Data.List.Perm.Basic
import Mathlib.Order.MinMax

/-!
# The windows of a plan and their points

What `buildWindows` does to the registered points, whatever happens at the last address: it deals
them out among the windows, each to a window of its own area, and a window grows by merging no
further than the limit of its area. A window that is larger has a point of that size. As long as no
point of a window touches the last address, its end is the largest end of its points, and the points
that follow one another leave no gap beyond the threshold.

## Main definitions

* `Monitor.largest` : the largest value of a quantity among points.
* `Monitor.GapsWithin` : no point starts too far behind those before it.
* `Monitor.WithinLimits` : what a window of a plan keeps to.

## Main results

* `Monitor.flatMap_points_mergePass` : the merge pass cuts the points of an area into windows.
* `Monitor.buildWindows_partitions` : the windows of a plan partition the registered points, within
  the limits.
-/

namespace GoIndustrial.Monitor

open Plc Clusterable

variable {α κ : Type} [Clusterable α κ]

/-- The largest value of `f` among points. -/
def largest (f : α → ℕ) (points : List α) : ℕ := (points.map f).foldr max 0

theorem largest_append (f : α → ℕ) (points qs : List α) :
    largest f (points ++ qs) = max (largest f points) (largest f qs) := by
  induction points with
  | nil => simp [largest]
  | cons p points ih =>
    simp only [largest, List.cons_append, List.map_cons, List.foldr_cons] at ih ⊢
    rw [ih, max_assoc]

@[simp] theorem largest_singleton (f : α → ℕ) (p : α) : largest f [p] = f p := by simp [largest]

/-- Each point starts at most `gap` behind the largest end of the points before it. -/
def GapsWithin (gap : ℕ) (points : List α) : Prop :=
  ∀ before p behind, points = before ++ p :: behind → before ≠ [] →
    sortKey p ≤ largest rangeStop before + gap

theorem gapsWithin_singleton (gap : ℕ) (p : α) : GapsWithin gap [p] := by
  intro before q behind heq hne
  obtain ⟨b, before, rfl⟩ := List.exists_cons_of_ne_nil hne
  simp at heq

theorem GapsWithin.append_singleton {gap : ℕ} {points : List α} {p : α}
    (h : GapsWithin gap points) (hp : sortKey p ≤ largest rangeStop points + gap) :
    GapsWithin gap (points ++ [p]) := by
  intro before q behind heq hne
  rcases List.eq_nil_or_concat behind with rfl | ⟨behind, r, rfl⟩
  · obtain ⟨rfl, hq⟩ := List.append_inj' heq rfl
    obtain rfl := List.singleton_inj.mp hq
    exact hp
  · rw [List.concat_eq_append, ← List.cons_append, ← List.append_assoc] at heq
    exact h before q behind (List.append_inj' heq rfl).1 hne

/-- What a window of a plan for `points` keeps to. -/
structure WithinLimits (cfg : ClusterConfig) (points : List α) (w : ReadWindow α κ) : Prop where
  area : ∀ p ∈ w.points, clusterKey p = w.key
  /-- The count, where `limit` is the maximum that is configured for the area. -/
  count_le : ∀ limit, (∀ p ∈ points, clusterKey p = w.key → maxPerRead cfg p = limit) →
    w.count.toNat ≤ max limit.toNat (largest (fun p => (clusterQty p).toNat) w.points)
  ascending : w.points.Pairwise fun p q => sortKey p ≤ sortKey q
  gaps : (∀ p ∈ w.points, ¬ Touches p) → GapsWithin cfg.gapThreshold.toNat w.points

/-! ### The open window -/

namespace OpenWindow

/-- The variable `winPoints`. -/
def points (win : OpenWindow α) : List α := win.first :: win.others

theorem points_merge (win : OpenWindow α) (p : α) : (win.merge p).points = win.points ++ [p] := rfl

/-- What the open window keeps to, with the size limit `m`. -/
structure Limits (cfg : ClusterConfig) (m : UInt16) (win : OpenWindow α) : Prop where
  count_le : (win.stop - win.start).toNat ≤
    max m.toNat (largest (fun p => (clusterQty p).toNat) win.points)
  stop_eq : (∀ p ∈ win.points, ¬ Touches p) → win.stop.toNat = largest rangeStop win.points
  gaps : (∀ p ∈ win.points, ¬ Touches p) → GapsWithin cfg.gapThreshold.toNat win.points

variable {cfg : ClusterConfig} {m : UInt16} {win : OpenWindow α} {p : α}

theorem limits_ofPoint (hp : ValidRange p) : (ofPoint p).Limits cfg m where
  count_le := by
    have hcount : (ofPoint p).stop - (ofPoint p).start = clusterQty p := by
      rw [ofPoint, pointEnd, UInt16.add_comm, UInt16.add_sub_cancel]
    rw [hcount]
    exact le_max_of_le_right (by simp [points, ofPoint])
  stop_eq hnt := by
    have h := hp.toNat_pointEnd_of_not_touches (hnt p List.mem_cons_self)
    simpa [points, ofPoint] using h
  gaps _ := gapsWithin_singleton _ p

/-- The larger one of two ends is kept. -/
theorem toNat_stop_merge (win : OpenWindow α) (p : α) :
    (win.merge p).stop.toNat = max win.stop.toNat (pointEnd p).toNat := by
  have hmerge : (win.merge p).stop = if win.stop < pointEnd p then pointEnd p else win.stop := rfl
  rw [hmerge]
  split_ifs with hlt <;> rw [UInt16.lt_iff_toNat_lt] at hlt <;> omega

/-- A point that moves the end is within the size limit. -/
theorem count_merge_le (h : win.Limits cfg m) (hp : ValidRange p)
    (hle : win.start.toNat ≤ (clusterAddr p).toNat) (hm : win.CanMerge cfg m p) :
    ((win.merge p).stop - win.start).toNat ≤
      max m.toNat (largest (fun p => (clusterQty p).toNat) (win.merge p).points) := by
  have hmerge : (win.merge p).stop = if win.stop < pointEnd p then pointEnd p else win.stop := rfl
  rw [hmerge, points_merge, largest_append]
  split_ifs with hlt
  · -- the end of the point is not 0, so that it does not lie before the window
    have hnt : ¬ Touches p := by
      intro ht
      rw [ValidRange.pointEnd_of_touches ht] at hlt
      exact Nat.not_lt_zero _ (UInt16.lt_iff_toNat_lt.mp hlt)
    have hend := hp.toNat_pointEnd_of_not_touches hnt
    have hpos := hp.lt
    have hcount : win.mergedCount p = pointEnd p - win.start := by
      refine if_neg fun hback => ?_
      rw [UInt16.lt_iff_toNat_lt] at hback
      omega
    refine le_max_of_le_left ?_
    rw [← hcount]
    exact UInt16.le_iff_toNat_le.mp hm.2
  · exact h.count_le.trans (max_le_max le_rfl (le_max_left _ _))

/-- A point that is merged is not too far behind the end of the window. -/
theorem sortKey_le_of_canMerge (hm : win.CanMerge cfg m p) :
    sortKey p ≤ win.stop.toNat + cfg.gapThreshold.toNat := by
  have hgap := UInt16.le_iff_toNat_le.mp hm.1
  rw [sortKey]
  by_cases hlt : win.stop < clusterAddr p
  · rw [gap, if_pos hlt, UInt16.toNat_sub_of_le _ _ (UInt16.le_of_lt hlt)] at hgap
    omega
  · rw [UInt16.lt_iff_toNat_lt] at hlt
    omega

theorem Limits.merge (h : win.Limits cfg m) (hp : ValidRange p)
    (hle : win.start.toNat ≤ (clusterAddr p).toNat) (hm : win.CanMerge cfg m p) :
    (win.merge p).Limits cfg m where
  count_le := count_merge_le h hp hle hm
  stop_eq hnt := by
    rw [points_merge, List.forall_mem_append, List.forall_mem_singleton] at hnt
    rw [toNat_stop_merge, points_merge, largest_append, h.stop_eq hnt.1,
      hp.toNat_pointEnd_of_not_touches hnt.2, largest_singleton]
  gaps hnt := by
    rw [points_merge, List.forall_mem_append, List.forall_mem_singleton] at hnt
    have hfar := sortKey_le_of_canMerge hm
    rw [h.stop_eq hnt.1] at hfar
    exact (h.gaps hnt.1).append_singleton hfar

end OpenWindow

/-! ### The merge pass -/

section MergePass

variable {cfg : ClusterConfig} {m : UInt16} {key : κ} {win : OpenWindow α} {ps : List α}

/-- The merge pass cuts its points into windows. -/
theorem flatMap_points_mergePass :
    (mergePass cfg m key win ps).flatMap ReadWindow.points = win.points ++ ps := by
  induction ps generalizing win with
  | nil => simp [mergePass, OpenWindow.flush, OpenWindow.points]
  | cons p ps ih =>
    rw [mergePass]
    split_ifs
    · rw [ih, OpenWindow.points_merge, List.append_assoc]
      rfl
    · rw [List.flatMap_cons, ih]
      rfl

/-- A window that the merge pass flushes was an open window. -/
theorem exists_openWindow_of_mem_mergePass (hwin : win.Limits cfg m) (hps : Behind win ps)
    {w : ReadWindow α κ} (hw : w ∈ mergePass cfg m key win ps) :
    ∃ win' : OpenWindow α, win'.Limits cfg m ∧ w = win'.flush key := by
  induction ps generalizing win with
  | nil => exact ⟨win, hwin, List.mem_singleton.mp hw⟩
  | cons p ps ih =>
    have hp := hps.valid p List.mem_cons_self
    have hle := hps.le p List.mem_cons_self
    rw [mergePass] at hw
    split_ifs at hw with hm
    · exact ih (hwin.merge hp hle hm) hps.merge hw
    · rcases List.mem_cons.mp hw with rfl | hw
      · exact ⟨win, hwin, rfl⟩
      · exact ih (OpenWindow.limits_ofPoint hp) hps.ofPoint hw

end MergePass

/-! ### The windows of an area -/

section Area

variable {sort : KeySort (sortKey (α := α))} {cfg : ClusterConfig} {key : κ} {pts : List α}

theorem flatMap_points_groupWindows :
    (groupWindows sort cfg key pts).flatMap ReadWindow.points = sort.run pts := by
  rw [groupWindows]
  split
  next h => rw [h, List.flatMap_nil]
  next q qs h =>
    rw [flatMap_points_mergePass, h]
    rfl

theorem points_subset_of_mem_groupWindows {w : ReadWindow α κ}
    (hw : w ∈ groupWindows sort cfg key pts) : w.points ⊆ pts := by
  intro p hp
  have hmem : p ∈ (groupWindows sort cfg key pts).flatMap ReadWindow.points :=
    List.mem_flatMap.mpr ⟨w, hw, hp⟩
  rw [flatMap_points_groupWindows] at hmem
  exact sort.mem_run.mp hmem

theorem ascending_of_mem_groupWindows {w : ReadWindow α κ}
    (hw : w ∈ groupWindows sort cfg key pts) :
    w.points.Pairwise fun p q => sortKey p ≤ sortKey q := by
  have hsorted : ((groupWindows sort cfg key pts).flatMap ReadWindow.points).Pairwise
      fun p q => sortKey p ≤ sortKey q := by
    rw [flatMap_points_groupWindows]
    exact sort.sorted pts
  exact (List.pairwise_flatMap.mp hsorted).1 w hw

/-- The windows of an area come from open windows, with the size limit of its first point. -/
theorem exists_openWindow_of_mem_groupWindows (hv : ∀ p ∈ pts, ValidRange p)
    {w : ReadWindow α κ} (hw : w ∈ groupWindows sort cfg key pts) :
    ∃ q ∈ pts, ∃ win : OpenWindow α, win.Limits cfg (maxPerRead cfg q) ∧ w = win.flush key := by
  rw [groupWindows] at hw
  split at hw
  next => exact absurd hw List.not_mem_nil
  next q qs h =>
    obtain ⟨hq, hqs⟩ := behind_of_sort hv h
    refine ⟨q, sort.mem_run.mp (h ▸ List.mem_cons_self), ?_⟩
    exact exists_openWindow_of_mem_mergePass (OpenWindow.limits_ofPoint hq) hqs hw

end Area

/-! ### The windows of a plan -/

section Plan

variable [LinearOrder κ] (sort : KeySort (sortKey (α := α))) (cfg : ClusterConfig)
  (points : List α)

theorem flatMap_points_buildWindows :
    ((buildWindows sort cfg points).flatMap ReadWindow.points).Perm points := by
  have hflat : (buildWindows sort cfg points).flatMap ReadWindow.points =
      (groupKeys points).flatMap fun key => sort.run (group points key) := by
    rw [buildWindows, List.flatMap_assoc]
    exact List.flatMap_congr fun key _ => flatMap_points_groupWindows
  have hsort : ((groupKeys points).flatMap fun key => sort.run (group points key)).Perm
      ((groupKeys points).flatMap (group points)) :=
    List.Perm.flatMap_left _ fun key _ => sort.perm _
  rw [hflat]
  exact hsort.trans (perm_flatMap_filter clusterKey (nodup_groupKeys points)
    fun p hp => mem_groupKeys.mpr ⟨p, hp, rfl⟩)

/-- **The windows partition the points within the limits.** The points of the windows are together
a permutation of the registered points, and every window has points of its own area, no more units
than the limit or its largest point, and, unless one of its points touches the last address, no gap
beyond the threshold. -/
theorem buildWindows_partitions (hv : ∀ p ∈ points, ValidRange p) :
    ((buildWindows sort cfg points).flatMap ReadWindow.points).Perm points ∧
      ∀ w ∈ buildWindows sort cfg points, WithinLimits cfg points w := by
  refine ⟨flatMap_points_buildWindows sort cfg points, fun w hw => ?_⟩
  obtain ⟨key, -, hw⟩ := List.mem_flatMap.mp hw
  have hkey : w.key = key := key_groupWindows w hw
  have hsub := points_subset_of_mem_groupWindows hw
  obtain ⟨q, hq, win, hwin, rfl⟩ :=
    exists_openWindow_of_mem_groupWindows (fun p hp => hv p (mem_group.mp hp).1) hw
  obtain ⟨hqp, hqk⟩ := mem_group.mp hq
  refine ⟨fun p hp => ?_, fun limit hlimit => ?_, ascending_of_mem_groupWindows hw, hwin.gaps⟩
  · exact (mem_group.mp (hsub hp)).2
  · rw [← hlimit q hqp hqk]
    exact hwin.count_le

end Plan

/-- Registers near each other, far from each other, larger than the limit and at the last address,
and coils. -/
theorem buildWindows_partitions_mixed :
    let points : List Modbus.Point := [.holdingRegister 100 200, .coil 3 5, .holdingRegister 10 1,
      .holdingRegister 0 2, .holdingRegister 65535 1]
    ((buildWindows (.insertion sortKey) defaultClusterConfig points).flatMap
        ReadWindow.points).Perm points ∧
      ∀ w ∈ buildWindows (.insertion sortKey) defaultClusterConfig points,
        WithinLimits defaultClusterConfig points w :=
  buildWindows_partitions (.insertion sortKey) defaultClusterConfig _ (by decide)

end GoIndustrial.Monitor
