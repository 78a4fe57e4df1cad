import GoIndustrial.Lib.GoOrder
import GoIndustrial.Plc.Value
import Mathlib.Data.List.Dedup

/-!
# Planning read windows

`buildWindows` and `findWindow` of `monitor/cluster_plan.go`. The registered points are grouped by
area, each group is sorted by address, and a pass over it merges a point into the open window or
flushes the window and opens a new one. All addresses are 16-bit words, and so is the exclusive end
of a range: the end of a range that touches the last address is 0.

The ends are compared as they are. A window that touches the last address is therefore opened by a
point that does so, and loses its end again as soon as a point that does not is merged into it.

## Main definitions

* `Monitor.Clusterable`, `Monitor.ClusterConfig`, `Monitor.ReadWindow`.
* `Monitor.mergePass`, `Monitor.buildWindows`, `Monitor.findWindow`.
* `Monitor.ReachesEnd` : when the first window of an area touches the last address.

## Main results

* `Monitor.filter_buildWindows` : the windows of an area are those of its own points.
* `Monitor.mergePass_windowOf` : windows are valid ranges, in ascending order of their starts.
* `Monitor.mergePass_head` : the first window touches the last address iff `ReachesEnd`.
-/

namespace GoIndustrial.Monitor

open Plc

/-- The interface `Clusterable`; `clusterExtract` is `none` where the method panics. -/
class Clusterable (α : Type) (κ : outParam Type) where
  clusterKey : α → κ
  clusterAddr : α → UInt16
  clusterQty : α → UInt16
  clusterBitsPerUnit : α → UInt16
  clusterMerge : α → (start count : UInt16) → DataPoint α
  clusterExtract : α → Value α → (clusterStart : UInt16) → Option (Value α)

open Clusterable

structure ClusterConfig where
  gapThreshold : UInt16
  maxRegistersPerRead : UInt16
  maxCoilsPerRead : UInt16
  /-- Nanoseconds. -/
  cacheTTL : ℤ
  enabled : Bool

/-- The configuration of `NewClusteringReader` without options. -/
def defaultClusterConfig : ClusterConfig := ⟨32, 120, 2000, 0, true⟩

/-- A `readWindow`. -/
structure ReadWindow (α κ : Type) where
  key : κ
  start : UInt16
  count : UInt16
  merged : DataPoint α
  points : List α

variable {α κ : Type} [Clusterable α κ]

/-- The exclusive end of a point, as the planner computes it. -/
def pointEnd (p : α) : UInt16 := clusterAddr p + clusterQty p

/-- The variables of the merge pass: `winStart`, `winEnd` and `winPoints`, which is never empty. -/
structure OpenWindow (α : Type) where
  start : UInt16
  stop : UInt16
  first : α
  others : List α

namespace OpenWindow

def ofPoint (p : α) : OpenWindow α := ⟨clusterAddr p, pointEnd p, p, []⟩

def gap (win : OpenWindow α) (p : α) : UInt16 :=
  if win.stop < clusterAddr p then clusterAddr p - win.stop else 0

def mergedCount (win : OpenWindow α) (p : α) : UInt16 :=
  if pointEnd p < win.start then win.stop - win.start else pointEnd p - win.start

def CanMerge (cfg : ClusterConfig) (maxPerRead : UInt16) (win : OpenWindow α) (p : α) : Prop :=
  win.gap p ≤ cfg.gapThreshold ∧ win.mergedCount p ≤ maxPerRead

instance (cfg : ClusterConfig) (maxPerRead : UInt16) (win : OpenWindow α) (p : α) :
    Decidable (CanMerge cfg maxPerRead win p) :=
  inferInstanceAs (Decidable (_ ∧ _))

def merge (win : OpenWindow α) (p : α) : OpenWindow α :=
  { win with
    stop := if win.stop < pointEnd p then pointEnd p else win.stop
    others := win.others ++ [p] }

def flush (key : κ) (win : OpenWindow α) : ReadWindow α κ where
  key := key
  start := win.start
  count := win.stop - win.start
  merged := clusterMerge win.first win.start (win.stop - win.start)
  points := win.first :: win.others

end OpenWindow

/-- The merge pass over the points behind those of the open window. -/
def mergePass (cfg : ClusterConfig) (maxPerRead : UInt16) (key : κ) :
    OpenWindow α → List α → List (ReadWindow α κ)
  | win, [] => [win.flush key]
  | win, p :: ps =>
    if win.CanMerge cfg maxPerRead p then mergePass cfg maxPerRead key (win.merge p) ps
    else win.flush key :: mergePass cfg maxPerRead key (.ofPoint p) ps

/-- The size limit of a group, by its first point. -/
def maxPerRead (cfg : ClusterConfig) (p : α) : UInt16 :=
  if clusterBitsPerUnit p = 1 then cfg.maxCoilsPerRead else cfg.maxRegistersPerRead

/-- The address by which a group is sorted. -/
def sortKey (p : α) : ℕ := (clusterAddr p).toNat

/-- The windows of one group. -/
def groupWindows (sort : KeySort (sortKey (α := α))) (cfg : ClusterConfig) (key : κ)
    (pts : List α) : List (ReadWindow α κ) :=
  match sort.run pts with
  | [] => []
  | p :: ps => mergePass cfg (maxPerRead cfg p) key (.ofPoint p) ps

section Build

variable [LinearOrder κ]

/-- The points of an area. -/
def group (points : List α) (key : κ) : List α := points.filter fun p => clusterKey p = key

/-- The sorted keys of the groups. -/
def groupKeys (points : List α) : List κ :=
  (points.map clusterKey).dedup.insertionSort (· ≤ ·)

def buildWindows (sort : KeySort (sortKey (α := α))) (cfg : ClusterConfig) (points : List α) :
    List (ReadWindow α κ) :=
  (groupKeys points).flatMap fun key => groupWindows sort cfg key (group points key)

/-- The test of `findWindow` on a window of the same area. -/
def ReadWindow.Contains (w : ReadWindow α κ) (p : α) : Prop :=
  w.start ≤ clusterAddr p ∧ pointEnd p ≤ w.start + w.count

instance (w : ReadWindow α κ) (p : α) : Decidable (w.Contains p) :=
  inferInstanceAs (Decidable (_ ∧ _))

/-- `findWindow`: the index of the window, or `none` for -1. -/
def findWindow (windows : List (ReadWindow α κ)) (p : α) : Option ℕ :=
  windows.findIdx? fun w => w.key = clusterKey p && decide (w.Contains p)

end Build

/-! ### Ranges -/

/-- The exclusive end of the range of a point. -/
def rangeStop (p : α) : ℕ := (clusterAddr p).toNat + (clusterQty p).toNat

/-- The range of the point is not empty and lies in the address space. -/
structure ValidRange (p : α) : Prop where
  pos : 0 < (clusterQty p).toNat
  le : rangeStop p ≤ 65536

instance (p : α) : Decidable (ValidRange p) :=
  decidable_of_iff (0 < (clusterQty p).toNat ∧ rangeStop p ≤ 65536)
    ⟨fun h => ⟨h.1, h.2⟩, fun h => ⟨h.pos, h.le⟩⟩

/-- The range of the point touches the last address. -/
def Touches (p : α) : Prop := rangeStop p = 65536

instance (p : α) : Decidable (Touches p) := inferInstanceAs (Decidable (_ = _))

theorem toNat_pointEnd (p : α) : (pointEnd p).toNat = rangeStop p % 65536 :=
  UInt16.toNat_add _ _

namespace ValidRange

variable {p : α}

theorem lt (h : ValidRange p) : (clusterAddr p).toNat < rangeStop p := Nat.lt_add_of_pos_right h.pos

theorem pointEnd_of_touches (ht : Touches p) : pointEnd p = 0 := by
  refine UInt16.toNat_inj.mp ?_
  rw [toNat_pointEnd, ht]
  rfl

theorem toNat_pointEnd_of_not_touches (h : ValidRange p) (ht : ¬ Touches p) :
    (pointEnd p).toNat = rangeStop p := by
  rw [toNat_pointEnd]
  exact Nat.mod_eq_of_lt (lt_of_le_of_ne h.le ht)

theorem toNat_pointEnd_eq_zero (h : ValidRange p) : (pointEnd p).toNat = 0 ↔ Touches p := by
  by_cases ht : Touches p
  · rw [pointEnd_of_touches ht]
    exact iff_of_true rfl ht
  · rw [h.toNat_pointEnd_of_not_touches ht]
    exact iff_of_false ((Nat.zero_le _).trans_lt h.lt).ne' ht

theorem addr_pos (ht : Touches p) : 0 < (clusterAddr p).toNat := by
  have hq := (clusterQty p).toNat_lt
  rw [Touches, rangeStop] at ht
  omega

end ValidRange

/-! ### The merge pass -/

namespace ReadWindow

/-- The range of the window is not empty and lies in the address space. -/
structure Valid (w : ReadWindow α κ) : Prop where
  pos : 0 < w.count.toNat
  le : w.start.toNat + w.count.toNat ≤ 65536

/-- The window touches the last address. -/
def Touches (w : ReadWindow α κ) : Prop := w.start.toNat + w.count.toNat = 65536

end ReadWindow

namespace OpenWindow

/-- The open window is not empty; its end is 0 when it touches the last address. -/
def Valid (win : OpenWindow α) : Prop :=
  win.start.toNat < win.stop.toNat ∨ win.stop.toNat = 0 ∧ 0 < win.start.toNat

variable {win : OpenWindow α} {p : α}

theorem valid_ofPoint (h : ValidRange p) : (ofPoint p).Valid := by
  by_cases ht : Touches p
  · refine .inr ⟨?_, ValidRange.addr_pos ht⟩
    rw [ofPoint, ValidRange.pointEnd_of_touches ht]
    rfl
  · refine .inl ?_
    rw [ofPoint, h.toNat_pointEnd_of_not_touches ht]
    exact h.lt

theorem Valid.start_pos (h : win.Valid) (hstop : win.stop.toNat = 0) : 0 < win.start.toNat := by
  rcases h with h | h
  · omega
  · exact h.2

theorem Valid.merge (h : win.Valid) (hp : ValidRange p)
    (hle : win.start.toNat ≤ (clusterAddr p).toNat) : (win.merge p).Valid := by
  rw [OpenWindow.merge]
  split_ifs with hlt
  · refine .inl ?_
    have hnt : ¬ Touches p := by
      intro ht
      rw [ValidRange.pointEnd_of_touches ht] at hlt
      exact Nat.not_lt_zero _ (UInt16.lt_iff_toNat_lt.mp hlt)
    rw [hp.toNat_pointEnd_of_not_touches hnt]
    exact lt_of_le_of_lt hle hp.lt
  · exact h

theorem start_add_count (h : win.Valid) : win.start.toNat + (win.stop - win.start).toNat =
    if win.stop.toNat = 0 then 65536 else win.stop.toNat := by
  have hs := win.start.toNat_lt
  have he := win.stop.toNat_lt
  rw [UInt16.toNat_sub]
  rcases h with h | ⟨h, h'⟩ <;> split_ifs <;> omega

theorem Valid.flush (h : win.Valid) (key : κ) : (win.flush key).Valid := by
  have hc : (win.flush key).start.toNat + (win.flush key).count.toNat = _ := start_add_count h
  have hs : (win.flush key).start.toNat = win.start.toNat := rfl
  have he := win.stop.toNat_lt
  have hlt := win.start.toNat_lt
  constructor <;> rcases h with h | ⟨h, h'⟩ <;> split_ifs at hc <;> omega

theorem Valid.touches_flush (h : win.Valid) (key : κ) :
    (win.flush key).Touches ↔ win.stop.toNat = 0 := by
  have hc : (win.flush key).start.toNat + (win.flush key).count.toNat = _ := start_add_count h
  have he := win.stop.toNat_lt
  rw [ReadWindow.Touches, hc]
  split_ifs with hstop
  · simp [hstop]
  · exact ⟨fun ht => by omega, fun ht => absurd ht hstop⟩

theorem stop_merge_of_touches (ht : Touches p) : (win.merge p).stop = win.stop := by
  refine if_neg fun hlt => ?_
  rw [ValidRange.pointEnd_of_touches ht] at hlt
  exact Nat.not_lt_zero _ (UInt16.lt_iff_toNat_lt.mp hlt)

theorem stop_merge_ne_zero (h : win.stop.toNat ≠ 0 ∨ (pointEnd p).toNat ≠ 0) :
    (win.merge p).stop.toNat ≠ 0 := by
  have hmerge : (win.merge p).stop = if win.stop < pointEnd p then pointEnd p else win.stop := rfl
  rw [hmerge]
  split_ifs with hlt <;> rw [UInt16.lt_iff_toNat_lt] at hlt <;> omega

end OpenWindow

/-- What the planner says of a window of the area `key`, whose points are among `pts` and do not lie
before `lo`. -/
structure WindowOf (key : κ) (pts : List α) (lo : ℕ) (w : ReadWindow α κ) : Prop where
  key_eq : w.key = key
  valid : w.Valid
  le_start : lo ≤ w.start.toNat
  merged_eq : ∃ p ∈ pts, w.merged = clusterMerge p w.start w.count

theorem WindowOf.mono {key : κ} {pts pts' : List α} {lo lo' : ℕ} {w : ReadWindow α κ}
    (h : WindowOf key pts lo w) (hpts : pts ⊆ pts') (hlo : lo' ≤ lo) : WindowOf key pts' lo' w where
  key_eq := h.key_eq
  valid := h.valid
  le_start := hlo.trans h.le_start
  merged_eq := by
    obtain ⟨p, hp, hm⟩ := h.merged_eq
    exact ⟨p, hpts hp, hm⟩

section MergePass

variable (cfg : ClusterConfig) (m : UInt16) (key : κ)

/-- The points behind an open window: valid ranges in ascending order, none before the window. -/
structure Behind (win : OpenWindow α) (ps : List α) : Prop where
  valid : ∀ p ∈ ps, ValidRange p
  le : ∀ p ∈ ps, win.start.toNat ≤ (clusterAddr p).toNat
  sorted : ps.Pairwise fun p q => sortKey p ≤ sortKey q

namespace Behind

variable {win : OpenWindow α} {p : α} {ps : List α}

theorem merge (h : Behind win (p :: ps)) : Behind (win.merge p) ps where
  valid q hq := h.valid q (List.mem_cons_of_mem _ hq)
  le q hq := h.le q (List.mem_cons_of_mem _ hq)
  sorted := h.sorted.of_cons

theorem ofPoint (h : Behind win (p :: ps)) : Behind (.ofPoint p) ps where
  valid q hq := h.valid q (List.mem_cons_of_mem _ hq)
  le := (List.pairwise_cons.mp h.sorted).1
  sorted := h.sorted.of_cons

end Behind

theorem mergePass_windowOf {win : OpenWindow α} {ps : List α} (hwin : win.Valid)
    (hps : Behind win ps) :
    ∀ w ∈ mergePass cfg m key win ps, WindowOf key (win.first :: ps) win.start.toNat w := by
  have hflush : ∀ (win : OpenWindow α) (ps : List α), win.Valid →
      WindowOf key (win.first :: ps) win.start.toNat (win.flush key) := fun win ps hwin =>
    ⟨rfl, hwin.flush key, le_rfl, win.first, List.mem_cons_self, rfl⟩
  induction ps generalizing win with
  | nil =>
    intro w hw
    rw [List.mem_singleton.mp hw]
    exact hflush win [] hwin
  | cons p ps ih =>
    have hp := hps.valid p List.mem_cons_self
    have hle := hps.le p List.mem_cons_self
    intro w hw
    rw [mergePass] at hw
    split_ifs at hw
    · refine (ih (hwin.merge hp hle) hps.merge w hw).mono ?_ le_rfl
      exact List.cons_subset_cons _ (List.subset_cons_self _ _)
    · rcases List.mem_cons.mp hw with rfl | hw
      · exact hflush win _ hwin
      · exact (ih (OpenWindow.valid_ofPoint hp) hps.ofPoint w hw).mono
          (List.subset_cons_self _ _) hle

/-- The point is close enough to the address space's start, and ends close enough to `start`, to be
merged into a window from `start` to the last address. -/
def JoinsEnd (start : UInt16) (p : α) : Prop :=
  (clusterAddr p).toNat ≤ cfg.gapThreshold.toNat ∧ rangeStop p - start.toNat ≤ m.toNat

instance (start : UInt16) (p : α) : Decidable (JoinsEnd cfg m start p) :=
  inferInstanceAs (Decidable (_ ∧ _))

variable {cfg m key}

theorem canMerge_iff_joinsEnd {win : OpenWindow α} {p : α} (hstop : win.stop.toNat = 0)
    (hpos : 0 < win.start.toNat) (hp : ValidRange p)
    (hle : win.start.toNat ≤ (clusterAddr p).toNat) :
    win.CanMerge cfg m p ↔ JoinsEnd cfg m win.start p := by
  have hs := win.start.toNat_lt
  have ha := (clusterAddr p).toNat_lt
  have hlt := hp.lt
  have hgap : (win.gap p).toNat = (clusterAddr p).toNat := by
    rw [OpenWindow.gap, if_pos (UInt16.lt_iff_toNat_lt.mpr (by omega)), UInt16.toNat_sub]
    omega
  have hcount : (win.mergedCount p).toNat = rangeStop p - win.start.toNat := by
    rw [OpenWindow.mergedCount]
    by_cases ht : Touches p
    · have hend : (pointEnd p).toNat = 0 := by
        rw [ValidRange.pointEnd_of_touches ht]
        rfl
      rw [if_pos (UInt16.lt_iff_toNat_lt.mpr (by omega)), UInt16.toNat_sub]
      rw [Touches] at ht
      omega
    · have hend := hp.toNat_pointEnd_of_not_touches ht
      have hpl := hp.le
      rw [if_neg (fun h => by have := UInt16.lt_iff_toNat_lt.mp h; omega), UInt16.toNat_sub]
      have := (pointEnd p).toNat_lt
      omega
  rw [OpenWindow.CanMerge, JoinsEnd, UInt16.le_iff_toNat_le, UInt16.le_iff_toNat_le, hgap, hcount]

variable (cfg m key) in
/-- The first window starts where the open window does. It touches the last address iff the open
window does and every point that is merged into it does too. -/
theorem mergePass_head {win : OpenWindow α} {ps : List α} (hwin : win.Valid)
    (hps : Behind win ps) :
    ∃ w ws, mergePass cfg m key win ps = w :: ws ∧ w.start = win.start ∧
      (w.Touches ↔ win.stop.toNat = 0 ∧
        ∀ q ∈ ps.takeWhile fun q => JoinsEnd cfg m win.start q, Touches q) := by
  induction ps generalizing win with
  | nil =>
    refine ⟨_, [], rfl, rfl, (hwin.touches_flush key).trans ?_⟩
    simp
  | cons p ps ih =>
    have hp := hps.valid p List.mem_cons_self
    have hle := hps.le p List.mem_cons_self
    rw [mergePass]
    split_ifs with hm
    · obtain ⟨w, ws, heq, hstart, htouch⟩ := ih (hwin.merge hp hle) hps.merge
      refine ⟨w, ws, heq, hstart, htouch.trans ?_⟩
      by_cases hstop : win.stop.toNat = 0
      · rw [canMerge_iff_joinsEnd hstop (hwin.start_pos hstop) hp hle] at hm
        have htake : (p :: ps).takeWhile (fun q => JoinsEnd cfg m win.start q) =
            p :: ps.takeWhile fun q => JoinsEnd cfg m win.start q :=
          List.takeWhile_cons_of_pos (decide_eq_true hm)
        rw [htake, List.forall_mem_cons]
        by_cases ht : Touches p
        · rw [OpenWindow.stop_merge_of_touches ht]
          exact and_congr_right fun _ => (and_iff_right ht).symm
        · have hend : (pointEnd p).toNat ≠ 0 := fun h0 => ht (hp.toNat_pointEnd_eq_zero.mp h0)
          have hne : (win.merge p).stop.toNat ≠ 0 := OpenWindow.stop_merge_ne_zero (.inr hend)
          exact iff_of_false (fun h => hne h.1) fun h => ht h.2.1
      · have hne : (win.merge p).stop.toNat ≠ 0 := OpenWindow.stop_merge_ne_zero (.inl hstop)
        exact iff_of_false (fun h => hne h.1) fun h => hstop h.1
    · refine ⟨_, _, rfl, rfl, (hwin.touches_flush key).trans ?_⟩
      refine ⟨fun hstop => ⟨hstop, ?_⟩, fun h => h.1⟩
      rw [canMerge_iff_joinsEnd hstop (hwin.start_pos hstop) hp hle] at hm
      have htake : (p :: ps).takeWhile (fun q => JoinsEnd cfg m win.start q) = [] :=
        List.takeWhile_cons_of_neg (by simpa using hm)
      rw [htake]
      exact List.forall_mem_nil _

end MergePass

/-! ### The windows of an area -/

theorem key_mergePass {cfg : ClusterConfig} {m : UInt16} {key : κ} {win : OpenWindow α}
    {ps : List α} : ∀ w ∈ mergePass cfg m key win ps, w.key = key := by
  induction ps generalizing win with
  | nil =>
    intro w hw
    rw [List.mem_singleton.mp hw]
    rfl
  | cons p ps ih =>
    intro w hw
    rw [mergePass] at hw
    split_ifs at hw
    · exact ih w hw
    · rcases List.mem_cons.mp hw with rfl | hw
      · rfl
      · exact ih w hw

theorem key_groupWindows {sort : KeySort (sortKey (α := α))} {cfg : ClusterConfig} {key : κ}
    {pts : List α} : ∀ w ∈ groupWindows sort cfg key pts, w.key = key := by
  rw [groupWindows]
  split
  next => exact fun w hw => absurd hw List.not_mem_nil
  next => exact key_mergePass

section Area

variable [LinearOrder κ] (sort : KeySort (sortKey (α := α))) (cfg : ClusterConfig)
  (points : List α) (key : κ)

theorem mem_group {points : List α} {key : κ} {p : α} :
    p ∈ group points key ↔ p ∈ points ∧ clusterKey p = key := by
  rw [group, List.mem_filter, decide_eq_true_iff]

theorem mem_groupKeys {points : List α} {key : κ} :
    key ∈ groupKeys points ↔ ∃ p ∈ points, clusterKey p = key := by
  rw [groupKeys, List.mem_insertionSort, List.mem_dedup, List.mem_map]

theorem nodup_groupKeys : (groupKeys points).Nodup :=
  (List.perm_insertionSort _ _).nodup_iff.mpr (List.nodup_dedup _)

theorem group_eq_nil {points : List α} {key : κ} (h : key ∉ groupKeys points) :
    group points key = [] := by
  refine List.filter_eq_nil_iff.mpr fun p hp hk => h ?_
  exact mem_groupKeys.mpr ⟨p, hp, of_decide_eq_true hk⟩

/-- The windows of an area are those planned for the points of the area. -/
theorem filter_buildWindows :
    (buildWindows sort cfg points).filter (fun w => w.key = key) =
      groupWindows sort cfg key (group points key) := by
  have hfilter : ∀ k, (groupWindows sort cfg k (group points k)).filter (fun w => w.key = key) =
      if k = key then groupWindows sort cfg key (group points key) else [] := by
    intro k
    split_ifs with hk
    · subst hk
      exact List.filter_eq_self.mpr fun w hw => decide_eq_true (key_groupWindows w hw)
    · refine List.filter_eq_nil_iff.mpr fun w hw hkey => hk ?_
      rw [← key_groupWindows w hw, of_decide_eq_true hkey]
  have hflat : ∀ ks : List κ, ks.Nodup → (ks.flatMap fun k =>
      if k = key then groupWindows sort cfg key (group points key) else []) =
        if key ∈ ks then groupWindows sort cfg key (group points key) else [] := by
    intro ks hnd
    induction ks with
    | nil => rfl
    | cons k ks ih =>
      obtain ⟨hk, hnd⟩ := List.nodup_cons.mp hnd
      rw [List.flatMap_cons, ih hnd]
      by_cases h : k = key
      · subst h
        simp [hk]
      · simp [h, Ne.symm h]
  rw [buildWindows, List.filter_flatMap]
  simp only [hfilter]
  rw [hflat _ (nodup_groupKeys points)]
  split_ifs with h
  · rfl
  · rw [group_eq_nil h, groupWindows, sort.run_nil]

/-- The window that `findWindow` finds is the first of the area to contain the point. -/
theorem find_groupWindows (p : α) :
    (findWindow (buildWindows sort cfg points) p).bind
        (fun i => (buildWindows sort cfg points)[i]?) =
      (groupWindows sort cfg (clusterKey p) (group points (clusterKey p))).find?
        fun w => w.Contains p := by
  rw [findWindow, ← List.find?_eq_bind_findIdx?_getElem?, ← filter_buildWindows, List.find?_filter]
  congr 1
  funext w
  simp

end Area

/-! ### What a found window is worth -/

/-- The window holds the whole range of the point. -/
def ReadWindow.Covers (w : ReadWindow α κ) (p : α) : Prop :=
  w.start.toNat ≤ (clusterAddr p).toNat ∧ rangeStop p ≤ w.start.toNat + w.count.toNat

section Found

variable {w : ReadWindow α κ} {p : α}

theorem contains_of_touches (ht : Touches p) :
    w.Contains p ↔ w.start.toNat ≤ (clusterAddr p).toNat := by
  rw [ReadWindow.Contains, ValidRange.pointEnd_of_touches ht, UInt16.le_iff_toNat_le,
    UInt16.le_iff_toNat_le]
  exact and_iff_left (Nat.zero_le _)

/-- A window found for a point covers it, unless the point touches the last address and the window
does not. -/
theorem covers_of_contains (hp : ValidRange p) (hc : w.Contains p)
    (ht : Touches p → w.Touches) : w.Covers p := by
  by_cases htp : Touches p
  · have htw : w.start.toNat + w.count.toNat = 65536 := ht htp
    refine ⟨(contains_of_touches htp).mp hc, ?_⟩
    rw [htw]
    exact hp.le
  · obtain ⟨hs, he⟩ := hc
    rw [UInt16.le_iff_toNat_le] at hs he
    refine ⟨hs, ?_⟩
    rw [hp.toNat_pointEnd_of_not_touches htp, UInt16.toNat_add] at he
    exact he.trans (Nat.mod_le _ _)

/-- The first window of an area touches the last address: its first point `q` does, and so does each
of the points `qs` behind it that is merged into its window. -/
def ReachesEnd (cfg : ClusterConfig) (q : α) (qs : List α) : Prop :=
  Touches q ∧
    ∀ r ∈ qs.takeWhile fun r => JoinsEnd cfg (maxPerRead cfg q) (clusterAddr q) r, Touches r

instance (cfg : ClusterConfig) (q : α) (qs : List α) : Decidable (ReachesEnd cfg q qs) :=
  inferInstanceAs (Decidable (_ ∧ _))

variable {sort : KeySort (sortKey (α := α))} {cfg : ClusterConfig} {key : κ} {pts : List α}
  {q : α} {qs : List α}

theorem behind_of_sort (hv : ∀ p ∈ pts, ValidRange p) (h : sort.run pts = q :: qs) :
    ValidRange q ∧ Behind (.ofPoint q) qs := by
  have hmem : ∀ r ∈ q :: qs, ValidRange r := fun r hr => hv r (sort.mem_run.mp (h ▸ hr))
  have hsorted := sort.sorted pts
  rw [h, List.pairwise_cons] at hsorted
  exact ⟨hmem q List.mem_cons_self, fun r hr => hmem r (List.mem_cons_of_mem _ hr), hsorted.1,
    hsorted.2⟩

theorem windowOf_groupWindows (hv : ∀ p ∈ pts, ValidRange p) :
    ∀ w ∈ groupWindows sort cfg key pts, WindowOf key pts 0 w := by
  rw [groupWindows]
  split
  next => exact fun w hw => absurd hw List.not_mem_nil
  next q qs h =>
    obtain ⟨hq, hqs⟩ := behind_of_sort hv h
    intro w hw
    refine (mergePass_windowOf _ _ _ (OpenWindow.valid_ofPoint hq) hqs w hw).mono ?_ (Nat.zero_le _)
    exact fun r hr => sort.mem_run.mp (h ▸ hr)

variable (cfg key) in
/-- A point that touches the last address is looked for in the first window of its area. -/
theorem find_of_touches (hv : ∀ p ∈ pts, ValidRange p) (ht : Touches p)
    (h : sort.run pts = q :: qs) :
    if sortKey p < sortKey q then
      (groupWindows sort cfg key pts).find? (fun w => w.Contains p) = none
    else
      ∃ w, (groupWindows sort cfg key pts).find? (fun w => w.Contains p) = some w ∧
        w.start = clusterAddr q ∧ (w.Touches ↔ ReachesEnd cfg q qs) := by
  obtain ⟨hq, hqs⟩ := behind_of_sort hv h
  have hwin := OpenWindow.valid_ofPoint hq
  have hgroup : groupWindows sort cfg key pts =
      mergePass cfg (maxPerRead cfg q) key (.ofPoint q) qs := by
    rw [groupWindows, h]
  rw [hgroup]
  split_ifs with hlt
  · refine List.find?_eq_none.mpr fun w hw hc => ?_
    have hle := (mergePass_windowOf _ _ _ hwin hqs w hw).le_start
    have hstart := (contains_of_touches ht).mp (of_decide_eq_true hc)
    exact absurd (hle.trans hstart) (Nat.not_le.mpr hlt)
  · obtain ⟨w, ws, heq, hstart, htouch⟩ :=
      mergePass_head cfg (maxPerRead cfg q) key hwin hqs
    refine ⟨w, ?_, hstart, htouch.trans (and_congr_left fun _ => ?_)⟩
    · rw [heq]
      refine List.find?_cons_of_pos (decide_eq_true ((contains_of_touches ht).mpr ?_))
      rw [hstart]
      exact Nat.not_lt.mp hlt
    · exact hq.toNat_pointEnd_eq_zero

end Found

end GoIndustrial.Monitor
