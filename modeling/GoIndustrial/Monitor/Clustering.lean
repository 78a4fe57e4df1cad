import GoIndustrial.Modbus.DataPoint
import GoIndustrial.Monitor.Read

/-!
# Clustering is invisible, except at the last address

A `ClusteringReader` over an inner reader that answers every valid range of Modbus points from one
memory should return for each requested point the bytes that reading it on its own returns. It does
so for every point that does not touch the last address. A point that does has the 16-bit end 0,
which passes the test `end <= wEnd` of `findWindow` for every window, so it is served from the first
window of its area unless it lies before that window; the answer is right only if that window
touches the last address too.

## Main definitions

* `Monitor.Invisible` : a request returns what reading each point on its own returns.
* `Monitor.EndServed` : the plan serves a point that touches the last address.

## Main results

* `Monitor.served_iff_endServed` : when a point is served with its own bytes.
* `Monitor.invisible_iff_endServed` : clustering is invisible iff it is disabled or every requested
  point that touches the last address is `EndServed`.
* `Monitor.read_last_register_panics` : a request that panics in the default configuration.
-/

namespace GoIndustrial.Monitor

open Plc Modbus

variable {ε : Type} (sort : KeySort (sortKey (α := Point))) (cfg : ClusterConfig)
  (registered requested : List Point)

/-- The bytes that a memory answers for a data point. -/
def memoryAnswer (mem : Memory) : DataPoint Point → List UInt8
  | .clusterable p => mem.raw p
  | .other _ => []

/-- The data point is a valid range. -/
def IsValidPoint (d : DataPoint Point) : Prop := ∃ p, d = .clusterable p ∧ ValidRange p

/-- A new reader with the points registered. -/
def registeredReader : ClusteringReader Point Area (Value Point) :=
  (newClusteringReader cfg).register sort (registered.map .clusterable)

/-- Clustering is invisible for a request: whatever the memory from which the inner reader answers,
the order in which windows are read and the windows that are cached, `Read` does not panic and
returns the bytes of the requested points. -/
def Invisible : Prop :=
  ∀ (ε : Type) (inner : Reader Point ε) (mem : Memory),
    AnswersOn inner IsValidPoint (memoryAnswer mem) →
    ∀ fresh order cache,
      CoherentCache (registeredReader sort cfg registered) (memoryAnswer mem) cache →
      ∃ vals cache', read inner fresh order { registeredReader sort cfg registered with cache }
          (requested.map .clusterable) = .ok (vals, cache') ∧
        vals.map Value.raw = requested.map mem.raw

/-- No point of the area of `p` is registered, or `p` lies before the first of them, or the first
window of the area touches the last address. -/
def EndServed (p : Point) : Prop :=
  match sort.run (group registered p.area) with
  | [] => True
  | q :: qs => sortKey p < sortKey q ∨ ReachesEnd cfg q qs

instance (p : Point) : Decidable (EndServed sort cfg registered p) :=
  match h : sort.run (group registered p.area) with
  | [] => isTrue (by rw [EndServed, h]; trivial)
  | q :: qs => decidable_of_iff (sortKey p < sortKey q ∨ ReachesEnd cfg q qs)
      (by rw [EndServed, h])

theorem windows_registeredReader : (registeredReader sort cfg registered).windows =
    buildWindows sort cfg registered := by
  have hpoints : clusterables (registered.map DataPoint.clusterable) = registered := by
    rw [clusterables, List.filterMap_map]
    exact List.filterMap_some
  rw [registeredReader, ClusteringReader.register, hpoints]
  rfl

theorem extractsRaw_point : ExtractsRaw Point.extractRaw := by
  intro p val start
  change (Point.clusterExtract p val start).map Value.raw = _
  rw [Point.clusterExtract, Option.map_map]
  exact Option.map_id_fun' ▸ rfl

variable {sort cfg registered requested}

section Served

variable {p : Point} {w : ReadWindow Point Area}

/-- A window of the area of `p` is a valid range of that area. -/
theorem merged_of_mem (hreg : ∀ q ∈ registered, ValidRange q)
    (hw : w ∈ groupWindows sort cfg p.area (group registered p.area)) :
    w.Valid ∧ w.merged = .clusterable ⟨p.area, w.start, w.count⟩ := by
  have hof := windowOf_groupWindows (fun q hq => hreg q (mem_group.mp hq).1) w hw
  obtain ⟨q, hq, hmerged⟩ := hof.merged_eq
  have harea : q.area = p.area := (mem_group.mp hq).2
  refine ⟨hof.valid, ?_⟩
  rw [hmerged, ← harea]
  rfl

theorem servedRaw_eq (mem : Memory) (p : Point) :
    servedRaw Point.extractRaw (memoryAnswer mem) (buildWindows sort cfg registered)
        (.clusterable p) =
      match (groupWindows sort cfg p.area (group registered p.area)).find? (fun w => w.Contains p)
        with
      | none => some (mem.raw p)
      | some w => p.extractRaw (memoryAnswer mem w.merged) w.start := by
  have harea : Clusterable.clusterKey p = p.area := rfl
  rw [servedRaw, find_groupWindows, harea]
  cases (groupWindows sort cfg p.area (group registered p.area)).find? fun w => w.Contains p with
  | none => rfl
  | some w => rfl

/-- The window found for a point covers it, if the plan serves the end of the address space. -/
theorem covers_of_find (hreg : ∀ q ∈ registered, ValidRange q) (hp : ValidRange p)
    (hend : Touches p → EndServed sort cfg registered p)
    (hf : (groupWindows sort cfg p.area (group registered p.area)).find? (fun w => w.Contains p) =
      some w) : w.Covers p := by
  have hcontains := List.find?_some hf
  refine covers_of_contains hp (of_decide_eq_true hcontains) fun ht => ?_
  have hserved := hend ht
  rw [EndServed] at hserved
  split at hserved
  next hnil =>
    rw [groupWindows, hnil] at hf
    cases hf
  next q qs hsort =>
    have hfind := find_of_touches cfg p.area (fun q hq => hreg q (mem_group.mp hq).1) ht hsort
    split_ifs at hfind with hlt
    · rw [hf] at hfind
      cases hfind
    · obtain ⟨w', hf', -, htouch⟩ := hfind
      obtain rfl := Option.some.inj (hf.symm.trans hf')
      exact htouch.mpr (hserved.resolve_left hlt)

/-- A point is served with its own bytes, whatever the memory, iff the plan serves the end of the
address space or the point does not touch it. -/
theorem served_iff_endServed (hreg : ∀ q ∈ registered, ValidRange q) (hp : ValidRange p) :
    (∀ mem : Memory, servedRaw Point.extractRaw (memoryAnswer mem)
      (buildWindows sort cfg registered) (.clusterable p) = some (mem.raw p)) ↔
      (Touches p → EndServed sort cfg registered p) := by
  constructor
  · intro h ht
    rw [EndServed]
    split
    next => trivial
    next q qs hsort =>
      have hserved := h .ones
      rw [servedRaw_eq] at hserved
      have hfind := find_of_touches cfg p.area (fun q hq => hreg q (mem_group.mp hq).1) ht hsort
      by_contra hnot
      obtain ⟨hle, hreach⟩ := not_or.mp hnot
      rw [if_neg hle] at hfind
      obtain ⟨w, hf, hstart, htouch⟩ := hfind
      obtain ⟨hvalid, hmerged⟩ := merged_of_mem hreg (List.mem_of_find?_eq_some hf)
      simp only [hf, hmerged] at hserved
      refine extractRaw_ne_of_short ?_ hp.pos ?_ hserved
      · rw [hstart]
        exact Nat.not_lt.mp hle
      · have hlt := lt_of_le_of_ne hvalid.le fun h => hreach (htouch.mp h)
        exact hlt.trans_eq ht.symm
  · intro h mem
    rw [servedRaw_eq]
    split
    next => rfl
    next w hf =>
      obtain ⟨hs, he⟩ := covers_of_find hreg hp h hf
      rw [(merged_of_mem hreg (List.mem_of_find?_eq_some hf)).2]
      exact extractRaw_of_covers hs he

end Served

/-! ### Requests -/

theorem mem_windows_valid (hreg : ∀ q ∈ registered, ValidRange q) :
    ∀ w ∈ buildWindows sort cfg registered, IsValidPoint w.merged := by
  intro w hw
  obtain ⟨key, -, hw⟩ := List.mem_flatMap.mp hw
  obtain ⟨hvalid, hmerged⟩ := merged_of_mem (p := ⟨key, 0, 0⟩) hreg hw
  exact ⟨_, hmerged, hvalid.pos, hvalid.le⟩

/-- The reader that answers every request from a memory. -/
def memoryReader (mem : Memory) : Reader Point ε := fun ds =>
  .ok (ds.map fun d => ⟨some d, memoryAnswer mem d, .unknown, .bigEndian⟩)

theorem answersOn_memoryReader (mem : Memory) (S : DataPoint Point → Prop) :
    AnswersOn (memoryReader (ε := ε) mem) S (memoryAnswer mem) := by
  intro ds _
  refine ⟨_, rfl, ?_⟩
  rw [List.map_map]
  rfl

/-- **Clustering is invisible** for a request of valid ranges iff it is disabled or the plan serves
the requested points that touch the last address. -/
theorem invisible_iff_endServed (hreg : ∀ q ∈ registered, ValidRange q)
    (hreq : ∀ p ∈ requested, ValidRange p) :
    Invisible sort cfg registered requested ↔
      cfg.enabled = false ∨ ∀ p ∈ requested, Touches p → EndServed sort cfg registered p := by
  have hwin := windows_registeredReader sort cfg registered
  have hS : ∀ w ∈ (registeredReader sort cfg registered).windows, IsValidPoint w.merged := by
    rw [hwin]
    exact mem_windows_valid hreg
  have hpoints : ∀ d ∈ requested.map DataPoint.clusterable, IsValidPoint d := by
    intro d hd
    obtain ⟨p, hp, rfl⟩ := List.mem_map.mp hd
    exact ⟨p, rfl, hreq p hp⟩
  have hraws : ∀ mem : Memory, requested.map mem.raw =
      (requested.map DataPoint.clusterable).map (memoryAnswer mem) := by
    intro mem
    rw [List.map_map]
    rfl
  constructor
  · intro h
    by_cases hen : cfg.enabled = true
    · refine .inr fun p hp => (served_iff_endServed hreg (hreq p hp)).mp fun mem => ?_
      obtain ⟨vals, cache', hread, hraw⟩ := h Empty (memoryReader mem) mem
        (answersOn_memoryReader mem _) (fun _ => true) .asGiven (fun _ => none)
        fun _ _ hnone => by cases hnone
      rw [hraws] at hraw
      have hserved := served_of_read _ _ (answersOn_memoryReader mem _) extractsRaw_point hen hS
        (fun _ _ hnone => by cases hnone) hpoints hread hraw (.clusterable p)
        (List.mem_map_of_mem hp)
      rwa [← hwin]
    · exact .inl (Bool.eq_false_iff.mpr hen)
  · intro h ε inner mem hinner fresh order cache hcache
    by_cases hen : cfg.enabled = true
    · have hend := h.resolve_left (by simp [hen])
      have hserved : ∀ d ∈ requested.map DataPoint.clusterable,
          servedRaw Point.extractRaw (memoryAnswer mem)
            (registeredReader sort cfg registered).windows d = some (memoryAnswer mem d) := by
        intro d hd
        obtain ⟨p, hp, rfl⟩ := List.mem_map.mp hd
        rw [hwin]
        exact (served_iff_endServed hreg (hreq p hp)).mpr (hend p hp) mem
      obtain ⟨vals, cache', hread, hraw, -⟩ := read_of_served fresh order
        (r := { registeredReader sort cfg registered with cache }) hinner extractsRaw_point hen hS
        hcache hpoints hserved
      exact ⟨vals, cache', hread, hraw.trans (hraws mem).symm⟩
    · obtain ⟨vals, hvals, hraw⟩ := hinner _ hpoints
      refine ⟨vals, cache, ?_, hraw.trans (hraws mem).symm⟩
      have hdis : cfg.enabled = false := Bool.eq_false_iff.mpr hen
      have hcfg : (registeredReader sort cfg registered).config.enabled = false := hdis
      simp only [read, hcfg, hvals]
      rfl

/-- Points of all areas, registered and not, one of them at the last address. -/
theorem invisible_mixed_request :
    Invisible (.insertion sortKey) defaultClusterConfig
      [.holdingRegister 10 1, .holdingRegister 0 2, .coil 3 5, .inputRegister 65535 1]
      [.holdingRegister 1 1, .coil 4 2, .inputRegister 65535 1, .discreteInput 65530 6] :=
  (invisible_iff_endServed (by decide) (by decide)).mpr (.inr (by decide))

/-- Two holding registers, the first and the last, in the default configuration: the last one is
looked for in the window of the first, and extracting it panics. -/
theorem read_last_register_panics :
    read (memoryReader (ε := Empty) .ones) (fun _ => true) .asGiven
        (registeredReader (.insertion sortKey) defaultClusterConfig
          [.holdingRegister 0 1, .holdingRegister 65535 1])
        [.clusterable (.holdingRegister 65535 1)] = .error .panic ∧
      ¬ Invisible (.insertion sortKey) defaultClusterConfig
        [.holdingRegister 0 1, .holdingRegister 65535 1] [.holdingRegister 65535 1] := by
  have hpanic : read (memoryReader (ε := Empty) .ones) (fun _ => true) .asGiven
      (registeredReader (.insertion sortKey) defaultClusterConfig
        [.holdingRegister 0 1, .holdingRegister 65535 1])
      [.clusterable (.holdingRegister 65535 1)] = .error .panic := rfl
  refine ⟨hpanic, fun h => ?_⟩
  obtain ⟨vals, cache', hread, -⟩ := h Empty (memoryReader .ones) .ones
    (answersOn_memoryReader .ones _) (fun _ => true) .asGiven (fun _ => none)
    fun _ _ hnone => by cases hnone
  cases hpanic.symm.trans hread

end GoIndustrial.Monitor
