import GoIndustrial.Lib.GoSlice
import GoIndustrial.Lib.Table
import GoIndustrial.Monitor.Plan

/-!
# Clustered reads

`ClusteringReader` of `monitor/cluster.go` as one goroutine sees it: `Register`, `Unregister` and
`Read`, which serves a point from the window that `findWindow` finds for it and reads the others one
by one. The windows that are needed form a Go map, which is visited in any order, and a cached
window is used as long as the clock says that it is fresh. Sharing reads between goroutines is the
subject of `Monitor.Cache`.

## Main definitions

* `Monitor.ClusteringReader` with `register`, `unregister`, `replan`.
* `Monitor.readWindow`, `Monitor.read`.

## Main results

* `Monitor.read_of_served`, `Monitor.served_of_read` : with an inner reader that answers, `read`
  returns the bytes of every point iff each is served with them.
* `Monitor.read_panics` : `read` panics if one of the extractions does.
-/

namespace GoIndustrial.Monitor

open Plc Clusterable

/-- An inner `plc.Reader`. -/
abbrev Reader (α ε : Type) := List (DataPoint α) → Except ε (List (Value α))

/-- The registered points, the plan and the cache of a `ClusteringReader`: what was read for a
window, of the type `β`, by the index of the window. -/
structure ClusteringReader (α κ β : Type) where
  config : ClusterConfig
  points : List α
  windows : List (ReadWindow α κ)
  gen : ℕ
  cache : ℕ → Option β

/-- `NewClusteringReader`. -/
def newClusteringReader {α κ β : Type} (config : ClusterConfig) : ClusteringReader α κ β :=
  ⟨config, [], [], 0, fun _ => none⟩

/-- A cache of values. -/
abbrev WindowCache (α : Type) := ℕ → Option (Value α)

variable {α κ β ε : Type} [LinearOrder κ] [Clusterable α κ]

/-- The points of a list of data points that are `Clusterable`. -/
def clusterables (points : List (DataPoint α)) : List α :=
  points.filterMap fun
    | .clusterable c => some c
    | .other _ => none

namespace ClusteringReader

variable (sort : KeySort (sortKey (α := α)))

def replan (r : ClusteringReader α κ β) : ClusteringReader α κ β :=
  { r with
    windows := buildWindows sort r.config r.points
    gen := r.gen + 1
    cache := fun _ => none }

def register (r : ClusteringReader α κ β) (points : List (DataPoint α)) : ClusteringReader α κ β :=
  replan sort { r with points := r.points ++ clusterables points }

/-- The points name the same range of the same area. -/
def SameRange (c existing : α) : Prop :=
  clusterKey existing = clusterKey c ∧ clusterAddr existing = clusterAddr c ∧
    clusterQty existing = clusterQty c

instance (c existing : α) : Decidable (SameRange c existing) :=
  inferInstanceAs (Decidable (_ ∧ _ ∧ _))

/-- `Unregister`: for each point, the first registered one with the same range is removed. -/
def unregister (r : ClusteringReader α κ β) (points : List (DataPoint α)) :
    ClusteringReader α κ β :=
  replan sort { r with
    points := (clusterables points).foldl
      (fun pts c => pts.eraseP fun existing => SameRange c existing) r.points }

end ClusteringReader

/-- A `pendingRead`: the index of the point in the results, and its window. -/
inductive Pending (α : Type)
  | direct (idx : ℕ) (point : DataPoint α)
  | clustered (idx winIdx : ℕ) (cluster : α)

namespace Pending

def direct? : Pending α → Option (ℕ × DataPoint α)
  | .direct idx point => some (idx, point)
  | .clustered _ _ _ => none

def clustered? : Pending α → Option (ℕ × ℕ × α)
  | .direct _ _ => none
  | .clustered idx winIdx cluster => some (idx, winIdx, cluster)

end Pending

/-- Which window, if any, serves a point. -/
def classify (windows : List (ReadWindow α κ)) (idx : ℕ) (p : DataPoint α) : Pending α :=
  match p with
  | .other _ => .direct idx p
  | .clusterable c =>
    match findWindow windows c with
    | none => .direct idx p
    | some winIdx => .clustered idx winIdx c

/-- The pending reads of a list of points. -/
def pendingReads (windows : List (ReadWindow α κ)) (points : List (DataPoint α)) :
    List (Pending α) :=
  points.zipIdx.map fun e => classify windows e.2 e.1

section Read

variable (inner : Reader α ε) (fresh : ℕ → Bool) (order : RangeOrder ℕ)

/-- Read a point on its own. -/
def readDirect (p : DataPoint α) : Except (Fault ε) (Value α) :=
  match inner [p] with
  | .error e => .error (.error e)
  | .ok vals => .ok (vals.headD default)

/-- `readWindow`, with no other goroutine reading. -/
def readWindow (r : ClusteringReader α κ (Value α)) (cache : WindowCache α) (winIdx : ℕ) :
    Except (Fault ε) (Value α × WindowCache α) :=
  match if 0 < r.config.cacheTTL ∧ fresh winIdx then cache winIdx else none with
  | some cached => .ok (cached, cache)
  | none =>
    match r.windows[winIdx]? with
    | none => .error .panic
    | some w =>
      match inner [w.merged] with
      | .error e => .error (.error e)
      | .ok [] => .ok (default, cache)
      | .ok (val :: _) =>
        .ok (val, if 0 < r.config.cacheTTL then Function.update cache winIdx (some val) else cache)

/-- The loop over the windows needed: their values by index. -/
def readWindows (r : ClusteringReader α κ (Value α)) :
    List ℕ → WindowCache α → (ℕ → Value α) → Except (Fault ε) ((ℕ → Value α) × WindowCache α)
  | [], cache, windowValues => .ok (windowValues, cache)
  | winIdx :: rest, cache, windowValues => do
    let (val, cache) ← readWindow inner fresh r cache winIdx
    readWindows r rest cache (Function.update windowValues winIdx val)

/-- The value of a point, extracted from that of its window. -/
def extract (r : ClusteringReader α κ (Value α)) (windowValues : ℕ → Value α) (winIdx : ℕ) (c : α) :
    Except (Fault ε) (Value α) :=
  match r.windows[winIdx]? with
  | none => .error .panic
  | some w =>
    match clusterExtract c (windowValues winIdx) w.start with
    | none => .error .panic
    | some val => .ok { val with dataPoint := some (.clusterable c) }

/-- The results, each at its index. -/
def assemble (n : ℕ) (vals : List (ℕ × Value α)) : List (Value α) :=
  vals.foldl (fun results e => results.set e.1 e.2) (List.replicate n default)

/-- `ClusteringReader.Read`: the values and the cache after it. -/
def read (r : ClusteringReader α κ (Value α)) (points : List (DataPoint α)) :
    Except (Fault ε) (List (Value α) × WindowCache α) :=
  if !r.config.enabled then
    match inner points with
    | .error e => .error (.error e)
    | .ok vals => .ok (vals, r.cache)
  else do
    let pending := pendingReads r.windows points
    let direct ← (pending.filterMap Pending.direct?).mapM fun d => do
      let val ← readDirect inner d.2
      return (d.1, val)
    let windowsNeeded := (pending.filterMap Pending.clustered?).map fun c => c.2.1
    let (windowValues, cache) ←
      readWindows inner fresh r (order.run windowsNeeded.dedup) r.cache fun _ => default
    let clustered ← (pending.filterMap Pending.clustered?).mapM fun c => do
      let val ← extract r windowValues c.2.1 c.2.2
      return (c.1, val)
    return (assemble points.length (direct ++ clustered), cache)

end Read

/-! ### Assembling the results -/

omit [LinearOrder κ] [Clusterable α κ] in
theorem getElem?_foldl_set {f : ℕ → Value α} {vals : List (ℕ × Value α)}
    (h : ∀ e ∈ vals, e.2 = f e.1) (results : List (Value α)) (i : ℕ) :
    (vals.foldl (fun results e => results.set e.1 e.2) results)[i]? =
      if i ∈ vals.map Prod.fst ∧ i < results.length then some (f i) else results[i]? := by
  induction vals generalizing results with
  | nil => simp
  | cons e vals ih =>
    rw [List.foldl_cons, ih (fun e he => h e (List.mem_cons_of_mem _ he)), List.length_set,
      List.getElem?_set, h e List.mem_cons_self]
    by_cases hi : i < results.length
    · by_cases hmem : i ∈ vals.map Prod.fst
      · simp [hi, hmem]
      · by_cases he : e.1 = i
        · subst he
          simp [hi]
        · simp [hi, hmem, he, Ne.symm he]
    · have hnone := List.getElem?_eq_none (Nat.not_lt.mp hi)
      simp only [hi, and_false, if_false, hnone]
      split_ifs with he hl
      · exact absurd (he ▸ hl) hi
      · rfl
      · rfl

/-- Every result is set at its own index. -/
theorem assemble_eq {f : ℕ → Value α} {n : ℕ} {vals : List (ℕ × Value α)}
    (h : ∀ e ∈ vals, e.2 = f e.1) (hall : ∀ i < n, i ∈ vals.map Prod.fst) :
    assemble n vals = (List.range n).map f := by
  refine List.ext_getElem? fun i => ?_
  rw [assemble, getElem?_foldl_set h, List.length_replicate, List.getElem?_map]
  by_cases hi : i < n
  · simp [hi, hall i hi]
  · simp [hi]

section Pending

variable {windows : List (ReadWindow α κ)} {points : List (DataPoint α)}

theorem mem_pendingReads {x : Pending α} :
    x ∈ pendingReads windows points ↔ ∃ i p, points[i]? = some p ∧ classify windows i p = x := by
  rw [pendingReads, List.mem_map]
  constructor
  · rintro ⟨⟨p, i⟩, he, rfl⟩
    exact ⟨i, p, List.mem_zipIdx_iff_getElem?.mp he, rfl⟩
  · rintro ⟨i, p, hp, rfl⟩
    exact ⟨(p, i), List.mem_zipIdx_iff_getElem?.mpr hp, rfl⟩

theorem classify_eq (windows : List (ReadWindow α κ)) (i : ℕ) (p : DataPoint α) :
    classify windows i p = .direct i p ∨ ∃ winIdx c, classify windows i p = .clustered i winIdx c ∧
      p = .clusterable c ∧ findWindow windows c = some winIdx := by
  cases p with
  | other => exact .inl rfl
  | clusterable c =>
    cases hf : findWindow windows c with
    | none => exact .inl (by simp only [classify, hf])
    | some winIdx => exact .inr ⟨winIdx, c, by simp only [classify, hf], rfl, hf⟩

theorem mem_direct {d : ℕ × DataPoint α}
    (h : d ∈ (pendingReads windows points).filterMap Pending.direct?) :
    points[d.1]? = some d.2 ∧ classify windows d.1 d.2 = .direct d.1 d.2 := by
  obtain ⟨x, hx, hd⟩ := List.mem_filterMap.mp h
  obtain ⟨i, p, hp, rfl⟩ := mem_pendingReads.mp hx
  rcases classify_eq windows i p with hcl | ⟨winIdx, c, hcl, -⟩ <;> rw [hcl] at hd
  · cases hd
    exact ⟨hp, hcl⟩
  · cases hd

theorem mem_clustered {c : ℕ × ℕ × α}
    (h : c ∈ (pendingReads windows points).filterMap Pending.clustered?) :
    points[c.1]? = some (.clusterable c.2.2) ∧ findWindow windows c.2.2 = some c.2.1 := by
  obtain ⟨x, hx, hc⟩ := List.mem_filterMap.mp h
  obtain ⟨i, p, hp, rfl⟩ := mem_pendingReads.mp hx
  rcases classify_eq windows i p with hcl | ⟨winIdx, c, hcl, rfl, hf⟩ <;> rw [hcl] at hc
  · cases hc
  · cases hc
    exact ⟨hp, hf⟩

theorem mem_clustered_of_findWindow {i winIdx : ℕ} {c : α} (hp : points[i]? = some (.clusterable c))
    (hf : findWindow windows c = some winIdx) :
    (i, winIdx, c) ∈ (pendingReads windows points).filterMap Pending.clustered? := by
  refine List.mem_filterMap.mpr ⟨classify windows i (.clusterable c), ?_, ?_⟩
  · exact mem_pendingReads.mpr ⟨i, _, hp, rfl⟩
  · simp only [classify, hf]
    rfl

theorem mem_idx_of_getElem? {i : ℕ} {p : DataPoint α} (hp : points[i]? = some p) :
    i ∈ ((pendingReads windows points).filterMap Pending.direct?).map Prod.fst ∨
      i ∈ ((pendingReads windows points).filterMap Pending.clustered?).map Prod.fst := by
  rcases classify_eq windows i p with hcl | ⟨winIdx, c, hcl, rfl, hf⟩
  · have hmem : Pending.direct i p ∈ pendingReads windows points :=
      mem_pendingReads.mpr ⟨i, p, hp, hcl⟩
    exact .inl (List.mem_map.mpr ⟨(i, p), List.mem_filterMap.mpr ⟨_, hmem, rfl⟩, rfl⟩)
  · exact .inr (List.mem_map.mpr ⟨_, mem_clustered_of_findWindow hp hf, rfl⟩)

end Pending

/-! ### Reads that are answered -/

section Served

variable {inner : Reader α ε}
  {r : ClusteringReader α κ (Value α)} {S : DataPoint α → Prop} {answer : DataPoint α → List UInt8}

/-- The inner reader answers the points that satisfy `S`, with the bytes `answer`. -/
def AnswersOn (inner : Reader α ε) (S : DataPoint α → Prop) (answer : DataPoint α → List UInt8) :
    Prop :=
  ∀ ps, (∀ p ∈ ps, S p) → ∃ vals, inner ps = .ok vals ∧ vals.map Value.raw = ps.map answer

/-- The cache holds the bytes of the windows under their indices. -/
def CoherentCache (r : ClusteringReader α κ (Value α)) (answer : DataPoint α → List UInt8)
    (cache : WindowCache α) : Prop :=
  ∀ i val, cache i = some val → ∃ w, r.windows[i]? = some w ∧ val.raw = answer w.merged

omit [LinearOrder κ] [Clusterable α κ] in
theorem AnswersOn.single (h : AnswersOn inner S answer) {p : DataPoint α} (hp : S p) :
    ∃ val, inner [p] = .ok [val] ∧ val.raw = answer p := by
  obtain ⟨vals, hvals, hraw⟩ := h [p] fun q hq => (List.mem_singleton.mp hq) ▸ hp
  have hlen := congrArg List.length hraw
  rw [List.length_map] at hlen
  obtain ⟨val, rfl⟩ := List.length_eq_one_iff.mp hlen
  exact ⟨val, hvals, List.head_eq_of_cons_eq hraw⟩

omit [LinearOrder κ] [Clusterable α κ] in
theorem readDirect_ok (h : AnswersOn inner S answer) {p : DataPoint α} (hp : S p) :
    ∃ val, readDirect inner p = .ok val ∧ val.raw = answer p := by
  obtain ⟨val, hval, hraw⟩ := h.single hp
  refine ⟨val, ?_, hraw⟩
  rw [readDirect, hval]
  rfl

omit [LinearOrder κ] [Clusterable α κ] in
theorem readWindow_ok (fresh : ℕ → Bool) (h : AnswersOn inner S answer) {cache : WindowCache α}
    (hc : CoherentCache r answer cache) {i : ℕ} {w : ReadWindow α κ}
    (hw : r.windows[i]? = some w) (hS : S w.merged) :
    ∃ val cache', readWindow inner fresh r cache i = .ok (val, cache') ∧
      val.raw = answer w.merged ∧ CoherentCache r answer cache' := by
  rw [readWindow]
  split
  next cached hcached =>
    split_ifs at hcached
    obtain ⟨w', hw', hraw⟩ := hc i cached hcached
    obtain rfl := Option.some.inj (hw.symm.trans hw')
    exact ⟨cached, cache, rfl, hraw, hc⟩
  next =>
    obtain ⟨val, hval, hraw⟩ := h.single hS
    simp only [hw, hval]
    refine ⟨val, _, rfl, hraw, ?_⟩
    split_ifs
    · exact Table.forall_update_some hc ⟨w, hw, hraw⟩
    · exact hc

omit [LinearOrder κ] [Clusterable α κ] in
theorem readWindows_ok (fresh : ℕ → Bool) (h : AnswersOn inner S answer)
    (hS : ∀ w ∈ r.windows, S w.merged)
    {l : List ℕ} (hl : ∀ i ∈ l, i < r.windows.length) {cache : WindowCache α}
    (hc : CoherentCache r answer cache) (vals₀ : ℕ → Value α) :
    ∃ vals cache', readWindows inner fresh r l cache vals₀ = .ok (vals, cache') ∧
      CoherentCache r answer cache' ∧ (∀ i ∉ l, vals i = vals₀ i) ∧
      ∀ i ∈ l, ∀ w, r.windows[i]? = some w → (vals i).raw = answer w.merged := by
  induction l generalizing cache vals₀ with
  | nil =>
    exact ⟨vals₀, cache, rfl, hc, fun _ _ => rfl, fun i hi => absurd hi List.not_mem_nil⟩
  | cons i l ih =>
    have hw : r.windows[i]? = some (r.windows.get ⟨i, hl i List.mem_cons_self⟩) :=
      List.getElem?_eq_getElem _
    obtain ⟨val, cache₁, hread, hraw, hc₁⟩ :=
      readWindow_ok fresh h hc hw (hS _ (List.get_mem _ _))
    obtain ⟨vals, cache₂, hrest, hc₂, hout, hin⟩ :=
      ih (fun j hj => hl j (List.mem_cons_of_mem _ hj)) hc₁ (Function.update vals₀ i val)
    refine ⟨vals, cache₂, ?_, hc₂, fun j hj => ?_, fun j hj w hjw => ?_⟩
    · rw [readWindows, hread]
      exact hrest
    · rw [List.mem_cons, not_or] at hj
      rw [hout j hj.2, Function.update_of_ne hj.1]
    · by_cases hjl : j ∈ l
      · exact hin j hjl w hjw
      · obtain rfl := (List.mem_cons.mp hj).resolve_right hjl
        rw [hout j hjl, Function.update_self, hraw]
        rw [hw] at hjw
        rw [Option.some.inj hjw]

/-- What extraction does with the bytes of a value. -/
def ExtractsRaw (extractRaw : α → List UInt8 → UInt16 → Option (List UInt8)) : Prop :=
  ∀ c (val : Value α) start,
    (clusterExtract c val start).map Value.raw = extractRaw c val.raw start

/-- The bytes with which a point is served; `none` when extracting them panics. -/
def servedRaw (extractRaw : α → List UInt8 → UInt16 → Option (List UInt8))
    (answer : DataPoint α → List UInt8) (windows : List (ReadWindow α κ)) (p : DataPoint α) :
    Option (List UInt8) :=
  match p with
  | .other _ => some (answer p)
  | .clusterable c =>
    match (findWindow windows c).bind fun i => windows[i]? with
    | none => some (answer p)
    | some w => extractRaw c (answer w.merged) w.start

variable {extractRaw : α → List UInt8 → UInt16 → Option (List UInt8)}

theorem lt_of_findWindow {windows : List (ReadWindow α κ)} {p : α} {i : ℕ}
    (h : findWindow windows p = some i) : i < windows.length :=
  (List.findIdx?_eq_some_iff_findIdx_eq.mp h).1

/-- The value that a pending read gives. -/
def Pending.value (inner : Reader α ε) (r : ClusteringReader α κ (Value α))
    (windowValues : ℕ → Value α) : Pending α → Except (Fault ε) (Value α)
  | .direct _ p => readDirect inner p
  | .clustered _ winIdx c => extract r windowValues winIdx c

theorem value_classify (h : AnswersOn inner S answer) (hE : ExtractsRaw extractRaw)
    {windowValues : ℕ → Value α} {p : DataPoint α} (hp : S p)
    (hvals : ∀ c i w, p = .clusterable c → findWindow r.windows c = some i →
      r.windows[i]? = some w → (windowValues i).raw = answer w.merged) (idx : ℕ) :
    match servedRaw extractRaw answer r.windows p with
    | some raw => ∃ val, (classify r.windows idx p).value inner r windowValues = .ok val ∧
      val.raw = raw
    | none => (classify r.windows idx p).value inner r windowValues = .error .panic := by
  cases p with
  | other => exact readDirect_ok h hp
  | clusterable c =>
    simp only [servedRaw, classify]
    cases hf : findWindow r.windows c with
    | none => exact readDirect_ok h hp
    | some i =>
      have hw : r.windows[i]? = some (r.windows.get ⟨i, lt_of_findWindow hf⟩) :=
        List.getElem?_eq_getElem _
      have hraw := hvals c i _ rfl hf hw
      have hex := hE c (windowValues i) (r.windows.get ⟨i, lt_of_findWindow hf⟩).start
      simp only [Option.bind_some, hw, Pending.value, extract]
      rw [← hraw, ← hex]
      cases clusterExtract c (windowValues i) (r.windows.get ⟨i, lt_of_findWindow hf⟩).start with
      | none => rfl
      | some val => exact ⟨_, rfl, rfl⟩

/-- The value of a successful read. -/
def okValue : Except (Fault ε) (Value α) → Value α
  | .ok val => val
  | .error _ => default

/-- The value at an index of the results. -/
def valueAt (inner : Reader α ε) (r : ClusteringReader α κ (Value α)) (windowValues : ℕ → Value α)
    (points : List (DataPoint α)) (i : ℕ) : Value α :=
  match points[i]? with
  | some p => okValue ((classify r.windows i p).value inner r windowValues)
  | none => default

theorem assemble_pending (points : List (DataPoint α)) (windowValues : ℕ → Value α) :
    assemble points.length
      (((pendingReads r.windows points).filterMap Pending.direct?).map
          (fun d => (d.1, okValue (readDirect inner d.2))) ++
        ((pendingReads r.windows points).filterMap Pending.clustered?).map
          fun c => (c.1, okValue (extract (ε := ε) r windowValues c.2.1 c.2.2))) =
      (List.range points.length).map (valueAt inner r windowValues points) := by
  refine assemble_eq (fun e he => ?_) fun i hi => ?_
  · rcases List.mem_append.mp he with he | he
    · obtain ⟨d, hd, rfl⟩ := List.mem_map.mp he
      obtain ⟨hi, hcl⟩ := mem_direct hd
      simp only [valueAt, hi, hcl, Pending.value]
    · obtain ⟨c, hc, rfl⟩ := List.mem_map.mp he
      obtain ⟨hi, hf⟩ := mem_clustered hc
      simp only [valueAt, hi, classify, hf, Pending.value]
  · rw [List.map_append, List.map_map, List.map_map, List.mem_append]
    exact mem_idx_of_getElem? (List.getElem?_eq_getElem hi)

/-- The windows needed are the windows of the plan that serve a requested point. -/
theorem mem_windowsNeeded {points : List (DataPoint α)} (order : RangeOrder ℕ) {i : ℕ} :
    i ∈ order.run (((pendingReads r.windows points).filterMap Pending.clustered?).map
      fun c => c.2.1).dedup ↔
      ∃ c, .clusterable c ∈ points ∧ findWindow r.windows c = some i := by
  rw [(order.perm _).mem_iff, List.mem_dedup, List.mem_map]
  constructor
  · rintro ⟨c, hc, rfl⟩
    obtain ⟨hp, hf⟩ := mem_clustered hc
    exact ⟨c.2.2, List.mem_of_getElem? hp, hf⟩
  · rintro ⟨c, hc, hf⟩
    obtain ⟨k, hk⟩ := List.mem_iff_getElem?.mp hc
    exact ⟨_, mem_clustered_of_findWindow hk hf, rfl⟩

variable {points : List (DataPoint α)} {rawOf : DataPoint α → List UInt8}
  (fresh : ℕ → Bool) (order : RangeOrder ℕ) (h : AnswersOn inner S answer)
  (hE : ExtractsRaw extractRaw) (hen : r.config.enabled = true)
  (hS : ∀ w ∈ r.windows, S w.merged) (hc : CoherentCache r answer r.cache) (hp : ∀ p ∈ points, S p)
include h hE hen hS hc hp

/-- With an inner reader that answers, `read` comes down to the extraction of the points that
windows serve; what each pending read gives is what `servedRaw` says. -/
theorem read_eq_clustered :
    ∃ windowValues cache, CoherentCache r answer cache ∧
      (∀ i p, points[i]? = some p →
        match servedRaw extractRaw answer r.windows p with
        | some raw => ∃ val, (classify r.windows i p).value inner r windowValues = .ok val ∧
          val.raw = raw
        | none => (classify r.windows i p).value inner r windowValues = .error .panic) ∧
      read inner fresh order r points = (do
        let clustered ← ((pendingReads r.windows points).filterMap Pending.clustered?).mapM
          fun c => do
            let val ← extract r windowValues c.2.1 c.2.2
            return (c.1, val)
        return (assemble points.length
          (((pendingReads r.windows points).filterMap Pending.direct?).map
            (fun d => (d.1, okValue (readDirect inner d.2))) ++ clustered), cache)) := by
  have hneeded : ∀ i ∈ order.run (((pendingReads r.windows points).filterMap
      Pending.clustered?).map fun c => c.2.1).dedup, i < r.windows.length := by
    intro i hi
    obtain ⟨c, -, hf⟩ := (mem_windowsNeeded order).mp hi
    exact lt_of_findWindow hf
  obtain ⟨windowValues, cache, hread, hcoh, -, hin⟩ :=
    readWindows_ok fresh h hS hneeded hc fun _ => default
  have hdirect : ((pendingReads r.windows points).filterMap Pending.direct?).mapM (fun d => do
      let val ← readDirect inner d.2
      return (d.1, val)) = .ok (((pendingReads r.windows points).filterMap Pending.direct?).map
        fun d => (d.1, okValue (readDirect inner d.2))) := by
    refine GoSlice.mapM_ok fun d hd => ?_
    obtain ⟨val, hval, -⟩ := readDirect_ok h (hp d.2 (List.mem_of_getElem? (mem_direct hd).1))
    rw [hval]
    rfl
  refine ⟨windowValues, cache, hcoh, fun i p hi => ?_, ?_⟩
  · have hmem := List.mem_of_getElem? hi
    refine value_classify h hE (hp p hmem) (fun c j w hpc hf hw => ?_) i
    exact hin j ((mem_windowsNeeded order).mpr ⟨c, hpc ▸ hmem, hf⟩) w hw
  · rw [read, if_neg (by simp [hen])]
    simp only [hdirect, hread]
    rfl

/-- If every point is served, `read` returns the bytes with which it is. -/
theorem read_of_served
    (hserved : ∀ p ∈ points, servedRaw extractRaw answer r.windows p = some (rawOf p)) :
    ∃ vals cache, read inner fresh order r points = .ok (vals, cache) ∧
      vals.map Value.raw = points.map rawOf ∧ CoherentCache r answer cache := by
  obtain ⟨windowValues, cache, hcoh, hpending, hread⟩ :=
    read_eq_clustered fresh order h hE hen hS hc hp
  have hvalue : ∀ i p, points[i]? = some p → ∃ val,
      (classify r.windows i p).value inner r windowValues = .ok val ∧ val.raw = rawOf p := by
    intro i p hi
    have hval := hpending i p hi
    rwa [hserved p (List.mem_of_getElem? hi)] at hval
  have hclustered : ((pendingReads r.windows points).filterMap Pending.clustered?).mapM (fun c => do
      let val ← extract r windowValues c.2.1 c.2.2
      return (c.1, val)) = (.ok (((pendingReads r.windows points).filterMap Pending.clustered?).map
        fun c => (c.1, okValue (extract (ε := ε) r windowValues c.2.1 c.2.2))) :
          Except (Fault ε) (List (ℕ × Value α))) := by
    refine GoSlice.mapM_ok fun c hcmem => ?_
    obtain ⟨hi, hf⟩ := mem_clustered hcmem
    obtain ⟨val, hval, -⟩ := hvalue c.1 _ hi
    simp only [classify, hf, Pending.value] at hval
    rw [hval]
    rfl
  refine ⟨(List.range points.length).map (valueAt inner r windowValues points), cache, ?_, ?_, hcoh⟩
  · rw [hread, hclustered, ← assemble_pending]
    rfl
  · rw [List.map_map]
    refine List.ext_getElem? fun i => ?_
    rw [List.getElem?_map, List.getElem?_map]
    by_cases hi : i < points.length
    · obtain ⟨val, hval, hraw⟩ := hvalue i _ (List.getElem?_eq_getElem hi)
      rw [List.getElem?_range hi, List.getElem?_eq_getElem hi]
      simp only [Option.map_some, Function.comp_apply, valueAt, List.getElem?_eq_getElem hi, hval,
        okValue, hraw]
    · rw [List.getElem?_eq_none (Nat.not_lt.mp hi), List.getElem?_eq_none (by simpa using hi)]
      rfl

/-- If extracting a point panics, so does `read`. -/
theorem read_panics {p : DataPoint α} (hmem : p ∈ points)
    (hserved : servedRaw extractRaw answer r.windows p = none) :
    read inner fresh order r points = .error .panic := by
  obtain ⟨windowValues, cache, -, hvalue, hread⟩ :=
    read_eq_clustered fresh order h hE hen hS hc hp
  have hclustered : ((pendingReads r.windows points).filterMap Pending.clustered?).mapM (fun c => do
      let val ← extract r windowValues c.2.1 c.2.2
      return (c.1, val)) = (.error .panic : Except (Fault ε) (List (ℕ × Value α))) := by
    refine GoSlice.mapM_panic (fun c hcmem => ?_) ?_
    · obtain ⟨hi, hf⟩ := mem_clustered hcmem
      have hval := hvalue c.1 _ hi
      simp only [classify, hf, Pending.value] at hval
      split at hval
      next =>
        obtain ⟨val, hval, -⟩ := hval
        rw [hval]
        exact .inl ⟨_, rfl⟩
      next =>
        rw [hval]
        exact .inr rfl
    · obtain ⟨i, hi⟩ := List.mem_iff_getElem?.mp hmem
      have hval := hvalue i p hi
      rw [hserved] at hval
      rcases classify_eq r.windows i p with hcl | ⟨winIdx, c, hcl, rfl, hf⟩
      · obtain ⟨val, hok, -⟩ := readDirect_ok h (hp p hmem)
        simp only [hcl, Pending.value, hok] at hval
        cases hval
      · refine ⟨_, mem_clustered_of_findWindow hi hf, ?_⟩
        simp only [hcl, Pending.value] at hval
        rw [hval]
        rfl
  rw [hread, hclustered]
  rfl

/-- What `read` returns for a point, if it returns, are the bytes with which it is served. -/
theorem served_of_read {vals : List (Value α)} {cache : WindowCache α}
    (hread : read inner fresh order r points = .ok (vals, cache))
    (hraw : vals.map Value.raw = points.map rawOf) :
    ∀ p ∈ points, servedRaw extractRaw answer r.windows p = some (rawOf p) := by
  have hsome : ∀ p ∈ points, servedRaw extractRaw answer r.windows p =
      some ((servedRaw extractRaw answer r.windows p).getD []) := by
    intro p hmem
    cases hs : servedRaw extractRaw answer r.windows p with
    | none =>
      rw [read_panics fresh order h hE hen hS hc hp hmem hs] at hread
      cases hread
    | some raw => rfl
  obtain ⟨vals', cache', hread', hraw', -⟩ := read_of_served fresh order h hE hen hS hc hp hsome
  obtain ⟨rfl, -⟩ := Prod.mk.inj (Except.ok.inj (hread.symm.trans hread'))
  intro p hmem
  rw [hsome p hmem]
  exact congrArg some (List.map_inj_left.mp (hraw'.symm.trans hraw) p hmem)

end Served

end GoIndustrial.Monitor
