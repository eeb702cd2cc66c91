import DnsBuffer.Dashboard.Spline
import DnsBuffer.Dashboard.Trend
import Mathlib.Algebra.Order.Round
import Mathlib.Algebra.Order.Archimedean.Real.Basic
import Mathlib.Analysis.Real.Sqrt

/-!
# The chart of the trend

`drawTrend` of the dashboard page turns the response of the trend into three curves, one for each
series, and `hoverIndex` finds the bucket under the mouse. The axis is scaled for the number of all
queries; the other two series fit under it because the store never counts more blocked queries or
cache hits in a bucket than queries (`countersContained_of_run`), also in a bucket that a cleanup
has cut through.

So every curve stays inside the plot area, between its samples too (`trend_stays_inside`), and what
the mouse marks is the sample of each curve that is nearest to it (`hover_marks_nearest`).
-/

namespace DnsBuffer

/-! ### The counters of the store -/

/-- No more blocked queries, and no more cache hits, than queries. -/
def Counters.Contained (c : Counters) : Prop := c.2.1 ≤ c.1 ∧ c.2.2 ≤ c.1

/-- All aggregates are so. -/
def Db.CountersContained (db : Db) : Prop :=
  ∀ g, ∀ row ∈ db.statTable g, row.counters.Contained

section Counters

variable {db db' : Db}

theorem Counters.Contained.add {c c' : Counters} (h : c.Contained) (h' : c'.Contained) :
    (c + c').Contained := ⟨Nat.add_le_add h.1 h'.1, Nat.add_le_add h.2 h'.2⟩

theorem countersOf_contained (blocked cacheHit : Bool) :
    (countersOf blocked cacheHit).Contained := ⟨Bool.toNat_le blocked, Bool.toNat_le cacheHit⟩

theorem StatTable.contained_upsert {table : StatTable} {b : ℤ} {c : Counters}
    (h : ∀ row ∈ table, row.counters.Contained) (hc : c.Contained) :
    ∀ row ∈ table.upsert b c, row.counters.Contained := by
  intro row hrow
  rw [StatTable.upsert] at hrow
  split at hrow
  · obtain ⟨old, hold, rfl⟩ := List.mem_map.1 hrow
    split
    · exact (h old hold).add hc
    · exact h old hold
  · rcases List.mem_append.1 hrow with hold | hnew
    · exact h row hold
    · rw [List.mem_singleton.1 hnew]
      exact hc

theorem StatTable.contained_countersAt {table : StatTable}
    (h : ∀ row ∈ table, row.counters.Contained) (b : ℤ) : (table.countersAt b).Contained := by
  rw [StatTable.countersAt]
  rcases hfind : table.find? (fun row ↦ row.bucketMs = b) with - | row
  · rw [hfind]
    exact ⟨le_rfl, le_rfl⟩
  · rw [hfind]
    exact h row (List.mem_of_find?_eq_some hfind)

theorem Db.CountersContained.deleteBefore (h : db.CountersContained) (cutoff : ℤ) :
    (db.deleteBefore cutoff).CountersContained :=
  fun g row hrow ↦ h g row (mem_statTable_deleteBefore.1 hrow).1

variable [Chrono]

theorem Db.CountersContained.addEvent (h : db.CountersContained) (e : QueryEvent) :
    (db.addEvent e).CountersContained := by
  intro g
  cases g with
  | hour => exact StatTable.contained_upsert (h .hour) (countersOf_contained _ _)
  | day => exact StatTable.contained_upsert (h .day) (countersOf_contained _ _)

theorem Db.CountersContained.insertEvents (h : db.CountersContained) {events : List QueryEvent}
    (hok : db.insertEvents events = .ok db') : db'.CountersContained := by
  induction events generalizing db with
  | nil =>
    cases hok
    exact h
  | cons e events ih =>
    rw [Db.insertEvents, List.foldlM_cons, Db.insertEvent] at hok
    split at hok
    · cases hok
    · split at hok
      · exact ih (h.addEvent e) hok
      · cases hok

theorem Db.CountersContained.step {s s' : StoreState} {op : StoreOp} (h : s.db.CountersContained)
    (hstep : StoreState.machine.step s op = some s') : s'.db.CountersContained := by
  rcases StoreState.db_of_step hstep with hsame | ⟨events, hok⟩ | ⟨cutoff, hdeleted⟩
  · rw [hsame]
    exact h
  · exact h.insertEvents hok
  · rw [hdeleted]
    exact h.deleteBefore cutoff

theorem countersContained_of_run {s : StoreState} {ops : List StoreOp}
    (hrun : StoreState.machine.run StoreState.empty ops = some s) : s.db.CountersContained :=
  Machine.run_invariant (I := fun s ↦ s.db.CountersContained) (fun _ _ _ h hstep ↦ h.step hstep)
    hrun fun g row hrow ↦ by cases g <;> cases hrow

end Counters

namespace Chart

/-! ### Drawing -/

/-- The series of the chart. -/
inductive Series
  | totalQueries
  | blockedQueries
  | cacheHits
deriving DecidableEq

/-- `series`, in the order in which they are drawn. -/
def series : List Series := [.totalQueries, .blockedQueries, .cacheHits]

/-- The counter of a bucket that a series shows. -/
def Series.count (row : TrendBucket) : Series → ℕ
  | .totalQueries => row.counters.1
  | .blockedQueries => row.counters.2.1
  | .cacheHits => row.counters.2.2

/-- What the browser tells about a canvas: its size on the page, and the width of the text of a
count. -/
structure Canvas (K : Type) where
  rectWidth : K
  rectHeight : K
  textWidth : K → K

/-- The plot area, `state.layout`. -/
structure Layout (K : Type) where
  left : K
  top : K
  plotWidth : K
  plotHeight : K

variable {K : Type} [Field K] [LinearOrder K]

/-- `normalizeValue`; what is not a finite number is none. -/
def normalizeValue : Option K → K
  | some number => if 0 ≤ number then number else 0
  | none => 0

/-- A bucket as the page has it: a value for every series. -/
abbrev ChartBucket (K : Type) := Series → Option K

/-- A bucket of the response, on the page. -/
def chartBucket (row : TrendBucket) : ChartBucket K := fun key ↦ some (key.count row : K)

section Draw

variable (canvas : Canvas K) (buckets : List (ChartBucket K))

/-- `maximum`. -/
def maximum : K := (buckets.map fun bucket ↦ normalizeValue (bucket .totalQueries)).foldl max 1

/-- `topTick`: some room above the highest bucket, the factor 1.08. -/
def topTick : K := maximum buckets * (27 / 25)

/-- `xAt`. -/
def Layout.xAt (layout : Layout K) (count index : ℕ) : K :=
  layout.left +
    if count = 1 then layout.plotWidth / (2 : ℕ)
    else layout.plotWidth * index / ((count - 1 : ℕ) : K)

/-- `yAt`. -/
def Layout.yAt (layout : Layout K) (topTick : K) (value : Option K) : K :=
  layout.top + layout.plotHeight - normalizeValue value / topTick * layout.plotHeight

variable [FloorRing K]

/-- `setupCanvas`: the width and the height to draw on. -/
def setupCanvas (minHeight : K) : K × K :=
  (max 1 (⌊canvas.rectWidth⌋ : K), max minHeight (⌊canvas.rectHeight⌋ : K))

/-- The layout of `drawTrend`: what the insets leave of the canvas. -/
def trendLayout : Layout K :=
  let size := setupCanvas canvas 160
  let left : K := (⌈canvas.textWidth (topTick buckets)⌉ : K) + 15
  { left := left
    top := 18
    plotWidth := max 1 (size.1 - left - 10)
    plotHeight := max 1 (size.2 - 18 - 38) }

/-- The points of a series. -/
def trendPoints (key : Series) : List (Point K) :=
  let layout := trendLayout canvas buckets
  buckets.mapIdx fun index bucket ↦
    ⟨layout.xAt buckets.length index, layout.yAt (topTick buckets) (bucket key)⟩

/-- `drawTrend`: the layout and the path of every series, or none where there is nothing to draw. -/
def drawTrend (sqrt : K → K) : Option (Layout K × List (Series × List (PathCommand K))) :=
  if buckets.isEmpty then none
  else some (trendLayout canvas buckets, series.map fun key ↦
    (key, strokeSmoothLine sqrt (trendPoints canvas buckets key)))

/-- `hoverIndex`: the bucket for a position of the mouse on the canvas. -/
def hoverIndex (x left plotWidth : K) (count : ℕ) : Option ℕ :=
  if plotWidth ≤ 0 ∨ count = 0 then none
  else if x < left - 8 ∨ left + plotWidth + 8 < x then none
  else if count = 1 then some 0
  else
    let ratio := min 1 (max 0 ((x - left) / plotWidth))
    some (round (ratio * ((count - 1 : ℕ) : K))).toNat

/-- `drawTrendHover`: the mark of every series for the bucket under the mouse. -/
def hoverMarks (x : K) : List (Series × Point K) :=
  let layout := trendLayout canvas buckets
  match hoverIndex x layout.left layout.plotWidth buckets.length with
  | none => []
  | some index =>
    match buckets[index]? with
    | none => []
    | some bucket => series.map fun key ↦
      (key, ⟨layout.xAt buckets.length index, layout.yAt (topTick buckets) (bucket key)⟩)

end Draw

/-! ### Inside the plot area -/

section Inside

variable [IsStrictOrderedRing K]

/-- The plot area. -/
def Layout.Contains (layout : Layout K) (p : Point K) : Prop :=
  p.x ∈ Set.Icc layout.left (layout.left + layout.plotWidth) ∧
    p.y ∈ Set.Icc layout.top (layout.top + layout.plotHeight)

/-- A path that keeps the shape of points in the plot area stays in it. -/
theorem ShapePreserving.contains {layout : Layout K} {points : List (Point K)}
    {path : List (PathCommand K)} (h : ShapePreserving points path)
    (hpoints : ∀ p ∈ points, layout.Contains p) {p : Point K} {c : PathCommand K}
    (hpiece : (p, c) ∈ pieces path) {t : K} (ht : t ∈ Set.Icc (0 : K) 1) :
    layout.Contains (c.trace p t) := by
  obtain ⟨hp, hc⟩ := List.of_mem_zip hpiece
  rw [h.through] at hp
  have hstart := hpoints p hp
  have hend : layout.Contains c.target := by
    refine hpoints c.target ?_
    rw [← h.through]
    exact List.mem_map_of_mem (List.mem_of_mem_tail hc)
  obtain ⟨hx, hy⟩ := (h.direct p c hpiece).mem_uIcc ht
  exact ⟨Set.uIcc_subset_Icc hstart.1 hend.1 hx, Set.uIcc_subset_Icc hstart.2 hend.2 hy⟩

omit [Field K] [IsStrictOrderedRing K] in
theorem le_foldl_max (xs : List K) (a : K) :
    a ≤ xs.foldl max a ∧ ∀ x ∈ xs, x ≤ xs.foldl max a := by
  induction xs generalizing a with
  | nil => exact ⟨le_rfl, fun x hx ↦ absurd hx List.not_mem_nil⟩
  | cons b xs ih =>
    obtain ⟨hstart, hmem⟩ := ih (max a b)
    refine ⟨(le_max_left a b).trans hstart, fun x hx ↦ ?_⟩
    rcases List.mem_cons.1 hx with rfl | hx
    · exact (le_max_right a x).trans hstart
    · exact hmem x hx

variable (canvas : Canvas K) (buckets : List (ChartBucket K))

theorem topTick_pos : 0 < topTick buckets :=
  mul_pos (zero_lt_one.trans_le (le_foldl_max _ 1).1) (by norm_num)

/-- The axis covers the bucket with the most queries. -/
theorem normalizeValue_le_topTick {bucket : ChartBucket K} (h : bucket ∈ buckets) :
    normalizeValue (bucket .totalQueries) ≤ topTick buckets := by
  obtain ⟨hone, hmem⟩ :=
    le_foldl_max (buckets.map fun bucket ↦ normalizeValue (bucket .totalQueries)) 1
  have hle := hmem _ (List.mem_map_of_mem h)
  refine hle.trans (le_mul_of_one_le_right (zero_le_one.trans hone) (by norm_num))

omit [IsStrictOrderedRing K] in
theorem normalizeValue_nonneg (value : Option K) : 0 ≤ normalizeValue value := by
  unfold normalizeValue
  split
  · split_ifs with h
    · exact h
    · exact le_rfl
  · exact le_rfl

theorem normalizeValue_natCast (n : ℕ) : normalizeValue (some (n : K)) = n :=
  if_pos (Nat.cast_nonneg n)

variable {layout : Layout K}

theorem xAt_mem_Icc (hwidth : 0 ≤ layout.plotWidth) {count index : ℕ} (h : index < count) :
    layout.xAt count index ∈ Set.Icc layout.left (layout.left + layout.plotWidth) := by
  unfold Layout.xAt
  split_ifs with hone
  · exact ⟨by linarith, by linarith⟩
  · have hpos : (0 : K) < ((count - 1 : ℕ) : K) := Nat.cast_pos.2 (by omega)
    have hle : (index : K) ≤ ((count - 1 : ℕ) : K) := Nat.cast_le.2 (by omega)
    have hquot : layout.plotWidth * index / ((count - 1 : ℕ) : K) ≤ layout.plotWidth :=
      (div_le_iff₀ hpos).2 (mul_le_mul_of_nonneg_left hle hwidth)
    exact ⟨le_add_of_nonneg_right (by positivity), by linarith⟩

theorem yAt_mem_Icc (hheight : 0 ≤ layout.plotHeight) {top : K} (htop : 0 < top) {value : Option K}
    (h : normalizeValue value ≤ top) :
    layout.yAt top value ∈ Set.Icc layout.top (layout.top + layout.plotHeight) := by
  have hshare : normalizeValue value / top ≤ 1 := (div_le_one htop).2 h
  have hnonneg : 0 ≤ normalizeValue value / top := div_nonneg (normalizeValue_nonneg value) htop.le
  have hle := mul_le_of_le_one_left hheight hshare
  have hge := mul_nonneg hnonneg hheight
  unfold Layout.yAt
  exact ⟨by linarith, by linarith⟩

theorem xAt_lt_xAt (hwidth : 0 < layout.plotWidth) {count i j : ℕ} (hij : i < j) (hj : j < count) :
    layout.xAt count i < layout.xAt count j := by
  have hpos : (0 : K) < ((count - 1 : ℕ) : K) := Nat.cast_pos.2 (by omega)
  unfold Layout.xAt
  rw [if_neg (by omega), if_neg (by omega)]
  have hlt : (i : K) < j := Nat.cast_lt.2 hij
  gcongr

variable [FloorRing K]

omit [IsStrictOrderedRing K] in
theorem plotWidth_pos : 0 < (trendLayout canvas buckets).plotWidth :=
  zero_lt_one.trans_le (le_max_left _ _)

omit [IsStrictOrderedRing K] in
theorem plotHeight_pos : 0 < (trendLayout canvas buckets).plotHeight :=
  zero_lt_one.trans_le (le_max_left _ _)

variable {canvas buckets}

/-- The samples of a series that is part of all queries are in the plot area. -/
theorem contains_of_mem_trendPoints {key : Series} {p : Point K}
    (hpart : ∀ bucket ∈ buckets,
      normalizeValue (bucket key) ≤ normalizeValue (bucket .totalQueries))
    (h : p ∈ trendPoints canvas buckets key) : (trendLayout canvas buckets).Contains p := by
  obtain ⟨i, hi, rfl⟩ := List.mem_mapIdx.1 h
  have hmem := List.getElem_mem hi
  exact ⟨xAt_mem_Icc (plotWidth_pos canvas buckets).le hi,
    yAt_mem_Icc (plotHeight_pos canvas buckets).le (topTick_pos buckets)
      ((hpart _ hmem).trans (normalizeValue_le_topTick buckets hmem))⟩

theorem trendPoints_pairwise (key : Series) :
    ((trendPoints canvas buckets key).map Point.x).Pairwise (· < ·) := by
  rw [List.pairwise_iff_getElem]
  intro i j hi hj hij
  have hj' : j < buckets.length := by simpa [trendPoints] using hj
  simpa [trendPoints] using xAt_lt_xAt (plotWidth_pos canvas buckets) hij hj'

omit [IsStrictOrderedRing K] in
theorem map_y_trendPoints (canvas : Canvas K) (buckets : List (ChartBucket K)) (key : Series) :
    (trendPoints canvas buckets key).map Point.y = buckets.map fun bucket ↦
      (trendLayout canvas buckets).yAt (topTick buckets) (bucket key) :=
  List.ext_getElem (by simp [trendPoints]) fun i hi hi' ↦ by simp [trendPoints]

omit [FloorRing K] in
/-- The height of a count, on the scale that all series share. -/
theorem yAt_natCast (layout : Layout K) (top : K) (n : ℕ) :
    layout.yAt top (some (n : K)) =
      layout.top + layout.plotHeight - layout.plotHeight / top * n := by
  rw [Layout.yAt, normalizeValue_natCast, div_mul_eq_mul_div, div_mul_eq_mul_div, mul_comm]

/-- Buckets of the store as the chart has them: the other series are part of all queries. -/
theorem normalizeValue_chartBucket_le {rows : List TrendBucket}
    (h : ∀ row ∈ rows, row.counters.Contained) (key : Series) :
    ∀ bucket ∈ rows.map (chartBucket (K := K)),
      normalizeValue (bucket key) ≤ normalizeValue (bucket .totalQueries) := by
  intro bucket hbucket
  obtain ⟨row, hrow, rfl⟩ := List.mem_map.1 hbucket
  obtain ⟨hblocked, hhits⟩ := h row hrow
  show normalizeValue (some (key.count row : K)) ≤
    normalizeValue (some (Series.totalQueries.count row : K))
  rw [normalizeValue_natCast, normalizeValue_natCast, Nat.cast_le]
  cases key with
  | totalQueries => exact le_rfl
  | blockedQueries => exact hblocked
  | cacheHits => exact hhits

end Inside

/-- What a run of the store answers for the trend: at least two buckets, with sound counters. -/
theorem exists_trend_contained [Chrono] {ops : List StoreOp} {s : StoreState}
    (hrun : StoreState.machine.run StoreState.empty ops = some s) {d : ℕ} {now : ℤ}
    (hd : d ≤ 9999) (hnow : Chrono.accepts now) :
    ∃ response, s.db.trend d now = .ok response ∧ 2 ≤ response.buckets.length ∧
      ∀ row ∈ response.buckets, row.counters.Contained := by
  have h := Consistent.of_run hrun
  have hok := h.trend_eq hd hnow
  have hexact := h.trendExact hd hnow hok
  refine ⟨_, hok, ?_, fun row hrow ↦ ?_⟩
  · rw [hexact.length]
    split_ifs <;> omega
  · rw [hexact.counters row hrow]
    exact StatTable.contained_countersAt (countersContained_of_run hrun _) _

/-- **The chart of the trend stays inside the plot area.** In every state that a run of the store
reaches, on every canvas, the trend is drawn as one curve for each series. A curve goes through its
samples from left to right, every sample at the height of its count on one scale; between two
samples it only rises or only falls, and no point of it is outside the plot area. -/
theorem trend_stays_inside [IsStrictOrderedRing K] [FloorRing K] [Chrono] {ops : List StoreOp}
    {s : StoreState} (hrun : StoreState.machine.run StoreState.empty ops = some s) {d : ℕ} {now : ℤ}
    (hd : d ≤ 9999) (hnow : Chrono.accepts now) {sqrt : K → K} (hsqrt : IsSqrt sqrt)
    (canvas : Canvas K) :
    ∃ response layout curves scale, s.db.trend d now = .ok response ∧
      drawTrend canvas (response.buckets.map chartBucket) sqrt = some (layout, curves) ∧
      curves.map Prod.fst = series ∧ 0 < scale ∧
      ∀ key path, (key, path) ∈ curves →
        ((path.map PathCommand.target).map Point.y = response.buckets.map fun row ↦
          layout.top + layout.plotHeight - scale * (key.count row : K)) ∧
        ((path.map PathCommand.target).map Point.x).Pairwise (· < ·) ∧
        ∀ p c, (p, c) ∈ pieces path →
          Direct p c ∧ ∀ t ∈ Set.Icc (0 : K) 1, layout.Contains (c.trace p t) := by
  obtain ⟨response, hok, hlen, hcontained⟩ := exists_trend_contained hrun hd hnow
  have hpart := normalizeValue_chartBucket_le (K := K) hcontained
  have hlen' : 2 ≤ (response.buckets.map (chartBucket (K := K))).length := by
    rwa [List.length_map]
  refine ⟨response, _, _, _, hok, if_neg ?_, rfl,
    div_pos (plotHeight_pos canvas (response.buckets.map chartBucket))
      (topTick_pos (response.buckets.map chartBucket)), fun key path hpath ↦ ?_⟩
  · rw [List.isEmpty_iff, ← List.length_eq_zero_iff]
    omega
  · obtain ⟨key', -, heq⟩ := List.mem_map.1 hpath
    obtain ⟨rfl, rfl⟩ := Prod.mk.inj heq
    have hshape := shapePreserving_strokeSmoothLine hsqrt
      (show 2 ≤ (trendPoints canvas (response.buckets.map chartBucket) key').length by
        rwa [trendPoints, List.length_mapIdx])
    refine ⟨?_, ?_, fun p c hpiece ↦ ⟨hshape.direct p c hpiece, fun t ht ↦
      hshape.contains (fun q hq ↦ contains_of_mem_trendPoints (hpart key') hq) hpiece ht⟩⟩
    · rw [hshape.through, map_y_trendPoints, List.map_map]
      exact List.map_congr_left fun row _ ↦ yAt_natCast _ _ _
    · rw [hshape.through]
      exact trendPoints_pairwise key'


theorem isSqrt_sqrt : IsSqrt Real.sqrt := fun s hs ↦ ⟨s.sqrt_nonneg, Real.mul_self_sqrt hs⟩

/-- The trend of one day on a canvas of 600 by 200: no curve is above 18 or below 162. -/
theorem trend_stays_inside_one_day :
    ∃ s, (@StoreState.machine Chrono.utc).run StoreState.empty Sample.history = some s ∧
      ∃ response layout curves, @Db.trend Chrono.utc s.db 1 91800000 = .ok response ∧
        drawTrend (K := ℝ) ⟨600, 200, fun _ ↦ 20⟩ (response.buckets.map chartBucket) Real.sqrt =
          some (layout, curves) ∧
        curves.map Prod.fst = series ∧
        ∀ key path, (key, path) ∈ curves → ∀ p c, (p, c) ∈ pieces path →
          ∀ t ∈ Set.Icc (0 : ℝ) 1, (c.trace p t).y ∈ Set.Icc (18 : ℝ) 162 := by
  have hrun : ((@StoreState.machine Chrono.utc).run StoreState.empty Sample.history).isSome := by
    decide +kernel
  obtain ⟨s, hs⟩ := Option.isSome_iff_exists.1 hrun
  obtain ⟨response, layout, curves, scale, hok, hdraw, hseries, -, hcurves⟩ :=
    @trend_stays_inside ℝ _ _ _ _ Chrono.utc _ _ hs 1 91800000 (by decide) (by decide) _ isSqrt_sqrt
      ⟨600, 200, fun _ ↦ 20⟩
  refine ⟨s, hs, response, layout, curves, hok, hdraw, hseries, ?_⟩
  intro key path hpath p c hpiece t ht
  obtain ⟨-, hy⟩ := ((hcurves key path hpath).2.2 p c hpiece).2 t ht
  have hlayout : layout.top = 18 ∧ layout.plotHeight = 144 := by
    rw [drawTrend, Option.ite_none_left_eq_some] at hdraw
    obtain ⟨rfl, -⟩ := Prod.mk.inj (Option.some.inj hdraw.2)
    refine ⟨rfl, ?_⟩
    norm_num [trendLayout, setupCanvas]
  rw [hlayout.1, hlayout.2] at hy
  norm_num at hy ⊢
  exact hy

/-! ### The mouse -/

section Hover

variable [IsStrictOrderedRing K] [FloorRing K]

theorem round_mem {y : K} {n : ℕ} (h0 : 0 ≤ y) (hn : y ≤ n) : 0 ≤ round y ∧ round y ≤ n := by
  rw [round_eq]
  refine ⟨Int.floor_nonneg.2 (by linarith), Int.lt_add_one_iff.1 (Int.floor_lt.2 ?_)⟩
  push_cast
  linarith

/-- Of the numbers up to `n`, the one that a clamped number is rounded to is nearest. -/
theorem abs_sub_round_clamp_le {u : K} {n j : ℕ} (hj : j ≤ n) :
    |u - round (min (n : K) (max 0 u))| ≤ |u - j| := by
  have hj0 : (0 : K) ≤ j := Nat.cast_nonneg j
  have hjn : (j : K) ≤ n := Nat.cast_le.2 hj
  rcases le_or_gt u 0 with hlow | hlow
  · have hclamp : min (n : K) (max 0 u) = ((0 : ℕ) : K) := by
      rw [max_eq_left hlow, min_eq_right (Nat.cast_nonneg n), Nat.cast_zero]
    rw [hclamp, round_natCast, abs_of_nonpos (by push_cast; linarith), abs_of_nonpos (by linarith)]
    push_cast
    linarith
  · rw [max_eq_right hlow.le]
    rcases le_or_gt u n with hhigh | hhigh
    · rw [min_eq_right hhigh]
      exact_mod_cast round_le u j
    · rw [min_eq_left hhigh.le, round_natCast, abs_of_nonneg (by push_cast; linarith),
        abs_of_nonneg (by linarith)]
      push_cast
      linarith

/-- `hoverIndex` returns the bucket whose `xAt` is nearest. -/
theorem hoverIndex_nearest {layout : Layout K} (hwidth : 0 < layout.plotWidth) {x : K}
    {count index : ℕ} (h : hoverIndex x layout.left layout.plotWidth count = some index) :
    index < count ∧ ∀ j < count, |x - layout.xAt count index| ≤ |x - layout.xAt count j| := by
  dsimp only [hoverIndex] at h
  split_ifs at h with hempty hout hone
  · obtain rfl := Option.some.inj h
    refine ⟨by omega, fun j hj ↦ ?_⟩
    rw [hone] at hj
    rw [Nat.lt_one_iff.1 hj]
  · obtain ⟨n, rfl⟩ : ∃ n, count = n + 1 := ⟨count - 1, by omega⟩
    rw [Nat.add_sub_cancel] at h
    have hn : (0 : K) < n := Nat.cast_pos.2 (by omega)
    -- The position in steps from the left edge, of the mouse and of a bucket.
    generalize hu : (x - layout.left) / layout.plotWidth * n = u
    have hclamp : min 1 (max 0 ((x - layout.left) / layout.plotWidth)) * n =
        min (n : K) (max 0 u) := by
      rw [min_mul_of_nonneg _ _ hn.le, max_mul_of_nonneg _ _ hn.le, one_mul, zero_mul, hu]
    have hdist (k : ℕ) : |x - layout.xAt (n + 1) k| = layout.plotWidth / n * |u - k| := by
      have hsub : x - layout.xAt (n + 1) k = layout.plotWidth / n * (u - k) := by
        rw [← hu, Layout.xAt, if_neg hone, Nat.add_sub_cancel]
        field_simp
        ring
      rw [hsub, abs_mul, abs_of_pos (div_pos hwidth hn)]
    rw [hclamp] at h
    obtain ⟨hround0, hroundn⟩ : 0 ≤ round (min (n : K) (max 0 u)) ∧
        round (min (n : K) (max 0 u)) ≤ n :=
      round_mem (le_min hn.le (le_max_left _ _)) (min_le_left _ _)
    obtain rfl := Option.some.inj h
    have hcast : (((round (min (n : K) (max 0 u))).toNat : ℕ) : K) =
        round (min (n : K) (max 0 u)) := by
      rw [← Int.cast_natCast, Int.toNat_of_nonneg hround0]
    refine ⟨by omega, fun j hj ↦ ?_⟩
    rw [hdist, hdist, hcast]
    exact mul_le_mul_of_nonneg_left (abs_sub_round_clamp_le (by omega)) (div_pos hwidth hn).le

/-- **The mouse marks the nearest samples.** Without a bucket, or more than eight pixels beside the
plot area, nothing is marked. Else one bucket is: the mark of every series is its sample there, and
no sample is nearer to the mouse. -/
theorem hover_marks_nearest (canvas : Canvas K) (buckets : List (ChartBucket K)) (x : K) :
    let layout := trendLayout canvas buckets
    (hoverMarks canvas buckets x = [] ↔
      buckets = [] ∨ x < layout.left - 8 ∨ layout.left + layout.plotWidth + 8 < x) ∧
    (hoverMarks canvas buckets x ≠ [] → ∃ index < buckets.length,
      hoverMarks canvas buckets x =
        series.map (fun key ↦ (key, pointAt (trendPoints canvas buckets key) index)) ∧
      ∀ key, ∀ p ∈ trendPoints canvas buckets key,
        |x - (pointAt (trendPoints canvas buckets key) index).x| ≤ |x - p.x|) := by
  intro layout
  have hwidth : 0 < layout.plotWidth := plotWidth_pos canvas buckets
  have hat (key : Series) {i : ℕ} (hi : i < buckets.length) :
      pointAt (trendPoints canvas buckets key) i =
        ⟨layout.xAt buckets.length i, layout.yAt (topTick buckets) (buckets[i] key)⟩ := by
    rw [pointAt, List.getD_eq_getElem _ _ (by simpa [trendPoints] using hi)]
    simp [trendPoints, layout]
  rcases hindex : hoverIndex x layout.left layout.plotWidth buckets.length with - | index
  · have hmarks : hoverMarks canvas buckets x = [] := by
      rw [hoverMarks]
      simp only [layout] at hindex
      rw [hindex]
    refine ⟨⟨fun _ ↦ ?_, fun _ ↦ hmarks⟩, fun hne ↦ absurd hmarks hne⟩
    unfold hoverIndex at hindex
    split_ifs at hindex with hempty hout
    · rcases hempty with hflat | hzero
      · exact absurd hflat (not_le.2 hwidth)
      · exact .inl (List.length_eq_zero_iff.1 hzero)
    · exact .inr hout
  · obtain ⟨hi, hnearest⟩ := hoverIndex_nearest hwidth hindex
    have hmarks : hoverMarks canvas buckets x =
        series.map fun key ↦ (key, pointAt (trendPoints canvas buckets key) index) := by
      rw [hoverMarks]
      simp only [layout] at hindex
      rw [hindex]
      simp only [List.getElem?_eq_getElem hi]
      exact List.map_congr_left fun key _ ↦ by rw [hat key hi]
    refine ⟨⟨fun hnil ↦ ?_, fun hnone ↦ ?_⟩, fun _ ↦ ⟨index, hi, hmarks, fun key p hp ↦ ?_⟩⟩
    · rw [hmarks] at hnil
      cases hnil
    · unfold hoverIndex at hindex
      split_ifs at hindex with hempty hout
      · rcases hnone with rfl | hout'
        · cases hi
        · exact absurd hout' hout
      · rcases hnone with rfl | hout'
        · cases hi
        · exact absurd hout' hout
    · obtain ⟨j, hj, rfl⟩ := List.mem_mapIdx.1 hp
      rw [hat key hi]
      exact hnearest j hj

/-- With the mouse at 300 of a canvas of 600, over three buckets, something is marked: on every
curve a sample that no other is nearer than. -/
theorem hover_marks_nearest_three :
    let canvas : Canvas ℚ := ⟨600, 200, fun _ ↦ 20⟩
    let buckets : List (ChartBucket ℚ) := [fun _ ↦ some 4, fun _ ↦ some 0, fun _ ↦ some 9]
    hoverMarks canvas buckets 300 ≠ [] ∧
      ∃ index < 3, ∀ key, ∀ p ∈ trendPoints canvas buckets key,
        |300 - (pointAt (trendPoints canvas buckets key) index).x| ≤ |300 - p.x| := by
  intro canvas buckets
  obtain ⟨hnil, hnearest⟩ := hover_marks_nearest canvas buckets 300
  have hleft : (trendLayout canvas buckets).left = 35 := by norm_num [trendLayout, canvas]
  have hwidth : (trendLayout canvas buckets).plotWidth = 555 := by
    norm_num [trendLayout, setupCanvas, canvas]
  have hne : hoverMarks canvas buckets 300 ≠ [] := by
    rw [ne_eq, hnil, hleft, hwidth]
    refine not_or.2 ⟨List.cons_ne_nil _ _, ?_⟩
    norm_num
  obtain ⟨index, hindex, -, hall⟩ := hnearest hne
  exact ⟨hne, index, hindex, hall⟩

end Hover

end Chart

end DnsBuffer
