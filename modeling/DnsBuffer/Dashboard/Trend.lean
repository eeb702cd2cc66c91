import DnsBuffer.Dashboard.Aggregates
import DnsBuffer.Foundation.Table
import Mathlib.Data.List.Sort

/-!
# The trend

The chart of the dashboard: one bucket for each hour or day of the retention period, read from the
aggregates. The range is computed once, by flooring `now` and `now` less the retention period; the
stored rows of the range are read in order and merged into the grid in one pass, where a row that is
not next on the grid would zero everything after it.

Three facts make the trend what it should be. Aggregates are aligned and unique (`Aggregated`), so
the merge is a lookup at every point of the grid (`fillBuckets_eq`). Flooring commutes with whole
intervals, so the range has a fixed length (`trendRange_eq`). And the floor of the cutoff is the
first bucket that reaches past it (`Bucket.bucket_le_iff`), so the range is what a cleanup keeps.
-/

namespace DnsBuffer

open Bucket

/-! ### The query -/

/-- The value, or the error that `context` attaches. -/
def context {α : Type} (x : Option α) (error : StoreError) : Except StoreError α :=
  x.elim (.error error) .ok

/-- The granularity of a trend. -/
inductive Granularity
  | hour
  | day
deriving DecidableEq

/-- The width of a bucket. -/
def Granularity.intervalMs : Granularity → ℤ
  | .hour => hourMs
  | .day => dayMs

/-- The table that holds the buckets. -/
def Db.statTable (db : Db) : Granularity → StatTable
  | .hour => db.hourly
  | .day => db.daily

/-- A bucket of a trend has the fields of a row. -/
abbrev TrendBucket := StatRow

/-- `TrendResponse`. -/
structure TrendResponse where
  startMs : ℤ
  endMs : ℤ
  granularity : Granularity
  buckets : List TrendBucket

/-- `MAX_TREND_BUCKETS`. -/
def maxTrendBuckets : ℕ := 10000

/-- `bucket_start`. -/
def bucketStart (timestampMs intervalMs : ℤ) : Except StoreError ℤ :=
  context (checkedI64 (bucket intervalMs timestampMs)) .bucketOutOfRange

/-- Where the retention period starts, floored. -/
def retentionStart (retentionDays : ℕ) (nowMs intervalMs : ℤ) : Except StoreError ℤ := do
  let days ← context (checkedI64 retentionDays) .integerConversion
  let retentionMs ← context (checkedI64 (days * dayMs)) .trendOutOfRange
  let cutoff ← context (checkedI64 (nowMs - retentionMs)) .trendOutOfRange
  bucketStart cutoff intervalMs

/-- Granularity, first and last bucket: 30 days if everything is kept, hours for up to 15 days, days
beyond. -/
def trendRange (retentionDays : ℕ) (nowMs : ℤ) : Except StoreError (Granularity × ℤ × ℤ) :=
  if retentionDays = 0 then do
    let endMs ← bucketStart nowMs dayMs
    let startMs ← context (checkedI64 (endMs - 29 * dayMs)) .trendOutOfRange
    return (.day, startMs, endMs)
  else if retentionDays ≤ 15 then do
    let startMs ← retentionStart retentionDays nowMs hourMs
    let endMs ← bucketStart nowMs hourMs
    return (.hour, startMs, endMs)
  else do
    let startMs ← retentionStart retentionDays nowMs dayMs
    let endMs ← bucketStart nowMs dayMs
    return (.day, startMs, endMs)

/-- How many buckets there are. One more than an `i64` fits a `u64`, so the addition cannot fail. -/
def bucketCount (intervalMs startMs endMs : ℤ) : Except StoreError ℕ := do
  let span ← context (checkedI64 (endMs - startMs)) .trendOutOfRange
  if 0 ≤ span / intervalMs then return (span / intervalMs).toNat + 1
  else throw .integerConversion

/-- The rows of the range, `ORDER BY bucket_ms`. -/
def StatTable.select (table : StatTable) (startMs endMs : ℤ) : List TrendBucket :=
  Table.orderBy StatRow.bucketMs
    (table.filter fun row ↦ startMs ≤ row.bucketMs ∧ row.bucketMs ≤ endMs)

/-- The point of the grid with a given index. -/
def trendBucketMs (startMs intervalMs : ℤ) (index : ℕ) : Except StoreError ℤ := do
  let offset ← context ((checkedI64 index).bind fun value ↦ checkedI64 (value * intervalMs))
    .trendBucketOutOfRange
  context (checkedI64 (startMs + offset)) .trendBucketOutOfRange

/-- The bucket for a point of the grid: the next stored row if it is there, else an empty one. -/
def nextBucket (stored : List TrendBucket) (bucketMs : ℤ) : TrendBucket × List TrendBucket :=
  match stored with
  | [] => (⟨bucketMs, 0⟩, [])
  | row :: rest => if row.bucketMs = bucketMs then (row, rest) else (⟨bucketMs, 0⟩, row :: rest)

/-- The loop over the grid, from an index on. -/
def fillBuckets (startMs intervalMs : ℤ) :
    ℕ → ℕ → List TrendBucket → Except StoreError (List TrendBucket)
  | _, 0, _ => .ok []
  | index, n + 1, stored => do
    let bucketMs ← trendBucketMs startMs intervalMs index
    let buckets ← fillBuckets startMs intervalMs (index + 1) n (nextBucket stored bucketMs).2
    return (nextBucket stored bucketMs).1 :: buckets

/-- `trend`, the query without a deadline. -/
def Db.trend [Chrono] (db : Db) (retentionDays : ℕ) (nowMs : ℤ) :
    Except StoreError TrendResponse :=
  if Chrono.accepts nowMs then do
    let (granularity, startMs, endMs) ← trendRange retentionDays nowMs
    let count ← bucketCount granularity.intervalMs startMs endMs
    if maxTrendBuckets < count then throw .tooManyBuckets
    else do
      let stored := (db.statTable granularity).select startMs endMs
      let buckets ← fillBuckets startMs granularity.intervalMs 0 count stored
      return ⟨startMs, endMs, granularity, buckets⟩
  else throw .trendTimestampOutOfRange

/-! ### Lookups -/

theorem ok_bind {ε α β : Type} (x : α) (f : α → Except ε β) : (Except.ok x >>= f) = f x := rfl

theorem context_some {α : Type} (x : α) (error : StoreError) : context (some x) error = .ok x := rfl

namespace StatTable

variable {table : StatTable} {b : ℤ} {row : StatRow}

theorem countersAt_cons (row : StatRow) (table : StatTable) (b : ℤ) :
    countersAt (row :: table) b =
      if row.bucketMs = b then row.counters else countersAt table b := by
  by_cases h : row.bucketMs = b <;> simp [countersAt, h]

theorem countersAt_eq_zero (h : ∀ row ∈ table, row.bucketMs ≠ b) : table.countersAt b = 0 := by
  rw [countersAt, List.find?_eq_none.2 (by simpa using h)]
  rfl

theorem countersAt_of_mem (hunique : table.keys.Nodup) (h : row ∈ table) :
    table.countersAt row.bucketMs = row.counters := by
  induction table with
  | nil => cases h
  | cons head table ih =>
    obtain ⟨hhead, hunique⟩ := List.nodup_cons.1 hunique
    rw [countersAt_cons]
    rcases List.mem_cons.1 h with rfl | h
    · rw [if_pos rfl]
    · rw [if_neg, ih hunique h]
      intro heq
      exact hhead (heq ▸ List.mem_map_of_mem h)

theorem mem_select {startMs endMs : ℤ} :
    row ∈ table.select startMs endMs ↔
      row ∈ table ∧ startMs ≤ row.bucketMs ∧ row.bucketMs ≤ endMs := by
  rw [select, Table.mem_orderBy, List.mem_filter, decide_eq_true_iff]

theorem keys_select_nodup (hunique : table.keys.Nodup) (startMs endMs : ℤ) :
    (keys (table.select startMs endMs)).Nodup :=
  ((Table.orderBy_perm _ _).map _).nodup_iff.2 (hunique.sublist (List.filter_sublist.map _))

/-- The rows come in strictly increasing order. -/
theorem pairwise_select (hunique : table.keys.Nodup) (startMs endMs : ℤ) :
    (table.select startMs endMs).Pairwise fun a b ↦ a.bucketMs < b.bucketMs :=
  Table.pairwise_lt_of_nodup (Table.pairwise_orderBy StatRow.bucketMs _)
    (keys_select_nodup hunique startMs endMs)

/-- Within the range nothing is missed. -/
theorem countersAt_select (hunique : table.keys.Nodup) {startMs endMs : ℤ} (hlo : startMs ≤ b)
    (hhi : b ≤ endMs) : countersAt (table.select startMs endMs) b = table.countersAt b := by
  by_cases h : ∃ row ∈ table, row.bucketMs = b
  · obtain ⟨row, hrow, rfl⟩ := h
    rw [countersAt_of_mem hunique hrow, countersAt_of_mem (keys_select_nodup hunique _ _)
      (mem_select.2 ⟨hrow, hlo, hhi⟩)]
  · have hnone : ∀ row ∈ table, row.bucketMs ≠ b := fun row hrow heq ↦ h ⟨row, hrow, heq⟩
    rw [countersAt_eq_zero hnone, countersAt_eq_zero fun row hrow ↦ hnone row (mem_select.1 hrow).1]

end StatTable

/-! ### The merge -/

section Merge

variable {stored : List TrendBucket} {b startMs w : ℤ}

/-- At a point that no stored row precedes, the merge looks the point up, and later lookups do not
notice. -/
theorem nextBucket_spec (hsorted : stored.Pairwise fun a b ↦ a.bucketMs < b.bucketMs)
    (hfrom : ∀ row ∈ stored, b ≤ row.bucketMs) :
    (nextBucket stored b).1 = ⟨b, StatTable.countersAt stored b⟩ ∧
      (nextBucket stored b).2.Sublist stored ∧
      (∀ row ∈ (nextBucket stored b).2, b < row.bucketMs) ∧
      ∀ b', b < b' →
        StatTable.countersAt (nextBucket stored b).2 b' = StatTable.countersAt stored b' := by
  cases stored with
  | nil => exact ⟨rfl, List.Sublist.refl _, by simp [nextBucket], fun _ _ ↦ rfl⟩
  | cons row rest =>
    obtain ⟨hlt, -⟩ := List.pairwise_cons.1 hsorted
    by_cases hrow : row.bucketMs = b
    · rw [nextBucket, if_pos hrow]
      refine ⟨?_, List.sublist_cons_self row rest, fun r hr ↦ hrow ▸ hlt r hr, fun b' hb' ↦ ?_⟩
      · rw [StatTable.countersAt_cons, if_pos hrow, ← hrow]
      · rw [StatTable.countersAt_cons, if_neg (by omega)]
    · have hbefore : ∀ r ∈ row :: rest, b < r.bucketMs := by
        intro r hr
        have hhead := hfrom row List.mem_cons_self
        rcases List.mem_cons.1 hr with rfl | hr
        · omega
        · have := hlt r hr
          omega
      rw [nextBucket, if_neg hrow]
      refine ⟨?_, List.Sublist.refl _, hbefore, fun _ _ ↦ rfl⟩
      rw [StatTable.countersAt_eq_zero fun r hr ↦ (hbefore r hr).ne']

/-- The merge is a lookup at every point of the grid, among the rows that are read. -/
theorem fillBuckets_eq (hw : 0 < w) (hstart : w ∣ startMs) (index n : ℕ)
    (hfit : ∀ k < index + n, trendBucketMs startMs w k = .ok (startMs + k * w))
    (hsorted : stored.Pairwise fun a b ↦ a.bucketMs < b.bucketMs)
    (haligned : ∀ row ∈ stored, w ∣ row.bucketMs)
    (hfrom : ∀ row ∈ stored, startMs + index * w ≤ row.bucketMs) :
    fillBuckets startMs w index n stored =
      .ok ((List.range' index n).map fun k : ℕ ↦
        ⟨startMs + k * w, StatTable.countersAt stored (startMs + k * w)⟩) := by
  induction n generalizing index stored with
  | zero => rfl
  | succ n ih =>
    obtain ⟨hfst, hsub, hafter, hlater⟩ := nextBucket_spec hsorted hfrom
    have hpoint : w ∣ startMs + index * w := Int.dvd_add hstart (dvd_mul_left _ _)
    have hsucc : startMs + (index + 1 : ℕ) * w = startMs + index * w + w := by
      push_cast
      ring
    -- the rows left are beyond this point and aligned, so they are at the next one or beyond it
    have hrest := ih (index + 1) (fun k hk ↦ hfit k (by omega)) (hsorted.sublist hsub)
      (fun row hrow ↦ haligned row (hsub.subset hrow)) fun row hrow ↦
        hsucc ▸ add_le_of_lt hw hpoint (haligned row (hsub.subset hrow)) (hafter row hrow)
    have hlookup : ∀ k ∈ List.range' (index + 1) n,
        (⟨startMs + k * w, StatTable.countersAt (nextBucket stored (startMs + index * w)).2
          (startMs + k * w)⟩ : TrendBucket) =
        ⟨startMs + k * w, StatTable.countersAt stored (startMs + k * w)⟩ := by
      intro k hk
      have hle : index + 1 ≤ k := (List.mem_range'_1.1 hk).1
      have hmul : ((index + 1 : ℕ) : ℤ) * w ≤ k * w :=
        mul_le_mul_of_nonneg_right (by exact_mod_cast hle) hw.le
      rw [hlater _ (by omega)]
    rw [fillBuckets, hfit index (by omega), List.range'_succ, List.map_cons]
    rw [ok_bind, hrest, ok_bind, List.map_congr_left hlookup, hfst]
    rfl

/-- **The merge is a lookup in the table.** A table with unique and aligned keys is read over a grid
as it would be point by point. -/
theorem fillBuckets_select {table : StatTable} (hunique : table.keys.Nodup)
    (haligned : ∀ b ∈ table.keys, w ∣ b) (hw : 0 < w) (hstart : w ∣ startMs) (n : ℕ)
    (hfit : ∀ k < n + 1, trendBucketMs startMs w k = .ok (startMs + k * w)) :
    fillBuckets startMs w 0 (n + 1) (table.select startMs (startMs + n * w)) =
      .ok ((List.range (n + 1)).map fun k : ℕ ↦
        ⟨startMs + k * w, table.countersAt (startMs + k * w)⟩) := by
  rw [fillBuckets_eq hw hstart 0 (n + 1) (fun k hk ↦ hfit k (by omega))
    (StatTable.pairwise_select hunique _ _)
    (fun row hrow ↦ haligned _ (List.mem_map_of_mem (StatTable.mem_select.1 hrow).1))
    (fun row hrow ↦ by simpa using (StatTable.mem_select.1 hrow).2.1), ← List.range_eq_range']
  refine congrArg Except.ok (List.map_congr_left fun k hk ↦ ?_)
  obtain ⟨-, hlo, hhi⟩ := (exists_eq_add_mul_iff hw hstart).1 ⟨k, List.mem_range.1 hk, rfl⟩
  rw [StatTable.countersAt_select hunique hlo hhi]

end Merge

/-! ### The range -/

theorem checkedI64_eq {x : ℤ} (h : -2 ^ 63 ≤ x ∧ x < 2 ^ 63) : checkedI64 x = some x := if_pos h

/-- The granularity for a retention period. -/
def trendGranularity (retentionDays : ℕ) : Granularity :=
  if 1 ≤ retentionDays ∧ retentionDays ≤ 15 then .hour else .day

/-- How many intervals lie between the first and the last bucket. -/
def trendSpan (retentionDays : ℕ) : ℕ :=
  if retentionDays = 0 then 29 else if retentionDays ≤ 15 then 24 * retentionDays
  else retentionDays

/-- The first bucket of a trend. -/
def trendStart (retentionDays : ℕ) (now : ℤ) : ℤ :=
  bucket (trendGranularity retentionDays).intervalMs now -
    trendSpan retentionDays * (trendGranularity retentionDays).intervalMs

theorem Granularity.intervalMs_bounds (g : Granularity) :
    0 < g.intervalMs ∧ g.intervalMs ≤ dayMs := by
  cases g <;> decide

/-- What the calendar accepts is far from the ends of an `i64`. -/
def InCalendar (t : ℤ) : Prop := -2 ^ 53 ≤ t ∧ t ≤ 2 ^ 53

section Range

variable {d : ℕ} {now t w : ℤ}

theorem bucketStart_eq (hw : 0 < w ∧ w ≤ dayMs) (ht : -2 ^ 54 ≤ t ∧ t ≤ 2 ^ 54) :
    bucketStart t w = .ok (bucket w t) := by
  have hle := bucket_le hw.1 t
  have hlt := lt_bucket_add hw.1 t
  have hday : dayMs = 86400000 := rfl
  rw [bucketStart, checkedI64_eq (by omega)]
  rfl

theorem retentionMs_bounds (hd : d ≤ 9999) : 0 ≤ (d : ℤ) * dayMs ∧ (d : ℤ) * dayMs ≤ 2 ^ 40 := by
  simp only [dayMs]
  omega

theorem retentionStart_eq (hd : d ≤ 9999) (hnow : InCalendar now) (hw : 0 < w ∧ w ≤ dayMs) :
    retentionStart d now w = .ok (bucket w (now - d * dayMs)) := by
  obtain ⟨hlo, hhi⟩ := hnow
  have hret := retentionMs_bounds hd
  rw [retentionStart, checkedI64_eq (by omega), context_some, ok_bind, checkedI64_eq (by omega),
    context_some, ok_bind, checkedI64_eq (by omega), context_some, ok_bind]
  exact bucketStart_eq hw (by omega)

/-- The range is the retention period in whole buckets. -/
theorem trendSpan_mul (h : d ≠ 0) :
    (trendSpan d : ℤ) * (trendGranularity d).intervalMs = d * dayMs := by
  rw [trendSpan, if_neg h, trendGranularity]
  by_cases h15 : d ≤ 15
  · rw [if_pos h15, if_pos ⟨by omega, h15⟩]
    simp only [Granularity.intervalMs, hourMs, dayMs]
    omega
  · rw [if_neg h15, if_neg (by omega)]
    rfl

/-- It starts with the bucket of the cutoff. -/
theorem trendStart_eq (h : d ≠ 0) (now : ℤ) :
    trendStart d now = bucket (trendGranularity d).intervalMs (now - d * dayMs) := by
  rw [trendStart, ← trendSpan_mul h, bucket_sub_mul (Granularity.intervalMs_bounds _).1]

theorem dvd_trendStart (d : ℕ) (now : ℤ) : (trendGranularity d).intervalMs ∣ trendStart d now :=
  Int.dvd_sub (dvd_bucket _ _) (dvd_mul_left _ _)

theorem trendStart_add (d : ℕ) (now : ℤ) :
    trendStart d now + trendSpan d * (trendGranularity d).intervalMs =
      bucket (trendGranularity d).intervalMs now :=
  sub_add_cancel _ _

/-- **The range of a trend**: it ends with the bucket of `now` and starts a fixed number of buckets
before. -/
theorem trendRange_eq (hd : d ≤ 9999) (hnow : InCalendar now) :
    trendRange d now = .ok (trendGranularity d, trendStart d now,
      bucket (trendGranularity d).intervalMs now) := by
  have hend : ∀ g : Granularity,
      bucketStart now g.intervalMs = .ok (bucket g.intervalMs now) := fun g ↦
    bucketStart_eq g.intervalMs_bounds ⟨by linarith [hnow.1], by linarith [hnow.2]⟩
  have hstart := fun g : Granularity ↦ retentionStart_eq hd hnow g.intervalMs_bounds
  rw [trendRange]
  by_cases h0 : d = 0
  · have hle := bucket_le (Granularity.intervalMs_bounds .day).1 now
    have hlt := lt_bucket_add (Granularity.intervalMs_bounds .day).1 now
    have hw : Granularity.day.intervalMs = 86400000 := rfl
    obtain ⟨hlo, hhi⟩ := hnow
    rw [if_pos h0, show dayMs = Granularity.day.intervalMs from rfl, hend .day, ok_bind,
      checkedI64_eq (by omega), h0]
    rfl
  · rw [if_neg h0, trendStart_eq h0]
    by_cases h15 : d ≤ 15
    · have hg : trendGranularity d = .hour := if_pos ⟨by omega, h15⟩
      rw [if_pos h15, hg, show hourMs = Granularity.hour.intervalMs from rfl, hstart .hour,
        hend .hour, ok_bind, ok_bind]
      rfl
    · have hg : trendGranularity d = .day := if_neg (by omega)
      have hstart' : retentionStart d now dayMs = _ := hstart .day
      have hend' : bucketStart now dayMs = _ := hend .day
      rw [if_neg h15, hg, hstart', hend', ok_bind, ok_bind]
      rfl

theorem trendSpan_lt (hd : d ≤ 9999) : trendSpan d < maxTrendBuckets := by
  simp only [trendSpan, maxTrendBuckets]
  split <;> [decide; split <;> omega]

theorem span_bounds {n : ℕ} (hw : 0 < w ∧ w ≤ dayMs) (hn : n < maxTrendBuckets) :
    0 ≤ (n : ℤ) * w ∧ (n : ℤ) * w ≤ 2 ^ 40 := by
  have hn' : (n : ℤ) ≤ 10000 := by exact_mod_cast hn.le
  have hle : (n : ℤ) * w ≤ 10000 * dayMs := mul_le_mul hn' hw.2 hw.1.le (by decide)
  exact ⟨mul_nonneg (Int.natCast_nonneg n) hw.1.le, hle.trans (by decide)⟩

theorem bucketCount_eq {n : ℕ} (hw : 0 < w ∧ w ≤ dayMs) (hn : n < maxTrendBuckets)
    (startMs : ℤ) : bucketCount w startMs (startMs + n * w) = .ok (n + 1) := by
  have hspan := span_bounds hw hn
  have hdiv : (startMs + n * w - startMs) / w = n := by
    rw [add_sub_cancel_left, Int.mul_ediv_cancel _ hw.1.ne']
  rw [bucketCount, checkedI64_eq (by omega), context_some, ok_bind, hdiv,
    if_pos (Int.natCast_nonneg n)]
  rfl

theorem trendBucketMs_eq {k : ℕ} {startMs : ℤ} (hw : 0 < w ∧ w ≤ dayMs) (hk : k < maxTrendBuckets)
    (hstart : -2 ^ 54 ≤ startMs ∧ startMs ≤ 2 ^ 54) :
    trendBucketMs startMs w k = .ok (startMs + k * w) := by
  have hspan := span_bounds hw hk
  have hk' : k < 10000 := hk
  rw [trendBucketMs, checkedI64_eq (by omega), Option.bind_some, checkedI64_eq (by omega),
    context_some, ok_bind, checkedI64_eq (by omega)]
  rfl

theorem trendStart_bounds (hd : d ≤ 9999) (hnow : InCalendar now) :
    -2 ^ 54 ≤ trendStart d now ∧ trendStart d now ≤ 2 ^ 54 := by
  have hw := (trendGranularity d).intervalMs_bounds
  have hle := bucket_le hw.1 now
  have hlt := lt_bucket_add hw.1 now
  have hspan := span_bounds hw (trendSpan_lt hd)
  have hadd := trendStart_add d now
  have hday : dayMs = 86400000 := rfl
  obtain ⟨hlo, hhi⟩ := hnow
  omega

theorem cleanupCutoff_eq (h : d ≠ 0) (hd : d ≤ 9999) (hnow : InCalendar now) :
    Db.cleanupCutoff d now = .ok (some (now - d * dayMs)) := by
  obtain ⟨hlo, hhi⟩ := hnow
  have hret := retentionMs_bounds hd
  rw [Db.cleanupCutoff, if_neg h, checkedI64_eq (by omega), Option.bind_some,
    checkedI64_eq (by omega)]
  simp only [checkedI64_eq (show -2 ^ 63 ≤ now - d * dayMs ∧ now - d * dayMs < 2 ^ 63 by omega)]

end Range

/-! ### The trend of a consistent store -/

section Exact

variable {db : Db} {cutoff : Option ℤ} {d : ℕ} {now : ℤ}

theorem Consistent.statTable (h : Consistent db cutoff) (g : Granularity) :
    Aggregated g.intervalMs (db.statTable g) db.queryLogs cutoff := by
  cases g
  · exact h.hourly
  · exact h.daily

/-- A trend is exact: consecutive aligned buckets, of a length that depends on the retention period
alone, the last of them the bucket of `now`, each with the stored counters of its row. -/
structure TrendExact (db : Db) (d : ℕ) (now : ℤ) (response : TrendResponse) : Prop where
  granularity : response.granularity = if 1 ≤ d ∧ d ≤ 15 then .hour else .day
  length : response.buckets.length = if d = 0 then 30 else if d ≤ 15 then 24 * d + 1 else d + 1
  aligned : response.granularity.intervalMs ∣ response.startMs
  consecutive : response.buckets.map StatRow.bucketMs =
    (List.range response.buckets.length).map fun k : ℕ ↦
      response.startMs + k * response.granularity.intervalMs
  last : response.buckets.getLast?.map StatRow.bucketMs = some response.endMs
  contains_now : response.endMs ≤ now ∧ now < response.endMs + response.granularity.intervalMs
  counters : ∀ row ∈ response.buckets,
    row.counters = (db.statTable response.granularity).countersAt row.bucketMs

/-- A trend shows what the cleanup at the same moment keeps: its buckets are the aligned ones up to
`now` that the cleanup does not delete, every row of the aggregates that is kept is among them, and
every query that is kept falls into one of them. -/
def TrendMatchesCleanup (db : Db) (d : ℕ) (now : ℤ) (response : TrendResponse) : Prop :=
  ∃ cutoff, Db.cleanupCutoff d now = .ok (some cutoff) ∧
    db.cleanup d now = .ok (db.deleteBefore cutoff) ∧
    (∀ b, (∃ row ∈ response.buckets, row.bucketMs = b) ↔
      response.granularity.intervalMs ∣ b ∧ b ≤ now ∧
        ¬b + response.granularity.intervalMs ≤ cutoff) ∧
    (∀ row ∈ (db.deleteBefore cutoff).statTable response.granularity, row.bucketMs ≤ now →
      row ∈ response.buckets) ∧
    ∀ row ∈ (db.deleteBefore cutoff).queryLogs, row.timestampMs ≤ now →
      ∃ bucket ∈ response.buckets, bucket.bucketMs ≤ row.timestampMs ∧
        row.timestampMs < bucket.bucketMs + response.granularity.intervalMs

theorem mem_statTable_deleteBefore {c : ℤ} {g : Granularity} {row : StatRow} :
    row ∈ (db.deleteBefore c).statTable g ↔
      row ∈ db.statTable g ∧ ¬row.bucketMs + g.intervalMs ≤ c := by
  cases g <;> simp [Db.statTable, Db.deleteBefore, StatTable.prune, Granularity.intervalMs]

/-- The buckets of the range are those the cutoff leaves. -/
theorem exists_trendBucket_iff (h : d ≠ 0) (now b : ℤ) :
    (∃ k < trendSpan d + 1, b = trendStart d now + (k : ℕ) * (trendGranularity d).intervalMs) ↔
      (trendGranularity d).intervalMs ∣ b ∧ b ≤ now ∧
        ¬b + (trendGranularity d).intervalMs ≤ now - d * dayMs := by
  have hw := (trendGranularity d).intervalMs_bounds.1
  rw [exists_eq_add_mul_iff hw (dvd_trendStart d now), trendStart_add, trendStart_eq h]
  refine and_congr_right fun hb ↦ ?_
  rw [bucket_le_iff hw hb, le_bucket_iff hw hb, not_le, and_comm]

variable [Chrono]

/-- **What the trend returns**: the buckets of the range, each looked up. -/
theorem Consistent.trend_eq (h : Consistent db cutoff) (hd : d ≤ 9999) (hnow : Chrono.accepts now) :
    let g := trendGranularity d
    db.trend d now = .ok {
      startMs := trendStart d now
      endMs := bucket g.intervalMs now
      granularity := g
      buckets := (List.range (trendSpan d + 1)).map fun k : ℕ ↦
        ⟨trendStart d now + k * g.intervalMs,
          (db.statTable g).countersAt (trendStart d now + k * g.intervalMs)⟩ } := by
  intro g
  have hcal : InCalendar now := Chrono.accepts_bounded now hnow
  have hw := g.intervalMs_bounds
  have hspan := trendSpan_lt hd
  have htable := h.statTable g
  have hcount := bucketCount_eq hw hspan (trendStart d now)
  have hfill := fillBuckets_select htable.unique htable.aligned hw.1 (dvd_trendStart d now)
    (trendSpan d) fun k hk ↦ trendBucketMs_eq hw (by omega) (trendStart_bounds hd hcal)
  rw [trendStart_add] at hcount hfill
  rw [Db.trend, if_pos hnow, trendRange_eq hd hcal, ok_bind]
  show (bucketCount g.intervalMs (trendStart d now) (bucket g.intervalMs now) >>= _) = _
  rw [hcount, ok_bind, if_neg (by omega)]
  show (fillBuckets (trendStart d now) g.intervalMs 0 (trendSpan d + 1) _ >>= _) = _
  rw [hfill, ok_bind]
  rfl

theorem Consistent.trendExact (h : Consistent db cutoff) {response : TrendResponse} (hd : d ≤ 9999)
    (hnow : Chrono.accepts now) (hok : db.trend d now = .ok response) :
    TrendExact db d now response := by
  have hw := (trendGranularity d).intervalMs_bounds
  obtain rfl := Except.ok.inj ((h.trend_eq hd hnow).symm.trans hok)
  constructor
  · rfl
  · simp only [List.length_map, List.length_range, trendSpan]
    split <;> [rfl; split <;> rfl]
  · exact dvd_trendStart d now
  · rw [List.map_map, List.length_map, List.length_range]
    rfl
  · simp [List.range_succ, trendStart_add]
  · exact ⟨bucket_le hw.1 now, lt_bucket_add hw.1 now⟩
  · intro row hrow
    obtain ⟨k, -, rfl⟩ := List.mem_map.1 hrow
    rfl

theorem Consistent.trendMatchesCleanup (h : Consistent db cutoff) {response : TrendResponse}
    (h0 : d ≠ 0) (hd : d ≤ 9999) (hnow : Chrono.accepts now)
    (hok : db.trend d now = .ok response) : TrendMatchesCleanup db d now response := by
  have hcut := cleanupCutoff_eq h0 hd (Chrono.accepts_bounded now hnow)
  have hw := (trendGranularity d).intervalMs_bounds
  have htable := h.statTable (trendGranularity d)
  obtain rfl := Except.ok.inj ((h.trend_eq hd hnow).symm.trans hok)
  refine ⟨_, hcut, by rw [Db.cleanup, hcut]; rfl, fun b ↦ ?_, fun row hrow hle ↦ ?_,
    fun row hrow hle ↦ ?_⟩
  · refine Iff.trans ?_ (exists_trendBucket_iff h0 now b)
    simp [eq_comm]
  · obtain ⟨hmem, hkept⟩ := mem_statTable_deleteBefore.1 hrow
    obtain ⟨k, hk, hb⟩ := (exists_trendBucket_iff h0 now _).2
      ⟨htable.aligned _ (List.mem_map_of_mem hmem), hle, hkept⟩
    refine List.mem_map.2 ⟨k, List.mem_range.2 hk, ?_⟩
    rw [← hb, StatTable.countersAt_of_mem htable.unique hmem]
  · have hkept : ¬row.timestampMs < now - d * dayMs := by simpa using (List.mem_filter.1 hrow).2
    have hlt := lt_bucket_add hw.1 row.timestampMs
    have hfloor := bucket_le hw.1 row.timestampMs
    obtain ⟨k, hk, hb⟩ := (exists_trendBucket_iff h0 now _).2
      ⟨dvd_bucket _ row.timestampMs, hfloor.trans hle, by omega⟩
    refine ⟨_, List.mem_map.2 ⟨k, List.mem_range.2 hk, rfl⟩, ?_⟩
    rw [← hb]
    exact ⟨hfloor, hlt⟩

/-- **The trend is total, exact and agrees with retention**, in every state that a run of the store
reaches, for every retention period the configuration allows and every time the calendar accepts. -/
theorem trend_exact_of_run {ops : List StoreOp} {s : StoreState}
    (hrun : StoreState.machine.run StoreState.empty ops = some s) (hd : d ≤ 9999)
    (hnow : Chrono.accepts now) :
    ∃ response, s.db.trend d now = .ok response ∧ TrendExact s.db d now response ∧
      (1 ≤ d → TrendMatchesCleanup s.db d now response) := by
  have h := Consistent.of_run hrun
  have hok := h.trend_eq hd hnow
  exact ⟨_, hok, h.trendExact hd hnow hok, fun h1 ↦
    h.trendMatchesCleanup (by omega) hd hnow hok⟩

end Exact

/-- The trend of one day after the cleanup of the same day: 25 hours, the first of them the hour
that the cutoff splits. -/
theorem trend_exact_one_day :
    ∃ s, (@StoreState.machine Chrono.utc).run StoreState.empty Sample.history = some s ∧
      ∃ response, @Db.trend Chrono.utc s.db 1 91800000 = .ok response ∧
        response.startMs = 3600000 ∧ response.buckets.length = 25 ∧
        response.buckets.head? = some ⟨3600000, (2, 1, 0)⟩ ∧
        TrendExact s.db 1 91800000 response ∧ TrendMatchesCleanup s.db 1 91800000 response := by
  have hrun : ((@StoreState.machine Chrono.utc).run StoreState.empty Sample.history).any fun s ↦
      (@Db.trend Chrono.utc s.db 1 91800000).toOption.any fun response ↦
        response.startMs = 3600000 ∧ response.buckets.length = 25 ∧
          response.buckets.head? = some ⟨3600000, (2, 1, 0)⟩ := by
    decide +kernel
  obtain ⟨s, hs, hany⟩ := (Option.any_eq_true _ _).1 hrun
  obtain ⟨response, hok, hexact, hcleanup⟩ := @trend_exact_of_run 1 91800000 Chrono.utc _ _ hs
    (by decide) (by decide)
  rw [hok] at hany
  obtain ⟨hstart, hlength, hhead⟩ := of_decide_eq_true hany
  exact ⟨s, hs, response, hok, hstart, hlength, hhead, hexact, hcleanup le_rfl⟩

end DnsBuffer
