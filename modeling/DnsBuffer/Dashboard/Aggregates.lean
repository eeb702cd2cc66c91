import DnsBuffer.Dashboard.Store
import Mathlib.Algebra.BigOperators.Group.Finset.Basic
import Mathlib.Algebra.Group.Nat.Defs
import Mathlib.Algebra.Group.Prod
import Mathlib.Data.List.Nodup
import Mathlib.Tactic.Abel

/-!
# The aggregates agree with the rows they count

Rows are deleted one by one and hours and days as a whole, so after a cleanup the aggregate of an
hour or day that straddles the cutoff counts more than is left. From the largest cutoff on, nothing
has ever been deleted, and there aggregates and rows agree exactly: `Aggregated`, stated once for a
table of buckets of any width and used for hours and days. An event that arrives late, before the
cutoff, does not touch a bucket after it.

The addresses of a query are tied to it by `IpsMatch`: an address belongs to a row that is there,
and a row has the addresses it was inserted with.
-/

namespace DnsBuffer

open Bucket

/-! ### Counting rows -/

/-- The rows with a timestamp in `[lo, hi)`: how many there are, how many of them are blocked, and
how many are cache hits. -/
def countIn (logs : List LogRow) (lo hi : ℤ) : Counters :=
  let rows := logs.filter fun row ↦ lo ≤ row.timestampMs ∧ row.timestampMs < hi
  (rows.length, rows.countP LogRow.blocked, rows.countP LogRow.cacheHit)

@[simp] theorem countIn_nil (lo hi : ℤ) : countIn [] lo hi = 0 := rfl

theorem countIn_cons (row : LogRow) (logs : List LogRow) (lo hi : ℤ) :
    countIn (row :: logs) lo hi =
      (if lo ≤ row.timestampMs ∧ row.timestampMs < hi then countersOf row.blocked row.cacheHit
        else 0) + countIn logs lo hi := by
  by_cases h : lo ≤ row.timestampMs ∧ row.timestampMs < hi
  · rcases hb : row.blocked <;> rcases hc : row.cacheHit <;>
      simp [countIn, countersOf, h, hb, hc, Nat.add_comm]
  · simp [countIn, h]

theorem countIn_append (logs logs' : List LogRow) (lo hi : ℤ) :
    countIn (logs ++ logs') lo hi = countIn logs lo hi + countIn logs' lo hi := by
  induction logs with
  | nil => simp
  | cons row logs ih => rw [List.cons_append, countIn_cons, countIn_cons, ih, add_assoc]

/-- Deleting what is before the range does not change the count. -/
theorem countIn_filter {cutoff lo : ℤ} (h : cutoff ≤ lo) (logs : List LogRow) (hi : ℤ) :
    countIn (logs.filter fun row ↦ ¬row.timestampMs < cutoff) lo hi = countIn logs lo hi := by
  induction logs with
  | nil => rfl
  | cons row logs ih =>
    -- a deleted row is before the range and was not counted
    by_cases hrow : row.timestampMs < cutoff
    · rw [List.filter_cons_of_neg (by simpa using hrow), ih, countIn_cons, if_neg (by omega),
        zero_add]
    · rw [List.filter_cons_of_pos (by simpa using hrow), countIn_cons, countIn_cons, ih]

/-- Adjacent ranges. -/
theorem countIn_split {lo mid hi : ℤ} (hlo : lo ≤ mid) (hhi : mid ≤ hi) (logs : List LogRow) :
    countIn logs lo hi = countIn logs lo mid + countIn logs mid hi := by
  induction logs with
  | nil => rfl
  | cons row logs ih =>
    rw [countIn_cons, countIn_cons, countIn_cons, ih]
    by_cases h : row.timestampMs < mid
    · have hleft : lo ≤ row.timestampMs ∧ row.timestampMs < hi ↔
          lo ≤ row.timestampMs ∧ row.timestampMs < mid := by omega
      rw [if_congr hleft rfl rfl, if_neg (by omega : ¬(mid ≤ _ ∧ _)), zero_add, add_assoc]
    · have hright : lo ≤ row.timestampMs ∧ row.timestampMs < hi ↔
          mid ≤ row.timestampMs ∧ row.timestampMs < hi := by omega
      rw [if_congr hright rfl rfl, if_neg (by omega : ¬(lo ≤ _ ∧ _)), zero_add]
      abel

/-- A range of `n` buckets counts what its buckets count. -/
theorem countIn_eq_sum (logs : List LogRow) {w : ℤ} (hw : 0 < w) (lo : ℤ) (n : ℕ) :
    countIn logs lo (lo + n * w) =
      ∑ k ∈ Finset.range n, countIn logs (lo + k * w) (lo + k * w + w) := by
  induction n with
  | zero =>
    have hempty : ∀ t : ℤ, ¬(lo ≤ t ∧ t < lo + ((0 : ℕ) : ℤ) * w) := by
      intro t
      simp
    simp only [countIn, hempty, Finset.range_zero, Finset.sum_empty]
    simp
  | succ n ih =>
    have hnonneg : 0 ≤ (n : ℤ) * w := mul_nonneg (Int.natCast_nonneg n) hw.le
    rw [Finset.sum_range_succ, ← ih, ← countIn_split (by omega) (by omega)]
    push_cast
    ring_nf

/-! ### Aggregate tables -/

namespace StatTable

variable {table : StatTable} {b bucketMs cutoff w : ℤ} {counters : Counters}

theorem countersAt_upsert (table : StatTable) (bucketMs : ℤ) (counters : Counters) (b : ℤ) :
    (table.upsert bucketMs counters).countersAt b =
      table.countersAt b + if b = bucketMs then counters else 0 := by
  by_cases hany : table.any fun row ↦ row.bucketMs = bucketMs
  · rw [upsert, if_pos hany, countersAt, countersAt, List.find?_map]
    have hkey : ((fun row : StatRow ↦ decide (row.bucketMs = b)) ∘ fun row ↦
        if row.bucketMs = bucketMs then { row with counters := row.counters + counters } else row) =
        fun row ↦ decide (row.bucketMs = b) := by
      funext row
      by_cases hrow : row.bucketMs = bucketMs <;> simp [hrow]
    rw [hkey]
    rcases hfind : table.find? fun row ↦ decide (row.bucketMs = b) with - | row
    · have hne : b ≠ bucketMs := by
        rintro rfl
        obtain ⟨row, hrow, hb⟩ := List.any_eq_true.1 hany
        exact List.find?_eq_none.1 hfind row hrow hb
      simp [hfind, hne]
    · have hrow : row.bucketMs = b := by simpa using List.find?_some hfind
      rw [hfind]
      by_cases hb : b = bucketMs <;> simp [hrow, hb]
  · have hnone : ∀ row ∈ table, row.bucketMs ≠ bucketMs := by simpa using hany
    rw [upsert, if_neg hany, countersAt, countersAt, List.find?_append]
    rcases hfind : table.find? fun row ↦ decide (row.bucketMs = b) with - | row
    · rw [hfind]
      by_cases hb : b = bucketMs
      · simp [hb]
      · simp [hb, Ne.symm hb]
    · have hrow : row.bucketMs = b := by simpa using List.find?_some hfind
      have hb : b ≠ bucketMs := hrow ▸ hnone row (List.mem_of_find?_eq_some hfind)
      simp [hfind, hb]

theorem countersAt_prune (h : ¬b + w ≤ cutoff) :
    (table.prune w cutoff).countersAt b = table.countersAt b := by
  rw [prune, countersAt, countersAt, List.find?_filter]
  congr 3
  funext row
  by_cases hrow : row.bucketMs = b
  · simp [hrow, not_le.1 h]
  · simp [hrow]

/-- The keys of the table. -/
def keys (table : StatTable) : List ℤ := table.map StatRow.bucketMs

theorem keys_upsert : (table.upsert bucketMs counters).keys =
    if bucketMs ∈ table.keys then table.keys else table.keys ++ [bucketMs] := by
  have hiff : (table.any fun row ↦ decide (row.bucketMs = bucketMs)) = true ↔
      bucketMs ∈ table.keys := by
    simp [keys]
  rw [upsert]
  by_cases hmem : bucketMs ∈ table.keys
  · rw [if_pos hmem, if_pos (hiff.2 hmem), keys, List.map_map]
    refine List.map_congr_left fun row _ ↦ ?_
    by_cases hrow : row.bucketMs = bucketMs <;> simp [hrow]
  · rw [if_neg hmem, if_neg (mt hiff.1 hmem), keys, List.map_append]
    rfl

theorem keys_prune_sublist : (table.prune w cutoff).keys.Sublist table.keys :=
  List.filter_sublist.map _

end StatTable

/-- The table of buckets of width `w` is in order: its keys are aligned and unique, and from the
cutoff on it counts the rows. -/
structure Aggregated (w : ℤ) (table : StatTable) (logs : List LogRow) (cutoff : Option ℤ) :
    Prop where
  aligned : ∀ b ∈ table.keys, w ∣ b
  unique : table.keys.Nodup
  agrees : ∀ b, w ∣ b → (∀ c, cutoff = some c → c ≤ b) →
    table.countersAt b = countIn logs b (b + w)

namespace Aggregated

variable {w : ℤ} {table : StatTable} {logs : List LogRow} {cutoff : Option ℤ}

theorem empty (w : ℤ) : Aggregated w [] [] none where
  aligned := by simp [StatTable.keys]
  unique := List.nodup_nil
  agrees _ _ _ := rfl

/-- A new row is counted in its bucket, and in no other. -/
theorem insert (h : Aggregated w table logs cutoff) (hw : 0 < w) (row : LogRow) :
    Aggregated w (table.upsert (bucket w row.timestampMs) (countersOf row.blocked row.cacheHit))
      (logs ++ [row]) cutoff where
  aligned b hb := by
    rw [StatTable.keys_upsert] at hb
    split at hb
    · exact h.aligned b hb
    · rcases List.mem_append.1 hb with hb | hb
      · exact h.aligned b hb
      · rw [List.mem_singleton.1 hb]
        exact dvd_bucket w row.timestampMs
  unique := by
    rw [StatTable.keys_upsert]
    split
    · exact h.unique
    · rename_i hnot
      exact List.nodup_append.2 ⟨h.unique, List.nodup_singleton _, by
        rintro a ha b hb rfl
        exact hnot (List.mem_singleton.1 hb ▸ ha)⟩
  agrees b hb hcut := by
    -- the table files the row under its floored timestamp, the count under its timestamp
    have hiff : b = bucket w row.timestampMs ↔
        b ≤ row.timestampMs ∧ row.timestampMs < b + w := eq_comm.trans (bucket_eq_iff hw hb)
    rw [StatTable.countersAt_upsert, h.agrees b hb hcut, countIn_append, countIn_cons,
      countIn_nil, add_zero, if_congr hiff rfl rfl]

/-- A cleanup leaves what lies after its cutoff alone. -/
theorem prune (h : Aggregated w table logs cutoff) (hw : 0 < w) (c : ℤ) {cutoff' : Option ℤ}
    (hold : ∀ b, (∀ k, cutoff' = some k → k ≤ b) → ∀ k, cutoff = some k → k ≤ b)
    (hnew : ∀ b, (∀ k, cutoff' = some k → k ≤ b) → c ≤ b) :
    Aggregated w (table.prune w c) (logs.filter fun row ↦ ¬row.timestampMs < c) cutoff' where
  aligned b hb := h.aligned b (StatTable.keys_prune_sublist.subset hb)
  unique := h.unique.sublist StatTable.keys_prune_sublist
  agrees b hb hcut := by
    -- a bucket that starts at the cutoff or later is not pruned, and none of its rows is deleted
    have hc := hnew b hcut
    rw [StatTable.countersAt_prune (by omega), h.agrees b hb (hold b hcut), countIn_filter hc]

end Aggregated

/-! ### Rows and their addresses -/

theorem Db.mem_foldl_insertIp {x : ℕ × Text} (xs ips : List (ℕ × Text)) :
    x ∈ xs.foldl Db.insertIp ips ↔ x ∈ ips ∨ x ∈ xs := by
  induction xs generalizing ips with
  | nil => simp
  | cons y xs ih =>
    rw [List.foldl_cons, ih, Db.insertIp, List.mem_cons]
    split
    · grind
    · rw [List.mem_append, List.mem_singleton, or_assoc]

/-- Rows and addresses belong together. An id is given out once, to one event; a row is the row of
the event that got its id; and the addresses stored under an id are those of its event, as long as
its row is there. -/
structure IpsMatch (db : Db) : Prop where
  ids_le : ∀ x ∈ db.inserted, x.1 ≤ db.lastId
  ids_unique : ∀ id e e', (id, e) ∈ db.inserted → (id, e') ∈ db.inserted → e = e'
  rows : ∀ row ∈ db.queryLogs, ∃ e, (row.id, e) ∈ db.inserted ∧ row = LogRow.ofEvent row.id e
  ips : ∀ id ip, (id, ip) ∈ db.responseIps ↔
    (∃ row ∈ db.queryLogs, row.id = id) ∧ ∃ e, (id, e) ∈ db.inserted ∧ ip ∈ e.responseIps

namespace IpsMatch

variable {db : Db}

theorem empty : IpsMatch Db.empty where
  ids_le := by simp [Db.empty]
  ids_unique := by simp [Db.empty]
  rows := by simp [Db.empty]
  ips := by simp [Db.empty]

theorem not_mem_inserted_succ (h : IpsMatch db) (e : QueryEvent) :
    (db.lastId + 1, e) ∉ db.inserted := by
  intro hmem
  have := h.ids_le _ hmem
  omega

theorem id_ne_succ (h : IpsMatch db) {row : LogRow} (hrow : row ∈ db.queryLogs) :
    row.id ≠ db.lastId + 1 := by
  intro hid
  obtain ⟨e, he, -⟩ := h.rows row hrow
  exact h.not_mem_inserted_succ e (hid ▸ he)

/-- A new event gets an id no row and no address has. -/
theorem addEvent [Chrono] (h : IpsMatch db) (e : QueryEvent) : IpsMatch (db.addEvent e) where
  ids_le x hx := by
    rcases List.mem_append.1 hx with hx | hx
    · exact (h.ids_le x hx).trans (Nat.le_succ _)
    · rw [List.mem_singleton.1 hx]
      exact le_rfl
  ids_unique id f f' hf hf' := by
    have hfresh := h.not_mem_inserted_succ
    simp only [Db.addEvent, List.mem_append, List.mem_singleton, Prod.mk.injEq] at hf hf'
    rcases hf with hf | ⟨rfl, rfl⟩ <;> rcases hf' with hf' | ⟨hid, rfl⟩
    · exact h.ids_unique id f f' hf hf'
    · exact absurd (hid ▸ hf) (hfresh f)
    · exact absurd hf' (hfresh f')
    · rfl
  rows row hrow := by
    rcases List.mem_append.1 hrow with hrow | hrow
    · obtain ⟨f, hf, heq⟩ := h.rows row hrow
      exact ⟨f, List.mem_append_left _ hf, heq⟩
    · rw [List.mem_singleton.1 hrow]
      exact ⟨e, List.mem_append_right _ (List.mem_singleton.2 rfl), rfl⟩
  ips id ip := by
    have hold : (id, ip) ∈ db.responseIps → id ≠ db.lastId + 1 := by
      intro hmem hid
      obtain ⟨⟨row, hrow, hrowId⟩, -⟩ := (h.ips id ip).1 hmem
      exact h.id_ne_succ hrow (hrowId.trans hid)
    rw [Db.addEvent, Db.mem_foldl_insertIp]
    simp only [List.mem_map, Prod.mk.injEq, List.mem_append, List.mem_singleton]
    by_cases hid : id = db.lastId + 1
    · subst hid
      constructor
      · rintro (hmem | ⟨ip', hip, -, rfl⟩)
        · exact absurd rfl (hold hmem)
        · exact ⟨⟨_, Or.inr rfl, rfl⟩, e, Or.inr ⟨rfl, rfl⟩, hip⟩
      · rintro ⟨-, f, hf | ⟨-, rfl⟩, hip⟩
        · exact absurd hf (h.not_mem_inserted_succ f)
        · exact Or.inr ⟨ip, hip, rfl, rfl⟩
    · have hrow : (∃ row, (row ∈ db.queryLogs ∨ row = LogRow.ofEvent (db.lastId + 1) e) ∧
          row.id = id) ↔ ∃ row ∈ db.queryLogs, row.id = id := by
        constructor
        · rintro ⟨row, hrow | rfl, heq⟩
          · exact ⟨row, hrow, heq⟩
          · exact absurd heq.symm hid
        · rintro ⟨row, hrow, heq⟩
          exact ⟨row, Or.inl hrow, heq⟩
      simp [hrow, hid, Ne.symm hid, h.ips id ip]

/-- Ids determine rows. -/
theorem row_unique (h : IpsMatch db) {row row' : LogRow} (hrow : row ∈ db.queryLogs)
    (hrow' : row' ∈ db.queryLogs) (hid : row.id = row'.id) : row = row' := by
  obtain ⟨e, he, heq⟩ := h.rows row hrow
  obtain ⟨e', he', heq'⟩ := h.rows row' hrow'
  rw [heq, heq', hid, h.ids_unique row.id e e' he (hid ▸ he')]

/-- Addresses go with their rows. -/
theorem deleteBefore (h : IpsMatch db) (cutoff : ℤ) : IpsMatch (db.deleteBefore cutoff) where
  ids_le := h.ids_le
  ids_unique := h.ids_unique
  rows row hrow := h.rows row (List.mem_of_mem_filter hrow)
  ips id ip := by
    simp only [Db.deleteBefore, List.mem_filter, h.ips id ip]
    constructor
    · rintro ⟨⟨⟨row, hrow, hid⟩, he⟩, hkept⟩
      refine ⟨⟨row, ⟨hrow, ?_⟩, hid⟩, he⟩
      have := of_decide_eq_true hkept
      simp only [List.any_eq_true, not_exists, not_and] at this
      simpa [hid] using this row hrow
    · rintro ⟨⟨row, ⟨hrow, hkept⟩, hid⟩, he⟩
      refine ⟨⟨⟨row, hrow, hid⟩, he⟩, ?_⟩
      simp only [decide_eq_true_eq, List.any_eq_true, not_exists, not_and]
      intro row' hrow' hid' hdel
      have heq : row = row' := h.row_unique hrow hrow' (hid.trans hid'.symm)
      exact of_decide_eq_true hkept (heq ▸ hdel)

end IpsMatch

/-! ### Runs of the store -/

theorem StoreState.maxCutoff_none (cutoff : Option ℤ) :
    StoreState.maxCutoff cutoff none = cutoff := by
  cases cutoff <;> rfl

/-- The invariant of the store, with the largest cutoff used so far. -/
structure Consistent (db : Db) (cutoff : Option ℤ) : Prop where
  hourly : Aggregated hourMs db.hourly db.queryLogs cutoff
  daily : Aggregated dayMs db.daily db.queryLogs cutoff
  ips : IpsMatch db

namespace Consistent

variable {db db' : Db} {cutoff : Option ℤ}

theorem empty : Consistent Db.empty none where
  hourly := Aggregated.empty hourMs
  daily := Aggregated.empty dayMs
  ips := IpsMatch.empty

/-- From a cutoff on, both cutoffs it is the larger of are respected. -/
theorem le_of_maxCutoff {c b : ℤ} (h : ∀ k, StoreState.maxCutoff cutoff (some c) = some k → k ≤ b) :
    (∀ k, cutoff = some k → k ≤ b) ∧ c ≤ b := by
  rcases cutoff with - | a
  · exact ⟨by simp, h c rfl⟩
  · have hmax := h _ rfl
    refine ⟨?_, (le_max_right a c).trans hmax⟩
    rintro k ⟨⟩
    exact (le_max_left a c).trans hmax

theorem deleteBefore (h : Consistent db cutoff) (c : ℤ) :
    Consistent (db.deleteBefore c) (StoreState.maxCutoff cutoff (some c)) where
  hourly := h.hourly.prune (by decide) c (fun _ hb ↦ (le_of_maxCutoff hb).1)
    fun _ hb ↦ (le_of_maxCutoff hb).2
  daily := h.daily.prune (by decide) c (fun _ hb ↦ (le_of_maxCutoff hb).1)
    fun _ hb ↦ (le_of_maxCutoff hb).2
  ips := h.ips.deleteBefore c

/-- Days from the cutoff on are the sum of their hours. -/
theorem daily_eq_sum {db : Db} (h : Consistent db cutoff) {b : ℤ} (hb : dayMs ∣ b)
    (hcut : ∀ c, cutoff = some c → c ≤ b) :
    db.daily.countersAt b = ∑ k ∈ Finset.range 24, db.hourly.countersAt (b + k * hourMs) := by
  have hday : b + dayMs = b + (24 : ℕ) * hourMs := by simp [dayMs, hourMs]
  rw [h.daily.agrees b hb hcut, hday, countIn_eq_sum _ (by decide)]
  -- the hours of the day are aligned and not before the cutoff either
  refine Finset.sum_congr rfl fun k _ ↦ (h.hourly.agrees _ ?_ ?_).symm
  · have hhour : hourMs ∣ b := dvd_trans (by decide) hb
    exact Int.dvd_add hhour (dvd_mul_left _ _)
  · intro c hc
    have hnonneg : 0 ≤ (k : ℤ) * hourMs := mul_nonneg (Int.natCast_nonneg k) (by decide)
    have := hcut c hc
    omega

variable [Chrono]

theorem addEvent (h : Consistent db cutoff) {e : QueryEvent} (he : Chrono.accepts e.timestampMs) :
    Consistent (db.addEvent e) cutoff where
  hourly := h.hourly.insert (by decide) (LogRow.ofEvent (db.lastId + 1) e)
  daily := by
    rw [Db.addEvent, Chrono.midnightMs_eq e.timestampMs he]
    exact h.daily.insert (by decide) (LogRow.ofEvent (db.lastId + 1) e)
  ips := h.ips.addEvent e

/-- The loop of `insert_events`. -/
theorem insertEvents (h : Consistent db cutoff) {events : List QueryEvent}
    (hok : db.insertEvents events = .ok db') : Consistent db' cutoff := by
  induction events generalizing db with
  | nil =>
    cases hok
    exact h
  | cons e events ih =>
    rw [Db.insertEvents, List.foldlM_cons, Db.insertEvent] at hok
    split at hok
    · cases hok
    · split at hok
      · exact ih (h.addEvent ‹_›) hok
      · cases hok

/-- One call keeps the store consistent, whether its transaction commits or not. -/
theorem step {s s' : StoreState} {op : StoreOp} (h : Consistent s.db s.cutoff)
    (hstep : StoreState.machine.step s op = some s') : Consistent s'.db s'.cutoff := by
  cases op with
  | insertEvents events commits =>
    cases hstep
    rcases hok : s.db.insertEvents events with - | db'
    · exact h
    · cases commits
      · exact h
      · exact h.insertEvents hok
  | cleanup retentionDays nowMs commits =>
    cases hstep
    rw [Db.cleanup]
    rcases Db.cleanupCutoff retentionDays nowMs with - | ( - | c) <;> cases commits
    · exact h
    · exact h
    · exact h
    · show Consistent s.db (StoreState.maxCutoff s.cutoff none)
      rwa [StoreState.maxCutoff_none]
    · exact h
    · exact h.deleteBefore c

theorem of_run {s : StoreState} {ops : List StoreOp}
    (hrun : StoreState.machine.run StoreState.empty ops = some s) : Consistent s.db s.cutoff :=
  Machine.run_invariant (I := fun s ↦ Consistent s.db s.cutoff) (fun _ _ _ h hstep ↦ h.step hstep)
    hrun empty

end Consistent

/-- Aggregates, rows and addresses agree: from the cutoff on, the row of every hour and
of every day counts the rows of `query_logs` in it, and a day is the sum of its hours; no address is
left without its row, and every row has the addresses it was inserted with. -/
structure AggregatesAgree (s : StoreState) : Prop where
  hours_unique : s.db.hourly.keys.Nodup
  days_unique : s.db.daily.keys.Nodup
  hourly : ∀ b, hourMs ∣ b → (∀ c, s.cutoff = some c → c ≤ b) →
    s.db.hourly.countersAt b = countIn s.db.queryLogs b (b + hourMs)
  daily : ∀ b, dayMs ∣ b → (∀ c, s.cutoff = some c → c ≤ b) →
    s.db.daily.countersAt b = countIn s.db.queryLogs b (b + dayMs)
  daily_eq_sum : ∀ b, dayMs ∣ b → (∀ c, s.cutoff = some c → c ≤ b) →
    s.db.daily.countersAt b = ∑ k ∈ Finset.range 24, s.db.hourly.countersAt (b + k * hourMs)
  ips_refer : ∀ id ip, (id, ip) ∈ s.db.responseIps → ∃ row ∈ s.db.queryLogs, row.id = id
  ips_eq : ∀ row ∈ s.db.queryLogs, ∃ e, (row.id, e) ∈ s.db.inserted ∧
    (∀ e', (row.id, e') ∈ s.db.inserted → e' = e) ∧ row = LogRow.ofEvent row.id e ∧
    ∀ ip, (row.id, ip) ∈ s.db.responseIps ↔ ip ∈ e.responseIps

/-- **The aggregates agree with the rows**, in every state a run from the empty store reaches: any
batches of events with any timestamps, any cleanups with any clock, any of them failing. -/
theorem aggregates_agree_of_run [Chrono] {ops : List StoreOp} {s : StoreState}
    (hrun : StoreState.machine.run StoreState.empty ops = some s) : AggregatesAgree s := by
  have h := Consistent.of_run hrun
  refine ⟨h.hourly.unique, h.daily.unique, h.hourly.agrees, h.daily.agrees,
    fun b ↦ h.daily_eq_sum, fun id ip hmem ↦ ((h.ips.ips id ip).1 hmem).1, fun row hrow ↦ ?_⟩
  obtain ⟨e, he, heq⟩ := h.ips.rows row hrow
  refine ⟨e, he, fun e' he' ↦ h.ips.ids_unique row.id e' e he' he, heq, fun ip ↦ ?_⟩
  rw [h.ips.ips]
  constructor
  · rintro ⟨-, e', he', hip⟩
    exact h.ips.ids_unique row.id e e' he he' ▸ hip
  · exact fun hip ↦ ⟨⟨row, hrow, rfl⟩, e, he, hip⟩

namespace Sample

/-- An event at a given time, with two addresses, one of them twice. -/
def event (timestampMs : ℤ) (blocked : Bool) : QueryEvent where
  timestampMs := timestampMs
  domain := "example".toList
  queryType := "A".toList
  responseCode := "NOERROR".toList
  durationMs := 3
  blocked := blocked
  cacheHit := false
  responseIps := ["192.0.2.1".toList, "192.0.2.2".toList, "192.0.2.1".toList]
  upstream := none

/-- Two days of events, a batch that fails on its second event, a cleanup in the middle of an hour,
an event that arrives after the cleanup for the time before its cutoff, and a cleanup that is rolled
back. -/
def history : List StoreOp :=
  [.insertEvents [event (-1) false, event 5400000 true, event 86400000 false] true,
    .insertEvents [event 0 false, event (2 ^ 60) false] true,
    .cleanup 1 91800000 true,
    .insertEvents [event 5399999 false] true,
    .cleanup 1 200000000 false]

end Sample

/-- Before the cutoff the late event is in the hour that the cutoff splits, and after it the
aggregates agree with the rows. -/
theorem aggregates_agree_late_event :
    ∃ s, (@StoreState.machine Chrono.utc).run StoreState.empty Sample.history = some s ∧
      s.cutoff = some 5400000 ∧ s.db.hourly.countersAt 3600000 = (2, 1, 0) ∧
      s.db.queryLogs.length = 3 ∧ AggregatesAgree s := by
  have hrun : ((@StoreState.machine Chrono.utc).run StoreState.empty Sample.history).any fun s ↦
      s.cutoff = some 5400000 ∧ s.db.hourly.countersAt 3600000 = (2, 1, 0) ∧
      s.db.queryLogs.length = 3 := by
    decide +kernel
  obtain ⟨s, hs, hprop⟩ := (Option.any_eq_true _ _).1 hrun
  obtain ⟨hcutoff, hhour, hrows⟩ := of_decide_eq_true hprop
  exact ⟨s, hs, hcutoff, hhour, hrows, @aggregates_agree_of_run Chrono.utc _ _ hs⟩

end DnsBuffer
