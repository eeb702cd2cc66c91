import DnsBuffer.Dashboard.Queries
import DnsBuffer.Dashboard.Trend
import Mathlib.Algebra.Order.BigOperators.Group.List

/-!
# The views of the dashboard

`Store::rankings` and `Store::response_time`, and what they have to do with each other and with the
trend and the query list. All four are read off the same store: the rankings, the response time and
the list off the rows, the trend off the aggregates. So the sum of the trend, as far as it goes, is
the number of rows there are (`views_agree`).

`AVG` is an exact fraction here.
-/

namespace DnsBuffer

open Bucket Table

/-- `Ranking`. -/
structure Ranking where
  domain : Text
  totalQueries : ℕ
  blockedQueries : ℕ
  cacheHits : ℕ
deriving DecidableEq

/-- `ResponseTimeSummary`. -/
structure ResponseTimeSummary where
  samples : ℕ
  avgMs : Option ℚ
deriving DecidableEq

namespace Db

/-- What is selected of a group. -/
def rankingOf (g : Text × List LogRow) : Ranking :=
  ⟨g.1, g.2.length, g.2.countP LogRow.blocked, g.2.countP LogRow.cacheHit⟩

/-- `ORDER BY COUNT(*) DESC, domain ASC`. -/
def mostAsked (r : Ranking) : ℕᵒᵈ ×ₗ Text := toLex (OrderDual.toDual r.totalQueries, r.domain)

/-- `Store::rankings_with_deadline`. -/
def rankings (db : Db) : List Ranking :=
  (orderBy mostAsked ((groupBy LogRow.domain db.queryLogs).map rankingOf)).take 20

/-- `Store::response_time_with_deadline`. -/
def responseTime (db : Db) : ResponseTimeSummary where
  samples := db.queryLogs.length
  avgMs := if db.queryLogs = [] then none
    else some ((db.queryLogs.map LogRow.durationMs).sum / db.queryLogs.length)

/-! ### Rankings -/

theorem mostAsked_lt_iff {r r' : Ranking} : mostAsked r < mostAsked r' ↔
    r'.totalQueries < r.totalQueries ∨
      (r.totalQueries = r'.totalQueries ∧ r.domain < r'.domain) := by
  rw [mostAsked, mostAsked, Prod.Lex.toLex_lt_toLex]
  exact or_congr Iff.rfl (and_congr_left fun _ ↦ OrderDual.toDual_inj)

/-- All domains, ranked or not. -/
def allRankings (db : Db) : List Ranking := (groupBy LogRow.domain db.queryLogs).map rankingOf

variable {db : Db}

theorem mem_allRankings {r : Ranking} : r ∈ db.allRankings ↔
    (∃ row ∈ db.queryLogs, row.domain = r.domain) ∧
      r = rankingOf (r.domain, db.queryLogs.filter fun row ↦ row.domain = r.domain) := by
  rw [allRankings, List.mem_map]
  constructor
  · rintro ⟨g, hg, rfl⟩
    obtain ⟨hrow, hrows⟩ := mem_groupBy.1 hg
    refine ⟨hrow, congrArg rankingOf (Prod.ext rfl hrows)⟩
  · rintro ⟨hrow, hr⟩
    exact ⟨_, mem_groupBy.2 ⟨hrow, rfl⟩, hr.symm⟩

theorem domains_allRankings (db : Db) :
    db.allRankings.map Ranking.domain = (db.queryLogs.map LogRow.domain).dedup := by
  rw [allRankings, List.map_map]
  exact keys_groupBy LogRow.domain db.queryLogs

/-- The domain is part of the order, so no two of them have the same place. -/
theorem nodup_mostAsked (db : Db) : (db.allRankings.map mostAsked).Nodup := by
  have hdomains : (db.allRankings.map Ranking.domain).Nodup := by
    rw [domains_allRankings]
    exact List.nodup_dedup _
  refine List.Nodup.of_map (fun k ↦ (ofLex k).2) ?_
  rw [List.map_map]
  exact hdomains

theorem mem_of_mem_rankings {r : Ranking} (h : r ∈ db.rankings) : r ∈ db.allRankings :=
  mem_orderBy.1 (List.mem_of_mem_take h)

theorem countP_filter_domain (flag : LogRow → Bool) (domain : Text) (rows : List LogRow) :
    (rows.filter fun row ↦ row.domain = domain).countP flag =
      rows.countP fun row ↦ flag row ∧ row.domain = domain := by
  rw [List.countP_filter]
  refine List.countP_congr fun row _ ↦ ?_
  rw [Bool.and_eq_true, decide_eq_true_eq, decide_eq_true_eq]

/-- **The rankings are the twenty domains that are asked for most.** For every content of the store:

* a domain is ranked with the numbers of its rows, of which there are some, and of those that were
  blocked or answered from the cache;
* more rows come first, and of equal numbers the smaller domain, so no domain is ranked twice;
* there are twenty, or as many as there are domains; a domain that is not ranked comes after each of
  the twenty. -/
theorem rankings_top (db : Db) :
    (∀ r ∈ db.rankings, 0 < r.totalQueries ∧
      r.totalQueries = db.queryLogs.countP (fun row ↦ row.domain = r.domain) ∧
      r.blockedQueries = db.queryLogs.countP (fun row ↦ row.blocked ∧ row.domain = r.domain) ∧
      r.cacheHits = db.queryLogs.countP fun row ↦ row.cacheHit ∧ row.domain = r.domain) ∧
    db.rankings.Pairwise (fun r r' ↦ r'.totalQueries < r.totalQueries ∨
      (r.totalQueries = r'.totalQueries ∧ r.domain < r'.domain)) ∧
    db.rankings.length = min 20 (db.queryLogs.map LogRow.domain).dedup.length ∧
    ∀ row ∈ db.queryLogs, row.domain ∈ db.rankings.map Ranking.domain ∨
      (db.rankings.length = 20 ∧ ∀ r ∈ db.rankings,
        let total := db.queryLogs.countP fun row' ↦ row'.domain = row.domain
        total < r.totalQueries ∨ (r.totalQueries = total ∧ r.domain < row.domain)) := by
  refine ⟨fun r hr ↦ ?_, ?_, ?_, fun row hrow ↦ ?_⟩
  · obtain ⟨⟨row, hrow, hdomain⟩, heq⟩ := mem_allRankings.1 (mem_of_mem_rankings hr)
    refine ⟨?_, ?_, ?_, ?_⟩
    · rw [heq]
      exact List.length_pos_of_mem (List.mem_filter.2 ⟨hrow, decide_eq_true hdomain⟩)
    · rw [List.countP_eq_length_filter, heq]
      rfl
    · rw [heq]
      exact countP_filter_domain LogRow.blocked r.domain db.queryLogs
    · rw [heq]
      exact countP_filter_domain LogRow.cacheHit r.domain db.queryLogs
  · have hstrict := pairwise_lt_of_nodup (pairwise_orderBy mostAsked db.allRankings)
      (((orderBy_perm mostAsked db.allRankings).map mostAsked).nodup_iff.2 db.nodup_mostAsked)
    exact (hstrict.sublist (List.take_sublist 20 _)).imp mostAsked_lt_iff.1
  · show ((orderBy mostAsked db.allRankings).take 20).length = _
    rw [List.length_take, (orderBy_perm mostAsked db.allRankings).length_eq, ← domains_allRankings,
      List.length_map]
  · by_cases hmem : row.domain ∈ db.rankings.map Ranking.domain
    · exact Or.inl hmem
    · have hall : rankingOf (row.domain, db.queryLogs.filter fun row' ↦ row'.domain = row.domain) ∈
          db.allRankings := mem_allRankings.2 ⟨⟨row, hrow, rfl⟩, rfl⟩
      obtain ⟨hlength, hlt⟩ := lt_of_not_mem_take db.nodup_mostAsked hall fun hin ↦
        hmem (List.mem_map_of_mem hin)
      refine Or.inr ⟨hlength, fun r hr ↦ ?_⟩
      have h := mostAsked_lt_iff.1 (hlt r hr)
      rw [List.countP_eq_length_filter]
      exact h

/-! ### Sums -/

/-- Every row is in the number of its domain. -/
theorem sum_allRankings (db : Db) :
    (db.allRankings.map Ranking.totalQueries).sum = db.queryLogs.length := by
  rw [allRankings, List.map_map]
  exact sum_length_groupBy LogRow.domain db.queryLogs

theorem sum_rankings_le (db : Db) :
    (db.rankings.map Ranking.totalQueries).sum ≤ db.queryLogs.length ∧
      ((db.rankings.map Ranking.totalQueries).sum = db.queryLogs.length ↔
        (db.queryLogs.map LogRow.domain).dedup.length ≤ 20) := by
  have hall : ((orderBy mostAsked db.allRankings).map Ranking.totalQueries).sum =
      db.queryLogs.length := by
    rw [((orderBy_perm mostAsked db.allRankings).map _).sum_eq, sum_allRankings]
  -- the ranked ones and the rest
  have hparts := List.sum_take_add_sum_drop
    ((orderBy mostAsked db.allRankings).map Ranking.totalQueries) 20
  rw [← List.map_take, ← List.map_drop, hall] at hparts
  have hranked : (db.rankings.map Ranking.totalQueries).sum =
      (((orderBy mostAsked db.allRankings).take 20).map Ranking.totalQueries).sum := rfl
  have hlength : (db.queryLogs.map LogRow.domain).dedup.length =
      (orderBy mostAsked db.allRankings).length := by
    rw [(orderBy_perm mostAsked db.allRankings).length_eq, ← domains_allRankings, List.length_map]
  have hrest : (((orderBy mostAsked db.allRankings).drop 20).map Ranking.totalQueries).sum = 0 ↔
      (db.queryLogs.map LogRow.domain).dedup.length ≤ 20 := by
    rw [hlength, ← List.drop_eq_nil_iff]
    constructor
    · intro hzero
      by_contra hne
      obtain ⟨r, hr⟩ := List.exists_mem_of_ne_nil _ hne
      obtain ⟨⟨row, hrow, hdomain⟩, heq⟩ :=
        mem_allRankings.1 (mem_orderBy.1 (List.mem_of_mem_drop hr))
      have hpos : 0 < r.totalQueries := by
        rw [heq]
        exact List.length_pos_of_mem (List.mem_filter.2 ⟨hrow, decide_eq_true hdomain⟩)
      exact hpos.ne' (List.sum_eq_zero_iff.1 hzero _ (List.mem_map_of_mem hr))
    · intro hnil
      rw [hnil]
      rfl
  rw [← hrest, hranked]
  omega

end Db

/-- The sum of the buckets of a trend, from the `j`-th on, if no cutoff is after its begin. -/
theorem Consistent.sum_trend [Chrono] {db : Db} {cutoff : Option ℤ} {d : ℕ} {now : ℤ}
    (h : Consistent db cutoff) (hd : d ≤ 9999) (hnow : Chrono.accepts now)
    {response : TrendResponse} (hok : db.trend d now = .ok response) {j : ℕ}
    (hj : j ≤ response.buckets.length)
    (hcutoff : ∀ c, cutoff = some c → c ≤ response.startMs + j * response.granularity.intervalMs) :
    ((response.buckets.drop j).map StatRow.counters).sum = countIn db.queryLogs
      (response.startMs + j * response.granularity.intervalMs)
      (response.endMs + response.granularity.intervalMs) := by
  obtain rfl := Except.ok.inj ((h.trend_eq hd hnow).symm.trans hok)
  have hw := (trendGranularity d).intervalMs_bounds.1
  have htable := h.statTable (trendGranularity d)
  rw [List.length_map, List.length_range] at hj
  have hend : bucket (trendGranularity d).intervalMs now + (trendGranularity d).intervalMs =
      trendStart d now + j * (trendGranularity d).intervalMs +
        ((trendSpan d + 1 - j : ℕ) : ℤ) * (trendGranularity d).intervalMs := by
    rw [← trendStart_add d now, Nat.cast_sub hj]
    push_cast
    ring
  show _ = countIn db.queryLogs _ (bucket _ now + _)
  rw [hend, countIn_eq_sum _ hw, ← List.map_drop, List.range_eq_range', List.drop_range',
    List.range'_eq_map_range, List.map_map, List.map_map]
  show _ = ((List.range _).map _).sum
  refine congrArg List.sum (List.map_congr_left fun k _ ↦ ?_)
  -- the `k`-th of them is the `j + k`-th of all
  have hplace : trendStart d now + ((0 + j * 1 + k : ℕ) : ℤ) * (trendGranularity d).intervalMs =
      trendStart d now + j * (trendGranularity d).intervalMs +
        k * (trendGranularity d).intervalMs := by
    push_cast
    ring
  have hlater : (0 : ℤ) ≤ k * (trendGranularity d).intervalMs :=
    mul_nonneg (Int.natCast_nonneg k) hw.le
  show (db.statTable (trendGranularity d)).countersAt
    (trendStart d now + ((0 + j * 1 + k : ℕ) : ℤ) * (trendGranularity d).intervalMs) = _
  rw [hplace]
  refine htable.agrees _ ?_ fun c hc ↦ (hcutoff c hc).trans (le_add_of_nonneg_right hlater)
  exact Int.dvd_add (Int.dvd_add (dvd_trendStart d now) (dvd_mul_left _ _)) (dvd_mul_left _ _)

/-- Rows that are all in a range. -/
theorem countIn_eq_of_forall {logs : List LogRow} {lo hi : ℤ}
    (h : ∀ row ∈ logs, lo ≤ row.timestampMs ∧ row.timestampMs < hi) :
    countIn logs lo hi =
      (logs.length, logs.countP LogRow.blocked, logs.countP LogRow.cacheHit) := by
  have hall : (logs.filter fun row ↦ lo ≤ row.timestampMs ∧ row.timestampMs < hi) = logs :=
    List.filter_eq_self.2 fun row hrow ↦ decide_eq_true (h row hrow)
  rw [countIn, hall]

/-- **The views agree.** In every state that a run of the store reaches:

* the response time is about the rows that the query list has without a search: as many samples, and
  their average;
* the rankings count no row twice, and every row if there are no more than twenty domains;
* the buckets of the trend, from one on that no cutoff is after, sum up to the rows in their range;
  and if that is where all rows are, to what the other views count. -/
theorem views_agree [Chrono] {ops : List StoreOp} {s : StoreState}
    (hrun : StoreState.machine.run StoreState.empty ops = some s) {d : ℕ} {now : ℤ}
    (hd : d ≤ 9999) (hnow : Chrono.accepts now) :
    (s.db.responseTime.samples = (s.db.matching none).length ∧
      (s.db.responseTime.avgMs = none ↔ s.db.responseTime.samples = 0) ∧
      ∀ avg, s.db.responseTime.avgMs = some avg → avg * s.db.responseTime.samples =
        ((s.db.matching none).map LogRow.durationMs).sum) ∧
    ((s.db.rankings.map Ranking.totalQueries).sum ≤ s.db.responseTime.samples ∧
      ((s.db.rankings.map Ranking.totalQueries).sum = s.db.responseTime.samples ↔
        (s.db.queryLogs.map LogRow.domain).dedup.length ≤ 20)) ∧
    ∃ response, s.db.trend d now = .ok response ∧ ∀ j ≤ response.buckets.length,
      let begin := response.startMs + j * response.granularity.intervalMs
      let end' := response.endMs + response.granularity.intervalMs
      (∀ c, s.cutoff = some c → c ≤ begin) →
        ((response.buckets.drop j).map StatRow.counters).sum =
          countIn s.db.queryLogs begin end' ∧
        ((∀ row ∈ s.db.queryLogs, begin ≤ row.timestampMs ∧ row.timestampMs < end') →
          ((response.buckets.drop j).map StatRow.counters).sum =
            (s.db.responseTime.samples, s.db.queryLogs.countP LogRow.blocked,
              s.db.queryLogs.countP LogRow.cacheHit)) := by
  have h := Consistent.of_run hrun
  refine ⟨⟨rfl, ?_, fun avg havg ↦ ?_⟩, s.db.sum_rankings_le,
    ⟨_, h.trend_eq hd hnow, fun j hj hcutoff ↦ ?_⟩⟩
  · rw [Db.responseTime, List.length_eq_zero_iff]
    simp
  · rw [Db.responseTime, Option.ite_none_left_eq_some, Option.some.injEq] at havg
    have hne : (s.db.queryLogs.length : ℚ) ≠ 0 := by
      rw [Nat.cast_ne_zero, Ne, List.length_eq_zero_iff]
      exact havg.1
    rw [← havg.2]
    exact div_mul_cancel₀ _ hne
  · have hsum := h.sum_trend hd hnow (h.trend_eq hd hnow) hj hcutoff
    exact ⟨hsum, fun hrows ↦ hsum.trans (countIn_eq_of_forall hrows)⟩

/-- Without a cleanup the trend of sixteen days, the rankings and the response time tell of the same
three queries. -/
theorem views_agree_three_queries :
    let ops : List StoreOp :=
      [.insertEvents [Sample.event 5400000 true, Sample.event 86400000 false] true,
        .insertEvents [Sample.event 90000000 false] true]
    ∃ s, (@StoreState.machine Chrono.utc).run StoreState.empty ops = some s ∧
      s.db.responseTime = ⟨3, some 3⟩ ∧
      s.db.rankings = [⟨"example".toList, 3, 1, 0⟩] ∧
      ∃ response, @Db.trend Chrono.utc s.db 16 91800000 = .ok response ∧
        ((response.buckets.drop 0).map StatRow.counters).sum = (3, 1, 0) := by
  intro ops
  have hrun : ((@StoreState.machine Chrono.utc).run StoreState.empty ops).any fun s ↦
      s.cutoff = none ∧ s.db.responseTime = ⟨3, some 3⟩ ∧
        s.db.rankings = [⟨"example".toList, 3, 1, 0⟩] ∧
        s.db.queryLogs.countP LogRow.blocked = 1 ∧ s.db.queryLogs.countP LogRow.cacheHit = 0 ∧
        (@Db.trend Chrono.utc s.db 16 91800000).toOption.any fun response ↦
          ∀ row ∈ s.db.queryLogs,
            response.startMs + ((0 : ℕ) : ℤ) * response.granularity.intervalMs ≤
                row.timestampMs ∧
              row.timestampMs < response.endMs + response.granularity.intervalMs := by
    decide +kernel
  obtain ⟨s, hs, hprop⟩ := (Option.any_eq_true _ _).1 hrun
  obtain ⟨hcutoff, htime, hranked, hblocked, hhits, hany⟩ := of_decide_eq_true hprop
  obtain ⟨-, -, response, hok, htrend⟩ := @views_agree Chrono.utc ops s hs 16 91800000
    (by decide) (by decide)
  rw [hok] at hany
  obtain ⟨-, hsum⟩ := htrend 0 (Nat.zero_le _) fun c hc ↦ by rw [hcutoff] at hc; cases hc
  refine ⟨s, hs, htime, hranked, response, hok, ?_⟩
  rw [hsum (of_decide_eq_true hany), htime, hblocked, hhits]

end DnsBuffer
