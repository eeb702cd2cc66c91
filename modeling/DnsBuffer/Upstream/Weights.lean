import DnsBuffer.Upstream.Stats
import Mathlib.Algebra.Order.Field.Basic
import Mathlib.Algebra.Order.Ring.Rat
import Mathlib.Tactic.FieldSimp
import Mathlib.Tactic.Linarith
import Mathlib.Tactic.Positivity
import Mathlib.Tactic.Ring

/-!
# The weight of an upstream

Members of a group are chosen with weight `1 / ((t + 1) * (1 + k * f))`, where `t` is the average
latency of the successes in the window and `f` the share of failures in it. Arithmetic is exact
here: latencies and weights are in any ordered field.

A failure is documented to lower the weight. It raises `f`, but where the window is full it also
pushes the oldest outcome out, and if that was a slow success, `t` falls. Which of the two wins is
`KeepsWeight`; a step lowers the weight, or leaves it, exactly under this condition on the state
before it (`weight_push_failure_le_iff`).
-/

namespace DnsBuffer

variable {F : Type} [Field F]

/-- The fold of `avg_latency_ms`: the sum of the latencies, and the number of successes as a
`u32`. -/
def latencyFold (samples : List (StatSample F)) : F × UInt32 :=
  samples.foldl (fun (sum, n) s ↦
    match s with
    | .success latencyMs => (sum + latencyMs, n + 1)
    | .failure => (sum, n)) (0, 0)

/-- The average latency of the successes among some outcomes, and 100 if there are none. -/
def avgLatency (samples : List (StatSample F)) : F :=
  if (latencyFold samples).2 = 0 then 100
  else (latencyFold samples).1 / ((latencyFold samples).2.toNat : F)

/-- How many of some outcomes are failures. -/
def failures (samples : List (StatSample F)) : ℕ :=
  samples.countP fun s ↦ match s with
    | .success _ => false
    | .failure => true

/-- The share of failures among some outcomes, and 0 if there are none. -/
def failureShare (samples : List (StatSample F)) : F :=
  if samples = [] then 0 else (failures samples : F) / (samples.length : F)

namespace UpstreamStats

/-- `UpstreamStats::failure_rate`. -/
def failureRate (s : UpstreamStats F) : F := failureShare s.samples

/-- `UpstreamStats::avg_latency_ms`. -/
def avgLatencyMs (s : UpstreamStats F) : F := avgLatency s.samples

/-- `UpstreamStats::weight`; a negative `k` is treated as 0. -/
def weight [LinearOrder F] (s : UpstreamStats F) (k : F) : F :=
  1 / ((s.avgLatencyMs + 1) * (1 + max k 0 * s.failureRate))

end UpstreamStats

/-! ### Outcomes -/

theorem latencyFold_concat_failure (samples : List (StatSample F)) :
    latencyFold (samples ++ [.failure]) = latencyFold samples := by
  rw [latencyFold, List.foldl_concat, latencyFold]

theorem latencyFold_cons_failure (samples : List (StatSample F)) :
    latencyFold (.failure :: samples) = latencyFold samples := rfl

theorem avgLatency_concat_failure (samples : List (StatSample F)) :
    avgLatency (samples ++ [.failure]) = avgLatency samples := by
  rw [avgLatency, latencyFold_concat_failure, avgLatency]

theorem avgLatency_cons_failure (samples : List (StatSample F)) :
    avgLatency (.failure :: samples) = avgLatency samples := by
  rw [avgLatency, latencyFold_cons_failure, avgLatency]

omit [Field F] in
theorem failures_concat_failure (samples : List (StatSample F)) :
    failures (samples ++ [.failure]) = failures samples + 1 := by
  rw [failures, List.countP_append, failures]
  rfl

omit [Field F] in
theorem failures_cons_failure (samples : List (StatSample F)) :
    failures (.failure :: samples) = failures samples + 1 :=
  List.countP_cons_of_pos rfl

omit [Field F] in
theorem failures_cons_success (latencyMs : F) (samples : List (StatSample F)) :
    failures (.success latencyMs :: samples) = failures samples :=
  List.countP_cons_of_neg Bool.false_ne_true

section Ordered

variable [LinearOrder F] [IsStrictOrderedRing F]

/-- Latencies are durations. -/
def StatSample.Nonneg : StatSample F → Prop
  | .success latencyMs => 0 ≤ latencyMs
  | .failure => True

theorem avgLatency_nonneg {samples : List (StatSample F)} (h : ∀ s ∈ samples, s.Nonneg) :
    0 ≤ avgLatency samples := by
  have hsum : 0 ≤ (latencyFold samples).1 := by
    induction samples using List.reverseRecOn with
    | nil => exact le_rfl
    | append_singleton samples s ih =>
      rw [List.forall_mem_append, List.forall_mem_singleton] at h
      rcases s with latencyMs | -
      · rw [latencyFold, List.foldl_concat]
        exact add_nonneg (ih h.1) h.2
      · rw [latencyFold_concat_failure]
        exact ih h.1
  rw [avgLatency]
  split
  · norm_num
  · exact div_nonneg hsum (Nat.cast_nonneg _)

/-- What the weight is the inverse of. -/
def denominator (k : F) (samples : List (StatSample F)) : F :=
  (avgLatency samples + 1) * (1 + k * failureShare samples)

theorem failureShare_nonneg (samples : List (StatSample F)) : 0 ≤ failureShare samples := by
  rw [failureShare]
  split
  · exact le_rfl
  · positivity

theorem one_le_denominator {k : F} (hk : 0 ≤ k) {samples : List (StatSample F)}
    (hnonneg : ∀ s ∈ samples, s.Nonneg) : 1 ≤ denominator k samples := by
  have hlatency : 1 ≤ avgLatency samples + 1 := le_add_of_nonneg_left (avgLatency_nonneg hnonneg)
  have hshare : 1 ≤ 1 + k * failureShare samples :=
    le_add_of_nonneg_right (mul_nonneg hk (failureShare_nonneg samples))
  exact one_le_mul_of_one_le_of_one_le hlatency hshare

/-- One more failure raises the share of failures. -/
theorem failureShare_le_concat (samples : List (StatSample F)) :
    failureShare samples ≤ failureShare (samples ++ [.failure]) := by
  have hle : (failures samples : F) ≤ samples.length := Nat.cast_le.2 List.countP_le_length
  by_cases hnil : samples = []
  · rw [failureShare, if_pos hnil]
    exact failureShare_nonneg _
  · have hlength : (0 : F) < samples.length := Nat.cast_pos.2 (List.length_pos_iff.2 hnil)
    rw [failureShare, if_neg hnil, failureShare, if_neg (by simp), failures_concat_failure,
      List.length_append, List.length_singleton, div_le_div_iff₀ hlength (by positivity)]
    push_cast
    linarith

/-- Where nothing is pushed out, the average stays and the share of failures rises. -/
theorem denominator_le_concat {k : F} (hk : 0 ≤ k) {samples : List (StatSample F)}
    (hnonneg : ∀ s ∈ samples, s.Nonneg) :
    denominator k samples ≤ denominator k (samples ++ [.failure]) := by
  rw [denominator, denominator, avgLatency_concat_failure]
  have hshare := mul_le_mul_of_nonneg_left (failureShare_le_concat samples) hk
  exact mul_le_mul_of_nonneg_left (by linarith)
    (add_nonneg (avgLatency_nonneg hnonneg) zero_le_one)

omit [LinearOrder F] [IsStrictOrderedRing F] in
/-- Where a failure is pushed out, nothing changes. -/
theorem denominator_cons_failure (k : F) (rest : List (StatSample F)) :
    denominator k (rest ++ [.failure]) = denominator k (.failure :: rest) := by
  rw [denominator, denominator, avgLatency_concat_failure, avgLatency_cons_failure, failureShare,
    failureShare, failures_concat_failure, failures_cons_failure, List.length_append,
    List.length_singleton, List.length_cons, if_neg (by simp), if_neg (by simp)]

/-- Where a success is pushed out, the average over the others decides. -/
theorem denominator_cons_success_le_iff (k latencyMs : F) (rest : List (StatSample F)) :
    denominator k (.success latencyMs :: rest) ≤ denominator k (rest ++ [.failure]) ↔
      (avgLatency (.success latencyMs :: rest) - avgLatency rest) *
        ((rest.length + 1 : ℕ) + k * failures (.success latencyMs :: rest)) ≤
          k * (avgLatency rest + 1) := by
  have hpos : (0 : F) < (rest.length + 1 : ℕ) := Nat.cast_pos.2 (Nat.succ_pos _)
  rw [denominator, denominator, avgLatency_concat_failure, failureShare, failureShare,
    failures_concat_failure, failures_cons_success, List.length_append, List.length_singleton,
    List.length_cons, if_neg (by simp), if_neg (by simp)]
  generalize avgLatency (.success latencyMs :: rest) = a
  generalize avgLatency rest = a'
  generalize ((rest.length + 1 : ℕ) : F) = w at hpos ⊢
  push_cast
  generalize (failures rest : F) = m
  have hbefore : (a + 1) * (1 + k * (m / w)) = (a + 1) * (w + k * m) / w := by field_simp
  have hafter : (a' + 1) * (1 + k * ((m + 1) / w)) = (a' + 1) * (w + k * m + k) / w := by
    field_simp
    ring
  rw [hbefore, hafter, div_le_div_iff_of_pos_right hpos]
  constructor <;> intro h <;> linarith

namespace UpstreamStats

variable {s : UpstreamStats F} {k : F}

/-- The weight of an upstream does not rise by a failure: the window is not full, or its oldest
outcome is a failure too, or without its oldest outcome the average latency falls by no more than
the additional failure makes up for. -/
def KeepsWeight (k : F) (s : UpstreamStats F) : Prop :=
  s.samples.length < s.window ∨ s.samples.head? = some .failure ∨
    (avgLatency s.samples - avgLatency s.samples.tail) * (s.window + k * failures s.samples) ≤
      k * (avgLatency s.samples.tail + 1)

omit [IsStrictOrderedRing F] in
theorem weight_eq (hk : 0 ≤ k) : s.weight k = 1 / denominator k s.samples := by
  rw [weight, max_eq_left hk, denominator]
  rfl

theorem denominator_le_push_iff (hk : 0 ≤ k) (hwindow : 1 ≤ s.window)
    (hlength : s.samples.length ≤ s.window) (hnonneg : ∀ sample ∈ s.samples, sample.Nonneg) :
    denominator k s.samples ≤ denominator k (s.push .failure).samples ↔ KeepsWeight k s := by
  rw [push]
  rcases hlength.lt_or_eq with hlt | hfull
  · rw [if_neg hlt.ne]
    exact iff_of_true (denominator_le_concat hk hnonneg) (Or.inl hlt)
  rw [if_pos hfull, KeepsWeight, or_iff_right hfull.not_lt]
  rcases hsamples : s.samples with - | ⟨oldest, rest⟩
  · rw [hsamples, List.length_nil] at hfull
    omega
  · rw [hsamples, List.length_cons] at hfull
    rw [List.tail_cons, List.head?_cons]
    rcases oldest with latencyMs | -
    · rw [or_iff_right (by simp), ← hfull]
      exact denominator_cons_success_le_iff k latencyMs rest
    · exact iff_of_true (denominator_cons_failure k rest).ge (Or.inl rfl)

/-- **When a failure does not raise the weight.** -/
theorem weight_push_failure_le_iff (hk : 0 ≤ k) (hwindow : 1 ≤ s.window)
    (hlength : s.samples.length ≤ s.window) (hnonneg : ∀ sample ∈ s.samples, sample.Nonneg) :
    (s.push .failure).weight k ≤ s.weight k ↔ KeepsWeight k s := by
  have hnonneg' : ∀ sample ∈ (s.push .failure).samples, sample.Nonneg := by
    rw [push, List.forall_mem_append, List.forall_mem_singleton]
    refine ⟨fun sample hmem ↦ hnonneg sample ?_, trivial⟩
    split at hmem
    · exact List.mem_of_mem_tail hmem
    · exact hmem
  rw [← denominator_le_push_iff hk hwindow hlength hnonneg, weight_eq hk, weight_eq hk]
  exact one_div_le_one_div (zero_lt_one.trans_le (one_le_denominator hk hnonneg'))
    (zero_lt_one.trans_le (one_le_denominator hk hnonneg))

/-! ### Any run -/

/-- The share of a member whose weight is the first number, among members whose other weights add up
to the second. -/
def share (weight others : F) : F := weight / (weight + others)

theorem share_le_share {w w' others : F} (hpos : 0 < w') (hle : w' ≤ w) (hothers : 0 ≤ others) :
    share w' others ≤ share w others := by
  rw [share, share, div_le_div_iff₀ (by linarith) (by linarith)]
  have hmul := mul_le_mul_of_nonneg_right hle hothers
  linarith

omit [LinearOrder F] [IsStrictOrderedRing F] in
theorem after_append (window retentionDays : ℕ) (ops fails : List (StatsOp F)) :
    after window retentionDays (ops ++ fails) =
      fails.foldl apply (after window retentionDays ops) := by
  rw [after, List.foldl_append, after]

omit [IsStrictOrderedRing F] in
/-- Only the window counts, and every failure is put into it in the same way. -/
theorem weight_apply_failure (s : UpstreamStats F) {op : StatsOp F} (hop : op.sample = .failure)
    (k : F) : (s.apply op).weight k = (s.push .failure).weight k := by
  cases op with
  | success => cases hop
  | timeout => rfl
  | softFail => rfl

omit [IsStrictOrderedRing F] in
/-- The latencies in the window are durations if those of the calls are. -/
theorem nonneg_after (window retentionDays : ℕ) {ops : List (StatsOp F)}
    (hops : ∀ op ∈ ops, op.sample.Nonneg) :
    ∀ sample ∈ (after window retentionDays ops).samples, sample.Nonneg := by
  intro sample hmem
  obtain ⟨op, hop, rfl⟩ := List.mem_map.1 ((inv_after window retentionDays ops).suffix.subset hmem)
  exact hops op hop

omit [IsStrictOrderedRing F] in
theorem nonneg_append_failures {ops fails : List (StatsOp F)}
    (hops : ∀ op ∈ ops, op.sample.Nonneg) (hfails : ∀ op ∈ fails, op.sample = .failure) :
    ∀ op ∈ ops ++ fails, op.sample.Nonneg := by
  refine List.forall_mem_append.2 ⟨hops, fun op hop ↦ ?_⟩
  rw [hfails op hop]
  trivial

theorem weight_after_pos_le_one (window retentionDays : ℕ) {ops : List (StatsOp F)}
    (hops : ∀ op ∈ ops, op.sample.Nonneg) (hk : 0 ≤ k) :
    0 < (after window retentionDays ops).weight k ∧
      (after window retentionDays ops).weight k ≤ 1 := by
  have hone := one_le_denominator hk
    (nonneg_after window retentionDays hops)
  rw [weight_eq hk]
  exact ⟨one_div_pos.2 (zero_lt_one.trans_le hone), (div_le_one (zero_lt_one.trans_le hone)).2 hone⟩

/-- **One failure**, in any state that can be reached. -/
theorem weight_after_failure_le_iff {window retentionDays : ℕ} {ops : List (StatsOp F)}
    (hops : ∀ op ∈ ops, op.sample.Nonneg) (hk : 0 ≤ k) {op : StatsOp F}
    (hop : op.sample = .failure) :
    ((after window retentionDays ops).apply op).weight k ≤
      (after window retentionDays ops).weight k ↔
        KeepsWeight k (after window retentionDays ops) := by
  have hinv := inv_after window retentionDays ops
  rw [weight_apply_failure _ hop]
  refine weight_push_failure_le_iff hk ?_ ?_ (nonneg_after _ _ hops)
  · rw [hinv.window]
    exact le_max_right _ _
  · rw [hinv.length]
    exact min_le_right _ _

/-- **A run of failures**, each under the condition. -/
theorem weight_after_failures_le {window retentionDays : ℕ} {ops : List (StatsOp F)}
    (hops : ∀ op ∈ ops, op.sample.Nonneg) (hk : 0 ≤ k) {fails : List (StatsOp F)}
    (hfails : ∀ op ∈ fails, op.sample = .failure)
    (hkeeps : ∀ before op, before ++ [op] <+: fails →
      KeepsWeight k (after window retentionDays (ops ++ before))) :
    (after window retentionDays (ops ++ fails)).weight k ≤
      (after window retentionDays ops).weight k := by
  induction fails using List.reverseRecOn with
  | nil => rw [List.append_nil]
  | append_singleton fails op ih =>
    rw [List.forall_mem_append, List.forall_mem_singleton] at hfails
    have hbefore := ih hfails.1 fun before op' hbegins ↦
      hkeeps before op' (hbegins.trans (List.prefix_append _ _))
    have hlast := (weight_after_failure_le_iff (nonneg_append_failures hops hfails.1) hk hfails.2).2
      (hkeeps fails op (List.prefix_refl _))
    rw [← List.append_assoc, after_append _ _ (ops ++ fails)]
    exact hlast.trans hbefore

/-- **Failures and weights.** In every state that can be reached, the weight is positive and at most
1, and a failure of either kind does not raise it exactly if `KeepsWeight` holds before it. In a run
of failures that all meet the condition, the weight and the share of the member only fall. -/
theorem failures_keep_weight_iff {window retentionDays : ℕ} {ops : List (StatsOp F)}
    (hops : ∀ op ∈ ops, op.sample.Nonneg) {k : F} (hk : 0 ≤ k) :
    (0 < (after window retentionDays ops).weight k ∧
      (after window retentionDays ops).weight k ≤ 1) ∧
    (∀ op : StatsOp F, op.sample = .failure →
      (((after window retentionDays ops).apply op).weight k ≤
        (after window retentionDays ops).weight k ↔
          KeepsWeight k (after window retentionDays ops))) ∧
    ∀ fails : List (StatsOp F), (∀ op ∈ fails, op.sample = .failure) →
      (∀ before op, before ++ [op] <+: fails →
        KeepsWeight k (after window retentionDays (ops ++ before))) →
      (after window retentionDays (ops ++ fails)).weight k ≤
        (after window retentionDays ops).weight k ∧
      ∀ others, 0 ≤ others →
        share ((after window retentionDays (ops ++ fails)).weight k) others ≤
          share ((after window retentionDays ops).weight k) others := by
  refine ⟨weight_after_pos_le_one _ _ hops hk, fun op hop ↦ weight_after_failure_le_iff hops hk hop,
    fun fails hfails hkeeps ↦ ?_⟩
  have hle := weight_after_failures_le hops hk hfails hkeeps
  have hpos := (weight_after_pos_le_one window retentionDays
    (nonneg_append_failures hops hfails) hk).1
  exact ⟨hle, fun others ↦ share_le_share hpos hle⟩

end UpstreamStats

end Ordered

/-! ### A slow success and a fast one -/

/-- A success of a second, then one of 10 ms. -/
def slowThenFast : List (StatsOp ℚ) :=
  [.success 1000 ⟨0, by decide⟩, .success 10 ⟨0, by decide⟩]

theorem slowThenFast_nonneg : ∀ op ∈ slowThenFast, op.sample.Nonneg := by
  rw [slowThenFast, List.forall_mem_cons, List.forall_mem_singleton]
  exact ⟨show (0 : ℚ) ≤ 1000 by decide, show (0 : ℚ) ≤ 10 by decide⟩

/-- In a window of two, the failure that pushes the slow success out raises the weight from
`1 / 506` to `2 / 77`. -/
theorem failure_raises_weight : (∀ op ∈ slowThenFast, op.sample.Nonneg) ∧
    (UpstreamStats.after 2 0 slowThenFast).weight 5 = 1 / 506 ∧
    ((UpstreamStats.after 2 0 slowThenFast).apply .softFail).weight 5 = 2 / 77 ∧
    ¬((UpstreamStats.after 2 0 slowThenFast).apply .softFail).weight 5 ≤
      (UpstreamStats.after 2 0 slowThenFast).weight 5 :=
  ⟨slowThenFast_nonneg, by decide +kernel, by decide +kernel, by decide +kernel⟩

/-- In a window of three, a timeout pushes nothing out. -/
theorem failures_keep_weight_iff_room :
    (UpstreamStats.after 3 0 (slowThenFast ++ [.timeout ⟨0, by decide⟩])).weight 5 ≤
      (UpstreamStats.after 3 0 slowThenFast).weight 5 := by
  refine ((UpstreamStats.failures_keep_weight_iff slowThenFast_nonneg (by decide)).2.2 _
    (by simp [StatsOp.sample]) fun before op hbegins ↦ Or.inl ?_).1
  obtain rfl : before = [] := by
    have hlength := hbegins.length_le
    rw [List.length_append, List.length_singleton, List.length_singleton] at hlength
    exact List.length_eq_zero_iff.1 (by omega)
  decide

end DnsBuffer
