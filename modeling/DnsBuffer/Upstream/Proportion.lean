import DnsBuffer.Foundation.Tiling
import DnsBuffer.Upstream.Selection
import Mathlib.Algebra.Order.Field.Rat
import Mathlib.Algebra.Order.Field.Basic
import Mathlib.Algebra.Order.Floor.Ring
import Mathlib.Data.List.ReduceOption
import Mathlib.Data.Rat.Floor
import Mathlib.Order.Interval.Set.Basic

/-!
# The proportions of a draw

`pick_weighted` in exact arithmetic: a weight is a rational number, or not finite. The weights that
count, as widths, tile the interval from zero to their sum, with no width for the others; the loop
finds the tile of the roll times the sum (`pickFrom_eq_locate`). So the rolls for a member fill an
interval in proportion to its weight, and none is left for the fallback behind the loop.
-/

namespace DnsBuffer

open Tiling

instance : FloatArith (Option ℚ) := exactArith

/-- The weights that count: the positive ones among those that are finite. -/
def countingWeights (weights : List (Option ℚ)) : List ℚ :=
  weights.reduceOption.filter fun w ↦ 0 < w

/-- The sum of the weights that count. -/
def countingSum (weights : List (Option ℚ)) : ℚ := (countingWeights weights).sum

/-- The sum of the weights that count before an index. -/
def weightBefore (weights : List (Option ℚ)) (i : ℕ) : ℚ := countingSum (weights.take i)

/-- The width of a weight: the weight itself if it counts. -/
def width (w : Option ℚ) : ℚ := if 0 < w.getD 0 then w.getD 0 else 0

theorem width_nonneg (w : Option ℚ) : 0 ≤ width w := by
  rw [width]
  split
  · rename_i h
    exact h.le
  · exact le_rfl

theorem width_some {w : ℚ} (h : 0 < w) : width (some w) = w := if_pos h

theorem isPositive_iff {w : Option ℚ} : isPositive w = true ↔ ∃ v, w = some v ∧ 0 < v := by
  cases w with
  | none => simp [isPositive, FloatArith.isFinite]
  | some v => simp [isPositive, FloatArith.isFinite, FloatArith.lt, FloatArith.zero]

theorem width_eq_zero {w : Option ℚ} (h : isPositive w = false) : width w = 0 := by
  cases w with
  | none => rfl
  | some v =>
    refine if_neg fun hpos ↦ ?_
    rw [isPositive_iff.2 ⟨v, rfl, hpos⟩] at h
    cases h

/-- The widths add up to the weights that count. -/
theorem sum_width (weights : List (Option ℚ)) :
    (weights.map width).sum = countingSum weights := by
  induction weights with
  | nil => rfl
  | cons w weights ih =>
    rw [List.map_cons, List.sum_cons, ih, countingSum, countingSum, countingWeights,
      countingWeights]
    cases w with
    | none => simp [width]
    | some v =>
      by_cases hpos : 0 < v
      · simp [width, hpos]
      · simp [width, hpos]

/-! ### The loop -/

/-- The sum of the loop's filter, from any start. -/
theorem foldl_add_eq (weights : List (Option ℚ)) (acc : ℚ) :
    (weights.filter isPositive).foldl FloatArith.add (some acc) =
      some (acc + (weights.map width).sum) := by
  induction weights generalizing acc with
  | nil => simp
  | cons w weights ih =>
    rw [List.map_cons, List.sum_cons]
    by_cases hw : isPositive w = true
    · obtain ⟨v, rfl, hpos⟩ := isPositive_iff.1 hw
      rw [List.filter_cons_of_pos hw, List.foldl_cons, width_some hpos, ← add_assoc]
      exact ih (acc + v)
    · rw [List.filter_cons_of_neg hw, ih, width_eq_zero (Bool.eq_false_iff.2 hw), zero_add]

theorem totalWeight_eq (weights : List (Option ℚ)) :
    totalWeight weights = some (countingSum weights) := by
  show (weights.filter isPositive).foldl FloatArith.add (some 0) = _
  rw [foldl_add_eq, zero_add, sum_width]

theorem map_add_add (found : Option ℕ) (k : ℕ) :
    (found.map (· + 1)).map (· + k) = found.map (· + (k + 1)) := by
  rw [Option.map_map]
  congr 1
  funext i
  show i + 1 + k = i + (k + 1)
  omega

/-- **The loop finds the tile of its target.** -/
theorem pickFrom_eq_locate {target acc : ℚ} (hacc : acc ≤ target) (weights : List (Option ℚ))
    (k : ℕ) : pickFrom (some target) (some acc) k weights =
      (locate (target - acc) (weights.map width)).map (· + k) := by
  induction weights generalizing acc k with
  | nil => rfl
  | cons w weights ih =>
    rw [List.map_cons, locate, pickFrom]
    by_cases hw : isPositive w = true
    · obtain ⟨v, rfl, hpos⟩ := isPositive_iff.1 hw
      have hadd : FloatArith.add (some acc) (some v) = some (acc + v) := rfl
      have hlt : FloatArith.lt (some target) (some (acc + v)) = decide (target < acc + v) := rfl
      simp only [hw, if_true, hadd, hlt, decide_eq_true_eq, width_some hpos, sub_lt_iff_lt_add']
      by_cases hfound : target < acc + v
      · rw [if_pos hfound, if_pos hfound, Option.map_some, Nat.zero_add]
      · rw [if_neg hfound, if_neg hfound, ih (not_lt.1 hfound), map_add_add, sub_sub]
    · -- a weight that does not count is passed over, as a tile without a point
      have hskip : ¬target - acc < 0 := not_lt.2 (sub_nonneg.2 hacc)
      rw [if_neg hw, width_eq_zero (Bool.eq_false_iff.2 hw), if_neg hskip, ih hacc, sub_zero,
        map_add_add]

/-! ### The draw -/

variable {weights : List (Option ℚ)}

theorem mem_countingWeights {w : ℚ} :
    w ∈ countingWeights weights ↔ some w ∈ weights ∧ 0 < w := by
  rw [countingWeights, List.mem_filter, List.reduceOption_mem_iff, decide_eq_true_eq]

/-- The sum of the weights that count is positive if there is one. -/
theorem countingSum_pos (h : ∃ w ∈ weights, isPositive w = true) :
    0 < countingSum weights := by
  obtain ⟨w, hw, hpositive⟩ := h
  obtain ⟨v, rfl, hpos⟩ := isPositive_iff.1 hpositive
  refine List.sum_pos _ (fun v hv ↦ (mem_countingWeights.1 hv).2) ?_
  exact List.ne_nil_of_mem (mem_countingWeights.2 ⟨hw, hpos⟩)

theorem countingWeights_eq_nil (h : ∀ w ∈ weights, ¬isPositive w = true) :
    countingWeights weights = [] := by
  rw [List.eq_nil_iff_forall_not_mem]
  intro v hv
  obtain ⟨hmem, hpos⟩ := mem_countingWeights.1 hv
  exact h _ hmem (isPositive_iff.2 ⟨v, rfl, hpos⟩)

/-- Where tile `i` begins. -/
theorem sum_take_width (i : ℕ) :
    ((weights.map width).take i).sum = weightBefore weights i := by
  rw [← List.map_take, sum_width]
  rfl

/-- **The loop finds an index**, so that the fallback behind it is not reached. -/
theorem pickFrom_target (h : ∃ w ∈ weights, isPositive w = true) {roll : ℚ} (hroll : 0 ≤ roll) :
    pickFrom (FloatArith.mul (some roll) (totalWeight weights)) FloatArith.zero 0 weights =
      locate (roll * countingSum weights) (weights.map width) := by
  have hpos := countingSum_pos h
  rw [totalWeight_eq]
  show pickFrom (some (roll * countingSum weights)) (some 0) 0 weights = _
  rw [pickFrom_eq_locate (mul_nonneg hroll hpos.le), sub_zero]
  exact Option.map_id'

theorem exists_pickFrom (h : ∃ w ∈ weights, isPositive w = true) {roll : ℚ} (hroll : 0 ≤ roll)
    (hlt : roll < 1) : ∃ i, pickFrom (FloatArith.mul (some roll) (totalWeight weights))
      FloatArith.zero 0 weights = some i := by
  have hpos := countingSum_pos h
  rw [pickFrom_target h hroll]
  refine exists_locate (mul_nonneg hroll hpos.le) ?_
  rw [sum_width]
  exact mul_lt_of_lt_one_left hpos hlt

theorem pickWeighted_eq_locate (h : ∃ w ∈ weights, isPositive w = true) {roll : ℚ}
    (hroll : 0 ≤ roll) (hlt : roll < 1) : pickWeighted weights (some roll) =
      locate (roll * countingSum weights) (weights.map width) := by
  have hne : weights ≠ [] := by
    obtain ⟨w, hw, -⟩ := h
    exact List.ne_nil_of_mem hw
  obtain ⟨i, hi⟩ := exists_pickFrom h hroll hlt
  have hle : FloatArith.le (totalWeight weights) FloatArith.zero = false := by
    rw [totalWeight_eq]
    exact decide_eq_false (not_le.2 (countingSum_pos h))
  rw [pickWeighted, if_neg hne, ← pickFrom_target h hroll]
  simp only [hle, Bool.false_eq_true, if_false, hi]

/-- Where tile `i` ends: behind its own weight if it counts, and where it begins if not. -/
theorem sum_take_succ_width (i : ℕ) : ((weights.map width).take (i + 1)).sum =
    weightBefore weights i + (weights[i]?.map width).getD 0 := by
  rw [List.take_add_one, List.sum_append, sum_take_width, List.getElem?_map]
  cases weights[i]? <;> simp

theorem pickWeighted_eq_some_iff (h : ∃ w ∈ weights, isPositive w = true) {roll : ℚ}
    (hroll : 0 ≤ roll) (hlt : roll < 1) {i : ℕ} : pickWeighted weights (some roll) = some i ↔
      ∃ w, weights[i]? = some (some w) ∧ 0 < w ∧
        weightBefore weights i / countingSum weights ≤ roll ∧
        roll < (weightBefore weights i + w) / countingSum weights := by
  have hpos := countingSum_pos h
  have hwidths : ∀ w ∈ weights.map width, 0 ≤ w := List.forall_mem_map.2 fun w _ ↦ width_nonneg w
  rw [pickWeighted_eq_locate h hroll hlt,
    locate_eq_some_iff hwidths (mul_nonneg hroll hpos.le), sum_take_width, sum_take_succ_width]
  simp only [div_le_iff₀ hpos, lt_div_iff₀ hpos]
  constructor
  · rintro ⟨hbegin, hend⟩
    -- a tile with a point has a width
    obtain ⟨w, hw, hpositive⟩ : ∃ w, weights[i]? = some w ∧ isPositive w = true := by
      rcases hi : weights[i]? with - | w
      · rw [hi] at hend
        exact absurd hbegin (not_le.2 (by simpa using hend))
      · refine ⟨w, rfl, ?_⟩
        by_contra hnot
        rw [hi, Option.map_some, Option.getD_some, width_eq_zero (Bool.eq_false_iff.2 hnot),
          add_zero] at hend
        exact absurd hbegin (not_le.2 hend)
    obtain ⟨v, rfl, hv⟩ := isPositive_iff.1 hpositive
    rw [hw, Option.map_some, Option.getD_some, width_some hv] at hend
    exact ⟨v, hw, hv, hbegin, hend⟩
  · rintro ⟨w, hw, hw', hbegin, hend⟩
    rw [hw, Option.map_some, Option.getD_some, width_some hw']
    exact ⟨hbegin, hend⟩

/-- **The rolls for an index** fill its tile, scaled to the sum of the weights. -/
theorem rolls_eq_Ico {i : ℕ} {w : ℚ} (hi : weights[i]? = some (some w)) (hw : 0 < w) :
    {roll | 0 ≤ roll ∧ roll < 1 ∧ pickWeighted weights (some roll) = some i} =
      Set.Ico (weightBefore weights i / countingSum weights)
        ((weightBefore weights i + w) / countingSum weights) := by
  have hcounts : ∃ w ∈ weights, isPositive w = true :=
    ⟨some w, List.mem_of_getElem? hi, isPositive_iff.2 ⟨w, rfl, hw⟩⟩
  have hpos := countingSum_pos hcounts
  ext roll
  rw [Set.mem_ofPred_eq, Set.mem_Ico]
  constructor
  · rintro ⟨hroll, hlt, hpick⟩
    obtain ⟨w', hi', -, hbegin, hend⟩ := (pickWeighted_eq_some_iff hcounts hroll hlt).1 hpick
    obtain rfl : w = w' := Option.some.inj (Option.some.inj (hi.symm.trans hi'))
    exact ⟨hbegin, hend⟩
  · rintro ⟨hbegin, hend⟩
    have hwidths : ∀ w ∈ weights.map width, 0 ≤ w :=
      List.forall_mem_map.2 fun w _ ↦ width_nonneg w
    have hroll : 0 ≤ roll := by
      refine (div_nonneg ?_ hpos.le).trans hbegin
      rw [← sum_take_width]
      exact sum_take_nonneg hwidths i
    have hlt : roll < 1 := by
      refine hend.trans_le ((div_le_one hpos).2 ?_)
      have hle := sum_take_le hwidths (i + 1)
      rw [sum_take_succ_width, sum_width, hi, Option.map_some, Option.getD_some,
        width_some hw] at hle
      exact hle
    exact ⟨hroll, hlt, (pickWeighted_eq_some_iff hcounts hroll hlt).2 ⟨w, hi, hw, hbegin, hend⟩⟩

/-- **Without a weight that counts** the draw is uniform. -/
theorem pickWeighted_uniform_iff (hne : weights ≠ []) (h : ∀ w ∈ weights, ¬isPositive w = true)
    {roll : ℚ} (hroll : 0 ≤ roll) (hlt : roll < 1) {i : ℕ} :
    pickWeighted weights (some roll) = some i ↔
      (i : ℚ) / weights.length ≤ roll ∧ roll < (i + 1 : ℚ) / weights.length := by
  have hn : 0 < weights.length := List.length_pos_iff.2 hne
  have hn' : (0 : ℚ) < weights.length := Nat.cast_pos.2 hn
  have hle : FloatArith.le (totalWeight weights) FloatArith.zero = true := by
    rw [totalWeight_eq, countingSum, countingWeights_eq_nil h]
    rfl
  have hfloor : ⌊roll * weights.length⌋.toNat < weights.length := by
    have hfloor_lt : ⌊roll * weights.length⌋ < weights.length := by
      rw [Int.floor_lt]
      exact mul_lt_of_lt_one_left hn' hlt
    omega
  have hnonneg : 0 ≤ ⌊roll * weights.length⌋ := Int.floor_nonneg.2 (mul_nonneg hroll hn'.le)
  rw [pickWeighted, if_neg hne]
  simp only [hle, if_true]
  show some (min ⌊roll * weights.length⌋.toNat (weights.length - 1)) = some i ↔ _
  rw [min_eq_left (by omega), Option.some.injEq, div_le_iff₀ hn', lt_div_iff₀ hn']
  have hcast : ⌊roll * weights.length⌋.toNat = i ↔ ⌊roll * weights.length⌋ = (i : ℤ) := by omega
  rw [hcast, Int.floor_eq_iff]
  rfl

/-- **The draw is proportional.** For every list of weights and every roll from 0 to below 1:

* if a weight counts, index `i` is drawn exactly if its weight counts and the roll lies on its tile,
  from the weights before it to those with it, divided by the sum of all; the rolls for it are an
  interval of the length of its share; and the loop always finds an index, so that the fallback
  behind it is not reached;
* if no weight counts, index `i` of `n` is drawn exactly if the roll lies between `i / n` and
  `(i + 1) / n`. -/
theorem draw_proportional (weights : List (Option ℚ)) (hne : weights ≠ []) :
    ((∃ w ∈ weights, isPositive w = true) →
      (∀ roll : ℚ, 0 ≤ roll → roll < 1 → ∀ i,
        (pickWeighted weights (some roll) = some i ↔ ∃ w, weights[i]? = some (some w) ∧ 0 < w ∧
          weightBefore weights i / countingSum weights ≤ roll ∧
          roll < (weightBefore weights i + w) / countingSum weights)) ∧
      (∀ i w, weights[i]? = some (some w) → 0 < w →
        {roll : ℚ | 0 ≤ roll ∧ roll < 1 ∧ pickWeighted weights (some roll) = some i} =
            Set.Ico (weightBefore weights i / countingSum weights)
              ((weightBefore weights i + w) / countingSum weights) ∧
          (weightBefore weights i + w) / countingSum weights -
            weightBefore weights i / countingSum weights = w / countingSum weights) ∧
      ∀ roll : ℚ, 0 ≤ roll → roll < 1 → ∃ i,
        pickFrom (FloatArith.mul (some roll) (totalWeight weights)) FloatArith.zero 0 weights =
          some i) ∧
    ((∀ w ∈ weights, ¬isPositive w = true) → ∀ roll : ℚ, 0 ≤ roll → roll < 1 → ∀ i : ℕ,
      (pickWeighted weights (some roll) = some i ↔
        (i : ℚ) / weights.length ≤ roll ∧ roll < (i + 1 : ℚ) / weights.length)) := by
  refine ⟨fun hcounts ↦ ⟨fun roll hroll hlt i ↦ ?_, fun i w hi hw ↦ ⟨?_, ?_⟩,
    fun roll hroll hlt ↦ ?_⟩, fun hnone roll hroll hlt i ↦ ?_⟩
  · exact pickWeighted_eq_some_iff hcounts hroll hlt
  · exact rolls_eq_Ico hi hw
  · rw [← sub_div, add_sub_cancel_left]
  · exact exists_pickFrom hcounts hroll hlt
  · exact pickWeighted_uniform_iff hne hnone hroll hlt

/-- Among the weights 1, not a number, and 3, the rolls from 1/4 on are for the last. -/
theorem draw_proportional_three :
    {roll : ℚ | 0 ≤ roll ∧ roll < 1 ∧ pickWeighted [some 1, none, some 3] (some roll) = some 2} =
      Set.Ico (1 / 4) 1 := by
  have hcounts : ∃ w ∈ [some (1 : ℚ), none, some 3], isPositive w = true :=
    ⟨some 1, List.mem_cons_self, by decide +kernel⟩
  have hdraw := (draw_proportional [some 1, none, some 3] (by simp)).1 hcounts
  have hrolls := (hdraw.2.1 2 3 rfl (by decide)).1
  have hbefore : weightBefore [some 1, none, some 3] 2 = 1 := by decide +kernel
  have htotal : countingSum [some 1, none, some 3] = 4 := by decide +kernel
  rw [hbefore, htotal] at hrolls
  rw [hrolls]
  norm_num

end DnsBuffer
