import DnsBuffer.Foundation.Cubic
import Mathlib.Algebra.Order.Group.MinMax
import Mathlib.Data.List.GetD
import Mathlib.Order.Interval.Set.Basic

/-!
# The smooth lines of the chart

`strokeSmoothLine` of the dashboard page draws one curve through a list of points: a tangent for
every point, reined in segment by segment in one pass, and one cubic for every segment. The pass
changes the tangents at both ends of a segment, so it also changes what it has done for the segment
before. It never undoes it, since all it does to a tangent is to scale it by a factor between zero
and one (`limitAt_scales`): a segment whose tangents are limited keeps limited tangents.

So the path goes through every point, and between two points it only goes from the one to the other
(`shapePreserving_strokeSmoothLine`). No assumption on the points is needed: where two of them are
one above the other, the tangents of the segment are zero and the curve is the vertical line.

The numbers are those of an ordered field with a square root; the rounding of the floating point
numbers is not modelled.
-/

namespace DnsBuffer

namespace Chart

open Cubic

variable {K : Type}

/-! ### Paths -/

/-- A point of the canvas. -/
structure Point (K : Type) where
  x : K
  y : K
deriving DecidableEq

/-- The calls on the context that build a path. -/
inductive PathCommand (K : Type)
  | moveTo (p : Point K)
  | lineTo (p : Point K)
  | bezierCurveTo (c₁ c₂ p : Point K)
deriving DecidableEq

/-- Where the pen is after a command. -/
def PathCommand.target : PathCommand K → Point K
  | .moveTo p => p
  | .lineTo p => p
  | .bezierCurveTo _ _ p => p

/-- The commands of a path after the first, each with the point where the pen is before it. -/
def pieces (path : List (PathCommand K)) : List (Point K × PathCommand K) :=
  (path.map PathCommand.target).zip path.tail

variable [Field K]

/-- The point that a command draws at a parameter between zero and one, from where the pen is. -/
def PathCommand.trace (p : Point K) (t : K) : PathCommand K → Point K
  | .moveTo q => q
  | .lineTo q => ⟨p.x + t * (q.x - p.x), p.y + t * (q.y - p.y)⟩
  | .bezierCurveTo c₁ c₂ q => ⟨bezier p.x c₁.x c₂.x q.x t, bezier p.y c₁.y c₂.y q.y t⟩

/-! ### The curve -/

section Stroke

variable [LinearOrder K] (sqrt : K → K) (points : List (Point K))

/-- `points[i]`. -/
def pointAt (i : ℕ) : Point K := points.getD i ⟨0, 0⟩

/-- `dx[i]`, the width of a segment. -/
def dx (i : ℕ) : K := (pointAt points (i + 1)).x - (pointAt points i).x

/-- `delta[i]`, the slope of the secant of a segment. -/
def delta (i : ℕ) : K :=
  if dx points i ≠ 0 then ((pointAt points (i + 1)).y - (pointAt points i).y) / dx points i else 0

/-- The initial `m[i]`: the secant at the ends, the average inside, zero at an extremum. -/
def tangent (i : ℕ) : K :=
  if i = 0 then delta points 0
  else if i = points.length - 1 then delta points (points.length - 2)
  else if delta points (i - 1) * delta points i ≤ 0 then 0
  else (delta points (i - 1) + delta points i) / 2

/-- One round of the limiter, on the array `m` of the tangents. -/
def limitAt (m : ℕ → K) (i : ℕ) : ℕ → K :=
  if delta points i = 0 then Function.update (Function.update m i 0) (i + 1) 0
  else
    let a := m i / delta points i
    let b := m (i + 1) / delta points i
    let s := a * a + b * b
    if 9 < s then
      let t := 3 / sqrt s
      Function.update (Function.update m i (t * a * delta points i)) (i + 1)
        (t * b * delta points i)
    else m

/-- The tangents after the first `n` rounds. -/
def limited (n : ℕ) : ℕ → K := (List.range n).foldl (limitAt sqrt points) (tangent points)

/-- The curve of a segment, with the control points a third of the way. -/
def curve (m : ℕ → K) (i : ℕ) : PathCommand K :=
  .bezierCurveTo
    ⟨(pointAt points i).x + dx points i / 3, (pointAt points i).y + m i * dx points i / 3⟩
    ⟨(pointAt points (i + 1)).x - dx points i / 3,
      (pointAt points (i + 1)).y - m (i + 1) * dx points i / 3⟩
    (pointAt points (i + 1))

/-- `strokeSmoothLine`: the path that it strokes, which is none for less than two points. -/
def strokeSmoothLine : List (PathCommand K) :=
  if points.length < 2 then []
  else if points.length = 2 then [.moveTo (pointAt points 0), .lineTo (pointAt points 1)]
  else .moveTo (pointAt points 0) :: (List.range (points.length - 1)).map
    (curve points (limited sqrt points (points.length - 1)))

end Stroke

/-! ### Tangents -/

section Tangents

variable [LinearOrder K]

/-- The tangents at the ends of a segment do not point against its secant. -/
def Follows (d m₀ m₁ : K) : Prop := ∃ a b, 0 ≤ a ∧ 0 ≤ b ∧ m₀ = a * d ∧ m₁ = b * d

/-- They are reined in: relative to the secant they are in the disc of radius three. -/
def Limited (d m₀ m₁ : K) : Prop :=
  ∃ a b, 0 ≤ a ∧ 0 ≤ b ∧ a ^ 2 + b ^ 2 ≤ 9 ∧ m₀ = a * d ∧ m₁ = b * d

variable [IsStrictOrderedRing K] {d m₀ m₁ : K}

theorem Follows.scale {c₀ c₁ : K} (h : Follows d m₀ m₁) (h₀ : 0 ≤ c₀) (h₁ : 0 ≤ c₁) :
    Follows d (c₀ * m₀) (c₁ * m₁) := by
  obtain ⟨a, b, ha, hb, rfl, rfl⟩ := h
  exact ⟨c₀ * a, c₁ * b, mul_nonneg h₀ ha, mul_nonneg h₁ hb, (mul_assoc _ _ _).symm,
    (mul_assoc _ _ _).symm⟩

theorem Limited.scale {c₀ c₁ : K} (h : Limited d m₀ m₁) (h₀ : 0 ≤ c₀ ∧ c₀ ≤ 1)
    (h₁ : 0 ≤ c₁ ∧ c₁ ≤ 1) : Limited d (c₀ * m₀) (c₁ * m₁) := by
  obtain ⟨a, b, ha, hb, hdisc, rfl, rfl⟩ := h
  refine ⟨c₀ * a, c₁ * b, mul_nonneg h₀.1 ha, mul_nonneg h₁.1 hb, ?_, (mul_assoc _ _ _).symm,
    (mul_assoc _ _ _).symm⟩
  have hleft : (c₀ * a) ^ 2 ≤ a ^ 2 :=
    pow_le_pow_left₀ (mul_nonneg h₀.1 ha) (mul_le_of_le_one_left ha h₀.2) 2
  have hright : (c₁ * b) ^ 2 ≤ b ^ 2 :=
    pow_le_pow_left₀ (mul_nonneg h₁.1 hb) (mul_le_of_le_one_left hb h₁.2) 2
  linarith

theorem limited_zero (d : K) : Limited d 0 0 :=
  ⟨0, 0, le_rfl, le_rfl, by norm_num, (zero_mul d).symm, (zero_mul d).symm⟩

/-- The average of two secants of one sign points along the first of them. -/
theorem exists_average_eq {x y : K} (h : 0 < x * y) : ∃ a, 0 ≤ a ∧ (x + y) / 2 = a * x := by
  have hx : x ≠ 0 := left_ne_zero_of_mul h.ne'
  have hratio : 0 < y / x := by
    rw [← mul_div_mul_left y x hx]
    exact div_pos h (mul_self_pos.2 hx)
  refine ⟨(1 + y / x) / 2, by positivity, ?_⟩
  field_simp

variable {points : List (Point K)}

theorem follows_tangent {i : ℕ} (hlen : 3 ≤ points.length) (hi : i < points.length - 1) :
    Follows (delta points i) (tangent points i) (tangent points (i + 1)) := by
  have hstart : ∃ a, 0 ≤ a ∧ tangent points i = a * delta points i := by
    unfold tangent
    split_ifs with hzero hlast hsign
    · exact ⟨1, zero_le_one, by rw [hzero, one_mul]⟩
    · omega
    · exact ⟨0, le_rfl, (zero_mul _).symm⟩
    · rw [add_comm]
      exact exists_average_eq (by rw [mul_comm]; exact not_le.1 hsign)
  have hend : ∃ b, 0 ≤ b ∧ tangent points (i + 1) = b * delta points i := by
    unfold tangent
    rw [if_neg i.succ_ne_zero, Nat.add_sub_cancel]
    split_ifs with hlast hsign
    · have hi' : points.length - 2 = i := by omega
      exact ⟨1, zero_le_one, by rw [hi', one_mul]⟩
    · exact ⟨0, le_rfl, (zero_mul _).symm⟩
    · exact exists_average_eq (not_le.1 hsign)
  obtain ⟨a, ha, hma⟩ := hstart
  obtain ⟨b, hb, hmb⟩ := hend
  exact ⟨a, b, ha, hb, hma, hmb⟩

end Tangents

/-! ### The limiter -/

section Limiter

variable [LinearOrder K]

/-- What `Math.sqrt` returns for a number that is not negative. -/
def IsSqrt (sqrt : K → K) : Prop := ∀ s, 0 ≤ s → 0 ≤ sqrt s ∧ sqrt s * sqrt s = s

variable [IsStrictOrderedRing K] {sqrt : K → K} {points : List (Point K)} {m : ℕ → K} {i : ℕ}

/-- The factor of the limiter scales down, to the rim of the disc. -/
theorem IsSqrt.factor (h : IsSqrt sqrt) {s : K} (hs : 9 < s) :
    (0 ≤ 3 / sqrt s ∧ 3 / sqrt s ≤ 1) ∧ (3 / sqrt s) ^ 2 * s = 9 := by
  obtain ⟨hnonneg, hsq⟩ := h s (by linarith)
  have hthree : 3 ≤ sqrt s := by
    by_contra hlt
    nlinarith
  have hpos : 0 < sqrt s := by linarith
  refine ⟨⟨by positivity, (div_le_one hpos).2 hthree⟩, ?_⟩
  rw [div_pow, sq (sqrt s), hsq, div_mul_cancel₀ _ (by linarith)]
  norm_num

omit [LinearOrder K] [IsStrictOrderedRing K] in
/-- Scaling the tangents at two neighbours. -/
theorem update_update_eq (c : K) (m : ℕ → K) (i : ℕ) :
    Function.update (Function.update m i (c * m i)) (i + 1) (c * m (i + 1)) =
      fun k ↦ (if k = i ∨ k = i + 1 then c else 1) * m k := by
  funext k
  by_cases hnext : k = i + 1
  · subst hnext
    simp
  · by_cases hk : k = i
    · subst hk
      simp
    · simp [hk, hnext]

/-- **One round of the limiter** scales every tangent by a factor between zero and one, and leaves
those of its segment limited. -/
theorem limitAt_spec (hsqrt : IsSqrt sqrt)
    (hm : Follows (delta points i) (m i) (m (i + 1))) :
    (∃ c : ℕ → K, (∀ k, 0 ≤ c k ∧ c k ≤ 1) ∧ limitAt sqrt points m i = fun k ↦ c k * m k) ∧
      Limited (delta points i) (limitAt sqrt points m i i) (limitAt sqrt points m i (i + 1)) := by
  have hfactor (c : K) (hc : 0 ≤ c ∧ c ≤ 1) (k : ℕ) :
      0 ≤ (if k = i ∨ k = i + 1 then c else 1) ∧ (if k = i ∨ k = i + 1 then c else 1) ≤ 1 := by
    split_ifs
    · exact hc
    · exact ⟨zero_le_one, le_rfl⟩
  obtain ⟨a, b, ha, hb, hma, hmb⟩ := hm
  dsimp only [limitAt]
  split_ifs with hflat hout
  · -- A flat segment: both tangents become zero.
    have hzero := update_update_eq 0 m i
    rw [zero_mul, zero_mul] at hzero
    refine ⟨⟨_, hfactor 0 ⟨le_rfl, zero_le_one⟩, hzero⟩, ?_⟩
    simpa using limited_zero (delta points i)
  · -- Outside the disc: the pair is moved to its rim.
    rw [hma, hmb, mul_div_cancel_right₀ a hflat, mul_div_cancel_right₀ b hflat] at hout ⊢
    obtain ⟨hc, hrim⟩ := hsqrt.factor hout
    generalize 3 / sqrt (a * a + b * b) = c at hc hrim ⊢
    have hscaled := update_update_eq c m i
    rw [hma, hmb, ← mul_assoc, ← mul_assoc] at hscaled
    refine ⟨⟨_, hfactor c hc, hscaled⟩, c * a, c * b, mul_nonneg hc.1 ha, mul_nonneg hc.1 hb, ?_,
      by simp, by simp⟩
    rw [← hrim]
    exact le_of_eq (by ring)
  · -- Inside the disc: nothing changes.
    rw [hma, hmb, mul_div_cancel_right₀ a hflat, mul_div_cancel_right₀ b hflat] at hout
    refine ⟨⟨fun _ ↦ 1, fun _ ↦ ⟨zero_le_one, le_rfl⟩, by simp⟩, a, b, ha, hb, ?_, hma, hmb⟩
    rw [sq, sq]
    exact not_lt.1 hout

/-- The whole pass: after `n` rounds no tangent points against a secant, and the first `n` segments
are limited. A round leaves its own segment limited, and only scales down what others have. -/
theorem limited_spec (hsqrt : IsSqrt sqrt) (hlen : 3 ≤ points.length) {n : ℕ}
    (hn : n ≤ points.length - 1) :
    let m := limited sqrt points n
    (∀ j < points.length - 1, Follows (delta points j) (m j) (m (j + 1))) ∧
      ∀ j < n, Limited (delta points j) (m j) (m (j + 1)) := by
  induction n with
  | zero => exact ⟨fun j hj ↦ follows_tangent hlen hj, fun j hj ↦ absurd hj j.not_lt_zero⟩
  | succ n ih =>
    obtain ⟨hfollows, hlimited⟩ := ih (by omega)
    obtain ⟨⟨c, hc, hscales⟩, hlast⟩ := limitAt_spec hsqrt (hfollows n (by omega))
    have hround : limited sqrt points (n + 1) =
        limitAt sqrt points (limited sqrt points n) n := by
      rw [limited, List.range_succ, List.foldl_append]
      rfl
    intro m
    refine ⟨fun j hj ↦ ?_, fun j hj ↦ ?_⟩
    · show Follows _ (limited sqrt points (n + 1) j) (limited sqrt points (n + 1) (j + 1))
      rw [hround, hscales]
      exact (hfollows j hj).scale (hc j).1 (hc (j + 1)).1
    · show Limited _ (limited sqrt points (n + 1) j) (limited sqrt points (n + 1) (j + 1))
      rcases Nat.lt_succ_iff_lt_or_eq.1 hj with hlt | rfl
      · rw [hround, hscales]
        exact (hlimited j hlt).scale (hc j) (hc (j + 1))
      · rw [hround]
        exact hlast

end Limiter

/-! ### The path -/

section Path

variable [LinearOrder K]

/-- A command draws from where the pen is to its target, at constant horizontal speed, rising or
falling all the way. -/
structure Direct (p : Point K) (c : PathCommand K) : Prop where
  joins : c.trace p 0 = p ∧ c.trace p 1 = c.target
  advances : ∀ t, (c.trace p t).x = p.x + t * (c.target.x - p.x)
  rises : p.y ≤ c.target.y → MonotoneOn (fun t ↦ (c.trace p t).y) (Set.Icc 0 1)
  falls : c.target.y ≤ p.y → AntitoneOn (fun t ↦ (c.trace p t).y) (Set.Icc 0 1)

/-- A path that goes through all points in order, directly from one to the next. -/
structure ShapePreserving (points : List (Point K)) (path : List (PathCommand K)) : Prop where
  through : path.map PathCommand.target = points
  direct : ∀ p c, (p, c) ∈ pieces path → Direct p c

variable [IsStrictOrderedRing K]

/-- What is drawn directly stays between its ends. -/
theorem Direct.mem_uIcc {p : Point K} {c : PathCommand K} (h : Direct p c) {t : K}
    (ht : t ∈ Set.Icc (0 : K) 1) :
    (c.trace p t).x ∈ Set.uIcc p.x c.target.x ∧ (c.trace p t).y ∈ Set.uIcc p.y c.target.y := by
  have hstart : (c.trace p 0).y = p.y := by rw [h.joins.1]
  have hend : (c.trace p 1).y = c.target.y := by rw [h.joins.2]
  have hzero : (0 : K) ∈ Set.Icc (0 : K) 1 := ⟨le_rfl, zero_le_one⟩
  have hone : (1 : K) ∈ Set.Icc (0 : K) 1 := ⟨zero_le_one, le_rfl⟩
  constructor
  · rw [h.advances t, Set.mem_uIcc]
    rcases le_total p.x c.target.x with hle | hle
    · exact .inl ⟨by nlinarith [ht.1], by nlinarith [ht.2]⟩
    · exact .inr ⟨by nlinarith [ht.2], by nlinarith [ht.1]⟩
  · rw [← hstart, ← hend, Set.mem_uIcc]
    rcases le_total p.y c.target.y with hle | hle
    · exact .inl ⟨h.rises hle hzero ht ht.1, h.rises hle ht hone ht.2⟩
    · exact .inr ⟨h.falls hle ht hone ht.2, h.falls hle hzero ht ht.1⟩

theorem direct_lineTo (p q : Point K) : Direct p (.lineTo q) where
  joins := by simp [PathCommand.trace, PathCommand.target]
  advances _ := rfl
  rises hle t _ u _ htu :=
    add_le_add_right (mul_le_mul_of_nonneg_right htu (sub_nonneg.2 hle)) p.y
  falls hle t _ u _ htu :=
    add_le_add_right (mul_le_mul_of_nonpos_right htu (sub_nonpos.2 hle)) p.y

variable {sqrt : K → K} {points : List (Point K)} {m : ℕ → K} {i : ℕ}

/-- The curve of a segment with limited tangents, in the form of `Cubic.hermite`. -/
theorem exists_trace_curve_eq (h : Limited (delta points i) (m i) (m (i + 1))) :
    let p := pointAt points i
    let q := pointAt points (i + 1)
    ∃ a b, 0 ≤ a ∧ 0 ≤ b ∧ a ^ 2 + b ^ 2 ≤ 9 ∧ ∀ t, (curve points m i).trace p t =
      ⟨p.x + t * (q.x - p.x), hermite p.y q.y a b t⟩ := by
  intro p q
  have hx (t : K) : bezier p.x (p.x + dx points i / 3) (q.x - dx points i / 3) q.x t =
      p.x + t * (q.x - p.x) := bezier_thirds p.x q.x t
  obtain ⟨a, b, ha, hb, hdisc, hma, hmb⟩ := h
  by_cases hdx : dx points i = 0
  · -- One point above the other: the control points are the ends.
    refine ⟨0, 0, le_rfl, le_rfl, by norm_num, fun t ↦ Point.mk.injEq .. ▸ ⟨hx t, ?_⟩⟩
    show bezier p.y (p.y + m i * dx points i / 3) (q.y - m (i + 1) * dx points i / 3) q.y t = _
    rw [hdx, mul_zero, mul_zero, hermite_eq, zero_mul]
  · have hrise : delta points i * dx points i = q.y - p.y := by
      rw [delta, if_pos hdx, div_mul_cancel₀ _ hdx]
    refine ⟨a, b, ha, hb, hdisc, fun t ↦ Point.mk.injEq .. ▸ ⟨hx t, ?_⟩⟩
    show bezier p.y (p.y + m i * dx points i / 3) (q.y - m (i + 1) * dx points i / 3) q.y t = _
    rw [hma, hmb, mul_assoc, mul_assoc, hrise, hermite_eq]

theorem direct_curve (h : Limited (delta points i) (m i) (m (i + 1))) :
    Direct (pointAt points i) (curve points m i) := by
  obtain ⟨a, b, ha, hb, hdisc, htrace⟩ := exists_trace_curve_eq h
  constructor
  · rw [htrace, htrace, hermite_zero, hermite_one]
    simp [curve, PathCommand.target]
  · intro t
    rw [htrace]
    rfl
  · intro hle t ht u hu htu
    dsimp only
    rw [htrace, htrace]
    exact hermite_le_hermite ha hb hdisc ht.1 htu hu.2 hle
  · intro hle t ht u hu htu
    dsimp only
    rw [htrace, htrace]
    exact hermite_le_hermite_of_ge ha hb hdisc ht.1 htu hu.2 hle

omit [LinearOrder K] [IsStrictOrderedRing K] in
theorem map_pointAt_range (points : List (Point K)) :
    (List.range points.length).map (pointAt points) = points := by
  refine List.ext_getElem (by simp) fun i _ hi ↦ ?_
  rw [List.getElem_map, List.getElem_range]
  exact List.getD_eq_getElem _ _ hi

/-- **`strokeSmoothLine` preserves the shape of its points**: for any two or more points. -/
theorem shapePreserving_strokeSmoothLine (hsqrt : IsSqrt sqrt) (hlen : 2 ≤ points.length) :
    ShapePreserving points (strokeSmoothLine sqrt points) := by
  obtain ⟨n, hn⟩ : ∃ n, points.length = n + 1 := ⟨points.length - 1, by omega⟩
  have hpoints : pointAt points 0 :: (List.range n).map (fun i ↦ pointAt points (i + 1)) =
      points := by
    conv_rhs => rw [← map_pointAt_range points, hn, List.range_succ_eq_map, List.map_cons,
      List.map_map]
    rfl
  rw [strokeSmoothLine, if_neg (by omega), hn, Nat.add_sub_cancel]
  split_ifs with htwo
  · obtain rfl : n = 1 := by omega
    refine ⟨hpoints, fun p c hpiece ↦ ?_⟩
    obtain ⟨rfl, rfl⟩ : p = pointAt points 0 ∧ c = .lineTo (pointAt points 1) := by
      simpa [pieces, PathCommand.target] using hpiece
    exact direct_lineTo _ _
  · have hthrough : ((PathCommand.moveTo (pointAt points 0) ::
        (List.range n).map (curve points (limited sqrt points n))).map PathCommand.target) =
        points := by
      rw [List.map_cons, List.map_map]
      exact hpoints
    refine ⟨hthrough, fun p c hpiece ↦ ?_⟩
    rw [pieces, hthrough, List.tail_cons] at hpiece
    obtain ⟨i, hi, hpair⟩ := List.mem_iff_getElem.1 hpiece
    have hi' : i < points.length ∧ i < n := by simpa using hi
    rw [List.getElem_zip, Prod.mk.injEq] at hpair
    obtain ⟨rfl, rfl⟩ := hpair
    -- The `i`-th piece starts at the `i`-th point.
    rw [List.getElem_map, List.getElem_range, ← List.getD_eq_getElem points ⟨0, 0⟩ hi'.1]
    exact direct_curve ((limited_spec hsqrt (by omega) (by omega)).2 i hi'.2)

end Path

end Chart

end DnsBuffer
