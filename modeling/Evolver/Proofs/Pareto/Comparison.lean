import Evolver.Proofs.Evolution.Fronts
/-!
# The crowded comparison of ranked fitnesses

Once non-dominated sorting has ranked two fitnesses, comparing them draws no
coin: the comparison checks that both are evaluated with as many objectives,
then compares the front ranks, and on equal ranks the crowding distances.

`Fitness.betterThan_favours_larger_rank` says exactly what it answers for
every pair of fitnesses that sorting can leave behind (whole-number ranks,
crowding distances that are zero or a double): the fitness with the *larger*
rank is the better one, and of two with the same rank the more crowded.
Crowding distances compare by their exact values, and a NaN distance is
neither larger nor smaller than any other (`Value.compare_gt_crowding`).
-/

namespace Evolver

open Numeric

namespace Value

/-- `a` is a number larger than `b`: both have exact values (no NaN) and the
first is the larger. -/
def exceeds (a b : Value) : Bool :=
  match a.exactValue?, b.exactValue? with
  | some u, some v => decide (v < u)
  | _, _ => false

theorem exactValue?_float_of_isNaN {x : Float} (hx : x.isNaN = true) : (Value.float x).exactValue? = Option.none := by
  simp only [exactValue?, toCell?, Option.bind_some, Cell.exactValue?, hx, ↓reduceIte]

/-- A NaN crowding distance is unordered: comparing it, on either side, with
a crowding distance answers `false`. -/
theorem compare_gt_nan_left {x : Float} (hx : x.isNaN = true) {b : Value} (hb : b.IsCrowding) :
    Value.compare .gt (.float x) b = .ok false := by
  rcases hb with rfl | ⟨y, rfl⟩
  · simp only [Value.compare, testCell, toCell?, except_pure, plainCompare, Bool.or_eq_true, Cell.toInt?, cmpIntFloat,
      beq_iff_eq, except_ok_bind, hx, ↓reduceIte, Option.map_none, Option.getD_none]
  · simp only [Value.compare, testCell, toCell?, except_pure, plainCompare, Bool.or_eq_true, except_ok_bind, hx,
      true_or, ↓reduceIte, Option.map_none, Option.getD_none]

theorem compare_gt_nan_right {a : Value} (ha : a.IsCrowding) {y : Float} (hy : y.isNaN = true) :
    Value.compare .gt a (.float y) = .ok false := by
  rcases ha with rfl | ⟨x, rfl⟩
  · simp only [Value.compare, testCell, toCell?, except_pure, plainCompare, Bool.or_eq_true, Cell.toInt?, cmpIntFloat,
      beq_iff_eq, except_ok_bind, hy, ↓reduceIte, Option.map_none, Option.getD_none]
  · simp only [Value.compare, testCell, toCell?, except_pure, plainCompare, Bool.or_eq_true, except_ok_bind, hy,
      or_true, ↓reduceIte, Option.map_none, Option.getD_none]

/-- A crowding distance is a number with an exact value unless it is NaN. -/
theorem IsCrowding.exact_or_nan {a : Value} (ha : a.IsCrowding) :
    (∃ u, a.exactValue? = some u) ∨ ∃ x, a = .float x ∧ x.isNaN = true := by
  rcases ha with rfl | ⟨x, rfl⟩
  · exact .inl ⟨_, rfl⟩
  · cases hx : x.isNaN with
    | true => exact .inr ⟨x, rfl, hx⟩
    | false => exact .inl ⟨Numeric.exactValue x, by
      simp only [exactValue?, toCell?, Option.bind_some, Cell.exactValue?, hx, Bool.false_eq_true, ↓reduceIte]⟩

/-- **Crowding distances compare by their exact values**, and a NaN distance
is neither larger nor smaller than another. -/
theorem compare_gt_crowding {a b : Value} (ha : a.IsCrowding) (hb : b.IsCrowding) :
    Value.compare .gt a b = .ok (a.exceeds b) := by
  rcases ha.exact_or_nan with ⟨u, hu⟩ | ⟨x, rfl, hx⟩
  · rcases hb.exact_or_nan with ⟨v, hv⟩ | ⟨y, rfl, hy⟩
    · rw [compare_eq_holds .gt hu hv, Relation.holds_gt_compare]
      simp [exceeds, hu, hv]
    · rw [compare_gt_nan_right ha hy]
      simp [exceeds, exactValue?_float_of_isNaN hy]
  · rw [compare_gt_nan_left hx hb]
    simp [exceeds, exactValue?_float_of_isNaN hx]

/-- Whole numbers compare as integers. -/
theorem compare_gt_int (r s : Int) : Value.compare .gt (.int r) (.int s) = .ok (decide (s < r)) := by
  have hr : (Value.int r).exactValue? = some (((r * 2 ^ 1074 : Int) : WithTop Int) : WithBot (WithTop Int)) := rfl
  have hs : (Value.int s).exactValue? = some (((s * 2 ^ 1074 : Int) : WithTop Int) : WithBot (WithTop Int)) := rfl
  rw [compare_eq_holds .gt hr hs, Relation.holds_gt_compare]
  congr 1
  simp only [WithBot.coe_lt_coe, WithTop.coe_lt_coe, decide_eq_decide]
  exact mul_lt_mul_iff_of_pos_right (Int.pow_pos (by decide))

/-- A whole-number rank is never the rank of a fitness not yet sorted. -/
theorem equal_int_unranked (r : Int) : Value.equal (.int r) Fitness.unranked = .ok false := by
  have hinf : (1.0 / 0.0 : Float).isInf = true := by decide
  have hpos : (0 : Float) < 1.0 / 0.0 := by decide
  simp [Value.equal, Fitness.unranked, testCell, toCell?, cellEqual, plainCompare, Cell.toInt?, cmpIntFloat,
    hinf, hpos]

end Value

namespace Fitness

/-- Two ranked fitnesses that the crowded comparison accepts: both evaluated,
their scores sequences with as many objectives. -/
structure Comparable (f g : Fitness) : Prop where
  ranked_left : f.measure = .ranked
  ranked_right : g.measure = .ranked
  evaluated_left : f.evaluated = true
  evaluated_right : g.evaluated = true
  same_size : ∃ n, f.score.size? = .ok n ∧ g.score.size? = .ok n

theorem Comparable.augmented_left {f g : Fitness} (h : f.Comparable g) (size : Nat) :
    f.augmented size = .ok f.score := by
  simp only [augmented, Fitness.pure, h.evaluated_left, if_true, except_ok_bind, h.ranked_left]
  rfl

theorem Comparable.augmented_right {f g : Fitness} (h : f.Comparable g) (size : Nat) :
    g.augmented size = .ok g.score := by
  simp only [augmented, Fitness.pure, h.evaluated_right, if_true, except_ok_bind, h.ranked_right]
  rfl

/-- The checks of a comparison of objectives pass on comparable fitnesses. -/
theorem Comparable.checkRanked {f g : Fitness} (h : f.Comparable g) (m n : Nat) :
    f.checkRanked m g n = .ok () := by
  obtain ⟨k, hf, hg⟩ := h.same_size
  simp only [Fitness.checkRanked, Measure.isScalar, h.ranked_right, isEvaluated, h.evaluated_left,
    h.evaluated_right, Bool.or_true, Bool.not_true, Bool.or_false, h.augmented_left, h.augmented_right,
    except_ok_bind, hf, hg, bne_self_eq_false]
  rfl

/-- **The crowded comparison favours the larger rank.**  For two comparable
ranked fitnesses with whole-number ranks `r` and `s`, as sorting writes them,
and crowding distances that are zero or a double, the comparison draws
nothing and answers whether `r > s`, or the ranks are equal and the first
crowding distance exceeds the second. -/
theorem betterThan_favours_larger_rank {f g : Fitness} (hc : f.Comparable g) {r s : Int}
    (hr : f.frontRank = some (.int r)) (hs : g.frontRank = some (.int s)) {cf cg : Value}
    (hcf : f.crowding = some cf) (hcg : g.crowding = some cg) (hcf' : cf.IsCrowding) (hcg' : cg.IsCrowding)
    (m n : Nat) (l : Lab) :
    (f.betterThan m g n).run l = .ok (decide (s < r) || (r == s && cf.exceeds cg)) l := by
  have hcmp : Value.compare .gt cf cg = .ok (cf.exceeds cg) := Value.compare_gt_crowding hcf' hcg'
  -- a sorted fitness takes the branch of ranks, where the checks pass
  unfold betterThan
  rw [hc.ranked_left]
  by_cases hrs : r = s
  · subst hrs
    simp [stat, hr, hs, hcf, hcg, Value.equal_int_unranked, hc.checkRanked, Value.equal_int, hcmp,
      Draw.ofExcept, EStateM.run_pure]
  · simp [stat, hr, hs, Value.equal_int_unranked, hc.checkRanked, Value.equal_int, hrs,
      Value.compare_gt_int, Draw.ofExcept, EStateM.run_pure]

/-- A ranked, evaluated fitness minimizing the whole numbers `xs`, sorted into
front `rank` with crowding distance one half. -/
def sortedSample (rank : Int) (xs : List Int) : Fitness where
  measure := .ranked
  score := .list (xs.map .int)
  evaluated := true
  higherIsBetter := .list (xs.map fun _ => .bool false)
  cache := false
  relative := false
  crowding := some (.float 0.5)
  frontRank := some (.int rank)

/-- A member of the first front, `[1, 1]`, is not better than a member of the
second, `[2, 2]`, with the same crowding distance. -/
theorem betterThan_favours_larger_rank_fronts :
    (sortedSample 1 [1, 1]).Comparable (sortedSample 2 [2, 2]) ∧
      ((sortedSample 1 [1, 1]).betterThan 1 (sortedSample 2 [2, 2]) 1).run Lab.start = .ok false Lab.start := by
  have hc : (sortedSample 1 [1, 1]).Comparable (sortedSample 2 [2, 2]) := ⟨rfl, rfl, rfl, rfl, ⟨2, rfl, rfl⟩⟩
  refine ⟨hc, ?_⟩
  rw [betterThan_favours_larger_rank hc rfl rfl rfl rfl (.inr ⟨0.5, rfl⟩) (.inr ⟨0.5, rfl⟩) 1 1 Lab.start]
  rfl

end Fitness

end Evolver
