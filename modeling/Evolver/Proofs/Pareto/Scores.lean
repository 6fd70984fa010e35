import Evolver.Proofs.Numeric.Rounding
import Evolver.Proofs.Value.Sort
import Evolver.Pareto.Fronts

namespace Evolver

open Numeric

/-- A value that can stand as an objective score: a plain number other than
NaN; a whole number at most half the largest double in size, so that the
difference of two scores converts to a double. -/
def Value.IsScore (v : Value) : Prop :=
  v.exactValue?.isSome ∧ ∀ n, v = .int n → 2 * n.natAbs < floatLimit

/-- The exact value of a number, `⊥` for what is no number. -/
def Value.exact (v : Value) : WithBot (WithTop Int) := v.exactValue?.getD ⊥

theorem Value.isScore_int {n : Int} (h : 2 * n.natAbs < floatLimit) : (Value.int n).IsScore :=
  ⟨by simp only [Value.exactValue?, Value.toCell?, Option.bind_some, Cell.exactValue?, Cell.toInt?,
    Option.map_some, Option.isSome_some], fun m hm => by cases hm; exact h⟩

theorem Value.exactValue?_eq_exact {v : Value} (h : v.exactValue?.isSome) :
    v.exactValue? = some v.exact := by
  obtain ⟨u, hu⟩ := Option.isSome_iff_exists.1 h
  simp [Value.exact, hu]

section Relations

variable {γ : Type} [LinearOrder γ] (a b : γ)

@[simp] theorem Relation.holds_lt_compare : Relation.lt.holds (compare a b) = decide (a < b) := by
  rw [Bool.eq_iff_iff]; simp [Relation.holds, compare_lt_iff_lt]

@[simp] theorem Relation.holds_gt_compare : Relation.gt.holds (compare a b) = decide (b < a) := by
  rw [Bool.eq_iff_iff]; simp [Relation.holds, compare_gt_iff_gt]

@[simp] theorem Relation.holds_le_compare : Relation.le.holds (compare a b) = decide (a ≤ b) := by
  rw [Bool.eq_iff_iff]; simp [Relation.holds, compare_gt_iff_gt]

@[simp] theorem Relation.holds_ge_compare : Relation.ge.holds (compare a b) = decide (b ≤ a) := by
  rw [Bool.eq_iff_iff]; simp [Relation.holds, compare_lt_iff_lt]

end Relations

namespace Pareto

/-! ### The Pareto order -/

/-- An objective read up (`up`) or down: `a` is at least as good as `b`. -/
def AtLeast (up : Bool) (a b : WithBot (WithTop Int)) : Prop := if up then b ≤ a else a ≤ b

/-- An objective read up or down: `a` is better than `b`. -/
def Better (up : Bool) (a b : WithBot (WithTop Int)) : Prop := if up then b < a else a < b

/-- Exact values are decided by the order of the integers, whatever order
instances are in scope. -/
instance instDecidableLEExact : DecidableLE (WithBot (WithTop Int)) :=
  @WithBot.decidableLE (WithTop Int) (@WithTop.instLE Int Int.instLEInt)
    (@WithTop.decidableLE Int Int.instLEInt Int.decLe)

instance instDecidableLTExact : DecidableLT (WithBot (WithTop Int)) :=
  @WithBot.decidableLT (WithTop Int) (@WithTop.instLT Int Int.instLTInt)
    (@WithTop.decidableLT Int Int.instLTInt Int.decLt)

instance (up : Bool) (a b : WithBot (WithTop Int)) : Decidable (AtLeast up a b) :=
  match up with
  | true => instDecidableLEExact b a
  | false => instDecidableLEExact a b

instance (up : Bool) (a b : WithBot (WithTop Int)) : Decidable (Better up a b) :=
  match up with
  | true => instDecidableLTExact b a
  | false => instDecidableLTExact a b

/-- `u` is at least as good as `v` in every objective and better in one,
objective `k` read up where `flags[k]` holds and down elsewhere. -/
def Dominates (flags : List Bool) (u v : List (WithBot (WithTop Int))) : Prop :=
  (∀ k < flags.length, AtLeast (flags.getD k false) (u.getD k ⊥) (v.getD k ⊥)) ∧
    ∃ k < flags.length, Better (flags.getD k false) (u.getD k ⊥) (v.getD k ⊥)

instance (flags : List Bool) (u v : List (WithBot (WithTop Int))) : Decidable (Dominates flags u v) :=
  inferInstanceAs (Decidable ((∀ k < flags.length, AtLeast (flags.getD k false) (u.getD k ⊥) (v.getD k ⊥)) ∧
    ∃ k < flags.length, Better (flags.getD k false) (u.getD k ⊥) (v.getD k ⊥)))

example : Dominates [false, true] [(1 : Int), (5 : Int)] [(2 : Int), (5 : Int)] := by decide

theorem AtLeast.trans {up : Bool} {a b c : WithBot (WithTop Int)} (h1 : AtLeast up a b)
    (h2 : AtLeast up b c) : AtLeast up a c := by
  cases up <;> simp only [AtLeast, Bool.false_eq_true, if_true, if_false] at *
  · exact le_trans h1 h2
  · exact le_trans h2 h1

theorem Better.trans_atLeast {up : Bool} {a b c : WithBot (WithTop Int)} (h1 : Better up a b)
    (h2 : AtLeast up b c) : Better up a c := by
  cases up <;> simp only [AtLeast, Better, Bool.false_eq_true, if_true, if_false] at *
  · exact lt_of_lt_of_le h1 h2
  · exact lt_of_le_of_lt h2 h1

theorem not_better_self (up : Bool) (a : WithBot (WithTop Int)) : ¬ Better up a a := by
  cases up <;> simp [Better]

theorem AtLeast.refl (up : Bool) (a : WithBot (WithTop Int)) : AtLeast up a a := by
  cases up <;> simp [AtLeast]

theorem AtLeast.antisymm {up : Bool} {a b : WithBot (WithTop Int)} (h1 : AtLeast up a b)
    (h2 : AtLeast up b a) : a = b := by
  cases up <;> simp only [AtLeast, Bool.false_eq_true, if_true, if_false] at *
  · exact le_antisymm h1 h2
  · exact le_antisymm h2 h1

theorem Better.atLeast {up : Bool} {a b : WithBot (WithTop Int)} (h : Better up a b) : AtLeast up a b := by
  cases up <;> simp only [AtLeast, Better, Bool.false_eq_true, if_true, if_false] at *
  · exact le_of_lt h
  · exact le_of_lt h

/-- Exact values are linearly ordered: what is not better is at most as good. -/
theorem atLeast_of_not_better {up : Bool} {a b : WithBot (WithTop Int)} (h : ¬ Better up a b) :
    AtLeast up b a := by
  cases up <;> simp only [AtLeast, Better, Bool.false_eq_true, if_true, if_false] at *
  · exact not_lt.1 h
  · exact not_lt.1 h

theorem Dominates.irrefl (flags : List Bool) (u : List (WithBot (WithTop Int))) :
    ¬ Dominates flags u u := by
  rintro ⟨-, k, -, hk⟩
  exact not_better_self _ _ hk

theorem Dominates.trans {flags : List Bool} {u v w : List (WithBot (WithTop Int))}
    (h1 : Dominates flags u v) (h2 : Dominates flags v w) : Dominates flags u w := by
  obtain ⟨h1a, k, hk, h1b⟩ := h1
  obtain ⟨h2a, -⟩ := h2
  exact ⟨fun j hj => (h1a j hj).trans (h2a j hj), k, hk, h1b.trans_atLeast (h2a k hk)⟩

/-- The comparison made for one objective: at least as good, read by its
flag. -/
theorem holds_atLeast (up : Bool) (a b : WithBot (WithTop Int)) :
    (if up then Relation.ge else .le).holds (compare a b) = decide (AtLeast up a b) := by
  cases up <;> simp [AtLeast]

theorem holds_better (up : Bool) (a b : WithBot (WithTop Int)) :
    (if up then Relation.gt else .lt).holds (compare a b) = decide (Better up a b) := by
  cases up <;> simp [Better]

end Pareto

section Lists

variable {α β γ ε : Type}

/-- A traversal in which every step answers gives the list of the answers. -/
theorem mapM_map_eq_ok {f : β → Except ε γ} (key : α → β) (g : α → γ) (xs : List α)
    (h : ∀ x ∈ xs, f (key x) = .ok (g x)) : (xs.map key).mapM f = .ok (xs.map g) := by
  induction xs with
  | nil => rfl
  | cons x xs ih =>
    simp only [List.map_cons, List.mapM_cons, h x List.mem_cons_self, except_ok_bind,
      ih fun y hy => h y (List.mem_cons_of_mem x hy), except_pure]

/-- The members of three lists zipped are their items at one index. -/
theorem mem_zip3 {a : List α} {b : List β} {c : List γ} (hb : b.length = a.length)
    (hc : c.length = a.length) (da : α) (db : β) (dc : γ) {t : (α × β) × γ} :
    t ∈ (a.zip b).zip c ↔ ∃ k < a.length, t = ((a.getD k da, b.getD k db), c.getD k dc) := by
  simp only [List.mem_iff_getElem, List.getElem_zip, List.length_zip, hb, hc, Nat.min_self]
  constructor
  · rintro ⟨k, hk, rfl⟩
    exact ⟨k, hk, by simp [List.getD_eq_getElem?_getD, hk, hb, hc]⟩
  · rintro ⟨k, hk, rfl⟩
    exact ⟨k, hk, by simp [List.getD_eq_getElem?_getD, hk, hb, hc]⟩

theorem forall_mem_zip3 {a : List α} {b : List β} {c : List γ} (hb : b.length = a.length)
    (hc : c.length = a.length) (da : α) (db : β) (dc : γ) {P : (α × β) × γ → Prop} :
    (∀ t ∈ (a.zip b).zip c, P t) ↔ ∀ k < a.length, P ((a.getD k da, b.getD k db), c.getD k dc) := by
  simp only [mem_zip3 hb hc da db dc]
  constructor
  · exact fun h k hk => h _ ⟨k, hk, rfl⟩
  · rintro h t ⟨k, hk, rfl⟩
    exact h k hk

theorem exists_mem_zip3 {a : List α} {b : List β} {c : List γ} (hb : b.length = a.length)
    (hc : c.length = a.length) (da : α) (db : β) (dc : γ) {P : (α × β) × γ → Prop} :
    (∃ t ∈ (a.zip b).zip c, P t) ↔ ∃ k < a.length, P ((a.getD k da, b.getD k db), c.getD k dc) := by
  simp only [mem_zip3 hb hc da db dc]
  constructor
  · rintro ⟨t, ⟨k, hk, rfl⟩, ht⟩
    exact ⟨k, hk, ht⟩
  · rintro ⟨k, hk, ht⟩
    exact ⟨_, ⟨k, hk, rfl⟩, ht⟩

end Lists

theorem Value.getD_map_exact (xs : List Value) (k : Nat) :
    (xs.map Value.exact).getD k ⊥ = (xs.getD k .none).exact := by
  rw [List.getD_eq_getElem?_getD, List.getElem?_map, List.getD_eq_getElem?_getD]
  cases xs[k]? <;> rfl

namespace Pareto

theorem zip3_map_bool (flags : List Bool) (xs ys : List Value) :
    ((flags.map Value.bool).zip xs).zip ys =
      ((flags.zip xs).zip ys).map fun t => ((Value.bool t.1.1, t.1.2), t.2) := by
  rw [List.zip_map_left, List.zip_map_left]
  rfl

theorem dominatesScores_eq {flags : List Bool} {xs ys : List Value}
    (hx : xs.length = flags.length) (hy : ys.length = flags.length)
    (hxs : ∀ x ∈ xs, x.exactValue?.isSome) (hys : ∀ y ∈ ys, y.exactValue?.isSome) :
    Fitness.dominatesScores (flags.map .bool) xs ys =
      .ok (decide (Dominates flags (xs.map Value.exact) (ys.map Value.exact))) := by
  have hcmp : ∀ (r₁ r₂ : Relation), ∀ t ∈ (flags.zip xs).zip ys,
      Value.compare (if t.1.1 then r₁ else r₂) t.1.2 t.2 =
        .ok ((if t.1.1 then r₁ else r₂).holds (compare t.1.2.exact t.2.exact)) := by
    rintro r₁ r₂ ⟨⟨b, x⟩, y⟩ ht
    have hxy := List.of_mem_zip ht
    exact Value.compare_eq_holds _ (Value.exactValue?_eq_exact (hxs x (List.of_mem_zip hxy.1).2))
      (Value.exactValue?_eq_exact (hys y hxy.2))
  simp only [Fitness.dominatesScores, zip3_map_bool]
  rw [mapM_map_eq_ok _ _ _ fun t ht => hcmp .ge .le t ht]
  rw [mapM_map_eq_ok _ _ _ fun t ht => hcmp .gt .lt t ht]
  have hall : (((flags.zip xs).zip ys).all fun t => decide (AtLeast t.1.1 t.1.2.exact t.2.exact)) =
      decide (∀ k < flags.length, AtLeast (flags.getD k false) ((xs.map Value.exact).getD k ⊥)
        ((ys.map Value.exact).getD k ⊥)) := by
    rw [Bool.eq_iff_iff]
    simp only [List.all_eq_true, decide_eq_true_eq, forall_mem_zip3 hx hy false .none .none,
      Value.getD_map_exact]
  have hany : (((flags.zip xs).zip ys).any fun t => decide (Better t.1.1 t.1.2.exact t.2.exact)) =
      decide (∃ k < flags.length, Better (flags.getD k false) ((xs.map Value.exact).getD k ⊥)
        ((ys.map Value.exact).getD k ⊥)) := by
    rw [Bool.eq_iff_iff]
    simp only [List.any_eq_true, decide_eq_true_eq, exists_mem_zip3 hx hy false .none .none,
      Value.getD_map_exact]
  simp only [holds_atLeast, holds_better, except_ok_bind, List.all_map, List.any_map, Function.comp_def,
    id, hall, hany]
  by_cases h : ∀ k < flags.length, AtLeast (flags.getD k false) ((xs.map Value.exact).getD k ⊥)
      ((ys.map Value.exact).getD k ⊥)
  · rw [decide_eq_true h]
    simp only [Bool.not_true, Bool.false_eq_true, if_false, except_pure, Dominates, and_iff_right h]
  · rw [decide_eq_false h]
    simp only [Bool.not_false, if_true, except_pure, Dominates, h, false_and, decide_false]

end Pareto

/-! ### Scored fitnesses -/

/-- A ranked fitness that non-dominated sorting can rank: evaluated, its
score a sequence `xs` of one score per flag and its flags the sequence
`flags`. -/
structure Fitness.Scored (flags : List Bool) (f : Fitness) (xs : List Value) : Prop where
  ranked : f.measure = .ranked
  evaluated : f.evaluated = true
  items_score : Fitness.items f.score = .ok xs
  items_flags : Fitness.items f.higherIsBetter = .ok (flags.map .bool)
  length : xs.length = flags.length
  scores : ∀ x ∈ xs, x.IsScore

/-- A ranked fitness whose objectives are the numbers `xs`: evaluated, its
score a sequence of one number other than NaN per flag, and its flags the
sequence `flags`.  Unlike `Fitness.Scored`, whole numbers of any size are
allowed. -/
structure Fitness.Objectives (flags : List Bool) (f : Fitness) (xs : List Value) : Prop where
  ranked : f.measure = .ranked
  evaluated : f.evaluated = true
  items_score : Fitness.items f.score = .ok xs
  items_flags : Fitness.items f.higherIsBetter = .ok (flags.map .bool)
  length : xs.length = flags.length
  numbers : ∀ x ∈ xs, x.exactValue?.isSome

theorem Fitness.Scored.objectives {flags : List Bool} {f : Fitness} {xs : List Value} (hf : f.Scored flags xs) :
    f.Objectives flags xs :=
  ⟨hf.ranked, hf.evaluated, hf.items_score, hf.items_flags, hf.length, fun x hx => (hf.scores x hx).1⟩

theorem Fitness.size?_of_items {v : Value} {xs : List Value} (h : Fitness.items v = .ok xs) :
    v.size? = .ok xs.length := by
  cases v <;> simp only [Fitness.items, reduceCtorEq, Except.ok.injEq] at h <;> subst h <;> rfl

namespace Fitness.Objectives

variable {flags : List Bool} {f g : Fitness} {xs ys : List Value}

theorem pure_eq (hf : f.Objectives flags xs) : f.pure = .ok f.score := by
  simp [Fitness.pure, hf.evaluated]

theorem augmented_eq (hf : f.Objectives flags xs) (size : Nat) : f.augmented size = .ok f.score := by
  simp only [Fitness.augmented, hf.pure_eq, except_ok_bind, hf.ranked]
  rfl

theorem checkRanked_eq (hf : f.Objectives flags xs) (hg : g.Objectives flags ys) (m n : Nat) :
    f.checkRanked m g n = .ok () := by
  simp only [Fitness.checkRanked, Measure.isScalar, hg.ranked, Fitness.isEvaluated, hf.evaluated,
    hg.evaluated, Bool.or_true, Bool.not_true, Bool.or_false, hf.augmented_eq, hg.augmented_eq,
    except_ok_bind, Fitness.size?_of_items hf.items_score, Fitness.size?_of_items hg.items_score,
    hf.length, hg.length, bne_self_eq_false]
  rfl

/-- **Dominance of fitnesses whose objectives are numbers is the Pareto order
of their exact scores.** -/
theorem dominates_eq (hf : f.Objectives flags xs) (hg : g.Objectives flags ys) (m n : Nat) :
    f.dominates m g n = .ok (decide (Pareto.Dominates flags (xs.map Value.exact) (ys.map Value.exact))) := by
  simp only [Fitness.dominates, hf.checkRanked_eq hg, hf.augmented_eq, hg.augmented_eq, except_ok_bind,
    hf.items_score, hg.items_score, hf.items_flags]
  exact Pareto.dominatesScores_eq hf.length hg.length hf.numbers hg.numbers

end Fitness.Objectives

end Evolver
