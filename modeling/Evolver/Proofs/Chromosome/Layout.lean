import Evolver.Proofs.Chromosome.Bounds
import Evolver.Proofs.Pareto.Comparison
/-!
# The bounds check and the layout of the bounds

A vector's constructor admits its bounds in two layouts
(`Chromosome.PairedBounds`): one pair `(lo, hi)` for every gene, or a list
with a pair per gene.  The uniform draws of integer and float genes tell the
two apart by the class of the bounds, and take the pair of a position
accordingly (`boundsAt_of_paired`).  The bounds check tells them apart by the
number of items instead: bounds of two items are the pair of every gene.

| layout | a draw for gene `j` uses | the check for gene `j` uses |
| --- | --- | --- |
| `(lo, hi)` | `(lo, hi)` | `(lo, hi)` |
| `[p₀, …, pₙ₋₁]`, `n ≠ 2` | `pⱼ` | `pⱼ` |
| `[p₀, p₁]` | `pⱼ` | `[p₀, p₁]`, as if it were one pair |

On plain numbers the check then answers, and answers `true` exactly when
every gene lies between the bounds of its position (`Chromosome.Within`),
where a NaN, in no order, is never out of bounds.  On the third layout it
compares the first gene with the pair `p₀` and fails with a type error.
`inBounds_within_unless_two_pairs` gathers the three facts.
-/

namespace Evolver

open Numeric

namespace Value

/-- A plain number: a boolean, an integer or a double, NaN included. -/
def IsPlainNumber (v : Value) : Prop := (∃ b, v = .bool b) ∨ (∃ n, v = .int n) ∨ ∃ x, v = .float x

/-- A plain number has an exact value unless it is a NaN double. -/
theorem IsPlainNumber.exact_or_nan {v : Value} (h : v.IsPlainNumber) :
    (∃ u, v.exactValue? = some u) ∨ ∃ x, v = .float x ∧ x.isNaN = true := by
  rcases h with ⟨b, rfl⟩ | ⟨n, rfl⟩ | ⟨x, rfl⟩
  · exact .inl ⟨_, rfl⟩
  · exact .inl ⟨_, rfl⟩
  · exact IsCrowding.exact_or_nan (.inr ⟨x, rfl⟩)

/-- A NaN is in no order: every comparison of it with a plain number, on
either side, answers `false`. -/
theorem compare_nan_left (r : Relation) {x : Float} (hx : x.isNaN = true) {b : Value}
    (hb : b.IsPlainNumber) : Value.compare r (.float x) b = .ok false := by
  rcases hb with ⟨c, rfl⟩ | ⟨n, rfl⟩ | ⟨y, rfl⟩ <;>
    simp only [Value.compare, testCell, toCell?, except_pure, plainCompare, Bool.or_eq_true, Cell.toInt?,
      cmpIntFloat, except_ok_bind, hx, true_or, ↓reduceIte, Option.map_none, Option.getD_none]

theorem compare_nan_right (r : Relation) {a : Value} (ha : a.IsPlainNumber) {y : Float}
    (hy : y.isNaN = true) : Value.compare r a (.float y) = .ok false := by
  rcases ha with ⟨c, rfl⟩ | ⟨n, rfl⟩ | ⟨x, rfl⟩ <;>
    simp only [Value.compare, testCell, toCell?, except_pure, plainCompare, Bool.or_eq_true, Cell.toInt?,
      cmpIntFloat, except_ok_bind, hy, or_true, ↓reduceIte, Option.map_none, Option.getD_none]

/-- **Plain numbers compare by their exact values** under `>`, and a NaN is
above nothing and below nothing. -/
theorem compare_gt_plain {a b : Value} (ha : a.IsPlainNumber) (hb : b.IsPlainNumber) :
    Value.compare .gt a b = .ok (a.exceeds b) := by
  rcases ha.exact_or_nan with ⟨u, hu⟩ | ⟨x, rfl, hx⟩
  · rcases hb.exact_or_nan with ⟨v, hv⟩ | ⟨y, rfl, hy⟩
    · rw [compare_eq_holds .gt hu hv, Relation.holds_gt_compare]
      simp [exceeds, hu, hv]
    · rw [compare_nan_right .gt ha hy]
      simp [exceeds, exactValue?_float_of_isNaN hy]
  · rw [compare_nan_left .gt hx hb]
    simp [exceeds, exactValue?_float_of_isNaN hx]

/-- `a < b` holds of plain numbers exactly when `b` exceeds `a`. -/
theorem compare_lt_plain {a b : Value} (ha : a.IsPlainNumber) (hb : b.IsPlainNumber) :
    Value.compare .lt a b = .ok (b.exceeds a) := by
  rcases ha.exact_or_nan with ⟨u, hu⟩ | ⟨x, rfl, hx⟩
  · rcases hb.exact_or_nan with ⟨v, hv⟩ | ⟨y, rfl, hy⟩
    · rw [compare_eq_holds .lt hu hv, Relation.holds_lt_compare]
      simp [exceeds, hu, hv]
    · rw [compare_nan_right .lt ha hy]
      simp [exceeds, exactValue?_float_of_isNaN hy]
  · rw [compare_nan_left .lt hx hb]
    simp [exceeds, exactValue?_float_of_isNaN hx]

/-- `a` does not exceed `b` exactly when it is at most `b` wherever both
have exact values. -/
theorem exceeds_eq_false_iff {a b : Value} :
    a.exceeds b = false ↔ ∀ u v, a.exactValue? = some u → b.exactValue? = some v → u ≤ v := by
  unfold exceeds
  cases a.exactValue? <;> cases b.exactValue? <;> simp

/-- A number cannot be ordered against a tuple: the comparison fails, naming
both classes. -/
theorem compare_tuple_right (r : Relation) {g : Value} (hg : g.IsPlainNumber) (xs : List Value) :
    Value.compare r g (.tuple xs) = .error (unordered r g (.tuple xs)) := by
  rcases hg with ⟨b, rfl⟩ | ⟨n, rfl⟩ | ⟨x, rfl⟩ <;> rfl

end Value

namespace Chromosome

/-- Bounds as a vector's constructor admits them for the genes it holds: one
pair for every gene, or a list with a pair per gene. -/
def PairedBounds (c : Chromosome) : Prop :=
  (∃ lo hi, c.bounds = .tuple [lo, hi]) ∨
    ∃ ps : List Value, c.bounds = .list ps ∧ ps.length = c.genes.length ∧ ∀ p ∈ ps, ∃ lo hi, p = .tuple [lo, hi]

/-- The genes and the bounds of every position are plain numbers, NaN
included. -/
def NumericCells (c : Chromosome) : Prop :=
  (∀ g ∈ c.genes, g.IsPlainNumber) ∧
    ∀ j lo hi, boundsPair c.bounds j = some (lo, hi) → lo.IsPlainNumber ∧ hi.IsPlainNumber

/-- Every gene lies between the bounds of its position, `lo ≤ g ≤ hi`,
wherever the gene and the bound are numbers other than NaN. -/
def Within (c : Chromosome) : Prop :=
  ∀ j g, c.genes[j]? = some g → ∃ lo hi, boundsPair c.bounds j = some (lo, hi) ∧
    ∀ u, g.exactValue? = some u → (∀ a, lo.exactValue? = some a → a ≤ u) ∧ (∀ b, hi.exactValue? = some b → u ≤ b)

/-- Every position of a paired layout has a pair. -/
theorem PairedBounds.pair {c : Chromosome} (hB : c.PairedBounds) {j : Nat} (hj : j < c.genes.length) :
    ∃ lo hi, boundsPair c.bounds j = some (lo, hi) := by
  rcases hB with ⟨lo, hi, hb⟩ | ⟨ps, hb, hlen, hps⟩
  · exact ⟨lo, hi, by rw [hb]; rfl⟩
  · obtain ⟨lo, hi, hp⟩ := hps ps[j] (List.getElem_mem (hlen ▸ hj))
    refine ⟨lo, hi, ?_⟩
    rw [hb, boundsPair, List.getElem?_eq_getElem (hlen ▸ hj), hp]

/-- Item `j` of a list of bounds is its pair number `j`. -/
theorem item_of_boundsPair {ps : List Value} {j : Nat} {lo hi : Value}
    (h : boundsPair (.list ps) j = some (lo, hi)) : (Value.list ps).item j = .ok (.tuple [lo, hi]) := by
  simp only [boundsPair] at h
  split at h
  · rename_i lo' hi' hj
    cases h
    obtain ⟨hjlt, hjth⟩ := List.getElem?_eq_some_iff.1 hj
    rw [Value.item_of_items rfl hjlt, hjth]
  · cases h

/-- **Against a pair of plain numbers**, a plain number passes exactly when
it is neither below the first nor above the second. -/
theorem withinPair_plain {lo hi g : Value} (hlo : lo.IsPlainNumber) (hhi : hi.IsPlainNumber)
    (hg : g.IsPlainNumber) : withinPair (.tuple [lo, hi]) g = .ok (!lo.exceeds g && !g.exceeds hi) := by
  have h0 : (Value.tuple [lo, hi]).item 0 = .ok lo := rfl
  have h1 : (Value.tuple [lo, hi]).item 1 = .ok hi := rfl
  cases hbelow : lo.exceeds g with
  | true => simp [withinPair, h0, Value.compare_lt_plain hg hlo, hbelow]
  | false => simp [withinPair, h0, h1, Value.compare_lt_plain hg hlo, Value.compare_gt_plain hg hhi, hbelow]

/-- On every layout but a list of two, the check of gene `j` is the check
against the pair of position `j`. -/
theorem geneWithin_of_boundsPair {bounds g lo hi : Value} {j : Nat}
    (h2 : ∀ p₀ p₁, bounds ≠ .list [p₀, p₁]) (hp : boundsPair bounds j = some (lo, hi)) :
    geneWithin bounds g j = withinPair (.tuple [lo, hi]) g := by
  unfold geneWithin
  match bounds, hp with
  | .tuple [lo', hi'], hp =>
    cases hp
    rfl
  | .list ps, hp =>
    have hitem := item_of_boundsPair hp
    have hsize : ps.length ≠ 2 := fun h => by
      match ps, h with
      | [p₀, p₁], _ => exact h2 p₀ p₁ rfl
    simp only [Value.size?, hsize, hitem, bind, Except.bind, pure, Except.pure, if_false]

/-- On a list of two pairs, the check of any gene compares it with the first
pair, and fails. -/
theorem geneWithin_two_pairs {p₀ p₁ g : Value} {xs : List Value} (hp : p₀ = .tuple xs)
    (hg : g.IsPlainNumber) (j : Nat) :
    geneWithin (.list [p₀, p₁]) g j = .error (Value.unordered .lt g p₀) := by
  subst hp
  have h0 : (Value.list [.tuple xs, p₁]).item 0 = .ok (.tuple xs) := rfl
  simp only [geneWithin, Value.size?, withinPair, h0, Value.compare_tuple_right .lt hg, bind, Except.bind,
    pure, Except.pure, if_true, List.length_cons, List.length_nil]

/-- A check that answers for every item answers for a list, `true` exactly
when it answers `true` for every item. -/
theorem allM_answers {α : Type} {p : α → Except Fault Bool} :
    ∀ l : List α, (∀ x ∈ l, ∃ b, p x = .ok b) → ∃ b, l.allM p = .ok b
  | [], _ => ⟨true, rfl⟩
  | x :: l, h => by
    obtain ⟨b, hb⟩ := h x List.mem_cons_self
    rw [List.allM_cons, hb]
    cases b with
    | false => exact ⟨false, rfl⟩
    | true => exact allM_answers l fun y hy => h y (List.mem_cons_of_mem x hy)

/-- What the check makes of gene `j`, read in the order of exact values. -/
theorem withinPair_plain_iff {lo hi g : Value} (hlo : lo.IsPlainNumber) (hhi : hi.IsPlainNumber)
    (hg : g.IsPlainNumber) :
    withinPair (.tuple [lo, hi]) g = .ok true ↔
      ∀ u, g.exactValue? = some u → (∀ a, lo.exactValue? = some a → a ≤ u) ∧
        (∀ b, hi.exactValue? = some b → u ≤ b) := by
  rw [withinPair_plain hlo hhi hg, Except.ok.injEq, Bool.and_eq_true, Bool.not_eq_true',
    Bool.not_eq_true', Value.exceeds_eq_false_iff, Value.exceeds_eq_false_iff]
  constructor
  · rintro ⟨hbelow, habove⟩ u hu
    exact ⟨fun a ha => hbelow a u ha hu, fun b hb => habove u b hu hb⟩
  · intro h
    exact ⟨fun a u ha hu => (h u hu).1 a ha, fun u b hu hb => (h u hu).2 b hb⟩

/-- The pair a uniform draw takes for gene `j` of an integer or float
vector: the tuple itself, or item `j` of a list. -/
theorem boundsAt_of_paired {c : Chromosome} (ha : c.alphabet ≠ .bits) {j : Nat} {lo hi : Value}
    (hp : boundsPair c.bounds j = some (lo, hi)) : c.boundsAt j = .ok (lo, hi) := by
  obtain ⟨alphabet, genes, bounds, length⟩ := c
  have hk : alphabet = .ints ∨ alphabet = .floats := by cases alphabet <;> simp_all
  dsimp only at hp
  match bounds, hp with
  | .tuple [lo', hi'], hp =>
    cases hp
    rcases hk with rfl | rfl <;> rfl
  | .list ps, hp =>
    have hitem := item_of_boundsPair hp
    rcases hk with rfl | rfl <;> simp [boundsAt, hitem] <;> rfl

/-- **The bounds check answers whether every gene lies within its bounds,
unless the bounds are a list of two pairs.**  Take a vector whose bounds are
laid out as its constructor admits and whose genes and bounds are plain
numbers.  Integer and float draws take for gene `j` the pair of position `j`
in every layout.  Unless the bounds are a list of two pairs, the check
answers, and answers `true` exactly when every gene lies between the pair of
its position, wherever gene and bound are not NaN.  On a list of two pairs it
takes the list for one pair, and comparing the first gene with the first pair
fails. -/
theorem inBounds_within_unless_two_pairs {c : Chromosome} (hB : c.PairedBounds) (hN : c.NumericCells) :
    (c.alphabet ≠ .bits → ∀ j < c.genes.length,
      ∃ lo hi, boundsPair c.bounds j = some (lo, hi) ∧ c.boundsAt j = .ok (lo, hi)) ∧
    ((∀ p₀ p₁, c.bounds ≠ .list [p₀, p₁]) → ∃ b, c.inBounds = .ok b ∧ (b = true ↔ c.Within)) ∧
    (∀ p₀ p₁ g gs, c.bounds = .list [p₀, p₁] → c.genes = g :: gs →
      c.inBounds = .error (Value.unordered .lt g p₀)) := by
  refine ⟨fun ha j hj => ?_, fun h2 => ?_, fun p₀ p₁ g gs hb hg => ?_⟩
  · obtain ⟨lo, hi, hp⟩ := hB.pair hj
    exact ⟨lo, hi, hp, boundsAt_of_paired ha hp⟩
  · -- the check of each gene is the check against the pair of its position
    have hgene : ∀ j g, c.genes[j]? = some g → ∃ lo hi, boundsPair c.bounds j = some (lo, hi) ∧
        geneWithin c.bounds g j = withinPair (.tuple [lo, hi]) g ∧
        lo.IsPlainNumber ∧ hi.IsPlainNumber ∧ g.IsPlainNumber := by
      intro j g hg
      obtain ⟨hj, rfl⟩ := List.getElem?_eq_some_iff.1 hg
      obtain ⟨lo, hi, hp⟩ := hB.pair hj
      obtain ⟨hlo, hhi⟩ := hN.2 j lo hi hp
      exact ⟨lo, hi, hp, geneWithin_of_boundsPair h2 hp, hlo, hhi, hN.1 _ (List.getElem_mem hj)⟩
    obtain ⟨b, hb⟩ := allM_answers c.genes.zipIdx fun x hx => by
      obtain ⟨lo, hi, -, heq, hlo, hhi, hg⟩ := hgene x.2 x.1 (List.mem_zipIdx_iff_getElem?.1 hx)
      exact ⟨_, heq.trans (withinPair_plain hlo hhi hg)⟩
    refine ⟨b, hb, ?_⟩
    have hcheck : b = true ↔ c.inBounds = .ok true := by
      rw [inBounds, hb]
      cases b <;> simp
    rw [hcheck, inBounds_eq_ok_true]
    constructor
    · intro h j g hg
      obtain ⟨lo, hi, hp, heq, hlo, hhi, hgn⟩ := hgene j g hg
      exact ⟨lo, hi, hp, (withinPair_plain_iff hlo hhi hgn).1 (heq ▸ h j g hg)⟩
    · intro h j g hg
      obtain ⟨lo, hi, hp, heq, hlo, hhi, hgn⟩ := hgene j g hg
      obtain ⟨lo', hi', hp', hw⟩ := h j g hg
      obtain ⟨rfl, rfl⟩ : lo' = lo ∧ hi' = hi := by simpa [hp] using hp'.symm
      exact heq.trans ((withinPair_plain_iff hlo hhi hgn).2 hw)
  · -- a list of two pairs: the first gene meets the first pair
    obtain ⟨xs, hxs⟩ : ∃ xs, p₀ = .tuple xs := by
      rcases hB with ⟨lo, hi, hb'⟩ | ⟨ps, hb', -, hps⟩
      · rw [hb] at hb'
        cases hb'
      · rw [hb] at hb'
        cases hb'
        obtain ⟨lo, hi, hp⟩ := hps p₀ List.mem_cons_self
        exact ⟨_, hp⟩
    have hgn : g.IsPlainNumber := hN.1 g (hg ▸ List.mem_cons_self)
    rw [inBounds, hg, hb, List.zipIdx_cons, List.allM_cons]
    dsimp only
    rw [geneWithin_two_pairs hxs hgn]
    rfl

/-- A float vector of two genes given a pair of bounds per gene. -/
def twoPairs : Chromosome :=
  ⟨.floats, [.float 0.5, .float 0.5], .list [.tuple [.float 0.0, .float 1.0], .tuple [.float 0.0, .float 1.0]], 2⟩

/-- Both genes of `twoPairs` lie within their bounds, yet its check fails,
comparing `0.5` with the pair `(0.0, 1.0)`. -/
theorem inBounds_within_unless_two_pairs_twoPairs :
    twoPairs.PairedBounds ∧ twoPairs.NumericCells ∧ twoPairs.Within ∧
      twoPairs.inBounds = .error (Value.unordered .lt (.float 0.5) (.tuple [.float 0.0, .float 1.0])) := by
  have hplain : ∀ x : Float, (Value.float x).IsPlainNumber := fun x => .inr (.inr ⟨x, rfl⟩)
  have hB : twoPairs.PairedBounds := .inr ⟨_, rfl, rfl, by simp⟩
  -- both positions have the pair `(0.0, 1.0)`
  have hpair : ∀ j lo hi, boundsPair twoPairs.bounds j = some (lo, hi) →
      lo = .float 0.0 ∧ hi = .float 1.0 := by
    intro j lo hi h
    rcases j with _ | _ | j <;> simp [twoPairs, boundsPair] at h <;> exact ⟨h.1.symm, h.2.symm⟩
  have hN : twoPairs.NumericCells := by
    refine ⟨by simp [twoPairs, Value.IsPlainNumber], fun j lo hi h => ?_⟩
    obtain ⟨rfl, rfl⟩ := hpair j lo hi h
    exact ⟨hplain _, hplain _⟩
  -- `0.5` passes against the pair `(0.0, 1.0)` on its own
  have hhalf := (withinPair_plain_iff (hplain 0.0) (hplain 1.0) (hplain 0.5)).1 rfl
  have hW : twoPairs.Within := by
    intro j g hg
    have hj : j < 2 := (List.getElem?_eq_some_iff.1 hg).1
    have hg' : g = .float 0.5 := by
      rcases j with _ | _ | j
      · simpa [twoPairs] using hg.symm
      · simpa [twoPairs] using hg.symm
      · omega
    subst hg'
    obtain ⟨lo, hi, hp⟩ := hB.pair hj
    obtain ⟨rfl, rfl⟩ := hpair j lo hi hp
    exact ⟨_, _, hp, hhalf⟩
  exact ⟨hB, hN, hW, (inBounds_within_unless_two_pairs hB hN).2.2 _ _ _ _ rfl rfl⟩

end Chromosome

end Evolver
