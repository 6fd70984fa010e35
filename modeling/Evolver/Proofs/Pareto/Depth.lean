import Mathlib
/-!
# The depth of an element under a strict order

Non-dominated sorting ranks an individual by how deep it lies under the
dominance order: depth one when nothing dominates it, else one more than the
deepest of those that dominate it.  `depth dom S x` computes this for the
members of a list `S` and a relation `dom`, by a recursion bounded by the
length of `S`, which is deep enough when `dom` is a strict order on `S`
(`StrictOn`):

* `depth_eq`: the depth is one more than the largest depth of a dominator;
* `depth_lt_of_dom`: a dominator lies strictly higher;
* `exists_dom_of_one_lt`: below the first level, some dominator lies exactly
  one level higher;
* `exists_depth_eq`: every level between the first and a member's is taken;
* `depth_perm`: the depth does not depend on the order of `S`.

The recursion is made to stop by counting dominators: under a strict order a
dominator of `x` has fewer dominators than `x` has (`countDom_lt`).
-/

namespace Evolver
namespace Pareto

variable {α : Type} (dom : α → α → Bool) (S : List α)

/-- The depth of `x` below the members of `S` that dominate it, looking at
most `n` levels up. -/
def depthAux : Nat → α → Nat
  | 0, _ => 1
  | n + 1, x => 1 + ((S.filter (dom · x)).map (depthAux n)).foldr max 0

/-- The depth of `x` under `dom` among `S`: one when no member dominates it,
else one more than the largest depth of a member that dominates it. -/
def depth (x : α) : Nat := depthAux dom S S.length x

/-- `dom` is a strict order on the members of `S`. -/
structure StrictOn : Prop where
  irrefl : ∀ a ∈ S, dom a a = false
  trans : ∀ a ∈ S, ∀ b ∈ S, ∀ c ∈ S, dom a b = true → dom b c = true → dom a c = true

/-- The number of members of `S` dominating `x`. -/
def countDom (x : α) : Nat := (S.filter (dom · x)).length

variable {dom S}

theorem le_foldr_max {l : List α} {f : α → Nat} {y : α} (hy : y ∈ l) : f y ≤ (l.map f).foldr max 0 :=
  List.le_max_of_le' 0 (List.mem_map_of_mem hy) le_rfl

theorem exists_foldr_max {l : List α} {f : α → Nat} (h : 0 < (l.map f).foldr max 0) :
    ∃ y ∈ l, f y = (l.map f).foldr max 0 := by
  induction l with
  | nil => simp at h
  | cons y l ih =>
    rw [List.map_cons, List.foldr_cons] at h ⊢
    rcases le_total (f y) ((l.map f).foldr max 0) with hle | hle
    · rw [max_eq_right hle] at h ⊢
      obtain ⟨z, hz, hfz⟩ := ih h
      exact ⟨z, List.mem_cons_of_mem y hz, hfz⟩
    · exact ⟨y, List.mem_cons_self, (max_eq_left hle).symm⟩

section Strict

variable (hS : StrictOn dom S)
include hS

/-- A dominator of `x` has fewer dominators than `x`: its own are all
dominators of `x`, and it is not one of them. -/
theorem countDom_lt {x y : α} (hx : x ∈ S) (hy : y ∈ S) (hyx : dom y x = true) :
    countDom dom S y < countDom dom S x := by
  have hsub : S.filter (dom · y) = (S.filter (dom · x)).filter (dom · y) := by
    rw [List.filter_filter]
    refine List.filter_congr fun z hz => ?_
    cases hzy : dom z y
    · rfl
    · simp [hS.trans z hz y hy x hx hzy hyx]
  rw [countDom, countDom, hsub, List.length_filter_lt_length_iff_exists]
  exact ⟨y, List.mem_filter.2 ⟨hy, hyx⟩, by simp [hS.irrefl y hy]⟩

theorem countDom_lt_length {x : α} (hx : x ∈ S) : countDom dom S x < S.length := by
  rw [countDom, List.length_filter_lt_length_iff_exists]
  exact ⟨x, hx, by simp [hS.irrefl x hx]⟩

/-- Past the number of dominators, looking further up changes nothing. -/
theorem depthAux_succ : ∀ (n : Nat) {x : α}, x ∈ S → countDom dom S x < n →
    depthAux dom S (n + 1) x = depthAux dom S n x
  | 0, _, _, h => absurd h (Nat.not_lt_zero _)
  | n + 1, x, hx, h => by
    rw [depthAux, depthAux]
    congr 2
    refine List.map_congr_left fun y hy => ?_
    obtain ⟨hyS, hyx⟩ := List.mem_filter.1 hy
    exact depthAux_succ n hyS (by have := countDom_lt hS hx hyS hyx; omega)

/-- **The depth is one more than the largest depth of a dominator.** -/
theorem depth_eq {x : α} (hx : x ∈ S) :
    depth dom S x = 1 + ((S.filter (dom · x)).map (depth dom S)).foldr max 0 := by
  rw [depth, ← depthAux_succ hS S.length hx (countDom_lt_length hS hx), depthAux]
  rfl

theorem depth_lt_of_dom {x y : α} (hx : x ∈ S) (hy : y ∈ S) (hyx : dom y x = true) :
    depth dom S y < depth dom S x := by
  rw [depth_eq hS hx]
  have := le_foldr_max (f := depth dom S) (l := S.filter (dom · x)) (List.mem_filter.2 ⟨hy, hyx⟩)
  omega

theorem exists_dom_of_one_lt {x : α} (hx : x ∈ S) (h : 1 < depth dom S x) :
    ∃ y ∈ S, dom y x = true ∧ depth dom S y + 1 = depth dom S x := by
  rw [depth_eq hS hx] at h ⊢
  obtain ⟨y, hy, hdy⟩ := exists_foldr_max (f := depth dom S) (l := S.filter (dom · x)) (by omega)
  obtain ⟨hyS, hyx⟩ := List.mem_filter.1 hy
  exact ⟨y, hyS, hyx, by omega⟩

/-- Every level from the first to a member's own is the depth of some
member. -/
theorem exists_depth_eq {x : α} (hx : x ∈ S) {j : Nat} (hj : 1 ≤ j) (hjx : j ≤ depth dom S x) :
    ∃ y ∈ S, depth dom S y = j := by
  induction h : depth dom S x - j generalizing x with
  | zero => exact ⟨x, hx, by omega⟩
  | succ n ih =>
    obtain ⟨y, hy, -, hdy⟩ := exists_dom_of_one_lt hS hx (by omega)
    exact ih hy (by omega) (by omega)

end Strict

theorem depth_pos (x : α) : 1 ≤ depth dom S x := by
  rw [depth]
  cases S.length <;> simp [depthAux]

/-- The depth does not depend on the order of the members. -/
theorem depthAux_perm {S' : List α} (hp : S.Perm S') : ∀ (n : Nat) (x : α),
    depthAux dom S n x = depthAux dom S' n x
  | 0, _ => rfl
  | n + 1, x => by
    rw [depthAux, depthAux]
    congr 1
    rw [funext (depthAux_perm hp n)]
    exact ((hp.filter _).map _).foldr_op_eq

theorem depth_perm {S' : List α} (hp : S.Perm S') (x : α) : depth dom S x = depth dom S' x := by
  rw [depth, depth, hp.length_eq, depthAux_perm hp]

end Pareto
end Evolver
