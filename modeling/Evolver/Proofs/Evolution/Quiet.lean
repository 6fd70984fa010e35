import Evolver.Proofs.Store.Preserves
import Evolver.Proofs.Breed.Selection
import Evolver.Evolution.Evolve
/-!
# What the bookkeeping of a run leaves alone

Around breeding and scoring, a generation marks its individuals, seeds the
streams, asks the checkers and publishes its events to listeners that record,
plot and write statistics.  None of that changes the genome or fitness of an
individual, nor the run's algorithm, population, best of the run or way of
scoring: such a computation is *quiet* (`Evolve.Quiet`).

Quietness is the preservation of `World.Calm F w₀`, "sound, and nothing of
`w₀` changed", for every world `w₀`, so it is closed under `bind` and every
loop like any preserved invariant.  A computation over the store is quiet
when it is confined to no identity (`Evolve.quiet_lift`), and the reading
computations of statistics and checkers are confined to none.
-/

namespace Evolver

open Run

variable {F : Fitness → Prop} {T : Nat → Prop}

/-! ### Reading the store -/

namespace Subpopulation

end Subpopulation

namespace Pareto

end Pareto

namespace Checker

end Checker

namespace Statistic

end Statistic

/-! ### Quiet computations over a world -/

/-- Two states of a run with the same algorithm, population, best of the run
and way of scoring. -/
structure Evolution.Alike (r r' : Evolution) : Prop where
  algorithm : r'.algorithm = r.algorithm
  population : r'.population = r.population
  bestOfRun : r'.bestOfRun = r.bestOfRun
  futures : r'.futures = r.futures

theorem Evolution.Alike.refl (r : Evolution) : r.Alike r := ⟨rfl, rfl, rfl, rfl⟩

theorem Evolution.Alike.trans {r r₁ r₂ : Evolution} (h₁ : r.Alike r₁) (h₂ : r₁.Alike r₂) : r.Alike r₂ :=
  ⟨h₂.algorithm.trans h₁.algorithm, h₂.population.trans h₁.population, h₂.bestOfRun.trans h₁.bestOfRun,
    h₂.futures.trans h₁.futures⟩

/-- Seen from `w₀`, the world `w` has a store sound for `F` that spares every
individual of `w₀`, and a run alike to that of `w₀`. -/
def World.Calm (F : Fitness → Prop) (w₀ w : World) : Prop :=
  w.store.Sound F ∧ w₀.store.Spares (fun _ => False) w.store ∧ w₀.run.Alike w.run

theorem World.Calm.trans {w₀ w₁ w₂ : World} (h₁ : World.Calm F w₀ w₁) (h₂ : World.Calm F w₁ w₂) :
    World.Calm F w₀ w₂ :=
  ⟨h₂.1, h₁.2.1.trans h₂.2.1, h₁.2.2.trans h₂.2.2⟩

namespace Evolve

/-- Every answer of `x` changes no individual it found and keeps the run's
algorithm, population, best of the run and way of scoring. -/
def Quiet {α : Type} (F : Fitness → Prop) (x : Evolve α) : Prop := ∀ w₀, Preserves (World.Calm F w₀) x

namespace Quiet

variable {α β γ : Type}

/-- What a quiet computation that answers leaves, seen from where it started. -/
theorem run_ok {x : Evolve α} (hx : Quiet F x) {w w' : World} {a : α} (hs : w.store.Sound F)
    (h : x.run w = .ok a w') : World.Calm F w w' :=
  hx w w a w' ⟨hs, Store.Spares.refl _ _, Evolution.Alike.refl _⟩ h

/-- A quiet first step that answers is peeled off: the rest runs from a
world calm from the start. -/
theorem bind_run_ok {x : Evolve α} {f : α → Evolve β} (hx : Quiet F x) {w w'' : World} {b : β}
    (hs : w.store.Sound F) (h : (x >>= f).run w = .ok b w'') :
    ∃ a w', World.Calm F w w' ∧ (f a).run w' = .ok b w'' := by
  obtain ⟨a, w', hx', hf⟩ := Run.bind_run_ok.1 h
  exact ⟨a, w', hx.run_ok hs hx', hf⟩

theorem pure (a : α) : Quiet F (Pure.pure a : Evolve α) := fun _ => Preserves.pure a

theorem throw (e : Fault) : Quiet F (MonadExcept.throw e : Evolve α) := fun _ => Preserves.throw e

theorem bind {x : Evolve α} {f : α → Evolve β} (hx : Quiet F x) (hf : ∀ a, Quiet F (f a)) :
    Quiet F (x >>= f) := fun w₀ => Preserves.bind (hx w₀) fun a => hf a w₀

theorem forIn {body : γ → β → Evolve (ForInStep β)} (xs : List γ) (h : ∀ a ∈ xs, ∀ b, Quiet F (body a b))
    (b : β) : Quiet F (ForIn.forIn xs b body) :=
  fun w₀ => Preserves.forIn xs (fun a ha b => h a ha b w₀) b

end Quiet

variable {α : Type}

theorem lift_run (x : Run α) (w : World) : (lift x).run w = match x.run w.store with
    | .ok a s => .ok a { w with store := s }
    | .error e s => .error e { w with store := s } := rfl

end Evolve

end Evolver
