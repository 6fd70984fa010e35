import Evolver.Fault
/-!
# Methods left to subclasses

The library's base classes declare methods that each kind of fitness,
statistic, checker, breeder, creator, operator, evaluator, chromosome and
algorithm supplies for itself.  Called directly, the base class's own body
either does nothing or refuses with a message that names the method; a few
refusals name another method than the one called, as the base class does.
-/

namespace Evolver

/-- A method a base class leaves to its subclasses. -/
inductive Interface where
  | pureFitness
  | betterThan
  | equalTo
  | evaluateIndividual
  | randomInBounds
  | executeAlgorithm
  | generationIteration
  | writeStatistics
  | shouldTerminate
  | applyBreed
  | createIndividuals
  | createTree
  | nodeText
  | attemptOperator
  | applyGenetic
  | selectIndividuals
  | applyOperator

namespace Interface

/-- The refusal of a base body, or nothing when the body does nothing. -/
def refusal : Interface → Option Fault
  | .pureFitness => some (Fault.value "get_pure_fitness is an abstract method in class Fitness")
  | .betterThan | .equalTo => some (Fault.value "better_than is an abstract method in class Fitness")
  | .evaluateIndividual =>
    some (Fault.value "evaluate_individual is an abstract method in SimpleIndividualEvaluator")
  | .randomInBounds =>
    some ⟨.notProvided, "get_random_number is an abstract method in vector individual"⟩
  | .executeAlgorithm => some (Fault.value "execute is an abstract method in class Algorithm")
  | .generationIteration =>
    some (Fault.value "generation_iteration is an abstract method in class Algorithm")
  | _ => none

/-- Call the base body: it refuses, or does nothing. -/
def call (m : Interface) : Except Fault Unit :=
  match m.refusal with
  | some f => throw f
  | none => pure ()

end Interface

end Evolver
