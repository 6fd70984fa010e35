import Evolver.Query.Basic
import Evolver.Interface
import Evolver.Evolution.Setup
/-!
# Queries on the methods base classes leave to subclasses

`base_method` calls the base body of a method on a concrete instance and
answers what it returns or how it refuses.  Besides the bodies that do
nothing or refuse, a fitness's augmented score is its pure score, an
operator as such publishes no data, an algorithm as such gives its settings
on `init` and nothing otherwise, and a simple run given no seed takes one
from the clock.
-/

namespace Evolver
namespace Query

/-- The method a target names. -/
def interfaceOf (target : String) : Option Interface :=
  [("Fitness.get_pure_fitness", Interface.pureFitness), ("Fitness.better_than", .betterThan),
   ("Fitness.equal_to", .equalTo),
   ("SimpleIndividualEvaluator.evaluate_individual", .evaluateIndividual),
   ("Vector.get_random_number_in_bounds", .randomInBounds), ("Algorithm.execute", .executeAlgorithm),
   ("Algorithm.generation_iteration", .generationIteration),
   ("Statistics.write_statistics", .writeStatistics),
   ("TerminationChecker.should_terminate", .shouldTerminate), ("Breeder.apply_breed", .applyBreed),
   ("Creator.create_individuals", .createIndividuals), ("GPTreeCreator.create_tree", .createTree),
   ("GrowCreator.create_tree(None)", .createTree), ("TreeNode.__str__", .nodeText),
   ("FailableOperator.attempt_operator", .attemptOperator), ("GeneticOperator.apply", .applyGenetic),
   ("SelectionMethod.select", .selectIndividuals), ("Operator.apply_operator", .applyOperator)].lookup
    target

/-- A simple run with an empty population, its seed and pool as given. -/
def bareRun (seed : Int) (executor : String) : Except Fault Evolution :=
  Evolution.simple .simple (.simple false) (.population ⟨[]⟩) .nothing none 500 seed [] executor

/-- The result of a target that is not a bare method body. -/
def baseResult (target : String) : Except Fault Json := do
  let keys (ks : List String) : Json := .arr (ks.map .str)
  if target == "Fitness.get_augmented_fitness" then
    let f ← Fitness.make .simple (some (.float 2.5)) (.bool false) false false
    pure (← f.augmented 0).toJson
  else if target == "BeforeAfterPublisher.event_name_to_data" then pure (.obj [])
  else if target == "Algorithm.event_name_to_data(init)" then pure (keys Algorithm.settingKeys)
  else if target == "Algorithm.event_name_to_data(other)" then pure (keys [])
  else if target == "SimpleEvolution(no seed)" then
    let r ← bareRun (Evolution.clockSeed 0.0) "thread"
    pure (.arr [.bool true, .bool (0 ≤ r.seed && r.seed < Int.pow 2 32), .bool (r.generationSeed == r.seed)])
  else if target == "SimpleEvolution(process executor)" then
    let r ← bareRun 0 "process"
    pure (.arr [.str r.executor.className, .null])
  else throw (Fault.request s!"unknown target {target}")

/-- `{"op": "base_method", "target"}`. -/
def baseMethodQuery (q : Json) : Except Fault Json := do
  let target ← getStr q "target"
  let result ← match interfaceOf target with
    | some m => do m.call; pure Json.null
    | none => baseResult target
  pure (.obj [("result", result)])

end Query
end Evolver
