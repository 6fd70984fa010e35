import Evolver.Query.Population
import Evolver.Evolution.Termination
/-!
# Queries on ending a run

`termination` builds a threshold or stagnation check and asks it once per
generation about a population of one individual per subpopulation, each
holding one of the generation's best scores; the best individual of the run
holds the first of them.
-/

namespace Evolver
namespace Query

/-- The check of a request. -/
def checkerOf (q : Json) : Except Fault Checker := do
  match q.getD "kind" with
  | .str "threshold" =>
    pure (.threshold (← valueD q "optimal" (.float 0.0)) (← valueD q "threshold" (.float 0.0)))
  | .str "stagnation" => pure (Checker.stagnant (← valueD q "generations" (.int 100)))
  | .str "crowding" => pure (.crowding (← valueD q "threshold" (.float 0.1)))
  | _ => throw (Fault.request "unknown termination kind")

/-- An individual holding a score, or no score for null. -/
def holding (j : Json) : Run Nat := do
  let score ← match j with
    | .null => pure none
    | j => some <$> Run.ofExcept (Value.ofJson j)
  let f ← Run.ofExcept (Fitness.make .simple score (.bool false) false false)
  Run.adopt (.chromosome (zeros 1)) f false

/-- `{"op": "termination", "kind", "best", ...}`. -/
def terminationQuery (q : Json) : Run Json := do
  let c ← Run.ofExcept (checkerOf q)
  let entries := (q.getD "best").arr?.getD []
  let (_, steps) ← entries.foldlM (fun (acc : Checker × List Json) e => do
      let (c, steps) := acc
      let scores := match e with
        | .arr xs => xs
        | x => [x]
      let ids ← scores.mapM holding
      let subs := ids.map fun id =>
        (⟨[], [], [], [], 1, .bool false, .weightedSum none, 0, some [id]⟩ : Subpopulation)
      match ← Run.attempt (c.check ⟨subs⟩ ids.head?) with
      | .ok (stop, c) => pure (c, steps ++ [stepJson (.ok (.bool stop))])
      | .error err => pure (c, steps ++ [faultJson err])) (c, [])
  pure (.obj [("steps", .arr steps)])

end Query
end Evolver
