import Evolver.Query.Fitness
import Evolver.Pareto.Fronts
/-!
# Queries on non-dominated sorting

`front_sort` makes one individual per list of objectives, all with ranked
fitnesses, chooses the survivors, and reports which were chosen with every
individual's rank and crowding distance; given a threshold, also whether the
crowding of the survivors would stop an evolution.
-/

namespace Evolver
namespace Query

/-- Whether the largest finite crowding is below the threshold and not zero. -/
def crowdingStops (ids : List Nat) (threshold : Value) : Run Bool := do
  let c ← Pareto.maxCrowding ids
  let below ← Run.ofExcept (Value.compare .lt c threshold)
  let zero ← Run.ofExcept (Value.equal c (.int 0))
  pure (below && !zero)

/-- `{"op": "front_sort", "fitnesses", "higher_is_better", "pop_size", "threshold"}`. -/
def frontSortQuery (q : Json) : Run Json := do
  let hib ← Run.ofExcept (valueD q "higher_is_better" (.bool false))
  let ids ← ((q.getD "fitnesses").arr?.getD []).mapM fun o => do
    let f ← Run.ofExcept (Fitness.make .ranked (some (← Run.ofExcept (Value.ofJson o))) hib false false)
    Run.adopt (.chromosome (zeros 1)) f false
  let size := match q.get? "pop_size" with
    | some (.int n) => some n
    | _ => none
  let chosen ← Run.attempt (Pareto.select ids size)
  let ranks ← ids.mapM fun i => do
    let x ← Run.get i
    pure (← Run.ofExcept (x.fitness.stat "front_rank" x.fitness.frontRank)).toJson
  let crowdings ← ids.mapM fun i => do pure (← Pareto.crowdingOf i).toJson
  let stats := [("front_rank", Json.arr ranks), ("crowding", Json.arr crowdings)]
  match chosen with
  | .error e => pure (.obj (faultFields e ++ stats))
  | .ok chosen =>
    let picked := (List.range ids.length).filter fun k => chosen.contains (ids.getD k 0)
    let stop ← match q.get? "threshold" with
      | some t => do pure [("crowding_terminate", Json.bool (← crowdingStops chosen (← Run.ofExcept (Value.ofJson t))))]
      | none => pure []
    pure (.obj ([("selected", Json.arr (picked.map fun (k : Nat) => .int k))] ++ stats ++ stop))

end Query
end Evolver
