import Evolver.Query.Fitness
import Evolver.Operator.Apply
/-!
# Individuals and operators of a request

An individual of a request is a tree (a tree request with its sets and
nodes), holding a fitness with bloat control, or a vector (its kind, length,
genes and bounds), holding a simple fitness; either may give its score,
direction and whether it keeps its parents.  An operator of a request is its
class name with its keyword arguments.
-/

namespace Evolver
namespace Query

/-- Whether an individual of a request is a tree. -/
def isTreeSpec (j : Json) : Bool :=
  (j.get? "function_set").isSome || (j.get? "nodes").isSome

/-- The individual of a request, kept in the store; its identity. -/
def individualOf (j : Json) : Run Nat := do
  let score ← match j.get? "fitness" with
    | some .null | none => pure none
    | some v => some <$> Run.ofExcept (Value.ofJson v)
  let hib ← Run.ofExcept (valueD j "higher_is_better" (.bool false))
  let up := getBoolD j "update_parents" false
  if isTreeSpec j then
    let bw ← Run.ofExcept (valueD j "bloat_weight" (.float 0.1))
    let f ← Run.ofExcept (Fitness.make (.bloated bw) score hib false false)
    let id ← Run.draw Draw.freshId
    let t ← Run.draw (treeOf j)
    Run.put (Individual.fresh id (.tree t) f up)
    pure id
  else
    let f ← Run.ofExcept (Fitness.make .simple score hib false false)
    let id ← Run.draw Draw.freshId
    let c ← Run.ofExcept (chromosomeOf j)
    Run.put (Individual.fresh id (.chromosome c) f up)
    pure id

/-- The genome of an individual as answers show it. -/
def genomeFields (g : Genome) : List (String × Json) :=
  match g with
  | .tree t => [("nodes", nodesJson t.nodes)]
  | .chromosome c => [("vector", genesJson c.genes)]

/-- An individual after an operator: its genome, the operators applied, whether
it is evaluated, and its parents if it keeps them. -/
def operatedJson (i : Individual) : Json :=
  .obj ([("id", .int i.id)] ++ genomeFields i.genome ++
    [("applied_operators", .arr (i.appliedOperators.map .str)),
     ("evaluated", .bool i.fitness.isEvaluated)] ++
    (if i.updateParents then [("parents", .arr (i.parents.map fun (p : Nat) => .int p))] else []))

/-- The keyword arguments of an object of a request: every member but its name. -/
def kwargsOf (j : Json) : Except Fault Operator.Kwargs := do
  match j with
  | .obj ms => (ms.filter (·.1 != "name")).mapM fun (k, v) => do pure (k, ← Value.ofJson v)
  | _ => throw (Fault.request "expected an object")

/-- The operator of a request. -/
def operatorOf (j : Json) : Except Fault Operator := do
  Operator.build (← getStr j "name") (← kwargsOf j)

/-- `{"op": "operator", "operator", "individuals", "payload", "seed"}`. -/
def operatorQuery (q : Json) : Run Json := do
  let ids ← ((q.getD "individuals").arr?.getD []).mapM individualOf
  match operatorOf (q.getD "operator") with
  | .error e => pure (faultJson e)
  | .ok o =>
    if let some (.int seed) := q.get? "seed" then Run.draw (Draw.seed seed)
    let payload : Payload := match q.getD "payload" with
      | .str "single" => .single (ids.getD 0 0)
      | _ => .group ids
    let r ← Run.attempt (o.act payload)
    let inds ← ids.mapM Run.get
    let shown := ("individuals", Json.arr (inds.map operatedJson))
    match r with
    | .ok _ => pure (.obj [("result_is_input", .bool true), shown])
    | .error e => pure (.obj (faultFields e ++ [shown]))

end Query
end Evolver
