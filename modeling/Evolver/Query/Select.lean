import Evolver.Query.Individual
import Evolver.Select.Basic
/-!
# Queries on selection

`select` makes the source and destination individuals, builds the selection
and seeds the streams, then selects directly, through `apply_operator`, or
through the events.  The answer shows every selected individual with the
source position it was copied from.
-/

namespace Evolver
namespace Query

/-- The selection of a request. -/
def selectionOf (j : Json) : Except Fault Selection := do
  Selection.build (← getStr j "name") (← kwargsOf j)

/-- `{"op": "select", "selection", "individuals", "dest", "seed", "via"}`. -/
def selectQuery (q : Json) : Run Json := do
  let source ← ((q.getD "individuals").arr?.getD []).mapM individualOf
  let dest ← ((q.getD "dest").arr?.getD []).mapM individualOf
  let s ← Run.ofExcept (selectionOf (q.getD "selection"))
  if let some (.int seed) := q.get? "seed" then Run.draw (Draw.seed seed)
  let result ← match q.getD "via" with
    | .str "act" => s.act
    | _ => s.select source dest
  let shown ← result.mapM fun id => do
    let i ← Run.get id
    let from_ := match i.clonedFrom.getLast? with
      | some c => match source.idxOf? c with
        | some k => Json.int k
        | none => .null
      | none => .null
    pure (Json.obj [("source", from_), ("id", .int id), ("selected_by", .arr (i.selectedBy.map .str))])
  pure (.obj [("selected", .arr shown), ("same_list", .bool true)])

end Query
end Evolver
