import Evolver.Query.Chromosome
import Evolver.Create.Basic
/-!
# Queries on creators

A creator in a request names its kind (`full`, `grow`, `half` or `tree` for
trees, `bitvec`, `intvec` or `floatvec` for chromosomes) and its settings.
`create` builds one, seeds the streams, and reports the individuals it makes:
their identities with their trees and depths, or with their genes.
-/

namespace Evolver
namespace Query

/-- The least and greatest depth of a request, `(2, 4)` when missing. -/
def depthsOf (j : Json) : Except Fault (Int × Int) :=
  match j with
  | .null => pure (2, 4)
  | .arr [.int a, .int b] => pure (a, b)
  | _ => throw (Fault.request "bad init_depth")

/-- A member read as a value, with a default when missing. -/
def valueD (j : Json) (k : String) (d : Value) : Except Fault Value :=
  match j.get? k with
  | some v => Value.ofJson v
  | none => pure d

/-- The tree recipe of a creator in a request. -/
def treeRecipeOf (j : Json) : Draw TreeRecipe := do
  let fs ← functionEntries (j.getD "function_set")
  let ts ← terminalSpec (j.getD "terminal_set")
  let erc ← Draw.ofExcept (ercOf (j.getD "erc_range"))
  let root ← Draw.ofExcept (kindOf (j.getD "root_type"))
  let depth ← Draw.ofExcept (depthsOf (j.getD "init_depth"))
  let bw ← Draw.ofExcept (valueD j "bloat_weight" (.float 0.0))
  let up := getBoolD j "update_parents" false
  Draw.ofExcept (TreeRecipe.make fs ts erc root depth bw up)

/-- A chromosome creator of a request. -/
def chromosomeCreatorOf (a : Alphabet) (j : Json) (m : Measure) : Except Fault Creator := do
  let length := getIntD j "length" 1
  let bounds ← match j.get? "bounds" with
    | some b => boundsOf b
    | none => pure (match a with
      | .floats => .tuple [.float 0.0, .float 1.0]
      | _ => .tuple [.int 0, .int 1])
  pure (.chromosomes a length bounds m (getBoolD j "update_parents" false))

/-- The creator of a request. -/
def creatorOf (j : Json) : Draw Creator := do
  match j.getD "kind" with
  | .str "full" => pure (.trees (← treeRecipeOf j) (some .full))
  | .str "grow" =>
    let p ← Draw.ofExcept (valueD j "p_prune" (.float 0.5))
    pure (.trees (← treeRecipeOf j) (some (.grow p)))
  | .str "half" => pure (.rampedHalf (← treeRecipeOf j))
  | .str "tree" => pure (.trees (← treeRecipeOf j) none)
  | .str "bitvec" => Draw.ofExcept (chromosomeCreatorOf .bits j .simple)
  | .str "intvec" => Draw.ofExcept (chromosomeCreatorOf .ints j .simple)
  | .str "floatvec" => Draw.ofExcept (chromosomeCreatorOf .floats j .simple)
  | _ => throw (Fault.request "unknown creator")

/-- An individual as the creation answer shows it. -/
def createdJson (i : Individual) : Json :=
  match i.genome with
  | .tree t =>
    let depth := match t.depth with
      | .ok d => Json.int d
      | .error f => faultJson f
    .obj [("id", .int i.id), ("nodes", nodesJson t.nodes), ("depth", depth)]
  | .chromosome c => .obj [("id", .int i.id), ("vector", genesJson c.genes)]

/-- `{"op": "create", "creator", "n", "higher_is_better", "seed"}`. -/
def createQuery (q : Json) : Run Json := do
  let c ← Run.draw (creatorOf (q.getD "creator"))
  if let some (.int seed) := q.get? "seed" then Run.draw (Draw.seed seed)
  let n ← Run.ofExcept (getInt q "n")
  let hib ← Run.ofExcept (valueD q "higher_is_better" (.bool false))
  let ids ← c.createIndividuals n.toNat hib
  let inds ← ids.mapM Run.get
  pure (.obj [("individuals", .arr (inds.map createdJson))])

end Query
end Evolver
