import Evolver.Query.Tree
import Evolver.Chromosome.Crossover
/-!
# Queries on chromosomes

`vector` builds a chromosome and runs a list of steps on it, the chromosome
and the random streams carrying over from step to step; `kpoint_swap`
exchanges the segments of two gene sequences at given cut points.

Bounds in a request: `[lo, hi]` is a pair, a list of such pairs is a list of
pairs, and `{"tuple": …}` and `{"list": …}` are a tuple and a list as they are.
-/

namespace Evolver
namespace Query

/-- The alphabet named in a request. -/
def alphabetOf (j : Json) : Except Fault Alphabet :=
  match j with
  | .str "bit" => pure .bits
  | .str "int" => pure .ints
  | .str "float" => pure .floats
  | _ => throw (Fault.request "unknown vector kind")

/-- Bounds of a request. -/
def boundsOf (j : Json) : Except Fault Value :=
  match j with
  | .arr xs =>
    if !xs.isEmpty && xs.all (fun x => x.arr?.isSome) then
      .list <$> xs.mapM fun x => do pure (.tuple (← (x.arr?.getD []).mapM Value.ofJson))
    else .tuple <$> xs.mapM Value.ofJson
  | j => Value.ofJson j

/-- A list of values of a request. -/
def valuesOf (j : Json) : Except Fault (List Value) := do
  match ← Value.ofJson j with
  | .list xs => pure xs
  | _ => throw (Fault.request "expected a list")

/-- The chromosome of a request. -/
def chromosomeOf (q : Json) : Except Fault Chromosome := do
  let a ← alphabetOf (q.getD "kind")
  let length ← getInt q "length"
  let bounds ← match q.get? "bounds" with
    | some b => boundsOf b
    | none => pure a.defaultBounds
  let genes ← match q.get? "vector" with
    | some v => some <$> Value.ofJson v
    | none => pure none
  Chromosome.make a length bounds genes

/-- Genes as JSON. -/
def genesJson (gs : List Value) : Json := .arr (gs.map Value.toJson)

/-- A number field read as a double. -/
def floatField (s : Json) (k : String) : Except Fault Float := do
  match ← Value.ofJson (s.getD k) with
  | .float x => pure x
  | .int n => pure (Numeric.intToFloat n)
  | _ => throw (Fault.request s!"missing field {k}")

/-- A replacement's answer: the genes replaced and the genes after. -/
def replacedJson (old : List Value) (c : Chromosome) : Json :=
  .obj [("replaced", genesJson old), ("vector", genesJson c.genes)]

/-- One step on a chromosome: its answer and the chromosome after it. -/
def chromosomeStep (c : Chromosome) (s : Json) : Draw (Json × Chromosome) := do
  let same (j : Json) : Draw (Json × Chromosome) := pure (j, c)
  let seeded : Draw Unit := do Draw.seed (← Draw.ofExcept (getInt s "seed"))
  let field {α : Type} (x : Except Fault α) : Draw α := Draw.ofExcept x
  match s.getD "do" with
  | .str "size" => same (.int c.size)
  | .str "length" => same (.int c.length)
  | .str "get" | .str "execute" => same (genesJson c.genes)
  | .str "bounds" => same c.bounds.toJson
  | .str "in_bounds" => same (.bool (← field c.inBounds))
  | .str "add_cell" =>
    let c := c.addGene (← field (getValue s "value"))
    pure (genesJson c.genes, c)
  | .str "empty" =>
    let c := c.setGenes []
    pure (genesJson c.genes, c)
  | .str "set_vector" =>
    let c := c.setGenes (← field (valuesOf (s.getD "vector")))
    pure (genesJson c.genes, c)
  | .str "part" =>
    same (genesJson (c.part (← field (getInt s "start")) (← field (getInt s "end"))))
  | .str "replace_part" =>
    let (old, c) := c.replacePart (← field (valuesOf (s.getD "part"))) (← field (getInt s "start"))
    pure (replacedJson old c, c)
  | .str "cell" => same (← field (c.gene (← field (getInt s "index")))).toJson
  | .str "set_cell" =>
    let c ← field (c.setGene (← field (getInt s "index")) (← field (getValue s "value")))
    pure (genesJson c.genes, c)
  | .str "bit_flip" => same (← field (c.flipped (← field (getInt s "index")))).toJson
  | .str "random_in_bounds" =>
    seeded
    same (← c.randomGene (← field (getInt s "index"))).toJson
  | .str "gauss" =>
    seeded
    let g ← c.gaussGene (← field (getInt s "index")) (← field (floatField s "mu"))
      (← field (floatField s "sigma"))
    same g.toJson
  | .str "random_part" =>
    seeded
    same (genesJson (← c.randomPart))
  | .str "replace_part_random" =>
    seeded
    let (old, c) ← c.replacePartRandom (← field (valuesOf (s.getD "part")))
    pure (replacedJson old c, c)
  | .str other => throw (Fault.request s!"unknown step {other}")
  | _ => throw (Fault.request "missing step")

/-- Run steps in order, each answering `{"ok": value}` or its failure; a
failed step leaves the chromosome as it was. -/
def chromosomeSteps : Chromosome → List Json → Draw (List Json)
  | _, [] => pure []
  | c, s :: rest => do
    let r ← tryCatch (do let (j, c') ← chromosomeStep c s; pure (Except.ok (j, c')))
      (fun e => pure (Except.error e))
    match r with
    | .ok (j, c') => pure (stepJson (.ok j) :: (← chromosomeSteps c' rest))
    | .error e => pure (stepJson (.error e) :: (← chromosomeSteps c rest))

/-- `{"op": "vector", …}`: the answers of the steps. -/
def vectorQuery (q : Json) : Draw Json := do
  let _ ← Draw.freshId
  let c ← Draw.ofExcept (chromosomeOf q)
  let steps ← chromosomeSteps c ((q.getD "steps").arr?.getD [])
  pure (.obj [("steps", .arr steps)])

/-- `{"op": "kpoint_swap", "v1", "v2", "k", "points"}`: both sequences and the
points after the exchange, and its fault if it failed. -/
def kpointSwapQuery (q : Json) : Except Fault Json := do
  let v1 ← valuesOf (q.getD "v1")
  let v2 ← valuesOf (q.getD "v2")
  let k ← getInt q "k"
  let points ← match q.getD "points" with
    | .arr xs => xs.mapM fun x => match x with
      | .int n => pure n
      | _ => throw (Fault.request "bad point")
    | _ => throw (Fault.request "bad points")
  let (a, b, pts, f) := Chromosome.exchange k.toNat v1 v2 points
  let fields := [("v1", genesJson a), ("v2", genesJson b), ("points", .arr (pts.map .int))]
  pure (.obj (fields ++ (f.map faultFields).getD []))

end Query
end Evolver
