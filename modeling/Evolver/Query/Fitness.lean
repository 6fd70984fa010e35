import Evolver.Query.Create
/-!
# Queries on fitness

`fitness` makes one bit-string individual of zeros per entry, holding a
simple, bloat-controlled or ranked fitness, and runs steps that set, read and
compare the fitnesses.
-/

namespace Evolver
namespace Query

/-- The measure named by an entry. -/
def measureOf (j : Json) : Except Fault Measure := do
  match j.getD "kind" with
  | .str "simple" => pure .simple
  | .str "gp" => pure (.bloated (← valueD j "bloat_weight" (.float 0.1)))
  | .str "nsga2" => pure .ranked
  | _ => throw (Fault.request "unknown fitness kind")

/-- The fitness of an entry: its score if given and not null. -/
def fitnessOf (j : Json) : Except Fault Fitness := do
  let m ← measureOf j
  let score ← match j.get? "fitness" with
    | some .null | none => pure none
    | some v => some <$> Value.ofJson v
  let hib ← valueD j "higher_is_better" (.bool false)
  Fitness.make m score hib (getBoolD j "cache" false) (getBoolD j "is_relative_fitness" false)

/-- A bit string of `n` zeros. -/
def zeros (n : Nat) : Chromosome :=
  ⟨.bits, List.replicate n (.int 0), .tuple [.int 0, .int 1], n⟩

/-- The stored fields of a fitness. -/
def fitnessStateJson (f : Fitness) : Json :=
  let s := f.stored
  .obj [("_is_evaluated", .bool s.evaluated), ("fitness", s.score.toJson), ("cache", .bool s.cache),
    ("is_relative_fitness", .bool s.relative), ("higher_is_better", s.higherIsBetter.toJson)]

/-- The individual at a position of the step list. -/
def memberAt (inds : List Individual) (i : Int) : Except Fault Individual :=
  match resolveIndex inds.length i with
  | some k => match inds[k]? with
    | some x => pure x
    | none => throw Fault.listIndex
  | none => throw Fault.listIndex

/-- One step on the individuals: its answer and the individuals after. -/
def fitnessStep (inds : List Individual) (s : Json) : Draw (Json × List Individual) := do
  let field {α : Type} (x : Except Fault α) : Draw α := Draw.ofExcept x
  let same (j : Json) : Draw (Json × List Individual) := pure (j, inds)
  if s.getD "do" matches .str "seed" then
    Draw.seed (← field (getInt s "seed"))
    return (.null, inds)
  let idx ← field (getInt s "i")
  let a ← field (memberAt inds idx)
  let other : Draw Individual := do field (memberAt inds (← field (getInt s "j")))
  let replace (x : Individual) : List Individual :=
    match resolveIndex inds.length idx with
    | some k => inds.set k x
    | none => inds
  match s.getD "do" with
  | .str "set" =>
    let f ← field (a.fitness.setScore (← field (getValue s "value")))
    pure (.null, replace { a with fitness := f })
  | .str "pure" => same (← field a.pureFitness).toJson
  | .str "aug" => same (← field a.augmentedFitness).toJson
  | .str "better" =>
    let b ← other
    same (.bool (← a.fitness.betterThan a.size b.fitness b.size))
  | .str "equal" =>
    let b ← other
    same (.bool (← field (a.fitness.equalTo a.size b.fitness b.size)))
  | .str "ind_better" =>
    match s.getD "j" with
    | .null => same (.bool (← a.betterThan none))
    | _ => same (.bool (← a.betterThan (some (← other))))
  | .str "not_eval" => pure (.null, replace a.resetFitness)
  | .str "is_eval" => same (.bool a.fitness.isEvaluated)
  | .str "state" => same (fitnessStateJson a.fitness)
  | .str "dominate" =>
    let b ← other
    if a.fitness.measure.isScalar then
      throw (Fault.missingAttribute s!"'{a.fitness.measure.className}' object has no attribute 'dominate'")
    same (.bool (← field (a.fitness.dominates a.size b.fitness b.size)))
  | .str "set_rank" =>
    let rank ← field (getValue s "rank")
    let crowding ← field (getValue s "crowding")
    pure (.null, replace { a with fitness := { a.fitness with frontRank := some rank, crowding := some crowding } })
  | .str "rank" =>
    let c ← field (a.fitness.stat "crowding" a.fitness.crowding)
    let r ← field (a.fitness.stat "front_rank" a.fitness.frontRank)
    same (.obj [("crowding", c.toJson), ("front_rank", r.toJson)])
  | .str "resize" =>
    let n ← field (getInt s "size")
    pure (.int n, replace { a with genome := .chromosome (zeros n.toNat) })
  | .str other => throw (Fault.request s!"unknown step {other}")
  | _ => throw (Fault.request "missing step")

/-- Run steps in order; a failed step leaves the individuals as they were. -/
def fitnessSteps : List Individual → List Json → Draw (List Json)
  | _, [] => pure []
  | inds, s :: rest => do
    let r ← tryCatch (do let (j, x) ← fitnessStep inds s; pure (Except.ok (j, x)))
      (fun e => pure (Except.error e))
    match r with
    | .ok (j, x) => pure (stepJson (.ok j) :: (← fitnessSteps x rest))
    | .error e => pure (stepJson (.error e) :: (← fitnessSteps inds rest))

/-- `{"op": "fitness", "individuals", "steps"}`. -/
def fitnessQuery (q : Json) : Draw Json := do
  let entries := (q.getD "individuals").arr?.getD []
  let made ← tryCatch (do
      let inds ← entries.mapM fun e => do
        let f ← Draw.ofExcept (fitnessOf e)
        let id ← Draw.freshId
        pure (Individual.fresh id (.chromosome (zeros (getIntD e "size" 1).toNat)) f false)
      pure (Except.ok inds))
    (fun e => pure (Except.error e))
  match made with
  | .error e => pure (.obj [("init_error", faultJson e)])
  | .ok inds =>
    let steps ← fitnessSteps inds ((q.getD "steps").arr?.getD [])
    pure (.obj [("steps", .arr steps)])

end Query
end Evolver
