import Evolver.Evolution.Breed
import Evolver.Decimal.Fixed
/-!
# Statistics written after each generation

A statistic writes messages about the population after every generation:

* `bestAverageWorst`: the generation, then for each subpopulation its number,
  and the best, worst and average score, one to a line;
* `bestAverageWorstSize`: the same and the average tree size;
* `minimal`: the generation only;
* `fronts`: for multi-objective runs, the generation, then for each
  subpopulation its number of fronts (the largest rank), how many of its
  individuals the first front holds, and the corners of the first and the last
  front: the distinct scores of their members whose crowding distance is
  infinite.  A front has one or two corners; more or none is a failed check.

Numbers are written as their display text.
-/

namespace Evolver

/-- What a run writes about its population after each generation. -/
inductive Statistic where
  | bestAverageWorst
  | bestAverageWorstSize
  | minimal
  | fronts

namespace Statistic

/-- The rank and crowding distance of an individual. -/
def rankAndCrowding (id : Nat) : Run (Value × Value) := do
  let f := (← Run.get id).fitness
  pure (← Run.ofExcept (f.stat "front_rank" f.frontRank), ← Run.ofExcept (f.stat "crowding" f.crowding))

/-- The distinct scores, first occurrence first. -/
def distinct (vs : List Value) : Except Fault (List Value) :=
  vs.foldlM (fun kept v => do
    if ← kept.anyM (Value.equal v) then pure kept else pure (kept ++ [v])) []

/-- Whether an individual is of the given rank with an infinite crowding
distance. -/
def isCorner (rank : Value) (id : Nat) : Run Bool := do
  let (r, c) ← rankAndCrowding id
  if ← Run.ofExcept (Value.equal r rank) then Run.ofExcept (Value.equal c Fitness.unranked)
  else pure false

/-- The corners of the front of a rank: the distinct scores of its members
with an infinite crowding distance; there must be one or two. -/
def corners (ids : List Nat) (rank : Value) : Run (List Value) := do
  let members ← ids.filterM (isCorner rank)
  let scores ← members.mapM fun id => do Run.ofExcept (← Run.get id).pureFitness
  let found ← Run.ofExcept (distinct scores)
  if found.length == 1 || found.length == 2 then pure found
  else throw ⟨.checkFailed, ""⟩

/-- The lines about the fronts of one subpopulation. -/
def writeFronts (index : Nat) (s : Subpopulation) : Run Unit := do
  let ids := s.members
  let first ← corners ids (.int 1)
  let ranks ← ids.mapM fun id => do pure (← rankAndCrowding id).1
  let some last ← Run.ofExcept (greatest (Value.compare .gt) ranks) | throw Fault.listIndex
  let lastCorners ← corners ids last
  let firstFront ← ids.filterM fun id => do
    Run.ofExcept (Value.equal (← rankAndCrowding id).1 (.int 1))
  let _ ← firstFront.mapM fun id => do Run.ofExcept (← Run.get id).pureFitness
  Run.say s!"subpopulation #{index} has {last.display} fronts"
  let share := Numeric.intToFloat firstFront.length / Numeric.intToFloat ids.length * 100.0
  Run.say (s!"first front has {firstFront.length} individuals ({Decimal.fixedText 1 share}%)\n" ++
    s!"first front's corners: {(Value.list first).display}\n" ++
    s!"last front's corners: {(Value.list lastCorners).display}\n")

/-- The best, worst and average scores of a subpopulation, and with `size`
the average size of its members. -/
def summary (s : Subpopulation) (size : Bool) : Run String := do
  let best ← Run.ofExcept (← Run.get (← s.best)).pureFitness
  let worst ← Run.ofExcept (← Run.get (← s.worst)).pureFitness
  let average ← s.average
  let text := s!"best fitness {best.display}\nworst fitness {worst.display}\n" ++
    s!"average fitness {average.display}\n"
  if size then
    let sizes ← s.members.mapM fun id => do pure (Value.int (← Run.get id).size)
    let mean ← Run.ofExcept (Value.list sizes).mean
    pure (text ++ s!"average size {mean.display}\n")
  else pure text

/-- Write the statistic of a generation. -/
def write (st : Statistic) (gen : Nat) (p : Population) : Run Unit := do
  Run.say s!"generation #{gen}"
  match st with
  | .minimal => pure ()
  | .bestAverageWorst | .bestAverageWorstSize =>
    for (s, index) in p.subpops.zipIdx do
      Run.say s!"subpopulation #{index}"
      Run.say (← summary s (st matches .bestAverageWorstSize))
  | .fronts =>
    for (s, index) in p.subpops.zipIdx do writeFronts index s

end Statistic

end Evolver
