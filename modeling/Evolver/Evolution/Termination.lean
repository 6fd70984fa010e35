import Evolver.Evolution.Population
import Evolver.Pareto.Fronts
/-!
# Ending a run early

After each generation (and once after the first evaluation) a run asks its
checkers whether to stop:

* `threshold`: the best score of the run is within the threshold of the
  optimum;
* `stagnation`: the best score of every subpopulation stayed close (relative
  tolerance `1e-9`) to the one remembered for `limit` generations in a row;
  a generation that is not close is remembered instead and starts the count
  again;
* `crowding`: the largest finite crowding distance over the subpopulations
  is below the threshold and is not zero.

Several checkers stop a run when any of them does; each of them is asked.
-/

namespace Evolver

/-- Whether two doubles are close: equal, or apart by at most `1e-9` of
either, infinities only equal to themselves. -/
def isClose (a b : Float) : Bool :=
  if a == b then true
  else if a.isInf || b.isInf then false
  else
    let diff := Float.abs (b - a)
    diff ≤ Float.abs (1e-9 * b) || diff ≤ Float.abs (1e-9 * a)

/-- A number as a double, for closeness. -/
def Value.realFloat (v : Value) : Except Fault Float :=
  match v with
  | .int n => pure (Numeric.intToFloat n)
  | .bool b => pure (if b then 1.0 else 0.0)
  | .float x => pure x
  | .scalar _ c => match c.toFloat? with
    | some x => pure x
    | Option.none => throw (Fault.type s!"must be real number, not {v.className}")
  | v => throw (Fault.type s!"must be real number, not {v.className}")

/-- The score of the best individual of each subpopulation. -/
def Population.bestScores (p : Population) : Run (List Value) := do
  (← p.bests).mapM fun id => do Run.ofExcept (← Run.get id).pureFitness

/-- A check that may end a run. -/
inductive Checker where
  | threshold (optimal threshold : Value)
  /-- with the remembered best scores and the generations they lasted -/
  | stagnation (limit : Value) (best : List Value) (count : Int)
  | crowding (threshold : Value)

namespace Checker

/-- The stagnation check as it starts. -/
def stagnant (limit : Value) : Checker := .stagnation limit [] 0

/-- Whether the run should stop, given the population and the best
individual of the run; and the check as it goes on. -/
def check (c : Checker) (p : Population) (best : Option Nat) : Run (Bool × Checker) := do
  match c with
  | .threshold optimum tolerance =>
    let some b := best
      | throw (Fault.missingAttribute "'NoneType' object has no attribute 'get_pure_fitness'")
    let score ← Run.ofExcept (← Run.get b).pureFitness
    let gap ← Run.ofExcept (do (← Value.arith .sub score optimum).absolute)
    pure (← Run.ofExcept (Value.compare .le gap tolerance), c)
  | .stagnation limit remembered count =>
    let scores ← p.bestScores
    let close ← (scores.zip remembered).mapM fun (a, b) => do
      pure (isClose (← Run.ofExcept a.realFloat) (← Run.ofExcept b.realFloat))
    if !remembered.isEmpty && close.all id then
      let count := count + 1
      pure (← Run.ofExcept (Value.compare .ge (.int count) limit), .stagnation limit remembered count)
    else pure (false, .stagnation limit scores 0)
  | .crowding tolerance =>
    let maxima ← p.subpops.mapM fun s => Pareto.maxCrowding s.members
    let top ← Run.ofExcept (greatest (Value.compare .gt) maxima)
    let top := top.getD .none
    let below ← Run.ofExcept (Value.compare .lt top tolerance)
    let zero ← Run.ofExcept (Value.equal top (.int 0))
    pure (below && !zero, c)

/-- Ask every checker in turn; whether any says to stop. -/
def checkAll (cs : List Checker) (p : Population) (best : Option Nat) : Run (Bool × List Checker) := do
  let results ← cs.mapM fun c => c.check p best
  pure (results.any (·.1), results.map (·.2))

end Checker

end Evolver
