import Evolver.Value.Arith
import Evolver.Chromosome.Basic
import Evolver.Lab
/-!
# Fitness

A fitness holds a score once it is evaluated, and says which way scores
improve.  There are three measures:

* `simple`: the score is compared as it is;
* `bloated w`: genetic programming with bloat control, the score worsened by
  `w` times the size of the program (`augmented`; unchanged when `w` is zero);
* `ranked`: several objectives, compared by Pareto dominance (`dominates`),
  with the front rank and crowding distance that non-dominated sorting
  assigns; before any sorting (rank infinite) two ranked fitnesses compare
  by a fair coin.

A fitness may be relative, in which case it always counts as evaluated; one
that is not cached forgets its score when it is stored (`state`).
-/

namespace Evolver

/-- How scores of a fitness are measured. -/
inductive Measure where
  | simple
  /-- genetic programming: the score worsened by the weight times the size -/
  | bloated (weight : Value)
  /-- several objectives -/
  | ranked
deriving Inhabited

/-- The class text of a fitness of the measure. -/
def Measure.classText : Measure → String
  | .simple => "<class 'eckity.fitness.simple_fitness.SimpleFitness'>"
  | .bloated _ => "<class 'eckity.fitness.gp_fitness.GPFitness'>"
  | .ranked => "<class 'eckity.multi_objective_evolution.nsga2_fitness.NSGA2Fitness'>"

/-- The class name of a fitness of the measure. -/
def Measure.className : Measure → String
  | .simple => "SimpleFitness"
  | .bloated _ => "GPFitness"
  | .ranked => "NSGA2Fitness"

/-- Whether the measure compares single scores. -/
def Measure.isScalar : Measure → Bool
  | .ranked => false
  | _ => true

/-- The fitness of an individual. -/
structure Fitness where
  measure : Measure
  /-- the score, nothing until evaluated -/
  score : Value
  evaluated : Bool
  /-- a flag, or one flag per objective -/
  higherIsBetter : Value
  cache : Bool
  relative : Bool
  /-- the crowding distance, once there is one -/
  crowding : Option Value
  /-- the front rank, once there is one -/
  frontRank : Option Value
deriving Inhabited

namespace Fitness

/-- Infinity, the rank of a fitness never sorted. -/
def unranked : Value := .float (1.0 / 0.0)

/-- One flag per objective of a score, from a single flag. -/
def spreadFlags (hib : Value) (score : Value) : Except Fault Value := do
  match hib with
  | .bool b => pure (.list (List.replicate (← score.size?) (.bool b)))
  | v => pure v

/-- A fitness of the measure; `score` when already evaluated.  The flag must
be given. -/
def make (m : Measure) (score : Option Value) (hib : Value) (cache relative : Bool) :
    Except Fault Fitness := do
  if let .none := hib then throw (Fault.value "higher_is_better must be set to True/False")
  let base : Fitness :=
    ⟨m, score.getD .none, score.isSome, hib, if relative then false else cache, relative,
      Option.none, Option.none⟩
  match m with
  | .ranked =>
    let hib ← match score with
      | some s => spreadFlags hib s
      | Option.none => pure hib
    pure { base with higherIsBetter := hib, crowding := some (.int 0), frontRank := some unranked }
  | _ => pure base

/-- Whether the score counts as evaluated. -/
def isEvaluated (f : Fitness) : Bool := f.relative || f.evaluated

/-- The score. -/
def pure (f : Fitness) : Except Fault Value :=
  if f.evaluated then .ok f.score else .error (Fault.value "Fitness not evaluated yet")

/-- The score as comparisons see it, for an individual of the given size. -/
def augmented (f : Fitness) (size : Nat) : Except Fault Value := do
  let score ← f.pure
  match f.measure with
  | .bloated w =>
    if ← Value.equal w (.int 0) then return score
    let penalty ← Value.arith .mul w (.int size)
    if ← f.higherIsBetter.truth then Value.arith .sub score penalty
    else Value.arith .add score penalty
  | _ => return score

/-- Record a score.  A ranked fitness takes a score only once, and spreads a
single flag over its objectives. -/
def setScore (f : Fitness) (v : Value) : Except Fault Fitness := do
  match f.measure with
  | .ranked =>
    if f.evaluated then
      throw (Fault.missingAttribute s!"('fitness already evaluated and set to', {f.score.written})")
    let hib ← spreadFlags f.higherIsBetter v
    return { f with score := v, evaluated := true, higherIsBetter := hib }
  | _ => return { f with score := v, evaluated := true }

/-- Forget the score; a ranked fitness also forgets its rank and crowding. -/
def reset (f : Fitness) : Fitness :=
  match f.measure with
  | .ranked =>
    { f with evaluated := false, score := .none, crowding := some (.int 0), frontRank := some unranked }
  | _ => { f with evaluated := false, score := .none }

/-- The fitness as stored: without its score unless cached. -/
def stored (f : Fitness) : Fitness :=
  if f.cache then f else { f with evaluated := false, score := .none }

/-- The fault of a comparison with a fitness of another class. -/
def otherClass (f g : Fitness) : Fault :=
  Fault.type s!"('Expected {f.measure.className} object in better_than, got', {g.measure.classText})"

/-- The checks before comparing single scores. -/
def checkScalar (f g : Fitness) : Except Fault Unit := do
  if !g.measure.isScalar then throw (f.otherClass g)
  if !f.isEvaluated || !g.isEvaluated then
    throw (Fault.value "Fitness scores must be evaluated before comparison")

/-- The checks before comparing objectives. -/
def checkRanked (f : Fitness) (size : Nat) (g : Fitness) (gsize : Nat) : Except Fault Unit := do
  if g.measure.isScalar then throw (f.otherClass g)
  if !f.isEvaluated || !g.isEvaluated then
    throw (Fault.value "Fitnesses must be evaluated before comparison")
  let n ← (← g.augmented gsize).size?
  let m ← (← f.augmented size).size?
  if n != m then throw (Fault.value "Fitnesses must be of the same lngth")

/-- A recorded statistic (rank or crowding) that may be missing. -/
def stat (f : Fitness) (name : String) : Option Value → Except Fault Value
  | some v => .ok v
  | Option.none => .error (Fault.missingAttribute s!"'{f.measure.className}' object has no attribute '{name}'")

/-- Whether the first objective list is at least as good as the second in
every objective and better in one, each objective read by its flag. -/
def dominatesScores (flags xs ys : List Value) : Except Fault Bool := do
  let triples := (flags.zip xs).zip ys
  let atLeast ← triples.mapM fun ((h, x), y) => do
    Value.compare (if ← h.truth then .ge else .le) x y
  if !atLeast.all id then return false
  let better ← triples.mapM fun ((h, x), y) => do
    Value.compare (if ← h.truth then .gt else .lt) x y
  return better.any id

/-- The items of a sequence value. -/
def items (v : Value) : Except Fault (List Value) :=
  match v with
  | .list xs | .tuple xs => .ok xs
  | v => .error (Fault.type s!"'{v.className}' object is not iterable")

/-- Pareto dominance of ranked fitnesses of individuals of the given sizes. -/
def dominates (f : Fitness) (size : Nat) (g : Fitness) (gsize : Nat) : Except Fault Bool := do
  f.checkRanked size g gsize
  let xs ← items (← f.augmented size)
  let ys ← items (← g.augmented gsize)
  dominatesScores (← items f.higherIsBetter) xs ys

/-- Whether `f` (of an individual of size `size`) is better than `g`: single
scores by the direction of `f`'s flag; ranked fitnesses by a coin while `f`
is unranked, else by the larger rank, then the larger crowding. -/
def betterThan (f : Fitness) (size : Nat) (g : Fitness) (gsize : Nat) : Draw Bool := do
  match f.measure with
  | .ranked =>
    let rank ← Draw.ofExcept (f.stat "front_rank" f.frontRank)
    if ← Draw.ofExcept (Value.equal rank unranked) then
      return (← Draw.bits 1) == 1
    Draw.ofExcept do
      f.checkRanked size g gsize
      let other ← g.stat "front_rank" g.frontRank
      if ← Value.equal rank other then
        Value.compare .gt (← f.stat "crowding" f.crowding) (← g.stat "crowding" g.crowding)
      else Value.compare .gt rank other
  | _ =>
    Draw.ofExcept do
      f.checkScalar g
      let up ← f.higherIsBetter.truth
      let a ← f.augmented size
      let b ← g.augmented gsize
      Value.compare (if up then .gt else .lt) a b

/-- Whether `f` and `g` are equal: single scores by value, ranked fitnesses
by rank and crowding. -/
def equalTo (f : Fitness) (size : Nat) (g : Fitness) (gsize : Nat) : Except Fault Bool := do
  match f.measure with
  | .ranked =>
    let r ← f.stat "front_rank" f.frontRank
    let s ← g.stat "front_rank" g.frontRank
    if !(← Value.equal r s) then return false
    Value.equal (← f.stat "crowding" f.crowding) (← g.stat "crowding" g.crowding)
  | _ =>
    f.checkScalar g
    Value.equal (← f.augmented size) (← g.augmented gsize)

end Fitness

end Evolver
