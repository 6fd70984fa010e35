import Evolver.Create.Basic
import Evolver.Select.Basic
import Evolver.Operator.Apply
import Evolver.Evolution.Problem
/-!
# Subpopulations and populations

A subpopulation holds its creators with their probabilities of being
chosen, the operators applied in turn, its selections, its size, its
direction, its problem, the number of elites carried over, and, once
created, its individuals.  `Subpopulation.make` checks what it is given in
this order:

1. the creators: one, or a non-empty list of creators only;
2. the probabilities: one per creator (equal shares when missing), adding up
   to exactly one;
3. the operators must be given; the selection defaults to tournaments of ten;
4. the elites are the elitism rate times the size, rounded half to even.

The best and worst individuals are the first after a stable sort on the
augmented score (best first when higher is better, worst first otherwise);
the average is the array mean of the scores.

A population is a list of subpopulations; what a run is given must be a
population, one subpopulation, or a non-empty list of them.
-/

namespace Evolver

/-- The creators given to a subpopulation, as they were given. -/
inductive CreatorsGiven where
  | missing
  | one (c : Creator)
  /-- a list; `none` stands for an entry that is no creator -/
  | many (xs : List (Option Creator))
  /-- anything else, by its value -/
  | other (v : Value)

/-- A subpopulation. -/
structure Subpopulation where
  creators : List Creator
  /-- the probability of each creator being the one used -/
  pcr : List Value
  operators : List Operator
  /-- the selections with their probabilities; the first one selects -/
  selections : List (Selection × Value)
  size : Int
  higherIsBetter : Value
  problem : Problem
  /-- how many of the best are carried over unchanged -/
  elites : Int
  /-- the individuals, once created -/
  individuals : Option (List Nat)

namespace Draw

/-- A position drawn with the weights: the first whose running total
exceeds a uniform double times the whole. -/
def weightedIndex (weights : List Value) : Draw Nat := do
  let sums ← Draw.ofExcept (weights.foldlM (fun (acc : List Value) w => do
      match acc.getLast? with
      | some s => pure (acc ++ [← Value.arith .add s w])
      | none => pure [w]) [])
  let some last := sums.getLast? | throw Fault.listIndex
  let total ← Draw.ofExcept (Value.arith .add last (.float 0.0))
  if ← Draw.ofExcept (Value.compare .le total (.float 0.0)) then
    throw (Fault.value "Total of weights must be greater than zero")
  match total with
  | .float t => if t.isInf || t.isNaN then throw (Fault.value "Total of weights must be finite")
  | _ => pure ()
  let r ← Draw.random
  let x ← Draw.ofExcept (Value.arith .mul (.float r) total)
  let rec search (lo hi : Nat) : Nat → Except Fault Nat
    | 0 => pure lo
    | fuel + 1 =>
      if lo < hi then do
        let mid := (lo + hi) / 2
        if ← Value.compare .lt x (sums.getD mid .none) then search lo mid fuel
        else search (mid + 1) hi fuel
      else pure lo
  Draw.ofExcept (search 0 (sums.length - 1) (sums.length + 1))

end Draw

namespace Subpopulation

/-- A subpopulation from what it is given, checked in order. -/
def make (problem : Problem) (given : CreatorsGiven) (pcr : Option (List Value))
    (operators : Option (List Operator)) (selections : Option (List (Selection × Value)))
    (elitismRate : Value) (size : Int) (hib : Value) : Except Fault Subpopulation := do
  let creators ← match given with
    | .missing => throw (Fault.value "Must specify at least one creator")
    | .one c => pure [c]
    | .many [] => throw (Fault.value "Creators cannot be empty list")
    | .many xs => match xs.mapM id with
      | some cs => pure cs
      | none => throw (Fault.value "Detected non-creator instance in creators list")
    | .other v =>
      throw (Fault.value s!"Creators must be either a Creator or a list of Creators. Got unexpected type of {v.classText}")
  let n := creators.length
  let pcr := pcr.getD (creators.map fun _ => .float (1.0 / Numeric.intToFloat n))
  if pcr.length != n then
    throw (Fault.value (s!"Number of creators ({n}) " ++ "                " ++
      s!"must match number of creation probabilities {pcr.length}!"))
  if !(← Value.equal (← Value.total pcr) (.int 1)) then
    throw (Fault.value s!"Sum of creation probabilities ({(Value.list pcr).written}) must be 1!")
  let some operators := operators | throw (Fault.value "Must specify at least one operator")
  let selections := selections.getD [(⟨.tournament 10 (.bool true), hib⟩, .int 1)]
  let elites ← (← Value.arith .mul elitismRate (.int size)).roundEven
  pure ⟨creators, pcr, operators, selections, size, hib, problem, elites, none⟩

/-- The individuals, created when there are none yet: one creator drawn by
the probabilities makes all of them. -/
def create (s : Subpopulation) : Run Subpopulation := do
  match s.individuals with
  | some _ => pure s
  | none =>
    let k ← Run.draw (Draw.weightedIndex s.pcr)
    let some c := s.creators[k]? | throw Fault.listIndex
    let ids ← c.createIndividuals s.size.toNat s.higherIsBetter
    pure { s with individuals := some ids }

/-- The individuals, none before creation. -/
def members (s : Subpopulation) : List Nat := s.individuals.getD []

/-- The individuals ordered by augmented score, largest first when `desc`. -/
def ranked (ids : List Nat) (desc : Bool) : Run (List Nat) := do
  let keyed ← ids.mapM fun id => do pure (id, ← Run.ofExcept (← Run.get id).augmentedFitness)
  let lt (a b : Nat × Value) : Except Fault Bool := Value.compare .lt a.2 b.2
  pure ((← Run.ofExcept (if desc then sortDesc lt keyed else sortBy lt keyed)).map (·.1))

/-- The best individual: first by augmented score, best first. -/
def best (s : Subpopulation) : Run Nat := do
  let up ← Run.ofExcept s.higherIsBetter.truth
  let some b := (← ranked s.members up).head? | throw Fault.listIndex
  pure b

/-- The worst individual: first by augmented score, worst first. -/
def worst (s : Subpopulation) : Run Nat := do
  let up ← Run.ofExcept s.higherIsBetter.truth
  let some w := (← ranked s.members (!up)).head? | throw Fault.listIndex
  pure w

/-- The array mean of the scores. -/
def average (s : Subpopulation) : Run Value := do
  let scores ← s.members.mapM fun id => do Run.ofExcept (← Run.get id).pureFitness
  Run.ofExcept (Value.list scores).mean

end Subpopulation

/-- The subpopulations of a run. -/
structure Population where
  subpops : List Subpopulation

/-- What a run is given as its population. -/
inductive PopulationGiven where
  | nothing
  | population (p : Population)
  | one (s : Subpopulation)
  /-- a list; `none` stands for an entry that is no subpopulation -/
  | many (xs : List (Option Subpopulation))
  | other (v : Value)

namespace Population

/-- The population of what a run is given. -/
def ofGiven : PopulationGiven → Except Fault Population
  | .nothing => throw (Fault.value "Population cannot be None")
  | .population p => pure p
  | .one s => pure ⟨[s]⟩
  | .many [] => throw (Fault.value "Population cannot be empty")
  | .many xs => match xs.mapM id with
    | some ss => pure ⟨ss⟩
    | none => throw (Fault.value "Detected a non-Subpopulation instance as an element in Population")
  | .other v =>
    throw (Fault.value ("('Parameter population must be either a Population, a Subpopulation or a " ++
      s!"list of Subpopulations. Received population with unexpected type of', {v.classText})"))

/-- Create the individuals of every subpopulation that has none. -/
def create (p : Population) : Run Population := do
  pure ⟨← p.subpops.mapM Subpopulation.create⟩

/-- The best individual of each subpopulation. -/
def bests (p : Population) : Run (List Nat) := p.subpops.mapM Subpopulation.best

/-- The position of the first subpopulation holding the individual. -/
def find (p : Population) (id : Nat) : Except Fault Nat :=
  match p.subpops.findIdx? (fun s => s.members.contains id) with
  | some k => pure k
  | none => throw (Fault.value ("The given individual was not found in any sub-population." ++
      "It probably belongs to a previous generation population."))

/-- Every individual, gathered over the subpopulations. -/
def members (p : Population) : List Nat := p.subpops.flatMap Subpopulation.members

end Population

end Evolver
