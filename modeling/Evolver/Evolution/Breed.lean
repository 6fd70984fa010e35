import Evolver.Evolution.Population
/-!
# Breeding and evaluating a generation

Simple breeding of a subpopulation (`Subpopulation.breed`):

1. every selection's and operator's arity must divide the size;
2. copies of the elites start the next generation;
3. the first selection fills it up from the current one;
4. each operator in turn is applied to consecutive groups of its arity, and
   each group is replaced by the operator's result.

Multi-objective breeding (`Subpopulation.breedFronts`) applies the operators
to the current individuals themselves, and the next generation is copies of
the individuals as they were followed by the changed ones, all with their
scores forgotten; the elites and the selection are still drawn, but what they
add is dropped or nothing.

Evaluation (`Population.evaluate`) scores every individual of the single
subpopulation in order, keeps its score, and gives the best one: the first
that no later one is better than.  Scoring through futures keeps the
individual itself as its score, which then cannot be compared.
-/

namespace Evolver

namespace Subpopulation

/-- Every selection's and operator's arity must divide the size. -/
def checkArities (s : Subpopulation) : Except Fault Unit := do
  for o in s.operators do
    if o.arity == 0 then throw ⟨.divisionByZero, "integer division or modulo by zero"⟩
    if Int.fmod s.size o.arity != 0 then
      throw (Fault.value s!"Operator {o.text} arity must be dividable by population size")

/-- Apply the operators in turn, each to consecutive groups of its arity,
putting each result in place of its group. -/
def applyOperators (ops : List Operator) (ids : List Nat) : Run (List Nat) :=
  ops.foldlM (fun ids o => do
    if o.arity == 0 then throw (Fault.value "range() arg 3 must not be zero")
    if o.arity < 0 then return ids
    let k := o.arity.toNat
    let starts := (List.range ((ids.length + k - 1) / k)).map (· * k)
    starts.foldlM (fun ids i => do
      let group := (ids.drop i).take k
      let result ← o.applyOperator group
      pure (ids.take i ++ result ++ ids.drop (i + k))) ids) ids

/-- The elites' copies, when there are elites. -/
def eliteCopies (s : Subpopulation) : Run (List Nat) := do
  if s.elites > 0 then (Selection.mk (.elitism s.elites) s.higherIsBetter).select s.members []
  else pure []

/-- The selection that fills the next generation. -/
def firstSelection (s : Subpopulation) : Except Fault Selection :=
  match s.selections.head? with
  | some (sel, _) => pure sel
  | none => throw Fault.listIndex

/-- One generation of simple breeding. -/
def breed (s : Subpopulation) : Run Subpopulation := do
  Run.ofExcept s.checkArities
  let elites ← s.eliteCopies
  let selected ← (← Run.ofExcept s.firstSelection).select s.members elites
  let next ← applyOperators s.operators selected
  pure { s with individuals := some next }

/-- One generation of multi-objective breeding. -/
def breedFronts (s : Subpopulation) : Run Subpopulation := do
  let _ ← s.eliteCopies
  let old ← s.members.mapM Run.clone
  let changed ← applyOperators s.operators s.members
  let next := old ++ changed
  for id in next do Run.update id Individual.resetFitness
  let next ← (← Run.ofExcept s.firstSelection).select s.members next
  pure { s with individuals := some next }

end Subpopulation

namespace Population

/-- The single subpopulation of a population that simple evaluation takes. -/
def single (p : Population) : Except Fault Subpopulation :=
  match p.subpops with
  | [s] => pure s
  | ss => throw (Fault.value (s!"SimpleBreeder can only handle one subpopulation. " ++
      s!"                    Got: {ss.length}"))

/-- Keep a score as an individual's fitness. -/
def keepScore (id : Nat) (v : Value) : Run Unit :=
  Run.updateM id fun i => do pure { i with fitness := ← Run.ofExcept (i.fitness.setScore v) }

/-- The first individual that no later one is better than. -/
def bestOf (ids : List Nat) : Run Nat := do
  let some first := ids.head? | throw Fault.listIndex
  ids.tail.foldlM (fun b id => do if ← Run.better id (some b) then pure id else pure b) first

/-- Score every individual of the single subpopulation and give the best.
Through futures, each is scored and kept, and then the individual itself is
kept as its score. -/
def evaluate (p : Population) (futures : Bool) : Run Nat := do
  let s ← Run.ofExcept p.single
  let ids := s.members
  if futures then
    let results ← ids.mapM fun id => Run.attempt do
      let v ← Run.ofExcept (s.problem.score (← Run.get id))
      keepScore id v
    if let some e := results.findSome? fun r => match r with
        | .error e => some e
        | .ok _ => none then throw e
    for id in ids do
      let g := (← Run.get id).genome
      keepScore id (.object g.moduleName g.className id)
  else
    for id in ids do
      keepScore id (← Run.ofExcept (s.problem.score (← Run.get id)))
  bestOf ids

end Population

end Evolver
