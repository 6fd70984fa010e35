import Evolver.Evolution.Evolve
/-!
# Learners that evolve a tree

A learner wraps a simple run whose problem scores trees on a table.  Fitting
gives every subpopulation's problem the table and targets as its context,
runs the evolution (again, when fitted before: individuals already created
are kept, and the generation seeds go on from where they were), and marks the
learner fitted.  Predicting needs a fitted learner: a regressor gives the
output of the best tree of the run on the table; a classifier gives the
first subpopulation's problem the table, with no targets, as its context,
and gives the classes the best tree assigns.
-/

namespace Evolver
namespace Learn

/-- What a learner predicts: numbers or classes. -/
inductive Target where
  | regressor
  | classifier

/-- A learner: what it predicts and whether it has been fitted. -/
structure Learner where
  target : Target
  fitted : Bool

/-- The fault of predicting before fitting. -/
def notFitted : Fault := ⟨.notFitted, "not fitted"⟩

/-- The fault of an estimate that is not provided. -/
def notProvided : Fault := ⟨.notProvided, "not implemented yet"⟩

namespace Learner

/-- Give every subpopulation's problem a new context. -/
def setContext (table targets : Value) : Evolve Unit :=
  Evolve.change fun r => { r with population :=
    ⟨r.population.subpops.map fun s => { s with problem := s.problem.withContext table targets }⟩ }

/-- Fit the learner: set the context and run the evolution; the learner is
fitted once the run ends. -/
def fit (l : Learner) (table targets : Value) : Evolve Learner := do
  setContext table targets
  Evolve.evolve
  pure { l with fitted := true }

/-- The best tree of the run. -/
def bestTree : Evolve Tree := do
  let some best := (← Evolve.state).bestOfRun
    | throw (Fault.missingAttribute "'NoneType' object has no attribute 'execute'")
  match (← Evolve.lift (Run.get best)).genome with
  | .tree t => pure t
  | g => throw (Fault.missingAttribute s!"'{g.className}' object has no attribute 'root'")

/-- Predict on a table with the best tree of the run. -/
def predict (l : Learner) (table : Value) : Evolve Value := do
  unless l.fitted do throw notFitted
  match l.target with
  | .regressor => Evolve.ofExcept ((← bestTree).runTable table)
  | .classifier =>
    let r ← Evolve.state
    let some s := r.population.subpops.head? | throw Fault.listIndex
    let p := s.problem.withContext table .none
    Evolve.change fun r => { r with population := ⟨r.population.subpops.set 0 { s with problem := p }⟩ }
    match p with
    | .classification c _ _ => Evolve.ofExcept (c.classify (← bestTree) table)
    | _ => throw (Fault.missingAttribute s!"'{p.className}' object has no attribute 'classify_individual'")

end Learner

end Learn
end Evolver
