import Evolver.Individual
import Evolver.Tree.Execute
import Evolver.Value.Arith
import Evolver.Value.Mean
import Evolver.Learn.Classify
import Evolver.Learn.Metric
/-!
# Problems: how an individual is scored

* `weightedSum`: the sum of a vector's genes, each times its weight when
  weights are given, added one after another from the integer zero;
* `meanError`: the mean absolute difference between a tree's output on the
  inputs and the target, as a double;
* `objectives`: one score per objective, each a double: a weighted sum of
  the genes, or the squared distance of the genes to a centre;
* `regression`: the mean absolute error of a tree's output on a table against
  the targets;
* `classification`: the accuracy of the classes a tree gives the rows of a
  table against the true classes.

The table and targets of the last two are the problem's context, which a
learner sets before each use.
-/

namespace Evolver

/-- One objective of a multi-objective problem. -/
inductive Objective where
  /-- the sum of the genes times the weights -/
  | weighted (w : List Value)
  /-- the sum of the squared differences of the genes to the centre -/
  | distance (c : List Value)

/-- How the individuals of a run are scored. -/
inductive Problem where
  | weightedSum (weights : Option (List Value))
  | meanError (inputs : List (String × Value)) (target : Value)
  | objectives (os : List Objective)
  | regression (table targets : Value)
  | classification (c : Learn.Classifier) (table truth : Value)

/-- The sum of values, one after another from the integer zero. -/
def Value.total (vs : List Value) : Except Fault Value :=
  vs.foldlM (Value.arith .add) (.int 0)

/-- The genes of a vector individual. -/
def Individual.genes (i : Individual) : Except Fault (List Value) :=
  match i.genome with
  | .chromosome c => pure c.genes
  | g => throw (Fault.missingAttribute s!"'{g.className}' object has no attribute 'vector'")

/-- The score of one objective on genes. -/
def Objective.score (o : Objective) (genes : List Value) : Except Fault Value := do
  match o with
  | .weighted w => Value.toDouble (← Value.total (← (w.zip genes).mapM fun (a, x) => Value.arith .mul a x))
  | .distance c =>
    let squares ← (genes.zip c).mapM fun (x, m) => do
      let d ← Value.arith .sub x m
      Value.arith .mul d d
    Value.toDouble (← Value.total squares)

namespace Problem

/-- The class name of the problem's evaluator. -/
def className : Problem → String
  | .weightedSum _ => "_VecWeighted"
  | .meanError _ _ => "_TreeMAE"
  | .objectives _ => "_MultiObjective"
  | .regression .. => "RegressionEvaluator"
  | .classification .. => "ClassificationEvaluator"

/-- The problem with a new context: a table and its targets. -/
def withContext (p : Problem) (table targets : Value) : Problem :=
  match p with
  | .regression .. => .regression table targets
  | .classification c .. => .classification c table targets
  | p => p

/-- The score of an individual. -/
def score (p : Problem) (i : Individual) : Except Fault Value := do
  match p with
  | .weightedSum none => Value.total (← i.genes)
  | .weightedSum (some w) => Value.total (← (w.zip (← i.genes)).mapM fun (a, x) => Value.arith .mul a x)
  | .meanError inputs target =>
    match i.genome with
    | .tree t =>
      let out ← t.run inputs
      let diff ← Numeric.Binary.subtract.apply out target
      Value.toDouble (← (← Numeric.Unary.absolute.apply diff).mean)
    | g => throw (Fault.missingAttribute s!"'{g.className}' object has no attribute 'execute'")
  | .objectives os =>
    let genes ← i.genes
    pure (.list (← os.mapM fun o => o.score genes))
  | .regression table targets =>
    match i.genome with
    | .tree t => Learn.meanAbsoluteError targets (← t.runTable table)
    | g => throw (Fault.missingAttribute s!"'{g.className}' object has no attribute 'execute'")
  | .classification c table truth =>
    match i.genome with
    | .tree t => Learn.accuracy truth (← c.classify t table)
    | g => throw (Fault.missingAttribute s!"'{g.className}' object has no attribute 'execute'")

end Problem

end Evolver
