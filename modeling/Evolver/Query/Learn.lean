import Evolver.Query.Tree
import Evolver.Learn.Classify
import Evolver.Learn.Metric
import Evolver.Learn.Estimator
import Evolver.Query.Evolve
/-!
# Queries scoring a tree on a table

`sklearn` builds a learner around a simple run of trees and takes it through
steps: fitting, predicting, and reading or changing its settings.

`classify` gives the classes a tree assigns to the rows of a table and, when
the true classes are given, the accuracy; `regress` gives the mean absolute
error of the tree's output against the targets.  The tree reads column `i`
of the table as the variable `x{i}`.
-/

namespace Evolver
namespace Query

/-- A table or a column of a request, as an array. -/
def tableOf (j : Json) : Except Fault Value := do
  Value.arrayOf (← Value.ofJson j) none

/-- `{"op": "classify", "clf_method", "n_classes", "X", "y", "tree"}`. -/
def classifyQuery (q : Json) : Draw Json := do
  let rule ← Draw.ofExcept (Learn.Rule.ofName ((q.getD "clf_method").str?.getD "sigmoid"))
  let c : Learn.Classifier := ⟨rule, getIntD q "n_classes" 2⟩
  let table ← Draw.ofExcept (tableOf (q.getD "X"))
  let t ← treeOf (q.getD "tree")
  let classes ← Draw.ofExcept (c.classify t table)
  match q.get? "y" with
  | some y =>
    let truth ← Draw.ofExcept (tableOf y)
    let fitness ← Draw.ofExcept (Learn.accuracy truth (← Draw.ofExcept (c.classify t table)))
    pure (.obj [("classes", classes.toJson), ("fitness", fitness.toJson)])
  | none => pure (.obj [("classes", classes.toJson)])

/-- `{"op": "regress", "X", "y", "tree"}`. -/
def regressQuery (q : Json) : Draw Json := do
  let table ← Draw.ofExcept (tableOf (q.getD "X"))
  let truth ← Draw.ofExcept (tableOf (q.getD "y"))
  let t ← treeOf (q.getD "tree")
  let fitness ← Draw.ofExcept (Learn.meanAbsoluteError truth (← Draw.ofExcept (t.runTable table)))
  pure (.obj [("fitness", fitness.toJson)])

/-- The learner of a request and its run, not yet fitted. -/
def learnerOf (q : Json) : Run (Learn.Learner × Evolution) := do
  let target ← match q.getD "kind" with
    | .str "regressor" => pure Learn.Target.regressor
    | .str "classifier" => pure .classifier
    | _ => throw (Fault.request "unknown learner kind")
  let problem ← match target with
    | .regressor => pure (Problem.regression .none .none)
    | .classifier => do
      let rule ← Run.ofExcept (Learn.Rule.ofName ((q.getD "clf_method").str?.getD "sigmoid"))
      pure (.classification ⟨rule, getIntD q "n_classes" 2⟩ .none .none)
  let creator ← Run.draw (creatorOf (q.getD "creator"))
  let ops ← match ← Run.ofExcept (operatorsOf (q.getD "operators")) with
    | some ops => pure ops
    | none => Run.ofExcept do
      pure [← Operator.build "SubtreeCrossover" [("probability", .float 0.8)],
        ← Operator.build "SubtreeMutation" [("probability", .float 0.2)]]
  let hib ← Run.ofExcept (valueD q "higher_is_better" (.bool false))
  let selection : Selection := ⟨.tournament (getIntD q "tournament_size" 3) (.bool true), hib⟩
  let s ← Run.ofExcept (Subpopulation.make problem (.one creator) none (some ops)
    (some [(selection, .int 1)]) (.float 0.0) (getIntD q "population_size" 8) hib)
  let r ← Run.ofExcept (Evolution.simple .simple (.simple false) (.one s) .nothing none
    (getIntD q "max_generation" 2) (getIntD q "seed" 0) defaultEventNames "thread")
  pure (⟨target, false⟩, r)

/-- Change the run's settings that a learner's parameters name. -/
def setParameter (r : Evolution) (k : String) (v : Json) : Evolution :=
  match k, v with
  | "max_generation", .int n => { r with maxGeneration := n }
  | "random_seed", .int n => { r with seed := n }
  | "generation_seed", .int n => { r with generationSeed := n }
  | "generation_num", .int n => { r with generation := n.toNat }
  | _, _ => r

/-- One step on a learner: its answer, and the learner after. -/
def learnerStep (l : Learn.Learner) (step : Json) : Evolve (Json × Learn.Learner) := do
  let table (k : String) : Evolve Value := Evolve.ofExcept do
    Value.arrayOf (← Value.ofJson (step.getD k)) (some (.float 64))
  let action := (step.getD "do").str?.getD ""
  match action with
  | "fit" =>
    let x ← table "X"
    let y ← Evolve.ofExcept (tableOf (step.getD "y"))
    let l ← l.fit x y
    let t ← Learn.Learner.bestTree
    let some best := (← Evolve.state).bestOfRun | throw Fault.listIndex
    let score ← Evolve.lift do Run.ofExcept (← Run.get best).pureFitness
    pure (.obj [("same", .bool true), ("best", nodesJson t.nodes), ("best_fitness", score.toJson)], l)
  | "predict" => pure ((← l.predict (← table "X")).toJson, l)
  | "predict_proba" | "predict_log_proba" =>
    match l.target with
    | .classifier => throw Learn.notProvided
    | .regressor => throw (Fault.missingAttribute
        s!"'SKRegressor' object has no attribute '{action}'")
  | "partial_fit" => throw Learn.notProvided
  | "get_params" | "state" => pure (.arr [.str "algorithm"], l)
  | "set_params" =>
    let ps := match step.getD "params" with
      | .obj kvs => kvs
      | _ => []
    Evolve.change fun r => ps.foldl (fun r (k, v) => setParameter r k v) r
    pure (.obj ps, l)
  | other => throw (Fault.request s!"unknown step {other}")

/-- `{"op": "sklearn", "kind", "creator", ..., "steps"}`. -/
def learnerQuery (q : Json) : Run Json := do
  let (l, r) ← learnerOf q
  let w : World := ⟨← get, r, [], [], false⟩
  let (_, w, answers) := ((q.getD "steps").arr?.getD []).foldl
    (fun (acc : Learn.Learner × World × List Json) step =>
      let (l, w, answers) := acc
      match (learnerStep l step).run w with
      | .ok (j, l) w => (l, w, answers ++ [stepJson (.ok j)])
      | .error e w => (l, w, answers ++ [faultJson e])) (l, w, [])
  set w.store
  pure (.obj [("steps", .arr answers)])

end Query
end Evolver
