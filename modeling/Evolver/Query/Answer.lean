import Evolver.Query.Primitive
import Evolver.Query.Fitness
import Evolver.Query.Pareto
import Evolver.Query.Individual
import Evolver.Query.Select
import Evolver.Query.Population
import Evolver.Query.Termination
import Evolver.Query.Evolve
import Evolver.Query.Package
import Evolver.Query.Interface
import Evolver.Query.Publisher
import Evolver.Query.Learn
import Evolver.Query.Benchmark
import Evolver.Json.Read
import Evolver.Json.Write
/-!
# Answering a query

`answer` reads one query, runs the operation it names and gives the answer;
`answerLine` does the same from and to JSON text.
-/

namespace Evolver
namespace Query

/-- The answer of a computation over a fresh request state. -/
def answerDraw (x : Draw Json) : Json :=
  match x.run Lab.start with
  | .ok j _ => j
  | .error e _ => faultJson e

/-- The answer of a computation over a fresh store. -/
def answerRun (x : Run Json) : Json :=
  match x.run Store.start with
  | .ok j _ => j
  | .error e _ => faultJson e

/-- The answer to a query. -/
def answer (q : Json) : Json :=
  match q.get? "op" with
  | some (.str "prim") => answerOf (prim q)
  | some (.str "func_info") => answerOf (funcInfo q)
  | some (.str "function_node") => answerOf (functionNode q)
  | some (.str "tree") => answerDraw (treeQuery q)
  | some (.str "terminal_set") => answerOf (terminalSetQuery q)
  | some (.str "vector") => answerDraw (vectorQuery q)
  | some (.str "kpoint_swap") => answerOf (kpointSwapQuery q)
  | some (.str "create") => answerRun (createQuery q)
  | some (.str "fitness") => answerDraw (fitnessQuery q)
  | some (.str "front_sort") => answerRun (frontSortQuery q)
  | some (.str "operator") => answerRun (operatorQuery q)
  | some (.str "select") => answerRun (selectQuery q)
  | some (.str "population") => answerRun (populationQuery q)
  | some (.str "subpop") => answerRun (subpopQuery q)
  | some (.str "termination") => answerRun (terminationQuery q)
  | some (.str "base_method") => answerOf (baseMethodQuery q)
  | some (.str "publisher") => answerRun (publisherQuery q)
  | some (.str "sklearn") => answerRun (learnerQuery q)
  | some (.str "classify") => answerDraw (classifyQuery q)
  | some (.str "regress") => answerDraw (regressQuery q)
  | some (.str "setup") => answerOf (setupQuery q)
  | some (.str "evolve") => answerRun (evolveQuery q)
  | some (.str "nsga2_evolve") => answerRun (frontEvolveQuery q)
  | some (.str "microbench") => answerOf (benchmarkQuery q)
  | some (.str op) => faultJson (Fault.request s!"unknown op {op}")
  | _ => faultJson (Fault.request "missing op")

/-- The answer to a query given as JSON text, as JSON text. -/
def answerLine (line : String) : String :=
  match Json.parse? line with
  | some q => (answer q).render
  | none => (faultJson (Fault.request "bad json")).render

end Query
end Evolver
