import Evolver.Query.Termination
import Evolver.Evolution.Setup
import Evolver.Evolution.Evolve
import Evolver.Json.Write
/-!
# Queries running whole evolutions

`evolve` runs a simple evolution on a subpopulation of a request and reports
each generation's best scores, the best individual of the run, the final
population, the statistics written, and on request the events published and
further facts of the run.  A failure anywhere is the whole answer.

`nsga2_evolve` runs a multi-objective evolution of chromosomes and reports
order-free facts: the sorted scores and ranks of the population, the sorted
scores of the first front, the best individual chosen at the start, the
number of statistics lines and whether the plot was drawn.  A failure adds
its fields to what the run reached.
-/

namespace Evolver
namespace Query

/-- The problem of a simple run request: a weighted sum by default. -/
def problemOf (j : Json) : Except Fault Problem := do
  match j.getD "kind" with
  | .str "mae" =>
    let vars ← match j.getD "vars" with
      | .obj kvs => kvs.mapM fun (k, v) => do
        pure (k, ← Value.arrayOf (← Value.ofJson v) (some (.float 64)))
      | _ => pure []
    pure (.meanError vars (← Value.ofJson (j.getD "target")))
  | _ => match j.get? "weights" with
    | some w => pure (.weightedSum (some (← valuesOf w)))
    | none => pure (.weightedSum none)

/-- The statistic of a name. -/
def statisticOf (name : String) : Except Fault Statistic :=
  if name == "baw" then pure .bestAverageWorst
  else if name == "baws" then pure .bestAverageWorstSize
  else if name == "minimal" then pure .minimal
  else throw (Fault.request s!"unknown statistics {name}")

/-- The statistics a simple run request gives. -/
def statisticsGiven (j : Json) : Except Fault StatisticsGiven := do
  match j with
  | .null => pure .nothing
  | .str "single" => pure (.one .bestAverageWorst)
  | .str "badlist" => pure (.many [.inl .bestAverageWorst, .inr (.int 3)])
  | .str "bogus" => pure (.other (.int 3))
  | .str name => pure (.many [.inl (← statisticOf name)])
  | _ => throw (Fault.request "bad statistics")

/-- The checkers of a request: none when missing, one, or a list. -/
def checkersOf (j : Json) : Except Fault (Option (List Checker)) := do
  match j with
  | .null => pure none
  | .arr xs => some <$> xs.mapM checkerOf
  | j => pure (some [← checkerOf j])

/-- The population a simple run request gives, around its subpopulation. -/
def populationGiven (wrap : String) (s : Subpopulation) : Except Fault PopulationGiven :=
  if wrap == "subpop" then pure (.one s)
  else if wrap == "list" then pure (.many [some s])
  else if wrap == "population" then pure (.population ⟨[s]⟩)
  else if wrap == "pair" then pure (.many [some s, some s])
  else if wrap == "empty" then pure (.many [])
  else if wrap == "none" then pure .nothing
  else if wrap == "badlist" then pure (.many [some s, none])
  else if wrap == "int" then pure (.other (.int 3))
  else throw (Fault.request s!"unknown wrap {wrap}")

/-- The event names of a request, none when missing. -/
def eventNamesOf (j : Json) : Option (List String) :=
  match j with
  | .arr xs => some (xs.filterMap Json.str?)
  | _ => none

/-- The default events of a run: around scoring and around breeding. -/
def defaultEventNames : List String := ["before_eval", "after_eval", "before_breeding", "after_breeding"]

/-- Register the listeners of a request: the generation records, then a
recorder on every event but `after_generation` when events are recorded. -/
def listen (record : Bool) : Evolve Unit := do
  let _ ← Evolve.register "after_generation" .generations
  if record then
    for name in (← Evolve.state).events.names do
      if name != "after_generation" then
        let _ ← Evolve.register name .recorder

/-- A score, or null when there is none. -/
def scoreJson : Option Value → Json
  | some v => v.toJson
  | none => .null

/-- The individuals of a population as answers show them: trees by their
sizes, chromosomes with their identities and genes. -/
def populationFields (ids : List Nat) : Run (List (String × Json)) := do
  let inds ← ids.mapM Run.get
  match inds.head? with
  | some { genome := .tree _, .. } => pure [("population_sizes", .arr (inds.map fun i => .int i.size))]
  | _ => pure [("population", .arr (inds.map fun i => .obj ([("id", .int i.id)] ++ genomeFields i.genome)))]

/-- The further facts of a finished simple run. -/
def extrasJson (r : Evolution) : Evolve Json := do
  let some s := r.population.subpops.head? | throw Fault.listIndex
  let averages ← Evolve.lift (r.population.subpops.mapM Subpopulation.average)
  let some first := s.members.head? | throw Fault.listIndex
  let applied ← Evolve.lift do
    let v ← Run.ofExcept (s.problem.score (← Run.get first))
    Population.keepScore first v
    Run.ofExcept (← Run.get first).pureFitness
  let foreign ← Evolve.lift (Run.draw Draw.freshId)
  let registered ← Evolve.register "after_generation" .idle
  let keys (ks : List String) : Json := .arr (ks.map .str)
  pure (.obj [("average_fitness", .arr (averages.map Value.toJson)),
    ("individual_evaluator", .str s.problem.className),
    ("init_data", keys (r.algorithm.dataKeys "init")),
    ("other_data", keys (r.algorithm.dataKeys "after_generation")),
    ("breeder_data", keys Evolution.breederDataKeys),
    ("state_keys", keys Evolution.stateKeys),
    ("executor_after_setstate", .str r.executor.className),
    ("evaluator_apply", applied.toJson),
    ("contains_foreign", .bool (s.members.contains foreign)),
    ("registered_id", .int registered)])

/-- The answer of a finished simple run. -/
def simpleAnswer (q : Json) : Evolve Json := do
  let w ← get
  let r := w.run
  let some best := r.bestOfRun | throw Fault.listIndex
  let b ← Evolve.lift (Run.get best)
  let bestScore ← Evolve.lift (Run.ofExcept b.pureFitness)
  let generations := w.generations.map fun g =>
    Json.obj [("gen", .int g.gen), ("best_of_run", g.bestOfRun.toJson), ("best_of_gen", scoreJson g.bestOfGen)]
  let some s := r.population.subpops.head? | throw Fault.listIndex
  let pop ← Evolve.lift (populationFields s.members)
  let statistics := if q.has "statistics" && !(q.getD "statistics").isNull then
      [("statistics", Json.arr (w.store.written.map .str))] else []
  let text ← match b.genome with
    | .tree t => do pure [("best_str", Json.str (← Evolve.lift (Run.ofExcept (t.text b.id))))]
    | _ => pure []
  let execute ← match q.get? "execute", b.genome with
    | some (.obj kvs), .tree t => do
      let vars ← Evolve.lift (Run.ofExcept (kvs.mapM fun (k, v) => do pure (k, ← Value.ofJson v)))
      pure [("execute", (← Evolve.lift (Run.ofExcept (t.run vars))).toJson)]
    | some _, .chromosome c => pure [("execute", genesJson c.genes)]
    | _, _ => pure []
  let events := if getBoolD q "record_events" false then
      [("events", Json.arr (w.published.map fun (e, ks) => .arr [.str e, .arr (ks.map .str)]))]
    else []
  let extras ← if getBoolD q "extras" false then do pure [("extras", ← extrasJson r)] else pure []
  pure (.obj ([("generations", .arr generations),
    ("final_generation", match r.finalGeneration with
      | some g => .int g
      | none => .null),
    ("best", .obj ([("id", .int b.id)] ++ genomeFields b.genome)),
    ("best_fitness", bestScore.toJson)] ++ pop ++ statistics ++ text ++ execute ++ events ++ extras))

/-- The simple run of a request. -/
def simpleRunOf (q : Json) : Run Evolution := do
  let problem ← Run.ofExcept (problemOf (q.getD "evaluator"))
  let s ← subpopulationOf q problem
  let given ← Run.ofExcept (populationGiven ((q.getD "wrap").str?.getD "subpop") s)
  let stats ← Run.ofExcept (statisticsGiven (q.getD "statistics"))
  let checkers ← Run.ofExcept (checkersOf (q.getD "termination"))
  let breeder : BreederGiven := match q.getD "breeder" with
    | .str "bogus" => .other (.int 3)
    | _ => .simple
  let evaluator ← match q.getD "population_evaluator" with
    | .str "bogus" => pure (.other (.int 3))
    | _ => Run.ofExcept (EvaluatorGiven.ofMethod ((q.getD "executor_method").str?.getD "map"))
  Run.ofExcept (Evolution.simple breeder evaluator given stats checkers (getIntD q "max_generation" 500)
    (getIntD q "seed" 0) ((eventNamesOf (q.getD "event_names")).getD defaultEventNames)
    ((q.getD "executor").str?.getD "thread"))

/-- `{"op": "evolve", ...}`: a whole simple run. -/
def evolveQuery (q : Json) : Run Json := do
  let r ← simpleRunOf q
  let go : Evolve Json := do
    listen (getBoolD q "record_events" false)
    if (q.getD "via").str? == some "act" then Evolve.act else Evolve.evolve
    simpleAnswer q
  let w : World := ⟨← get, r, [], [], false⟩
  match go.run w with
  | .ok j w => set w.store; pure j
  | .error e w => set w.store; throw e

/-- An objective of a request: `w` weights or a `c` centre. -/
def objectiveOf (j : Json) : Except Fault Objective := do
  match j.get? "w", j.get? "c" with
  | some w, _ => pure (.weighted (← valuesOf w))
  | _, some c => pure (.distance (← valuesOf c))
  | _, _ => throw (Fault.request "bad objective")

/-- The checkers of a multi-objective request: none, the default threshold,
or a crowding threshold. -/
def frontCheckersOf (j : Json) : Except Fault (Option (List Checker)) := do
  match j with
  | .null | .str "none" => pure none
  | .str "default" => pure (some [.threshold (.float 0.0) (.float 0.0)])
  | j => pure (some [.crowding (← Value.ofJson j)])

/-- The multi-objective run of a request. -/
def frontRunOf (q : Json) : Run Evolution := do
  let objectives ← Run.ofExcept (((q.getD "objectives").arr?.getD []).mapM objectiveOf)
  let a ← Run.ofExcept (alphabetOf (match q.get? "kind" with
    | some k => k
    | none => .str "float"))
  let bounds ← match q.get? "bounds" with
    | some b => Run.ofExcept (boundsOf b)
    | none => pure (.tuple [.float 0.0, .float 1.0])
  let creator : Creator := .chromosomes a (getIntD q "length" 3) bounds .ranked false
  let ops ← Run.ofExcept (operatorsOf (q.getD "operators"))
  let hib ← Run.ofExcept (valueD q "higher_is_better" (.bool false))
  let selection : Selection := ⟨.tournament (getIntD q "tournament_size" 2) (.bool true), hib⟩
  let rate ← Run.ofExcept (valueD q "elitism_rate" (.float 0.0))
  let s ← Run.ofExcept (Subpopulation.make (.objectives objectives) (.one creator) none
    (some (ops.getD [])) (some [(selection, .int 1)]) rate (getIntD q "population_size" 8) hib)
  let stats : StatisticsGiven := if getBoolD q "statistics" false then .one .fronts else .nothing
  let checkers ← Run.ofExcept (frontCheckersOf (q.getD "termination"))
  Run.ofExcept (Evolution.nsga2 (.one s) stats checkers (getIntD q "max_generation" 1)
    (getIntD q "seed" 0) ((eventNamesOf (q.getD "event_names")).getD defaultEventNames) "thread")

/-- The score of an individual, or null when it has none. -/
def scoreOrNull (id : Nat) : Run Json := do
  match (← Run.get id).pureFitness with
  | .ok v => pure v.toJson
  | .error _ => pure .null

/-- The facts of a multi-objective run, finished or stopped by a failure. -/
def frontFacts (q : Json) (w : World) : Run (List (String × Json)) := do
  let r := w.run
  let members := (r.population.subpops.head?.map Subpopulation.members).getD []
  let entries ← members.mapM fun id => do
    let f := (← Run.get id).fitness
    pure (Json.arr [← scoreOrNull id, (f.frontRank.getD .none).toJson])
  let sorted := (entries.map fun e => (e.render, e)).mergeSort fun a b => decide (a.1 ≤ b.1)
  let best ← match r.bestOfRun with
    | some b => scoreOrNull b
    | none => pure .null
  let execute ← match r.bestOfRun with
    | some b => do
      match (← Run.get b).genome with
      | .chromosome c => pure (genesJson c.genes)
      | .tree _ => pure .null
    | none => pure .null
  let front ← match r.fronts with
    | some (f :: _) => do
      let scores ← f.mapM fun id => do Run.ofExcept (← Run.get id).pureFitness
      let ordered ← Run.ofExcept (sortBy (Value.compare .lt) scores)
      pure [("front1", Json.arr (ordered.map Value.toJson))]
    | _ => pure []
  let lines := w.store.written.foldl (fun n m => n + (m.toList.filter (· == '\n')).length + 1) 0
  let keys (ks : List String) : Json := .arr (ks.map .str)
  pure ([("population", .arr (sorted.map (·.2))),
    ("final_generation", match r.finalGeneration with
      | some g => .int g
      | none => .null),
    ("best_of_run", best), ("execute", execute)] ++ front ++
    (if getBoolD q "statistics" false then [("statistics_lines", .int lines)] else []) ++
    (if getBoolD q "plot" false then [("plotted", .bool w.plotted)] else []) ++
    [("init_data", keys (r.algorithm.dataKeys "init")),
     ("other_data", keys (r.algorithm.dataKeys "after_generation"))])

/-- `{"op": "nsga2_evolve", ...}`: a whole multi-objective run. -/
def frontEvolveQuery (q : Json) : Run Json := do
  let r ← frontRunOf q
  let go : Evolve Unit := do
    if getBoolD q "plot" false then
      let _ ← Evolve.register "after_generation" .plot
    Evolve.evolve
  let w : World := ⟨← get, r, [], [], false⟩
  let (outcome, w) := match go.run w with
    | .ok _ w => ((none : Option Fault), w)
    | .error e w => (some e, w)
  set w.store
  let facts ← frontFacts q w
  match outcome with
  | none => pure (.obj facts)
  | some e => pure (.obj (facts ++ faultFields e))

end Query
end Evolver
