import Evolver.Evolution.Statistics
import Evolver.Evolution.Termination
import Evolver.Publisher
/-!
# The state of an evolutionary run

An `Evolution` is a run in progress: its algorithm, population, statistics,
checkers, seeds, the best individuals found so far, and its events with
their listeners.  A `World` adds the store of individuals and what the
listeners recorded; `Evolve` is a computation over a world that may fail,
keeping the world it reached, so that a failed run still shows its
population and its best individual.

Events are kept in the order they were declared, each with its listeners in
the order they registered; every registration takes the next number.
Publishing an event calls its listeners in that order.
-/

namespace Evolver

/-- The algorithm of a run. -/
inductive Algorithm where
  /-- one score: the best individual of the run is kept -/
  | simple
  /-- several objectives: survivors by non-dominated sorting, and the first
  fronts of each generation kept -/
  | nsga2

namespace Algorithm

/-- The names of the settings every algorithm gives on `init`, sorted; on
other events an algorithm as such gives nothing. -/
def settingKeys : List String :=
  ["breeder", "events", "max_generation", "max_workers", "population", "statistics",
   "termination_checker"]

/-- The names of the data an event of the run carries, sorted: the settings
on `init` (with the generation for a simple run), and the population, the
generation and the best individuals on any other event. -/
def dataKeys (a : Algorithm) (event : String) : List String :=
  if event == "init" then
    match a with
    | .simple => ["breeder", "events", "generation_num", "max_generation", "max_workers",
        "population", "statistics", "termination_checker"]
    | .nsga2 => settingKeys
  else ["best_of_gen", "best_of_run_", "generation_num", "population"]

end Algorithm

/-- Who listens to an event of a run. -/
inductive Listener where
  /-- records the generation with the scores of the best individuals -/
  | generations
  /-- records the event's name and the names of its data -/
  | recorder
  /-- draws the two scores of every individual when there are two -/
  | plot
  /-- writes a statistic -/
  | statistic (s : Statistic)
  /-- does nothing -/
  | idle

/-- The pool that scores individuals: threads or processes. -/
inductive Executor where
  | threads
  | processes

/-- The class name of the pool. -/
def Executor.className : Executor → String
  | .threads => "ThreadPoolExecutor"
  | .processes => "ProcessPoolExecutor"

/-- A generation as recorded after it: its number and the scores of the best
individual of the run and of the generation, if there is one. -/
structure GenerationRecord where
  gen : Nat
  bestOfRun : Value
  bestOfGen : Option Value

/-- A run in progress. -/
structure Evolution where
  algorithm : Algorithm
  population : Population
  statistics : List Statistic
  /-- the checkers; none when the run has no checker -/
  checkers : Option (List Checker)
  maxGeneration : Int
  seed : Int
  generationSeed : Int
  generation : Nat
  bestOfRun : Option Nat
  bestOfGen : Option Nat
  /-- the first front of each subpopulation, after a multi-objective
  generation -/
  fronts : Option (List (List Nat))
  worstOfGen : Option Nat
  /-- the generation a checker stopped the run at -/
  finalGeneration : Option Nat
  /-- whether the scores are gathered through futures -/
  futures : Bool
  executor : Executor
  /-- the events by name, each with its listeners by number -/
  events : Publisher Listener

/-- The events of a run: the names given, then the run's own and those
around acting. -/
def Evolution.eventsOf (names : List String) : Publisher Listener :=
  Publisher.declare (names ++ ["init", "evolution_finished", "after_generation", "before_operator",
    "after_operator"])

/-- A run with what its listeners recorded and the store of individuals. -/
structure World where
  store : Store
  run : Evolution
  generations : List GenerationRecord
  /-- each published event with the names of its data -/
  published : List (String × List String)
  plotted : Bool

/-- A computation over a run that may fail, keeping the run it reached. -/
abbrev Evolve := EStateM Fault World

namespace Evolve

/-- A computation over the store, run in the world. -/
def lift {α : Type} (x : Run α) : Evolve α := fun w =>
  match x w.store with
  | .ok a s => .ok a { w with store := s }
  | .error e s => .error e { w with store := s }

/-- A result that may be a failure. -/
def ofExcept {α : Type} : Except Fault α → Evolve α
  | .ok a => pure a
  | .error e => throw e

/-- The run. -/
def state : Evolve Evolution := do pure (← get).run

/-- Change the run. -/
def change (f : Evolution → Evolution) : Evolve Unit :=
  modify fun w => { w with run := f w.run }

/-- Add a listener to an event; its number. -/
def register (event : String) (l : Listener) : Evolve Nat := do
  let (id, p) ← ofExcept ((← state).events.register event l)
  change fun r => { r with events := p }
  pure id

/-- The score of an individual, none when there is no individual. -/
def scoreOf (id : Option Nat) : Evolve (Option Value) :=
  match id with
  | none => pure none
  | some id => lift do pure (some (← Run.ofExcept (← Run.get id).pureFitness))

/-- Draw the scores of the first subpopulation: it needs a first individual,
whose raw score has a length; with two objectives every individual's two
scores are read. -/
def plotScores : Evolve Unit := do
  let p := (← state).population
  let some s := p.subpops.head? | throw Fault.listIndex
  let some first := s.members.head? | throw Fault.listIndex
  let width ← lift do
    match (← Run.get first).fitness.score with
    | .list xs | .tuple xs => pure xs.length
    | v => throw (Fault.type s!"object of type '{v.className}' has no len()")
  if width == 2 then
    for s in p.subpops do
      for k in [0, 1] do
        for id in s.members do
          lift do
            match (← Run.get id).fitness.score with
            | .list xs | .tuple xs => if xs.length ≤ k then throw Fault.listIndex
            | v => throw (Fault.type s!"'{v.className}' object is not subscriptable")
  modify fun w => { w with plotted := true }

/-- Call a listener on an event. -/
def call (event : String) (l : Listener) : Evolve Unit := do
  let r ← state
  match l with
  | .generations =>
    let some best ← scoreOf r.bestOfRun
      | throw (Fault.missingAttribute "'NoneType' object has no attribute 'get_pure_fitness'")
    let gen ← scoreOf r.bestOfGen
    modify fun w => { w with generations := w.generations ++ [⟨r.generation, best, gen⟩] }
  | .recorder =>
    modify fun w => { w with published := w.published ++ [(event, r.algorithm.dataKeys event)] }
  | .plot => plotScores
  | .statistic s => lift (s.write r.generation r.population)
  | .idle => pure ()

/-- Publish an event: call its listeners in turn. -/
def publish (event : String) : Evolve Unit := do
  let ls ← ofExcept ((← state).events.listeners event)
  for (_, l) in ls do call event l

end Evolve

end Evolver
