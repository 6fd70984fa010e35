import Evolver.Evolution.World
/-!
# Setting up a run

A run is set up from what it is given, checked in this order:

1. a simple run takes the simple breeder and the simple population
   evaluator only;
2. the population: a population, one subpopulation, or a non-empty list of
   subpopulations;
3. the statistics: one statistic, or a list of statistics only;
4. the pool that scores individuals: threads or processes.

A run starts at generation zero with its generation seed equal to its seed,
no best individuals, no final generation, and its events declared without
listeners.
-/

namespace Evolver

/-- The breeder a run is given: the simple breeder, or another value. -/
inductive BreederGiven where
  | simple
  | other (v : Value)

/-- The population evaluator a run is given: the simple one, gathering the
scores through futures or not, or another value. -/
inductive EvaluatorGiven where
  | simple (futures : Bool)
  | other (v : Value)

/-- The simple evaluator with its way of gathering scores: `map` or
`submit`. -/
def EvaluatorGiven.ofMethod (m : String) : Except Fault EvaluatorGiven :=
  if m == "map" then pure (.simple false)
  else if m == "submit" then pure (.simple true)
  else throw (Fault.value ("executor_method must be either \"map\" or \"submit\", got " ++ m))

/-- The statistics a run is given. -/
inductive StatisticsGiven where
  | nothing
  | one (s : Statistic)
  /-- a list; an entry is a statistic or another value -/
  | many (xs : List (Sum Statistic Value))
  | other (v : Value)

/-- The statistics of what a run is given. -/
def StatisticsGiven.check : StatisticsGiven → Except Fault (List Statistic)
  | .nothing => pure []
  | .one s => pure [s]
  | .many xs => xs.mapM fun x => match x with
    | .inl s => pure s
    | .inr v => throw (Fault.value ("('Expected a Statistics instance as an element in " ++
        s!"Statistics list, but received', {v.classText})"))
  | .other v => throw (Fault.value ("('Parameter statistics must be either a subclass of " ++
      "Statistics or a list of subclasses of Statistics.\\nreceived statistics with " ++
      s!"unexpected type of', {v.classText})"))

/-- The pool of a name: `thread` or `process`. -/
def Executor.ofName (name : String) : Except Fault Executor :=
  if name == "thread" then pure .threads
  else if name == "process" then pure .processes
  else throw (Fault.value "Executor must be either \"thread\" or \"process\"")

namespace Evolution

/-- The seed of a run given none, from a reading of the clock in seconds: the
digits of the reading's text without its point, as a number, modulo
`2^32`. -/
def clockSeed (t : Float) : Int :=
  let digits := (Value.floatText t).toList.filter Char.isDigit
  (digits.foldl (fun n c => n * 10 + (c.toNat - '0'.toNat)) 0 : Nat) % Nat.pow 2 32

/-- A run of an algorithm, once its breeder and evaluator are accepted. -/
def make (a : Algorithm) (population : PopulationGiven) (statistics : StatisticsGiven)
    (futures : Bool) (checkers : Option (List Checker)) (maxGeneration seed : Int)
    (eventNames : List String) (executor : String) : Except Fault Evolution := do
  let p ← Population.ofGiven population
  let stats ← statistics.check
  let ex ← Executor.ofName executor
  let start : Evolution := {
    algorithm := a
    population := p
    statistics := stats
    checkers := checkers
    maxGeneration := maxGeneration
    seed := seed
    generationSeed := seed
    generation := 0
    bestOfRun := none
    bestOfGen := none
    fronts := none
    worstOfGen := none
    finalGeneration := none
    futures := futures
    executor := ex
    events := eventsOf eventNames }
  pure start

/-- A simple run: the breeder and the evaluator must be the simple ones. -/
def simple (breeder : BreederGiven) (evaluator : EvaluatorGiven) (population : PopulationGiven)
    (statistics : StatisticsGiven) (checkers : Option (List Checker)) (maxGeneration seed : Int)
    (eventNames : List String) (executor : String) : Except Fault Evolution := do
  if let .other v := breeder then
    throw (Fault.value s!"Expected SimpleBreeder, got {v.classText}.")
  let futures ← match evaluator with
    | .simple f => pure f
    | .other v => throw (Fault.value s!"Expected SimplePopulationEvaluator, got {v.classText}.")
  make .simple population statistics futures checkers maxGeneration seed eventNames executor

/-- A multi-objective run, scoring without futures. -/
def nsga2 (population : PopulationGiven) (statistics : StatisticsGiven)
    (checkers : Option (List Checker)) (maxGeneration seed : Int) (eventNames : List String)
    (executor : String) : Except Fault Evolution :=
  make .nsga2 population statistics false checkers maxGeneration seed eventNames executor

/-- The names of the saved state of a simple run, sorted. -/
def stateKeys : List String :=
  ["_executor_type", "applied_individuals", "arity", "best_of_gen", "best_of_run_", "breeder",
   "customers_id", "events", "final_generation_", "generation_num", "generation_seed",
   "max_generation", "max_workers", "population", "population_evaluator", "random_generator",
   "random_seed", "statistics", "termination_checker", "worst_of_gen"]

/-- The names of the data the simple breeder gives after selecting, sorted. -/
def breederDataKeys : List String := ["best_of_run", "selected_individuals"]

end Evolution

end Evolver
