import Evolver.Evolution.World
/-!
# Running an evolution

`Evolve.evolve` runs a whole evolution:

1. seed the streams with the run's seed, create the individuals, score them,
   and keep the best as the best of the run; publish `init`, then let the
   statistics listen after each generation;
2. if a checker already says to stop, the run ends at generation zero;
3. otherwise, for each generation `g` from one to the last: every
   individual is marked with `g`, the streams are seeded with the next
   generation seed (one more, modulo `2^32`), the population is bred and
   scored, and the checkers are asked; after each generation
   `after_generation` is published, and a checker that says to stop ends the
   loop there;
4. `evolution_finished` is published and the best of the run is shown.

A simple generation breeds each subpopulation, scores the population, and
the best of the generation replaces the best of the run when it is better.
A multi-objective generation breeds each subpopulation with its copies,
scores the population, keeps half of each subpopulation by non-dominated
sorting, and keeps the first fronts.
-/

namespace Evolver

namespace Evolve

/-- Change the population. -/
def setPopulation (p : Population) : Evolve Unit :=
  change fun r => { r with population := p }

/-- Change each subpopulation in turn, the population keeping each change
as it is made. -/
def eachSubpopulation (f : Subpopulation → Run Subpopulation) : Evolve Unit := do
  let n := (← state).population.subpops.length
  for k in List.range n do
    let p := (← state).population
    let some s := p.subpops[k]? | throw Fault.listIndex
    let s ← lift (f s)
    setPopulation ⟨p.subpops.set k s⟩

/-- Score the population; the best individual. -/
def evaluate : Evolve Nat := do
  let r ← state
  lift (r.population.evaluate r.futures)

/-- Seed the streams for the start of the run. -/
def seedRun : Evolve Unit := do
  lift (Run.draw (Draw.seed (← state).seed))

/-- Create the individuals, score them, keep the best, publish `init`, and
let the statistics listen after each generation. -/
def start : Evolve Unit := do
  seedRun
  setPopulation (← lift (← state).population.create)
  let best ← evaluate
  change fun r => { r with bestOfRun := some best }
  publish "init"
  for s in (← state).statistics do
    let _ ← register "after_generation" (.statistic s)

/-- Whether a checker says to stop; every checker is asked. -/
def shouldStop : Evolve Bool := do
  let r ← state
  match r.checkers with
  | none => pure false
  | some cs =>
    let (stop, cs) ← lift (Checker.checkAll cs r.population r.bestOfRun)
    change fun r => { r with checkers := some cs }
    pure stop

/-- Mark every individual with the generation. -/
def markGeneration (gen : Nat) : Evolve Unit := do
  for id in (← state).population.members do
    lift (Run.update id fun i => { i with gen := gen })

/-- Seed the streams with the next generation seed. -/
def seedGeneration : Evolve Unit := do
  let next := ((← state).generationSeed + 1) % Int.pow 2 32
  lift (Run.draw (Draw.seed next))
  change fun r => { r with generationSeed := next }

/-- The first front of each subpopulation. -/
def firstFronts : Evolve (List (List Nat)) := do
  let p := (← state).population
  lift (p.subpops.mapM fun s => s.members.filterM fun id => do
    let f := (← Run.get id).fitness
    Run.ofExcept (Value.equal (← Run.ofExcept (f.stat "front_rank" f.frontRank)) (.int 1)))

/-- Keep the best individual of the generation, and keep it as the best of
the run when it is better. -/
def keepBest (best : Nat) : Evolve Unit := do
  change fun r => { r with bestOfGen := some best }
  let r ← state
  if ← lift (Run.better best r.bestOfRun) then
    change fun r => { r with bestOfRun := some best }

/-- Keep the worst individual of the first subpopulation. -/
def keepWorst : Evolve Unit := do
  let some s := (← state).population.subpops.head? | throw Fault.listIndex
  let worst ← lift s.worst
  change fun r => { r with worstOfGen := some worst }

/-- One generation of the run's algorithm. -/
def step : Evolve Unit := do
  match (← state).algorithm with
  | .simple =>
    eachSubpopulation Subpopulation.breed
    keepBest (← evaluate)
    keepWorst
  | .nsga2 =>
    eachSubpopulation Subpopulation.breedFronts
    let _ ← evaluate
    eachSubpopulation fun s => do
      pure { s with individuals := some (← Pareto.select s.members none) }
    let fronts ← firstFronts
    change fun r => { r with fronts := some fronts }

/-- One generation `gen` of the run: every individual is marked with it, the
streams are seeded, the population is bred and scored, the checkers are
asked, and `after_generation` is published; whether a checker says to stop. -/
def generation (gen : Nat) : Evolve Bool := do
  change fun r => { r with generation := gen }
  markGeneration gen
  seedGeneration
  step
  let stop ← shouldStop
  if stop then change fun r => { r with finalGeneration := some gen }
  publish "after_generation"
  pure stop

/-- The generations from the first given on: each is run, and the loop ends
after the last or when a checker says to stop. -/
def loop : List Nat → Evolve Unit
  | [] => pure ()
  | gen :: rest => do
    if ← generation gen then pure () else loop rest

/-- Show the best individual of the run: a tree is written out; a
multi-objective run also writes its score. -/
def finish : Evolve Unit := do
  let r ← state
  let some best := r.bestOfRun
    | throw (Fault.missingAttribute "'NoneType' object has no attribute 'show'")
  let i ← lift (Run.get best)
  if let .tree t := i.genome then
    let _ ← lift (Run.ofExcept (t.text i.id))
  if r.algorithm matches .nsga2 then
    let _ ← lift (Run.ofExcept i.pureFitness)

/-- Run the evolution. -/
def evolve : Evolve Unit := do
  start
  if ← shouldStop then
    change fun r => { r with finalGeneration := some 0 }
    publish "after_generation"
  else
    loop (List.range' 1 (← state).maxGeneration.toNat)
  publish "evolution_finished"
  finish

/-- Run the evolution as an operator: publish `before_operator`, run, and
publish `after_operator`. -/
def act : Evolve Unit := do
  publish "before_operator"
  evolve
  publish "after_operator"

end Evolve

end Evolver
