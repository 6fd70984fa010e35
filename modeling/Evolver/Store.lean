import Evolver.Individual
import Std.Data.HashMap
/-!
# The individuals of a request

Operators change individuals in place, and one individual may be held by a
population, a list being bred and the record of the best so far at once.  A
`Store` keeps every individual of a request under its identity, with the
request's random streams and the messages written so far; `Run` is a
computation over it that may fail, keeping the state it reached.  Lists of
individuals are lists of identities.
-/

namespace Evolver

/-- The individuals of a request by identity, with the random streams and
the messages written so far. -/
structure Store where
  lab : Lab
  individuals : Std.HashMap Nat Individual
  /-- the messages written, oldest first -/
  written : List String

/-- The store at the start of a request. -/
def Store.start : Store := ⟨Lab.start, {}, []⟩

/-- A computation over the store that may fail. -/
abbrev Run := EStateM Fault Store

namespace Run

/-- A draw, run on the store's streams. -/
def draw {α : Type} (x : Draw α) : Run α := fun s =>
  match x s.lab with
  | .ok a l => .ok a { s with lab := l }
  | .error e l => .error e { s with lab := l }

/-- A computation that may fail. -/
def ofExcept {α : Type} : Except Fault α → Run α
  | .ok a => pure a
  | .error e => throw e

/-- A computation whose failure becomes its value; the state it reached
stays. -/
def attempt {α : Type} (x : Run α) : Run (Except Fault α) :=
  tryCatch (Except.ok <$> x) (fun e => pure (.error e))

/-- The individual of an identity. -/
def get (id : Nat) : Run Individual := do
  match (← getThe Store).individuals.get? id with
  | some i => pure i
  | none => throw (Fault.request s!"no individual {id}")

/-- Keep an individual under its identity. -/
def put (i : Individual) : Run Unit :=
  modify fun s => { s with individuals := s.individuals.insert i.id i }

/-- Write a message. -/
def say (msg : String) : Run Unit :=
  modify fun s => { s with written := s.written ++ [msg] }

/-- Change the individual of an identity. -/
def update (id : Nat) (f : Individual → Individual) : Run Unit := do
  put (f (← get id))

/-- Change the individual of an identity by a computation that may fail. -/
def updateM (id : Nat) (f : Individual → Run Individual) : Run Unit := do
  put (← f (← get id))

/-- A new individual, kept under a fresh identity. -/
def adopt (g : Genome) (f : Fitness) (updateParents : Bool) : Run Nat := do
  let id ← draw Draw.freshId
  put (Individual.fresh id g f updateParents)
  pure id

/-- A clone of an individual, kept under a fresh identity. -/
def clone (id : Nat) : Run Nat := do
  let i ← get id
  let c ← draw Draw.freshId
  put (i.cloneAs c)
  pure c

/-- Whether the first individual is better than the second, or than none. -/
def better (a : Nat) (b : Option Nat) : Run Bool := do
  let i ← get a
  match b with
  | none => pure true
  | some b => draw (i.betterThan (some (← get b)))

end Run

end Evolver
