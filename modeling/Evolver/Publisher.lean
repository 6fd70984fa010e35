import Evolver.Fault
/-!
# Events and their listeners

A publisher declares named events, in order, each with its listeners in the
order they registered.  Every registration takes the next number, whatever
the event; unregistering removes a listener by its number.  Naming an event
that was not declared, or a number that is not registered on the event, is
a key fault.

Some operators keep their event names as a bare list instead: the names can
still be read, but no event can be looked up by its name, so registering,
unregistering and publishing all fail.
-/

namespace Evolver

/-- Named events with their numbered listeners. -/
structure Publisher (κ : Type) where
  events : List (String × List (Nat × κ))
  /-- the number the next listener takes -/
  next : Nat

namespace Publisher

variable {κ : Type}

/-- Events declared by name without listeners; a name given twice is kept
once, where it first came. -/
def declare (names : List String) : Publisher κ :=
  ⟨(names.foldl (fun (kept : List String) n => if kept.contains n then kept else kept ++ [n]) []).map
    fun n => (n, []), 0⟩

/-- The names of the events, in the order declared. -/
def names (p : Publisher κ) : List String := p.events.map (·.1)

/-- The fault of an event that was not declared. -/
def missing (event : String) : Fault := Fault.key s!"'{event}'"

/-- The listeners of an event, in the order they registered. -/
def listeners (p : Publisher κ) (event : String) : Except Fault (List (Nat × κ)) :=
  match p.events.find? (·.1 == event) with
  | some (_, ls) => pure ls
  | none => throw (missing event)

/-- Register a listener on an event; its number and the publisher after. -/
def register (p : Publisher κ) (event : String) (l : κ) : Except Fault (Nat × Publisher κ) := do
  let _ ← p.listeners event
  pure (p.next, ⟨p.events.map fun (n, ls) => if n == event then (n, ls ++ [(p.next, l)]) else (n, ls),
    p.next + 1⟩)

/-- Remove the listener of a number from an event. -/
def unregister (p : Publisher κ) (event : String) (id : Nat) : Except Fault (Publisher κ) := do
  let ls ← p.listeners event
  unless ls.any (·.1 == id) do throw (Fault.key s!"{id}")
  pure ⟨p.events.map fun (n, ls) => if n == event then (n, ls.filter (·.1 != id)) else (n, ls), p.next⟩

end Publisher

/-- The events of an operator: a publisher, or a bare list of names. -/
inductive Events (κ : Type) where
  | published (p : Publisher κ)
  | listed (names : List String)

namespace Events

variable {κ : Type}

/-- The fault of looking up an event by name in a bare list. -/
def unnamed : Fault := Fault.type "list indices must be integers or slices, not str"

/-- The names of the events. -/
def names : Events κ → List String
  | .published p => p.names
  | .listed ns => ns

/-- The listeners of an event. -/
def listeners (e : Events κ) (event : String) : Except Fault (List (Nat × κ)) :=
  match e with
  | .published p => p.listeners event
  | .listed _ => throw unnamed

/-- Register a listener on an event. -/
def register (e : Events κ) (event : String) (l : κ) : Except Fault (Nat × Events κ) :=
  match e with
  | .published p => do
    let (id, p) ← p.register event l
    pure (id, .published p)
  | .listed _ => throw unnamed

/-- Remove a listener from an event. -/
def unregister (e : Events κ) (event : String) (id : Nat) : Except Fault (Events κ) :=
  match e with
  | .published p => .published <$> p.unregister event id
  | .listed _ => throw unnamed

end Events

end Evolver
