import Evolver.Query.Termination
import Evolver.Publisher
/-!
# Queries on the events of an operator

`publisher` watches one operator through a series of steps: reading its
event names, registering and unregistering listeners, acting (publishing
before and after, the listeners writing a log), applying it directly, and
reading the names of the data it publishes.  The operators watched are an
identity transformation on one bit vector, a bit-vector creator given a
number, and an elitism selection of one from two individuals.
-/

namespace Evolver
namespace Query

/-- What answers an event: a recorder of the event and its data names, or a
set, which cannot be called. -/
inductive Callback where
  | recorder
  | uncallable

/-- The operator a query watches, with what it acts on. -/
inductive Watched where
  | identity (o : Operator) (payload : List Nat)
  | creator (c : Creator) (payload : Value)
  | elitism (s : Selection) (payload : List Nat)

namespace Watched

/-- The names of the data the operator publishes with an event. -/
def dataKeys : Watched → String → List String
  | .identity .., e => Operator.dataKeys e
  | .creator .., e => Creator.dataKeys e
  | .elitism .., e => Selection.dataKeys e

/-- The events the operator starts with. -/
def events : Watched → Events Callback
  | .elitism .. => .listed Selection.eventNames
  | _ => .published (Publisher.declare ["before_operator", "after_operator"])

/-- Publish an event to its listeners: the log entries they write. -/
def publish (w : Watched) (ev : Events Callback) (event : String) : Run (List Json) := do
  let ls ← Run.ofExcept (ev.listeners event)
  ls.foldlM (fun log (_, c) => match c with
    | .recorder => pure (log ++ [.arr [.str event, .arr ((w.dataKeys event).map .str)]])
    | .uncallable => throw (Fault.type "'set' object is not callable")) []

/-- Apply the operator directly; the number of individuals it gives. -/
def apply : Watched → Run Nat
  | .identity o ids => do pure (← o.applyOperator ids).length
  | .creator c _ => throw c.missingDirection
  | .elitism s ids => do pure (← s.select ids []).length

/-- Act: check the payload, publish before, apply, publish after; the log
and the number of individuals. -/
def act (w : Watched) (ev : Events Callback) : Run Json := do
  match w with
  | .identity o ids => o.checkPayload (.group ids)
  | .creator _ v => throw (Fault.value
      s!"Received payload of type {v.classText}, expected arity of 1 but got {Creator.chromosomeArity.written}.")
  | .elitism .. => pure ()
  let before ← w.publish ev "before_operator"
  let n ← w.apply
  let after ← w.publish ev "after_operator"
  pure (.obj [("log", .arr (before ++ after)), ("result_len", .int n)])

end Watched

/-- The operator a request names. -/
def watchedOf (target : String) : Run Watched := do
  if target == "identity" then
    pure (.identity (← Run.ofExcept (Operator.build "IdentityTransformation" [])) [← holding .null])
  else if target == "creator" then
    pure (.creator (.chromosomes .bits 2 (.tuple [.int 0, .int 1]) .simple false) (.int 3))
  else if target == "elitism" then
    pure (.elitism ⟨.elitism 1, .bool false⟩ [← holding (.int 1), ← holding (.int 2)])
  else throw (Fault.request s!"unknown target {target}")

/-- The names, sorted. -/
def sortedNames (ns : List String) : Json :=
  .arr ((ns.mergeSort fun a b => decide (a ≤ b)).map .str)

/-- One step on the watched operator: its answer and the events after. -/
def publisherStep (w : Watched) (ev : Events Callback) (step : Json) :
    Run (Except Fault Json × Events Callback) := do
  let event := (step.getD "event").str?.getD ""
  let attempt (x : Run (Json × Events Callback)) : Run (Except Fault Json × Events Callback) := do
    match ← Run.attempt x with
    | .ok (j, ev) => pure (.ok j, ev)
    | .error e => pure (.error e, ev)
  match (step.getD "do").str?.getD "" with
  | "events" => pure (.ok (sortedNames ev.names), ev)
  | "register" =>
    let c := if (step.getD "callback").str? == some "default" then Callback.uncallable else .recorder
    attempt do
      let (id, ev) ← Run.ofExcept (ev.register event c)
      pure (.int id, ev)
  | "unregister" =>
    attempt do
      let id := (step.getD "id").int?.getD 0
      pure (.null, ← Run.ofExcept (ev.unregister event id.toNat))
  | "act" => attempt do pure (← w.act ev, ev)
  | "apply" => attempt do pure (.int (← w.apply), ev)
  | "data" => pure (.ok (sortedNames (w.dataKeys event)), ev)
  | other => pure (.error (Fault.request s!"unknown step {other}"), ev)

/-- `{"op": "publisher", "target", "steps"}`. -/
def publisherQuery (q : Json) : Run Json := do
  let w ← watchedOf ((q.getD "target").str?.getD "")
  let (_, answers) ← ((q.getD "steps").arr?.getD []).foldlM (fun (acc : Events Callback × List Json) step => do
      let (r, ev) ← publisherStep w acc.1 step
      pure (ev, acc.2 ++ [stepJson r])) (w.events, [])
  pure (.obj [("steps", .arr answers)])

end Query
end Evolver
