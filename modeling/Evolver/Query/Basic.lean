import Evolver.Value.Json
import Evolver.Fault
import Evolver.Kind
/-!
# Queries: requests and answers as JSON

A query is a JSON object naming an operation of the library and its
arguments; its answer is a JSON object.  A failure of the library answers
`{"error": class, "message": text}`, the class naming the kind of fault.
-/

namespace Evolver
namespace Query

/-- The class name of a kind of fault. -/
def className : FaultKind → String
  | .badValue => "ValueError"
  | .badType => "TypeError"
  | .badIndex => "IndexError"
  | .badKey => "KeyError"
  | .noAttribute => "AttributeError"
  | .divisionByZero => "ZeroDivisionError"
  | .notProvided => "NotImplementedError"
  | .checkFailed => "AssertionError"
  | .notFitted => "_NotFittedError"
  | .outOfRange => "OverflowError"
  | .badRequest => "DriverError"
  | .noCommonType => "DTypePromotionError"
  | .pendingFailure => "SystemError"
  | .noLoop => "UFuncTypeError"

/-- The members of a failure. -/
def faultFields (f : Fault) : List (String × Json) :=
  [("error", .str (className f.kind)), ("message", .str f.message)]

/-- The answer of a failure. -/
def faultJson (f : Fault) : Json := .obj (faultFields f)

/-- The answer of a computation: its value, or its failure. -/
def answerOf (r : Except Fault Json) : Json :=
  match r with
  | .ok j => j
  | .error f => faultJson f

/-- A step's answer: `{"ok": value}` or the failure. -/
def stepJson (r : Except Fault Json) : Json :=
  match r with
  | .ok j => .obj [("ok", j)]
  | .error f => faultJson f

/-- A member that must be a string. -/
def getStr (j : Json) (k : String) : Except Fault String :=
  match j.get? k with
  | some (.str s) => pure s
  | _ => throw (Fault.request s!"missing field {k}")

/-- A member that must be an integer. -/
def getInt (j : Json) (k : String) : Except Fault Int :=
  match j.get? k with
  | some (.int n) => pure n
  | _ => throw (Fault.request s!"missing field {k}")

/-- A member that must be an array. -/
def getArr (j : Json) (k : String) : Except Fault (List Json) :=
  match j.get? k with
  | some (.arr xs) => pure xs
  | _ => throw (Fault.request s!"missing field {k}")

/-- A member read as a value; missing is nothing. -/
def getValue (j : Json) (k : String) : Except Fault Value :=
  Value.ofJson (j.getD k)

/-- A member that is a boolean, with a default when missing or null. -/
def getBoolD (j : Json) (k : String) (d : Bool) : Bool :=
  match j.get? k with
  | some (.bool b) => b
  | _ => d

/-- A member that is an integer, with a default when missing or null. -/
def getIntD (j : Json) (k : String) (d : Int) : Int :=
  match j.get? k with
  | some (.int n) => n
  | _ => d

/-- An optional kind as JSON: its name or null. -/
def kindJson : Option Kind → Json
  | some k => .str k.name
  | none => .null

end Query
end Evolver
