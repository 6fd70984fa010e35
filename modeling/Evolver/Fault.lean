/-!
# Faults

Every failure of the library is a `Fault`: a kind, which says what went wrong
in the broad sense (a bad value, a value of the wrong type, an index or key
that is not there, a missing attribute, a division by zero, an operation that
is not provided, a failed internal check, an unfitted estimator, a number out
of range) and a message that says it in words.  The texts of the messages are
part of the library's behaviour and are built by the functions that raise
them.
-/

namespace Evolver

/-- What kind of thing went wrong. -/
inductive FaultKind where
  /-- a value of the right type but an unacceptable content -/
  | badValue
  /-- a value of a type the operation does not take -/
  | badType
  /-- an index outside a sequence -/
  | badIndex
  /-- a key missing from a mapping -/
  | badKey
  /-- an attribute that the value does not have -/
  | noAttribute
  /-- a division or remainder by zero -/
  | divisionByZero
  /-- an operation that is declared but not provided -/
  | notProvided
  /-- an internal consistency check that failed -/
  | checkFailed
  /-- an estimator used before it was fitted -/
  | notFitted
  /-- a number outside the range of its type -/
  | outOfRange
  /-- a request that the library cannot read -/
  | badRequest
  /-- element types that have no common type -/
  | noCommonType
  /-- a result given back while a failure inside was left pending -/
  | pendingFailure
  /-- an element-wise function without a computation for its operand types -/
  | noLoop
deriving DecidableEq, Repr, Inhabited

/-- A failure: its kind and its message. -/
structure Fault where
  kind : FaultKind
  message : String
deriving Inhabited

namespace Fault

/-- A value of the right type but an unacceptable content. -/
def value (msg : String) : Fault := ⟨.badValue, msg⟩
/-- A value of a type the operation does not take. -/
def type (msg : String) : Fault := ⟨.badType, msg⟩
/-- An index outside a sequence. -/
def index (msg : String) : Fault := ⟨.badIndex, msg⟩
/-- A key missing from a mapping. -/
def key (msg : String) : Fault := ⟨.badKey, msg⟩
/-- An attribute the value does not have. -/
def missingAttribute (msg : String) : Fault := ⟨.noAttribute, msg⟩
/-- A request the library cannot read. -/
def request (msg : String) : Fault := ⟨.badRequest, msg⟩

/-- The index error of reading past the end of a list. -/
def listIndex : Fault := index "list index out of range"

end Fault

end Evolver
