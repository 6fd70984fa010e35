import Evolver.Numeric.Ufunc
/-!
# Truth, equality and order of values

The tests that conditions, bounds checks and fitness comparisons make on
values:

* `Value.truth`: nothing, zero, the empty text and empty sequences are false,
  every other plain value is true; an array is the truth of its one cell, and
  false when empty; an array of several cells has no truth value;
* `Value.equal`: numbers are equal by value whatever their class (an integer
  and a float exactly), texts by their characters, sequences of one class item
  by item, and values of unrelated classes never;
* `Value.compare`: numbers by value (NaN is in no order), texts by code
  points, sequences of one class by their first unequal items, then by
  length; any other pair cannot be ordered.

Fixed-width scalars and single-cell arrays take part as their cell.
-/

namespace Evolver

open Numeric

/-- The comparison operators. -/
inductive Relation where
  | lt
  | le
  | gt
  | ge
deriving DecidableEq, Repr

namespace Relation

/-- The operator's symbol. -/
def symbol : Relation → String
  | .lt => "<"
  | .le => "<="
  | .gt => ">"
  | .ge => ">="

/-- Whether the relation holds of two values in the given order. -/
def holds : Relation → Ordering → Bool
  | .lt, o => o == .lt
  | .le, o => o != .gt
  | .gt, o => o == .gt
  | .ge, o => o != .lt

end Relation

namespace Value

/-- The message of an array asked for one truth value. -/
def ambiguous : Fault :=
  Fault.value "The truth value of an array with more than one element is ambiguous. Use a.any() or a.all()"

/-- The one cell a value stands for in a test: its own for a plain value or
a fixed-width scalar, the only cell of an array; `none` for an empty array
and for sequences. -/
def testCell : Value → Except Fault (Option Cell)
  | .array _ _ [] => pure Option.none
  | .array _ _ [c] => pure (some c)
  | .array _ _ _ => throw ambiguous
  | .scalar _ c => pure (some c)
  | v => pure v.toCell?

/-- The truth value. -/
def truth (v : Value) : Except Fault Bool :=
  match v with
  | .list xs | .tuple xs => pure !xs.isEmpty
  | .array _ _ [] => pure false
  | .object _ _ _ => pure true
  | v => do
    match ← v.testCell with
    | some c => pure c.truthy
    | Option.none => pure false

/-- Whether a value is a numeric array or scalar rather than a plain value. -/
def isNumeric : Value → Bool
  | .array _ _ _ | .scalar _ _ => true
  | _ => false

/-- Equality of two cells: numbers by value, texts by characters, nothing
with nothing; cells of unrelated classes are unequal. -/
def cellEqual (a b : Cell) : Bool :=
  match a, b with
  | .none, .none => true
  | .str x, .str y => x == y
  | .none, _ | _, .none | .str _, _ | _, .str _ => false
  | a, b => match plainCompare "==" a b with
    | .ok (some .eq) => true
    | _ => false

mutual

/-- Equality of two values. -/
def equal : Value → Value → Except Fault Bool
  | .list xs, .list ys => equalList xs ys
  | .tuple xs, .tuple ys => equalList xs ys
  | .list _, _ | _, .list _ | .tuple _, _ | _, .tuple _ => pure false
  | .object _ _ r, .object _ _ s => pure (r == s)
  | a, b => do
    match ← a.testCell, ← b.testCell with
    | some x, some y => pure (cellEqual x y)
    | _, _ => pure false

/-- Item-by-item equality of two sequences. -/
def equalList : List Value → List Value → Except Fault Bool
  | [], [] => pure true
  | x :: xs, y :: ys => do
    if ← equal x y then equalList xs ys else pure false
  | _, _ => pure false

end

/-- The message of two values that cannot be ordered. -/
def unordered (r : Relation) (a b : Value) : Fault :=
  Fault.type s!"'{r.symbol}' not supported between instances of '{a.className}' and '{b.className}'"

mutual

/-- Whether `a r b` holds. -/
def compare (r : Relation) : Value → Value → Except Fault Bool
  | .list xs, .list ys => compareList r xs ys
  | .tuple xs, .tuple ys => compareList r xs ys
  | a, b =>
    match a, b with
    | .list _, _ | _, .list _ | .tuple _, _ | _, .tuple _ => throw (unordered r a b)
    | a, b => do
      match ← a.testCell, ← b.testCell with
      | some x, some y =>
        match plainCompare r.symbol x y with
        | .ok o => pure ((o.map r.holds).getD false)
        | .error _ => throw (unordered r a b)
      | _, _ => throw (unordered r a b)

/-- Order of two sequences: at their first unequal items, else by length. -/
def compareList (r : Relation) : List Value → List Value → Except Fault Bool
  | [], [] => pure (r.holds .eq)
  | [], _ :: _ => pure (r.holds .lt)
  | _ :: _, [] => pure (r.holds .gt)
  | x :: xs, y :: ys => do
    if ← equal x y then compareList r xs ys else compare r x y

end

end Value

end Evolver
