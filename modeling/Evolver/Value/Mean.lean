import Evolver.Numeric.Weights
import Evolver.Numeric.Operand
import Evolver.Value.Order
/-!
# Means and rounding of values

`Value.mean` is the mean of a value taken as an array (a list of numbers, or
of equal-length lists of numbers, or an array): the cells as doubles, summed
as an array reduction sums them, over their number; the mean of no cells is
NaN.  The result is a double of the array kind.

`Value.toDouble` converts a number, a number of a fixed-width type, or an
array of one cell to a double, as `float` does.

`Value.roundEven` rounds a number to the nearest integer, halves to the even
one, exactly from the double's binary value.
-/

namespace Evolver

open Numeric

namespace Value

/-- The mean of the cells of a value taken as an array. -/
def mean (v : Value) : Except Fault Value := do
  let (_, _, cells) ← v.toArray
  let xs ← cells.mapM fun c => match c.toFloat? with
    | some x => pure x
    | Option.none => throw (Fault.type s!"unsupported operand type(s) for +: '{(Value.ofCell c).className}' and 'int'")
  let n := xs.length
  pure (.scalar (.float 64) (.float (pairwiseSum xs / intToFloat n)))

/-- The integer nearest to a double, halves to the even integer. -/
def roundFloat (x : Float) : Except Fault Int := do
  if x.isNaN then throw (Fault.value "cannot convert float NaN to integer")
  if x.isInf then throw ⟨.outOfRange, "cannot convert float infinity to integer"⟩
  let b := Decimal.Binary.ofBits x.toBits
  let mag : Nat :=
    if 0 ≤ b.q then b.m * Nat.pow 2 b.q.toNat
    else
      let unit := Nat.pow 2 (-b.q).toNat
      let whole := b.m / unit
      let rest := b.m % unit
      if 2 * rest > unit then whole + 1
      else if 2 * rest < unit then whole
      else if whole % 2 == 0 then whole else whole + 1
  pure (if (x.toBits >>> 63) == 1 then -(mag : Int) else mag)

/-- A number rounded to the nearest integer, halves to the even one. -/
def roundEven (v : Value) : Except Fault Int :=
  match v with
  | .int n => pure n
  | .bool b => pure (if b then 1 else 0)
  | .float x => roundFloat x
  | v => throw (Fault.type s!"type {v.className} doesn't define __round__ method")

/-- A value as a double, as `float` converts it. -/
def toDouble (v : Value) : Except Fault Value :=
  match v with
  | .float x => pure (.float x)
  | .int n => pure (.float (Numeric.intToFloat n))
  | .bool b => pure (.float (if b then 1.0 else 0.0))
  | .scalar _ c => match c.toFloat? with
    | some x => pure (.float x)
    | Option.none => throw (Fault.type s!"float() argument must be a string or a real number, not '{v.className}'")
  | .array _ _ [c] => match c.toFloat? with
    | some x => pure (.float x)
    | Option.none => throw (Fault.type s!"float() argument must be a string or a real number, not '{v.className}'")
  | .array _ _ _ => throw (Fault.type "only length-1 arrays can be converted to Python scalars")
  | v => throw (Fault.type s!"float() argument must be a string or a real number, not '{v.className}'")

end Value

end Evolver
