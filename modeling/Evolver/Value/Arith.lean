import Evolver.Value.Order
/-!
# Arithmetic on values

The four arithmetic operators as the language applies them to values: plain
numbers by the number tower (integers stay integers except under `/`, a
float on either side makes a float, booleans count as integers), two texts
joined by `+`; numeric arrays and fixed-width scalars element by element,
with the element-type rules of arrays.
-/

namespace Evolver

open Numeric

/-- An arithmetic operator. -/
inductive Arith where
  | add
  | sub
  | mul
  | div
deriving DecidableEq, Repr

namespace Arith

/-- The operator's symbol. -/
def symbol : Arith → String
  | .add => "+"
  | .sub => "-"
  | .mul => "*"
  | .div => "/"

/-- The element-wise function of the operator. -/
def ufunc : Arith → Binary
  | .add => .add
  | .sub => .subtract
  | .mul => .multiply
  | .div => .divide

end Arith

/-- `a op b`. -/
def Value.arith (op : Arith) (a b : Value) : Except Fault Value :=
  if a.isNumeric || b.isNumeric then op.ufunc.apply a b
  else
    match a.toCell?, b.toCell? with
    | some x, some y => Value.ofCell <$> plainArith op.symbol x y
    | _, _ =>
      throw (Fault.type s!"unsupported operand type(s) for {op.symbol}: '{a.className}' and '{b.className}'")

/-- `abs(a)`: the magnitude of a number, element by element for arrays. -/
def Value.absolute (a : Value) : Except Fault Value :=
  match a with
  | .int n => pure (.int n.natAbs)
  | .bool b => pure (.int (if b then 1 else 0))
  | .float x => pure (.float x.abs)
  | .scalar _ _ | .array _ _ _ => Unary.absolute.apply a
  | v => throw (Fault.type s!"bad operand type for abs(): '{v.className}'")

end Evolver
