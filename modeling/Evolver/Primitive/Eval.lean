import Evolver.Primitive.Basic
import Evolver.Numeric.Ufunc
/-!
# What the primitives compute

Each primitive is an element-wise expression over its arguments:

* arithmetic, `max`, `min`, the trigonometric functions and the bitwise
  functions are the element-wise functions of the same name;
* division is protected: where the divisor is at most `0.001` in magnitude
  the result is `0.0` (`protectedDiv`), and so is the logarithm near zero,
  which takes the magnitude of its argument (`protectedLog`); the square root
  also takes the magnitude;
* the conditionals choose between their last two arguments by comparing the
  first with zero or with the second (`compare`: plain numbers compare
  exactly, anything else cell by cell);
* the logical primitives give booleans, their `not` variants converted to
  integers or floats where the result kind says so.

`Primitive.call` checks the number of arguments first.
-/

namespace Evolver

open Numeric

/-- `x <= y` (`le = true`) or `x > y`: two plain scalars compare as numbers or
texts, and anything else cell by cell; a plain scalar on the left leaves the
comparison to the right operand, as `y >= x` or `y < x`. -/
def compareValues (le : Bool) (x y : Value) : Except Fault Value :=
  match x.toCell?, y.toCell? with
  | some a, some b => do
    let o ← plainCompare (if le then "<=" else ">") a b
    pure (.bool (if le then o == some .lt || o == some .eq else o == some .gt))
  | some _, none => (if le then Binary.greaterEqual else Binary.less).apply y x
  | _, _ => (if le then Binary.lessEqual else Binary.greater).apply x y

/-- Division that gives `0.0` wherever the divisor is at most `0.001` in
magnitude. -/
def protectedDiv (x y : Value) : Except Fault Value := do
  let big ← Binary.greater.apply (← Unary.absolute.apply y) (.float 0.001)
  let q ← Binary.divide.apply x y
  whereSelect big q (.float 0.0)

/-- The logarithm of the magnitude, `0.0` wherever the magnitude is at most
`0.001`. -/
def protectedLog (x : Value) : Except Fault Value := do
  let big ← Binary.greater.apply (← Unary.absolute.apply x) (.float 0.001)
  let l ← Unary.log.apply (← Unary.absolute.apply x)
  whereSelect big l (.float 0.0)

namespace Primitive

/-- The message of a call with too many or too few arguments. -/
def arityFault (p : Primitive) (given : Nat) : Fault :=
  let n := p.arity
  if given > n then
    let plural := if n = 1 then "argument" else "arguments"
    Fault.type s!"{p.name}() takes {n} positional {plural} but {given} were given"
  else
    let missing := (p.params.drop given).map fun s => "'" ++ s ++ "'"
    let k := missing.length
    let listed := match missing with
      | [a] => a
      | [a, b] => a ++ " and " ++ b
      | _ => ", ".intercalate missing.dropLast ++ ", and " ++ missing.getLastD ""
    let plural := if k = 1 then "argument" else "arguments"
    Fault.type s!"{p.name}() missing {k} required positional {plural}: {listed}"

/-- What the primitive computes from arguments of the right number. -/
def eval (p : Primitive) (args : List Value) : Except Fault Value :=
  let a0 := args.getD 0 .none
  let a1 := args.getD 1 .none
  let a2 := args.getD 2 .none
  let a3 := args.getD 3 .none
  match p with
  | .add | .add2floats => Binary.add.apply a0 a1
  | .sub | .sub2floats => Binary.subtract.apply a0 a1
  | .mul | .mul2floats => Binary.multiply.apply a0 a1
  | .div | .div2floats => protectedDiv a0 a1
  | .sqrt | .sqrtFloat => do Unary.sqrt.apply (← Unary.absolute.apply a0)
  | .log | .logFloat => protectedLog a0
  | .abs | .absFloat => Unary.absolute.apply a0
  | .neg | .negFloat => Unary.negative.apply a0
  | .inv | .invFloat => protectedDiv (.int 1) a0
  | .max | .max2floats => Binary.maximum.apply a0 a1
  | .min | .min2floats => Binary.minimum.apply a0 a1
  | .sin | .sinFloat => Unary.sin.apply a0
  | .cos | .cosFloat => Unary.cos.apply a0
  | .tan | .tanFloat => Unary.tan.apply a0
  | .iflte0 | .iflte0Floats => do whereSelect (← compareValues true a0 (.int 0)) a1 a2
  | .ifgt0 | .ifgt0Floats => do whereSelect (← compareValues false a0 (.int 0)) a1 a2
  | .iflte | .iflteFloats => do whereSelect (← compareValues true a0 a1) a2 a3
  | .ifgt | .ifgtFloats => do whereSelect (← compareValues false a0 a1) a2 a3
  | .and | .and2bools => Binary.bitwiseAnd.apply a0 a1
  | .or | .or2bools => Binary.bitwiseOr.apply a0 a1
  | .not | .not2ints => do castValue (.int 64) (← Unary.logicalNot.apply a0)
  | .not2floats => do castValue (.float 64) (← Unary.logicalNot.apply a0)
  | .not2bools => Unary.logicalNot.apply a0
  | .and2floats | .and2ints => Binary.logicalAnd.apply a0 a1
  | .or2floats | .or2ints => Binary.logicalOr.apply a0 a1
  | .ifThenElse | .ifThenElseTyped | .ifThenElse3ints | .ifThenElse3bools => whereSelect a0 a1 a2
  | .argmax2floats => argmaxPair a0 a1

/-- Call the primitive: the number of arguments must be its arity. -/
def call (p : Primitive) (args : List Value) : Except Fault Value :=
  if args.length = p.arity then p.eval args else throw (p.arityFault args.length)

end Primitive

end Evolver
