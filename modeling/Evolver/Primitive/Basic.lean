import Evolver.Kind
/-!
# The primitive set

The functions that inner nodes of program trees apply.  Twenty-two are
untyped; thirty-one declare a kind for each argument and for the result.
A primitive has a name, parameter names (its arity is their number) and,
if typed, its declared kinds (`Primitive.hints`: the arguments' kinds, then
the result's).
-/

namespace Evolver

/-- A primitive function of program trees. -/
inductive Primitive where
  | add | sub | mul | div | sqrt | log | abs | neg | inv | max | min | sin | cos | tan
  | iflte0 | ifgt0 | iflte | ifgt | and | or | not | ifThenElse
  | add2floats | sub2floats | mul2floats | div2floats | sqrtFloat | logFloat | absFloat
  | negFloat | invFloat | max2floats | min2floats | sinFloat | cosFloat | tanFloat
  | iflte0Floats | ifgt0Floats | iflteFloats | ifgtFloats | and2floats | or2floats
  | not2floats | ifThenElseTyped | argmax2floats | and2ints | or2ints | not2ints
  | ifThenElse3ints | and2bools | or2bools | not2bools | ifThenElse3bools
deriving DecidableEq, Repr, Inhabited

namespace Primitive

/-- Every primitive, untyped ones first, in the order of their definition. -/
def all : List Primitive :=
  [.add, .sub, .mul, .div, .sqrt, .log, .abs, .neg, .inv, .max, .min, .sin, .cos, .tan,
   .iflte0, .ifgt0, .iflte, .ifgt, .and, .or, .not, .ifThenElse,
   .add2floats, .sub2floats, .mul2floats, .div2floats, .sqrtFloat, .logFloat, .absFloat,
   .negFloat, .invFloat, .max2floats, .min2floats, .sinFloat, .cosFloat, .tanFloat,
   .iflte0Floats, .ifgt0Floats, .iflteFloats, .ifgtFloats, .and2floats, .or2floats,
   .not2floats, .ifThenElseTyped, .argmax2floats, .and2ints, .or2ints, .not2ints,
   .ifThenElse3ints, .and2bools, .or2bools, .not2bools, .ifThenElse3bools]

/-- The name of the primitive. -/
def name : Primitive → String
  | .add => "f_add" | .sub => "f_sub" | .mul => "f_mul" | .div => "f_div"
  | .sqrt => "f_sqrt" | .log => "f_log" | .abs => "f_abs" | .neg => "f_neg"
  | .inv => "f_inv" | .max => "f_max" | .min => "f_min" | .sin => "f_sin"
  | .cos => "f_cos" | .tan => "f_tan" | .iflte0 => "f_iflte0" | .ifgt0 => "f_ifgt0"
  | .iflte => "f_iflte" | .ifgt => "f_ifgt" | .and => "f_and" | .or => "f_or"
  | .not => "f_not" | .ifThenElse => "f_if_then_else"
  | .add2floats => "add2floats" | .sub2floats => "sub2floats" | .mul2floats => "mul2floats"
  | .div2floats => "div2floats" | .sqrtFloat => "sqrt_float" | .logFloat => "log_float"
  | .absFloat => "abs_float" | .negFloat => "neg_float" | .invFloat => "inv_float"
  | .max2floats => "max2floats" | .min2floats => "min2floats" | .sinFloat => "sin_float"
  | .cosFloat => "cos_float" | .tanFloat => "tan_float" | .iflte0Floats => "iflte0_floats"
  | .ifgt0Floats => "ifgt0_floats" | .iflteFloats => "iflte_floats"
  | .ifgtFloats => "ifgt_floats" | .and2floats => "and2floats" | .or2floats => "or2floats"
  | .not2floats => "not2floats" | .ifThenElseTyped => "if_then_else"
  | .argmax2floats => "argmax2floats" | .and2ints => "and2ints" | .or2ints => "or2ints"
  | .not2ints => "not2ints" | .ifThenElse3ints => "if_then_else3ints"
  | .and2bools => "and2bools" | .or2bools => "or2bools" | .not2bools => "not2bools"
  | .ifThenElse3bools => "if_then_else3bools"

/-- The primitive of a name. -/
def ofName? (s : String) : Option Primitive := all.find? (·.name == s)

/-- The parameter names. -/
def params : Primitive → List String
  | .sqrt | .log | .abs | .neg | .inv | .sin | .cos | .tan | .not
  | .sqrtFloat | .logFloat | .absFloat | .negFloat | .invFloat | .sinFloat | .cosFloat
  | .tanFloat | .not2floats | .not2ints | .not2bools => ["x"]
  | .iflte0 | .ifgt0 | .iflte0Floats | .ifgt0Floats => ["x", "y", "z"]
  | .iflte | .ifgt | .iflteFloats | .ifgtFloats => ["x", "y", "z", "w"]
  | .ifThenElse | .ifThenElseTyped | .ifThenElse3ints | .ifThenElse3bools => ["test", "dit", "dif"]
  | .argmax2floats => ["x0", "x1"]
  | _ => ["x", "y"]

/-- The number of arguments. -/
def arity (p : Primitive) : Nat := p.params.length

/-- The declared kinds, arguments first and the result last; `none` for an
untyped primitive. -/
def hints : Primitive → Option (List Kind)
  | .add2floats | .sub2floats | .mul2floats | .div2floats | .max2floats | .min2floats =>
    some [.float, .float, .float]
  | .sqrtFloat | .logFloat | .absFloat | .negFloat | .invFloat | .sinFloat | .cosFloat
  | .tanFloat | .not2floats => some [.float, .float]
  | .iflte0Floats | .ifgt0Floats => some [.float, .float, .float, .float]
  | .iflteFloats | .ifgtFloats => some [.float, .float, .float, .float, .float]
  | .and2floats | .or2floats => some [.float, .float, .float]
  | .ifThenElseTyped => some [.bool, .any, .any, .float]
  | .argmax2floats => some [.float, .float, .argmax]
  | .and2ints | .or2ints => some [.int, .int, .int]
  | .not2ints => some [.int, .int]
  | .ifThenElse3ints => some [.int, .int, .int, .int]
  | .and2bools | .or2bools => some [.bool, .bool, .bool]
  | .not2bools => some [.bool, .bool]
  | .ifThenElse3bools => some [.bool, .bool, .bool, .bool]
  | _ => none

/-- Whether the primitive declares kinds. -/
def isTyped (p : Primitive) : Bool := p.hints.isSome

/-- The declared kinds of the arguments and result, `none` for each when
untyped: one entry per argument and one for the result. -/
def slotKinds (p : Primitive) : List (Option Kind) :=
  match p.hints with
  | some ks => ks.map some
  | none => List.replicate (p.arity + 1) none

/-- The declared kind of the result. -/
def resultKind (p : Primitive) : Option Kind := p.slotKinds.getLast?.getD none

/-- The declared kinds of the arguments. -/
def argKinds (p : Primitive) : List (Option Kind) := p.slotKinds.dropLast

end Primitive

end Evolver
