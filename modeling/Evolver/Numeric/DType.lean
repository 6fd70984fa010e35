import Evolver.Fault
/-!
# Element types of arrays and their promotion

An array holds cells of one element type: booleans, signed or unsigned
integers of 8 to 64 bits, binary floats of 16, 32 or 64 bits, fixed-width
text, or arbitrary objects.  `DType.promote` is the least type that two
operand types both convert to without loss; `DType.name` is the type's text
(`int64`, `float16`, `<U3`).

Plain numbers that come without an element type of their own are *weak*: a
whole number takes the integer or float type of the other operand, a
fraction the float type, and only on their own do they become `int64` and
`float64` (`Weak`).
-/

namespace Evolver
namespace Numeric

/-- The element type of an array or of a fixed-width scalar. -/
inductive DType where
  | bool
  | int (bits : Nat)
  | uint (bits : Nat)
  | float (bits : Nat)
  | str (width : Nat)
  | object
deriving DecidableEq, Repr, Inhabited

namespace DType

/-- The default integer. -/
abbrev int64 : DType := .int 64
/-- The default float. -/
abbrev float64 : DType := .float 64

/-- The text of the type. -/
def name : DType → String
  | .bool => "bool"
  | .int b => s!"int{b}"
  | .uint b => s!"uint{b}"
  | .float b => s!"float{b}"
  | .str w => s!"<U{w}"
  | .object => "object"

/-- The types a caller may name. -/
def ofName? : String → Option DType
  | "bool" => some .bool
  | "int8" => some (.int 8)
  | "int16" => some (.int 16)
  | "int32" => some (.int 32)
  | "int64" => some (.int 64)
  | "int" => some (.int 64)
  | "uint8" => some (.uint 8)
  | "uint16" => some (.uint 16)
  | "uint32" => some (.uint 32)
  | "uint64" => some (.uint 64)
  | "float16" => some (.float 16)
  | "float32" => some (.float 32)
  | "float64" => some (.float 64)
  | "float" => some (.float 64)
  | "object" => some .object
  | "str" => some (.str 0)
  | _ => none

/-- Booleans and integers of either sign. -/
def isIntegral : DType → Bool
  | .bool | .int _ | .uint _ => true
  | _ => false

/-- Integers of either sign, booleans not included. -/
def isInteger : DType → Bool
  | .int _ | .uint _ => true
  | _ => false

/-- The binary floats. -/
def isFloat : DType → Bool
  | .float _ => true
  | _ => false

/-- The numeric types: booleans, integers and floats. -/
def isNumeric : DType → Bool
  | .bool | .int _ | .uint _ | .float _ => true
  | _ => false

/-- The width of the float that holds every integer of `bits` bits exactly,
or at least as well as `float64`. -/
def floatFor (bits : Nat) : Nat :=
  if bits ≤ 8 then 16 else if bits ≤ 16 then 32 else 64

/-- The float type that the results of a float function of a value of this
type have: booleans and small integers take the narrowest float that holds
them. -/
def inexact : DType → DType
  | .bool => .float 16
  | .int b => .float (floatFor b)
  | .uint b => .float (floatFor b)
  | t => t

/-- The least type both convert to, if there is one. -/
def promote : DType → DType → Option DType
  | .object, _ => some .object
  | _, .object => some .object
  | .bool, t => if t.isNumeric then some t else none
  | t, .bool => if t.isNumeric then some t else none
  | .int a, .int b => some (.int (max a b))
  | .uint a, .uint b => some (.uint (max a b))
  | .int a, .uint b => some (if b < a then .int a else if b < 64 then .int (2 * b) else .float 64)
  | .uint b, .int a => some (if b < a then .int a else if b < 64 then .int (2 * b) else .float 64)
  | .int a, .float f => some (.float (max f (floatFor a)))
  | .uint a, .float f => some (.float (max f (floatFor a)))
  | .float f, .int a => some (.float (max f (floatFor a)))
  | .float f, .uint a => some (.float (max f (floatFor a)))
  | .float a, .float b => some (.float (max a b))
  | .str a, .str b => some (.str (max a b))
  | _, _ => none

/-- The width of the text a value of the type is written as among texts:
the longest integer of its width with a sign for signed ones, five letters
for a truth value, 32 characters for a float. -/
def textWidth : DType → Nat
  | .bool => 5
  | .int 8 => 4
  | .int 16 => 6
  | .int 32 => 11
  | .int _ => 21
  | .uint 8 => 3
  | .uint 16 => 5
  | .uint 32 => 10
  | .uint _ => 20
  | .float _ => 32
  | .str w => w
  | .object => 0

/-- The type of an array holding values of both types: their promotion, or
text wide enough for both when a number meets text. -/
def join (a b : DType) : DType :=
  match promote a b with
  | some t => t
  | none => .str (max a.textWidth b.textWidth)

/-- The type an array is made with: text found empty throughout still takes
one character per element. -/
def allocated : DType → DType
  | .str 0 => .str 1
  | t => t

/-- The name of the class of the type. -/
def className : DType → String
  | .bool => "BoolDType"
  | .int b => s!"Int{b}DType"
  | .uint b => s!"UInt{b}DType"
  | .float b => s!"Float{b}DType"
  | .str _ => "StrDType"
  | .object => "ObjectDType"

end DType

/-- A plain number that carries no element type: it adapts to the other
operand. -/
inductive Weak where
  | int
  | float
deriving DecidableEq, Repr

/-- The type of an operand: a strong element type, or a weak plain number. -/
inductive OpType where
  | strong (t : DType)
  | weak (w : Weak)
deriving DecidableEq, Repr

/-- The type a weak number takes beside a strong type. -/
def Weak.beside : Weak → DType → DType
  | .int, .bool => .int 64
  | .int, t => t
  | .float, .bool => .float 64
  | .float, .int _ => .float 64
  | .float, .uint _ => .float 64
  | .float, t => t

/-- The type of a weak number on its own. -/
def Weak.alone : Weak → DType
  | .int => .int 64
  | .float => .float 64

/-- The common type of all operands: the strong ones promote among themselves
and the weak ones adapt to that; without a strong operand, a float makes
`float64` and integers `int64`. -/
def OpType.common (ts : List OpType) : Option DType :=
  let strong := ts.filterMap fun t => match t with
    | .strong d => some d
    | .weak _ => none
  let weak := ts.filterMap fun t => match t with
    | .weak w => some w
    | .strong _ => none
  match strong with
  | [] => some (if weak.contains .float then .float 64 else .int 64)
  | d :: ds =>
    match ds.foldlM DType.promote d with
    | none => none
    | some s => some (weak.foldl (fun acc w => w.beside acc) s)

/-- The name of the class of an operand's type; a weak number has a class
of its own. -/
def OpType.className : OpType → String
  | .strong t => t.className
  | .weak .int => "_PyLongDType"
  | .weak .float => "_PyFloatDType"

/-- The type of the result of choosing between operands: strong types join,
numbers among texts becoming text, and weak numbers adapt to that; a weak
number has no common type with text. -/
def OpType.choice (ts : List OpType) : Except Fault DType :=
  let strong := ts.filterMap fun t => match t with
    | .strong d => some d
    | .weak _ => none
  let weak := ts.filterMap fun t => match t with
    | .weak w => some w
    | .strong _ => none
  match strong with
  | [] => pure (if weak.contains .float then .float 64 else .int 64)
  | d :: ds =>
    let s := ds.foldl DType.join d
    match s, weak with
    | .str _, w :: _ =>
      let cls (n : String) : String := "<class 'numpy.dtypes." ++ n ++ "'>"
      let all := "(" ++ ", ".intercalate (ts.map fun t => cls t.className) ++ ")"
      throw ⟨.noCommonType, "The DType " ++ cls (OpType.weak w).className ++
        " could not be promoted by " ++ cls s.className ++ ". This means that no common DType " ++
        "exists for the given inputs. For example they cannot be stored in a single array " ++
        "unless the dtype is `object`. The full list of DTypes is: " ++ all⟩
    | s, _ => pure (weak.foldl (fun acc w => w.beside acc) s)

end Numeric
end Evolver
