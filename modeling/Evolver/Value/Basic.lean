import Evolver.Numeric.Cell
/-!
# Values

The values that programs take and return, and that genomes, bounds and
fitness scores are made of: nothing, booleans, integers of any size, doubles
and texts; lists and tuples of values; fixed-width scalars with an element
type; n-dimensional arrays, held as an element type, a shape and the cells
in row-major order; and objects of the library's own classes, such as an
individual standing where a score belongs.
-/

namespace Evolver

open Numeric

/-- A value of the program. -/
inductive Value where
  | none
  | bool (b : Bool)
  | int (n : Int)
  | float (x : Float)
  | str (s : String)
  | list (xs : List Value)
  | tuple (xs : List Value)
  /-- a fixed-width scalar of an element type -/
  | scalar (t : DType) (c : Cell)
  /-- an array: element type, shape, cells in row-major order -/
  | array (t : DType) (shape : List Nat) (cells : List Cell)
  /-- an object of a class of the library, known by its module, class name
  and identity -/
  | object (module name : String) (ref : Nat)
deriving Inhabited

namespace Value

/-- A plain value from a cell. -/
def ofCell : Cell → Value
  | .none => .none
  | .bool b => .bool b
  | .int n => .int n
  | .float x => .float x
  | .str s => .str s

/-- The cell of a plain scalar value. -/
def toCell? : Value → Option Cell
  | .none => some .none
  | .bool b => some (.bool b)
  | .int n => some (.int n)
  | .float x => some (.float x)
  | .str s => some (.str s)
  | _ => Option.none

/-- Whether the value is a number in the sense of the number tower: plain
booleans, integers and floats, and fixed-width integers and floats (a
fixed-width boolean is not one). -/
def isNumber : Value → Bool
  | .bool _ | .int _ | .float _ => true
  | .scalar t _ => t.isInteger || t.isFloat
  | _ => false

/-- Whether two values are the same plain scalar: same kind and same value,
`-0.0` apart from `0.0` and NaN equal to itself. -/
def sameAtom : Value → Value → Bool
  | .none, .none => true
  | .bool a, .bool b => a == b
  | .int a, .int b => a == b
  | .float a, .float b => a.toBits == b.toBits
  | .str a, .str b => a == b
  | _, _ => false

/-- Values whose one object is shared by every occurrence: nothing, the
booleans, integers from -5 to 256, and texts of at most one character below
code 256. -/
def isInterned : Value → Bool
  | .none => true
  | .bool _ => true
  | .int n => -5 ≤ n && n ≤ 256
  | .str s => s.length == 0 || (s.length == 1 && s.front.toNat < 256)
  | _ => false

/-- The number of cells of a shape. -/
def shapeSize (shape : List Nat) : Nat := shape.foldl (· * ·) 1

/-- The name of the class of a value, as `type(v)` shows it. -/
def className : Value → String
  | .none => "NoneType"
  | .bool _ => "bool"
  | .int _ => "int"
  | .float _ => "float"
  | .str _ => "str"
  | .list _ => "list"
  | .tuple _ => "tuple"
  | .scalar .bool _ => "numpy.bool"
  | .scalar (.str _) _ => "numpy.str_"
  | .scalar t _ => "numpy." ++ t.name
  | .array _ _ _ => "numpy.ndarray"
  | .object _ name _ => name

/-- The short class name, as attribute errors show it. -/
def shortClassName : Value → String
  | .scalar .bool _ => "numpy.bool"
  | .scalar (.str _) _ => "numpy.str_"
  | .scalar t _ => "numpy." ++ t.name
  | v => v.className

/-- `<class 'int'>`; the class of an object with its module. -/
def classText : Value → String
  | .object m name _ => "<class '" ++ m ++ "." ++ name ++ "'>"
  | v => "<class '" ++ v.className ++ "'>"

end Value

end Evolver
