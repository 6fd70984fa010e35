import Evolver.Numeric.Operand
import Evolver.Decimal.Read
/-!
# Element-wise functions

`Unary.apply` and `Binary.apply` run a function cell by cell over operands
brought to a common shape.  The cells are computed in the common element
type of the operands (`OpType.common`):

* integers wrap to their width; booleans add as *or* and multiply as *and*,
  and have no subtraction or negation;
* floats of 16 and 32 bits are computed in 32 bits and rounded back, floats
  of 64 bits in 64;
* division, square root, logarithm and the trigonometric functions take
  integers and booleans to a float (`DType.inexact`);
* comparisons and the logical functions give booleans;
* objects (integers beyond 64 bits, nothing) use plain arithmetic;
* a plain whole number beside another operand is weak whatever its size: it
  is stored into the type computed in once that is known (`storeInt`), and
  fails there when it does not fit, except that an integer array compares
  with it exactly.

A result of shape `()` is a scalar, else an array.  `whereSelect`,
`argmaxPair` and `fullLike` are the three array builders the primitives use.
-/

namespace Evolver
namespace Numeric

/-- Compare an integer with a finite or infinite double exactly; `none` for NaN. -/
def cmpIntFloat (n : Int) (x : Float) : Option Ordering :=
  if x.isNaN then none
  else if x.isInf then some (if x > 0 then .lt else .gt)
  else
    let b := Decimal.Binary.ofBits x.toBits
    let neg := (x.toBits >>> 63) == 1
    -- x = ±m·2^q; compare n·2^(-q) with ±m when q < 0, else n with ±m·2^q
    let lhs : Int := if b.q < 0 then n * Nat.pow 2 (-b.q).toNat else n
    let mag : Int := if b.q < 0 then b.m else b.m * Nat.pow 2 b.q.toNat
    let rhs : Int := if neg then -mag else mag
    some (compare lhs rhs)

/-- The class name of a plain cell, as messages show it. -/
def cellClass : Cell → String
  | .none => "NoneType"
  | .bool _ => "bool"
  | .int _ => "int"
  | .float _ => "float"
  | .str _ => "str"

/-- Plain comparison of two cells: numbers by value (an integer against a
float exactly), texts by code points; other pairs cannot be ordered. -/
def plainCompare (sym : String) (a b : Cell) : Except Fault (Option Ordering) :=
  let bad : Fault := Fault.type
    s!"'{sym}' not supported between instances of '{cellClass a}' and '{cellClass b}'"
  match a, b with
  | .str x, .str y => pure (some (compare x y))
  | .float x, .float y =>
    pure (if x.isNaN || y.isNaN then none else if x < y then some .lt else if x == y then some .eq else some .gt)
  | .float x, b => match b.toInt? with
    | some n => pure ((cmpIntFloat n x).map Ordering.swap)
    | none => throw bad
  | a, .float y => match a.toInt? with
    | some n => pure (cmpIntFloat n y)
    | none => throw bad
  | a, b => match a.toInt?, b.toInt? with
    | some x, some y => pure (some (compare x y))
    | _, _ => throw bad

/-- Bits of two integers combined by a function on naturals, at a width. -/
def bitsOp (w : Nat) (op : Nat → Nat → Nat) (a b : Int) : Int :=
  let ua := (a % Int.pow 2 w).toNat
  let ub := (b % Int.pow 2 w).toNat
  wrapSigned w (op ua ub)

/-- The failure of repeating text by a cell that is not a whole number. -/
def repeatFault (sym : String) (c : Cell) (bad : Fault) : Fault :=
  if sym = "*" then Fault.type s!"can't multiply sequence by non-int of type '{cellClass c}'" else bad

/-- Text repeated a whole number of times (none for a count below one); a
count beyond 64 bits does not fit a length. -/
def repeatText (sym : String) (x : String) (c : Cell) (bad : Fault) : Except Fault Cell :=
  match c.toInt? with
  | some n =>
    if sym ≠ "*" then throw bad
    else if n > int64Max then throw ⟨.outOfRange, "cannot fit 'int' into an index-sized integer"⟩
    else pure (.str (String.join (List.replicate n.toNat x)))
  | none => throw (repeatFault sym c bad)

/-- Bits of two whole numbers of any size combined as two's complement
(`&` or `|`), truth values giving a truth value. -/
def plainBits (sym : String) (a b : Cell) : Except Fault Cell :=
  let combine (f : Nat → Nat → Nat) (x y : Int) : Int :=
    bitsOp (max x.natAbs.log2 y.natAbs.log2 + 2) f x y
  let op : Nat → Nat → Nat := if sym = "&" then (· &&& ·) else (· ||| ·)
  match a, b with
  | .bool x, .bool y => pure (.bool (if sym = "&" then x && y else x || y))
  | a, b => match a.toInt?, b.toInt? with
    | some x, some y => pure (.int (combine op x y))
    | _, _ => throw (Fault.type s!"unsupported operand type(s) for {sym}: '{cellClass a}' and '{cellClass b}'")

/-- The magnitude from which a whole number rounds to an infinite double:
halfway between the greatest double and `2^1024`, where ties go up. -/
def floatLimit : Nat := Nat.pow 2 1024 - Nat.pow 2 970

/-- A whole number too large to become a double. -/
def Cell.beyondDouble : Cell → Bool
  | .int n => n.natAbs ≥ floatLimit
  | _ => false

/-- Plain arithmetic on cells, for object arrays.  A whole number meets a
float as the nearest double, and fails when it has none; a quotient of whole
numbers beyond the doubles fails too. -/
def plainArith (sym : String) (a b : Cell) : Except Fault Cell :=
  let bad : Fault := Fault.type
    s!"unsupported operand type(s) for {sym}: '{cellClass a}' and '{cellClass b}'"
  match a.toInt?, b.toInt? with
  | some x, some y =>
    if sym = "+" then pure (.int (x + y))
    else if sym = "-" then pure (.int (x - y))
    else if sym = "*" then pure (.int (x * y))
    else if sym = "/" then
      if y = 0 then throw ⟨.divisionByZero, "division by zero"⟩
      else
        let q := Decimal.ratToFloat x.natAbs y.natAbs ((x < 0) != (y < 0))
        if q.isInf then throw ⟨.outOfRange, "integer division result too large for a float"⟩
        else pure (.float q)
    else throw bad
  | _, _ =>
    match a.toFloat?, b.toFloat? with
    | some x, some y =>
      if a.beyondDouble || b.beyondDouble then throw ⟨.outOfRange, "int too large to convert to float"⟩
      else if sym = "+" then pure (.float (x + y))
      else if sym = "-" then pure (.float (x - y))
      else if sym = "*" then pure (.float (x * y))
      else if sym = "/" then
        if y == 0 then throw ⟨.divisionByZero, "float division by zero"⟩ else pure (.float (x / y))
      else throw bad
    | _, _ =>
      match a, b with
      | .str x, .str y => if sym = "+" then pure (.str (x ++ y)) else throw (repeatFault sym b bad)
      | .str x, c => if sym = "+" then throw (Fault.type s!"can only concatenate str (not \"{cellClass c}\") to str")
        else repeatText sym x c bad
      | c, .str x => repeatText sym x c bad
      | _, _ => throw bad

/-- A two-argument float function at a width: 64 bits directly, 32 and 16
bits through single precision. -/
def floatOp2 (bits : Nat) (f : Float → Float → Float) (g : Float32 → Float32 → Float32)
    (a b : Float) : Float :=
  if bits = 64 then f a b
  else narrow bits (g a.toFloat32 b.toFloat32).toFloat

/-- A one-argument float function at a width. -/
def floatOp1 (bits : Nat) (f : Float → Float) (g : Float32 → Float32) (a : Float) : Float :=
  if bits = 64 then f a
  else narrow bits (g a.toFloat32).toFloat

/-- An integer result at an integer element type. -/
def wrapAt : DType → Int → Int
  | .int w, n => wrapSigned w n
  | .uint w, n => wrapUnsigned w n
  | _, n => n

/-- The float of a cell, zero for what is not a number. -/
def fl (c : Cell) : Float := c.toFloat?.getD 0

/-- The integer of a cell, zero for what is not an integer. -/
def it (c : Cell) : Int := c.toInt?.getD 0

/-- The message of a function without a computation for its element types. -/
def unsupported (name : String) : Fault :=
  Fault.type (s!"ufunc '{name}' not supported for the input types, and the inputs could not " ++
    "be safely coerced to any supported types according to the casting rule ''safe''")

/-- The failure of a function without a computation for the operand types
`types`, written as their classes or their types. -/
def noLoop (name types : String) : Fault :=
  ⟨.noLoop, s!"ufunc '{name}' did not contain a loop with signature matching types {types} -> None"⟩

/-- The text of an operand's element type as a type: `dtype('int64')`. -/
def OpType.typeText : OpType → String
  | .strong t => "dtype('" ++ t.name ++ "')"
  | .weak w => "dtype('" ++ w.alone.name ++ "')"

/-- The text of an operand's element-type class. -/
def OpType.classText (t : OpType) : String := "<class 'numpy.dtypes." ++ t.className ++ "'>"

/-- Whether the operand is text. -/
def OpType.isText : OpType → Bool
  | .strong (.str _) => true
  | _ => false

/-- Whether the operand holds objects. -/
def OpType.isObject : OpType → Bool
  | .strong .object => true
  | _ => false

/-- Functions of one argument. -/
inductive Unary where
  | negative
  | absolute
  | sqrt
  | log
  | sin
  | cos
  | tan
  | logicalNot
  /-- the logistic function `1 / (1 + e^-x)`, computed in single precision at
  the least -/
  | expit
deriving DecidableEq, Repr

/-- Functions of two arguments. -/
inductive Binary where
  | add
  | subtract
  | multiply
  | divide
  | maximum
  | minimum
  | bitwiseAnd
  | bitwiseOr
  | logicalAnd
  | logicalOr
  | lessEqual
  | greater
  | less
  | greaterEqual
  | equal
deriving DecidableEq, Repr

/-- The name of a function of one argument. -/
def Unary.name : Unary → String
  | .negative => "negative"
  | .absolute => "absolute"
  | .sqrt => "sqrt"
  | .log => "log"
  | .sin => "sin"
  | .cos => "cos"
  | .tan => "tan"
  | .logicalNot => "logical_not"
  | .expit => "expit"

/-- The name of a function of two arguments. -/
def Binary.name : Binary → String
  | .add => "add"
  | .subtract => "subtract"
  | .multiply => "multiply"
  | .divide => "divide"
  | .maximum => "maximum"
  | .minimum => "minimum"
  | .bitwiseAnd => "bitwise_and"
  | .bitwiseOr => "bitwise_or"
  | .logicalAnd => "logical_and"
  | .logicalOr => "logical_or"
  | .lessEqual => "less_equal"
  | .greater => "greater"
  | .less => "less"
  | .greaterEqual => "greater_equal"
  | .equal => "equal"

/-- The element type a function of one argument computes in, and the type
of its results. -/
def Unary.loop (f : Unary) (t : DType) : Except Fault (DType × DType) :=
  match f, t with
  | .negative, .bool => throw (Fault.type ("The numpy boolean negative, the `-` operator, is not " ++
      "supported, use the `~` operator or the logical_not function instead."))
  | .logicalNot, .object => pure (.object, .object)
  | .logicalNot, .str _ => throw (unsupported f.name)
  | .logicalNot, t => pure (t, .bool)
  | .negative, .str _ | .absolute, .str _ =>
    throw (noLoop f.name (OpType.strong t).classText)
  | _, .str _ => throw (unsupported f.name)
  | .negative, t => pure (t, t)
  | .absolute, t => pure (t, t)
  | .expit, .object => throw (unsupported f.name)
  | .expit, t => match t.inexact with
    | .float 16 => pure (.float 32, .float 32)
    | u => pure (u, u)
  | _, .object => pure (.object, .object)
  | _, t => pure (t.inexact, t.inexact)

/-- The element type a function of two arguments computes in, and the type
of its results. -/
def Binary.loop (f : Binary) (t : DType) : Except Fault (DType × DType) :=
  match f, t with
  | .subtract, .bool => throw (Fault.type ("numpy boolean subtract, the `-` operator, is not " ++
      "supported, use the bitwise_xor, the `^` operator, or the logical_xor function instead."))
  | .lessEqual, t => pure (t, .bool)
  | .greater, t => pure (t, .bool)
  | .less, t => pure (t, .bool)
  | .greaterEqual, t => pure (t, .bool)
  | .equal, t => pure (t, .bool)
  | .add, .str _ => pure (t, t)
  | _, .str _ => throw (unsupported f.name)
  | .logicalAnd, .object => pure (.object, .object)
  | .logicalOr, .object => pure (.object, .object)
  | .logicalAnd, _ => pure (.bool, .bool)
  | .logicalOr, _ => pure (.bool, .bool)
  | .bitwiseAnd, .float _ => throw (unsupported f.name)
  | .bitwiseOr, .float _ => throw (unsupported f.name)
  | .divide, .bool => pure (.float 64, .float 64)
  | .divide, .int _ => pure (.float 64, .float 64)
  | .divide, .uint _ => pure (.float 64, .float 64)
  | _, t => pure (t, t)

/-- One cell of a function of one argument, computed at element type `t`. -/
def Unary.cell (f : Unary) (t : DType) (c : Cell) : Except Fault Cell :=
  match f, t with
  | .logicalNot, _ => pure (.bool !c.truthy)
  | .negative, .float _ => pure (.float (-(fl c)))
  | .negative, .object => match c with
    | .float x => pure (.float (-x))
    | c => match c.toInt? with
      | some n => pure (.int (-n))
      | none => throw (Fault.type s!"bad operand type for unary -: '{cellClass c}'")
  | .negative, t => pure (.int (wrapAt t (-(it c))))
  | .absolute, .bool => pure c
  | .absolute, .float _ => pure (.float (fl c).abs)
  | .absolute, .object => match c with
    | .float x => pure (.float x.abs)
    | c => match c.toInt? with
      | some n => pure (.int n.natAbs)
      | none => throw (Fault.type s!"bad operand type for abs(): '{cellClass c}'")
  | .absolute, t => pure (.int (wrapAt t (it c).natAbs))
  | _, .object => throw (Fault.type
      s!"loop of ufunc does not support argument 0 of type {cellClass c} which has no callable {f.name} method")
  | .sqrt, .float w => pure (.float (floatOp1 w Float.sqrt Float32.sqrt (fl c)))
  | .log, .float w => pure (.float (floatOp1 w Float.log Float32.log (fl c)))
  | .sin, .float w => pure (.float (floatOp1 w Float.sin Float32.sin (fl c)))
  | .cos, .float w => pure (.float (floatOp1 w Float.cos Float32.cos (fl c)))
  | .tan, .float w => pure (.float (floatOp1 w Float.tan Float32.tan (fl c)))
  | .expit, .float w =>
    pure (.float (floatOp1 w (fun x => 1.0 / (1.0 + Float.exp (-x))) (fun x => 1.0 / (1.0 + Float32.exp (-x))) (fl c)))
  | _, _ => throw (unsupported f.name)

/-- The larger of two floats, NaN winning: the first unless the second is
larger or NaN. -/
def floatMax (a b : Float) : Float := if a >= b || a.isNaN then a else b

/-- The smaller of two floats, NaN winning. -/
def floatMin (a b : Float) : Float := if a <= b || a.isNaN then a else b

/-- Compare two cells computed at element type `t`; `none` when unordered
(NaN).  Objects compare as plain values, and a failure names the operator
`sym`. -/
def cellCompare (sym : String) (t : DType) (a b : Cell) : Except Fault (Option Ordering) :=
  match t with
  | .float _ =>
    let x := fl a
    let y := fl b
    pure (if x.isNaN || y.isNaN then none else if x < y then some .lt else if x == y then some .eq else some .gt)
  | .object => plainCompare sym a b
  | .str _ => match a, b with
    | .str x, .str y => pure (some (compare x y))
    | _, _ => pure none
  | _ => pure (some (compare (it a) (it b)))

/-- One cell of a function of two arguments, computed at element type `t`. -/
def Binary.cell (f : Binary) (t : DType) (a b : Cell) : Except Fault Cell :=
  match f, t with
  | .lessEqual, t => do
    let o ← cellCompare "<=" t a b
    pure (.bool (o == some .lt || o == some .eq))
  | .greater, t => do
    let o ← cellCompare ">" t a b
    pure (.bool (o == some .gt))
  | .less, t => do
    let o ← cellCompare "<" t a b
    pure (.bool (o == some .lt))
  | .greaterEqual, t => do
    let o ← cellCompare ">=" t a b
    pure (.bool (o == some .gt || o == some .eq))
  | .equal, .object => pure (.bool (match a, b with
    | .none, .none => true
    | _, _ => match plainCompare "==" a b with
      | .ok o => o == some .eq
      | .error _ => false))
  | .equal, t => do
    let o ← cellCompare "==" t a b
    pure (.bool (o == some .eq))
  | .logicalAnd, .object => pure (if a.truthy then b else a)
  | .logicalOr, .object => pure (if a.truthy then a else b)
  | .logicalAnd, _ => pure (.bool (a.truthy && b.truthy))
  | .logicalOr, _ => pure (.bool (a.truthy || b.truthy))
  | .maximum, .object => do
    let o ← plainCompare ">=" a b
    pure (if o == some .gt || o == some .eq then a else b)
  | .minimum, .object => do
    let o ← plainCompare "<=" a b
    pure (if o == some .lt || o == some .eq then a else b)
  | .bitwiseAnd, .object => plainBits "&" a b
  | .bitwiseOr, .object => plainBits "|" a b
  | .add, .str _ => match a, b with
    | .str x, .str y => pure (.str (x ++ y))
    | _, _ => throw (unsupported f.name)
  | .add, .object => plainArith "+" a b
  | .subtract, .object => plainArith "-" a b
  | .multiply, .object => plainArith "*" a b
  | .divide, .object => plainArith "/" a b
  | .add, .bool => pure (.bool (a.truthy || b.truthy))
  | .multiply, .bool => pure (.bool (a.truthy && b.truthy))
  | .maximum, .bool => pure (.bool (a.truthy || b.truthy))
  | .minimum, .bool => pure (.bool (a.truthy && b.truthy))
  | .bitwiseAnd, .bool => pure (.bool (a.truthy && b.truthy))
  | .bitwiseOr, .bool => pure (.bool (a.truthy || b.truthy))
  | .add, .float w => pure (.float (floatOp2 w (· + ·) (· + ·) (fl a) (fl b)))
  | .subtract, .float w => pure (.float (floatOp2 w (· - ·) (· - ·) (fl a) (fl b)))
  | .multiply, .float w => pure (.float (floatOp2 w (· * ·) (· * ·) (fl a) (fl b)))
  | .divide, .float w => pure (.float (floatOp2 w (· / ·) (· / ·) (fl a) (fl b)))
  | .maximum, .float _ => pure (.float (floatMax (fl a) (fl b)))
  | .minimum, .float _ => pure (.float (floatMin (fl a) (fl b)))
  | .add, t => pure (.int (wrapAt t (it a + it b)))
  | .subtract, t => pure (.int (wrapAt t (it a - it b)))
  | .multiply, t => pure (.int (wrapAt t (it a * it b)))
  | .maximum, _ => pure (.int (max (it a) (it b)))
  | .minimum, _ => pure (.int (min (it a) (it b)))
  | .bitwiseAnd, .int w => pure (.int (bitsOp w (· &&& ·) (it a) (it b)))
  | .bitwiseOr, .int w => pure (.int (bitsOp w (· ||| ·) (it a) (it b)))
  | .bitwiseAnd, .uint w => pure (.int (wrapUnsigned w ((it a).toNat &&& (it b).toNat)))
  | .bitwiseOr, .uint w => pure (.int (wrapUnsigned w ((it a).toNat ||| (it b).toNat)))
  | _, _ => throw (unsupported f.name)

/-- The failure of a whole number beyond the signed 64-bit machine integer
where one is read. -/
def tooLarge : Fault := ⟨.outOfRange, "Python int too large to convert to C long"⟩

/-- The failure of a whole number outside the range of an integer type. -/
def outOfBounds (n : Int) (t : DType) : Fault :=
  ⟨.outOfRange, s!"Python integer {n} out of bounds for {t.name}"⟩

/-- A plain whole number stored as one cell of element type `t`.  An integer
type reads it as a signed 64-bit machine integer (the unsigned types of 32
and 64 bits as an unsigned one first, then as a signed one), so a number
that cannot be read fails as too large, and one that is read but does not
fit the type fails as out of bounds.  A float type takes the nearest
double, rounded to its width; a boolean the number's truth; an object the
number itself. -/
def storeInt (t : DType) (n : Int) : Except Fault Cell :=
  match t with
  | .int w =>
    if !fitsInt64 n then throw tooLarge
    else if n < -Int.pow 2 (w - 1) ∨ n ≥ Int.pow 2 (w - 1) then throw (outOfBounds n t)
    else pure (.int n)
  | .uint w =>
    let read := if w ≥ 32 then fitsUInt64 n || fitsInt64 n else fitsInt64 n
    if !read then throw tooLarge
    else if n < 0 ∨ n ≥ Int.pow 2 w then throw (outOfBounds n t)
    else pure (.int n)
  | .float _ =>
    if n.natAbs ≥ floatLimit then throw ⟨.outOfRange, "int too large to convert to float"⟩
    else pure ((Cell.int n).cast t)
  | .bool => pure (.bool (n != 0))
  | _ => pure (.int n)

/-- A plain whole number brought to element type `t` from the array it
makes on its own: one of a 64-bit integer type converts without a check
(integers wrap), one held as an object is stored (`storeInt`). -/
def convertInt (t : DType) (n : Int) : Except Fault Cell :=
  match plainType (.int n), t with
  | .object, t => storeInt t n
  | _, .object => pure (.int n)
  | _, t => pure ((Cell.int n).cast t)

/-- Cells brought to an element type: numbers are cast, or written out for
text; objects are kept. -/
def castCells (t : DType) (cs : List Cell) : List Cell :=
  match t with
  | .object => cs
  | .str _ => cs.map Cell.asText
  | t => cs.map (Cell.cast t)

/-- A computed result: a scalar for shape `()`, a plain value for objects;
a text scalar is as wide as its text. -/
def package (t : DType) (shape : List Nat) (cells : List Cell) : Value :=
  match shape with
  | [] => match t, cells.headD .none with
    | .object, c => Value.ofCell c
    | .str _, .str x => Value.scalar (.str x.length) (.str x)
    | t, c => Value.scalar t c
  | _ => Value.array t shape cells

/-- Apply a function of one argument.  The argument is an array on its own,
so a plain number takes its own type and is not weak. -/
def Unary.apply (f : Unary) (x : Value) : Except Fault Value := do
  let (t, shape, cells) ← x.toArray
  let (loopT, outT) ← f.loop t
  let cells ← (castCells loopT cells).mapM (f.cell loopT)
  pure (package outT shape cells)

/-- The comparisons. -/
def Binary.isComparison : Binary → Bool
  | .lessEqual | .greater | .less | .greaterEqual | .equal => true
  | _ => false

/-- The cells of an operand in the element type `t` a function computes in:
a weak whole number is stored (`storeInt`), or kept as it is when `exact`;
anything else is cast. -/
def Operand.cellsIn (t : DType) (exact : Bool) (o : Operand) : Except Fault (List Cell) :=
  match o.type with
  | .weak .int => if exact then pure o.cells else o.cells.mapM fun c => storeInt t (it c)
  | _ => pure (castCells t o.cells)

/-- Whether the function computes on two texts: joining and comparing do. -/
def Binary.onText : Binary → Bool
  | .add | .lessEqual | .greater | .less | .greaterEqual | .equal => true
  | _ => false

/-- The failure of a function of two arguments on text beside something
else that is not an object, or on two texts it does not compute on:
arithmetic and the extremes name the operands' types, division and the
bitwise functions find no coercion, the rest name the operands' classes. -/
def Binary.textFault (f : Binary) (a b : OpType) : Fault :=
  match f with
  | .add | .subtract | .multiply | .maximum | .minimum =>
    noLoop f.name ("(" ++ a.typeText ++ ", " ++ b.typeText ++ ")")
  | .divide | .bitwiseAnd | .bitwiseOr => unsupported f.name
  | _ => noLoop f.name ("(" ++ a.classText ++ ", " ++ b.classText ++ ")")

/-- The result type of joining two texts: as wide as both together. -/
def joinedText (a b : OpType) (t : DType) : DType :=
  match a, b with
  | .strong (.str u), .strong (.str v) => .str (u + v)
  | _, _ => t

/-- Apply a function of two arguments. -/
def Binary.apply (f : Binary) (x y : Value) : Except Fault Value := do
  let a ← x.toOperand
  let b ← y.toOperand
  if (a.type.isText || b.type.isText) && !(a.type.isObject || b.type.isObject) &&
      !(a.type.isText && b.type.isText && f.onText) then
    throw (f.textFault a.type b.type)
  let t ← match OpType.common [a.type, b.type] with
    | some t => pure t
    | none => throw (unsupported f.name)
  let (loopT, outT) ← f.loop t
  let outT := if f == .add then joinedText a.type b.type outT else outT
  -- integers and whole numbers of any size compare exactly
  let exact := f.isComparison && [a.type, b.type].all fun
    | .strong d => d.isInteger
    | .weak w => w == .int
  let ca ← a.cellsIn loopT exact
  let cb ← b.cellsIn loopT exact
  let shape ← match broadcast [a.shape, b.shape] with
    | some s => pure s
    | none => throw (broadcastFault [a.shape, b.shape])
  let cells ← ((spread a.shape ca shape).zip (spread b.shape cb shape)).mapM fun (p, q) =>
    f.cell loopT p q
  pure (package outT shape cells)

/-- Choose cell by cell from `x` where the condition holds and from `y`
elsewhere; the result is always an array, of the common element type. -/
def whereSelect (cond x y : Value) : Except Fault Value := do
  let (_, sc, cc) ← cond.toArray
  let a ← x.toOperand
  let b ← y.toOperand
  let t ← OpType.choice [a.type, b.type]
  let shape ← match broadcast [sc, a.shape, b.shape] with
    | some s => pure s
    | none => throw (broadcastFault [sc, a.shape, b.shape])
  let conds := spread sc cc shape
  let bring (o : Operand) : Except Fault (List Cell) :=
    let cs := spread o.shape o.cells shape
    match o.type with
    | .weak .int => cs.mapM fun c => convertInt t (it c)
    | _ => pure (castCells t cs)
  let ca ← bring a
  let cb ← bring b
  let cells := ((conds.zip ca).zip cb).map fun ((c, p), q) => if c.truthy then p else q
  pure (Value.array t shape cells)

/-- The failure of an index search over objects that cannot be ordered: the
comparison fails inside, but the search gives its result back all the same,
and the call as a whole fails for that. -/
def argmaxPending : Fault :=
  ⟨.pendingFailure, "<built-in method argmax of numpy.ndarray object> returned a result with an exception set"⟩

/-- The index (0 or 1) of the larger of two stacked values, cell by cell:
the first on ties, a NaN counting as largest among floats; objects that
cannot be ordered fail the search (`argmaxPending`). -/
def argmaxPair (x0 x1 : Value) : Except Fault Value := do
  let (t, shape, cells) ← (Value.list [x0, x1]).toArray
  let rest := shape.drop 1
  let n := Value.shapeSize rest
  let firsts := cells.take n
  let seconds := cells.drop n
  let idx ← (firsts.zip seconds).mapM fun (p, q) => do
    if t.isFloat && (fl p).isNaN then pure (Cell.int 0)
    else if t.isFloat && (fl q).isNaN then pure (Cell.int 1)
    else
      let o ← (cellCompare ">" t q p).mapError fun f => if t == .object then argmaxPending else f
      pure (Cell.int (if o == some .gt then 1 else 0))
  pure (match rest with
    | [] => Value.scalar (.int 64) (idx.headD (.int 0))
    | _ => Value.array (.int 64) rest idx)

/-- The value converted to another element type, a scalar staying a scalar;
a plain value (the single result of a function over objects) has no such
conversion. -/
def castValue (t : DType) (v : Value) : Except Fault Value :=
  match v with
  | .scalar _ c => pure (.scalar t (c.cast t))
  | .array _ s cs => pure (.array t s (cs.map (Cell.cast t)))
  | v => throw (Fault.missingAttribute s!"'{v.className}' object has no attribute 'astype'")

end Numeric
end Evolver
