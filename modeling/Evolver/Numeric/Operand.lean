import Evolver.Value.Basic
import Evolver.Fault
import Evolver.Value.Text
/-!
# Operands of element-wise functions

An element-wise function first turns each argument into an `Operand`: its
type (an element type, or weak for a plain integer or float), its shape and
its cells.  Lists become arrays (`Value.toArray`), whose shape is found
level by level and whose element type is the promotion of their items'.
Shapes are matched from the right, an axis of length one stretching to the
other (`broadcast`); `spread` lays an operand's cells out on the common shape.
-/

namespace Evolver
namespace Numeric

/-- An argument of an element-wise function. -/
structure Operand where
  type : OpType
  shape : List Nat
  cells : List Cell
  /-- whether the argument was an array, as opposed to a scalar -/
  isArray : Bool

/-- The text of a shape: `()`, `(3,)`, `(2, 3)`. -/
def shapeText : List Nat → String
  | [] => "()"
  | [n] => s!"({n},)"
  | ns => "(" ++ ", ".intercalate (ns.map toString) ++ ")"

/-- The largest and smallest integers of the default integer type. -/
def int64Max : Int := Int.pow 2 63 - 1
/-- The smallest integer of the default integer type. -/
def int64Min : Int := -(Int.pow 2 63)

/-- Whether an integer fits the default integer type. -/
def fitsInt64 (n : Int) : Bool := int64Min ≤ n && n ≤ int64Max

/-- Whether an integer fits the unsigned 64-bit integer type. -/
def fitsUInt64 (n : Int) : Bool := 0 ≤ n && n < Int.pow 2 64

/-- The element type a plain scalar takes in an array: an integer takes the
default integer type when it fits, else the unsigned 64-bit type when it
fits that, else it stays an object. -/
def plainType : Cell → DType
  | .none => .object
  | .bool _ => .bool
  | .int n => if fitsInt64 n then .int 64 else if fitsUInt64 n then .uint 64 else .object
  | .float _ => .float 64
  | .str s => .str s.length

/-- The common shape of two shapes, matched from the right. -/
def broadcast2 (a b : List Nat) : Option (List Nat) :=
  let ra := a.reverse
  let rb := b.reverse
  let n := max ra.length rb.length
  let dims := (List.range n).map fun i =>
    let x := ra.getD i 1
    let y := rb.getD i 1
    if x = y then some x else if x = 1 then some y else if y = 1 then some x else none
  (dims.mapM id).map List.reverse

/-- The common shape of several shapes. -/
def broadcast (shapes : List (List Nat)) : Option (List Nat) :=
  shapes.foldlM broadcast2 []

/-- The error of shapes that do not broadcast. -/
def broadcastFault (shapes : List (List Nat)) : Fault :=
  Fault.value ("operands could not be broadcast together with shapes " ++
    String.join (shapes.map fun s => shapeText s ++ " "))

/-- The coordinates of a flat row-major index in a shape. -/
def coords (shape : List Nat) (i : Nat) : List Nat :=
  (shape.foldr (fun d (acc : List Nat × Nat) =>
    let (cs, rest) := acc
    (rest % d :: cs, rest / d)) ([], i)).1

/-- The flat row-major index of coordinates in a shape. -/
def flatIndex (shape : List Nat) (cs : List Nat) : Nat :=
  (shape.zip cs).foldl (fun acc (d, c) => acc * d + c) 0

/-- The cells of a shape laid out on a larger shape it broadcasts to. -/
def spread (shape : List Nat) (cells : List Cell) (target : List Nat) : List Cell :=
  if shape = target then cells
  else
    let arr := cells.toArray
    let k := target.length - shape.length
    (List.range (Value.shapeSize target)).map fun i =>
      let cs := (coords target i).drop k
      let src := (shape.zip cs).map fun (d, c) => if d = 1 then 0 else c
      arr.getD (flatIndex shape src) .none

/-- The longest common front of several lists. -/
def commonFront : List (List Nat) → List Nat
  | [] => []
  | s :: rest => rest.foldl (fun acc t => (acc.zip t).takeWhile (fun (a, b) => a = b) |>.map (·.1)) s

/-- The error of nested sequences of unequal shapes. -/
def ragged (shape : List Nat) : Fault :=
  Fault.value ("setting an array element with a sequence. The requested array has an " ++
    s!"inhomogeneous shape after {shape.length} dimensions. The detected shape was " ++
    shapeText shape ++ " + inhomogeneous part.")

/-- A cell as an element of text: numbers and truth values written out,
text and anything else kept. -/
def Cell.asText : Cell → Cell
  | .bool b => .str (if b then "True" else "False")
  | .int n => .str (toString n)
  | .float x => .str (Value.floatText x)
  | c => c

end Numeric

open Numeric

namespace Value

/-- The element type, shape and cells found in a value.  A plain scalar is
a zero-dimensional array; nested lists and tuples are stacked when their
items share one shape. -/
def discover : Value → Except Fault (DType × List Nat × List Cell)
  | .array t s c => pure (t, s, c)
  | .scalar t c => pure (t, [], [c])
  | .list xs => ofItems xs
  | .tuple xs => ofItems xs
  | .none => pure (.object, [], [.none])
  | .bool b => pure (.bool, [], [.bool b])
  | .int n => pure (plainType (.int n), [], [.int n])
  | .float x => pure (.float 64, [], [.float x])
  | .str s => pure (.str s.length, [], [.str s])
  | .object _ _ _ => throw (Fault.request "an object in an array")
where
  ofItems (xs : List Value) : Except Fault (DType × List Nat × List Cell) := do
    let parts ← xs.attach.mapM fun ⟨x, _⟩ => discover x
    match parts with
    | [] => pure (.float 64, [0], [])
    | (t0, s0, _) :: _ =>
      if parts.all (fun (_, s, _) => s == s0) then
        let t := parts.foldl (fun acc (t, _, _) => DType.join acc t) t0
        let cells := parts.foldr (fun (pt, _, cs) acc => cs.map (castInto pt t) ++ acc) []
        pure (t, xs.length :: s0, cells)
      else throw (ragged (xs.length :: commonFront (parts.map fun (_, s, _) => s)))
  castInto (src dst : DType) (c : Cell) : Cell :=
    match dst with
    | .str _ => c.asText
    | .object => c
    | _ => if src == dst then c else c.cast dst

/-- The array a value stands for: the type found in it as an array is made
with it (`DType.allocated`), its shape and its cells. -/
def toArray (v : Value) : Except Fault (DType × List Nat × List Cell) := do
  let (t, s, c) ← v.discover
  pure (t.allocated, s, c)

/-- The operand a value gives to an element-wise function of several
arguments: plain integers of any size and plain floats are weak. -/
def toOperand (v : Value) : Except Fault Operand :=
  match v with
  | .int n => pure ⟨.weak .int, [], [.int n], false⟩
  | .float x => pure ⟨.weak .float, [], [.float x], false⟩
  | .array t s c => pure ⟨.strong t, s, c, true⟩
  | _ => do
    let (t, s, c) ← v.toArray
    pure ⟨.strong t, s, c, !s.isEmpty⟩

end Value

end Evolver
