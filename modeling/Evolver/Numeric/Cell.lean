import Evolver.Numeric.DType
import Evolver.Decimal.Read
/-!
# Cells: the scalars inside arrays

A `Cell` is one scalar: nothing, a boolean, an integer of any size, a double,
or a text.  A cell of an array of element type `t` is kept in the form that
`t` allows: integers wrapped to the width, floats rounded to the precision
(`Cell.cast`).  Narrow floats are kept as the doubles they equal:
`roundBinary16` rounds a double to the nearest binary16 value, ties to even,
with subnormals and overflow to infinity.
-/

namespace Evolver
namespace Numeric

/-- One scalar of an array. -/
inductive Cell where
  | none
  | bool (b : Bool)
  | int (n : Int)
  | float (x : Float)
  | str (s : String)
deriving Inhabited

/-- Wrap an integer into the signed range of `bits` bits. -/
def wrapSigned (bits : Nat) (n : Int) : Int :=
  let m : Int := Int.pow 2 bits
  let h : Int := Int.pow 2 (bits - 1)
  (n + h) % m - h

/-- Wrap an integer into the unsigned range of `bits` bits. -/
def wrapUnsigned (bits : Nat) (n : Int) : Int := n % Int.pow 2 bits

/-- The double nearest to an integer of any size, ties to even. -/
def intToFloat (n : Int) : Float := (Decimal.Dec.mk n.natAbs 0).toFloat (n < 0)

/-- The nearest binary16 value to a double, as a double; ties go to the even
significand, magnitudes from 65520 up become infinite. -/
def roundBinary16 (x : Float) : Float :=
  if x.isNaN || x.isInf || x == 0 then x
  else
    let b := Decimal.Binary.ofBits x.toBits
    let neg := (x.toBits >>> 63) == 1
    -- the exponent of the leading bit of m * 2^q
    let lead : Int := (b.m.log2 : Int) + b.q
    -- the unit of the last place kept: 2^-24 for subnormals, else 2^(lead-10)
    let unit : Int := max (lead - 10) (-24)
    let k : Nat :=
      if unit ≤ b.q then b.m * Nat.pow 2 (b.q - unit).toNat
      else Decimal.roundDivEven b.m (Nat.pow 2 (unit - b.q).toNat)
    let mag : Float :=
      if k * Nat.pow 2 (unit + 24).toNat > 65504 * Nat.pow 2 24 then Float.ofBits 0x7FF0000000000000
      else if 0 ≤ unit then (Decimal.Dec.mk (k * Nat.pow 2 unit.toNat) 0).toFloat false
      else (Decimal.Dec.mk (k * Nat.pow 5 (-unit).toNat) unit).toFloat false
    if neg then -mag else mag

/-- The nearest binary32 value to a double, as a double. -/
def roundBinary32 (x : Float) : Float := x.toFloat32.toFloat

/-- Round a double to a float width. -/
def narrow (bits : Nat) (x : Float) : Float :=
  if bits = 16 then roundBinary16 x
  else if bits = 32 then roundBinary32 x
  else x

/-- The integer part of a double toward zero, as the conversion to a
`bits`-bit integer gives it: NaN and values out of range give the least
integer of the width. -/
def floatToInt (bits : Nat) (x : Float) : Int :=
  let lo : Int := -Int.pow 2 (bits - 1)
  if x.isNaN || x.isInf then lo
  else
    let b := Decimal.Binary.ofBits x.toBits
    let mag : Nat := if 0 ≤ b.q then b.m * Nat.pow 2 b.q.toNat else b.m / Nat.pow 2 (-b.q).toNat
    let n : Int := if (x.toBits >>> 63) == 1 then -(mag : Int) else mag
    if n < lo ∨ n ≥ Int.pow 2 (bits - 1) then lo else n

namespace Cell

/-- The truth of a cell: non-zero numbers (NaN included) and non-empty texts. -/
def truthy : Cell → Bool
  | .none => false
  | .bool b => b
  | .int n => n != 0
  | .float x => x != 0
  | .str s => !s.isEmpty

/-- A cell as a double, if it is a number. -/
def toFloat? : Cell → Option Float
  | .bool b => some (if b then 1 else 0)
  | .int n => some (intToFloat n)
  | .float x => some x
  | _ => Option.none

/-- A cell as an integer, if it is a boolean or an integer. -/
def toInt? : Cell → Option Int
  | .bool b => some (if b then 1 else 0)
  | .int n => some n
  | _ => Option.none

/-- Convert a numeric cell to a numeric element type, as an unchecked cast
does: integers wrap, floats are truncated toward zero or rounded to the
precision.  Texts and nothing are left as they are. -/
def cast (t : DType) (c : Cell) : Cell :=
  match t, c with
  | .bool, c => match c with
    | .str _ | .none => c
    | _ => .bool c.truthy
  | .int _, .bool v => .int (if v then 1 else 0)
  | .int b, .int n => .int (wrapSigned b n)
  | .int b, .float x => .int (wrapSigned b (floatToInt 64 x))
  | .uint _, .bool v => .int (if v then 1 else 0)
  | .uint b, .int n => .int (wrapUnsigned b n)
  | .uint b, .float x => .int (wrapUnsigned b (floatToInt 64 x))
  | .float _, .bool v => .float (if v then 1 else 0)
  | .float b, .int n => .float (narrow b (intToFloat n))
  | .float b, .float x => .float (narrow b x)
  | _, c => c

end Cell

end Numeric
end Evolver
