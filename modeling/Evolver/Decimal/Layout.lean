import Evolver.Decimal.Basic
/-!
# Writing a decimal

A `Layout` holds the decisions of a number format that the digits do not fix:
which decimal exponents are written positionally, whether an integral value
keeps a `.0`, how the exponent is marked and padded, and the texts of NaN and
the infinities.  `Layout.render` writes any double under such a layout, its
digits from `Binary.shortest`.
-/

namespace Evolver
namespace Decimal

/-- The choices of a number format beyond its digits.  With `point` the
position of the decimal point after the first digit (`0.d₁d₂… × 10^point`),
the value is written positionally when `positionalAbove < point` and
`point ≤ positionalUpTo`. -/
structure Layout where
  positionalAbove : Int
  positionalUpTo : Int
  keepPointZero : Bool
  expMark : String
  expPlus : Bool
  expDigits : Nat
  nan : String
  inf : String

/-- Left-pad with zeros to `n` characters. -/
def padZeros (n : Nat) (s : String) : String :=
  String.ofList (List.replicate (n - s.length) '0') ++ s

/-- The digits `s` (no trailing zeros) with the point after `point` of them. -/
def Layout.positional (l : Layout) (s : String) (point : Int) : String :=
  let n : Int := s.length
  if point ≤ 0 then
    "0." ++ String.ofList (List.replicate (-point).toNat '0') ++ s
  else if n ≤ point then
    s ++ String.ofList (List.replicate (point - n).toNat '0') ++ (if l.keepPointZero then ".0" else "")
  else
    String.ofList (s.toList.take point.toNat) ++ "." ++ String.ofList (s.toList.drop point.toNat)

/-- The digits `s` with one digit before the point and an exponent. -/
def Layout.scientific (l : Layout) (s : String) (point : Int) : String :=
  let e := point - 1
  let mant := match s.toList with
    | [] => "0"
    | [c] => String.singleton c
    | c :: rest => String.singleton c ++ "." ++ String.ofList rest
  let sign := if e < 0 then "-" else if l.expPlus then "+" else ""
  mant ++ l.expMark ++ sign ++ padZeros l.expDigits (toString e.natAbs)

/-- A non-negative decimal under the layout. -/
def Layout.writeDec (l : Layout) (d : Dec) : String :=
  if d.digits = 0 then (if l.keepPointZero then "0.0" else "0")
  else
    let s := toString d.digits
    let point := d.exp + s.length
    if l.positionalAbove < point ∧ point ≤ l.positionalUpTo then l.positional s point
    else l.scientific s point

/-- Any double under the layout: sign, then the shortest decimal of its
magnitude, or the text of NaN or an infinity. -/
def Layout.render (l : Layout) (x : Float) : String :=
  if x.isNaN then l.nan
  else
    let neg := (x.toBits >>> 63) == 1
    let sign := if neg then "-" else ""
    if x.isInf then sign ++ l.inf
    else sign ++ l.writeDec (Binary.ofBits x.toBits).shortest

end Decimal
end Evolver
