import Evolver.Decimal.Read
import Evolver.Decimal.Layout
/-!
# Doubles with a fixed number of places

`fixedText places x` writes a double with exactly `places` digits after the
point: the exact binary value times `10^places`, rounded to the nearest
integer with a tie to the even one, then split at the point.  A negative
value keeps its sign even when it rounds to zero.
-/

namespace Evolver
namespace Decimal

/-- The magnitude of a double times `10^places`, rounded half to even. -/
def Binary.scaledRound (x : Binary) (places : Nat) : Nat :=
  if 0 ≤ x.q then x.m * Nat.pow 2 x.q.toNat * Nat.pow 10 places
  else roundDivEven (x.m * Nat.pow 10 places) (Nat.pow 2 (-x.q).toNat)

/-- A double with `places` digits after the point. -/
def fixedText (places : Nat) (x : Float) : String :=
  if x.isNaN then "nan"
  else
    let sign := if (x.toBits >>> 63) == 1 then "-" else ""
    if x.isInf then sign ++ "inf"
    else
      let n := (Binary.ofBits x.toBits).scaledRound places
      let digits : String := padZeros (places + 1) (toString n)
      let whole := digits.toList.take (digits.length - places)
      let frac := digits.toList.drop (digits.length - places)
      sign ++ String.ofList whole ++ (if places == 0 then "" else "." ++ String.ofList frac)

end Decimal
end Evolver
