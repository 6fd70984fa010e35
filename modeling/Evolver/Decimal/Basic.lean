/-!
# Shortest decimals of binary64 values

A finite double stands for the interval of reals that round to it: from halfway
to its neighbour below to halfway to its neighbour above, both ends included
exactly when the significand is even.  The shortest decimal of the double is
a decimal with the fewest significant digits inside that interval, and of two
such decimals the nearer one (an exact tie goes to the even digit string).

`Binary.ofBits` decodes the bits, `Binary.readsBack` is the interval test done
with natural numbers only, and `Binary.shortest` searches the grids
`10^(k - n)` for `n = 1, 2, …, 17` digits, testing the two neighbours of the
value on each grid.
-/

namespace Evolver
namespace Decimal

/-- A finite non-negative binary64 value, `m * 2^q`. -/
structure Binary where
  m : Nat
  q : Int
  /-- the gap to the value below is half the gap to the value above -/
  narrowBelow : Bool
deriving Repr, DecidableEq

/-- A decimal `digits * 10^exp`. -/
structure Dec where
  digits : Nat
  exp : Int
deriving Repr, DecidableEq

/-- The magnitude of a finite value.  NaN and the infinities are no such
value: callers test for them first. -/
def Binary.ofBits (b : UInt64) : Binary :=
  let e := ((b >>> 52) &&& 0x7FF).toNat
  let f := (b &&& 0xFFFFFFFFFFFFF).toNat
  if e == 0 then ⟨f, -1074, false⟩ else ⟨Nat.pow 2 52 + f, (e : Int) - 1075, f == 0 && e > 1⟩

/-- Compare `a * 10^i` with `n * 2^j` exactly. -/
def cmpScaled (a : Nat) (i : Int) (n : Nat) (j : Int) : Ordering :=
  compare (a * Nat.pow 10 i.toNat * Nat.pow 2 (-j).toNat) (n * Nat.pow 2 j.toNat * Nat.pow 10 (-i).toNat)

/-- The interval test: `d` lies among the reals that round to `x` (to nearest,
ties to even). -/
def Binary.readsBack (x : Binary) (d : Dec) : Bool :=
  let lo := if x.narrowBelow then 4 * x.m - 1 else 4 * x.m - 2
  let hi := 4 * x.m + 2
  let incl := x.m % 2 == 0
  let cl := cmpScaled d.digits d.exp lo (x.q - 2)
  let ch := cmpScaled d.digits d.exp hi (x.q - 2)
  (cl == .gt || (incl && cl == .eq)) && (ch == .lt || (incl && ch == .eq))

/-- The number of decimal digits of `n` (one for zero). -/
def digitCount (n : Nat) : Nat := (Nat.toDigits 10 n).length

/-- The decimal exponent of a positive value: the `E` with
`10^E ≤ m * 2^q < 10^(E+1)`. -/
def Binary.decExp (x : Binary) : Int :=
  if 0 ≤ x.q then (digitCount (x.m * Nat.pow 2 x.q.toNat) : Int) - 1
  else (digitCount (x.m * Nat.pow 10 340 / Nat.pow 2 (-x.q).toNat) : Int) - 1 - 340

/-- Of two decimals on one grid, which lies nearer to `x`: `true` for the
first; on an exact tie the one with the even digit string. -/
def Binary.preferFirst (x : Binary) (a b : Dec) : Bool :=
  -- compare |a - x| with |b - x| through 2x against a + b (a < b on one grid)
  let sum : Dec := ⟨a.digits + b.digits, a.exp⟩
  match cmpScaled sum.digits sum.exp (2 * x.m) x.q with
  | .gt => true
  | .lt => false
  | .eq => a.digits % 2 == 0

/-- The candidates on the grid `10^k`: the two neighbours of `x` there. -/
def Binary.onGrid (x : Binary) (k : Int) : Option Dec :=
  let num := x.m * Nat.pow 2 x.q.toNat * Nat.pow 10 (-k).toNat
  let den := Nat.pow 2 (-x.q).toNat * Nat.pow 10 k.toNat
  let below : Dec := ⟨num / den, k⟩
  let above : Dec := ⟨num / den + 1, k⟩
  match x.readsBack below, x.readsBack above with
  | true, true => if x.preferFirst below above then some below else some above
  | true, false => some below
  | false, true => some above
  | false, false => none

/-- Trailing zeros of the digits move into the exponent. -/
def Dec.strip (d : Dec) : Dec :=
  go 20 d
where
  go : Nat → Dec → Dec
    | 0, d => d
    | fuel + 1, d =>
      if d.digits ≠ 0 ∧ d.digits % 10 = 0 then go fuel ⟨d.digits / 10, d.exp + 1⟩ else d

/-- The search over `n = 1 … 17` significant digits, starting at the grid
`10^(E + 1 - n)`. -/
def Binary.search (x : Binary) (e : Int) : Nat → Nat → Option Dec
  | 0, _ => none
  | fuel + 1, n =>
    match x.onGrid (e + 1 - n) with
    | some d => some d
    | none => x.search e fuel (n + 1)

/-- The shortest decimal of a finite non-negative value; the exact value of
`m * 2^q` when no grid up to seventeen digits holds one. -/
def Binary.shortest (x : Binary) : Dec :=
  if x.m = 0 then ⟨0, 0⟩
  else
    match x.search x.decExp 17 1 with
    | some d => d.strip
    | none =>
      if 0 ≤ x.q then ⟨x.m * Nat.pow 2 x.q.toNat, 0⟩
      else (⟨x.m * Nat.pow 5 (-x.q).toNat, x.q⟩ : Dec).strip

end Decimal
end Evolver
