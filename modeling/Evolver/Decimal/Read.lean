import Evolver.Decimal.Basic
/-!
# Reading a decimal into a binary64 value

`ratToFloat` rounds a fraction of natural numbers, and `Dec.toFloat` a
decimal `digits * 10^exp`, to the nearest double, ties to the even
significand, with subnormals and overflow to infinity, by exact division of
natural numbers.  `Dec.ofChars?` reads the usual text of a number: a sign,
digits, an optional fraction and an optional exponent.
-/

namespace Evolver
namespace Decimal

/-- `num / den` rounded to the nearest natural number, a tie to the even one. -/
def roundDivEven (num den : Nat) : Nat :=
  let q := num / den
  let r := num % den
  if 2 * r > den then q + 1
  else if 2 * r < den then q
  else if q % 2 = 0 then q else q + 1

/-- The binary exponent `b` with `2^52 ≤ num / (den * 2^b) < 2^53`, found from
the bit lengths and corrected by exact comparisons. -/
def binScale (num den : Nat) : Int :=
  let b0 : Int := (num.log2 : Int) - (den.log2 : Int) - 52
  let below (b : Int) : Bool :=
    -- num / (den * 2^b) < 2^52
    num * Nat.pow 2 (-b).toNat < Nat.pow 2 52 * den * Nat.pow 2 b.toNat
  let atLeastTop (b : Int) : Bool :=
    num * Nat.pow 2 (-b).toNat ≥ Nat.pow 2 53 * den * Nat.pow 2 b.toNat
  if below b0 then b0 - 1
  else if atLeastTop b0 then b0 + 1
  else b0

/-- The double nearest to `num / den`, with the given sign; `den` is positive. -/
def ratToFloat (num den : Nat) (neg : Bool) : Float :=
  let signBit : UInt64 := if neg then 0x8000000000000000 else 0
  if num = 0 then Float.ofBits signBit
  else
    let b := max (binScale num den) (-1074)
    let s := roundDivEven (num * Nat.pow 2 (-b).toNat) (den * Nat.pow 2 b.toNat)
    -- rounding may carry into the next binade
    let (s, b) := if s ≥ Nat.pow 2 53 then (s / 2, b + 1) else (s, b)
    if b + 52 > 1023 then Float.ofBits (signBit ||| 0x7FF0000000000000)
    else if s < Nat.pow 2 52 then Float.ofBits (signBit ||| s.toUInt64)
    else
      let biased := (b + 1075).toNat
      Float.ofBits (signBit ||| (biased.toUInt64 <<< 52) ||| (s - Nat.pow 2 52).toUInt64)

/-- The double nearest to `digits * 10^exp`, with the given sign. -/
def Dec.toFloat (d : Dec) (neg : Bool) : Float :=
  ratToFloat (d.digits * Nat.pow 10 d.exp.toNat) (Nat.pow 10 (-d.exp).toNat) neg

/-- Digits at the front of a character list, as a number and a count. -/
def takeDigits : List Char → Nat → Nat → Nat × Nat × List Char
  | c :: rest, acc, n =>
    if c.isDigit then takeDigits rest (acc * 10 + (c.toNat - '0'.toNat)) (n + 1)
    else (acc, n, c :: rest)
  | [], acc, n => (acc, n, [])

/-- The text of a number: an optional `-`, digits, an optional fraction after
`.`, and an optional exponent after `e` or `E`.  Answers the decimal, its sign,
whether it had a fraction or an exponent, and the characters after it. -/
def Dec.ofChars? (cs : List Char) : Option (Dec × Bool × Bool × List Char) :=
  let (neg, cs) := match cs with
    | '-' :: rest => (true, rest)
    | _ => (false, cs)
  let (ip, ni, cs) := takeDigits cs 0 0
  if ni = 0 then none
  else
    let (fp, nf, hasPoint, cs) := match cs with
      | '.' :: rest =>
        let (f, n, r) := takeDigits rest 0 0
        (f, n, true, r)
      | _ => (0, 0, false, cs)
    if hasPoint ∧ nf = 0 then none
    else
      let expPart : Option (Int × Bool × List Char) := match cs with
        | e :: rest =>
          if e = 'e' ∨ e = 'E' then
            let (eneg, rest) := match rest with
              | '-' :: r => (true, r)
              | '+' :: r => (false, r)
              | r => (false, r)
            let (ev, ne, r) := takeDigits rest 0 0
            if ne = 0 then none
            else some (if eneg then -(ev : Int) else ev, true, r)
          else some (0, false, e :: rest)
        | [] => some (0, false, [])
      match expPart with
      | none => none
      | some (ev, hasExp, rest) =>
        some (⟨ip * Nat.pow 10 nf + fp, ev - nf⟩, neg, hasPoint || hasExp, rest)

end Decimal
end Evolver
