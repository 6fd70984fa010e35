import Evolver.Random.Twister
import Evolver.Numeric.Ufunc
/-!
# Draws from a seeded stream

A `Stream` is a twister and the second normal deviate of the last pair, kept
for the next `gauss` call.  Every draw is a function from a stream to a value
and the stream after it:

* `random`: 53 bits from two words (`random53`), divided by `2^53`;
* `bits k`: `k` bits from `⌈k/32⌉` words, least significant word first, the
  last word shifted down to the bits still wanted;
* `below n`: `bits` of the bit length of `n` until the result is below `n`;
* `randint`, `uniform`, `gauss` (Box–Muller, a pair at a time), `sample`
  (`k` distinct positions, from a shrinking pool or by rejection, whichever
  the table size says is smaller), and `pick` / `pickWeighted` (positions
  with replacement, uniform or by cumulative weights).

`Stream.seed n` keys the twister with the 32-bit words of `|n|`.
-/

namespace Evolver
namespace Random

open Numeric

/-- A seeded stream of draws. -/
structure Stream where
  gen : Twister
  /-- the second deviate of the last Box–Muller pair, not yet used -/
  spare : Option Float
deriving Inhabited

/-- The 32-bit words of a natural number, least significant first; at least one. -/
def keyWords (n : Nat) : List UInt32 :=
  go (n + 1) n
where
  go : Nat → Nat → List UInt32
    | 0, _ => []
    | fuel + 1, n =>
      if n < Nat.pow 2 32 then [n.toUInt32] else (n % Nat.pow 2 32).toUInt32 :: go fuel (n / Nat.pow 2 32)

namespace Stream

/-- The stream seeded from an integer. -/
def seed (n : Int) : Stream := ⟨Twister.ofKey (keyWords n.natAbs), none⟩

/-- The next word. -/
def word (s : Stream) : UInt32 × Stream :=
  let (w, g) := s.gen.next
  (w, { s with gen := g })

/-- The 53 bits of a `random` draw: 27 and 26 bits of two words. -/
def random53 (s : Stream) : Nat × Stream :=
  let (a, s) := s.word
  let (b, s) := s.word
  ((a >>> 5).toNat * 67108864 + (b >>> 6).toNat, s)

/-- A double in `[0, 1)`: the 53 bits of `random53`, divided by `2^53`. -/
def random (s : Stream) : Float × Stream :=
  let (n, s) := s.random53
  (n.toUInt64.toFloat / 9007199254740992.0, s)

/-- `k` random bits, as a natural number below `2^k`. -/
def bits (k : Nat) (s : Stream) : Nat × Stream :=
  if k = 0 then (0, s)
  else if k ≤ 32 then
    let (w, s) := s.word
    ((w >>> (32 - k).toUInt32).toNat, s)
  else go ((k + 31) / 32) k 0 0 s
where
  go : Nat → Nat → Nat → Nat → Stream → Nat × Stream
    | 0, _, _, acc, s => (acc, s)
    | n + 1, left, shift, acc, s =>
      let (w, s) := s.word
      let r := if left < 32 then (w >>> (32 - left).toUInt32).toNat else w.toNat
      go n (left - 32) (shift + 32) (acc + r * Nat.pow 2 shift) s

/-- A natural number below `n` (positive), by rejection of `bits` of the bit
length of `n`; the fuel bounds the rejections. -/
def below (n : Nat) (s : Stream) : Nat × Stream :=
  let k := n.log2 + 1
  go 100000 k s
where
  go : Nat → Nat → Stream → Nat × Stream
    | 0, _, s => (0, s)
    | fuel + 1, k, s =>
      let (r, s) := bits k s
      if r < n then (r, s) else go fuel k s

/-- A position in a non-empty sequence of `n` items. -/
def choose (n : Nat) (s : Stream) : Nat × Stream := below n s

/-- An integer bound of a range: integers as they are, integral floats as
their integer, anything else refused with the given message. -/
def integralBound (v : Value) (msg : String) : Except Fault Int :=
  match v with
  | .int n => pure n
  | .bool b => pure (if b then 1 else 0)
  | .float x =>
    if x.isNaN || x.isInf then throw (Fault.value msg)
    else
      let n := floatToInt 64 x
      if intToFloat n == x then pure n else throw (Fault.value msg)
  | .none => throw (Fault.type "int() argument must be a string, a bytes-like object or a real number, not 'NoneType'")
  | v => throw (Fault.type s!"int() argument must be a string, a bytes-like object or a real number, not '{v.className}'")

/-- `b + 1` for the upper bound of an inclusive range. -/
def succBound (b : Value) : Except Fault Value :=
  match b with
  | .int n => pure (.int (n + 1))
  | .bool v => pure (.int ((if v then 1 else 0) + 1))
  | .float x => pure (.float (x + 1))
  | .str _ => throw (Fault.type "can only concatenate str (not \"int\") to str")
  | .tuple _ => throw (Fault.type "can only concatenate tuple (not \"int\") to tuple")
  | .list _ => throw (Fault.type "can only concatenate list (not \"int\") to list")
  | v => throw (Fault.type s!"unsupported operand type(s) for +: '{v.className}' and 'int'")

/-- An integer from `a` to `b` inclusive. -/
def randint (a b : Value) (s : Stream) : Except Fault (Int × Stream) := do
  let stop ← succBound b
  let lo ← integralBound a "non-integer arg 1 for randrange()"
  let hi ← integralBound stop "non-integer stop for randrange()"
  let width := hi - lo
  if width > 0 then
    let (r, s) := below width.toNat s
    pure (lo + r, s)
  else throw (Fault.value s!"empty range for randrange() ({lo}, {hi}, {width})")

/-- A plain number as a double, for arithmetic with floats. -/
def numberFloat (v : Value) : Except Fault Float :=
  match v with
  | .int n => pure (intToFloat n)
  | .bool b => pure (if b then 1 else 0)
  | .float x => pure x
  | v => throw (Fault.type s!"unsupported operand type(s) for -: '{v.className}' and '{v.className}'")

/-- A double between `a` and `b`: `a + (b - a) * random()`, the difference
taken exactly when both are integers. -/
def uniform (a b : Value) (s : Stream) : Except Fault (Float × Stream) := do
  let diff ← match a, b with
    | .int x, .int y => pure (intToFloat (y - x))
    | _, _ => do pure ((← numberFloat b) - (← numberFloat a))
  let base ← numberFloat a
  let (r, s) := s.random
  pure (base + diff * r, s)

/-- A normal deviate with mean `mu` and deviation `sigma`: Box–Muller, the
second deviate of a pair kept for the next call. -/
def gauss (mu sigma : Float) (s : Stream) : Float × Stream :=
  match s.spare with
  | some z => (mu + z * sigma, { s with spare := none })
  | none =>
    let (u, s) := s.random
    let (v, s) := s.random
    let x2pi := u * (2.0 * 3.141592653589793)
    let g2rad := Float.sqrt (-2.0 * Float.log (1.0 - v))
    let z := Float.cos x2pi * g2rad
    (mu + z * sigma, { s with spare := some (Float.sin x2pi * g2rad) })

/-- The table size above which rejection sampling is used for `k` items. -/
def setSize (k : Nat) : Nat :=
  if k > 5 then 21 + Nat.pow 4 (Float.ceil (Float.log (3 * k.toFloat) / Float.log 4)).toUInt64.toNat
  else 21

/-- One draw from a pool after `i` draws: the item at a position below
`n - i`, whose place the pool's last unused item then takes. -/
def poolDraw (n : Nat) (acc : Array Nat × List Nat × Stream) (i : Nat) : Array Nat × List Nat × Stream :=
  let (pool, out, s) := acc
  let (j, s) := below (n - i) s
  (pool.setIfInBounds j (pool.getD (n - i - 1) 0), pool.getD j 0 :: out, s)

/-- A position below `n` that is not taken yet, drawn until one comes up;
the fuel bounds the draws. -/
def freshBelow (n : Nat) (taken : List Nat) : Nat → Stream → Nat × Stream
  | 0, s => (0, s)
  | fuel + 1, s =>
    let (j, s) := below n s
    if taken.contains j then freshBelow n taken fuel s else (j, s)

/-- One draw by rejection: a position not drawn before. -/
def rejectDraw (n : Nat) (acc : List Nat × Stream) (_ : Nat) : List Nat × Stream :=
  let (j, s) := freshBelow n acc.1 100000 acc.2
  (j :: acc.1, s)

/-- `k` distinct positions out of `n`, in the order drawn.  A pool is used
when `n` is at most the table size: each draw takes a position of the pool
and moves the pool's last unused item into its place.  Otherwise positions
are drawn until a new one comes up. -/
def sample (n k : Nat) (s : Stream) : Except Fault (List Nat × Stream) :=
  if k > n then throw (Fault.value "Sample larger than population or is negative")
  else if n ≤ setSize k then
    let (_, out, s) := (List.range k).foldl (poolDraw n) ((List.range n).toArray, [], s)
    pure (out.reverse, s)
  else
    let (out, s) := (List.range k).foldl (rejectDraw n) ([], s)
    pure (out.reverse, s)

/-- A natural number rounded to 53 significant bits, to even on a tie: the
double nearest to it, for numbers a double reaches. -/
def round53 (p : Nat) : Nat :=
  if p < Nat.pow 2 53 then p
  else
    let e := p.log2 - 52
    let q := p / Nat.pow 2 e
    let r := p % Nat.pow 2 e
    let half := Nat.pow 2 (e - 1)
    (if half < r ∨ (r = half ∧ q % 2 = 1) then q + 1 else q) * Nat.pow 2 e

/-- `⌊random() * n⌋` for the 53 bits `m` of a draw.  Below `2^53`, `n` is a
double as it is, and the product of doubles is `m * n` rounded to 53 bits,
over `2^53`, so the floor is exact arithmetic. -/
def position (n m : Nat) : Nat :=
  if n < Nat.pow 2 53 then round53 (m * n) / Nat.pow 2 53
  else ((m.toUInt64.toFloat / 9007199254740992.0) * n.toFloat).floor.toUInt64.toNat

/-- `k` positions out of `n` with replacement: `⌊random() * n⌋` each, in
the order drawn. -/
def pick (n : Nat) : Nat → Stream → List Nat × Stream
  | 0, s => ([], s)
  | k + 1, s =>
    let (m, s) := s.random53
    let (rest, s) := pick n k s
    (position n m :: rest, s)

end Stream

end Random
end Evolver
