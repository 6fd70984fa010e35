import Evolver.Lab
import Evolver.Numeric.Cell
/-!
# Sums of doubles and weighted choices

Array sums add in a fixed order, and a different order rounds differently:

* `pairwiseSum` is the sum of an array reduction: up to seven items one after
  another from zero, up to 128 in eight interleaved running sums combined
  pairwise, and longer arrays split in two halves whose sizes are multiples
  of eight;
* `compensatedSum` is the running sum that carries the rounding error of each
  step into the next, used to check that probabilities add up to one;
* `runningSums` are the partial sums one after another.

`choose p n` draws `n` positions with the probabilities `p`, with
replacement, from the single-word stream: the probabilities must be numbers,
non-negative, and add up to one within `√ε`; each draw is the first
position whose normalised running sum exceeds a uniform double.
-/

namespace Evolver
namespace Numeric

/-- The sum of `n` items of `xs` from `start`, as an array reduction adds
them; `fuel` bounds the halvings. -/
def pairwiseAux (xs : Array Float) : Nat → Nat → Nat → Float
  | 0, _, _ => 0.0
  | fuel + 1, start, n =>
    let item (i : Nat) : Float := xs.getD (start + i) 0.0
    if n < 8 then
      (List.range n).foldl (fun acc i => acc + item i) 0.0
    else if n ≤ 128 then
      let full := n - n % 8
      let lanes := (List.range 8).map fun j =>
        ((List.range (full / 8)).drop 1).foldl (fun acc b => acc + item (8 * b + j)) (item j)
      let r (j : Nat) : Float := lanes.getD j 0.0
      let res := ((r 0 + r 1) + (r 2 + r 3)) + ((r 4 + r 5) + (r 6 + r 7))
      ((List.range (n - full)).map (full + ·)).foldl (fun acc i => acc + item i) res
    else
      let half := n / 2 - (n / 2) % 8
      pairwiseAux xs fuel start half + pairwiseAux xs fuel (start + half) (n - half)

/-- The sum of an array of doubles, as an array reduction adds them. -/
def pairwiseSum (xs : List Float) : Float :=
  0.0 + pairwiseAux xs.toArray (xs.length + 1) 0 xs.length

/-- The running sum that carries each step's rounding error into the next. -/
def compensatedSum : List Float → Float
  | [] => 0.0
  | x :: xs =>
    let (sum, _) := xs.foldl (fun (acc : Float × Float) y =>
      let (sum, c) := acc
      let y := y - c
      let t := sum + y
      (t, (t - sum) - y)) (x, 0.0)
    sum

/-- The partial sums, one after another. -/
def runningSums (xs : List Float) : List Float :=
  (xs.foldl (fun (acc : Float × List Float) x => (acc.1 + x, (acc.1 + x) :: acc.2)) (0.0, [])).2.reverse

/-- The tolerance of probabilities adding up to one: the square root of the
double epsilon. -/
def probabilityTolerance : Float := 1.4901161193847656e-08

/-- `n` positions drawn with the probabilities `p`, with replacement. -/
def choose (p : List Float) (n : Nat) : Draw (List Nat) := do
  if p.isEmpty && n != 0 then throw (Fault.value "'a' cannot be empty unless no samples are taken")
  let total := compensatedSum p
  if total.isNaN then throw (Fault.value "probabilities contain NaN")
  if p.any (· < 0.0) then throw (Fault.value "probabilities are not non-negative")
  if Float.abs (total - 1.0) > probabilityTolerance then
    throw (Fault.value "probabilities do not sum to 1")
  let sums := runningSums p
  let last := sums.getLastD 1.0
  let cdf := sums.map (· / last)
  (List.range n).mapM fun _ => do
    let u ← Draw.legacyRandom
    pure (cdf.takeWhile (· ≤ u)).length

end Numeric
end Evolver
