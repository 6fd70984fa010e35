import Evolver.Chromosome.Random
/-!
# Swapping segments of two chromosomes

A k-point crossover cuts two gene sequences at sorted points and swaps every
other segment.  `swapSegments` walks the cut points two at a time: the
segment from the current start up to a point is exchanged between the two
sequences, and the point after it starts the next segment; once a point is
not below the number of points, the next segment starts one before the end.
A point list of odd length ends with the length of the first sequence, so
that the last segment reaches the end.

The exchange assigns parts in place, so sequences of different lengths
exchange parts of different lengths.  A walk that needs a start point beyond
the list fails with the sequences as swapped so far.
-/

namespace Evolver

namespace Chromosome

/-- Swap the segments cut at the points, starting at `start`; answers both
sequences and the fault that stopped the walk, if any. -/
def swapSegments (count : Nat) : List Int → Int → List Value → List Value →
    List Value × List Value × Option Fault
  | [], _, v1, v2 => (v1, v2, none)
  | stop :: rest, start, v1, v2 =>
    let taken := slice v1 start stop
    let v1' := assignSlice v1 start stop (slice v2 start stop)
    let v2' := assignSlice v2 start stop taken
    if stop < count then
      match rest with
      | next :: rest' => swapSegments count rest' next v1' v2'
      | [] => (v1', v2', some Fault.listIndex)
    else
      match rest with
      | _ :: rest' => swapSegments count rest' (-1) v1' v2'
      | [] => (v1', v2', none)

/-- The cut points completed with the length of the first sequence when
there are exactly `k` of them. -/
def cutPoints (k : Nat) (v1 : List Value) (points : List Int) : List Int :=
  if points.length = k then points ++ [(v1.length : Int)] else points

/-- Exchange the segments of two gene sequences cut at the points: the
sequences after, the completed points, and a fault if the walk failed. -/
def exchange (k : Nat) (v1 v2 : List Value) (points : List Int) :
    List Value × List Value × List Int × Option Fault :=
  let pts := cutPoints k v1 points
  let (a, b, f) := swapSegments pts.length pts 0 v1 v2
  (a, b, pts, f)

end Chromosome

end Evolver
