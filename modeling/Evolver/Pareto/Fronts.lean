import Evolver.Store
import Evolver.Value.Sort
import Evolver.Value.Arith
/-!
# Non-dominated sorting

The survivors of a multi-objective generation are chosen front by front.
Every pair of individuals is compared once (`Dominance.of`): the later one is
tried as the dominating one first.  Then, while fewer than the wanted number
are chosen, the individuals no remaining one dominates form the next front:

* its crowding distances are reckoned (`crowd`): each objective in turn sorts
  the front by that objective, gives both ends an infinite distance and adds
  to each inner member the gap between its neighbours over the whole spread,
  when the spread is not zero;
* its members get the front's rank, counted from 1;
* if it holds more than are still wanted, the most crowded are dropped:
  members are ordered by decreasing distance and the first ones kept;
* the kept members join the chosen ones and stop counting against those they
  dominate.

A front with no members (nothing left, or dominance going round in a circle)
fails with an index fault.  `maxCrowding` gives the largest finite distance of
a population, which stops an evolution once it falls below a threshold.
-/

namespace Evolver
namespace Pareto

/-- Who dominates whom among the individuals still to be chosen. -/
structure Dominance where
  /-- the individuals each one dominates -/
  beats : Std.HashMap Nat (List Nat)
  /-- the number of remaining individuals dominating each one -/
  count : Std.HashMap Nat Int

namespace Dominance

/-- Record that `a` dominates `b`. -/
def record (d : Dominance) (a b : Nat) : Dominance :=
  { beats := d.beats.insert a (d.beats.getD a [] ++ [b])
    count := d.count.insert b (d.count.getD b 0 + 1) }

/-- Whether the first individual dominates the second. -/
def dominatesIn (a b : Nat) : Run Bool := do
  let x ← Run.get a
  let y ← Run.get b
  Run.ofExcept (x.fitness.dominates x.size y.fitness y.size)

/-- The dominance among individuals, comparing each with every later one:
the later one is tried as the dominating one first. -/
def of (ids : List Nat) : Run Dominance :=
  go ids ⟨{}, {}⟩
where
  /-- Compare the first individual with all after it, then go on. -/
  go : List Nat → Dominance → Run Dominance
    | [], d => pure d
    | a :: rest, d => do
      let step (d : Dominance) (b : Nat) : Run Dominance := do
        if ← dominatesIn b a then pure (d.record b a)
        else if ← dominatesIn a b then pure (d.record a b)
        else pure d
      go rest (← rest.foldlM step d)

/-- The individuals of `ids` that no remaining individual dominates. -/
def front (d : Dominance) (ids : List Nat) : List Nat :=
  ids.filter fun i => d.count.getD i 0 == 0

/-- Take the members of a front out of the count. -/
def remove (d : Dominance) (front : List Nat) : Dominance :=
  let lower (d : Dominance) (b : Nat) : Dominance :=
    { d with count := d.count.insert b (d.count.getD b 0 - 1) }
  front.foldl (fun d a => (d.beats.getD a []).foldl lower d) d

end Dominance

/-- The objectives of an individual. -/
def objectives (id : Nat) : Run Value := do
  Run.ofExcept (← Run.get id).pureFitness

/-- Objective `k` of an individual. -/
def objective (k : Nat) (id : Nat) : Run Value := do
  Run.ofExcept ((← objectives id).item k)

/-- The crowding distance of an individual. -/
def crowdingOf (id : Nat) : Run Value := do
  let i ← Run.get id
  Run.ofExcept (i.fitness.stat "crowding" i.fitness.crowding)

/-- Set the crowding distance of an individual. -/
def setCrowding (id : Nat) (v : Value) : Run Unit :=
  Run.update id fun i => { i with fitness := { i.fitness with crowding := some v } }

/-- Set the front rank of an individual. -/
def setRank (id : Nat) (v : Value) : Run Unit :=
  Run.update id fun i => { i with fitness := { i.fitness with frontRank := some v } }

/-- The individuals ordered by a key, stably; equal keys keep their order. -/
def sortByKey (ids : List Nat) (key : Nat → Run Value) (desc : Bool) : Run (List Nat) := do
  let keyed ← ids.mapM fun i => do pure (i, ← key i)
  let lt (a b : Nat × Value) : Except Fault Bool := Value.compare .lt a.2 b.2
  let sorted ← Run.ofExcept (if desc then sortDesc lt keyed else sortBy lt keyed)
  pure (sorted.map (·.1))

/-- The distance an inner member of a sorted front gains from objective `k`:
the gap between its neighbours over the spread of the front. -/
def addGap (k : Nat) (first last : Nat) : Nat × Nat × Nat → Run Unit
  | (before, i, after) => do
    let gap ← Run.ofExcept (Value.arith .sub (← objective k after) (← objective k before))
    let spread ← Run.ofExcept (Value.arith .sub (← objective k last) (← objective k first))
    if ← Run.ofExcept spread.truth then
      let share ← Run.ofExcept (Value.arith .div gap spread)
      setCrowding i (← Run.ofExcept (Value.arith .add (← crowdingOf i) share))

/-- The inner members of a list, each with its neighbours. -/
def inner : List Nat → List (Nat × Nat × Nat)
  | a :: b :: c :: rest => (a, b, c) :: inner (b :: c :: rest)
  | _ => []

/-- One objective's pass over a front: sort it by objective `k`, give both
ends an infinite distance and add to each inner member its gap. -/
def crowdPass (k : Nat) (front : List Nat) : Run (List Nat) := do
  let sorted ← sortByKey front (objective k) false
  let some first := sorted.head? | throw Fault.listIndex
  let some last := sorted.getLast? | throw Fault.listIndex
  setCrowding first Fitness.unranked
  setCrowding last Fitness.unranked
  for t in inner sorted do addGap k first last t
  pure sorted

/-- Reckon the crowding distances of a front; the front comes back sorted by
its last objective. -/
def crowd (front : List Nat) : Run (List Nat) := do
  for i in front do setCrowding i (.int 0)
  let some lead := front.head? | throw Fault.listIndex
  let width ← Run.ofExcept (← objectives lead).size?
  let mut sorted := front
  for k in List.range width do
    sorted ← crowdPass k sorted
  pure sorted

/-- One round of the choice: the next front of `source`, crowded and ranked
`rank`, and cut to its most crowded members when it holds more than `size`
less those `chosen` already; gives the members taken. -/
def takeFront (size : Int) (d : Dominance) (source chosen : List Nat) (rank : Nat) : Run (List Nat) := do
  let front ← crowd (d.front source)
  for i in front do setRank i (.int rank)
  if ((front.length + chosen.length : Nat) : Int) > size then
    let wanted := (size - chosen.length).toNat
    pure ((← sortByKey front crowdingOf true).take wanted)
  else pure front

/-- Choose fronts from `source` until `chosen` holds `size` individuals,
ranking the fronts from `rank`; `fuel` bounds the fronts still to take. -/
def chooseFrom (size : Int) : Nat → Dominance → List Nat → List Nat → Nat → Run (List Nat)
  | 0, _, _, chosen, _ => pure chosen
  | fuel + 1, d, source, chosen, rank => do
    if (chosen.length : Int) < size then
      let front ← takeFront size d source chosen rank
      chooseFrom size fuel (d.remove front) (source.filter fun i => !front.contains i) (chosen ++ front)
        (rank + 1)
    else pure chosen

/-- How many survivors to choose from `source`: `size`, or half of `source`
(rounded down) when `size` is zero or missing. -/
def survivorCount (source : List Nat) : Option Int → Int
  | some n => if n == 0 then (source.length / 2 : Nat) else n
  | none => (source.length / 2 : Nat)

/-- The survivors of `source`, as many as `survivorCount` says. -/
def select (source : List Nat) (size : Option Int) : Run (List Nat) := do
  let size := survivorCount source size
  let d ← Dominance.of source
  chooseFrom size (size.toNat + 1) d source [] 1

/-- The largest crowding distance that is finite, or infinity when there is
none. -/
def maxCrowding (ids : List Nat) : Run Value := do
  let values ← ids.filterMapM fun i => do
    let c ← crowdingOf i
    if ← Run.ofExcept (Value.equal c Fitness.unranked) then pure none else pure (some c)
  match ← Run.ofExcept (greatest (Value.compare .gt) values) with
  | some v => pure v
  | none => pure Fitness.unranked

end Pareto
end Evolver
