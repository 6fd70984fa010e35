import Evolver.Store
import Evolver.Numeric.Weights
import Evolver.Value.Sort
import Evolver.Operator.Basic
import Evolver.Chromosome.Basic
/-!
# Selection

A selection adds copies of individuals of a source list to a destination
list until the destination is as long as the source; every copy records the
selection's class.

* Tournament: all tournaments are drawn first, with replacement or without;
  each is won by the first participant that no later one is better than
  (each later one replaces the winner when better), and the winner is copied.
* Elitism: the `count` best individuals by score (highest first when higher
  is better), equal scores in their order; it copies exactly those.
* Fitness proportionate: scores become probabilities by a softmax, after
  taking inverses when lower is better (adding one first if a score is
  zero); scores must not be negative.  The draws come from the single-word
  stream.

A selection keeps its event names as a plain list, so acting through the
events, which looks them up by name, fails.
-/

namespace Evolver

/-- How a selection chooses. -/
inductive Choice where
  | tournament (size : Int) (replace : Value)
  | elitism (count : Int)
  | proportionate

/-- A selection: how it chooses, and which scores it prefers. -/
structure Selection where
  choice : Choice
  higherIsBetter : Value

/-- Scores as a number array holds them: integers, or doubles once any is
a double. -/
inductive Scores where
  | ints (xs : List Int)
  | floats (xs : List Float)

namespace Scores

/-- The array of a list of plain numbers. -/
def ofValues (vs : List Value) : Except Fault Scores := do
  let asInt : Value → Option Int
    | .int n => some n
    | .bool b => some (if b then 1 else 0)
    | _ => none
  match vs.mapM asInt with
  | some ns => pure (.ints ns)
  | none =>
    let asFloat : Value → Option Float
      | .float x => some x
      | v => (asInt v).map Numeric.intToFloat
    match vs.mapM asFloat with
    | some xs => pure (.floats xs)
    | none => throw (Fault.request "unsupported scores")

/-- The greatest double, or NaN when there is one. -/
def floatMax (xs : List Float) : Float :=
  if xs.any (·.isNaN) then 0.0 / 0.0 else xs.foldl (fun a b => if b > a then b else a) (xs.headD 0.0)

/-- The least double, or NaN when there is one. -/
def floatMin (xs : List Float) : Float :=
  if xs.any (·.isNaN) then 0.0 / 0.0 else xs.foldl (fun a b => if b < a then b else a) (xs.headD 0.0)

/-- The softmax of doubles: exponentials of the gaps to the greatest, over
their sum. -/
def softmax (xs : List Float) : List Float :=
  let m := floatMax xs
  let es := xs.map fun x => Float.exp (x - m)
  let s := Numeric.pairwiseSum es
  es.map (· / s)

/-- The probabilities of fitness-proportionate selection. -/
def proportions (scores : Scores) (up : Bool) : Except Fault (List Float) := do
  let empty := Fault.value "zero-size array to reduction operation minimum which has no identity"
  let negative := Fault.value "Fitness scores must be non-negative for FP Selection"
  match scores with
  | .ints [] | .floats [] => throw empty
  | .ints xs =>
    let m := xs.foldl min (xs.headD 0)
    if m < 0 then throw negative
    if up then
      if xs.foldl (· + ·) 0 != 1 then
        let top := xs.foldl max (xs.headD 0)
        let es := xs.map fun x => Float.exp (Numeric.intToFloat (x - top))
        let s := Numeric.pairwiseSum es
        pure (es.map (· / s))
      else pure (xs.map Numeric.intToFloat)
    else
      let smoothing : Int := if m == 0 then 1 else 0
      let ys := xs.map fun x => 1.0 / Numeric.intToFloat (x + smoothing)
      pure (if Numeric.pairwiseSum ys != 1.0 then softmax ys else ys)
  | .floats xs =>
    let m := floatMin xs
    if m < 0.0 then throw negative
    let ys := if up then xs else
      let smoothing : Float := if m == 0.0 then 1.0 else 0.0
      xs.map fun x => 1.0 / (x + smoothing)
    pure (if Numeric.pairwiseSum ys != 1.0 then softmax ys else ys)

end Scores

namespace Selection

/-- The class name of the selection. -/
def className (s : Selection) : String :=
  match s.choice with
  | .tournament _ _ => "TournamentSelection"
  | .elitism _ => "ElitismSelection"
  | .proportionate => "FitnessProportionateSelection"

/-- The selection of a class, from keyword arguments. -/
def build (name : String) (kw : Operator.Kwargs) : Except Fault Selection := do
  let params ← match name with
    | "TournamentSelection" => pure ["tournament_size", "higher_is_better", "replace", "events"]
    | "ElitismSelection" => pure ["num_elites", "higher_is_better", "events"]
    | "FitnessProportionateSelection" => pure ["higher_is_better", "events"]
    | _ => throw (Fault.request s!"unknown selection {name}")
  for (k, _) in kw do
    if !params.contains k then
      throw (Fault.type s!"{name}.__init__() got an unexpected keyword argument '{k}'")
  let required (k : String) : Except Fault Int := do
    match kw.find? (·.1 == k) with
    | some (_, .int n) => pure n
    | some _ => throw (Fault.request s!"unsupported {k}")
    | none => throw (Fault.type s!"{name}.__init__() missing 1 required positional argument: '{k}'")
  let hib := Operator.arg kw "higher_is_better" (.bool false)
  match name with
  | "TournamentSelection" =>
    pure ⟨.tournament (← required "tournament_size") (Operator.arg kw "replace" (.bool true)), hib⟩
  | "ElitismSelection" => pure ⟨.elitism (← required "num_elites"), hib⟩
  | _ => pure ⟨.proportionate, hib⟩

/-- A copy of an individual that records the selection. -/
def copy (s : Selection) (id : Nat) : Run Nat := do
  let c ← Run.clone id
  Run.update c fun i => { i with selectedBy := i.selectedBy ++ [s.className] }
  pure c

/-- The winner of a tournament: each later participant that is better than
the winner so far takes its place. -/
def winner : List Nat → Run Nat
  | [] => throw Fault.listIndex
  | first :: rest => rest.foldlM (fun w p => do if ← Run.better p (some w) then pure p else pure w) first

/-- The augmented scores of individuals. -/
def scores (ids : List Nat) : Run (List Value) :=
  ids.mapM fun id => do Run.ofExcept (← Run.get id).augmentedFitness

/-- Add the selected copies of `source` individuals to `dest`. -/
def select (s : Selection) (source dest : List Nat) : Run (List Nat) := do
  let n := source.length
  match s.choice with
  | .tournament size replace =>
    let withReplacement ← Run.ofExcept replace.truth
    if !withReplacement && (n : Int) < size then
      throw (Fault.value ("Tournament size must be greater or equal to\n" ++
        "                            the number of individuals to be selected from.\n" ++
        s!"                             Tournament size={size},\n" ++
        s!"                             number of individuals: {n}"))
    let count := ((n : Int) - dest.length).toNat
    let tournaments ← (List.range count).mapM fun _ => do
      if withReplacement then Run.draw (Draw.pick n size.toNat)
      else if size < 0 then throw (Fault.value "Sample larger than population or is negative")
      else Run.draw (Draw.sample n size.toNat)
    let winners ← tournaments.mapM fun t => do
      s.copy (← winner (t.map fun i => source.getD i 0))
    pure (dest ++ winners)
  | .elitism count =>
    let keyed := source.zip (← scores source)
    let lt (a b : Nat × Value) : Except Fault Bool := Value.compare .lt a.2 b.2
    let sorted ← Run.ofExcept
      (if ← Run.ofExcept s.higherIsBetter.truth then sortDesc lt keyed else sortBy lt keyed)
    let elites := slice (sorted.map (·.1)) 0 count
    let copies ← elites.mapM s.copy
    pure (dest ++ copies)
  | .proportionate =>
    let wanted := (n : Int) - dest.length
    let values ← scores source
    let p ← Run.ofExcept ((← Run.ofExcept (Scores.ofValues values)).proportions
      (← Run.ofExcept s.higherIsBetter.truth))
    if wanted < 0 then throw (Fault.value "negative dimensions are not allowed")
    let picks ← Run.draw (Numeric.choose p wanted.toNat)
    let copies ← picks.mapM fun i => s.copy (source.getD i 0)
    pure (dest ++ copies)

/-- The event names a selection keeps, as a bare list. -/
def eventNames : List String := ["after_selection"]

/-- The names of the data a selection publishes with an event, sorted: the
individuals it selected, after selecting. -/
def dataKeys (event : String) : List String :=
  if event == "after_selection" then ["applied_individuals"] else []

/-- Acting through the events fails: the event names are a list, which
cannot be looked up by a name. -/
def act (_ : Selection) : Run (List Nat) :=
  throw (Fault.type "list indices must be integers or slices, not str")

end Selection

end Evolver
