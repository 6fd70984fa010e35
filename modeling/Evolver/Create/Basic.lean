import Evolver.Create.Tree
import Evolver.Chromosome.Random
import Evolver.Store
/-!
# Creating a first generation

A `Creator` makes `n` new individuals.  All of them are made first, each
with its fitness and identity, and then each is given its genome in turn:

* trees are grown from a `TreeRecipe` (`full` or `grow`), or left empty by
  the bare recipe;
* ramped half-and-half (`rampedHalf`) splits the individuals into groups, one
  pair of groups per greatest depth from the least to the greatest: a grown
  group, then a full group; what the groups leave over is grown full to the
  greatest depth.  It needs at least one individual per group;
* chromosomes get every gene drawn within its bounds.

A tree individual holds a fitness with bloat control, a chromosome a simple
or a ranked fitness.
-/

namespace Evolver

/-- The settings every tree of a recipe shares. -/
structure TreeRecipe where
  functions : List FunctionEntry
  terminals : TerminalSpec
  erc : Option (Value × Value)
  rootKind : Option Kind
  /-- the least and the greatest depth -/
  depth : Int × Int
  bloatWeight : Value
  updateParents : Bool

/-- A way to make a first generation. -/
inductive Creator where
  /-- trees of a recipe, grown as said, or left empty -/
  | trees (r : TreeRecipe) (how : Option Growth)
  /-- trees of a recipe, ramped half-and-half -/
  | rampedHalf (r : TreeRecipe)
  /-- chromosomes with genes drawn within bounds -/
  | chromosomes (a : Alphabet) (length : Int) (bounds : Value) (m : Measure) (updateParents : Bool)

namespace TerminalSpec

/-- The written text of a terminal set as given. -/
def text : TerminalSpec → String
  | .keys ks => Value.written (.list (ks.map (·.value)))
  | .kinds ks =>
    "\x7b" ++ ", ".intercalate (ks.map fun (a, k) => a.value.written ++ ": " ++ Kind.optText k) ++ "\x7d"
  | .other v => v.written

end TerminalSpec

namespace TreeRecipe

/-- The written text of the function set. -/
def functionsText (r : TreeRecipe) : String :=
  "[" ++ ", ".intercalate (r.functions.map fun
    | .prim p => "<function " ++ p.name ++ ">"
    | .other v => v.written) ++ "]"

/-- The fault of a tree the recipe cannot grow. -/
def noNode (r : TreeRecipe) : Fault :=
  noNodeFault r.terminals.text r.functionsText
    (r.erc.map fun (lo, hi) => Value.written (.tuple [lo, hi])) r.depth.1 r.depth.2

/-- A recipe needs its function set and its terminal set. -/
def make (fs : Option (List FunctionEntry)) (ts : Option TerminalSpec) (erc : Option (Value × Value))
    (root : Option Kind) (depth : Int × Int) (bw : Value) (updateParents : Bool) :
    Except Fault TreeRecipe := do
  let some fs := fs | throw (Fault.value "function_set must be provided")
  let some ts := ts | throw (Fault.value "terminal_set must be provided")
  pure ⟨fs, ts, erc, root, depth, bw, updateParents⟩

/-- `n` individuals with empty trees of the recipe, each with a fitness with
bloat control. -/
def emptyTrees (r : TreeRecipe) (n : Nat) (hib : Value) : Run (List Nat) :=
  (List.range n).mapM fun _ => do
    let f ← Run.ofExcept (Fitness.make (.bloated r.bloatWeight) none hib false false)
    let id ← Run.draw Draw.freshId
    let t ← Run.ofExcept (Tree.make (some r.functions) (some r.terminals) r.erc r.rootKind)
    Run.put (Individual.fresh id (.tree t) f r.updateParents)
    pure id

/-- Grow the tree of an individual in place, from the recipe's root kind, as
said. -/
def growIn (r : TreeRecipe) (how : Growth) (id : Nat) : Run Unit :=
  Run.updateM id fun i => do
    match i.genome with
    | .tree t =>
      let nodes ← Run.draw (t.growFrom how r.depth.1 r.depth.2 r.noNode 0 r.rootKind)
      pure { i with genome := .tree { t with nodes := t.nodes ++ nodes } }
    | .chromosome _ => pure i

/-- `n` individuals with trees of the recipe, grown as said. -/
def create (r : TreeRecipe) (how : Option Growth) (n : Nat) (hib : Value) : Run (List Nat) := do
  let ids ← r.emptyTrees n hib
  if let some how := how then
    for id in ids do
      r.growIn how id
  pure ids

/-- Ramped half-and-half: for each greatest depth from the least to the
greatest, a group grown and a group full; the rest full to the greatest depth. -/
def rampedHalf (r : TreeRecipe) (n : Nat) (hib : Value) : Run (List Nat) := do
  let (lo, hi) := r.depth
  let groups := 2 * (hi + 1 - lo)
  if groups = 0 then throw ⟨.divisionByZero, "division by zero"⟩
  let size := Int.tdiv n groups
  if size = 0 then
    throw (Fault.value s!"Incompatible population size and init_depth. Population size must be at least {groups}.")
  let part : TreeRecipe := { r with bloatWeight := .float 0.0, updateParents := false }
  let mut ids : List Nat := []
  let mut last := r.depth
  for d in (List.range (hi + 1 - lo).toNat).map (fun (i : Nat) => lo + (i : Int)) do
    let grown ← { part with depth := (lo, d) }.create (some (.grow (.float 0.5))) size.toNat hib
    let full ← { part with depth := (lo, d) }.create (some .full) size.toNat hib
    ids := ids ++ grown ++ full
    last := (lo, d)
  if ids.length < n then
    let rest ← { part with depth := last }.create (some .full) (n - ids.length) hib
    ids := ids ++ rest
  pure ids

end TreeRecipe

namespace Creator

/-- The arity of a chromosome creator: its event names stand in its place. -/
def chromosomeArity : Value := .list [.str "after_creation"]

/-- Creating a number of individuals without saying which scores are better
fails: the direction is required. -/
def missingDirection (c : Creator) : Fault :=
  let owner := match c with
    | .chromosomes .. => "GAVectorCreator"
    | _ => "GPTreeCreator"
  Fault.type s!"{owner}.create_individuals() missing 1 required positional argument: 'higher_is_better'"

/-- The names of the data a creator publishes with an event, sorted: the
individuals it created, after acting. -/
def dataKeys (event : String) : List String :=
  if event == "after_operator" then ["created_individuals"] else []

/-- `n` new individuals, better fitness higher or lower as `hib` says. -/
def createIndividuals (c : Creator) (n : Nat) (hib : Value) : Run (List Nat) := do
  match c with
  | .trees r how => r.create how n hib
  | .rampedHalf r => r.rampedHalf n hib
  | .chromosomes a length bounds m up =>
    let ids ← (List.range n).mapM fun _ => do
      let f ← Run.ofExcept (Fitness.make m none hib false false)
      let id ← Run.draw Draw.freshId
      let ch ← Run.ofExcept (Chromosome.make a length bounds none)
      Run.put (Individual.fresh id (.chromosome ch) f up)
      pure id
    for id in ids do
      Run.updateM id fun i => do
        match i.genome with
        | .chromosome ch =>
          let genes ← (List.range length.toNat).mapM fun (k : Nat) => Run.draw (ch.randomGene (k : Int))
          pure { i with genome := .chromosome (ch.setGenes genes) }
        | .tree _ => pure i
    pure ids

end Creator

end Evolver
