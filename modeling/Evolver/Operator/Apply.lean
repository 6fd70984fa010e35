import Evolver.Operator.Basic
import Evolver.Create.Tree
import Evolver.Chromosome.Crossover
import Evolver.Store
import Evolver.Value.Arith
/-!
# Applying genetic operators

An operator is applied to a group of individuals of the store
(`Operator.applyOperator`): one draw decides whether it acts at all, with its
probability; if it does, every member forgets its fitness, the action runs,
and every member of the result records the operator's class and, when it
keeps its parents, the identities of the whole group.

An action that may fail runs its attempts (`Operator.tries`) until one
succeeds.  The tree operators then give back the group whatever happened; a
point mutation that never succeeded gives back its fallback's result, or
nothing, and nothing cannot be iterated.

`Operator.act` first checks the size of what it is given: a group must have
the arity, and a single individual is only taken by operators of arity 1,
which then fail to iterate over it when they act.
-/

namespace Evolver

namespace Run

/-- The fault of an individual that lacks a method or attribute. -/
def lacks (g : Genome) (name : String) : Fault :=
  Fault.missingAttribute s!"'{g.className}' object has no attribute '{name}'"

/-- The tree of an individual, for an operation only trees have. -/
def treeOf (id : Nat) (name : String) : Run Tree := do
  match (← get id).genome with
  | .tree t => pure t
  | g => throw (lacks g name)

/-- The chromosome of an individual, for an operation only vectors have. -/
def chromosomeOf (id : Nat) (name : String) : Run Chromosome := do
  match (← get id).genome with
  | .chromosome c => pure c
  | g => throw (lacks g name)

/-- Give an individual a new genome. -/
def setGenome (id : Nat) (g : Genome) : Run Unit :=
  update id fun i => { i with genome := g }

end Run

/-- The text of a tree's terminal set as a mapping from keys to kinds. -/
def Tree.terminalsText (t : Tree) : String :=
  "\x7b" ++ ", ".intercalate (t.terminals.map fun e => e.key.value.written ++ ": " ++ Kind.optText e.kind)
    ++ "\x7d"

/-- The fault of sampling more items than there are, or fewer than none. -/
def sampleFault : Fault := Fault.value "Sample larger than population or is negative"

/-- The genes a member's turn redraws in a vector of `size` genes: as many as
the mutation's count, sampled without repetition, or every gene in order. -/
def Mutation.selectCells (m : Mutation) (size : Nat) : Run (List Nat) :=
  match m.count with
  | some n => if n < 0 then throw sampleFault else Run.draw (Draw.sample size n.toNat)
  | none => pure (List.range size)

/-- A new value for gene `p` of a chromosome. -/
def GeneDraw.run (d : GeneDraw) (c : Chromosome) (p : Nat) : Draw Value := do
  let chance (q : Value) : Draw Bool := do
    let r ← Draw.random
    Draw.ofExcept (Value.compare .le (.float r) q)
  match d with
  | .misapplied =>
    throw (Fault.type
      s!"{c.alphabet.className}.get_random_number_in_bounds() takes 2 positional arguments but 3 were given")
  | .uniform => c.randomGene p
  | .gauss mu sigma => c.gaussGene p mu sigma
  | .uniformSometimes q => if ← chance q then c.randomGene p else Draw.ofExcept (c.gene p)
  | .flip => Draw.ofExcept (c.flipped p)
  | .flipSometimes q => if ← chance q then Draw.ofExcept (c.flipped p) else Draw.ofExcept (c.gene p)

/-- The method a gene draw calls first. -/
def GeneDraw.method : GeneDraw → String
  | .gauss _ _ => "get_random_number_with_gauss"
  | .flip | .flipSometimes _ => "bit_flip"
  | _ => "get_random_number_in_bounds"

namespace Operator

/-- Run `attempt` up to `n` times, until it succeeds; whether it did. -/
def tries (attempt : Run Bool) : Nat → Run Bool
  | 0 => pure false
  | n + 1 => do if ← attempt then pure true else tries attempt n

/-- The kind of the root of a subtree. -/
def rootKind (st : List Node) : Option Kind := (st.head?.map Node.kind).join

/-- One attempt of subtree crossover: a random subtree of the first tree, then
one of its root's kind from each other tree, all drawn before any change;
then, from the last tree to the first, each tree gets the subtree of the one
before it, and the first gets the last one's.  It fails when a tree has no
such subtree. -/
def crossSubtrees (arity : Int) (ids : List Nat) : Run Bool := do
  if (ids.length : Int) != arity then
    throw (Fault.value s!"Expected individuals of size {arity}, got {ids.length}.")
  let some lead := ids.head? | throw Fault.listIndex
  let some first ← Run.draw ((← Run.treeOf lead "random_subtree").randomSubtree none) | return false
  let k := rootKind first
  let rest ← ids.tail.mapM fun i => do Run.draw ((← Run.treeOf i "random_subtree").randomSubtree k)
  let some rest := rest.mapM id | return false
  let subtrees := first :: rest
  let n := ids.length
  for i in (List.range n).reverse do
    let id := ids.getD i 0
    let t ← Run.treeOf id "replace_subtree"
    let t ← Run.ofExcept (t.replace (subtrees.getD i []) (subtrees.getD ((i + n - 1) % n) []))
    Run.setGenome id (.tree t)
  return true

/-- One attempt of subtree mutation: a random subtree of every tree, all
drawn first; then each is replaced by a subtree of its root's kind grown
between the depths (stopping with probability one half in between), from
the tree's own sets.  It fails when a tree has no subtree. -/
def mutateSubtrees (depth : Int × Int) (ids : List Nat) : Run Bool := do
  let olds ← ids.mapM fun i => do Run.draw ((← Run.treeOf i "random_subtree").randomSubtree none)
  let some olds := olds.mapM id | return false
  let some lead := ids.head? | throw Fault.listIndex
  let t0 ← Run.treeOf lead "function_set"
  let noNode := noNodeFault t0.terminalsText (Tree.functionsText t0.functions) none depth.1 depth.2
  for (id, old) in ids.zip olds do
    let t ← Run.treeOf id "random_function"
    let new ← Run.draw (t.growFrom (.grow (.float 0.5)) depth.1 depth.2 noNode 0 (rootKind old))
    Run.setGenome id (.tree (← Run.ofExcept (t.replace old new)))
  return true

/-- One attempt of constant mutation: a random number terminal of every tree,
all chosen first; then each value is moved by a normal deviate, giving a new
object.  It fails when a tree has no number terminal. -/
def mutateConstants (mu sigma : Float) (ids : List Nat) : Run Bool := do
  let leaves ← ids.mapM fun i => do Run.draw ((← Run.treeOf i "get_random_numeric_node").randomNumericAt)
  let some leaves := leaves.mapM id | return false
  for (id, pos) in ids.zip leaves do
    let t ← Run.treeOf id "tree"
    match t.nodes[pos]? with
    | some (.term a k) =>
      let d ← Run.draw (Draw.gauss mu sigma)
      let v ← Run.ofExcept (Value.arith .add a.value (.float d))
      let a ← Run.draw (Draw.atom v)
      Run.setGenome id (.tree { t with nodes := t.nodes.set pos (.term a k) })
    | _ => pure ()
  return true

/-- K-point crossover of the first two vectors: `k` distinct cut points drawn
from the inner positions of the first, sorted, and every other segment
swapped in place.  A failed walk keeps the segments swapped so far. -/
def crossSegments (k : Int) (ids : List Nat) : Run Unit := do
  let some lead := ids.head? | throw Fault.listIndex
  let size := (← Run.get lead).size
  if k < 0 then throw sampleFault
  let drawn ← Run.draw (Draw.sample (size - 1) k.toNat)
  let points := (drawn.map fun (p : Nat) => (p : Int) + 1).mergeSort (· ≤ ·)
  let c1 ← Run.chromosomeOf lead "vector"
  let some second := ids[1]? | throw Fault.listIndex
  let c2 ← Run.chromosomeOf second "vector"
  let (a, b, _, f) := Chromosome.exchange k.toNat c1.genes c2.genes points
  Run.setGenome lead (.chromosome { c1 with genes := a })
  Run.setGenome second (.chromosome { c2 with genes := b })
  if let some f := f then throw f

/-- One member's turn in an attempt of a point mutation: the member is first
copied, which takes an identity; then it draws its genes (sampled, or all),
draws their new values from the unchanged vector, and sets them.  It answers
whether the new genes pass the bounds check; a member that fails gets its old
genes back. -/
def redrawMember (m : Mutation) (id : Nat) : Run Bool := do
  let _ ← Run.draw Draw.freshId
  let i ← Run.get id
  let cells ← m.selectCells i.size
  let c ← match i.genome with
    | .chromosome c => pure c
    | g => throw (Run.lacks g (if cells.isEmpty then "check_if_in_bounds" else m.draw.method))
  let values ← cells.mapM fun p => Run.draw (m.draw.run c p)
  let changed ← (cells.zip values).foldlM (fun c (p, v) => Run.ofExcept (c.setGene p v)) c
  Run.setGenome id (.chromosome changed)
  if !(← Run.ofExcept changed.inBounds) then
    Run.setGenome id (.chromosome (c.setGenes c.genes))
    return false
  return true

/-- One attempt of a point mutation, member by member, up to the first whose
new genes fail the bounds check: the attempt fails there, and the members
after it are not reached. -/
def mutatePoints (m : Mutation) (ids : List Nat) : Run Bool := ids.allM (redrawMember m)

/-- Apply an operator to a group: with its probability, reset the members'
fitness, run the action, and record the operator on the result, with the
group as parents where they are kept.  `fuel` bounds the fallbacks. -/
def applyWith : Nat → Operator → List Nat → Run (List Nat)
  | 0, _, _ => throw (Fault.type "'NoneType' object is not iterable")
  | fuel + 1, o, ids => do
    let r ← Run.draw Draw.random
    if !(← Run.ofExcept (Value.compare .le (.float r) o.probability)) then return ids
    for id in ids do Run.update id Individual.resetFitness
    let n := o.attempts.toNat
    let result ← match o.action with
      | .identity => pure (some ids)
      | .kPoints k => do crossSegments k ids; pure (some ids)
      | .subtreeCrossover => do let _ ← tries (crossSubtrees o.arity ids) n; pure (some ids)
      | .subtreeMutation d => do let _ ← tries (mutateSubtrees d ids) n; pure (some ids)
      | .ercMutation mu sigma => do let _ ← tries (mutateConstants mu sigma ids) n; pure (some ids)
      | .mutate m => do
        if ← tries (mutatePoints m ids) n then pure (some ids)
        else match m.fallback with
          | some m' => some <$> applyWith fuel ⟨.mutate m', o.probability, o.arity, 5⟩ ids
          | none => pure none
    let some result := result | throw (Fault.type "'NoneType' object is not iterable")
    for id in result do
      Run.update id fun i => { i with
        appliedOperators := i.appliedOperators ++ [o.className]
        parents := if i.updateParents then i.parents ++ ids else i.parents }
    pure result

/-- Apply an operator to a group. -/
def applyOperator (o : Operator) (ids : List Nat) : Run (List Nat) := applyWith 2 o ids

end Operator

/-- What an operator is given: a group, or one individual on its own. -/
inductive Payload where
  | group (ids : List Nat)
  | single (id : Nat)

namespace Operator

/-- Check a payload's size against the arity: a group must hold as many
individuals as the arity, and a single individual needs an arity of one. -/
def checkPayload (o : Operator) : Payload → Run Unit
  | .group ids => do
    if (ids.length : Int) != o.arity then
      throw (Fault.value s!"Expected {o.arity} individuals,but received {ids.length}.")
  | .single id => do
    let i ← Run.get id
    if o.arity != 1 then
      throw (Fault.value
        s!"Received payload of type {i.genome.classText}, expected arity of 1 but got {o.arity}.")

/-- Act on a payload after checking its size against the arity. -/
def act (o : Operator) (p : Payload) : Run Payload := do
  o.checkPayload p
  match p with
  | .group ids => .group <$> o.applyOperator ids
  | .single id => do
    let i ← Run.get id
    let r ← Run.draw Draw.random
    if ← Run.ofExcept (Value.compare .le (.float r) o.probability) then
      throw (Fault.type s!"'{i.genome.className}' object is not iterable")
    pure (.single id)

end Operator

end Evolver
