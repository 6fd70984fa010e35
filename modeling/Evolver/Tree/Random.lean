import Evolver.Tree.Subtree
import Evolver.Lab
/-!
# Random parts of a tree

The random choices that grow and vary trees, each a uniform choice among the
candidates of a kind, and nothing when there are none:

* `randomFunction`: a primitive of the function set whose result has the kind;
* `randomTerminal`: a key of the kind, or a fresh random constant when the
  kind is a number kind or none (the constant is drawn first, whether chosen
  or not); a key keeps its own kind, a constant gets the kind of its class in
  a typed tree;
* `randomNumericNode`: a terminal of the tree whose value is a number, and
  `randomNumericAt` its position;
* `randomSubtree`: the subtree of a node of the kind other than the root, or
  of any node of an untyped tree.
-/

namespace Evolver

namespace Draw

/-- A new object holding `v`. -/
def atom (v : Value) : Draw Atom := do
  if v.isInterned then pure (Atom.make v 0) else pure (Atom.make v (← freshRef))

/-- A uniform choice from a list; `none` for an empty list. -/
def pickFrom {α : Type} (xs : List α) : Draw (Option α) := do
  if xs.isEmpty then pure none
  else
    let i ← choice xs.length
    pure xs[i]?

end Draw

/-- Whether a node is a terminal whose value is a number. -/
def Node.isNumeric : Node → Bool
  | .term a _ => a.value.isNumber
  | .func _ => false

namespace Tree

/-- A function node of a primitive whose result has the kind. -/
def randomFunction (t : Tree) (k : Option Kind) : Draw (Option Node) := do
  let fs := t.functions.filter (·.resultKind == k)
  pure ((← Draw.pickFrom fs).map Node.func)

/-- A random constant from the range. -/
def drawConstant (erc : Value × Value) : Draw Value := do
  match erc.1 with
  | .float _ => pure (.float (← Draw.uniform erc.1 erc.2))
  | _ => pure (.int (← Draw.randint erc.1 erc.2))

/-- The kind a terminal set gives a key, if it holds it. -/
def kindOfKey (t : Tree) (a : Atom) : Option (Option Kind) :=
  (t.terminals.find? fun e => findsKey e.key a).map (·.kind)

/-- The candidates for a terminal of the kind: its keys, and a fresh random
constant when the kind is a number kind or none (the constant is drawn
whether chosen or not). -/
def terminalPool (t : Tree) (k : Option Kind) : Draw (List Atom) := do
  let keys := (t.terminals.filter (·.kind == k)).map (·.key)
  match t.erc with
  | some erc =>
    if k.all Kind.isNumber then
      let c ← drawConstant erc
      pure (keys ++ [← Draw.atom c])
    else pure keys
  | none => pure keys

/-- The terminal node of a key or constant drawn for the kind `k`: a key keeps
its own kind, a constant gets the kind of its class in a typed tree. -/
def terminalNode (t : Tree) (k : Option Kind) (a : Atom) : Node :=
  let fallback := if k.isNone then none else a.value.kind?
  .term a ((t.kindOfKey a).getD fallback)

/-- A terminal node of the kind: a key, or a random constant. -/
def randomTerminal (t : Tree) (k : Option Kind) : Draw (Option Node) := do
  let pool ← t.terminalPool k
  pure ((← Draw.pickFrom pool).map (t.terminalNode k))

/-- The position of a random terminal of the tree whose value is a number. -/
def randomNumericAt (t : Tree) : Draw (Option Nat) :=
  Draw.pickFrom ((List.range t.nodes.length).filter fun i => (t.nodes.getD i default).isNumeric)

/-- A terminal of the tree whose value is a number. -/
def randomNumericNode (t : Tree) : Draw (Option Node) := do
  pure ((← t.randomNumericAt).bind fun i => t.nodes[i]?)

/-- Whether the subtree of `n` may be drawn in a tree whose root is `root`
when the kind `k` is asked for: a node without a kind always, and otherwise
a node unequal to the root that has the kind, or any kind when none is
asked for. -/
def choosable (root : Node) (k : Option Kind) (n : Node) : Bool :=
  n.kind.isNone || (k.isNone && !n.same root) || (n.kind == k && !n.same root)

/-- The subtree of a random node of the kind other than the root; in an
untyped tree, of any node. -/
def randomSubtree (t : Tree) (k : Option Kind) : Draw (Option (List Node)) := do
  match t.nodes with
  | [] => pure none
  | root :: _ =>
    match ← Draw.pickFrom (t.nodes.filter (choosable root k)) with
    | none => pure none
    | some n => pure (some (← Draw.ofExcept (t.subtreeOf n)))

end Tree

end Evolver
