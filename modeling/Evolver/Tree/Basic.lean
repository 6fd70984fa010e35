import Evolver.Tree.Walk
/-!
# Program trees

A `Tree` is a prefix list of nodes together with what its nodes may be drawn
from: the primitives of its function set, the keys of its terminal set with
their kinds, the range of its random constants, and the kind its root must
have.  In an untyped tree every key has no kind.

`Tree.make` checks a function set and a terminal set as given, in a fixed
order, and answers the first fault: both sets present, every function entry
a primitive, the terminal set a list or a mapping; a list is untyped and
needs untyped primitives; a mapping gives a kind to every key, and the root
kind, the constants' kind and the kinds of the arguments must agree with the
primitives (`Tree.checkKinds`).

On the node list: its `size`, its `depth` (the longest path from the first
node to a leaf of the subtree it starts), `accepts` (whether a node may be
appended), and its `text`, a function definition whose body is the subtree at
the front, one node per line.
-/

namespace Evolver

/-- The kind of the class of a plain value, when it is one of the kinds. -/
def Value.kind? : Value → Option Kind
  | .int _ => some .int
  | .float _ => some .float
  | .bool _ => some .bool
  | .str _ => some .str
  | _ => Option.none

/-- An entry of a terminal set: a key and its kind. -/
structure Terminal where
  key : Atom
  kind : Option Kind
deriving Inhabited

/-- A program tree and the sets it is drawn from. -/
structure Tree where
  functions : List Primitive
  terminals : List Terminal
  /-- the range of random constants -/
  erc : Option (Value × Value)
  rootKind : Option Kind
  nodes : List Node
deriving Inhabited

/-- An entry of a function set as given: a primitive, or a value that is no
function. -/
inductive FunctionEntry where
  | prim (p : Primitive)
  | other (v : Value)

/-- A terminal set as given. -/
inductive TerminalSpec where
  /-- a list of keys, untyped -/
  | keys (ks : List Atom)
  /-- a mapping from keys to kinds; `none` stands for a value that is no kind -/
  | kinds (ks : List (Atom × Option Kind))
  /-- anything else -/
  | other (v : Value)

namespace Tree

/-- Python-style equality of two keys: numbers by value, texts by text. -/
def sameKey (a b : Value) : Bool :=
  match a, b with
  | .str x, .str y => x == y
  | .none, .none => true
  | .int x, .int y => x == y
  | .bool x, .bool y => x == y
  | .bool x, .int y | .int y, .bool x => (if x then 1 else 0) == y
  | .float x, .float y => x == y
  | .float x, .int y | .int y, .float x => x == Numeric.intToFloat y && Numeric.floatToInt 64 x == y
  | .float x, .bool y | .bool y, .float x => x == (if y then 1 else 0)
  | _, _ => false

/-- Whether a mapping holding the key `k` finds it for `a`, as a mapping
looks keys up: the very object, or an equal key. -/
def findsKey (k a : Atom) : Bool := k.same a || sameKey k.value a.value

/-- Keys in order of first appearance, each with the kind of its last
appearance. -/
def collectKeys (es : List (Atom × Option Kind)) : List Terminal :=
  es.foldl (fun acc (a, k) =>
    if acc.any (fun t => findsKey t.key a) then
      acc.map (fun t => if findsKey t.key a then { t with kind := k } else t)
    else acc ++ [⟨a, k⟩]) []

/-- The text of a function set: `[<function f_add>, <function f_neg>]`. -/
def functionsText (fs : List Primitive) : String :=
  "[" ++ ", ".intercalate (fs.map fun p => "<function " ++ p.name ++ ">") ++ "]"

/-- The text of a set of kinds: `{<class 'float'>, None}`, or `set()`. -/
def kindSetText (ks : List (Option Kind)) : String :=
  if ks.isEmpty then "set()" else "\x7b" ++ ", ".intercalate (ks.map Kind.optText) ++ "\x7d"

/-- Distinct entries, in order of first appearance. -/
def distinct (ks : List (Option Kind)) : List (Option Kind) :=
  ks.foldl (fun acc k => if acc.contains k then acc else acc ++ [k]) []

/-- The kind of the random constants: that of the range's lower end. -/
def ercKind? (erc : Option (Value × Value)) : Option Kind :=
  erc.bind fun (lo, _) => lo.kind?

/-- The checks of a typed tree: the root kind is the result of some
primitive, so is the constants' kind, and the kinds of all arguments are
exactly the kinds of the terminals and constants. -/
def checkKinds (fs : List Primitive) (ts : List Terminal) (erc : Option (Value × Value))
    (root : Option Kind) : Except Fault Unit := do
  let results := fs.map Primitive.resultKind
  if !results.contains root then
    throw (Fault.value s!"Detected a mismatch between root_type ({Kind.optText root}) and function set ({functionsText fs}).\nRoot type must be the return type of at least one function.")
  match ercKind? erc with
  | some k =>
    if !results.contains (some k) then
      throw (Fault.value s!"Detected a mismatch between ERC type ({k.text}) and function set ({functionsText fs}).\nERC range should not be defined if there are no numeric functions.")
  | none => pure ()
  let argKinds := distinct (fs.flatMap Primitive.argKinds)
  let termKinds := distinct (ts.map Terminal.kind ++ (ercKind? erc).toList.map some)
  let covers (xs ys : List (Option Kind)) := xs.all ys.contains
  if !(covers argKinds termKinds && covers termKinds argKinds) then
    throw (Fault.value s!"Function args type hints ({kindSetText argKinds}) must match terminal types ({kindSetText termKinds}).")

/-- The tree with no nodes over the given sets, or the first fault of the
sets. -/
def make (fs : Option (List FunctionEntry)) (ts : Option TerminalSpec)
    (erc : Option (Value × Value)) (root : Option Kind) : Except Fault Tree := do
  let some fs := fs | throw (Fault.value "Function set must be provided.")
  let some ts := ts | throw (Fault.value "Terminal set must be provided.")
  let prims ← fs.mapM fun
    | .prim p => pure p
    | .other v => throw (Fault.value s!"Functions must be Callble, but {v.display} is of type {v.classText}")
  match ts with
  | .other v =>
    throw (Fault.value s!"Terminal set must be a list or a dictionary, got {v.classText}.")
  | .keys ks =>
    if prims.any Primitive.isTyped then
      throw (Fault.value "Detected typed function with untyped terminal set.                     Please provide a dictionary with types for terminals.")
    pure ⟨prims, collectKeys (ks.map (·, none)), erc, root, []⟩
  | .kinds ks =>
    let terms := collectKeys ks
    for t in terms do
      if t.kind.isNone then
        throw (Fault.value "Values in terminal set dictionary must be types, but None is of type <class 'NoneType'>.")
    checkKinds prims terms erc root
    pure ⟨prims, terms, erc, root, []⟩

/-- The number of nodes. -/
def size (t : Tree) : Nat := t.nodes.length

/-- Whether some terminal has no kind: the tree is untyped. -/
def untyped (t : Tree) : Bool := t.terminals.any (·.kind.isNone)

/-- The number of arguments of a function node. -/
def arityOf (n : Node) : Option Nat := n.primitive?.map Primitive.arity

/-- Reading a subtree into its depth. -/
def depthReading : Reading Nat where
  arity := arityOf
  leaf := fun _ => pure 0
  close := fun _ ds => pure (1 + ds.foldl max 0)

/-- The depth of the subtree at the front: zero for a leaf. -/
def depth (t : Tree) : Except Fault Nat := do
  pure (← depthReading.read t.nodes).1

/-- The declared kind of argument `i` of a function node. -/
def slotKind (n : Node) (i : Nat) : Option Kind :=
  match n with
  | .func p => p.slotKinds.getD i none
  | .term _ _ => none

/-- The test on the chain of open functions, innermost first, each with the
number of arguments it still needs: the open argument of each function has
the kind of the function around it, and the open argument of the outermost
has the kind of the new node. -/
def chainAccepts : List (Node × Nat) → Node → Bool
  | [], _ => true
  | [(f, r)], n => slotKind f (f.primitive?.elim 0 Primitive.arity - r) == n.kind
  | (f, r) :: (g, s) :: rest, n =>
    slotKind f (f.primitive?.elim 0 Primitive.arity - r) == g.kind && chainAccepts ((g, s) :: rest) n

/-- Whether `n` may be appended: always to an empty tree; otherwise only
while the subtree at the front is still open, as `chainAccepts` judges. -/
def accepts (t : Tree) (n : Node) : Bool :=
  t.nodes.isEmpty ||
    match openFrames arityOf t.nodes [] with
    | some st => chainAccepts st n
    | none => false

/-- Append a node if the tree accepts it. -/
def add (t : Tree) (n : Node) : Except Fault Tree :=
  if t.accepts n then pure { t with nodes := t.nodes ++ [n] }
  else throw (Fault.value s!"Could not add node {n.text} to tree {Node.listText t.nodes}")

/-- Two spaces per level below the first, and two more: the indentation of
a node at depth `d`. -/
def indent (d : Nat) : String :=
  if d = 0 then "" else String.ofList (List.replicate (2 * (d + 1)) ' ')

/-- Reading a subtree into its text at a depth: a function's name and an
open parenthesis, each argument on lines of its own separated by commas,
then the closing parenthesis. -/
def textReading : Reading (Nat → String) where
  arity := arityOf
  leaf := fun n => pure fun d => indent d ++ n.text
  close := fun n parts => pure fun d =>
    let body := ",\n".intercalate (parts.map (· (d + 1)))
    let last := if parts.length > 1 then "\n" else ""
    indent d ++ n.text ++ "(\n" ++ body ++ last ++ (if d = 0 then "  " else indent d) ++ ")"

/-- The header of the text: the keys as parameters, with their kinds and the
root's kind when the tree is typed. -/
def header (t : Tree) (id : Nat) : Except Fault String := do
  let params ← if t.untyped then
      t.terminals.zipIdx.mapM fun (e, i) =>
        match e.key.value with
        | .str s => pure s
        | v => throw (Fault.type s!"sequence item {i}: expected str instance, {v.className} found")
    else pure (t.terminals.map fun e => e.key.value.display ++ ": " ++ (e.kind.elim "" Kind.name))
  let ret ← if t.untyped then pure ""
    else match t.nodes.head? with
      | none => throw Fault.listIndex
      | some n => match n.kind with
        | some k => pure (" -> " ++ k.name)
        | none => throw (Fault.missingAttribute "'NoneType' object has no attribute '__name__'")
  let joined := ", ".intercalate params
  pure s!"def func_{id}({joined}){ret}:\n  return "

/-- The text of the tree as a function definition named after `id`. -/
def text (t : Tree) (id : Nat) : Except Fault String := do
  let head ← t.header id
  let (body, _) ← textReading.read t.nodes
  pure (head ++ body 0)

end Tree

end Evolver
