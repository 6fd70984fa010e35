import Evolver.Primitive.Basic
import Evolver.Value.Text
/-!
# Nodes of program trees

A program tree is a list of nodes in prefix order.  A node applies a
primitive to the values of the subtrees that follow it, or it is a terminal:
a value with an optional kind.  A terminal that names a variable holds the
very text that the terminal set holds as its key; a constant holds a value
of its own.

Two nodes are equal (`Node.same`) when they are the same primitive, or when
they are terminals of the same kind whose values are one object.  Object
identity is a `Home`: the values that the runtime shares (nothing, the
booleans, integers from -5 to 256, texts of at most one character) are one
object wherever they occur, and every other value is the object of the
allocation that made it.  Copies of a tree keep the homes of its values, so
equal nodes stay equal across copies.
-/

namespace Evolver

/-- Where the object of a value lives. -/
inductive Home where
  /-- the one object of a shared value -/
  | shared
  /-- the object of the `n`-th allocation -/
  | own (n : Nat)
deriving DecidableEq, Inhabited, Repr

/-- A value with the object that holds it.  Only a value the runtime shares
lives in the shared object. -/
structure Atom where
  value : Value
  home : Home
  shared_interned : home = .shared → value.isInterned = true

instance : Inhabited Atom := ⟨⟨.none, .shared, fun _ => rfl⟩⟩

namespace Atom

/-- The atom of a value made at allocation `ref`; a shared value has no
allocation of its own. -/
def make (v : Value) (ref : Nat) : Atom :=
  if h : v.isInterned then ⟨v, .shared, fun _ => h⟩ else ⟨v, .own ref, fun h => nomatch h⟩

/-- Whether two atoms are one object. -/
def same (a b : Atom) : Bool :=
  match a.home, b.home with
  | .shared, .shared => Value.sameAtom a.value b.value
  | .own m, .own n => m == n
  | _, _ => false

end Atom

/-- A node of a program tree. -/
inductive Node where
  /-- an application of a primitive to the subtrees that follow -/
  | func (p : Primitive)
  /-- a terminal: a value and its kind, if the tree is typed -/
  | term (a : Atom) (kind : Option Kind)
deriving Inhabited

namespace Node

/-- The kind of a node: the declared result of its primitive, or the
terminal's kind. -/
def kind : Node → Option Kind
  | .func p => p.resultKind
  | .term _ k => k

/-- Node equality: the same primitive, or terminals of the same kind whose
values are one object. -/
def same : Node → Node → Bool
  | .func p, .func q => p == q
  | .term a k, .term b l => k == l && a.same b
  | _, _ => false

/-- The text of a node: the primitive's name, or the display text of the
terminal's value. -/
def text : Node → String
  | .func p => p.name
  | .term a _ => a.value.display

/-- The primitive of a function node. -/
def primitive? : Node → Option Primitive
  | .func p => some p
  | .term _ _ => none

/-- The text of a list of nodes: `[f_add, x, 1]`. -/
def listText (ns : List Node) : String :=
  "[" ++ ", ".intercalate (ns.map text) ++ "]"

end Node

/-- The first position of a node equal to `n`. -/
def firstSame (ns : List Node) (n : Node) : Option Nat :=
  ns.findIdx? (Node.same · n)

end Evolver
