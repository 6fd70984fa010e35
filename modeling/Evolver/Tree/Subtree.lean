import Evolver.Tree.Basic
/-!
# Subtrees of a prefix list

A subtree of a prefix list is a slice: the node that starts it and the nodes
that its arguments take, read on from there.  `Tree.subtreeEnd` reads a slice
from a start position; only primitives of the tree's function set take
arguments in that reading, any other node ends its slice at once.

Subtrees are found by their root *node*, not by a position: `Tree.indexOf`
is the first position whose node is equal to the given one (`Node.same`), so
the subtree of a node that also occurs earlier starts at the earlier
occurrence.  The subtree of the first node is the whole list.  A replacement
cuts out as many nodes as the old subtree has, from the first occurrence of
its root on, and puts the new nodes in their place.

Positions may count from the end, as negative numbers.
-/

namespace Evolver

namespace Tree

/-- The node at a position; a negative position counts from the end. -/
def nodeAt (t : Tree) (i : Int) : Except Fault Node :=
  let n : Int := t.nodes.length
  let j := if i < 0 then i + n else i
  if 0 ≤ j ∧ j < n then
    match t.nodes[j.toNat]? with
    | some x => pure x
    | none => throw Fault.listIndex
  else throw Fault.listIndex

/-- The first position of a node equal to `n`. -/
def indexOf (t : Tree) (n : Node) : Except Fault Nat :=
  match firstSame t.nodes n with
  | some i => pure i
  | none => throw (Fault.value s!"{n.text} is not in list")

/-- Reading a slice: only the tree's own primitives take arguments. -/
def sliceReading (t : Tree) : Reading Unit where
  arity := fun n => match n with
    | .func p => if t.functions.contains p then some p.arity else none
    | .term _ _ => none
  leaf := fun _ => pure ()
  close := fun _ _ => pure ()

/-- The nodes read from a start position on: from there to the end, and
after a negative start on to the front of the list again. -/
def readFrom (t : Tree) (start : Int) : List Node :=
  if start < 0 then t.nodes.drop (start + t.nodes.length).toNat ++ t.nodes
  else t.nodes.drop start.toNat

/-- The position of the last node of the slice that starts at `start`. -/
def subtreeEnd (t : Tree) (start : Int) : Except Fault Int := do
  if start < -(t.nodes.length : Int) then throw Fault.listIndex
  let (_, used) ← t.sliceReading.read (t.readFrom start)
  pure (start + used - 1)

/-- The subtree whose root is the first node equal to `n`: the whole list
when that is the first node. -/
def subtreeOf (t : Tree) (n : Node) : Except Fault (List Node) := do
  let i ← t.indexOf n
  if i = 0 then pure t.nodes
  else
    let e ← t.subtreeEnd i
    pure ((t.nodes.drop i).take (e.toNat + 1 - i))

/-- Replace the subtree `old` by `new`: as many nodes as `old` has, from the
first node equal to its root on. -/
def replace (t : Tree) (old new : List Node) : Except Fault Tree := do
  let some root := old.head? | throw Fault.listIndex
  let i ← t.indexOf root
  pure { t with nodes := t.nodes.take i ++ new ++ t.nodes.drop (i + old.length) }

end Tree

end Evolver
