import Evolver.Tree.Node
import Evolver.Fault
/-!
# Reading a subtree off a prefix list

A prefix list is read one node at a time with a stack of the function nodes
whose arguments are still being read.  A `Reading` says how many arguments a
node takes (`none` for a leaf), what a leaf is worth, and how a function node
combines the values of its arguments.  Each value is handed to the innermost
open function, which closes once it has all its arguments and hands its own
value on.  The reading ends when the first node's value is known; it fails
with a missing-node fault when the list ends first.

The order of the work is the order of a recursive reading: the arguments of a
function left to right, each function combined as soon as its last argument
is known.  So a failure of a combination comes before a missing node later in
the list.  `Reading.read` answers the value and the number of nodes read.
-/

namespace Evolver

/-- How to read a prefix list into a value. -/
structure Reading (α : Type) where
  /-- the number of arguments a node takes; `none` for a leaf -/
  arity : Node → Option Nat
  /-- the value of a leaf -/
  leaf : Node → Except Fault α
  /-- the value of a node from the values of its arguments -/
  close : Node → List α → Except Fault α

/-- A function node whose arguments are being read. -/
structure Frame (α : Type) where
  node : Node
  /-- the number of arguments still to read -/
  left : Nat
  /-- the values read so far, latest first -/
  done : List α

namespace Reading

variable {α : Type}

/-- Hand a value to the innermost open function, closing every function that
it completes; answers the value of the first node once every function is
closed, and the frames still open otherwise. -/
def settle (r : Reading α) : List (Frame α) → α → Except Fault (Option α × List (Frame α))
  | [], a => pure (some a, [])
  | f :: st, a =>
    if f.left ≤ 1 then do
      let b ← r.close f.node (a :: f.done).reverse
      r.settle st b
    else pure (none, { f with left := f.left - 1, done := a :: f.done } :: st)

/-- The value of a node without arguments: a leaf, or a function of none. -/
def atom (r : Reading α) (n : Node) : Except Fault α :=
  match r.arity n with
  | some 0 => r.close n []
  | _ => r.leaf n

/-- Read on with the open frames `st`, having read `used` nodes. -/
def go (r : Reading α) : List Node → List (Frame α) → Nat → Except Fault (α × Nat)
  | [], _, _ => throw Fault.listIndex
  | n :: rest, st, used =>
    match r.arity n with
    | some (k + 1) => r.go rest (⟨n, k + 1, []⟩ :: st) (used + 1)
    | _ => do
      match ← r.settle st (← r.atom n) with
      | (some v, _) => pure (v, used + 1)
      | (none, st') => r.go rest st' (used + 1)

/-- The value of the subtree at the front of the list, and its number of nodes. -/
def read (r : Reading α) (ns : List Node) : Except Fault (α × Nat) := r.go ns [] 0

end Reading

/-- A subtree has ended: hand it to the innermost open frame, closing the
frames it completes; `none` once no frame is left open. -/
def popFrames : List (Node × Nat) → Option (List (Node × Nat))
  | [] => none
  | (f, k) :: st => if k ≤ 1 then popFrames st else some ((f, k - 1) :: st)

/-- The open frames left when the list ends inside the first subtree: the
function nodes still waiting for an argument, innermost first, each with the
number of arguments it still needs.  `none` when the first subtree is complete
before or at the end of the list, or the list is empty. -/
def openFrames (arity : Node → Option Nat) : List Node → List (Node × Nat) → Option (List (Node × Nat))
  | [], st => if st.isEmpty then none else some st
  | n :: rest, st =>
    match arity n with
    | some (k + 1) => openFrames arity rest ((n, k + 1) :: st)
    | _ =>
      match popFrames st with
      | none => none
      | some st' => openFrames arity rest st'

end Evolver
