import Evolver.Tree.Basic
import Evolver.Primitive.Eval
/-!
# Running a program tree

A tree runs on named inputs: every key of its terminal set must be given and
no other name.  The subtree at the front is evaluated bottom-up: a terminal
whose value is the name of an input stands for that input, any other terminal
for its own value, and a function node applies its primitive to the values
of its arguments, left to right.

A tree also runs on a table: an array of at least two dimensions whose
column `i` is the input `x{i}`.  A result that is a single number, or an
array of no dimensions, is then spread over the rows as a column of the
table's element type.
-/

namespace Evolver

open Numeric

/-- The columns of a table as named inputs `x0`, `x1`, …; `none` for a value
that is no array of at least two dimensions. -/
def Value.columns? : Value → Option (List (String × Value))
  | .array t (rows :: cols :: rest) cells =>
    let inner := Value.shapeSize rest
    let cellAt (r c k : Nat) : Cell := cells.getD ((r * cols + c) * inner + k) .none
    some ((List.range cols).map fun c =>
      (s!"x{c}", .array t (rows :: rest)
        ((List.range rows).flatMap fun r => (List.range inner).map fun k => cellAt r c k)))
  | _ => Option.none

mutual

/-- The class of the part of a value that makes it no key of a mapping. -/
def Value.unhashable : Value → Option String
  | .list _ => some "list"
  | .array _ _ _ => some "numpy.ndarray"
  | .tuple xs => Value.unhashableList xs
  | _ => Option.none

/-- The class of the first item that is no key of a mapping. -/
def Value.unhashableList : List Value → Option String
  | [] => Option.none
  | x :: xs => (Value.unhashable x).orElse fun _ => Value.unhashableList xs

end

namespace Tree

/-- Reading a subtree into its value on named inputs. -/
def runReading (inputs : List (String × Value)) : Reading Value where
  arity := arityOf
  leaf := fun n => match n with
    | .term a _ =>
      match a.value.unhashable with
      | some cls => throw (Fault.type s!"unhashable type: {Value.quoteText cls}")
      | none =>
        match a.value with
        | .str s => pure ((inputs.lookup s).getD a.value)
        | v => pure v
    | .func _ => throw Fault.listIndex
  close := fun n args => match n with
    | .func p => p.call args
    | .term _ _ => throw Fault.listIndex

/-- Whether a key is given among the inputs. -/
def given (inputs : List (String × Value)) (key : Value) : Bool :=
  inputs.any fun (name, _) => sameKey (.str name) key

/-- The value of the tree on named inputs. -/
def run (t : Tree) (inputs : List (String × Value)) : Except Fault Value := do
  if t.nodes.isEmpty then throw (Fault.value "Tree is empty, cannot execute.")
  let bad := inputs.filter fun (name, _) => !t.terminals.any fun e => sameKey e.key.value (.str name)
  if !bad.isEmpty then
    let names := Value.written (.list (bad.map fun (name, _) => .str name))
    throw (Fault.value s!"received variable arguments not in terminal set: {names}")
  let missing := t.terminals.filter fun e => !given inputs e.key.value
  if !missing.isEmpty then
    let names := Value.written (.list (missing.map fun e => e.key.value))
    throw (Fault.value s!"Missing variable terminals as execute kwargs: {names}")
  pure (← (runReading inputs).read t.nodes).1

/-- A column of `rows` copies of a value, of element type `t`. -/
def spread (t : DType) (rows : List Nat) (v : Value) : Except Fault Value := do
  let (_, _, cells) ← v.toArray
  match cells with
  | [c] => pure (.array t rows (List.replicate (Value.shapeSize rows) (c.cast t)))
  | _ => throw (Fault.value "could not broadcast input array")

/-- The value of the tree on a table, a single-number result spread over its rows. -/
def runTable (t : Tree) (table : Value) : Except Fault Value := do
  if t.nodes.isEmpty then throw (Fault.value "Tree is empty, cannot execute.")
  let some inputs := table.columns?
    | throw (Fault.value ("Bad argument to tree.execute, must be np array or kwargs: " ++
        Value.written (.tuple [table])))
  let res ← t.run inputs
  let single := match res with
    | .int _ | .float _ | .bool _ => true
    | .scalar _ _ => true
    | .array _ [] _ => true
    | _ => false
  let hasShape := match res with
    | .array _ _ _ | .scalar _ _ => true
    | .int _ | .float _ | .bool _ => true
    | _ => false
  if !hasShape then
    let cls := Value.quoteText res.shortClassName
    throw (Fault.missingAttribute s!"{cls} object has no attribute 'shape'")
  if !single then pure res
  else
    match table with
    | .array dt (rows :: cols :: rest) _ =>
      if cols = 0 then throw (Fault.index "index 0 is out of bounds for axis 1 with size 0")
      else spread dt (rows :: rest) res
    | _ => pure res

end Tree

end Evolver
