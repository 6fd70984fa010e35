import Evolver.Tree.Execute
/-!
# Classifying with a program tree

A tree classifies the rows of a table by one of three rules:

* `sigmoid`: the logistic function of the tree's output, binned by the
  thresholds that split `[0, 1]` into as many equal parts as there are
  classes; a row's class is the number of thresholds at or below its value;
* `argmax` and `softmax`: the tree's output itself, provided the function at
  the root has the rule's name in its own.
-/

namespace Evolver
namespace Learn

open Numeric

/-- How a tree's output becomes classes. -/
inductive Rule where
  | sigmoid
  | argmax
  | softmax

namespace Rule

/-- The name of a rule. -/
def name : Rule → String
  | .sigmoid => "sigmoid"
  | .argmax => "argmax"
  | .softmax => "softmax"

/-- The rule of a name. -/
def ofName (s : String) : Except Fault Rule :=
  match [Rule.sigmoid, .argmax, .softmax].find? (·.name == s) with
  | some r => pure r
  | none => throw (Fault.value
      "('classification method must be one of', ('sigmoid', 'argmax', 'softmax'))")

end Rule

/-- The inner points of `n + 1` evenly spaced points from zero to one: each
is its index times `1 / n`. -/
def thresholds (n : Int) : Except Fault (List Float) := do
  if n + 1 < 0 then throw (Fault.value s!"Number of samples, {n + 1}, must be non-negative.")
  let step := 1.0 / intToFloat n
  pure ((List.range (n.toNat + 1)).drop 1 |>.dropLast |>.map fun (i : Nat) => intToFloat i * step)

/-- How many of the increasing bounds are at or below a number; a NaN is
above them all. -/
def binOf (bounds : List Float) (x : Float) : Int :=
  if x.isNaN then bounds.length else (bounds.filter (· ≤ x)).length

/-- The bin of every cell of a value, as 64-bit integers of its shape. -/
def digitize (v : Value) (bounds : List Float) : Except Fault Value := do
  let (_, shape, cells) ← v.toArray
  let bins := cells.map fun c => Cell.int (binOf bounds (c.toFloat?.getD 0))
  match shape with
  | [] => pure (.scalar (.int 64) (bins.headD (.int 0)))
  | _ => pure (.array (.int 64) shape bins)

/-- A way to classify: its rule and its number of classes. -/
structure Classifier where
  rule : Rule
  classes : Int

/-- The classes of the rows of a table. -/
def Classifier.classify (c : Classifier) (t : Tree) (table : Value) : Except Fault Value := do
  match c.rule with
  | .sigmoid =>
    let p ← Unary.expit.apply (← t.runTable table)
    digitize p (← thresholds c.classes)
  | rule =>
    match t.nodes.head? with
    | none => throw Fault.listIndex
    | some (.term _ _) => throw (Fault.missingAttribute "'TerminalNode' object has no attribute 'function'")
    | some (.func p) =>
      unless (p.name.splitOn rule.name).length > 1 do
        throw (Fault.value s!"Individual must have {rule.name} function in depth 0 to classify.")
      t.runTable table

end Learn
end Evolver
