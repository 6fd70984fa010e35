import Evolver.Query.Basic
import Evolver.Primitive.Eval
/-!
# Queries on primitives

`prim` calls a primitive on argument values, `func_info` reports its arity and
declared kinds, and `function_node` what a function node built from it (or
from one of the tree helpers that a caller might pass as a function) holds.
-/

namespace Evolver
namespace Query

/-- A primitive named in a query. -/
def primitiveNamed (name : String) : Except Fault Primitive :=
  match Primitive.ofName? name with
  | some p => pure p
  | none => throw (Fault.request s!"unknown function {name}")

/-- `{"op": "prim", "fn", "args"}`: the primitive's result. -/
def prim (q : Json) : Except Fault Json := do
  let p ← primitiveNamed (← getStr q "fn")
  let args ← (← getArr q "args").mapM Value.ofJson
  let r ← p.call args
  pure (.obj [("result", r.toJson)])

/-- `{"op": "func_info", "fn"}`: arity and declared kinds. -/
def funcInfo (q : Json) : Except Fault Json := do
  let p ← primitiveNamed (← getStr q "fn")
  pure (.obj [("arity", .int p.arity), ("types", .arr (p.slotKinds.map kindJson)),
    ("return", kindJson p.resultKind), ("node_type", kindJson p.resultKind),
    ("n_args", .int p.arity)])

/-- Helpers of the tree module that a caller could pass as functions: their
arity and the name of their declared result, `none` when some hint is
missing. -/
def helperFunction : String → Option (Nat × Option String)
  | "create_terminal_set" => some (2, none)
  | "generate_args" => some (1, some "Dict")
  | "arity" => some (1, some "int")
  | "get_func_types" => some (1, some "List")
  | "get_return_type" => some (1, some "type")
  | _ => none

/-- `{"op": "function_node", "fn"}`: the node's kind, argument count and text. -/
def functionNode (q : Json) : Except Fault Json := do
  let name ← getStr q "fn"
  let fields (kind : Json) (n : Nat) : Json :=
    .obj [("node_type", kind), ("n_args", .int n), ("str", .str name), ("repr", .str name)]
  match Primitive.ofName? name, helperFunction name with
  | some p, _ => pure (fields (kindJson p.resultKind) p.arity)
  | none, some (n, some k) => pure (fields (.str k) n)
  | none, some (_, none) =>
    throw (Fault.value s!"Function {name} has missing type hints.Please provide type hints for all arguments and return type.")
  | none, none => throw (Fault.request s!"unknown function {name}")

end Query
end Evolver
