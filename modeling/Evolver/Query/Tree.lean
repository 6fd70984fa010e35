import Evolver.Query.Primitive
import Evolver.Tree.Execute
import Evolver.Tree.Random
/-!
# Queries on trees

`tree` builds a tree from its sets, optionally gives it nodes, and runs a
list of steps on it, each answering a value or a failure; the tree and the
random streams carry over from step to step.  `terminal_set` reports the
inputs a table gives a tree.

Nodes are written `{"f": name}` for a function and `{"t": value, "type":
kind}` for a terminal.  In a request, `{"v": key}` is the terminal of a key
of the terminal set (its very object, of the key's kind unless a `type` is
given) and `{"c": value}` a constant with an object of its own.
-/

namespace Evolver
namespace Query

/-- An optional kind named in a query: a kind name, or null for none. -/
def kindOf (j : Json) : Except Fault (Option Kind) :=
  match j with
  | .null => pure none
  | .str s => match Kind.ofName? s with
    | some k => pure (some k)
    | none => throw (Fault.request s!"unknown type {s}")
  | _ => throw (Fault.request "bad type")

/-- A function set as given: null, or entries that are primitive names or
other values. -/
def functionEntries (j : Json) : Draw (Option (List FunctionEntry)) := do
  match j with
  | .null => pure none
  | .arr xs => some <$> xs.mapM fun x => match x with
    | .str name => Draw.ofExcept (FunctionEntry.prim <$> primitiveNamed name)
    | x => Draw.ofExcept (FunctionEntry.other <$> Value.ofJson x)
  | _ => throw (Fault.request "bad function set")

/-- A terminal set as given: null, a list of keys, a mapping from keys to
kind names, or another value. -/
def terminalSpec (j : Json) : Draw (Option TerminalSpec) := do
  match j with
  | .null => pure none
  | .arr xs => some <$> .keys <$> xs.mapM fun x => do Draw.atom (← Draw.ofExcept (Value.ofJson x))
  | .obj ms => some <$> .kinds <$> ms.mapM fun (k, v) => do
      pure (← Draw.atom (.str k), ← Draw.ofExcept (kindOf v))
  | x => some <$> .other <$> Draw.ofExcept (Value.ofJson x)

/-- A range of random constants: `[lo, hi]` or null. -/
def ercOf (j : Json) : Except Fault (Option (Value × Value)) :=
  match j with
  | .null => pure none
  | .arr [lo, hi] => do
    let lo ← Value.ofJson lo
    let hi ← Value.ofJson hi
    if lo.kind?.isNone then throw (Fault.request "bad erc_range")
    pure (some (lo, hi))
  | _ => throw (Fault.request "bad erc_range")

/-- A node of a request, its variables resolved in the tree's terminal set. -/
def nodeOf (t : Tree) (j : Json) : Draw Node := do
  if let some (.str name) := j.get? "f" then
    return .func (← Draw.ofExcept (primitiveNamed name))
  let given ← match j.get? "type" with
    | some k => some <$> Draw.ofExcept (kindOf k)
    | none => pure none
  if let some key := j.get? "v" then
    let key ← Draw.ofExcept (Value.ofJson key)
    match t.terminals.find? fun e => Tree.sameKey e.key.value key with
    | some e => return .term e.key (given.getD e.kind)
    | none => return .term (← Draw.atom key) (given.getD none)
  if let some c := j.get? "c" then
    return .term (← Draw.atom (← Draw.ofExcept (Value.ofJson c))) (given.getD none)
  throw (Fault.request "bad node")

/-- The nodes of a request. -/
def nodesOf (t : Tree) (j : Json) : Draw (List Node) := do
  match j with
  | .arr xs => xs.mapM (nodeOf t)
  | .null => pure []
  | _ => throw (Fault.request "bad nodes")

/-- A node as JSON. -/
def nodeJson : Node → Json
  | .func p => .obj [("f", .str p.name)]
  | .term a k => .obj [("t", a.value.toJson), ("type", kindJson k)]

/-- Nodes as JSON. -/
def nodesJson (ns : List Node) : Json := .arr (ns.map nodeJson)

/-- An optional node as JSON, null for none. -/
def optNodeJson : Option Node → Json
  | some n => nodeJson n
  | none => .null

/-- The tree of a request: its sets, and its nodes when given. -/
def treeOf (q : Json) : Draw Tree := do
  let fs ← functionEntries (q.getD "function_set")
  let ts ← terminalSpec (q.getD "terminal_set")
  let erc ← Draw.ofExcept (ercOf (q.getD "erc_range"))
  let root ← Draw.ofExcept (kindOf (q.getD "root_type"))
  let t ← Draw.ofExcept (Tree.make fs ts erc root)
  pure { t with nodes := ← nodesOf t (q.getD "nodes") }

/-- Named inputs of a request. -/
def inputsOf (j : Json) : Except Fault (List (String × Value)) :=
  match j with
  | .obj ms => ms.mapM fun (k, v) => do pure (k, ← Value.ofJson v)
  | _ => throw (Fault.request "bad vars")

/-- An integer field read as a position. -/
def indexField (s : Json) (k : String) : Except Fault Int := getInt s k

/-- One step on a tree: its answer and the tree after it. -/
def treeStep (id : Nat) (t : Tree) (s : Json) : Draw (Json × Tree) := do
  let same (j : Json) : Draw (Json × Tree) := pure (j, t)
  let seeded : Draw Unit := do Draw.seed (← Draw.ofExcept (getInt s "seed"))
  let kind : Draw (Option Kind) := Draw.ofExcept (kindOf (s.getD "type"))
  match s.getD "do" with
  | .str "size" => same (.int t.size)
  | .str "depth" => same (.int (← Draw.ofExcept t.depth))
  | .str "str" | .str "repr" => same (.str (← Draw.ofExcept (t.text id)))
  | .str "nodes" => same (nodesJson t.nodes)
  | .str "root" => same (nodeJson (← Draw.ofExcept (t.nodeAt 0)))
  | .str "add" =>
    let n ← nodeOf t (s.getD "node")
    let t ← Draw.ofExcept (t.add n)
    pure (.int t.size, t)
  | .str "set_nodes" =>
    let ns ← nodesOf t (s.getD "nodes")
    pure (.int ns.length, { t with nodes := ns })
  | .str "empty" => pure (.int 0, { t with nodes := [] })
  | .str "execute" =>
    let inputs ← Draw.ofExcept (inputsOf (s.getD "vars"))
    same (← Draw.ofExcept (t.run inputs)).toJson
  | .str "execute_x" =>
    let table ← Draw.ofExcept (Value.ofJson (s.getD "X"))
    same (← Draw.ofExcept (t.runTable table)).toJson
  | .str "subtree_at" =>
    let n ← Draw.ofExcept (t.nodeAt (← Draw.ofExcept (indexField s "index")))
    same (nodesJson (← Draw.ofExcept (t.subtreeOf n)))
  | .str "index_of" =>
    let n ← Draw.ofExcept (t.nodeAt (← Draw.ofExcept (indexField s "index")))
    same (.int (← Draw.ofExcept (t.indexOf n)))
  | .str "subtree_end" =>
    same (.int (← Draw.ofExcept (t.subtreeEnd (← Draw.ofExcept (indexField s "index")))))
  | .str "replace_at" =>
    let n ← Draw.ofExcept (t.nodeAt (← Draw.ofExcept (indexField s "index")))
    let old ← Draw.ofExcept (t.subtreeOf n)
    let new ← nodesOf t (s.getD "nodes")
    let t ← Draw.ofExcept (t.replace old new)
    pure (nodesJson t.nodes, t)
  | .str "replace_raw" =>
    let idx ← match s.getD "old" with
      | .arr xs => xs.mapM fun x => match x with
        | .int i => pure i
        | _ => throw (Fault.request "bad index")
      | _ => throw (Fault.request "bad old")
    let old ← idx.mapM fun i => Draw.ofExcept (t.nodeAt i)
    let new ← nodesOf t (s.getD "nodes")
    let t ← Draw.ofExcept (t.replace old new)
    pure (nodesJson t.nodes, t)
  | .str "node_eq" =>
    let a ← Draw.ofExcept (t.nodeAt (← Draw.ofExcept (indexField s "i")))
    let b ← Draw.ofExcept (t.nodeAt (← Draw.ofExcept (indexField s "j")))
    same (.bool (a.same b))
  | .str "erc_type" => same (kindJson (Tree.ercKind? t.erc))
  | .str "terminal_set" =>
    same (.arr (t.terminals.map fun e => .arr [e.key.value.toJson, kindJson e.kind]))
  | .str "random_subtree" =>
    seeded
    match ← t.randomSubtree (← kind) with
    | some ns => same (nodesJson ns)
    | none => same .null
  | .str "random_terminal" =>
    seeded
    same (optNodeJson (← t.randomTerminal (← kind)))
  | .str "random_function" =>
    seeded
    same (optNodeJson (← t.randomFunction (← kind)))
  | .str "random_numeric_node" =>
    seeded
    same (optNodeJson (← t.randomNumericNode))
  | .str other => throw (Fault.request s!"unknown step {other}")
  | _ => throw (Fault.request "missing step")

/-- Run steps in order, each answering `{"ok": value}` or its failure; a
failed step leaves the tree as it was and the streams as it left them. -/
def treeSteps (id : Nat) : Tree → List Json → Draw (List Json)
  | _, [] => pure []
  | t, s :: rest => do
    let r ← tryCatch (do let (j, t') ← treeStep id t s; pure (Except.ok (j, t')))
      (fun e => pure (Except.error e))
    match r with
    | .ok (j, t') => pure (stepJson (.ok j) :: (← treeSteps id t' rest))
    | .error e => pure (stepJson (.error e) :: (← treeSteps id t rest))

/-- `{"op": "tree", …}`: the tree's identity and the answers of its steps. -/
def treeQuery (q : Json) : Draw Json := do
  let id ← Draw.freshId
  let t ← treeOf q
  let steps ← treeSteps id t ((q.getD "steps").arr?.getD [])
  pure (.obj [("id", .int id), ("steps", .arr steps)])

/-- The class of a table's cell as a kind, as the first row shows it. -/
def cellKind (t : Numeric.DType) (c : Numeric.Cell) : Except Fault Kind :=
  match t with
  | .bool => pure .bool
  | .int _ | .uint _ => pure .int
  | .float _ => pure .float
  | .str _ => pure .str
  | .object =>
    let cls := Value.quoteText (Value.ofCell c).className
    throw (Fault.missingAttribute s!"{cls} object has no attribute 'item'")

/-- `{"op": "terminal_set", "X"}`: the names of a table's columns, their
kinds, and the columns as named inputs. -/
def terminalSetQuery (q : Json) : Except Fault Json := do
  let x ← Value.ofJson (q.getD "X")
  match x with
  | .array t (rows :: cols :: rest) cells =>
    let names := (List.range cols).map fun i => s!"x{i}"
    let kinds ← names.zipIdx.mapM fun (name, i) => do
      if rows = 0 then throw (Fault.index "index 0 is out of bounds for axis 0 with size 0")
      if Value.shapeSize rest ≠ 1 then
        throw (Fault.value "can only convert an array of size 1 to a Python scalar")
      let k ← cellKind t (cells.getD (i * Value.shapeSize rest) .none)
      pure (name, Json.str k.name)
    let args := (x.columns?.getD []).map fun (name, v) => (name, v.toJson)
    pure (.obj [("untyped", .arr (names.map .str)), ("typed", .obj kinds), ("args", .obj args)])
  | .array _ _ _ | .scalar _ _ => throw (Fault.index "tuple index out of range")
  | v =>
    let cls := Value.quoteText v.shortClassName
    throw (Fault.missingAttribute s!"{cls} object has no attribute 'shape'")

end Query
end Evolver
