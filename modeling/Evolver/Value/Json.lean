import Evolver.Value.Basic
import Evolver.Numeric.Operand
import Evolver.Json.Basic
/-!
# Values as JSON

JSON has no NaN, infinity, tuple, array type or fixed-width scalar, so those
are objects with a marker key:

| value | JSON |
|---|---|
| NaN, ±infinity | `{"float": "nan"}`, `{"float": "inf"}`, `{"float": "-inf"}` |
| tuple | `{"tuple": [...]}` |
| array read in | `{"array": nested lists, "dtype": optional name}` |
| array written out | `{"ndarray": nested lists or a bare cell, "dtype", "shape"}` |
| fixed-width scalar | `{"np": type name, "value": cell}` |

Everything else is written as itself; a number with a point is a double and
one without an integer.
-/

namespace Evolver

open Numeric

namespace Value

/-- A double as JSON: a number, or a marker object for NaN and the
infinities. -/
def floatJson (x : Float) : Json :=
  if x.isNaN then .obj [("float", .str "nan")]
  else if x.isInf then .obj [("float", .str (if x > 0 then "inf" else "-inf"))]
  else .num x

/-- A cell as JSON. -/
def cellJson : Cell → Json
  | .none => .null
  | .bool b => .bool b
  | .int n => .int n
  | .float x => floatJson x
  | .str s => .str s

/-- Cells nested by a shape. -/
def nestJson (shape : List Nat) (cells : List Cell) : Json :=
  match shape with
  | [] => cellJson (cells.headD .none)
  | [_] => .arr (cells.map cellJson)
  | _ :: rest =>
    let inner := shapeSize rest
    .arr ((List.range (cells.length / max inner 1)).map fun i =>
      nestJson rest ((cells.drop (i * inner)).take inner))
termination_by shape.length
decreasing_by all_goals simp_wf

mutual

/-- A value as JSON. -/
def toJson : Value → Json
  | .none => .null
  | .bool b => .bool b
  | .int n => .int n
  | .float x => floatJson x
  | .str s => .str s
  | .list xs => .arr (toJsonList xs)
  | .tuple xs => .arr (toJsonList xs)
  | .scalar t c => .obj [("np", .str t.name), ("value", cellJson c)]
  | .array t shape cells =>
    .obj [("ndarray", nestJson shape cells), ("dtype", .str t.name),
      ("shape", .arr (shape.map fun (n : Nat) => Json.int (Int.ofNat n)))]
  | .object m name _ => .str ("<" ++ m ++ "." ++ name ++ " object>")

/-- Values as JSON. -/
def toJsonList : List Value → List Json
  | [] => []
  | x :: rest => toJson x :: toJsonList rest

end

/-- The leaves of nested lists, as cells, without conversion. -/
def leafCells : Value → List Cell
  | .list xs => xs.attach.flatMap fun ⟨x, _⟩ => leafCells x
  | .tuple xs => xs.attach.flatMap fun ⟨x, _⟩ => leafCells x
  | .array _ _ cs => cs
  | .scalar _ c => [c]
  | v => (v.toCell?).toList

/-- `np.array(items, dtype)`: the shape of the nested items, their cells cast
to the element type, or the inferred type when none is named. -/
def arrayOf (items : Value) (dtype : Option DType) : Except Fault Value := do
  let (t, shape, cells) ← items.toArray
  match dtype with
  | Option.none => pure (.array t shape cells)
  | some .object => pure (.array .object shape (leafCells items))
  | some (.str _) =>
    let raw := (leafCells items).map Cell.asText
    let w := raw.foldl (fun m c => match c with
      | .str s => max m s.length
      | _ => m) 0
    pure (.array (DType.str w).allocated shape raw)
  | some d => pure (.array d shape ((leafCells items).map (Cell.cast d)))

/-- A value from JSON, with the marker objects read back; the fuel bounds the
nesting depth. -/
def ofJsonAt : Nat → Json → Except Fault Value
  | 0, _ => throw (Fault.request "value nested too deeply")
  | _ + 1, .null => pure .none
  | _ + 1, .bool b => pure (.bool b)
  | _ + 1, .int n => pure (.int n)
  | _ + 1, .num x => pure (.float x)
  | _ + 1, .str s => pure (.str s)
  | fuel + 1, .arr xs => return .list (← xs.mapM (ofJsonAt fuel))
  | fuel + 1, .obj kvs =>
    match kvs.lookup "float", kvs.lookup "tuple", kvs.lookup "array", kvs.lookup "list",
        kvs.lookup "np" with
    | some (.str "nan"), _, _, _, _ => pure (.float (0.0 / 0.0))
    | some (.str "inf"), _, _, _, _ => pure (.float (1.0 / 0.0))
    | some (.str "-inf"), _, _, _, _ => pure (.float (-1.0 / 0.0))
    | _, some (.arr xs), _, _, _ => return .tuple (← xs.mapM (ofJsonAt fuel))
    | _, _, some (.arr xs), _, _ => do
      let items ← xs.mapM (ofJsonAt fuel)
      let dtype ← match kvs.lookup "dtype" with
        | some (.str n) => match DType.ofName? n with
          | some d => pure (some d)
          | Option.none => throw (Fault.request s!"unknown dtype {n}")
        | _ => pure Option.none
      arrayOf (.list items) dtype
    | _, _, _, some (.arr xs), _ => return .list (← xs.mapM (ofJsonAt fuel))
    | _, _, _, _, some (.str n) => do
      let d ← match DType.ofName? n with
        | some d => pure d
        | Option.none => throw (Fault.request s!"unknown dtype {n}")
      let v ← ofJsonAt fuel ((kvs.lookup "value").getD .null)
      match v.toCell? with
      | some c => pure (.scalar d (c.cast d))
      | Option.none => throw (Fault.request "bad scalar")
    | _, _, _, _, _ => throw (Fault.request "unknown value object")

/-- A value from JSON, with the marker objects read back. -/
def ofJson (j : Json) : Except Fault Value := ofJsonAt j.depth j

end Value

end Evolver
