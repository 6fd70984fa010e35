import Evolver.Value.Basic
import Evolver.Decimal.Layout
/-!
# The text of a value

Two texts per value, as the messages and printed programs of this library
show them: `Value.display` for display (a text as it is) and `Value.written` for
the written form that reads back (a text in quotes, nested values always in
this form).

* Doubles: the shortest decimal that reads back, positional for decimal
  points from `-3` to `16` with `.0` kept, else `1e+16`, `5e-324`
  (`Value.floatLayout`); `nan`, `inf`.
* Texts are quoted with `'` unless they hold `'` and no `"`; the backslash, the
  quote and control characters are escaped.
* Fixed-width scalars show their number and are written `np.float64(2.5)`.
* Arrays show as `[1 2 3]` and are written `array([1, 2, 3])`, cells padded
  to a common width, the element type named unless it is a default one.
-/

namespace Evolver

open Numeric

namespace Value

/-- Doubles print positionally for decimal points from `-3` to `16` and keep
`.0` when integral; otherwise one digit, a point, and `e+dd` or `e-dd`. -/
def floatLayout : Decimal.Layout :=
  { positionalAbove := -4, positionalUpTo := 16, keepPointZero := true,
    expMark := "e", expPlus := true, expDigits := 2, nan := "nan", inf := "inf" }

/-- The display text of a double. -/
def floatText (x : Float) : String := floatLayout.render x

/-- Two hexadecimal digits. -/
def hex2 (n : Nat) : String :=
  let d := Nat.toDigits 16 n
  String.ofList (List.replicate (2 - d.length) '0' ++ d)

/-- Four hexadecimal digits. -/
def hex4 (n : Nat) : String :=
  let d := Nat.toDigits 16 n
  String.ofList (List.replicate (4 - d.length) '0' ++ d)

/-- One character inside quotes `q`. -/
def escapeIn (q : Char) (c : Char) : String :=
  let n := c.toNat
  if c = '\\' then "\\\\"
  else if c = q then "\\" ++ String.singleton q
  else if c = '\n' then "\\n"
  else if c = '\r' then "\\r"
  else if c = '\t' then "\\t"
  else if n < 0x20 ∨ (0x7F ≤ n ∧ n ≤ 0xA0) ∨ n = 0xAD then "\\x" ++ hex2 n
  else if (0xD800 ≤ n ∧ n < 0xE000) ∨ n = 0x2028 ∨ n = 0x2029 then "\\u" ++ hex4 n
  else String.singleton c

/-- A text in quotes: `'` unless the text holds `'` and no `"`. -/
def quoteText (s : String) : String :=
  let q := if s.contains '\'' && !s.contains '"' then '"' else '\''
  String.singleton q ++ String.join (s.toList.map (escapeIn q)) ++ String.singleton q

/-- The display text of a cell. -/
def cellShow : Cell → String
  | .none => "None"
  | .bool b => if b then "True" else "False"
  | .int n => toString n
  | .float x => floatText x
  | .str s => s

/-- The written text of a cell. -/
def cellQuoted : Cell → String
  | .str s => quoteText s
  | c => cellShow c

/-- Left-pad with blanks. -/
def padLeft (n : Nat) (s : String) : String :=
  String.ofList (List.replicate (n - s.length) ' ') ++ s

/-- Right-pad with blanks. -/
def padRight (n : Nat) (s : String) : String :=
  s ++ String.ofList (List.replicate (n - s.length) ' ')

/-- The digits of a double inside an array: the shortest decimal with a bare
point for whole numbers (`1.`, `2.5`, `-0.`). -/
def arrayFloatText (x : Float) : String :=
  let t := floatText x
  if t.endsWith ".0" then String.ofList (t.toList.take (t.length - 1)) else t

/-- The cells of an array as texts of one width: integers and booleans are
right-justified, floats aligned at the point. -/
def cellTexts (t : DType) (cells : List Cell) : List String :=
  match t with
  | .float _ =>
    let ts := cells.map fun c => match c with
      | .float x => arrayFloatText x
      | c => cellShow c
    let split := ts.map fun s => match s.splitOn "." with
      | [a, b] => (a, b)
      | _ => (s, "")
    let wi := split.foldl (fun m (a, _) => max m a.length) 0
    let wf := split.foldl (fun m (_, b) => max m b.length) 0
    split.map fun (a, b) =>
      if b.isEmpty && !(ts.any (·.contains '.')) then padLeft wi a
      else padLeft wi a ++ "." ++ padRight wf b
  | .str _ =>
    cells.map cellQuoted
  | _ =>
    let ts := cells.map cellShow
    let w := ts.foldl (fun m s => max m s.length) 0
    ts.map (padLeft w)

/-- Whether an element type is named in the written text of an array. -/
def namesType : DType → Bool
  | .bool | .int 64 | .float 64 => false
  | .str _ => false
  | _ => true

/-- Split a list into rows of `n` items. -/
def chunks (n : Nat) (xs : List String) : List (List String) :=
  go xs.length xs
where
  go : Nat → List String → List (List String)
    | 0, _ => []
    | fuel + 1, xs => if xs.isEmpty || n = 0 then [] else xs.take n :: go fuel (xs.drop n)

/-- Nest texts by a shape with the separators of the display (`sep` between
items of the last axis, rows on new lines indented by `indent`). -/
def nestTexts (shape : List Nat) (sep : String) (rowSep : String) (ts : List String) : String :=
  match shape with
  | [] => ts.headD ""
  | [_] => "[" ++ sep.intercalate ts ++ "]"
  | _ :: rest =>
    let inner := Value.shapeSize rest
    let rows := chunks inner ts
    "[" ++ rowSep.intercalate (rows.map fun r => nestTexts rest sep rowSep r) ++ "]"
termination_by shape.length
decreasing_by all_goals simp_wf

/-- The display text of an array. -/
def arrayShow (t : DType) (shape : List Nat) (cells : List Cell) : String :=
  match shape with
  | [] => cellShow (cells.headD .none)
  | _ => nestTexts shape " " "\n " (cellTexts t cells)

/-- The written text of an array. -/
def arrayQuoted (t : DType) (shape : List Nat) (cells : List Cell) : String :=
  match shape with
  | [] => "array(" ++ cellQuoted (cells.headD .none) ++ ")"
  | _ =>
    let body := nestTexts shape ", " ",\n       " (cellTexts t cells)
    let suffix := if namesType t || cells.isEmpty then ", dtype=" ++ t.name else ""
    "array(" ++ body ++ suffix ++ ")"

/-- The written text of a fixed-width scalar. -/
def scalarQuoted (t : DType) (c : Cell) : String :=
  match t, c with
  | .bool, .bool b => if b then "np.True_" else "np.False_"
  | .str _, .str s => "np.str_(" ++ quoteText s ++ ")"
  | t, c => "np." ++ t.name ++ "(" ++ cellShow c ++ ")"

mutual

/-- The display text of a value. -/
def display : Value → String
  | .none => "None"
  | .bool b => if b then "True" else "False"
  | .int n => toString n
  | .float x => floatText x
  | .str s => s
  | .list xs => "[" ++ writtenList xs ++ "]"
  | .tuple [x] => "(" ++ written x ++ ",)"
  | .tuple xs => "(" ++ writtenList xs ++ ")"
  | .scalar _ c => cellShow c
  | .array t shape cells => arrayShow t shape cells
  | .object m name _ => "<" ++ m ++ "." ++ name ++ " object>"

/-- The written text of a value. -/
def written : Value → String
  | .str s => quoteText s
  | .list xs => "[" ++ writtenList xs ++ "]"
  | .tuple [x] => "(" ++ written x ++ ",)"
  | .tuple xs => "(" ++ writtenList xs ++ ")"
  | .scalar t c => scalarQuoted t c
  | .array t shape cells => arrayQuoted t shape cells
  | .object m name _ => "<" ++ m ++ "." ++ name ++ " object>"
  | .none => "None"
  | .bool b => if b then "True" else "False"
  | .int n => toString n
  | .float x => floatText x

/-- Written texts separated by `, `. -/
def writtenList : List Value → String
  | [] => ""
  | [x] => written x
  | x :: rest => written x ++ ", " ++ writtenList rest

end

end Value

end Evolver
