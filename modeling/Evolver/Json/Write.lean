import Evolver.Json.Basic
import Evolver.Decimal.Layout
/-!
# Writing JSON text

Strings escape the quote, the backslash and control characters, and every
character outside ASCII as `\uXXXX` (a surrogate pair above the basic plane),
so the text is pure ASCII.  Numbers with a point are written as the shortest
decimal that reads back, in `numberLayout`.
-/

namespace Evolver
namespace Json

/-- Doubles are written positionally for decimal points from `-3` to `16`, keep a
`.0` when integral, and otherwise take an exponent `e±dd`. -/
def numberLayout : Decimal.Layout :=
  { positionalAbove := -4, positionalUpTo := 16, keepPointZero := true,
    expMark := "e", expPlus := true, expDigits := 2, nan := "NaN", inf := "Infinity" }

/-- Four lower-case hexadecimal digits. -/
def hex4Text (n : Nat) : String :=
  let d := Nat.toDigits 16 n
  String.ofList (List.replicate (4 - d.length) '0' ++ d)

/-- One character of a string body. -/
def escapeChar (c : Char) : String :=
  match c with
  | '"' => "\\\""
  | '\\' => "\\\\"
  | '\n' => "\\n"
  | '\r' => "\\r"
  | '\t' => "\\t"
  | _ =>
    let n := c.toNat
    if n < 0x20 ∨ (0x7F ≤ n ∧ n < 0x10000) then "\\u" ++ hex4Text n
    else if n ≥ 0x10000 then
      let v := n - 0x10000
      "\\u" ++ hex4Text (0xD800 + v / 0x400) ++ "\\u" ++ hex4Text (0xDC00 + v % 0x400)
    else String.singleton c

/-- A string with its quotes. -/
def quote (s : String) : String :=
  "\"" ++ String.join (s.toList.map escapeChar) ++ "\""

mutual

/-- The text of a value, without blanks. -/
def render : Json → String
  | .null => "null"
  | .bool b => if b then "true" else "false"
  | .int n => toString n
  | .num x => numberLayout.render x
  | .str s => quote s
  | .arr xs => "[" ++ renderElems xs ++ "]"
  | .obj kvs => "\x7b" ++ renderMembers kvs ++ "\x7d"

/-- Array elements separated by commas. -/
def renderElems : List Json → String
  | [] => ""
  | [x] => render x
  | x :: rest => render x ++ "," ++ renderElems rest

/-- Object members separated by commas. -/
def renderMembers : List (String × Json) → String
  | [] => ""
  | [(k, v)] => quote k ++ ":" ++ render v
  | (k, v) :: rest => quote k ++ ":" ++ render v ++ "," ++ renderMembers rest

end

end Json
end Evolver
