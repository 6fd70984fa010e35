import Evolver.Json.Basic
import Evolver.Decimal.Read
/-!
# Reading JSON text

A recursive-descent reader over the characters of the text.  Each call is given
fuel no smaller than the number of characters left, and every value takes at
least one character, so the fuel never runs out on a well-formed text.
-/

namespace Evolver
namespace Json

/-- Drop blanks (space, tab, line feed, carriage return). -/
def skipWs : List Char → List Char
  | c :: rest => if c = ' ' ∨ c = '\t' ∨ c = '\n' ∨ c = '\r' then skipWs rest else c :: rest
  | [] => []

/-- The value of a hexadecimal digit. -/
def hexVal (c : Char) : Option Nat :=
  if '0' ≤ c ∧ c ≤ '9' then some (c.toNat - '0'.toNat)
  else if 'a' ≤ c ∧ c ≤ 'f' then some (c.toNat - 'a'.toNat + 10)
  else if 'A' ≤ c ∧ c ≤ 'F' then some (c.toNat - 'A'.toNat + 10)
  else none

/-- Four hexadecimal digits. -/
def hex4 : List Char → Option (Nat × List Char)
  | a :: b :: c :: d :: rest => do
    let a ← hexVal a
    let b ← hexVal b
    let c ← hexVal c
    let d ← hexVal d
    pure (((a * 16 + b) * 16 + c) * 16 + d, rest)
  | _ => none

/-- The body of a string after its opening quote, up to and without the
closing quote; escapes are decoded and a surrogate pair becomes one character.
The fuel is the number of characters left. -/
def readStrGo : Nat → List Char → List Char → Option (String × List Char)
  | 0, _, _ => none
  | _ + 1, [], _ => none
  | _ + 1, '"' :: rest, acc => some (String.ofList acc.reverse, rest)
  | fuel + 1, '\\' :: e :: rest, acc =>
    match e with
    | '"' => readStrGo fuel rest ('"' :: acc)
    | '\\' => readStrGo fuel rest ('\\' :: acc)
    | '/' => readStrGo fuel rest ('/' :: acc)
    | 'b' => readStrGo fuel rest ('\x08' :: acc)
    | 'f' => readStrGo fuel rest ('\x0c' :: acc)
    | 'n' => readStrGo fuel rest ('\n' :: acc)
    | 'r' => readStrGo fuel rest ('\r' :: acc)
    | 't' => readStrGo fuel rest ('\t' :: acc)
    | 'u' =>
      match hex4 rest with
      | none => none
      | some (u, rest') =>
        if 0xD800 ≤ u ∧ u < 0xDC00 then
          match rest' with
          | '\\' :: 'u' :: more =>
            match hex4 more with
            | some (l, rest'') =>
              if 0xDC00 ≤ l ∧ l < 0xE000 then
                readStrGo fuel rest'' (Char.ofNat (0x10000 + (u - 0xD800) * 0x400 + (l - 0xDC00)) :: acc)
              else readStrGo fuel rest' (Char.ofNat u :: acc)
            | none => none
          | _ => readStrGo fuel rest' (Char.ofNat u :: acc)
        else readStrGo fuel rest' (Char.ofNat u :: acc)
    | _ => none
  | fuel + 1, c :: rest, acc => readStrGo fuel rest (c :: acc)

/-- A string body, with fuel for all of its characters. -/
def readStr (cs acc : List Char) : Option (String × List Char) :=
  readStrGo (cs.length + 1) cs acc

/-- A number: whole when written without point or exponent. -/
def readNum (cs : List Char) : Option (Json × List Char) :=
  match Decimal.Dec.ofChars? cs with
  | none => none
  | some (d, neg, isFloat, rest) =>
    if isFloat then some (.num (d.toFloat neg), rest)
    else
      let n : Int := d.digits
      some (.int (if neg then -n else n), rest)

mutual

/-- One value, after blanks. -/
def readValue : Nat → List Char → Option (Json × List Char)
  | 0, _ => none
  | fuel + 1, cs =>
    match skipWs cs with
    | '{' :: rest => readMembers fuel (skipWs rest) []
    | '[' :: rest => readElems fuel (skipWs rest) []
    | '"' :: rest => (readStr rest []).map fun (s, r) => (.str s, r)
    | 't' :: 'r' :: 'u' :: 'e' :: rest => some (.bool true, rest)
    | 'f' :: 'a' :: 'l' :: 's' :: 'e' :: rest => some (.bool false, rest)
    | 'n' :: 'u' :: 'l' :: 'l' :: rest => some (.null, rest)
    | cs' => readNum cs'

/-- The elements of an array after `[`. -/
def readElems : Nat → List Char → List Json → Option (Json × List Char)
  | 0, _, _ => none
  | fuel + 1, cs, acc =>
    match cs with
    | ']' :: rest => if acc.isEmpty then some (.arr [], rest) else none
    | _ =>
      match readValue fuel cs with
      | none => none
      | some (v, rest) =>
        match skipWs rest with
        | ',' :: more => readElems fuel (skipWs more) (v :: acc)
        | ']' :: more => some (.arr (v :: acc).reverse, more)
        | _ => none

/-- The members of an object after `{`. -/
def readMembers : Nat → List Char → List (String × Json) → Option (Json × List Char)
  | 0, _, _ => none
  | fuel + 1, cs, acc =>
    match cs with
    | '}' :: rest => if acc.isEmpty then some (.obj [], rest) else none
    | '"' :: rest =>
      match readStr rest [] with
      | none => none
      | some (k, rest) =>
        match skipWs rest with
        | ':' :: more =>
          match readValue fuel more with
          | none => none
          | some (v, rest) =>
            match skipWs rest with
            | ',' :: more => readMembers fuel (skipWs more) ((k, v) :: acc)
            | '}' :: more => some (.obj ((k, v) :: acc).reverse, more)
            | _ => none
        | _ => none
    | _ => none

end

/-- A whole text holding one value and blanks around it. -/
def parse? (s : String) : Option Json :=
  let cs := s.toList
  match readValue (cs.length + 1) cs with
  | some (v, rest) => if (skipWs rest).isEmpty then some v else none
  | none => none

end Json
end Evolver
