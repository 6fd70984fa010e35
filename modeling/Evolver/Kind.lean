/-!
# Kinds of values

The types that typed primitives declare for their arguments and results, and
that typed terminals carry: floats, integers, booleans, texts, the index
type of a two-way choice (`argmax`, a kind of integer), and the kind that
admits anything.  A node of an untyped tree has no kind (`Option Kind` is
`none`).
-/

namespace Evolver

/-- A declared type of a primitive's argument or result, or of a terminal. -/
inductive Kind where
  | float
  | int
  | bool
  | str
  | argmax
  | any
deriving DecidableEq, Repr, Inhabited

namespace Kind

/-- The name of the kind. -/
def name : Kind → String
  | .float => "float"
  | .int => "int"
  | .bool => "bool"
  | .str => "str"
  | .argmax => "argmax"
  | .any => "Any"

/-- The kinds a caller may name. -/
def ofName? : String → Option Kind
  | "float" => some .float
  | "int" => some .int
  | "bool" => some .bool
  | "str" => some .str
  | "argmax" => some .argmax
  | "Any" => some .any
  | _ => none

/-- The written text of the kind: `<class 'float'>`, `typing.Any`. -/
def text : Kind → String
  | .any => "typing.Any"
  | .argmax => "<class 'eckity.base.types.argmax'>"
  | k => "<class '" ++ k.name ++ "'>"

/-- Whether the kind is a kind of number. -/
def isNumber : Kind → Bool
  | .float | .int | .bool | .argmax => true
  | .str | .any => false

/-- The written text of an optional kind; no kind is `None`. -/
def optText : Option Kind → String
  | some k => k.text
  | none => "None"

end Kind

end Evolver
