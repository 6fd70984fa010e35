/-!
# JSON documents

The data of a JSON text, with whole numbers and numbers written with a point
or an exponent kept apart: `3` is the integer three, `3.0` and `3e0` the
double three.  Objects keep their members in the order written.
-/

namespace Evolver

/-- A JSON value.  `int` holds a number written without `.` or exponent,
`num` one written with them. -/
inductive Json where
  | null
  | bool (b : Bool)
  | int (n : Int)
  | num (x : Float)
  | str (s : String)
  | arr (xs : List Json)
  | obj (kvs : List (String × Json))
deriving Inhabited

namespace Json

/-- The member of an object under a key, if the value is an object that has it. -/
def get? (j : Json) (k : String) : Option Json :=
  match j with
  | .obj kvs => kvs.lookup k
  | _ => none

/-- The member under a key, `null` when missing. -/
def getD (j : Json) (k : String) : Json := (j.get? k).getD .null

/-- Whether an object has a member under the key. -/
def has (j : Json) (k : String) : Bool := (j.get? k).isSome

/-- The text, if the value is a string. -/
def str? : Json → Option String
  | .str s => some s
  | _ => none

/-- The integer, if the value is a whole number. -/
def int? : Json → Option Int
  | .int n => some n
  | _ => none

/-- The elements, if the value is an array. -/
def arr? : Json → Option (List Json)
  | .arr xs => some xs
  | _ => none

/-- The truth value, if the value is a boolean. -/
def bool? : Json → Option Bool
  | .bool b => some b
  | _ => none

mutual

/-- The nesting depth: one for a scalar, one more than the deepest member for
an array or object. -/
def depth : Json → Nat
  | .arr xs => depthList xs + 1
  | .obj kvs => depthMembers kvs + 1
  | _ => 1

/-- The greatest depth of a list of values. -/
def depthList : List Json → Nat
  | [] => 0
  | x :: rest => max (depth x) (depthList rest)

/-- The greatest depth of the values of members. -/
def depthMembers : List (String × Json) → Nat
  | [] => 0
  | (_, v) :: rest => max (depth v) (depthMembers rest)

end

/-- Whether the value is `null`. -/
def isNull : Json → Bool
  | .null => true
  | _ => false

end Json
end Evolver
