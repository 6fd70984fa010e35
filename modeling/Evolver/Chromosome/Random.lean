import Evolver.Chromosome.Basic
import Evolver.Lab
/-!
# Random genes and parts

* `randomGene`: a gene drawn within bounds, an integer for bits and integers
  (both ends included) and a float for floats; bits always use the first two
  bounds, the others their pair when the bounds are a tuple and the pair of
  the position otherwise;
* `gaussGene`: a float gene moved by a normal deviate;
* `randomPart`: the genes between a random start and a random end at or after
  it, both drawn inclusive;
* `replacePartRandom`: a part put in at a random position where it fits.
-/

namespace Evolver

open Numeric

/-- `v + x` for a float `x`. -/
def Value.plusFloat (v : Value) (x : Float) : Except Fault Value :=
  match v with
  | .int n => pure (.float (intToFloat n + x))
  | .bool b => pure (.float ((if b then 1 else 0) + x))
  | .float y => pure (.float (y + x))
  | .str _ => throw (Fault.type "can only concatenate str (not \"float\") to str")
  | .list _ => throw (Fault.type "can only concatenate list (not \"float\") to list")
  | .tuple _ => throw (Fault.type "can only concatenate tuple (not \"float\") to tuple")
  | .none => throw (Fault.type "unsupported operand type(s) for +: 'NoneType' and 'float'")
  | v => Binary.add.apply v (.float x)

namespace Chromosome

/-- The bounds of position `i`: the first two bounds for bits, the tuple
itself for the others when it is a tuple, and entry `i` otherwise. -/
def boundsAt (c : Chromosome) (i : Int) : Except Fault (Value × Value) := do
  let pair ← match c.alphabet, c.bounds with
    | .bits, b => pure b
    | _, .tuple bs => pure (.tuple bs)
    | _, b => b.item i
  pure (← pair.item 0, ← pair.item 1)

/-- A gene drawn within the bounds of position `i`. -/
def randomGene (c : Chromosome) (i : Int) : Draw Value := do
  let (lo, hi) ← Draw.ofExcept (c.boundsAt i)
  match c.alphabet with
  | .floats => pure (.float (← Draw.uniform lo hi))
  | _ => pure (.int (← Draw.randint lo hi))

/-- Gene `i` moved by a normal deviate; only for floats. -/
def gaussGene (c : Chromosome) (i : Int) (mu sigma : Float) : Draw Value := do
  if c.alphabet != .floats then throw (c.noSuch "get_random_number_with_gauss")
  let g ← Draw.ofExcept (c.gene i)
  let d ← Draw.gauss mu sigma
  Draw.ofExcept (g.plusFloat d)

/-- The genes from a random start to a random end at or after it. -/
def randomPart (c : Chromosome) : Draw (List Value) := do
  let last : Int := c.size - 1
  let start ← Draw.randint (.int 0) (.int last)
  let stop ← Draw.randint (.int start) (.int last)
  pure (c.part start (stop + 1))

/-- Put `p` in at a random position where it fits; answers the genes replaced
and the chromosome after. -/
def replacePartRandom (c : Chromosome) (p : List Value) : Draw (List Value × Chromosome) := do
  let start ← Draw.randint (.int 0) (.int ((c.size : Int) - p.length))
  pure (c.replacePart p start)

end Chromosome

end Evolver
