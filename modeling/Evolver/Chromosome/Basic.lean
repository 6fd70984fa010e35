import Evolver.Value.Order
import Evolver.Value.Text
/-!
# Chromosomes

A chromosome is a sequence of genes over an alphabet (bits, integers or
floats) with bounds: one pair `(lo, hi)` for every gene, or a list with a
pair per position.  It also records a length, which the operations that
rebuild the sequence keep up to date and those that splice it do not, so the
two may differ.

Positions follow the sequence conventions of the language: a negative
position counts from the end, and a part `[start, stop)` is clamped to the
sequence (`slice`).  A replacement puts a part in place of as many genes,
answering the genes it replaced.

`Chromosome.make` checks the bounds against the length and the genes given,
and `inBounds` compares every gene with its bounds, in order.
-/

namespace Evolver

/-- The alphabet of a chromosome. -/
inductive Alphabet where
  | bits
  | ints
  | floats
deriving DecidableEq, Repr, Inhabited

/-- The class name of a chromosome over the alphabet. -/
def Alphabet.className : Alphabet → String
  | .bits => "BitStringVector"
  | .ints => "IntVector"
  | .floats => "FloatVector"

/-- The default bounds: `(0, 1)` for bits, the empty range from `2^31 - 1` down
to `-2^31` for integers, `(0.0, 1.0)` for floats. -/
def Alphabet.defaultBounds : Alphabet → Value
  | .bits => .tuple [.int 0, .int 1]
  | .ints => .tuple [.int (Int.pow 2 31 - 1), .int (-(Int.pow 2 31))]
  | .floats => .tuple [.float 0.0, .float 1.0]

/-- A sequence of genes with bounds. -/
structure Chromosome where
  alphabet : Alphabet
  genes : List Value
  bounds : Value
  /-- the recorded length -/
  length : Int
deriving Inhabited

/-- `xs[start:stop]`: negative ends count from the end, and both are clamped. -/
def slice {α : Type} (xs : List α) (start stop : Int) : List α :=
  let n : Int := xs.length
  let norm (i : Int) : Nat := (if i < 0 then max 0 (i + n) else min i n).toNat
  let a := norm start
  let b := norm stop
  (xs.take b).drop a

/-- `xs[start:stop] = ys`: the clamped part from `start` to `stop` (never
before `start`) is replaced by `ys`, whatever its length. -/
def assignSlice {α : Type} (xs : List α) (start stop : Int) (ys : List α) : List α :=
  let n : Int := xs.length
  let norm (i : Int) : Nat := (if i < 0 then max 0 (i + n) else min i n).toNat
  let a := norm start
  let b := max a (norm stop)
  xs.take a ++ ys ++ xs.drop b

/-- The position a possibly negative index names in a sequence of `n` items. -/
def resolveIndex (n : Nat) (i : Int) : Option Nat :=
  let j := if i < 0 then i + n else i
  if 0 ≤ j ∧ j < n then some j.toNat else none

namespace Value

/-- The number of items of a sequence or characters of a text. -/
def size? : Value → Except Fault Nat
  | .list xs | .tuple xs => pure xs.length
  | .str s => pure s.length
  | .array _ (n :: _) _ => pure n
  | v => throw (Fault.type s!"object of type '{v.className}' has no len()")

/-- Item `i` of a sequence; a negative `i` counts from the end. -/
def item (v : Value) (i : Int) : Except Fault Value :=
  match v with
  | .list xs => match resolveIndex xs.length i with
    | some j => pure (xs.getD j .none)
    | Option.none => throw Fault.listIndex
  | .tuple xs => match resolveIndex xs.length i with
    | some j => pure (xs.getD j .none)
    | Option.none => throw (Fault.index "tuple index out of range")
  | .str s => match resolveIndex s.length i with
    | some j => pure (.str (String.singleton (s.toList.getD j ' ')))
    | Option.none => throw (Fault.index "string index out of range")
  | v => throw (Fault.type s!"'{v.className}' object is not subscriptable")

end Value

namespace Chromosome

/-- A chromosome over an alphabet with a recorded length, bounds and, if
given, genes: a tuple of bounds must be a pair, a list of bounds must have a
pair per position, and the genes must be a list of the recorded length. -/
def make (a : Alphabet) (length : Int) (bounds : Value) (genes : Option Value) :
    Except Fault Chromosome := do
  let badBounds := match bounds with
    | .tuple bs => bs.length != 2
    | .list bs => (bs.length : Int) != length
    | _ => false
  if badBounds then
    throw (Fault.value s!"Bounds must be either a tuple of size 2 or a list of {length} tuples")
  match genes with
  | none => pure ⟨a, [], bounds, length⟩
  | some (.list gs) =>
    if (gs.length : Int) != length then
      throw (Fault.value s!"Expected vector argument in Vector constructor to be of length {length}, got {gs.length}")
    pure ⟨a, gs, bounds, length⟩
  | some v =>
    throw (Fault.value s!"Expected vector argument in Vector constructor to be a list, got {v.classText}")

/-- The number of genes. -/
def size (c : Chromosome) : Nat := c.genes.length

/-- Whether `g` lies between the first two items of `pair`: the lower bound
is compared first, and the upper one only when `g` is not below it. -/
def withinPair (pair g : Value) : Except Fault Bool := do
  let lo ← pair.item 0
  if ← Value.compare .lt g lo then return false
  let hi ← pair.item 1
  return !(← Value.compare .gt g hi)

/-- Whether gene `g` at position `i` lies within its bounds: bounds of two
items are the pair of every gene; otherwise gene `i` has bounds number `i`. -/
def geneWithin (bounds g : Value) (i : Nat) : Except Fault Bool := do
  withinPair (← if (← bounds.size?) = 2 then pure bounds else bounds.item i) g

/-- Whether every gene lies within its bounds, checked in order up to the
first that does not. -/
def inBounds (c : Chromosome) : Except Fault Bool :=
  c.genes.zipIdx.allM fun (g, i) => geneWithin c.bounds g i

/-- Append a gene; the recorded length grows by one. -/
def addGene (c : Chromosome) (g : Value) : Chromosome :=
  { c with genes := c.genes ++ [g], length := c.length + 1 }

/-- Replace all genes; the recorded length follows. -/
def setGenes (c : Chromosome) (gs : List Value) : Chromosome :=
  { c with genes := gs, length := gs.length }

/-- The genes from `start` up to `stop`. -/
def part (c : Chromosome) (start stop : Int) : List Value := slice c.genes start stop

/-- Put `p` in place of as many genes from `start` on; answers the genes
replaced and the chromosome after. -/
def replacePart (c : Chromosome) (p : List Value) (start : Int) : List Value × Chromosome :=
  let stop := start + p.length
  let n : Int := c.genes.length
  (slice c.genes start stop,
    { c with genes := slice c.genes 0 start ++ p ++ slice c.genes stop n })

/-- Gene `i`; a negative `i` counts from the end. -/
def gene (c : Chromosome) (i : Int) : Except Fault Value :=
  match resolveIndex c.genes.length i with
  | some j => pure (c.genes.getD j .none)
  | none => throw Fault.listIndex

/-- Set gene `i`; a negative `i` counts from the end. -/
def setGene (c : Chromosome) (i : Int) (g : Value) : Except Fault Chromosome :=
  match resolveIndex c.genes.length i with
  | some j => pure { c with genes := c.genes.set j g }
  | none => throw (Fault.index "list assignment index out of range")

/-- The fault of an operation that the alphabet does not have. -/
def noSuch (c : Chromosome) (name : String) : Fault :=
  Fault.missingAttribute s!"'{c.alphabet.className}' object has no attribute '{name}'"

/-- The other bit of gene `i`: the upper bound if the gene equals the lower
one, the lower bound otherwise; only for bits. -/
def flipped (c : Chromosome) (i : Int) : Except Fault Value := do
  if c.alphabet != .bits then throw (c.noSuch "bit_flip")
  let g ← c.gene i
  let lo ← c.bounds.item 0
  if ← Value.equal g lo then c.bounds.item 1 else pure lo

end Chromosome

end Evolver
