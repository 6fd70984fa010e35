import Evolver.Tree.Basic
import Evolver.Fitness.Basic
/-!
# Individuals

An individual is a genome, a program tree or a chromosome, with its fitness
and its history: the identity it was made with, the identities it was cloned
from, the operators applied to it and the selections that chose it in the
last generation, and, if it keeps them, its parents' identities.

Identities are handed out one after another within a request, to every
individual made and every clone; a clone is a copy of everything but its
identity, remembers the individual it copies, and starts with no parents.
-/

namespace Evolver

/-- What an individual is made of. -/
inductive Genome where
  | tree (t : Tree)
  | chromosome (c : Chromosome)
deriving Inhabited

namespace Genome

/-- The number of nodes or genes. -/
def size : Genome → Nat
  | .tree t => t.size
  | .chromosome c => c.size

/-- The class name of an individual with this genome. -/
def className : Genome → String
  | .tree _ => "Tree"
  | .chromosome c => c.alphabet.className

/-- The module that defines the class of an individual with this genome. -/
def moduleName : Genome → String
  | .tree _ => "eckity.genetic_encodings.gp.tree.tree_individual"
  | .chromosome c => match c.alphabet with
    | .bits => "eckity.genetic_encodings.ga.bit_string_vector"
    | .ints => "eckity.genetic_encodings.ga.int_vector"
    | .floats => "eckity.genetic_encodings.ga.float_vector"

/-- The class text of an individual with this genome. -/
def classText (g : Genome) : String := "<class '" ++ g.moduleName ++ "." ++ g.className ++ "'>"

end Genome

/-- An individual of a population. -/
structure Individual where
  id : Nat
  genome : Genome
  fitness : Fitness
  /-- the generation it lives in -/
  gen : Nat
  /-- the identities it was cloned from, oldest first -/
  clonedFrom : List Nat
  /-- the selections that chose it -/
  selectedBy : List String
  /-- the operators applied to it -/
  appliedOperators : List String
  /-- whether it records its parents -/
  updateParents : Bool
  /-- its parents' identities -/
  parents : List Nat
deriving Inhabited

namespace Individual

/-- A new individual with no history. -/
def fresh (id : Nat) (g : Genome) (f : Fitness) (updateParents : Bool) : Individual :=
  ⟨id, g, f, 0, [], [], [], updateParents, []⟩

/-- The number of nodes or genes. -/
def size (i : Individual) : Nat := i.genome.size

/-- The copy of `i` under a new identity, remembering `i` and with no parents.
The copy holds the fitness as stored, which drops an uncached score. -/
def cloneAs (i : Individual) (id : Nat) : Individual :=
  { i with id := id, fitness := i.fitness.stored, clonedFrom := i.clonedFrom ++ [i.id],
           parents := if i.updateParents then [] else i.parents }

/-- The score of the fitness. -/
def pureFitness (i : Individual) : Except Fault Value := i.fitness.pure

/-- The score as comparisons see it. -/
def augmentedFitness (i : Individual) : Except Fault Value := i.fitness.augmented i.size

/-- Whether `i` is better than `j`; anything is better than no individual. -/
def betterThan (i : Individual) : Option Individual → Draw Bool
  | none => pure true
  | some j => i.fitness.betterThan i.size j.fitness j.size

/-- Forget the score. -/
def resetFitness (i : Individual) : Individual := { i with fitness := i.fitness.reset }

/-- The tree of a tree individual. -/
def tree? (i : Individual) : Option Tree :=
  match i.genome with
  | .tree t => some t
  | .chromosome _ => none

/-- The chromosome of a vector individual. -/
def chromosome? (i : Individual) : Option Chromosome :=
  match i.genome with
  | .chromosome c => some c
  | .tree _ => none

end Individual

end Evolver
