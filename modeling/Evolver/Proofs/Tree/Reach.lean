import Evolver.Proofs.Tree.Crossover
import Evolver.Proofs.Random.Positions
/-!
# Where a random subtree starts

`Tree.randomSubtree` chooses uniformly among the candidates, the nodes of
the tree that `Tree.choosable` admits, and answers the subtree of the chosen
node.  It finds that subtree by the node, not by the place it was chosen
at: the subtree starts at the first node equal to the chosen one
(`Tree.randomSubtree_choice`).

So the positions a draw can start at, as the choice ranges over all the
candidates, are exactly the first occurrences of candidates
(`Tree.randomSubtree_reaches_first_candidates`).  A later node equal to an
earlier one, such as a second application of the same primitive, is never
the start of a drawn subtree, and neither is a node equal to the root in a
typed tree, since the candidates leave out every node equal to the root.
-/

namespace Evolver

namespace Draw

/-- A choice among `n > 0` positions answers one of them. -/
theorem choice_run {n : Nat} (hn : 0 < n) (l : Lab) :
    ∃ j l', (choice n).run l = .ok j l' ∧ j < n := by
  refine ⟨(Random.Stream.choose n l.stream).1, { l with stream := (Random.Stream.choose n l.stream).2 },
    ?_, Random.Stream.below_lt hn l.stream⟩
  simp only [choice, if_neg (Nat.pos_iff_ne_zero.mp hn)]
  rfl

/-- A uniform choice from a non-empty list answers the member at the
position the choice draws. -/
theorem pickFrom_run {α : Type} {xs : List α} (hne : xs ≠ []) {l l' : Lab} {j : Nat}
    (hj : (choice xs.length).run l = .ok j l') : (pickFrom xs).run l = .ok xs[j]? l' := by
  have hne' : xs.isEmpty = false := by simpa using hne
  simp only [pickFrom, hne', Bool.false_eq_true, if_false, EStateM.run_bind, hj]
  rfl

end Draw

namespace Tree

/-- The nodes a random subtree may start at: those `choosable` admits,
given the root and the kind asked for. -/
def candidates (t : Tree) (k : Option Kind) : List Node :=
  match t.nodes with
  | [] => []
  | root :: _ => t.nodes.filter (choosable root k)

/-- Equal nodes are admitted alike: they have one kind, and each is equal to
the root when the other is. -/
theorem choosable_congr {m n : Node} (h : m.same n = true) (root : Node) (k : Option Kind) :
    choosable root k m = choosable root k n := by
  have hroot : m.same root = n.same root := by
    rw [Bool.eq_iff_iff]
    constructor
    · exact Node.same_trans (by rw [Node.same_comm]; exact h)
    · exact Node.same_trans h
  simp only [choosable, Node.kind_eq_of_same h, hroot]

/-- A node of the tree equal to a candidate is a candidate. -/
theorem mem_candidates_of_same {t : Tree} {k : Option Kind} {m n : Node} (hm : m ∈ t.candidates k)
    (hn : n ∈ t.nodes) (h : n.same m = true) : n ∈ t.candidates k := by
  unfold candidates at hm ⊢
  cases hnodes : t.nodes with
  | nil => simp [hnodes] at hm
  | cons root rest =>
    simp only [hnodes, List.mem_filter] at hm hn ⊢
    exact ⟨hn, (choosable_congr h root k).trans hm.2⟩

/-- **The subtree drawn starts at the first node equal to the chosen one.**
On a well-formed tree with candidates, a run whose choice draws position
`j` of the candidates answers the subtree at the first occurrence of the
`j`-th candidate, with the streams as the choice left them. -/
theorem randomSubtree_choice {t : Tree} (hw : t.WellFormed) {k : Option Kind}
    (hne : t.candidates k ≠ []) {l l' : Lab} {j : Nat}
    (hj : (Draw.choice (t.candidates k).length).run l = .ok j l') (hjlt : j < (t.candidates k).length) :
    ∃ i sl, firstSame t.nodes (t.candidates k)[j] = some i ∧ t.SubtreeAt i sl ∧
      (t.randomSubtree k).run l = .ok (some sl) l' := by
  obtain ⟨root, rest, hnodes⟩ : ∃ root rest, t.nodes = root :: rest := by
    cases h : t.nodes with
    | nil => simp [candidates, h] at hne
    | cons root rest => exact ⟨root, rest, rfl⟩
  have hcand : t.candidates k = t.nodes.filter (choosable root k) := by
    simp [candidates, hnodes]
  have hmem : (t.candidates k)[j] ∈ t.nodes :=
    (List.mem_filter.mp (by rw [← hcand]; exact List.getElem_mem hjlt)).1
  obtain ⟨i, hi⟩ := firstSame_of_mem hmem
  obtain ⟨sl, hsl⟩ := hw.exists_subtreeAt (firstSame_spec hi).1
  refine ⟨i, sl, hi, hsl, ?_⟩
  have hpick : (Draw.pickFrom ((root :: rest).filter (choosable root k))).run l =
      .ok (some (t.candidates k)[j]) l' := by
    rw [← hnodes, ← hcand, ← List.getElem?_eq_getElem hjlt]
    exact Draw.pickFrom_run hne hj
  unfold randomSubtree
  rw [hnodes]
  simp only [EStateM.run_bind, hpick, subtreeOf_eq hw hi hsl]
  rfl

/-- **The positions the choice can reach are the first occurrences of
candidates.**  A first node equal to some candidate is itself a candidate
found first where it stands, and every candidate found first where it
stands is some candidate. -/
theorem firstSame_candidates {t : Tree} {k : Option Kind} (i : Nat) :
    (∃ j, ∃ hj : j < (t.candidates k).length, firstSame t.nodes (t.candidates k)[j] = some i) ↔
      ∃ hi : i < t.nodes.length, firstSame t.nodes t.nodes[i] = some i ∧ t.nodes[i] ∈ t.candidates k := by
  constructor
  · rintro ⟨j, hj, hfirst⟩
    obtain ⟨hi, hsame, -⟩ := firstSame_spec hfirst
    exact ⟨hi, firstSame_getElem hfirst hi,
      mem_candidates_of_same (List.getElem_mem hj) (List.getElem_mem hi) hsame⟩
  · rintro ⟨hi, hfirst, hmem⟩
    obtain ⟨j, hj, hget⟩ := List.getElem_of_mem hmem
    exact ⟨j, hj, by rw [hget]; exact hfirst⟩

/-- **A random subtree starts at exactly the first occurrences of
candidates.**  On a well-formed tree, a draw with no candidate answers
nothing and leaves the streams as they were; otherwise the choice draws a
position `j` among the candidates and the subtree answered is the one at
the first node equal to the `j`-th candidate.  As `j` ranges over the
candidates, the positions so reached are the positions `i` whose node is a
candidate and is the first node equal to itself. -/
theorem randomSubtree_reaches_first_candidates {t : Tree} (hw : t.WellFormed) (k : Option Kind)
    (l : Lab) :
    (t.candidates k = [] → (t.randomSubtree k).run l = .ok none l) ∧
    (t.candidates k ≠ [] → ∃ j l', (Draw.choice (t.candidates k).length).run l = .ok j l' ∧
      ∃ hj : j < (t.candidates k).length, ∃ i sl, firstSame t.nodes (t.candidates k)[j] = some i ∧
        t.SubtreeAt i sl ∧ (t.randomSubtree k).run l = .ok (some sl) l') ∧
    ∀ i, (∃ j, ∃ hj : j < (t.candidates k).length, firstSame t.nodes (t.candidates k)[j] = some i) ↔
      ∃ hi : i < t.nodes.length, firstSame t.nodes t.nodes[i] = some i ∧ t.nodes[i] ∈ t.candidates k := by
  refine ⟨fun hnil => ?_, fun hne => ?_, firstSame_candidates⟩
  · cases hn : t.nodes with
    | nil => simp only [randomSubtree, hn]; rfl
    | cons root rest =>
      have hfilter : (root :: rest).filter (choosable root k) = [] := by
        simpa [candidates, hn] using hnil
      unfold randomSubtree
      rw [hn]
      simp only [hfilter, Draw.pickFrom, List.isEmpty_nil, if_true, EStateM.run_bind]
      rfl
  · obtain ⟨j, l', hj, hjlt⟩ := Draw.choice_run (List.length_pos_of_ne_nil hne) l
    exact ⟨j, l', hj, hjlt, randomSubtree_choice hw hne hj hjlt⟩

/-- The untyped leaf of a one-letter variable. -/
def letterLeaf (c : String) : Node := .term (Atom.make (.str c) 0) none

/-- `f_add(f_add(x, y), z)`, untyped: its two function nodes are equal. -/
def twoAdds : Tree :=
  ⟨[.add], [⟨Atom.make (.str "x") 0, none⟩, ⟨Atom.make (.str "y") 0, none⟩, ⟨Atom.make (.str "z") 0, none⟩],
    none, none, [.func .add, .func .add, letterLeaf "x", letterLeaf "y", letterLeaf "z"]⟩

/-- In `f_add(f_add(x, y), z)` every node is a candidate, yet no choice
starts the subtree at the inner `f_add`: the first node equal to it is the
root. -/
theorem randomSubtree_misses_inner_add :
    twoAdds.WellFormed ∧ twoAdds.candidates none = twoAdds.nodes ∧
      ¬ ∃ j, ∃ hj : j < (twoAdds.candidates none).length,
        firstSame twoAdds.nodes (twoAdds.candidates none)[j] = some 1 := by
  have hw : twoAdds.WellFormed := by decide
  obtain ⟨-, -, hreach⟩ := randomSubtree_reaches_first_candidates hw none Lab.start
  refine ⟨hw, rfl, ?_⟩
  rw [hreach 1]
  rintro ⟨hi, hfirst, -⟩
  have hnode : twoAdds.nodes[1] = .func .add := rfl
  have hroot : firstSame twoAdds.nodes (.func .add) = some 0 := rfl
  rw [hnode, hroot] at hfirst
  cases hfirst

end Tree

end Evolver
