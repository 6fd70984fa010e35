import Evolver.Proofs.Tree.Subtree
/-!
# Subtrees read by arity

`Tree.depth` and `Tree.run` read a prefix list by arity: a function node
takes as many arguments as its primitive has, whatever the tree's function
set.  The slice reading behind `Tree.subtreeOf` descends only into primitives
of the function set.  Both follow the shape of a well-formed tree
(`Reading.Follows`), so there they agree: the subtree of the node at any
position is what the arity reading reads from the first node equal to it,
and it is a well-formed tree in its own right
(`Tree.subtreeOf_parses_first_occurrence`).

Where a function node is of another primitive the two part: the slice
reading takes that node for a leaf (`Tree.subtreeOf_stops_at_foreign_function`).
-/

namespace Evolver

namespace Tree

/-- The depth reading follows the shape of trees over any primitives: it
reads every function node by arity and never fails. -/
theorem depthReading_follows (fs : List Primitive) : depthReading.Follows fs where
  arity _ _ := rfl
  leaf _ := ⟨0, rfl⟩
  close _ ds := ⟨1 + ds.foldl max 0, rfl⟩

/-- The first node equal to a node of the list is at or before it. -/
theorem firstSame_le {ns : List Node} {i : Nat} (hi : i < ns.length) :
    ∃ j, firstSame ns ns[i] = some j ∧ j ≤ i := by
  obtain ⟨j, hfirst⟩ := firstSame_of_mem (List.getElem_mem hi)
  obtain ⟨_, -, hbefore⟩ := firstSame_spec hfirst
  refine ⟨j, hfirst, Nat.le_of_not_lt fun hlt => ?_⟩
  have hself := hbefore i hlt
  rw [Node.same_refl] at hself
  cases hself

/-- **The subtree of a node is its arity reading at the first equal node.**
In a well-formed tree, for the node at any position `i`, let `j` be the first
position whose node equals it: reading by arity from `j` answers, having read
`s` nodes, and the subtree of the node is the `s` nodes from `j` on, which
make a well-formed tree over the same primitives. -/
theorem subtreeOf_parses_first_occurrence {t : Tree} (hw : t.WellFormed) {i : Nat} (hi : i < t.nodes.length) :
    ∃ j, ∃ hj : j ≤ i, t.nodes[j].same t.nodes[i] = true ∧
      (∀ k (hk : k < j), t.nodes[k].same t.nodes[i] = false) ∧
      ∃ d s, depthReading.read (t.nodes.drop j) = pure (d, s) ∧
        t.subtreeOf t.nodes[i] = pure ((t.nodes.drop j).take s) ∧
        { t with nodes := (t.nodes.drop j).take s }.WellFormed := by
  obtain ⟨j, hfirst, hji⟩ := firstSame_le hi
  obtain ⟨hj, hsame, hbefore⟩ := firstSame_spec hfirst
  obtain ⟨sl, hsl⟩ := hw.exists_subtreeAt hj
  obtain ⟨rest, hrest⟩ := hsl.1
  -- both readings read exactly the subtree at `j`
  obtain ⟨d, hread⟩ := (depthReading_follows t.functions).read_fills hsl.2 rest
  have htake : (t.nodes.drop j).take sl.length = sl := hsl.eq_take.symm
  refine ⟨j, hji, hsame, hbefore, d, sl.length, ?_, ?_, ?_⟩
  · rw [← hrest]
    exact hread
  · rw [htake]
    exact subtreeOf_eq hw hfirst hsl
  · rw [htake]
    exact hsl.2

/-- An untyped leaf named by a one-letter string. -/
def letterTerm (c : String) : Node := .term (Atom.make (.str c) 0) none

/-- The untyped terminals `x`, `y` and `z`. -/
def xyz : List Terminal :=
  [⟨Atom.make (.str "x") 0, none⟩, ⟨Atom.make (.str "y") 0, none⟩, ⟨Atom.make (.str "z") 0, none⟩]

/-- `f_add(f_sub(x, y), f_sub(x, y))`: its two `f_sub` nodes are equal. -/
def twoSubs : Tree :=
  ⟨[.add, .sub], xyz, none, none,
    [.func .add, .func .sub, letterTerm "x", letterTerm "y", .func .sub, letterTerm "x", letterTerm "y"]⟩

/-- The second `f_sub` of `f_add(f_sub(x, y), f_sub(x, y))` is found at the
first, and its subtree is the first `f_sub(x, y)`, three nodes read by arity. -/
theorem subtreeOf_second_sub :
    twoSubs.WellFormed ∧ twoSubs.subtreeOf (.func .sub) = pure [.func .sub, letterTerm "x", letterTerm "y"] := by
  have hw : twoSubs.WellFormed := by decide
  obtain ⟨j, hj, hsame, hbefore, d, s, hread, hsub, -⟩ :=
    subtreeOf_parses_first_occurrence hw (show 4 < twoSubs.nodes.length by decide)
  have hj1 : j = 1 := by
    rcases Nat.lt_trichotomy j 1 with hlt | heq | hgt
    · obtain rfl : j = 0 := by omega
      have hdiff : twoSubs.nodes[0].same twoSubs.nodes[4] = false := rfl
      rw [hdiff] at hsame
      cases hsame
    · exact heq
    · have hsame₁ : twoSubs.nodes[1].same twoSubs.nodes[4] = true := rfl
      rw [hbefore 1 hgt] at hsame₁
      cases hsame₁
  subst hj1
  have hs : s = 3 := by
    have hdepth : depthReading.read (twoSubs.nodes.drop 1) = pure (1, 3) := rfl
    rw [hdepth] at hread
    cases hread
    rfl
  subst hs
  exact ⟨hw, hsub⟩

/-- `f_add(f_sub(x, y), z)` over the function set `{f_add}` alone. -/
def addOverSub : Tree :=
  ⟨[.add], xyz, none, none, [.func .add, .func .sub, letterTerm "x", letterTerm "y", letterTerm "z"]⟩

/-- Over the function set `{f_add}`, the slice of the `f_sub` node of
`f_add(f_sub(x, y), z)` is that node alone, while the arity reading from it
reads `f_sub(x, y)`, three nodes of depth one. -/
theorem subtreeOf_stops_at_foreign_function :
    ¬ addOverSub.WellFormed ∧ addOverSub.subtreeOf (.func .sub) = pure [.func .sub] ∧
      depthReading.read (addOverSub.nodes.drop 1) = pure (1, 3) :=
  ⟨by decide, rfl, rfl⟩

end Tree

end Evolver
