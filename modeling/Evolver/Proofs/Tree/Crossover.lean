import Evolver.Proofs.Tree.Subtree
import Evolver.Proofs.Run
/-!
# Subtree crossover of two trees

One attempt of subtree crossover draws a subtree of the first tree, then one
of the second tree whose first node has the kind of the first subtree's, and
swaps them.  A subtree is drawn (`Tree.Drawn`) at the first position of a
node that may be chosen; on a well-formed tree drawing never fails
(`Tree.randomSubtree_run`).  So an attempt either fails and leaves both trees
as they were, or puts each drawn subtree in the other's place
(`Operator.CrossOutcome`, `Operator.crossSubtrees_run`), and so do all the
attempts together, since a failed attempt changes no tree
(`Operator.tries_crossSubtrees_run`).

The main statements are about any number of attempts, any state of the
random streams and any two trees over one function set:

* `Operator.crossSubtrees_exchanges`: both trees stay well formed, their
  nodes are the nodes they had between them, and a success puts each drawn
  subtree in place of the other;
* `Operator.crossSubtrees_wellTyped`: well-typed trees stay well typed,
  because the two subtrees start after the roots and have one kind.
-/

namespace Evolver

namespace Tree

/-- `sl` may be drawn as the subtree at position `i` of `t` when the kind
`k` is asked for: `i` is the first position of a node of `t` that may be
chosen, and `sl` is the subtree there. -/
def Drawn (t : Tree) (k : Option Kind) (i : Nat) (sl : List Node) : Prop :=
  ∃ root rest n, t.nodes = root :: rest ∧ n ∈ t.nodes ∧ choosable root k n = true ∧
    firstSame t.nodes n = some i ∧ t.SubtreeAt i sl

theorem Drawn.subtreeAt {t : Tree} {k : Option Kind} {i : Nat} {sl : List Node} (h : t.Drawn k i sl) :
    t.SubtreeAt i sl := by
  obtain ⟨_, _, _, _, _, _, _, hsl⟩ := h
  exact hsl

/-- **A random subtree of a well-formed tree is a drawn subtree.**  Drawing
never fails on a well-formed tree, and what it gives is the subtree at the
first occurrence of a node that may be chosen. -/
theorem randomSubtree_run {t : Tree} (hw : t.WellFormed) (k : Option Kind) (l : Lab) :
    ∃ r l', (t.randomSubtree k).run l = .ok r l' ∧ ∀ sl, r = some sl → ∃ i, t.Drawn k i sl := by
  obtain ⟨root, rest, hnodes⟩ : ∃ root rest, t.nodes = root :: rest := by
    cases h : t.nodes with
    | nil => rw [WellFormed, h] at hw; simp [Layout.Fills] at hw
    | cons root rest => exact ⟨root, rest, rfl⟩
  obtain ⟨r, l', hr, hmem⟩ := Draw.pickFrom_mem (t.nodes.filter (choosable root k)) l
  unfold randomSubtree
  rw [hnodes] at hr ⊢
  simp only [EStateM.run_bind, hr]
  cases r with
  | none => exact ⟨none, l', rfl, by simp⟩
  | some n =>
    have hn := hmem n rfl
    rw [List.mem_filter] at hn
    obtain ⟨i, hi⟩ := firstSame_of_mem hn.1
    obtain ⟨sl, hsl⟩ := hw.exists_subtreeAt (firstSame_spec hi).1
    refine ⟨some sl, l', ?_, ?_⟩
    · simp only [EStateM.run_bind, subtreeOf_eq hw hi hsl]
      rfl
    · rintro sl' ⟨⟩
      exact ⟨i, root, rest, n, hnodes, hn.1, hn.2, hi, hsl⟩

/-- Replacing a drawn subtree splices the new nodes in at its position. -/
theorem Drawn.replace_eq {t : Tree} {k : Option Kind} {i : Nat} {sl : List Node} (h : t.Drawn k i sl)
    (new : List Node) :
    t.replace sl new = pure { t with nodes := t.nodes.take i ++ new ++ t.nodes.drop (i + sl.length) } := by
  obtain ⟨_, _, _, _, _, _, hi, hsl⟩ := h
  obtain ⟨hlt, hhead⟩ := hsl.head?
  exact Tree.replace_eq hhead (firstSame_getElem hi hlt)

/-- **A drawn subtree of a well-typed tree is not at the root.**  Every node
has a kind, so only a node unequal to the root may be chosen; the subtree's
first node has a kind, and the kind asked for when there is one. -/
theorem WellTyped.drawn {t : Tree} (ht : t.WellTyped) {k : Option Kind} {i : Nat} {sl : List Node}
    (h : t.Drawn k i sl) :
    0 < i ∧ (Operator.rootKind sl).isSome = true ∧ (k.isSome = true → Operator.rootKind sl = k) := by
  obtain ⟨root, rest, n, hnodes, hn, hch, hi, hsl⟩ := h
  have hkind := ht.kind_isSome hn
  obtain ⟨hlt, hhead⟩ := hsl.head?
  obtain ⟨_, hsame, -⟩ := firstSame_spec hi
  have hroot : Operator.rootKind sl = n.kind := by
    simp only [Operator.rootKind, hhead, Option.map_some, Option.join_some]
    exact Node.kind_eq_of_same hsame
  -- a node with a kind is chosen only when it is unequal to the root
  have hchoice : n.same root = false ∧ (k.isSome = true → n.kind = k) := by
    simp only [choosable, Option.isNone_iff_eq_none, Bool.or_eq_true, Bool.and_eq_true,
      Bool.not_eq_true', beq_iff_eq] at hch
    rcases hch with (hnone | ⟨hk, hne⟩) | ⟨hk, hne⟩
    · simp [hnone] at hkind
    · exact ⟨hne, fun hsome => by simp [hk] at hsome⟩
    · exact ⟨hne, fun _ => hk⟩
  refine ⟨firstSame_pos (hnodes ▸ hi) hchoice.1, hroot ▸ hkind, fun hsome => ?_⟩
  rw [hroot]
  exact hchoice.2 hsome

end Tree

namespace Operator

/-- What subtree crossover of the tree `t0` of `a` with the tree `t1` of `b`
may leave in the store `s'`, with `ok` telling whether it succeeded: both
trees as they were, or each with the other's drawn subtree in place of its
own drawn subtree. -/
def CrossOutcome (a b : Nat) (t0 t1 : Tree) (ok : Bool) (s' : Store) : Prop :=
  ok = false ∧ s'.HoldsTree a t0 ∧ s'.HoldsTree b t1 ∨
  ok = true ∧ ∃ i0 sl0 i1 sl1, t0.Drawn none i0 sl0 ∧ t1.Drawn (rootKind sl0) i1 sl1 ∧
    s'.HoldsTree a { t0 with nodes := t0.nodes.take i0 ++ sl1 ++ t0.nodes.drop (i0 + sl0.length) } ∧
    s'.HoldsTree b { t1 with nodes := t1.nodes.take i1 ++ sl0 ++ t1.nodes.drop (i1 + sl1.length) }

/-- **One attempt of subtree crossover.**  On two well-formed trees of two
individuals the attempt never fails with a fault: both subtrees are drawn
first, then the second tree gets the first subtree and the first tree the
second. -/
theorem crossSubtrees_run {s : Store} {a b : Nat} {t0 t1 : Tree} (hab : a ≠ b)
    (h0 : s.HoldsTree a t0) (h1 : s.HoldsTree b t1) (hw0 : t0.WellFormed) (hw1 : t1.WellFormed) :
    ∃ ok s', (crossSubtrees 2 [a, b]).run s = .ok ok s' ∧ CrossOutcome a b t0 t1 ok s' := by
  obtain ⟨r0, l0, hr0, hd0⟩ := Tree.randomSubtree_run hw0 none s.lab
  simp only [crossSubtrees, List.length_cons, List.length_nil, List.head?_cons, List.tail_cons]
  rw [if_neg (by decide)]
  simp only [EStateM.run_bind, Run.treeOf_run h0, Run.draw_run hr0]
  cases r0 with
  | none => exact ⟨false, _, rfl, .inl ⟨rfl, h0, h1⟩⟩
  | some sl0 =>
    obtain ⟨i0, hd0⟩ := hd0 sl0 rfl
    -- the second tree is drawn with the kind of the first subtree's first node
    have h1' : Store.HoldsTree { s with lab := l0 } b t1 := h1
    obtain ⟨r1, l1, hr1, hd1⟩ := Tree.randomSubtree_run hw1 (rootKind sl0) l0
    have hr1' : (t1.randomSubtree (rootKind sl0)).run ({ s with lab := l0 } : Store).lab = .ok r1 l1 := hr1
    simp only [List.mapM_cons, List.mapM_nil, EStateM.run_bind, Run.treeOf_run h1', Run.draw_run hr1',
      EStateM.run_pure]
    cases r1 with
    | none => exact ⟨false, _, rfl, .inl ⟨rfl, h0, h1⟩⟩
    | some sl1 =>
      obtain ⟨i1, hd1⟩ := hd1 sl1 rfl
      simp only [id, Option.pure_def, Option.bind_eq_bind, Option.bind_some]
      -- the swap runs backwards: the second tree first, then the first
      have hrange : (List.range (0 + 1 + 1)).reverse = [1, 0] := rfl
      rw [hrange]
      simp only [List.forIn_cons, List.forIn_nil, EStateM.run_bind, List.getD_cons_succ, List.getD_cons_zero,
        Nat.reduceAdd, Nat.reduceMod, Nat.add_one_sub_one, Nat.zero_add, Nat.one_mod]
      have h1l : Store.HoldsTree { s with lab := l1 } b t1 := h1
      simp only [Run.treeOf_run h1l, hd1.replace_eq sl0, Run.ofExcept_pure_run]
      obtain ⟨s1, hs1, hb1, -, hother1⟩ := Run.setGenome_run h1l
        { t1 with nodes := t1.nodes.take i1 ++ sl0 ++ t1.nodes.drop (i1 + sl1.length) }
      have h0s1 : s1.HoldsTree a t0 := Store.HoldsTree.of_getElem?_eq h0 (hother1 a hab)
      simp only [hs1, EStateM.run_pure, EStateM.run_bind, Run.treeOf_run h0s1, hd0.replace_eq sl1,
        Run.ofExcept_pure_run]
      obtain ⟨s2, hs2, ha2, -, hother2⟩ := Run.setGenome_run h0s1
        { t0 with nodes := t0.nodes.take i0 ++ sl1 ++ t0.nodes.drop (i0 + sl0.length) }
      simp only [hs2, EStateM.run_pure]
      exact ⟨true, s2, rfl, .inr ⟨rfl, i0, sl0, i1, sl1, hd0, hd1, ha2,
        Store.HoldsTree.of_getElem?_eq hb1 (hother2 b (Ne.symm hab))⟩⟩

/-- **All the attempts of subtree crossover.**  A failed attempt changes no
tree, so after any number of attempts the trees are as they were or
exchanged once, as one attempt leaves them. -/
theorem tries_crossSubtrees_run {a b : Nat} {t0 t1 : Tree} (hab : a ≠ b) (hw0 : t0.WellFormed)
    (hw1 : t1.WellFormed) (n : Nat) :
    ∀ {s : Store}, s.HoldsTree a t0 → s.HoldsTree b t1 →
      ∃ ok s', (tries (crossSubtrees 2 [a, b]) n).run s = .ok ok s' ∧ CrossOutcome a b t0 t1 ok s' := by
  induction n with
  | zero => exact fun h0 h1 => ⟨false, _, rfl, .inl ⟨rfl, h0, h1⟩⟩
  | succ n ih =>
    intro s h0 h1
    obtain ⟨ok, s1, hrun, hout⟩ := crossSubtrees_run hab h0 h1 hw0 hw1
    simp only [tries, EStateM.run_bind, hrun]
    rcases hout with ⟨rfl, h0', h1'⟩ | ⟨rfl, hswap⟩
    · exact ih h0' h1'
    · exact ⟨true, s1, rfl, .inr ⟨rfl, hswap⟩⟩

/-- Exchanging two middle pieces between two lists keeps the items of both. -/
theorem exchange_perm {α : Type} (A s0 B C s1 D : List α) :
    (A ++ s1 ++ B ++ (C ++ s0 ++ D)).Perm (A ++ s0 ++ B ++ (C ++ s1 ++ D)) := by
  have key : (s1 ++ (B ++ C) ++ s0).Perm (s0 ++ (B ++ C) ++ s1) :=
    calc List.Perm (s1 ++ (B ++ C) ++ s0) (s0 ++ (s1 ++ (B ++ C))) := List.perm_append_comm
      List.Perm _ (s0 ++ ((B ++ C) ++ s1)) := List.perm_append_comm.append_left s0
      _ = s0 ++ (B ++ C) ++ s1 := by simp only [List.append_assoc]
  simpa only [List.append_assoc] using (key.append_left A).append_right D

/-- **Subtree crossover exchanges subtrees and conserves nodes.**  For any
number of attempts and any state of the random streams, crossover of two
well-formed trees over one function set, held by two individuals, never
fails with a fault; both trees stay well formed and hold between them the
nodes they held.  When it fails the trees are as they were; when it
succeeds, each holds the subtree drawn from the other in place of the one
drawn from it. -/
theorem crossSubtrees_exchanges {s : Store} {a b : Nat} {t0 t1 : Tree} (n : Nat) (hab : a ≠ b)
    (h0 : s.HoldsTree a t0) (h1 : s.HoldsTree b t1) (hfs : t0.functions = t1.functions)
    (hw0 : t0.WellFormed) (hw1 : t1.WellFormed) :
    ∃ ok s' t0' t1', (tries (crossSubtrees 2 [a, b]) n).run s = .ok ok s' ∧
      s'.HoldsTree a t0' ∧ s'.HoldsTree b t1' ∧ t0'.WellFormed ∧ t1'.WellFormed ∧
      (t0'.nodes ++ t1'.nodes).Perm (t0.nodes ++ t1.nodes) ∧
      (ok = false → t0' = t0 ∧ t1' = t1) ∧
      (ok = true → ∃ i0 sl0 i1 sl1, t0.Drawn none i0 sl0 ∧ t1.Drawn (rootKind sl0) i1 sl1 ∧
        t0'.nodes = t0.nodes.take i0 ++ sl1 ++ t0.nodes.drop (i0 + sl0.length) ∧
        t1'.nodes = t1.nodes.take i1 ++ sl0 ++ t1.nodes.drop (i1 + sl1.length)) := by
  obtain ⟨ok, s', hrun, hout⟩ := tries_crossSubtrees_run hab hw0 hw1 n h0 h1
  rcases hout with ⟨rfl, h0', h1'⟩ | ⟨rfl, i0, sl0, i1, sl1, hd0, hd1, h0', h1'⟩
  · exact ⟨false, s', t0, t1, hrun, h0', h1', hw0, hw1, List.Perm.refl _, fun _ => ⟨rfl, rfl⟩,
      fun h => absurd h Bool.false_ne_true⟩
  · have hsub0 := hd0.subtreeAt
    have hsub1 := hd1.subtreeAt
    refine ⟨true, s', _, _, hrun, h0', h1', ?_, ?_, ?_, fun h => absurd h.symm Bool.false_ne_true,
      fun _ => ⟨i0, sl0, i1, sl1, hd0, hd1, rfl, rfl⟩⟩
    · exact hw0.splice hsub0 (hfs ▸ hsub1.2)
    · exact hw1.splice hsub1 (hfs ▸ hsub0.2)
    · -- each tree is cut around its subtree; the two cuts trade their middles
      have hperm := exchange_perm (t0.nodes.take i0) sl0 (t0.nodes.drop (i0 + sl0.length))
        (t1.nodes.take i1) sl1 (t1.nodes.drop (i1 + sl1.length))
      rwa [← hsub0.nodes_eq, ← hsub1.nodes_eq] at hperm

/-- A leaf of a small shared integer, of the given kind. -/
def sampleLeaf (n : Int) (k : Option Kind) : Node := .term (Atom.make (.int n) 0) k

/-- The store whose individuals `1` and `2` hold the trees `t0` and `t1`. -/
def pairStore (t0 t1 : Tree) : Store :=
  ⟨Lab.start, (({} : Std.HashMap Nat Individual).insert 1
      { (default : Individual) with id := 1, genome := .tree t0 }).insert 2
    { (default : Individual) with id := 2, genome := .tree t1 }, []⟩

theorem pairStore_holds_left (t0 t1 : Tree) : (pairStore t0 t1).HoldsTree 1 t0 :=
  ⟨{ (default : Individual) with id := 1, genome := .tree t0 }, by
    simp only [pairStore, Std.HashMap.getElem?_insert, Nat.reduceBEq, Bool.false_eq_true, if_false,
      if_true], rfl, rfl⟩

theorem pairStore_holds_right (t0 t1 : Tree) : (pairStore t0 t1).HoldsTree 2 t1 :=
  ⟨{ (default : Individual) with id := 2, genome := .tree t1 }, by
    simp only [pairStore, Std.HashMap.getElem?_insert, Nat.reduceBEq, if_true], rfl, rfl⟩

/-- `1 + 2 * 3` over addition and multiplication. -/
def sumTree : Tree := ⟨[.add, .mul], [], none, none,
  [.func .add, sampleLeaf 1 none, .func .mul, sampleLeaf 2 none, sampleLeaf 3 none]⟩

/-- `4 * 5` over addition and multiplication. -/
def productTree : Tree := ⟨[.add, .mul], [], none, none,
  [.func .mul, sampleLeaf 4 none, sampleLeaf 5 none]⟩

theorem crossSubtrees_exchanges_sumProduct :
    (1 : Nat) ≠ 2 ∧ sumTree.functions = productTree.functions ∧ sumTree.WellFormed ∧
      productTree.WellFormed ∧
      ∃ ok s' t0' t1', (tries (crossSubtrees 2 [1, 2]) 3).run (pairStore sumTree productTree) = .ok ok s' ∧
        s'.HoldsTree 1 t0' ∧ s'.HoldsTree 2 t1' ∧ t0'.WellFormed ∧ t1'.WellFormed ∧
        (t0'.nodes ++ t1'.nodes).Perm (sumTree.nodes ++ productTree.nodes) ∧
        (ok = false → t0' = sumTree ∧ t1' = productTree) ∧
        (ok = true → ∃ i0 sl0 i1 sl1, sumTree.Drawn none i0 sl0 ∧ productTree.Drawn (rootKind sl0) i1 sl1 ∧
          t0'.nodes = sumTree.nodes.take i0 ++ sl1 ++ sumTree.nodes.drop (i0 + sl0.length) ∧
          t1'.nodes = productTree.nodes.take i1 ++ sl0 ++ productTree.nodes.drop (i1 + sl1.length)) :=
  ⟨by decide, rfl, by decide, by decide,
    crossSubtrees_exchanges 3 (by decide) (pairStore_holds_left _ _) (pairStore_holds_right _ _) rfl
      (by decide) (by decide)⟩

/-- **Subtree crossover keeps trees well typed.**  For any number of
attempts and any state of the random streams, crossover of two well-typed
trees over one function set, held by two individuals, leaves both well
typed: the two subtrees it exchanges start after the roots and their first
nodes have one kind. -/
theorem crossSubtrees_wellTyped {s : Store} {a b : Nat} {t0 t1 : Tree} (n : Nat) (hab : a ≠ b)
    (h0 : s.HoldsTree a t0) (h1 : s.HoldsTree b t1) (hfs : t0.functions = t1.functions)
    (ht0 : t0.WellTyped) (ht1 : t1.WellTyped) :
    ∃ ok s' t0' t1', (tries (crossSubtrees 2 [a, b]) n).run s = .ok ok s' ∧
      s'.HoldsTree a t0' ∧ s'.HoldsTree b t1' ∧ t0'.WellTyped ∧ t1'.WellTyped ∧
      (ok = false → t0' = t0 ∧ t1' = t1) ∧
      (ok = true → ∃ i0 sl0 i1 sl1, 0 < i0 ∧ 0 < i1 ∧ rootKind sl0 = rootKind sl1 ∧
        t0'.nodes = t0.nodes.take i0 ++ sl1 ++ t0.nodes.drop (i0 + sl0.length) ∧
        t1'.nodes = t1.nodes.take i1 ++ sl0 ++ t1.nodes.drop (i1 + sl1.length)) := by
  obtain ⟨ok, s', hrun, hout⟩ := tries_crossSubtrees_run hab ht0.wellFormed ht1.wellFormed n h0 h1
  rcases hout with ⟨rfl, h0', h1'⟩ | ⟨rfl, i0, sl0, i1, sl1, hd0, hd1, h0', h1'⟩
  · exact ⟨false, s', t0, t1, hrun, h0', h1', ht0, ht1, fun _ => ⟨rfl, rfl⟩,
      fun h => absurd h Bool.false_ne_true⟩
  · obtain ⟨hpos0, hsome0, -⟩ := ht0.drawn hd0
    obtain ⟨hpos1, -, hkind1⟩ := ht1.drawn hd1
    have hkind : rootKind sl0 = rootKind sl1 := (hkind1 hsome0).symm
    have hsub0 := hd0.subtreeAt
    have hsub1 := hd1.subtreeAt
    obtain ⟨x0, rest0, rfl⟩ := List.exists_cons_of_ne_nil hsub0.ne_nil
    obtain ⟨x1, rest1, rfl⟩ := List.exists_cons_of_ne_nil hsub1.ne_nil
    have hx : x0.kind = x1.kind := hkind
    refine ⟨true, s', _, _, hrun, h0', h1', ?_, ?_, fun h => absurd h.symm Bool.false_ne_true,
      fun _ => ⟨i0, _, i1, _, hpos0, hpos1, hkind, rfl, rfl⟩⟩
    · have hnew := ht1.fills_subtreeAt hsub1
      rw [← hfs, ← hx] at hnew
      exact ht0.splice hsub0 hnew
    · have hnew := ht0.fills_subtreeAt hsub0
      rw [hfs, hx] at hnew
      exact ht1.splice hsub1 hnew

/-- `1.0 + 2.0 * 3.0` over typed addition and multiplication of floats. -/
def floatSumTree : Tree := ⟨[.add2floats, .mul2floats], [], none, some .float,
  [.func .add2floats, sampleLeaf 1 (some .float), .func .mul2floats, sampleLeaf 2 (some .float),
    sampleLeaf 3 (some .float)]⟩

/-- `4.0 * 5.0` over typed addition and multiplication of floats. -/
def floatProductTree : Tree := ⟨[.add2floats, .mul2floats], [], none, some .float,
  [.func .mul2floats, sampleLeaf 4 (some .float), sampleLeaf 5 (some .float)]⟩

theorem crossSubtrees_wellTyped_floats :
    (1 : Nat) ≠ 2 ∧ floatSumTree.functions = floatProductTree.functions ∧ floatSumTree.WellTyped ∧
      floatProductTree.WellTyped ∧
      ∃ ok s' t0' t1', (tries (crossSubtrees 2 [1, 2]) 1).run (pairStore floatSumTree floatProductTree) =
          .ok ok s' ∧
        s'.HoldsTree 1 t0' ∧ s'.HoldsTree 2 t1' ∧ t0'.WellTyped ∧ t1'.WellTyped ∧
        (ok = false → t0' = floatSumTree ∧ t1' = floatProductTree) ∧
        (ok = true → ∃ i0 sl0 i1 sl1, 0 < i0 ∧ 0 < i1 ∧ rootKind sl0 = rootKind sl1 ∧
          t0'.nodes = floatSumTree.nodes.take i0 ++ sl1 ++ floatSumTree.nodes.drop (i0 + sl0.length) ∧
          t1'.nodes = floatProductTree.nodes.take i1 ++ sl0 ++ floatProductTree.nodes.drop (i1 + sl1.length)) :=
  ⟨by decide, rfl, by decide, by decide,
    crossSubtrees_wellTyped 1 (by decide) (pairStore_holds_left _ _) (pairStore_holds_right _ _) rfl
      (by decide) (by decide)⟩

end Operator

end Evolver
