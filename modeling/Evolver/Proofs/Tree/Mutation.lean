import Evolver.Proofs.Tree.Crossover
import Evolver.Proofs.Tree.Between
/-!
# Subtree mutation of one tree

One attempt of subtree mutation on a tree draws a random subtree, then grows
a new subtree from the kind of the drawn subtree's first node, between the
operator's depths and with even odds in between, and puts it in the drawn
subtree's place.  On a well-formed tree drawing never fails
(`Tree.randomSubtree_run`), so an attempt answers `false` only when no
subtree may be drawn, and then leaves the tree as it was; growing may fail
with a fault, and then too the tree is as it was
(`Operator.mutateSubtrees_run`).  A failed attempt changes no tree, so all
the attempts together end the same way (`Operator.tries_mutateSubtrees_run`).

Main statement: `Operator.mutateSubtrees_replaces_drawn_subtree`.  A success
splices, at the drawn position, a subtree grown between the depths
(`Tree.GrownBetween`), so the tree stays well formed.  Over typed sets the
new subtree fills a slot of the replaced root's kind in the grown layout: its
nodes have the kinds their places ask for, save that a random constant may
stand in a slot of a number kind.  So without a range of constants a
well-typed tree stays well typed, and with one it need not: over `and2bools`
and the constants from 0 to 5, mutation can put the int constant 0 in place
of a bool leaf (`Operator.mutateSubtrees_puts_int_constant_under_bool`).
-/

namespace Evolver

namespace Run

/-- A draw that fails moves the streams only. -/
theorem draw_run_error {α : Type} {s : Store} {d : Draw α} {e : Fault} {l : Lab} (h : d.run s.lab = .error e l) :
    (draw d).run s = .error e { s with lab := l } := by
  simp only [EStateM.run] at h
  simp [draw, EStateM.run, h]

end Run

namespace Operator

/-- Growing the subtree that replaces `sl` in the tree `t`, with the fault
named after the tree's sets. -/
abbrev growFor (depth : Int × Int) (t : Tree) (sl : List Node) : Draw (List Node) :=
  t.growFrom (.grow (.float 0.5)) depth.1 depth.2
    (noNodeFault t.terminalsText (Tree.functionsText t.functions) none depth.1 depth.2) 0 (rootKind sl)

/-- What subtree mutation of the tree `t` of `id` between the depths `depth`
may leave in the store `s'`, with `ok` telling whether it succeeded: the tree
as it was, or with a drawn subtree replaced by one grown from the kind of
its first node. -/
def MutateOutcome (depth : Int × Int) (id : Nat) (t : Tree) (ok : Bool) (s' : Store) : Prop :=
  ok = false ∧ s'.HoldsTree id t ∨
  ok = true ∧ ∃ i sl new l l', t.Drawn none i sl ∧ (growFor depth t sl).run l = .ok new l' ∧
    s'.HoldsTree id { t with nodes := t.nodes.take i ++ new ++ t.nodes.drop (i + sl.length) }

/-- How a run of subtree mutation of the tree `t` of `id` ends: as
`MutateOutcome` says when it answers, and with the tree as it was when it
fails. -/
def MutateEnd (depth : Int × Int) (id : Nat) (t : Tree) : EStateM.Result Fault Store Bool → Prop
  | .ok ok s' => MutateOutcome depth id t ok s'
  | .error _ s' => s'.HoldsTree id t

/-- One attempt of subtree mutation that draws the subtree `sl` at `i` and
grows `new`: the attempt succeeds with `new` spliced in at `i`. -/
theorem mutateSubtrees_run_grown {s : Store} {a : Nat} {t : Tree} (h : s.HoldsTree a t) (depth : Int × Int)
    {i : Nat} {sl new : List Node} {l l' : Lab} (hr : (t.randomSubtree none).run s.lab = .ok (some sl) l)
    (hd : t.Drawn none i sl) (hg : (growFor depth t sl).run l = .ok new l') :
    ∃ s', (mutateSubtrees depth [a]).run s = .ok true s' ∧
      s'.HoldsTree a { t with nodes := t.nodes.take i ++ new ++ t.nodes.drop (i + sl.length) } := by
  have hl : Store.HoldsTree { s with lab := l } a t := h
  have hg' : (growFor depth t sl).run ({ s with lab := l } : Store).lab = .ok new l' := hg
  have hl' : Store.HoldsTree { s with lab := l' } a t := h
  obtain ⟨s', hs', ha', -, -⟩ := Run.setGenome_run hl'
    { t with nodes := t.nodes.take i ++ new ++ t.nodes.drop (i + sl.length) }
  refine ⟨s', ?_, ha'⟩
  simp only [mutateSubtrees, List.mapM_cons, List.mapM_nil, EStateM.run_bind, Run.treeOf_run h, Run.draw_run hr,
    EStateM.run_pure, id, Option.pure_def, Option.bind_eq_bind, Option.bind_some, List.head?_cons,
    List.zip_cons_cons, List.zip_nil_right, List.forIn_cons, List.forIn_nil, Run.treeOf_run hl,
    Run.draw_run hg', hd.replace_eq new, Run.ofExcept_pure_run, hs']

/-- One attempt of subtree mutation that draws the subtree `sl` but fails to
grow its replacement: the fault is raised before the tree is touched. -/
theorem mutateSubtrees_run_growth_fails {s : Store} {a : Nat} {t : Tree} (h : s.HoldsTree a t)
    (depth : Int × Int) {sl : List Node} {l l' : Lab} {e : Fault}
    (hr : (t.randomSubtree none).run s.lab = .ok (some sl) l) (hg : (growFor depth t sl).run l = .error e l') :
    (mutateSubtrees depth [a]).run s = .error e { s with lab := l' } := by
  have hl : Store.HoldsTree { s with lab := l } a t := h
  have hg' : (growFor depth t sl).run ({ s with lab := l } : Store).lab = .error e l' := hg
  simp only [mutateSubtrees, List.mapM_cons, List.mapM_nil, EStateM.run_bind, Run.treeOf_run h, Run.draw_run hr,
    EStateM.run_pure, id, Option.pure_def, Option.bind_eq_bind, Option.bind_some, List.head?_cons,
    List.zip_cons_cons, List.zip_nil_right, List.forIn_cons, List.forIn_nil, Run.treeOf_run hl,
    Run.draw_run_error hg']

/-- **One attempt of subtree mutation** on the well-formed tree of one
individual: no subtree drawn leaves the tree as it was; otherwise the drawn
subtree is replaced by the grown one, unless growing fails, which leaves the
tree as it was too. -/
theorem mutateSubtrees_run {s : Store} {a : Nat} {t : Tree} (h : s.HoldsTree a t) (hw : t.WellFormed)
    (depth : Int × Int) : MutateEnd depth a t ((mutateSubtrees depth [a]).run s) := by
  obtain ⟨r, l, hr, hd⟩ := Tree.randomSubtree_run hw none s.lab
  cases r with
  | none =>
    -- no subtree may be drawn: the attempt answers `false`
    simp only [mutateSubtrees, List.mapM_cons, List.mapM_nil, EStateM.run_bind, Run.treeOf_run h, Run.draw_run hr,
      EStateM.run_pure]
    exact .inl ⟨rfl, (h : Store.HoldsTree { s with lab := l } a t)⟩
  | some sl =>
    obtain ⟨i, hd⟩ := hd sl rfl
    cases hg : (growFor depth t sl).run l with
    | ok new l' =>
      obtain ⟨s', hrun, ha'⟩ := mutateSubtrees_run_grown h depth hr hd hg
      rw [hrun]
      exact .inr ⟨rfl, i, sl, new, l, l', hd, hg, ha'⟩
    | error e l' =>
      rw [mutateSubtrees_run_growth_fails h depth hr hg]
      exact (h : Store.HoldsTree { s with lab := l' } a t)

/-- **All the attempts of subtree mutation.**  A failed attempt changes no
tree, so after any number of attempts the run ends as one attempt does. -/
theorem tries_mutateSubtrees_run {a : Nat} {t : Tree} (hw : t.WellFormed) (depth : Int × Int) (n : Nat) :
    ∀ {s : Store}, s.HoldsTree a t → MutateEnd depth a t ((tries (mutateSubtrees depth [a]) n).run s) := by
  induction n with
  | zero => exact fun h => .inl ⟨rfl, h⟩
  | succ n ih =>
    intro s h
    have hone := mutateSubtrees_run h hw depth
    simp only [tries, EStateM.run_bind]
    cases hrun : (mutateSubtrees depth [a]).run s with
    | ok ok s₁ =>
      rw [hrun] at hone
      rcases hone with ⟨rfl, h₁⟩ | ⟨rfl, hswap⟩
      · exact ih h₁
      · exact .inr ⟨rfl, hswap⟩
    | error e s₁ =>
      rw [hrun] at hone
      exact hone

/-- **Subtree mutation replaces a drawn subtree by a grown one, or nothing.**
For any number of attempts and any state of the random streams, subtree
mutation of the well-formed tree of one individual either fails, with a
fault or with no subtree to draw, and leaves the tree as it was; or puts, at
the position of a drawn subtree and in its place alone, a subtree grown
between the operator's depths, and the tree stays well formed.  Over typed
sets and on a well-typed tree, the new subtree fills a slot of the replaced
root's kind in the grown layout, where a random constant may stand for any
number kind; without a range of constants the tree stays well typed. -/
theorem mutateSubtrees_replaces_drawn_subtree {s : Store} {a : Nat} {t : Tree} (h : s.HoldsTree a t)
    (hw : t.WellFormed) (depth : Int × Int) (n : Nat) :
    (∀ e s', (tries (mutateSubtrees depth [a]) n).run s = .error e s' → s'.HoldsTree a t) ∧
    ∀ ok s', (tries (mutateSubtrees depth [a]) n).run s = .ok ok s' →
      ok = false ∧ s'.HoldsTree a t ∨
      ok = true ∧ ∃ i sl new, t.Drawn none i sl ∧
        s'.HoldsTree a { t with nodes := t.nodes.take i ++ new ++ t.nodes.drop (i + sl.length) } ∧
        Tree.GrownBetween t.functions depth.1 depth.2 0 new ∧
        { t with nodes := t.nodes.take i ++ new ++ t.nodes.drop (i + sl.length) }.WellFormed ∧
        (t.TypedSets → t.WellTyped → (Tree.Layout.grown t).Fills [rootKind sl] new ∧
          (t.erc = none → { t with nodes := t.nodes.take i ++ new ++ t.nodes.drop (i + sl.length) }.WellTyped)) := by
  have hend := tries_mutateSubtrees_run hw depth n h
  refine ⟨fun e s' hrun => by rw [hrun] at hend; exact hend, fun ok s' hrun => ?_⟩
  rw [hrun] at hend
  rcases hend with ⟨rfl, h'⟩ | ⟨rfl, i, sl, new, l, l', hd, hg, h'⟩
  · exact .inl ⟨rfl, h'⟩
  · have hgrown : Tree.GrownBetween t.functions depth.1 depth.2 0 new := Tree.growAt_grownBetween _ 0 hg
    have hsub := hd.subtreeAt
    refine .inr ⟨rfl, i, sl, new, hd, h', hgrown, hw.splice hsub hgrown.fills, fun hsets ht => ?_⟩
    -- the drawn subtree of a well-typed tree starts with a node of some kind
    obtain ⟨-, hsome, -⟩ := ht.drawn hd
    have hfills : (Tree.Layout.grown t).Fills [rootKind sl] new := Tree.growAt_fills hsets _ _ _ _ _ _ hsome hg
    refine ⟨hfills, fun herc => ?_⟩
    obtain ⟨x, rest, rfl⟩ := List.exists_cons_of_ne_nil hsub.ne_nil
    rw [Tree.Layout.grown_eq_kinds herc] at hfills
    exact ht.splice hsub hfills

/-- A leaf `b` of kind bool. -/
def boolLeaf : Node := .term (Atom.make (.str "b") 0) (some .bool)

/-- `and2bools(b, b)` over `and2bools` and `and2ints`, the terminal `b` of
kind bool and the constants from 0 to 5. -/
def andBoolsTree : Tree :=
  ⟨[.and2bools, .and2ints], [⟨Atom.make (.str "b") 0, some .bool⟩], some (.int 0, .int 5), some .bool,
    [.func .and2bools, boolLeaf, boolLeaf]⟩

theorem mutateSubtrees_replaces_drawn_subtree_andBools :
    (pairStore andBoolsTree andBoolsTree).HoldsTree 1 andBoolsTree ∧ andBoolsTree.WellFormed ∧
    (∀ e s', (tries (mutateSubtrees (0, 0) [1]) 1).run (pairStore andBoolsTree andBoolsTree) = .error e s' →
      s'.HoldsTree 1 andBoolsTree) ∧
    ∀ ok s', (tries (mutateSubtrees (0, 0) [1]) 1).run (pairStore andBoolsTree andBoolsTree) = .ok ok s' →
      ok = false ∧ s'.HoldsTree 1 andBoolsTree ∨
      ok = true ∧ ∃ i sl new, andBoolsTree.Drawn none i sl ∧
        s'.HoldsTree 1 { andBoolsTree with
          nodes := andBoolsTree.nodes.take i ++ new ++ andBoolsTree.nodes.drop (i + sl.length) } ∧
        Tree.GrownBetween andBoolsTree.functions 0 0 0 new ∧
        { andBoolsTree with
          nodes := andBoolsTree.nodes.take i ++ new ++ andBoolsTree.nodes.drop (i + sl.length) }.WellFormed ∧
        (andBoolsTree.TypedSets → andBoolsTree.WellTyped →
          (Tree.Layout.grown andBoolsTree).Fills [rootKind sl] new ∧
          (andBoolsTree.erc = none → { andBoolsTree with
            nodes := andBoolsTree.nodes.take i ++ new ++ andBoolsTree.nodes.drop (i + sl.length) }.WellTyped)) :=
  ⟨pairStore_holds_left _ _, by decide,
    mutateSubtrees_replaces_drawn_subtree (pairStore_holds_left _ _) (by decide) (0, 0) 1⟩

/-- Streams whose three words draw the first `b` of `andBoolsTree`, then the
constant 0, and pick the constant over `b`. -/
def andBoolsLab : Lab := ⟨⟨⟨#[0, 0, 32768], 0⟩, none⟩, ⟨#[], 0⟩, 3, 0⟩

/-- **A constant of the wrong kind in place of a bool leaf.**  One attempt
of subtree mutation between the depths 0 and 0 on `and2bools(b, b)` draws
the first `b` and grows, for its kind bool, the constant 0, whose kind is
int: the new root's kind is not the replaced root's, and the tree is no
longer well typed. -/
theorem mutateSubtrees_puts_int_constant_under_bool :
    ∃ s', (tries (mutateSubtrees (0, 0) [1]) 1).run { pairStore andBoolsTree andBoolsTree with lab := andBoolsLab } =
        .ok true s' ∧
      s'.HoldsTree 1 { andBoolsTree with nodes := [.func .and2bools, sampleLeaf 0 (some .int), boolLeaf] } ∧
      ¬ { andBoolsTree with nodes := [.func .and2bools, sampleLeaf 0 (some .int), boolLeaf] }.WellTyped := by
  have h : Store.HoldsTree { pairStore andBoolsTree andBoolsTree with lab := andBoolsLab } 1 andBoolsTree :=
    (pairStore_holds_left andBoolsTree andBoolsTree).of_getElem?_eq rfl
  have hd : andBoolsTree.Drawn none 1 [boolLeaf] :=
    ⟨_, _, boolLeaf, rfl, List.mem_cons_of_mem _ List.mem_cons_self, rfl, rfl, ⟨[boolLeaf], rfl⟩, by decide⟩
  -- the first word draws the first `b`, the next two the constant 0 and the choice of it
  have hr : (andBoolsTree.randomSubtree none).run andBoolsLab =
      .ok (some [boolLeaf]) { andBoolsLab with stream := ⟨⟨#[0, 0, 32768], 1⟩, none⟩ } := rfl
  have hg : (growFor (0, 0) andBoolsTree [boolLeaf]).run { andBoolsLab with stream := ⟨⟨#[0, 0, 32768], 1⟩, none⟩ } =
      .ok [sampleLeaf 0 (some .int)] { andBoolsLab with stream := ⟨⟨#[0, 0, 32768], 3⟩, none⟩ } := rfl
  obtain ⟨s', hrun, ha⟩ := mutateSubtrees_run_grown h (0, 0) hr hd hg
  refine ⟨s', ?_, ha, by decide⟩
  simp only [tries, EStateM.run_bind, hrun, if_true, EStateM.run_pure]

end Operator

end Evolver
