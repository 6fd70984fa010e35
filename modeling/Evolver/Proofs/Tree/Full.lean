import Evolver.Proofs.Tree.Between
/-!
# Trees grown full

The full method grows a function wherever the depth is below the greatest
depth `d`, and a terminal at `d` itself.  `Tree.FullTo fs d depth ns` says
what that makes of a prefix list `ns` rooted at `depth`: a function node is a
primitive of `fs` lying above depth `d`, followed by one such subtree per
argument a level deeper, and a leaf is a terminal lying at depth `d`.

Growing full from a depth at most `d` answers such a list, whatever the
random draws (`Tree.growAt_fullTo`).  The kinds of the slots play no part:
each primitive declares one kind per argument (`Layout.argKinds_length`), so
a function is followed by as many subtrees as it has arguments.  From the
shape alone (`Tree.growFrom_full_shape`):

* the list is a well-formed prefix encoding (`FullTo.fills`);
* the tree's depth, as `Tree.depth` reads it, is its height `d - depth`
  (`FullTo.go_depth`, a reading of the list one subtree at a time);
* when every primitive takes `m` arguments the list has
  `1 + m + ... + m ^ h` nodes for its height `h` (`FullTo.length_eq`), which
  is `(m ^ (h + 1) - 1) / (m - 1)` for `m ≥ 2`.
-/

namespace Evolver

namespace Tree

/-- `ns` is, in prefix order, a subtree rooted at `depth` whose functions are
primitives of `fs` lying above depth `d`, each followed by one subtree per
argument a level deeper, and whose leaves are terminals lying at depth `d`. -/
inductive FullTo (fs : List Primitive) (d : Int) : Int → List Node → Prop
  | leaf (a : Atom) (k : Option Kind) : FullTo fs d d [.term a k]
  | node {depth : Int} (p : Primitive) (kids : List (List Node)) (hp : p ∈ fs) (hdepth : depth < d)
      (harity : kids.length = p.arity) (hkids : ∀ ns ∈ kids, FullTo fs d (depth + 1) ns) :
      FullTo fs d depth (.func p :: kids.flatten)

namespace FullTo

variable {fs : List Primitive} {d : Int}

theorem depth_le {depth : Int} {ns : List Node} (h : FullTo fs d depth ns) : depth ≤ d := by
  cases h with
  | leaf => exact Int.le_refl d
  | node _ _ _ hdepth => exact Int.le_of_lt hdepth

/-! ### Full trees are grown between one depth and itself -/

/-- A full tree is grown between `d` and `d`: its leaves lie at depth `d`
and its functions above it. -/
theorem grownBetween {depth : Int} {ns : List Node} (h : FullTo fs d depth ns) : GrownBetween fs d d depth ns := by
  induction h with
  | leaf a k => exact .leaf a k (Int.le_refl d)
  | node p kids hp hdepth harity _ ih => exact .node p kids hp (.inl hdepth) harity ih

/-- **A full tree reads to its height.**  Reading a full tree rooted at
`depth` hands the open frames the value `d - depth`: the least and the
greatest depth of the tree agree. -/
theorem go_depth {depth : Int} {ns : List Node} (h : FullTo fs d depth ns) : ReadsTo ns (d - depth).toNat := by
  obtain ⟨v, hlo, hhi, hv⟩ := h.grownBetween.readsTo_between (Int.le_refl d) h.depth_le
  exact Nat.le_antisymm hhi hlo ▸ hv

/-- **A full tree is well formed**: read against the shape of `fs`, it is one
complete subtree. -/
theorem fills {depth : Int} {ns : List Node} (h : FullTo fs d depth ns) : (Layout.shape fs).Fills [()] ns :=
  h.grownBetween.fills

/-- The depth of a tree whose nodes are a full tree is the tree's height. -/
theorem depth_eq {t : Tree} {depth : Int} (h : FullTo fs d depth t.nodes) :
    t.depth = .ok (d - depth).toNat :=
  h.go_depth.depth_eq

/-! ### The size of a full tree -/

/-- **A full tree of primitives of one arity `m`** has `1 + m + ... + m ^ h`
nodes for its height `h`. -/
theorem length_eq {m : Nat} (harity : ∀ p ∈ fs, p.arity = m) {depth : Int} {ns : List Node}
    (h : FullTo fs d depth ns) : ns.length = ∑ i ∈ Finset.range ((d - depth).toNat + 1), m ^ i := by
  induction h with
  | leaf a k => simp
  | @node depth p kids hp hdepth hlen _ ih =>
    -- every argument's subtree has the size of a tree one level shorter
    have hkids : (kids.map List.length) = List.replicate kids.length
        (∑ i ∈ Finset.range ((d - (depth + 1)).toNat + 1), m ^ i) :=
      List.eq_replicate_iff.2 ⟨List.length_map _, fun n hn => by
        obtain ⟨ns, hns, rfl⟩ := List.mem_map.1 hn
        exact ih ns hns⟩
    have hheight : (d - depth).toNat = (d - (depth + 1)).toNat + 1 := by omega
    rw [List.length_cons, List.length_flatten, hkids, List.sum_replicate_nat, hlen, harity p hp, hheight,
      geom_sum_succ (n := (d - (depth + 1)).toNat + 1), Nat.add_comm]

end FullTo

/-! ### Growing full -/

/-- **Growing full makes a full tree.**  From any depth at most `d`, with any
fuel and any draws, a subtree grown full to the greatest depth `d` is a full
tree rooted there: functions above `d`, each followed by the subtrees of its
arguments, and terminals at `d`. -/
theorem growAt_fullTo {t : Tree} {lo d : Int} {noNode : Fault} :
    ∀ (fuel : Nat) (depth : Int) {k : Option Kind} {l l' : Lab} {nodes : List Node}, depth ≤ d →
      (t.growAt .full lo d noNode fuel depth k).run l = .ok nodes l' → FullTo t.functions d depth nodes
  | 0, _, _, _, _, _, _, h => by cases h
  | fuel + 1, depth, k, l, l', nodes, hle, h => by
    rw [growAt] at h
    obtain ⟨b, l₁, hb, hnode⟩ := Run.bind_run_ok.1 h
    -- the full method asks for a function exactly above the greatest depth
    obtain ⟨rfl, -⟩ := Run.pure_run_ok.1 hb
    split at hnode
    · rename_i hfun
      have hlt : depth < d := of_decide_eq_true hfun
      obtain ⟨r, l₂, hr, hkids⟩ := Run.bind_run_ok.1 hnode
      cases r with
      | none => cases hkids
      | some n =>
        obtain ⟨p, hp, -, rfl⟩ := randomFunction_run hr
        obtain ⟨kids, l₃, hgrow, hpure⟩ := Run.bind_run_ok.1 hkids
        obtain ⟨rfl, -⟩ := Run.pure_run_ok.1 hpure
        have hgrown := Run.mapM_run_forall₂ (P := fun _ ns => FullTo t.functions d (depth + 1) ns)
          (fun kk _ ns _ _ hrun => growAt_fullTo fuel (depth + 1) (Int.add_one_le_of_lt hlt) hrun) hgrow
        refine .node p kids hp hlt ?_ (forall_of_forall₂ hgrown)
        rw [← hgrown.length_eq]
        exact Layout.argKinds_length p
    · rename_i hterm
      have hdepth : depth = d := Int.le_antisymm hle (Int.not_lt.1 (by simpa using hterm))
      obtain ⟨r, l₂, hr, hpure⟩ := Run.bind_run_ok.1 hnode
      cases r with
      | none => cases hpure
      | some n =>
        obtain ⟨rfl, -⟩ := Run.pure_run_ok.1 hpure
        obtain ⟨a, k', rfl⟩ := randomTerminal_run_term hr
        rw [hdepth]
        exact .leaf a k'

/-- **The shape of a tree grown full.**  Grown full from the root to a
greatest depth `d ≥ 0`, whatever the least depth, the tree's sets, the kind
asked for and the draws, the nodes a run answers are a full tree: every
function lies above depth `d` and every leaf at depth `d`.  So they are a
well-formed prefix encoding, the tree's depth is `d`, and when every
primitive takes `m ≥ 2` arguments there are `(m ^ (d + 1) - 1) / (m - 1)` of
them. -/
theorem growFrom_full_shape {t : Tree} {lo d : Int} {noNode : Fault} {k : Option Kind} {l l' : Lab}
    {nodes : List Node} (hd : 0 ≤ d) (h : (t.growFrom .full lo d noNode 0 k).run l = .ok nodes l') :
    FullTo t.functions d 0 nodes ∧ { t with nodes := nodes }.WellFormed ∧
      Tree.depth { t with nodes := nodes } = .ok d.toNat ∧
      ∀ m, 2 ≤ m → (∀ p ∈ t.functions, p.arity = m) → nodes.length = (m ^ (d.toNat + 1) - 1) / (m - 1) := by
  have hfull : FullTo t.functions d 0 nodes := growAt_fullTo _ 0 hd h
  refine ⟨hfull, hfull.fills, ?_, fun m hm harity => ?_⟩
  · rw [FullTo.depth_eq (t := { t with nodes := nodes }) hfull, Int.sub_zero]
  · rw [hfull.length_eq harity, Int.sub_zero, Nat.geomSum_eq hm]

/-- The untyped tree over `f_add` and the terminal `x`, with no nodes yet. -/
def addX : Tree := ⟨[.add], [⟨Atom.make (.str "x") 0, none⟩], none, none, []⟩

/-- Streams whose words, all zero, pick the first of one candidate each time. -/
def zeroWordsLab : Lab := ⟨⟨⟨#[0, 0, 0], 0⟩, none⟩, ⟨#[], 0⟩, 1, 0⟩

/-- `f_add(x, x)`. -/
def addXX : List Node := [.func .add, .term (Atom.make (.str "x") 0) none, .term (Atom.make (.str "x") 0) none]

/-- Grown full to depth one, the tree over `f_add` and `x` is `f_add(x, x)`:
its depth is one and it has `(2 ^ 2 - 1) / (2 - 1) = 3` nodes. -/
theorem growFrom_full_shape_addXX :
    Tree.depth { addX with nodes := addXX } = .ok 1 ∧ addXX.length = (2 ^ 2 - 1) / (2 - 1) := by
  have hrun : (addX.growFrom .full 1 1 Fault.listIndex 0 none).run zeroWordsLab =
      .ok addXX { zeroWordsLab with stream := ⟨⟨#[0, 0, 0], 3⟩, none⟩ } := rfl
  obtain ⟨-, -, hdepth, hsize⟩ := growFrom_full_shape (by decide) hrun
  exact ⟨hdepth, hsize 2 (Nat.le_refl 2) fun p hp => by simp only [addX, List.mem_singleton] at hp; subst hp; rfl⟩

end Tree

end Evolver
