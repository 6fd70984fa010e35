import Evolver.Proofs.Tree.Grow
/-!
# Trees grown between two depths

The grow method grows a function wherever the depth is above the least depth
`lo`, a terminal wherever it is at the greatest depth `hi` or deeper, and in
between a terminal or a function as a draw against the pruning probability
decides.  `Tree.GrownBetween fs lo hi depth ns` says what that makes of a
prefix list `ns` rooted at `depth`: a leaf is a terminal lying at depth `lo`
or deeper, and a function node is a primitive of `fs` lying above depth `lo`
or above depth `hi`, followed by one subtree of the same sort per argument, a
level deeper.

Growing so from any depth answers such a list, whatever the draws and the
pruning probability (`Tree.growAt_grownBetween`).  The depths themselves do
the rest:

* the list is a well-formed prefix encoding (`GrownBetween.fills`);
* with `lo ≤ hi`, every function lies above `hi` and every leaf at `lo` or
  deeper, and every primitive takes an argument (`Primitive.arity_pos`), so
  from a root at most `hi` the list reads, one subtree at a time
  (`Tree.ReadsTo`), to a depth between `lo` and `hi`, counted from the root
  (`GrownBetween.readsTo_between`).

Main statement: `Tree.growFrom_grow_shape`, the shape of a tree grown from the
root between depths `0 ≤ lo ≤ hi`.
-/

namespace Evolver

/-- Every primitive takes at least one argument. -/
theorem Primitive.arity_pos (p : Primitive) : 0 < p.arity := by
  cases p <;> decide

namespace Tree

/-! ### Reading the depth one subtree at a time -/

/-- Reading on once a subtree has given the value `a`, with `used` nodes
read: the value is handed to the open frames, and reading stops when they
are all closed. -/
def readOn (rest : List Node) (st : List (Frame Nat)) (used : Nat) (a : Nat) : Except Fault (Nat × Nat) :=
  do
    match ← depthReading.settle st a with
    | (some v, _) => pure (v, used)
    | (none, st') => depthReading.go rest st' used

/-- `ns` reads to the depth `v`: read with any frames open and anything after
it, it hands them `v` once its last node is read, as a leaf hands them `0`. -/
def ReadsTo (ns : List Node) (v : Nat) : Prop :=
  ∀ (rest : List Node) (st : List (Frame Nat)) (used : Nat),
    depthReading.go (ns ++ rest) st used = readOn rest st (used + ns.length) v

theorem readsTo_term (a : Atom) (k : Option Kind) : ReadsTo [.term a k] 0 := by
  intro rest st used
  simp only [List.singleton_append, Reading.go, depthReading, arityOf, Node.primitive?, Option.map_none,
    Reading.atom, readOn, pure_bind]
  -- the two matches on what the frames answer are the same, case by case
  congr 1
  funext x
  rcases x with ⟨_ | v, st'⟩ <;> rfl

/-- The last argument closes its function; an earlier one leaves it open,
waiting for one argument fewer. -/
theorem readOn_frame (rest : List Node) (n : Node) (left : Nat) (ds : List Nat) (st : List (Frame Nat))
    (used a : Nat) : readOn rest (⟨n, left, ds⟩ :: st) used a =
      if left ≤ 1 then readOn rest st used (1 + (a :: ds).reverse.foldl max 0)
      else depthReading.go rest (⟨n, left - 1, a :: ds⟩ :: st) used := by
  unfold readOn
  rw [Reading.settle]
  split <;> rfl

/-- A function node opens a frame for its arguments. -/
theorem go_func (p : Primitive) (rest : List Node) (st : List (Frame Nat)) (used : Nat) :
    depthReading.go (.func p :: rest) st used = depthReading.go rest (⟨.func p, p.arity, []⟩ :: st) (used + 1) := by
  obtain ⟨m, hm⟩ : ∃ m, p.arity = m + 1 := ⟨p.arity - 1, by have := p.arity_pos; omega⟩
  rw [Reading.go]
  simp only [depthReading, arityOf, Node.primitive?, Option.map_some, hm]

/-- Starting from `acc`, the largest of depths is at least each of them and
`acc`, and at most any bound of them all. -/
theorem foldl_max_between {M : Nat} : ∀ (ds : List Nat) (acc : Nat), acc ≤ M → (∀ d ∈ ds, d ≤ M) →
    ds.foldl max acc ≤ M ∧ ∀ d ∈ acc :: ds, d ≤ ds.foldl max acc
  | [], acc, hacc, _ => ⟨hacc, fun d hd => by rw [List.mem_singleton.1 hd]; exact Nat.le_refl acc⟩
  | x :: ds, acc, hacc, hds => by
    obtain ⟨hle, hall⟩ := foldl_max_between ds (max acc x)
      (Nat.max_le.2 ⟨hacc, hds x List.mem_cons_self⟩) fun d hd => hds d (List.mem_cons_of_mem x hd)
    refine ⟨hle, fun d hd => ?_⟩
    have hmax := hall (max acc x) List.mem_cons_self
    rw [List.foldl_cons]
    rcases List.mem_cons.1 hd with rfl | hd
    · exact Nat.le_trans (Nat.le_max_left d x) hmax
    · rcases List.mem_cons.1 hd with rfl | hd
      · exact Nat.le_trans (Nat.le_max_right acc d) hmax
      · exact hall d (List.mem_cons_of_mem _ hd)

/-- **The arguments of a function are read into its frame.**  Subtrees that
each read to a depth between `m` and `M`, read one after another into a
frame still waiting for as many arguments, whose depths so far are at most
`M`, close it with `1 + v` for a depth `v` between `m` and `M`, the largest
of them all. -/
theorem readsTo_args (n : Node) {m M : Nat} : ∀ (ks : List (List Node)), ks ≠ [] →
    (∀ k ∈ ks, ∃ v, m ≤ v ∧ v ≤ M ∧ ReadsTo k v) → ∀ (ds : List Nat), (∀ d ∈ ds, d ≤ M) →
      ∃ v, m ≤ v ∧ v ≤ M ∧ ∀ (rest : List Node) (st : List (Frame Nat)) (used : Nat),
        depthReading.go (ks.flatten ++ rest) (⟨n, ks.length, ds⟩ :: st) used =
          readOn rest st (used + ks.flatten.length) (1 + v)
  | [], hne, _ => absurd rfl hne
  | [k], _, hk => fun ds hds => by
    obtain ⟨v, hmv, hvM, hv⟩ := hk k List.mem_cons_self
    -- the last argument closes the frame with the largest depth read into it
    obtain ⟨hle, hall⟩ := foldl_max_between (v :: ds).reverse 0 (Nat.zero_le M) fun d hd => by
      rcases List.mem_cons.1 (List.mem_reverse.1 hd) with rfl | hd
      · exact hvM
      · exact hds d hd
    refine ⟨(v :: ds).reverse.foldl max 0, Nat.le_trans hmv (hall v (List.mem_cons_of_mem 0 (by simp))), hle,
      fun rest st used => ?_⟩
    rw [List.flatten_singleton, hv, readOn_frame, if_pos (show [k].length ≤ 1 from Nat.le_refl 1)]
  | k :: k' :: ks, _, hk => fun ds hds => by
    obtain ⟨v, -, hvM, hv⟩ := hk k List.mem_cons_self
    -- an earlier argument leaves the frame waiting for the rest, with its depth in it
    obtain ⟨w, hmw, hwM, hw⟩ := readsTo_args n (k' :: ks) (List.cons_ne_nil k' ks)
      (fun k'' hk'' => hk k'' (List.mem_cons_of_mem k hk'')) (v :: ds) fun d hd => by
        rcases List.mem_cons.1 hd with rfl | hd
        · exact hvM
        · exact hds d hd
    have hmore : ¬ (k :: k' :: ks).length ≤ 1 := by simp
    have hleft : (k :: k' :: ks).length - 1 = (k' :: ks).length := rfl
    refine ⟨w, hmw, hwM, fun rest st used => ?_⟩
    rw [List.flatten_cons, List.append_assoc, hv, readOn_frame, if_neg hmore, hleft, hw, List.length_append,
      Nat.add_assoc]

/-- The depth of a tree whose nodes read to `v` is `v`. -/
theorem ReadsTo.depth_eq {t : Tree} {v : Nat} (h : ReadsTo t.nodes v) : t.depth = .ok v := by
  have hread := h [] [] 0
  rw [List.append_nil] at hread
  simp only [Tree.depth, Reading.read, hread, readOn, Reading.settle]
  rfl

/-! ### The shape of a tree grown between two depths -/

/-- `ns` is, in prefix order, a subtree rooted at `depth` grown between the
least depth `lo` and the greatest depth `hi` over the primitives `fs`: a leaf
is a terminal lying at depth `lo` or deeper, and a function node is a
primitive of `fs` lying above depth `lo` or above depth `hi`, followed by one
such subtree per argument a level deeper. -/
inductive GrownBetween (fs : List Primitive) (lo hi : Int) : Int → List Node → Prop
  | leaf {depth : Int} (a : Atom) (k : Option Kind) (hlo : lo ≤ depth) : GrownBetween fs lo hi depth [.term a k]
  | node {depth : Int} (p : Primitive) (kids : List (List Node)) (hp : p ∈ fs) (hdepth : depth < lo ∨ depth < hi)
      (harity : kids.length = p.arity) (hkids : ∀ ns ∈ kids, GrownBetween fs lo hi (depth + 1) ns) :
      GrownBetween fs lo hi depth (.func p :: kids.flatten)

namespace GrownBetween

variable {fs : List Primitive} {lo hi : Int}

/-- **A grown tree is well formed**: read against the shape of `fs`, it is
one complete subtree. -/
theorem fills {depth : Int} {ns : List Node} (h : GrownBetween fs lo hi depth ns) :
    (Layout.shape fs).Fills [()] ns := by
  induction h with
  | leaf a k => rfl
  | node p kids hp _ harity _ ih =>
    -- each argument's subtree fills one of the slots the function opens
    have hkids : List.Forall₂ (fun s ns => (Layout.shape fs).Fills [s] ns) (List.replicate p.arity ()) kids :=
      List.forall₂_iff_zip.2 ⟨by rw [List.length_replicate, harity], fun hmem => by
        rw [List.eq_of_mem_replicate (List.of_mem_zip hmem).1]
        exact ih _ (List.of_mem_zip hmem).2⟩
    have hfits : (Layout.shape fs).fits () (.func p) = true := by
      simp [Layout.shape, hp]
    simp only [Layout.Fills, Layout.pending_cons_cons, hfits, if_true, List.append_nil]
    exact Layout.Fills.flatten hkids

/-- **A grown tree reads to a depth between its bounds.**  With the least
depth at most the greatest, a tree grown between them from a root at most the
greatest depth reads to a depth, counted from its root, at least the least
depth and at most the greatest. -/
theorem readsTo_between (hle : lo ≤ hi) {depth : Int} {ns : List Node} (h : GrownBetween fs lo hi depth ns)
    (hd : depth ≤ hi) : ∃ v, (lo - depth).toNat ≤ v ∧ v ≤ (hi - depth).toNat ∧ ReadsTo ns v := by
  induction h with
  | leaf a k hlo => exact ⟨0, by omega, Nat.zero_le _, readsTo_term a k⟩
  | @node depth p kids _ hdepth harity _ ih =>
    -- a function lies above the greatest depth, so its arguments start at it or above
    have hlt : depth < hi := by omega
    have hne : kids ≠ [] := by
      intro hnil
      rw [hnil, List.length_nil] at harity
      exact absurd harity.symm (Nat.ne_of_gt p.arity_pos)
    obtain ⟨v, hlov, hvhi, hread⟩ := readsTo_args (.func p) kids hne (fun ns hns => ih ns hns (by omega)) []
      fun _ h => absurd h List.not_mem_nil
    refine ⟨1 + v, by omega, by omega, fun rest st used => ?_⟩
    rw [List.cons_append, go_func, ← harity, hread, List.length_cons, Nat.add_comm kids.flatten.length 1,
      Nat.add_assoc]

end GrownBetween

/-! ### Growing between two depths -/

/-- What every item of the second list satisfies, whatever its partner. -/
theorem forall_of_forall₂ {α β : Type} {Q : β → Prop} :
    ∀ {xs : List α} {ys : List β}, List.Forall₂ (fun _ y => Q y) xs ys → ∀ y ∈ ys, Q y
  | _, _, .nil => fun _ h => absurd h List.not_mem_nil
  | _, _, .cons hq hs => List.forall_mem_cons.2 ⟨hq, forall_of_forall₂ hs⟩

theorem randomTerminal_run_term {t : Tree} {k : Option Kind} {l l' : Lab} {n : Node}
    (h : (t.randomTerminal k).run l = .ok (some n) l') : ∃ a k', n = .term a k' := by
  unfold randomTerminal at h
  obtain ⟨pool, l₁, -, h⟩ := Run.bind_run_ok.1 h
  obtain ⟨r, l₂, -, h⟩ := Run.bind_run_ok.1 h
  obtain ⟨hr, -⟩ := Run.pure_run_ok.1 h
  obtain ⟨a, -, rfl⟩ := Option.map_eq_some_iff.1 hr
  exact ⟨a, _, rfl⟩

/-- **What the grow method decides at a depth**: a function only above the
least depth or above the greatest, a terminal only at the least depth or
deeper, whatever the draw and the pruning probability. -/
theorem wantsFunction_grow_run {p : Value} {lo hi depth : Int} {l l' : Lab} {b : Bool}
    (h : (wantsFunction (.grow p) lo hi depth).run l = .ok b l') :
    (b = true → depth < lo ∨ depth < hi) ∧ (b = false → lo ≤ depth) := by
  simp only [wantsFunction] at h
  split at h
  · -- above the least depth a function is grown
    obtain ⟨rfl, -⟩ := Run.pure_run_ok.1 h
    exact ⟨fun _ => .inl ‹_›, fun h => absurd h Bool.noConfusion⟩
  · split at h
    · -- at the greatest depth or deeper a terminal is grown
      obtain ⟨rfl, -⟩ := Run.pure_run_ok.1 h
      exact ⟨fun h => absurd h Bool.noConfusion, fun _ => by omega⟩
    · -- in between the draw decides
      exact ⟨fun _ => .inr (by omega), fun _ => by omega⟩

/-- **Growing between two depths makes a tree grown between them.**  From any
depth, with any fuel, pruning probability and draws, a subtree grown by the
grow method between `lo` and `hi` is grown between them: terminals at `lo`
or deeper, functions above `lo` or above `hi`, each followed by the subtrees
of its arguments. -/
theorem growAt_grownBetween {t : Tree} {p : Value} {lo hi : Int} {noNode : Fault} :
    ∀ (fuel : Nat) (depth : Int) {k : Option Kind} {l l' : Lab} {nodes : List Node},
      (t.growAt (.grow p) lo hi noNode fuel depth k).run l = .ok nodes l' →
        GrownBetween t.functions lo hi depth nodes
  | 0, _, _, _, _, _, h => by cases h
  | fuel + 1, depth, k, l, l', nodes, h => by
    rw [growAt] at h
    obtain ⟨b, l₁, hb, hnode⟩ := Run.bind_run_ok.1 h
    have hwant := wantsFunction_grow_run hb
    split at hnode
    · rename_i hfun
      obtain ⟨r, l₂, hr, hkids⟩ := Run.bind_run_ok.1 hnode
      cases r with
      | none => cases hkids
      | some n =>
        obtain ⟨q, hq, -, rfl⟩ := randomFunction_run hr
        obtain ⟨kids, l₃, hgrow, hpure⟩ := Run.bind_run_ok.1 hkids
        obtain ⟨rfl, -⟩ := Run.pure_run_ok.1 hpure
        have hgrown := Run.mapM_run_forall₂ (P := fun _ ns => GrownBetween t.functions lo hi (depth + 1) ns)
          (fun kk _ ns _ _ hrun => growAt_grownBetween fuel (depth + 1) hrun) hgrow
        refine .node q kids hq (hwant.1 hfun) ?_ (forall_of_forall₂ hgrown)
        rw [← hgrown.length_eq]
        exact Layout.argKinds_length q
    · rename_i hterm
      obtain ⟨r, l₂, hr, hpure⟩ := Run.bind_run_ok.1 hnode
      cases r with
      | none => cases hpure
      | some n =>
        obtain ⟨rfl, -⟩ := Run.pure_run_ok.1 hpure
        obtain ⟨a, k', rfl⟩ := randomTerminal_run_term hr
        exact .leaf a k' (hwant.2 (by simpa using hterm))

/-- **The shape of a tree grown by the grow method.**  Grown from the root
between a least depth `lo` and a greatest depth `hi` with `0 ≤ lo ≤ hi`,
whatever the tree's sets, the pruning probability, the kind asked for and
the draws, the nodes a run answers are grown between `lo` and `hi`: every
node above depth `lo` is a function and every node at depth `hi` a terminal.
So they are a well-formed prefix encoding, and the tree's depth lies between
`lo` and `hi`. -/
theorem growFrom_grow_shape {t : Tree} {p : Value} {lo hi : Int} {noNode : Fault} {k : Option Kind}
    {l l' : Lab} {nodes : List Node} (hlo : 0 ≤ lo) (hle : lo ≤ hi)
    (h : (t.growFrom (.grow p) lo hi noNode 0 k).run l = .ok nodes l') :
    GrownBetween t.functions lo hi 0 nodes ∧ { t with nodes := nodes }.WellFormed ∧
      ∃ d : Nat, Tree.depth { t with nodes := nodes } = .ok d ∧ lo ≤ d ∧ (d : Int) ≤ hi := by
  have hgrown : GrownBetween t.functions lo hi 0 nodes := growAt_grownBetween _ 0 h
  obtain ⟨d, hlod, hdhi, hread⟩ := hgrown.readsTo_between hle (by omega)
  refine ⟨hgrown, hgrown.fills, d, ReadsTo.depth_eq (t := { t with nodes := nodes }) hread, by omega, by omega⟩

/-- The tree over `f_mul`, `x` and `y`. -/
def mulXY : Tree := ⟨[.mul], [⟨Atom.make (.str "x") 0, none⟩, ⟨Atom.make (.str "y") 0, none⟩], none, none, []⟩

/-- The leaf `x`. -/
def xLeaf : Node := .term (Atom.make (.str "x") 0) none

/-- Draw states at position `n` of words that are all zero but the second,
which makes the even-odds draw at depth one ask for a function. -/
def deepLeftAt (n : Nat) : Lab := ⟨⟨⟨#[0, 0x80000000, 0, 0, 0, 0, 0, 0, 0], n⟩, none⟩, ⟨#[], 0⟩, 1, 0⟩

/-- `f_mul(f_mul(x, x), x)`: leaves at depths two and one. -/
def mulMulX : List Node := [.func .mul, .func .mul, xLeaf, xLeaf, xLeaf]

/-- Grown between depths one and two with even odds, the tree over `f_mul`
can stop one branch at depth one and take the other to depth two. -/
theorem growFrom_grow_shape_mulMulX :
    (mulXY.growFrom (.grow (.float 0.5)) 1 2 Fault.listIndex 0 none).run (deepLeftAt 0) = .ok mulMulX (deepLeftAt 9) ∧
      GrownBetween mulXY.functions 1 2 0 mulMulX ∧ { mulXY with nodes := mulMulX }.WellFormed ∧
      ∃ d : Nat, Tree.depth { mulXY with nodes := mulMulX } = .ok d ∧ 1 ≤ (d : Int) ∧ (d : Int) ≤ 2 := by
  -- the run is read one subtree of the root at a time: evaluated whole, it is too large
  have hfun : (mulXY.randomFunction none).run (deepLeftAt 0) = .ok (some (.func .mul)) (deepLeftAt 1) := rfl
  have hleft : (mulXY.growAt (.grow (.float 0.5)) 1 2 Fault.listIndex 3 1 none).run (deepLeftAt 1) =
      .ok [.func .mul, xLeaf, xLeaf] (deepLeftAt 6) := rfl
  have hright : (mulXY.growAt (.grow (.float 0.5)) 1 2 Fault.listIndex 3 1 none).run (deepLeftAt 6) =
      .ok [xLeaf] (deepLeftAt 9) := rfl
  have hrun : (mulXY.growFrom (.grow (.float 0.5)) 1 2 Fault.listIndex 0 none).run (deepLeftAt 0) =
      .ok mulMulX (deepLeftAt 9) := by
    rw [growFrom, show (max (1 : Int) 2 - 0).toNat + 2 = 3 + 1 from rfl, growAt]
    refine Run.bind_run_ok.2 ⟨true, deepLeftAt 0, rfl, ?_⟩
    rw [if_pos rfl]
    refine Run.bind_run_ok.2 ⟨some (.func .mul), deepLeftAt 1, hfun, ?_⟩
    refine Run.bind_run_ok.2 ⟨[[.func .mul, xLeaf, xLeaf], [xLeaf]], deepLeftAt 9, ?_, rfl⟩
    show EStateM.run (List.mapM (m := Draw) _ [none, none]) (deepLeftAt 1) = _
    simp only [List.mapM_cons, List.mapM_nil, EStateM.run_bind, Int.zero_add, hleft, hright]
    rfl
  exact ⟨hrun, growFrom_grow_shape (by decide) (by decide) hrun⟩

end Tree

end Evolver
