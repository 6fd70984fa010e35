import Evolver.Proofs.Tree.Full
import Evolver.Proofs.Evolution.TypedCreation
/-!
# Ramped half-and-half

Ramped half-and-half over least and greatest depths `lo` and `hi` makes `n`
trees in `2 (hi + 1 - lo)` groups of `n / (2 (hi + 1 - lo))`: for each
greatest depth `d` from `lo` to `hi` (`TreeRecipe.rampDepths`) a group grown
and a group grown full, each by the recipe at depths `(lo, d)`
(`TreeRecipe.part`), and then what the groups leave over, full to the last
depth.

A tree creator takes the next identities, one after another
(`Run.mintEach_ids`), and grows each tree in place, so every tree it answers
has the shape that every growth of its recipe has (`TreeRecipe.create_shaped`)
and no identity below the first it took changes.  The groups are made in
turn (`TreeRecipe.forIn_groups_run`): each starts above every identity of
the groups before it, so their trees stay as they were grown.

Main statement: `TreeRecipe.rampedHalf_groups`.  When `lo = hi + 1` there are
no groups and the division by their count fails; otherwise a group size of
zero fails with the message that asks for more individuals; and whenever the
creator answers, it answers exactly `n` identities.  With `0 ≤ lo ≤ hi` they
are, for each greatest depth `d` in turn, a block of trees grown between `lo`
and `d` (`Tree.GrownBetween`) and a block of full trees of depth `d`
(`Tree.FullTo`), and then the rest, full trees of depth `hi`.
-/

namespace Evolver

open Run

/-- A tree made from its sets has no nodes yet. -/
theorem Tree.make_nodes {fs : Option (List FunctionEntry)} {ts : Option TerminalSpec}
    {erc : Option (Value × Value)} {root : Option Kind} {t : Tree} (h : Tree.make fs ts erc root = .ok t) :
    t.nodes = [] := by
  unfold Tree.make at h
  cases fs with
  | none => cases h
  | some fs =>
    cases ts with
    | none => cases h
    | some ts =>
      simp only [bind, Except.bind] at h
      split at h
      · cases h
      -- every check that passes answers the tree of the sets, with no nodes
      cases ts with
      | other v => cases h
      | keys ks =>
        dsimp only at h
        split at h
        · cases h
        · cases h
          rfl
      | kinds ks =>
        dsimp only at h
        split at h
        · cases h
        split at h
        · cases h
        · cases h
          rfl

/-! ### Trees of a shape, kept in the store -/

/-- `o` is an individual of identity `id` holding a tree whose functions and
nodes have the shape `P`. -/
def ShapedAt (P : List Primitive → List Node → Prop) (id : Nat) (o : Option Individual) : Prop :=
  ∃ i t, o = some i ∧ i.id = id ∧ i.genome = .tree t ∧ P t.functions t.nodes

namespace Run

/-- **A loop of mints takes the next identities**, one after another. -/
theorem mintEach_ids {γ α : Type} (fit : Except Fault Fitness) (x : Except Fault α) (g : α → Genome) (u : Bool) :
    ∀ (xs : List γ) {s s' : Store} {ids : List Nat},
      (xs.mapM fun _ => Run.ofExcept fit >>= fun f => mintOf f x g u).run s = .ok ids s' →
        ids = List.range' s.lab.nextId xs.length ∧ s'.lab.nextId = s.lab.nextId + xs.length
  | [], s, s', ids, h => by
    obtain ⟨rfl, rfl⟩ := pure_run_ok.1 h
    exact ⟨rfl, rfl⟩
  | y :: xs, s, s', ids, h => by
    rw [List.mapM_cons] at h
    obtain ⟨new, s₁, hmint, h⟩ := bind_run_ok.1 h
    obtain ⟨rest, s₂, hrest, h⟩ := bind_run_ok.1 h
    obtain ⟨rfl, rfl⟩ := pure_run_ok.1 h
    obtain ⟨f, -, hmint⟩ := ofExcept_bind_run_ok.1 hmint
    rw [mintOf_run] at hmint
    cases hx : x with
    | error e =>
      rw [hx] at hmint
      cases hmint
    | ok a =>
      rw [hx] at hmint
      cases hmint
      -- the rest of the loop mints from the identity after this one
      obtain ⟨rfl, hnext⟩ := mintEach_ids fit x g u xs hrest
      refine ⟨?_, ?_⟩
      · rw [List.length_cons, List.range'_succ]
        rfl
      · rw [hnext, List.length_cons]
        show s.lab.nextId + 1 + xs.length = _
        omega

/-- A loop whose every pass hands no identity back hands none back. -/
theorem forIn_nextId_le {γ : Type} {body : γ → PUnit → Run (ForInStep PUnit)}
    (hstep : ∀ a (s s' : Store) r, (body a PUnit.unit).run s = .ok r s' →
      r = .yield PUnit.unit ∧ s.lab.nextId ≤ s'.lab.nextId) :
    ∀ (xs : List γ) {s s' : Store} {u : PUnit}, (forIn xs PUnit.unit body).run s = .ok u s' →
      s.lab.nextId ≤ s'.lab.nextId
  | [], s, s', u, h => by
    rw [List.forIn_nil] at h
    obtain ⟨-, rfl⟩ := pure_run_ok.1 h
    exact Nat.le_refl _
  | a :: xs, s, s', u, h => by
    rw [List.forIn_cons] at h
    obtain ⟨r, s₁, hr, h⟩ := bind_run_ok.1 h
    obtain ⟨rfl, hle⟩ := hstep a s s₁ r hr
    exact Nat.le_trans hle (forIn_nextId_le hstep xs h)

end Run

/-! ### Creating trees of a shape -/

namespace TreeRecipe

variable {r : TreeRecipe} {how : Growth} {P : List Primitive → List Node → Prop}

/-- Every tree that the recipe grows as said, from any tree and any draws,
has the shape `P`. -/
def GrowsAs (r : TreeRecipe) (how : Growth) (P : List Primitive → List Node → Prop) : Prop :=
  ∀ (t : Tree) {l l' : Lab} {nodes : List Node},
    (t.growFrom how r.depth.1 r.depth.2 r.noNode 0 r.rootKind).run l = .ok nodes l' → P t.functions nodes

/-- A recipe grows, as said, trees of every shape when no shape is asked. -/
theorem growsAs_true (r : TreeRecipe) (how : Growth) : r.GrowsAs how fun _ _ => True :=
  fun _ _ _ _ _ => trivial

/-- Grown between the least and the greatest depth, every tree is a
`Tree.GrownBetween` list rooted at depth zero. -/
theorem growsAs_grow (r : TreeRecipe) (p : Value) :
    r.GrowsAs (.grow p) fun fs ns => Tree.GrownBetween fs r.depth.1 r.depth.2 0 ns :=
  fun _ _ _ _ h => Tree.growAt_grownBetween _ 0 h

/-- Grown full to a greatest depth at least zero, every tree is a full tree
of that depth. -/
theorem growsAs_full (h : 0 ≤ r.depth.2) : r.GrowsAs .full fun fs ns => Tree.FullTo fs r.depth.2 0 ns :=
  fun _ _ _ _ hrun => Tree.growAt_fullTo _ 0 h hrun

/-- Growing a tree in place hands no identity back. -/
theorem growIn_nextId_le {id : Nat} {s s' : Store} {u : Unit} (h : (r.growIn how id).run s = .ok u s') :
    s.lab.nextId ≤ s'.lab.nextId := by
  obtain ⟨i, j, s₁, -, hf, rfl⟩ := updateM_run_ok h
  split at hf
  · rename_i t _
    obtain ⟨nodes, s₂, hdraw, hf⟩ := bind_run_ok.1 hf
    obtain ⟨rfl, rfl⟩ := pure_run_ok.1 hf
    obtain ⟨hgrow, -⟩ := draw_run_ok hdraw
    have hsteady := Draw.Steady.growFrom t how r.depth.1 r.depth.2 r.noNode 0 r.rootKind s.lab
    rw [hgrow, stateOf_ok] at hsteady
    exact hsteady
  · obtain ⟨-, rfl⟩ := pure_run_ok.1 hf
    exact Nat.le_refl _

/-- **One growing pass** on an individual whose tree is empty gives it a tree
of the shape every growth has, and changes no other identity. -/
theorem growIn_shaped (hgrows : r.GrowsAs how P) {id : Nat} {s s' : Store} {u : Unit}
    (hempty : ShapedAt (fun _ ns => ns = []) id s.individuals[id]?) (h : (r.growIn how id).run s = .ok u s') :
    ShapedAt P id s'.individuals[id]? ∧ ∀ k, k ≠ id → s'.individuals[k]? = s.individuals[k]? := by
  obtain ⟨i, t, hi, hid, hg, hnil⟩ := hempty
  obtain ⟨nodes, hgrow, hstore⟩ := growIn_run hi hg h
  refine ⟨⟨{ i with genome := .tree { t with nodes := t.nodes ++ nodes } }, { t with nodes := t.nodes ++ nodes },
    ?_, hid, rfl, ?_⟩, fun k hk => ?_⟩
  · simp [hstore, hid]
  · rw [hnil, List.nil_append]
    exact hgrows t hgrow
  · simp only [hstore, Std.HashMap.getElem?_insert, beq_iff_eq, hid]
    rw [if_neg (Ne.symm hk)]

/-- **Creating trees of a recipe**: the identities answered are the `m` next
ones, each holding a tree of the shape every growth of the recipe has, and
no identity below them changes. -/
theorem create_shaped (hgrows : r.GrowsAs how P) {m : Nat} {hib : Value} {s s' : Store} {ids : List Nat}
    (h : (r.create (some how) m hib).run s = .ok ids s') :
    ids = List.range' s.lab.nextId m ∧ s.lab.nextId + m ≤ s'.lab.nextId ∧
      (∀ k < s.lab.nextId, s'.individuals[k]? = s.individuals[k]?) ∧ ∀ id ∈ ids, ShapedAt P id s'.individuals[id]? := by
  unfold TreeRecipe.create TreeRecipe.emptyTrees at h
  obtain ⟨ids, s₁, hmint, h⟩ := bind_run_ok.1 h
  dsimp only at h
  obtain ⟨u, s₂, hloop, h⟩ := bind_run_ok.1 h
  obtain ⟨rfl, rfl⟩ := pure_run_ok.1 h
  obtain ⟨hids, hnext⟩ := mintEach_ids _ _ _ _ _ hmint
  rw [List.length_range] at hids hnext
  obtain ⟨hlt, hframe₁, hheld⟩ := mintEach_run _ _ _ _ _ hmint
  -- minting leaves an empty tree under each new identity
  have hempty : ∀ id ∈ ids, ShapedAt (fun _ ns => ns = []) id s₁.individuals[id]? := fun id hid => by
    obtain ⟨-, f, t, hmake, hi⟩ := hheld id hid
    exact ⟨_, t, hi, rfl, rfl, Tree.make_nodes hmake⟩
  -- and the loop grows each of them once, the identities being distinct
  have hpass : ∀ id (s s' : Store) res, ShapedAt (fun _ ns => ns = []) id s.individuals[id]? →
      (do r.growIn how id; pure (ForInStep.yield PUnit.unit) : Run _).run s = .ok res s' →
      res = .yield PUnit.unit ∧ ShapedAt P id s'.individuals[id]? ∧
        ∀ k, k ≠ id → s'.individuals[k]? = s.individuals[k]? := by
    intro id s s' res hm h
    obtain ⟨_, s₃, hgrow, h⟩ := bind_run_ok.1 h
    obtain ⟨rfl, rfl⟩ := pure_run_ok.1 h
    exact ⟨rfl, growIn_shaped hgrows hm hgrow⟩
  obtain ⟨hgrown, hframe₂⟩ := forIn_each hpass ids (hlt.imp Nat.ne_of_lt) hempty hloop
  have hsteady : s₁.lab.nextId ≤ s₂.lab.nextId := forIn_nextId_le (fun id s s' res h => by
    obtain ⟨_, s₃, hgrow, h⟩ := bind_run_ok.1 h
    obtain ⟨rfl, rfl⟩ := pure_run_ok.1 h
    exact ⟨rfl, growIn_nextId_le hgrow⟩) ids hloop
  refine ⟨hids, by omega, fun k hk => ?_, hgrown⟩
  -- the identities below the first minted one are neither minted nor grown
  have hout : k ∉ ids := fun hk' => by
    rw [hids, List.mem_range'_1] at hk'
    omega
  rw [hframe₂ k hout, hframe₁ k hk]

/-! ### The groups of ramped half-and-half -/

/-- The recipe of ramped half-and-half's trees at depths `depth`: the
recipe's sets and root kind, with no bloat weight. -/
def part (r : TreeRecipe) (depth : Int × Int) : TreeRecipe :=
  { r with depth := depth, bloatWeight := .float 0.0, updateParents := false }

/-- The greatest depths of the groups, from the least depth to the greatest. -/
def rampDepths (r : TreeRecipe) : List Int :=
  (List.range (r.depth.2 + 1 - r.depth.1).toNat).map fun (i : Nat) => r.depth.1 + (i : Int)

/-- The number of trees of each group, for `n` trees in all. -/
def groupSize (r : TreeRecipe) (n : Nat) : Nat :=
  (Int.tdiv n (2 * (r.depth.2 + 1 - r.depth.1))).toNat

theorem rampDepths_length (r : TreeRecipe) : r.rampDepths.length = (r.depth.2 + 1 - r.depth.1).toNat := by
  rw [rampDepths, List.length_map, List.length_range]

theorem mem_rampDepths {d : Int} (hd : d ∈ r.rampDepths) : r.depth.1 ≤ d ∧ d ≤ r.depth.2 := by
  obtain ⟨i, hi, rfl⟩ := List.mem_map.1 hd
  rw [List.mem_range] at hi
  omega

/-- The last greatest depth is the greatest depth, when there is one. -/
theorem rampDepths_getLast? (h : r.depth.1 ≤ r.depth.2) : r.rampDepths.getLast? = some r.depth.2 := by
  rw [rampDepths, List.getLast?_map, List.getLast?_range, if_neg (by omega)]
  simp only [Option.map_some, Option.some.injEq]
  omega

/-- With a greatest depth at least the least, a group holds `n` divided by
twice the number of depths. -/
theorem groupSize_eq (h : r.depth.1 ≤ r.depth.2) (n : Nat) : r.groupSize n = n / (2 * r.rampDepths.length) := by
  have hcount : 2 * (r.depth.2 + 1 - r.depth.1) = ((2 * r.rampDepths.length : Nat) : Int) := by
    rw [rampDepths_length]
    omega
  rw [groupSize, hcount, ← Int.ofNat_tdiv, Int.toNat_natCast]

/-- The groups never hold more trees than were asked for. -/
theorem groupSize_mul_le (r : TreeRecipe) (n : Nat) : 2 * r.groupSize n * r.rampDepths.length ≤ n := by
  by_cases h : r.depth.1 ≤ r.depth.2
  · rw [groupSize_eq h, Nat.mul_comm 2, Nat.mul_assoc]
    exact Nat.div_mul_le_self n _
  · -- no depths, no groups
    have hnil : r.rampDepths.length = 0 := by
      rw [rampDepths_length]
      omega
    rw [hnil, Nat.mul_zero]
    exact Nat.zero_le n

/-- Block `b` is the pair of groups made at greatest depth `d`, as the store
`s` keeps them: `g` trees of shape `Pg d`, then `g` trees of shape `Pf d`. -/
def GroupAt (s : Store) (g : Nat) (Pg Pf : Int → List Primitive → List Node → Prop) (d : Int)
    (b : List Nat × List Nat) : Prop :=
  b.1.length = g ∧ b.2.length = g ∧ (∀ id ∈ b.1, ShapedAt (Pg d) id s.individuals[id]?) ∧
    ∀ id ∈ b.2, ShapedAt (Pf d) id s.individuals[id]?

theorem GroupAt.of_frame {s s' : Store} {g : Nat} {Pg Pf : Int → List Primitive → List Node → Prop} {d : Int}
    {b : List Nat × List Nat} (h : GroupAt s g Pg Pf d b)
    (hframe : ∀ id ∈ b.1 ++ b.2, s'.individuals[id]? = s.individuals[id]?) : GroupAt s' g Pg Pf d b := by
  obtain ⟨h1, h2, hg, hf⟩ := h
  refine ⟨h1, h2, fun id hid => ?_, fun id hid => ?_⟩
  · rw [hframe id (List.mem_append_left _ hid)]
    exact hg id hid
  · rw [hframe id (List.mem_append_right _ hid)]
    exact hf id hid

/-- The blocks of the groups hold two groups of `g` trees per depth. -/
theorem GroupAt.length_flatten {s : Store} {g : Nat} {Pg Pf : Int → List Primitive → List Node → Prop} :
    ∀ {ds : List Int} {blocks : List (List Nat × List Nat)}, List.Forall₂ (GroupAt s g Pg Pf) ds blocks →
      ((blocks.map fun b => b.1 ++ b.2).flatten).length = 2 * g * ds.length
  | [], [], .nil => rfl
  | _ :: _, _ :: _, .cons ⟨h1, h2, _⟩ hrest => by
    rw [List.map_cons, List.flatten_cons, List.length_append, List.length_append, h1, h2,
      GroupAt.length_flatten hrest, List.length_cons]
    ring

/-- Blocks whose identities all lie below `N` stay as they were kept, when
no identity below `N` changes. -/
theorem GroupAt.forall₂_of_frame {s s' : Store} {g N : Nat} {Pg Pf : Int → List Primitive → List Node → Prop}
    (hframe : ∀ k < N, s'.individuals[k]? = s.individuals[k]?) :
    ∀ {ds : List Int} {blocks : List (List Nat × List Nat)}, (∀ b ∈ blocks, ∀ id ∈ b.1 ++ b.2, id < N) →
      List.Forall₂ (GroupAt s g Pg Pf) ds blocks → List.Forall₂ (GroupAt s' g Pg Pf) ds blocks
  | [], [], _, .nil => .nil
  | _ :: _, b :: _, hbelow, .cons hb hrest =>
    .cons (hb.of_frame fun id hid => hframe id (hbelow b List.mem_cons_self id hid))
      (GroupAt.forall₂_of_frame hframe (fun b' hb' => hbelow b' (List.mem_cons_of_mem b hb')) hrest)

variable {Pg Pf : Int → List Primitive → List Node → Prop}

/-- **The loop of groups.**  Run over greatest depths `ds` from identities
`acc`, the loop appends one block per depth, the identities of a grown group
then of a full group, each of `g` trees of the shape its recipe grows.  Every
identity it makes lies below the next one at the end, and no identity below
the next one at the start changes. -/
theorem forIn_groups_run {lo : Int} {g : Nat} {hib : Value} :
    ∀ (ds : List Int), (∀ d ∈ ds, (r.part (lo, d)).GrowsAs (.grow (.float 0.5)) (Pg d) ∧
        (r.part (lo, d)).GrowsAs .full (Pf d)) →
      ∀ {acc : List Nat} {last : Int × Int} {s s' : Store} {res : List Nat × (Int × Int)},
      (forIn (m := Run) ds (acc, last) fun d st => do
          let grown ← (r.part (lo, d)).create (some (.grow (.float 0.5))) g hib
          let full ← (r.part (lo, d)).create (some .full) g hib
          pure (ForInStep.yield (st.1 ++ grown ++ full, lo, d))).run s = .ok res s' →
      ∃ blocks : List (List Nat × List Nat), res.1 = acc ++ (blocks.map fun b => b.1 ++ b.2).flatten ∧
        res.2 = (ds.getLast?.map (lo, ·)).getD last ∧ s.lab.nextId ≤ s'.lab.nextId ∧
        (∀ k < s.lab.nextId, s'.individuals[k]? = s.individuals[k]?) ∧
        (∀ b ∈ blocks, ∀ id ∈ b.1 ++ b.2, id < s'.lab.nextId) ∧ List.Forall₂ (GroupAt s' g Pg Pf) ds blocks
  | [], _, acc, last, s, s', res, h => by
    rw [List.forIn_nil] at h
    obtain ⟨rfl, rfl⟩ := pure_run_ok.1 h
    exact ⟨[], by simp, rfl, Nat.le_refl _, fun _ _ => rfl, by simp, .nil⟩
  | d :: ds, hshapes, acc, last, s, s', res, h => by
    rw [List.forIn_cons] at h
    obtain ⟨step, s₂, hstep, h⟩ := bind_run_ok.1 h
    obtain ⟨grown, s₀, hgrown, hstep⟩ := bind_run_ok.1 hstep
    obtain ⟨full, s₁, hfull, hstep⟩ := bind_run_ok.1 hstep
    obtain ⟨rfl, rfl⟩ := pure_run_ok.1 hstep
    obtain ⟨hg, hf⟩ := hshapes d List.mem_cons_self
    obtain ⟨rfl, hnext₀, hframe₀, hheld₀⟩ := create_shaped hg hgrown
    obtain ⟨rfl, hnext₁, hframe₁, hheld₁⟩ := create_shaped hf hfull
    obtain ⟨blocks, hres₁, hres₂, hnext, hframe, hbelow, hgroups⟩ :=
      forIn_groups_run ds (fun d hd => hshapes d (List.mem_cons_of_mem _ hd)) h
    -- the two groups of this depth lie below the next identity once they are made
    have hnew : ∀ id ∈ List.range' s.lab.nextId g ++ List.range' s₀.lab.nextId g, id < s₁.lab.nextId := by
      intro id hid
      rcases List.mem_append.1 hid with hid | hid <;> rw [List.mem_range'_1] at hid <;> omega
    refine ⟨(List.range' s.lab.nextId g, List.range' s₀.lab.nextId g) :: blocks, ?_, ?_, by omega, fun k hk => ?_,
      ?_, .cons ?_ hgroups⟩
    · rw [hres₁, List.map_cons, List.flatten_cons]
      simp only [List.append_assoc]
    · rw [hres₂, List.getLast?_cons]
      cases ds.getLast? <;> rfl
    · rw [hframe k (by omega), hframe₁ k (by omega), hframe₀ k hk]
    · intro b hb id hid
      rcases List.mem_cons.1 hb with rfl | hb
      · exact Nat.lt_of_lt_of_le (hnew id hid) hnext
      · exact hbelow b hb id hid
    · -- the grown group outlives the full group, and both outlive the later depths
      refine GroupAt.of_frame ⟨List.length_range', List.length_range', fun id hid => ?_, hheld₁⟩ fun id hid =>
        hframe id (hnew id hid)
      rw [hframe₁ id (by rw [List.mem_range'_1] at hid; omega)]
      exact hheld₀ id hid

/-! ### Ramped half-and-half -/

/-- With no groups, the division by their count fails before anything is
made. -/
theorem rampedHalf_run_of_no_groups (h : r.depth.1 = r.depth.2 + 1) (n : Nat) (hib : Value) (s : Store) :
    (r.rampedHalf n hib).run s = .error ⟨.divisionByZero, "division by zero"⟩ s := by
  obtain ⟨fs, ts, erc, root, ⟨lo, hi⟩, bw, up⟩ := r
  dsimp only at h
  unfold rampedHalf
  dsimp only
  rw [if_pos (by omega)]
  rfl

/-- With groups of no trees, ramped half-and-half fails asking for more
individuals, before anything is made. -/
theorem rampedHalf_run_of_no_size (h : r.depth.1 ≠ r.depth.2 + 1) {n : Nat}
    (hsize : Int.tdiv n (2 * (r.depth.2 + 1 - r.depth.1)) = 0) (hib : Value) (s : Store) :
    (r.rampedHalf n hib).run s = .error (Fault.value ("Incompatible population size and init_depth. " ++
      "Population size must be at least " ++ toString (2 * (r.depth.2 + 1 - r.depth.1)) ++ ".")) s := by
  obtain ⟨fs, ts, erc, root, ⟨lo, hi⟩, bw, up⟩ := r
  dsimp only at h hsize ⊢
  unfold rampedHalf
  dsimp only
  rw [if_neg (by omega), if_pos hsize]
  rfl

/-- **The run of ramped half-and-half**, once both checks pass: one block
per greatest depth, each a grown group then a full group of the group size,
then the rest, full to the last depth.  The shapes are what the recipes at
those depths grow. -/
theorem rampedHalf_run_ok {Pr : List Primitive → List Node → Prop}
    (hshapes : ∀ d ∈ r.rampDepths, (r.part (r.depth.1, d)).GrowsAs (.grow (.float 0.5)) (Pg d) ∧
      (r.part (r.depth.1, d)).GrowsAs .full (Pf d))
    (hrest : (r.part ((r.rampDepths.getLast?.map (r.depth.1, ·)).getD r.depth)).GrowsAs .full Pr)
    {n : Nat} {hib : Value} {s s' : Store} {ids : List Nat} (h : (r.rampedHalf n hib).run s = .ok ids s') :
    ∃ blocks rest, ids = (blocks.map fun b => b.1 ++ b.2).flatten ++ rest ∧
      List.Forall₂ (GroupAt s' (r.groupSize n) Pg Pf) r.rampDepths blocks ∧
      rest.length = n - 2 * r.groupSize n * r.rampDepths.length ∧ ∀ id ∈ rest, ShapedAt Pr id s'.individuals[id]? := by
  obtain ⟨fs, ts, erc, root, ⟨lo, hi⟩, bw, up⟩ := r
  unfold rampedHalf at h
  dsimp only at h
  -- both checks passed
  split at h
  · cases h
  split at h
  · cases h
  obtain ⟨res, s₁, hloop, h⟩ := bind_run_ok.1 h
  obtain ⟨blocks, hres₁, hres₂, -, -, hbelow, hgroups⟩ := forIn_groups_run _ hshapes hloop
  have hlen := GroupAt.length_flatten hgroups
  rw [List.nil_append] at hres₁
  split at h
  next =>
    -- the groups fall short: the rest is grown full, above every identity of the groups
    obtain ⟨rest, s₂, hcreate, h⟩ := bind_run_ok.1 h
    obtain ⟨rfl, rfl⟩ := pure_run_ok.1 h
    rw [hres₂] at hcreate
    obtain ⟨rfl, -, hframe, hheld⟩ := create_shaped hrest hcreate
    refine ⟨blocks, _, by rw [hres₁], GroupAt.forall₂_of_frame hframe hbelow hgroups, ?_, hheld⟩
    rw [List.length_range', hres₁, hlen]
    rfl
  next hge =>
    obtain ⟨rfl, rfl⟩ := pure_run_ok.1 h
    refine ⟨blocks, [], by rw [hres₁, List.append_nil], hgroups, ?_, fun id hid => absurd hid List.not_mem_nil⟩
    rw [hres₁, hlen] at hge
    exact (Nat.sub_eq_zero_of_le (Nat.le_of_not_lt hge)).symm

/-- **Ramped half-and-half makes exactly the trees it promises, or fails.**
With least and greatest depths `lo` and `hi`: when `lo = hi + 1` there are
no groups and the division by their count fails; when the groups would be
empty the creator fails asking for more individuals; and whenever it answers,
it answers exactly `n` identities.  With `0 ≤ lo ≤ hi` these are, for each
greatest depth `d` from `lo` to `hi` in turn, `n / (2 (hi + 1 - lo))` trees
grown between `lo` and `d` and as many full trees of depth `d`, then the
rest, full trees of depth `hi`. -/
theorem rampedHalf_groups (r : TreeRecipe) (n : Nat) (hib : Value) (s : Store) :
    (r.depth.1 = r.depth.2 + 1 → (r.rampedHalf n hib).run s = .error ⟨.divisionByZero, "division by zero"⟩ s) ∧
    (r.depth.1 ≠ r.depth.2 + 1 → Int.tdiv n (2 * (r.depth.2 + 1 - r.depth.1)) = 0 →
      (r.rampedHalf n hib).run s = .error (Fault.value ("Incompatible population size and init_depth. " ++
        "Population size must be at least " ++ toString (2 * (r.depth.2 + 1 - r.depth.1)) ++ ".")) s) ∧
    ∀ ids s', (r.rampedHalf n hib).run s = .ok ids s' → ids.length = n ∧
      (0 ≤ r.depth.1 → r.depth.1 ≤ r.depth.2 →
        ∃ blocks rest, ids = (blocks.map fun b => b.1 ++ b.2).flatten ++ rest ∧
          List.Forall₂ (GroupAt s' (n / (2 * r.rampDepths.length))
            (fun d fs ns => Tree.GrownBetween fs r.depth.1 d 0 ns) (fun d fs ns => Tree.FullTo fs d 0 ns))
            r.rampDepths blocks ∧
          rest.length = n - 2 * (n / (2 * r.rampDepths.length)) * r.rampDepths.length ∧
          ∀ id ∈ rest, ShapedAt (fun fs ns => Tree.FullTo fs r.depth.2 0 ns) id s'.individuals[id]?) := by
  refine ⟨fun h => rampedHalf_run_of_no_groups h n hib s, fun h hsize => rampedHalf_run_of_no_size h hsize hib s,
    fun ids s' h => ⟨?_, fun h0 hle => ?_⟩⟩
  · -- the count, whatever the depths: the groups, then the rest up to `n`
    obtain ⟨blocks, rest, rfl, hgroups, hrest, -⟩ := rampedHalf_run_ok
      (fun _ _ => ⟨growsAs_true _ _, growsAs_true _ _⟩) (growsAs_true _ _) h
    rw [List.length_append, GroupAt.length_flatten hgroups, hrest]
    have := r.groupSize_mul_le n
    omega
  · -- the shapes: every greatest depth is at least the least, so at least zero
    have hshapes : ∀ d ∈ r.rampDepths, (r.part (r.depth.1, d)).GrowsAs (.grow (.float 0.5))
        (fun fs ns => Tree.GrownBetween fs r.depth.1 d 0 ns) ∧
        (r.part (r.depth.1, d)).GrowsAs .full (fun fs ns => Tree.FullTo fs d 0 ns) := fun d hd =>
      ⟨growsAs_grow _ _, growsAs_full (r := r.part (r.depth.1, d)) (by have := (mem_rampDepths hd).1; exact Int.le_trans h0 this)⟩
    have hlast : (r.part ((r.rampDepths.getLast?.map (r.depth.1, ·)).getD r.depth)).GrowsAs .full
        (fun fs ns => Tree.FullTo fs r.depth.2 0 ns) := by
      rw [rampDepths_getLast? hle]
      exact growsAs_full (r := r.part r.depth) (Int.le_trans h0 hle)
    obtain ⟨blocks, rest, hids, hgroups, hrest, hheld⟩ := rampedHalf_run_ok hshapes hlast h
    rw [groupSize_eq hle] at hgroups hrest
    exact ⟨blocks, rest, hids, hgroups, hrest, hheld⟩

/-! ### Two leaves, and no groups -/

/-- Trees over `f_add` and `x`, between depths zero and zero. -/
def leafRecipe : TreeRecipe :=
  ⟨[.prim .add], .keys [Atom.make (.str "x") 0], none, none, (0, 0), .float 0.0, false⟩

/-- Streams of zero words, before any individual. -/
def leafStore : Store := ⟨⟨⟨⟨#[0, 0, 0, 0], 0⟩, none⟩, ⟨#[], 0⟩, 1, 0⟩, {}, []⟩

/-- The individual `id` as minted, with the empty tree of `leafRecipe`. -/
def leafFresh (id : Nat) : Individual :=
  Individual.fresh id (.tree ⟨[.add], [⟨Atom.make (.str "x") 0, none⟩], none, none, []⟩)
    ⟨.bloated (.float 0.0), .none, false, .bool true, false, false, none, none⟩ false

/-- The individual `id` once its tree is grown to the leaf `x`. -/
def leafGrown (id : Nat) : Individual :=
  { leafFresh id with
    genome := .tree ⟨[.add], [⟨Atom.make (.str "x") 0, none⟩], none, none, [] ++ [.term (Atom.make (.str "x") 0) none]⟩ }

/-- The store once the grown group of one leaf is made. -/
def leafGrownStore : Store :=
  ⟨{ leafStore.lab with nextId := 2, stream := ⟨⟨#[0, 0, 0, 0], 1⟩, none⟩ },
    (leafStore.individuals.insert 1 (leafFresh 1)).insert 1 (leafGrown 1), []⟩

/-- The store once the full group of one leaf is made too. -/
def leafCreated : Store :=
  ⟨{ leafStore.lab with nextId := 3, stream := ⟨⟨#[0, 0, 0, 0], 2⟩, none⟩ },
    (leafGrownStore.individuals.insert 2 (leafFresh 2)).insert 2 (leafGrown 2), []⟩

/-- Two trees of `leafRecipe`: a group of one leaf grown and a group of one
leaf full, at the greatest depth zero, and no rest. -/
theorem rampedHalf_groups_leaves :
    (leafRecipe.rampedHalf 2 (.bool true)).run leafStore = .ok [1, 2] leafCreated ∧ [1, 2].length = 2 ∧
      ∃ blocks rest, [1, 2] = (blocks.map fun b => b.1 ++ b.2).flatten ++ rest ∧
        List.Forall₂ (GroupAt leafCreated (2 / (2 * leafRecipe.rampDepths.length))
          (fun d fs ns => Tree.GrownBetween fs leafRecipe.depth.1 d 0 ns) (fun d fs ns => Tree.FullTo fs d 0 ns))
          leafRecipe.rampDepths blocks ∧
        rest.length = 2 - 2 * (2 / (2 * leafRecipe.rampDepths.length)) * leafRecipe.rampDepths.length ∧
        ∀ id ∈ rest, ShapedAt (fun fs ns => Tree.FullTo fs leafRecipe.depth.2 0 ns) id leafCreated.individuals[id]? := by
  -- each group mints its leaf, then reads the leaf back to grow it
  have hgrown : ((leafRecipe.part (0, 0)).create (some (.grow (.float 0.5))) 1 (.bool true)).run leafStore =
      .ok [1] leafGrownStore := by
    unfold TreeRecipe.create
    refine bind_run_ok.2 ⟨[1], ⟨{ leafStore.lab with nextId := 2 }, leafStore.individuals.insert 1 (leafFresh 1), []⟩,
      rfl, ?_⟩
    dsimp only
    simp only [List.forIn_cons, List.forIn_nil, EStateM.run_bind, TreeRecipe.growIn, updateM, get_run_cases,
      Std.HashMap.getElem?_insert_self]
    rfl
  have hfull : ((leafRecipe.part (0, 0)).create (some .full) 1 (.bool true)).run leafGrownStore =
      .ok [2] leafCreated := by
    unfold TreeRecipe.create
    refine bind_run_ok.2 ⟨[2], ⟨{ leafGrownStore.lab with nextId := 3 },
      leafGrownStore.individuals.insert 2 (leafFresh 2), []⟩, rfl, ?_⟩
    dsimp only
    simp only [List.forIn_cons, List.forIn_nil, EStateM.run_bind, TreeRecipe.growIn, updateM, get_run_cases,
      Std.HashMap.getElem?_insert_self]
    rfl
  have hrun : (leafRecipe.rampedHalf 2 (.bool true)).run leafStore = .ok [1, 2] leafCreated := by
    rw [TreeRecipe.rampedHalf]
    dsimp only [leafRecipe]
    rw [if_neg (by decide), if_neg (by decide)]
    -- one greatest depth, zero; the two groups make both trees, so there is no rest
    refine bind_run_ok.2 ⟨([1, 2], (0, 0)), leafCreated, ?_, rfl⟩
    simp only [Int.reduceAdd, Int.reduceSub, Int.reduceToNat, List.range_one, List.map_cons, List.map_nil,
      List.forIn_cons, List.forIn_nil]
    refine bind_run_ok.2 ⟨.yield ([1, 2], (0, 0)), leafCreated, ?_, rfl⟩
    refine bind_run_ok.2 ⟨[1], leafGrownStore, hgrown, ?_⟩
    exact bind_run_ok.2 ⟨[2], leafCreated, hfull, rfl⟩
  obtain ⟨hlen, hshape⟩ := (rampedHalf_groups leafRecipe 2 (.bool true) leafStore).2.2 _ _ hrun
  exact ⟨hrun, hlen, hshape (Int.le_refl 0) (Int.le_refl 0)⟩

/-- Trees over `f_add` and `x` from the least depth one to the greatest depth
zero: no greatest depth lies between them. -/
def emptyRangeRecipe : TreeRecipe :=
  ⟨[.prim .add], .keys [Atom.make (.str "x") 0], none, none, (1, 0), .float 0.0, false⟩

/-- **No depths, no groups.**  Creating two trees ramped half-and-half from
the least depth one to the greatest depth zero, at the start of a request,
neither answers trees nor fails asking for more individuals: the count of
groups is zero, and dividing by it fails, leaving the store as it was. -/
theorem createIndividuals_divides_by_no_groups :
    ((Creator.rampedHalf emptyRangeRecipe).createIndividuals 2 (.bool true)).run Store.start =
      .error ⟨.divisionByZero, "division by zero"⟩ Store.start :=
  rampedHalf_run_of_no_groups (r := emptyRangeRecipe) rfl 2 _ Store.start

end TreeRecipe

end Evolver
