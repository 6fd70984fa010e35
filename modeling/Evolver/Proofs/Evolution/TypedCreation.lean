import Evolver.Proofs.Tree.Grow
import Evolver.Proofs.Evolution.Creation
import Evolver.Proofs.Store.Preserves
/-!
# Typed trees as they are created

A tree creator mints its individuals with empty trees of its recipe, then
grows each tree in place.  `Tree.growFrom_fills` says what one growth gives:
nodes that fill the root slot of the grown layout, the layout of kinds in
which a random constant may stand in any slot of a number kind.  This module
carries that through the minting loop (`Run.mintEach_run`) and the growing
loop (`Run.forIn_each`): every individual a tree creator answers holds a tree
with the recipe's root kind whose nodes fill the grown layout, and which is
well typed when the recipe has no range of constants
(`Creator.createIndividuals_typed_but_constants`).

The exception is real: over `and2bools` and a range of ints, a draw puts an
int constant in a bool slot (`Creator.createIndividuals_puts_int_constant_under_bool`).
-/

namespace Evolver

open Run

namespace Run

/-- Changing an individual in place: it was kept, the computation answered
its new version, and that is put under its own identity. -/
theorem updateM_run_ok {id : Nat} {f : Individual → Run Individual} {s s' : Store} {u : Unit}
    (h : (updateM id f).run s = .ok u s') :
    ∃ i j s₁, s.individuals[id]? = some i ∧ (f i).run s = .ok j s₁ ∧
      s' = { s₁ with individuals := s₁.individuals.insert j.id j } := by
  unfold updateM at h
  obtain ⟨i, s₀, hget, hrest⟩ := bind_run_ok.1 h
  obtain ⟨hi, rfl⟩ := get_run_ok hget
  obtain ⟨j, s₁, hf, hput⟩ := bind_run_ok.1 hrest
  rw [put_run] at hput
  cases hput
  exact ⟨i, j, s₁, hi, hf, rfl⟩

/-- **A loop over distinct identities**, each pass turning `P` of its own
identity into `Q` and changing no other identity, ends with `Q` of every
identity it visited and every other identity as it was. -/
theorem forIn_each {body : Nat → PUnit → Run (ForInStep PUnit)} {P Q : Nat → Option Individual → Prop}
    (hstep : ∀ id (s s' : Store) r, P id s.individuals[id]? → (body id PUnit.unit).run s = .ok r s' →
      r = .yield PUnit.unit ∧ Q id s'.individuals[id]? ∧ ∀ k, k ≠ id → s'.individuals[k]? = s.individuals[k]?) :
    ∀ (ids : List Nat) {s s' : Store} {u : PUnit}, ids.Nodup → (∀ id ∈ ids, P id s.individuals[id]?) →
      (forIn ids PUnit.unit body).run s = .ok u s' →
        (∀ id ∈ ids, Q id s'.individuals[id]?) ∧ ∀ k ∉ ids, s'.individuals[k]? = s.individuals[k]?
  | [], s, s', u, _, _, h => by
    rw [List.forIn_nil] at h
    obtain ⟨-, rfl⟩ := pure_run_ok.1 h
    exact ⟨fun _ h => absurd h List.not_mem_nil, fun _ _ => rfl⟩
  | new :: ids, s, s', u, hnd, hP, h => by
    rw [List.forIn_cons] at h
    obtain ⟨r, s₁, hr, h⟩ := bind_run_ok.1 h
    obtain ⟨rfl, hQ, hframe⟩ := hstep new s s₁ r (hP new List.mem_cons_self) hr
    obtain ⟨hnew, hnd'⟩ := List.nodup_cons.1 hnd
    -- the first pass left the identities still to visit as they were
    have hP' : ∀ id ∈ ids, P id s₁.individuals[id]? := fun id hid => by
      rw [hframe id (fun he => hnew (he ▸ hid))]
      exact hP id (List.mem_cons_of_mem new hid)
    obtain ⟨hQs, hframe'⟩ := forIn_each hstep ids hnd' hP' h
    refine ⟨fun id hid => ?_, fun k hk => ?_⟩
    · rcases List.mem_cons.1 hid with rfl | hid
      · rw [hframe' id hnew]
        exact hQ
      · exact hQs id hid
    · rw [hframe' k (fun h => hk (List.mem_cons_of_mem new h)),
        hframe k (fun h => hk (h ▸ List.mem_cons_self))]

/-- **A loop of mints** answers increasing identities from the next one on,
each holding the fresh individual of the genome made, and leaves every
identity below the next one as it was. -/
theorem mintEach_run {γ α : Type} (fit : Except Fault Fitness) (x : Except Fault α) (g : α → Genome) (u : Bool) :
    ∀ (xs : List γ) {s s' : Store} {ids : List Nat},
      (xs.mapM fun _ => Run.ofExcept fit >>= fun f => mintOf f x g u).run s = .ok ids s' →
        ids.Pairwise (· < ·) ∧ (∀ k < s.lab.nextId, s'.individuals[k]? = s.individuals[k]?) ∧
          ∀ id ∈ ids, s.lab.nextId ≤ id ∧ ∃ f a, x = .ok a ∧
            s'.individuals[id]? = some (Individual.fresh id (g a) f u)
  | [], s, s', ids, h => by
    obtain ⟨rfl, rfl⟩ := pure_run_ok.1 h
    exact ⟨.nil, fun _ _ => rfl, fun _ h => absurd h List.not_mem_nil⟩
  | y :: xs, s, s', ids, h => by
    rw [List.mapM_cons] at h
    obtain ⟨new, s₁, hmint, h⟩ := bind_run_ok.1 h
    obtain ⟨rest, s₂, hrest, h⟩ := bind_run_ok.1 h
    obtain ⟨rfl, rfl⟩ := pure_run_ok.1 h
    obtain ⟨f, -, hmint⟩ := ofExcept_bind_run_ok.1 hmint
    rw [mintOf_run] at hmint
    cases hx : x with
    | error e =>
      rw [hx] at hmint
      cases hmint
    | ok a =>
      rw [hx] at hmint
      cases hmint
      -- the rest of the loop mints from the identity after this one
      obtain ⟨hlt, hframe, hheld⟩ := mintEach_run fit x g u xs hrest
      have hnext : (s.keepNext (Individual.fresh s.lab.nextId (g a) f u)).lab.nextId = s.lab.nextId + 1 := rfl
      rw [hnext] at hframe hheld
      refine ⟨List.Pairwise.cons (fun id hid => ?_) hlt, fun k hk => ?_, fun id hid => ?_⟩
      · have := (hheld id hid).1
        omega
      · rw [hframe k (by omega)]
        simp [Store.keepNext, Std.HashMap.getElem?_insert, Nat.ne_of_gt hk]
      · rcases List.mem_cons.1 hid with rfl | hid
        · refine ⟨Nat.le_refl _, f, a, rfl, ?_⟩
          rw [hframe _ (by omega)]
          simp [Store.keepNext]
        · obtain ⟨hge, hrest'⟩ := hheld id hid
          rw [hx] at hrest'
          exact ⟨by omega, hrest'⟩

end Run

namespace TreeRecipe

variable {r : TreeRecipe} {how : Growth} {id : Nat} {s s' : Store}

/-- **One growing pass**: the individual kept under `id` holds a tree; its
tree gets the nodes grown from the recipe's root kind, and the individual is
put back under its identity. -/
theorem growIn_run {u : Unit} {i : Individual} {t : Tree} (hi : s.individuals[id]? = some i)
    (hg : i.genome = .tree t) (h : (r.growIn how id).run s = .ok u s') :
    ∃ nodes, (t.growFrom how r.depth.1 r.depth.2 r.noNode 0 r.rootKind).run s.lab = .ok nodes s'.lab ∧
      s'.individuals = s.individuals.insert i.id { i with genome := .tree { t with nodes := t.nodes ++ nodes } } := by
  obtain ⟨i', j, s₁, hi', hf, rfl⟩ := updateM_run_ok h
  rw [hi] at hi'
  cases hi'
  rw [hg] at hf
  obtain ⟨nodes, s₂, hdraw, hf⟩ := bind_run_ok.1 hf
  obtain ⟨rfl, rfl⟩ := pure_run_ok.1 hf
  obtain ⟨hgrow, hsame⟩ := draw_run_ok hdraw
  exact ⟨nodes, hgrow, by rw [hsame]⟩

/-- Kept under `id`: the individual of that identity with an empty tree of
the recipe's root kind, made over typed sets, as minting leaves it. -/
def MintedAt (r : TreeRecipe) (id : Nat) (o : Option Individual) : Prop :=
  ∃ i t, o = some i ∧ i.id = id ∧ i.genome = .tree t ∧ t.TypedSets ∧ t.rootKind = r.rootKind ∧ t.nodes = []

/-- Kept under `id`: the individual of that identity with a tree of the
recipe's root kind whose nodes fill the grown layout. -/
def GrownAt (r : TreeRecipe) (id : Nat) (o : Option Individual) : Prop :=
  ∃ i t, o = some i ∧ i.id = id ∧ i.genome = .tree t ∧ t.rootKind = r.rootKind ∧
    (Tree.Layout.grown t).Fills [t.rootKind] t.nodes

/-- Growing a minted individual gives it a tree that fills the grown layout,
and changes no other identity. -/
theorem growIn_grownAt {u : Unit} (hm : r.MintedAt id s.individuals[id]?) (h : (r.growIn how id).run s = .ok u s') :
    r.GrownAt id s'.individuals[id]? ∧ ∀ k, k ≠ id → s'.individuals[k]? = s.individuals[k]? := by
  obtain ⟨i, t, hi, hid, hg, hsets, hroot, hnodes⟩ := hm
  obtain ⟨nodes, hgrow, hstore⟩ := growIn_run hi hg h
  rw [← hroot] at hgrow
  refine ⟨⟨{ i with genome := .tree { t with nodes := t.nodes ++ nodes } }, { t with nodes := t.nodes ++ nodes },
    ?_, hid, rfl, hroot, ?_⟩, fun k hk => ?_⟩
  · simp [hstore, hid]
  · rw [hnodes, List.nil_append]
    exact Tree.growFrom_fills hsets hgrow
  · simp only [hstore, Std.HashMap.getElem?_insert, beq_iff_eq, hid]
    rw [if_neg (Ne.symm hk)]

/-- A grown individual holds a tree of the recipe's root kind that fills the
grown layout; without a range of constants, a well-typed one. -/
theorem GrownAt.holdsTree (hg : r.GrownAt id s.individuals[id]?) :
    ∃ t, s.HoldsTree id t ∧ t.rootKind = r.rootKind ∧ (Tree.Layout.grown t).Fills [t.rootKind] t.nodes ∧
      (t.erc = none → t.WellTyped) := by
  obtain ⟨i, t, hi, hid, hgen, hroot, hfills⟩ := hg
  refine ⟨t, ⟨i, hi, hid, hgen⟩, hroot, hfills, fun herc => ?_⟩
  unfold Tree.WellTyped
  rw [← Tree.Layout.grown_eq_kinds herc]
  exact hfills

end TreeRecipe

namespace Creator

/-- **Created trees are typed, but for their constants.**  A tree creator
over a mapping of terminals, grown full or grown, answers `n` identities;
each holds a tree of the recipe's root kind whose nodes fill the grown layout:
every node has the kind its place asks for, save that a random constant may
stand in any slot of a number kind.  Without a range of constants the tree is
well typed. -/
theorem createIndividuals_typed_but_constants {r : TreeRecipe} {ks : List (Atom × Option Kind)}
    (hts : r.terminals = .kinds ks) (how : Growth) {n : Nat} {hib : Value} {s s' : Store} {ids : List Nat}
    (h : ((Creator.trees r (some how)).createIndividuals n hib).run s = .ok ids s') :
    ids.length = n ∧ ∀ id ∈ ids, ∃ t, s'.HoldsTree id t ∧ t.rootKind = r.rootKind ∧
      (Tree.Layout.grown t).Fills [t.rootKind] t.nodes ∧ (t.erc = none → t.WellTyped) := by
  unfold Creator.createIndividuals TreeRecipe.create TreeRecipe.emptyTrees at h
  obtain ⟨ids₀, s₁, hmint, h⟩ := bind_run_ok.1 h
  dsimp only at h
  obtain ⟨u, s₂, hloop, h⟩ := bind_run_ok.1 h
  obtain ⟨rfl, rfl⟩ := pure_run_ok.1 h
  have hlen := mapM_length _ hmint
  obtain ⟨hlt, -, hmint⟩ := mintEach_run _ _ _ _ _ hmint
  -- minting leaves an empty tree over typed sets under each new identity
  have hminted : ∀ id ∈ ids₀, r.MintedAt id s₁.individuals[id]? := fun id hid => by
    obtain ⟨-, f, t, hmake, hheld⟩ := hmint id hid
    rw [hts] at hmake
    obtain ⟨hsets, hroot, hnodes⟩ := Tree.make_typedSets hmake
    exact ⟨_, t, hheld, rfl, rfl, hsets, hroot, hnodes⟩
  -- and the loop grows each of them once, the identities being distinct
  have hpass : ∀ id (s s' : Store) res, r.MintedAt id s.individuals[id]? →
      (do r.growIn how id; pure (ForInStep.yield PUnit.unit) : Run _).run s = .ok res s' →
      res = .yield PUnit.unit ∧ r.GrownAt id s'.individuals[id]? ∧
        ∀ k, k ≠ id → s'.individuals[k]? = s.individuals[k]? := by
    intro id s s' res hm h
    obtain ⟨_, s₃, hgrow, h⟩ := bind_run_ok.1 h
    obtain ⟨rfl, rfl⟩ := pure_run_ok.1 h
    exact ⟨rfl, TreeRecipe.growIn_grownAt hm hgrow⟩
  obtain ⟨hgrown, -⟩ := forIn_each hpass ids₀ (hlt.imp Nat.ne_of_lt) hminted hloop
  exact ⟨by rw [hlen, List.length_range], fun id hid => (hgrown id hid).holdsTree⟩

/-! ### Bool trees over a range of ints -/

/-- Trees of kind bool over the functions `and2bools` and `and2ints`, the
terminal `b` of kind bool and the constants from 0 to 5, grown full to depth
one. -/
def boolAndRecipe : TreeRecipe :=
  ⟨[.prim .and2bools, .prim .and2ints], .kinds [(Atom.make (.str "b") 0, some .bool)], some (.int 0, .int 5),
    some .bool, (1, 1), .float 0.0, false⟩

/-- The empty tree of `boolAndRecipe`. -/
def boolAndTree : Tree :=
  ⟨[.and2bools, .and2ints], [⟨Atom.make (.str "b") 0, some .bool⟩], some (.int 0, .int 5), some .bool, []⟩

/-- Streams whose five words draw `and2bools`, then for the first argument
the constant 2 and picks it, then for the second the constant 2 and picks `b`. -/
def boolAndLab : Lab := ⟨⟨⟨#[0, 32768, 32768, 32768, 0], 0⟩, none⟩, ⟨#[], 0⟩, 1, 0⟩

/-- The store before creation: no individuals yet. -/
def boolAndStore : Store := ⟨boolAndLab, {}, []⟩

/-- `and2bools(2, b)`, with the constant typed int. -/
def boolAndGrown : List Node :=
  [.func .and2bools, .term (Atom.make (.int 2) 0) (some .int), .term (Atom.make (.str "b") 0) (some .bool)]

/-- The individual minted with the empty tree. -/
def boolAndFresh : Individual :=
  Individual.fresh 1 (.tree boolAndTree) ⟨.bloated (.float 0.0), .none, false, .bool true, false, false, none, none⟩
    false

/-- The store once the tree of `boolAndFresh` is grown. -/
def boolAndCreated : Store :=
  ⟨{ boolAndLab with nextId := 2, stream := ⟨⟨#[0, 32768, 32768, 32768, 0], 5⟩, none⟩ },
    (boolAndStore.individuals.insert 1 boolAndFresh).insert 1
      { boolAndFresh with genome := .tree { boolAndTree with nodes := boolAndGrown } }, []⟩

/-- Creating one tree of `boolAndRecipe`: the empty tree is minted under
identity one, then grown to `and2bools(2, b)`. -/
theorem createIndividuals_run_boolAnd :
    ((Creator.trees boolAndRecipe (some .full)).createIndividuals 1 (.bool true)).run boolAndStore =
      .ok [1] boolAndCreated := by
  unfold Creator.createIndividuals TreeRecipe.create
  refine bind_run_ok.2 ⟨[1], ⟨{ boolAndLab with nextId := 2 }, boolAndStore.individuals.insert 1 boolAndFresh, []⟩,
    rfl, ?_⟩
  dsimp only
  -- the growing pass reads back the individual just minted
  simp only [List.forIn_cons, List.forIn_nil, EStateM.run_bind, TreeRecipe.growIn, updateM, get_run_cases,
    Std.HashMap.getElem?_insert_self]
  rfl

theorem createIndividuals_typed_boolAnd :
    [1].length = 1 ∧ ∀ id ∈ [1], ∃ t, boolAndCreated.HoldsTree id t ∧ t.rootKind = boolAndRecipe.rootKind ∧
      (Tree.Layout.grown t).Fills [t.rootKind] t.nodes ∧ (t.erc = none → t.WellTyped) :=
  @createIndividuals_typed_but_constants boolAndRecipe _ rfl .full 1 (.bool true) boolAndStore boolAndCreated [1]
    createIndividuals_run_boolAnd

/-- **A constant of the wrong kind.**  Creating one tree of `boolAndRecipe`
gives `and2bools(2, b)`: the constant 2, typed int, stands in the first
argument of `and2bools`, declared bool, so the tree is not well typed. -/
theorem createIndividuals_puts_int_constant_under_bool :
    ((Creator.trees boolAndRecipe (some .full)).createIndividuals 1 (.bool true)).run boolAndStore =
        .ok [1] boolAndCreated ∧
      boolAndCreated.HoldsTree 1 { boolAndTree with nodes := boolAndGrown } ∧
      ¬ { boolAndTree with nodes := boolAndGrown }.WellTyped := by
  refine ⟨createIndividuals_run_boolAnd,
    ⟨{ boolAndFresh with genome := .tree { boolAndTree with nodes := boolAndGrown } }, ?_, rfl, rfl⟩, by decide⟩
  simp only [boolAndCreated, Std.HashMap.getElem?_insert_self]

end Creator

end Evolver
