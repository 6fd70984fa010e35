import Evolver.Proofs.Store.Frame
import Evolver.Evolution.Breed
/-!
# A genetic operator changes its group and nothing else

A genetic operator is applied to a group of individuals of the store.  Every
step it takes reads individuals, draws, or gives a member of the group a new
genome, a forgotten fitness or a new entry in its history; the only
individual it makes is the throwaway copy a point mutation takes before each
try, under an identity of its own.  So:

* every draw an operator makes hands no identity back (`Draw.Steady.randomSubtree`,
  `Draw.Steady.growFrom`, `Draw.Steady.geneDraw`, …);
* one attempt of every action, and all the attempts together, change the
  genome or fitness of members of the group only
  (`Operator.confined_crossSubtrees`, …, `Operator.confined_tries`);
* applying an operator, fallbacks included, changes only its group and
  answers the group itself (`Operator.confined_applyWith`,
  `Operator.applyWith_answers_group`);
* so does a sequence of operators over consecutive groups of a list
  (`Subpopulation.applyOperators_confined`).
-/

namespace Evolver

/-! ### The draws of the operators -/

namespace Draw.Steady

theorem pickFrom {α : Type} (xs : List α) : Steady (Draw.pickFrom xs) := by
  unfold Draw.pickFrom
  split
  · exact pure _
  · exact bind (choice _) fun _ => pure _

theorem atom (v : Value) : Steady (Draw.atom v) := by
  unfold Draw.atom
  split
  · exact pure _
  · exact bind freshRef fun _ => pure _

theorem randomFunction (t : Tree) (k : Option Kind) : Steady (t.randomFunction k) :=
  bind (pickFrom _) fun _ => pure _

theorem drawConstant (erc : Value × Value) : Steady (Tree.drawConstant erc) := by
  unfold Tree.drawConstant
  split
  · exact bind (uniform _ _) fun _ => pure _
  · exact bind (randint _ _) fun _ => pure _

theorem terminalPool (t : Tree) (k : Option Kind) : Steady (t.terminalPool k) := by
  unfold Tree.terminalPool
  -- a constant joins the pool only for a tree with a range and a kind that admits numbers
  cases t.erc with
  | none => exact pure _
  | some erc =>
    dsimp only
    split
    · exact bind (drawConstant _) fun _ => bind (atom _) fun _ => pure _
    · exact pure _

theorem randomTerminal (t : Tree) (k : Option Kind) : Steady (t.randomTerminal k) :=
  bind (terminalPool _ _) fun _ => bind (pickFrom _) fun _ => pure _

theorem randomNumericAt (t : Tree) : Steady t.randomNumericAt := pickFrom _

theorem randomSubtree (t : Tree) (k : Option Kind) : Steady (t.randomSubtree k) := by
  unfold Tree.randomSubtree
  split
  · exact pure _
  · refine bind (pickFrom _) fun r => ?_
    split
    · exact pure _
    · exact bind (ofExcept _) fun _ => pure _

theorem wantsFunction (how : Growth) (lo hi depth : Int) : Steady (Tree.wantsFunction how lo hi depth) := by
  unfold Tree.wantsFunction
  split
  · exact pure _
  · split
    · exact pure _
    · split
      · exact pure _
      · exact bind random fun _ => bind (ofExcept _) fun _ => pure _

theorem growAt (t : Tree) (how : Growth) (lo hi : Int) (noNode : Fault) :
    ∀ (fuel : Nat) (depth : Int) (k : Option Kind), Steady (t.growAt how lo hi noNode fuel depth k)
  | 0, _, _ => throw _
  | fuel + 1, depth, k => by
    rw [Tree.growAt]
    refine bind (wantsFunction _ _ _ _) fun b => ?_
    split
    · refine bind (randomFunction _ _) fun r => ?_
      split
      · exact bind (mapM (fun _ => growAt t how lo hi noNode fuel _ _) _) fun _ => pure _
      · exact throw _
    · refine bind (randomTerminal _ _) fun r => ?_
      split
      · exact pure _
      · exact throw _

theorem growFrom (t : Tree) (how : Growth) (lo hi : Int) (noNode : Fault) (depth : Int) (k : Option Kind) :
    Steady (t.growFrom how lo hi noNode depth k) := growAt t how lo hi noNode _ _ _

theorem randomGene (c : Chromosome) (i : Int) : Steady (c.randomGene i) := by
  unfold Chromosome.randomGene
  refine bind (ofExcept _) fun _ => ?_
  split
  split
  · exact bind (uniform _ _) fun _ => pure _
  · exact bind (randint _ _) fun _ => pure _

theorem gaussGene (c : Chromosome) (i : Int) (mu sigma : Float) : Steady (c.gaussGene i mu sigma) := by
  unfold Chromosome.gaussGene
  split
  · exact throw _
  · exact bind (ofExcept _) fun _ => bind (gauss _ _) fun _ => ofExcept _

theorem geneDraw (d : GeneDraw) (c : Chromosome) (p : Nat) : Steady (d.run c p) := by
  have chance : ∀ q : Value, Steady (do
      let r ← Draw.random
      Draw.ofExcept (Value.compare .le (.float r) q)) :=
    fun _ => bind random fun _ => ofExcept _
  unfold GeneDraw.run
  split
  · exact throw _
  · exact randomGene _ _
  · exact gaussGene _ _ _ _
  · refine bind (chance _) fun b => ?_
    split
    · exact randomGene _ _
    · exact ofExcept _
  · exact ofExcept _
  · refine bind (chance _) fun b => ?_
    split <;> exact ofExcept _

end Draw.Steady

/-! ### Reading and changing genomes -/

namespace Run

variable {F : Fitness → Prop} {T : Nat → Prop}

theorem confined_treeOf (id : Nat) (name : String) : Confined F T (treeOf id name) := by
  refine Confined.bind (confined_get id) fun i => ?_
  split
  · exact Confined.pure _
  · exact Confined.throw _

theorem confined_chromosomeOf (id : Nat) (name : String) : Confined F T (chromosomeOf id name) := by
  refine Confined.bind (confined_get id) fun i => ?_
  split
  · exact Confined.pure _
  · exact Confined.throw _

theorem confined_setGenome {id : Nat} (hT : T id) (g : Genome) : Confined F T (setGenome id g) :=
  confined_update id (fun _ => rfl) (fun _ h => h) (.inl hT)

end Run

theorem getD_mem_of_lt {l : List Nat} {i : Nat} (h : i < l.length) (d : Nat) : l.getD i d ∈ l := by
  rw [List.getD_eq_getElem?_getD, List.getElem?_eq_getElem h, Option.getD_some]
  exact List.getElem_mem h

/-! ### One attempt of each action -/

namespace Operator

open Run

variable {F : Fitness → Prop}

/-- **Subtree crossover changes the trees of its group only.** -/
theorem confined_crossSubtrees (arity : Int) (ids : List Nat) :
    Confined F (· ∈ ids) (crossSubtrees arity ids) := by
  unfold crossSubtrees
  dsimp only
  split
  · exact Confined.throw_bind _ _
  · split
    · rename_i lead hlead
      refine Confined.bind (confined_treeOf _ _) fun _ => Confined.bind (confined_draw (.randomSubtree _ _))
        fun first => ?_
      split
      · refine Confined.bind (Confined.mapM _ fun _ _ => Confined.bind (confined_treeOf _ _) fun _ =>
          confined_draw (.randomSubtree _ _)) fun rest => ?_
        split
        · refine Confined.bind (Confined.forIn _ (fun i hi _ => ?_) _) fun _ => Confined.pure _
          -- each round gives the tree at position `i` of the group its new subtree
          have hid : ids.getD i 0 ∈ ids := getD_mem_of_lt (by simpa using hi) 0
          exact Confined.bind (confined_treeOf _ _) fun _ => Confined.bind (Confined.ofExcept _) fun _ =>
            Confined.bind (confined_setGenome hid _) fun _ => Confined.pure _
        · exact Confined.pure _
      · exact Confined.pure _
    · exact Confined.throw _

/-- **Subtree mutation changes the trees of its group only.** -/
theorem confined_mutateSubtrees (depth : Int × Int) (ids : List Nat) :
    Confined F (· ∈ ids) (mutateSubtrees depth ids) := by
  unfold mutateSubtrees
  dsimp only
  refine Confined.bind (Confined.mapM _ fun _ _ => Confined.bind (confined_treeOf _ _) fun _ =>
    confined_draw (.randomSubtree _ _)) fun olds => ?_
  split
  · split
    · refine Confined.bind (confined_treeOf _ _) fun _ => ?_
      refine Confined.bind (Confined.forIn _ (fun p hp _ => ?_) _) fun _ => Confined.pure _
      -- each pair holds a member of the group and the subtree drawn in it
      have hid : p.1 ∈ ids := (List.of_mem_zip hp).1
      exact Confined.bind (confined_treeOf _ _) fun _ => Confined.bind (confined_draw (.growFrom _ _ _ _ _ _ _))
        fun _ => Confined.bind (Confined.ofExcept _) fun _ => Confined.bind (confined_setGenome hid _) fun _ =>
          Confined.pure _
    · exact Confined.throw _
  · exact Confined.pure _

/-- **Constant mutation changes the trees of its group only.** -/
theorem confined_mutateConstants (mu sigma : Float) (ids : List Nat) :
    Confined F (· ∈ ids) (mutateConstants mu sigma ids) := by
  unfold mutateConstants
  dsimp only
  refine Confined.bind (Confined.mapM _ fun _ _ => Confined.bind (confined_treeOf _ _) fun _ =>
    confined_draw (.randomNumericAt _)) fun leaves => ?_
  split
  · refine Confined.bind (Confined.forIn _ (fun p hp _ => ?_) _) fun _ => Confined.pure _
    have hid : p.1 ∈ ids := (List.of_mem_zip hp).1
    refine Confined.bind (confined_treeOf _ _) fun t => ?_
    split
    · exact Confined.bind (confined_draw (.gauss _ _)) fun _ => Confined.bind (Confined.ofExcept _) fun _ =>
        Confined.bind (confined_draw (.atom _)) fun _ => Confined.bind (confined_setGenome hid _) fun _ =>
          Confined.pure _
    · exact Confined.bind (Confined.pure _) fun _ => Confined.pure _
  · exact Confined.pure _

/-- **K-point crossover changes the vectors of the first two members only.** -/
theorem confined_crossSegments (k : Int) (ids : List Nat) : Confined F (· ∈ ids) (crossSegments k ids) := by
  unfold crossSegments
  dsimp only
  split
  · rename_i lead hlead
    have hl : lead ∈ ids := List.mem_of_mem_head? hlead
    refine Confined.bind (confined_get _) fun _ => ?_
    split
    · exact Confined.throw_bind _ _
    · refine Confined.bind (confined_draw (.sample _ _)) fun _ => Confined.bind (confined_chromosomeOf _ _)
        fun _ => ?_
      split
      · rename_i second hsecond
        have hs : second ∈ ids := List.mem_of_getElem? hsecond
        refine Confined.bind (confined_chromosomeOf _ _) fun _ => Confined.bind (confined_setGenome hl _) fun _ =>
          Confined.bind (confined_setGenome hs _) fun _ => ?_
        split
        · exact Confined.throw _
        · exact Confined.pure _
      · exact Confined.throw _
  · exact Confined.throw _

/-- Choosing the genes to redraw draws from the streams at most. -/
theorem confined_selectCells (m : Mutation) (size : Nat) {T : Nat → Prop} :
    Confined F T (m.selectCells size) := by
  unfold Mutation.selectCells
  split
  · split
    · exact Confined.throw _
    · exact confined_draw (.sample _ _)
  · exact Confined.pure _

/-- One member's turn changes that member's vector only.  The copy it takes
first takes a fresh identity and is never kept. -/
theorem confined_redrawMember (m : Mutation) {id : Nat} {T : Nat → Prop} (hid : T id) :
    Confined F T (redrawMember m id) := by
  unfold redrawMember
  dsimp only
  refine Confined.bind (confined_draw .freshId) fun _ => Confined.bind (confined_get id) fun i =>
    Confined.bind (confined_selectCells m i.size) fun cells => ?_
  -- the genome must be a chromosome
  split
  · refine Confined.bind (Confined.pure _) fun c => ?_
    -- new genes for this member, checked, and its old genes back if one left its bounds
    refine Confined.bind (Confined.mapM _ fun _ _ => confined_draw (.geneDraw _ _ _)) fun _ =>
      Confined.bind (Confined.foldlM (fun _ _ => Confined.ofExcept _) _ _) fun _ =>
        Confined.bind (confined_setGenome hid _) fun _ => Confined.bind (Confined.ofExcept _) fun _ => ?_
    split
    · exact Confined.bind (confined_setGenome hid _) fun _ => Confined.pure _
    · exact Confined.pure _
  · exact Confined.throw_bind _ _

/-- **A point mutation changes the vectors of its group only.** -/
theorem confined_mutatePoints (m : Mutation) (ids : List Nat) : Confined F (· ∈ ids) (mutatePoints m ids) :=
  Confined.allM ids fun _ hid => confined_redrawMember m hid

/-- All the attempts together change what one attempt may change. -/
theorem confined_tries {T : Nat → Prop} {attempt : Run Bool} (h : Confined F T attempt) :
    ∀ n, Confined F T (tries attempt n)
  | 0 => Confined.pure _
  | n + 1 => by
    rw [tries]
    refine Confined.bind h fun _ => ?_
    split
    · exact Confined.pure _
    · exact confined_tries h n

/-! ### Applying an operator -/

/-- The end of every application, whatever its action: the operator is
recorded on each member of the result, which changes no genome or fitness. -/
theorem confined_finish (o : Operator) (ids : List Nat) {T : Nat → Prop} {x : Run (Option (List Nat))}
    (hx : Confined F T x) :
    Confined F T (do
      let some result ← x | throw (Fault.type "'NoneType' object is not iterable")
      for id in result do
        Run.update id fun i => { i with
          appliedOperators := i.appliedOperators ++ [o.className]
          parents := if i.updateParents then i.parents ++ ids else i.parents }
      pure result) := by
  refine Confined.bind hx fun r => ?_
  split
  · refine Confined.bind (Confined.forIn _ (fun id _ _ => ?_) _) fun _ => Confined.pure _
    exact Confined.bind (confined_update id (fun _ => rfl) (fun _ h => h) (.inr fun _ => ⟨rfl, rfl⟩)) fun _ =>
      Confined.pure _
  · exact Confined.throw _

theorem answers_finish (o : Operator) (ids : List Nat) {x : Run (Option (List Nat))}
    (hx : Answers x (some ids)) :
    Answers (do
      let some result ← x | throw (Fault.type "'NoneType' object is not iterable")
      for id in result do
        Run.update id fun i => { i with
          appliedOperators := i.appliedOperators ++ [o.className]
          parents := if i.updateParents then i.parents ++ ids else i.parents }
      pure result) ids :=
  Answers.bind_of_answers hx (Answers.bind fun _ => Answers.pure _)

/-- **An operator changes the genome and fitness of its group only**, with
its fallbacks, and answers the group itself.  Forgetting a score must keep
what the store keeps of fitnesses. -/
theorem confined_applyWith (hreset : ∀ f, F f → F f.reset) : ∀ (fuel : Nat) (o : Operator) (ids : List Nat),
    Confined F (· ∈ ids) (applyWith fuel o ids) ∧ Answers (applyWith fuel o ids) ids
  | 0, _, _ => ⟨Confined.throw _, Answers.throw _ _⟩
  | fuel + 1, o, ids => by
    -- a fallback is a point mutation of the same group, with one fuel less
    have ih := fun m => confined_applyWith hreset fuel ⟨.mutate m, o.probability, o.arity, 5⟩ ids
    rw [applyWith]
    dsimp only
    constructor
    · refine Confined.bind (confined_draw .random) fun _ => Confined.bind (Confined.ofExcept _) fun _ => ?_
      split
      · exact Confined.pure _
      refine Confined.bind (Confined.forIn ids (fun id hid _ => ?_) _) fun _ => ?_
      · exact Confined.bind (confined_update id (fun _ => rfl) (fun i => hreset i.fitness) (.inl hid)) fun _ =>
          Confined.pure _
      split
      · exact confined_finish o ids (Confined.pure _)
      · exact Confined.bind (confined_crossSegments _ _) fun _ => confined_finish o ids (Confined.pure _)
      · exact Confined.bind (confined_tries (confined_crossSubtrees _ _) _) fun _ =>
          confined_finish o ids (Confined.pure _)
      · exact Confined.bind (confined_tries (confined_mutateSubtrees _ _) _) fun _ =>
          confined_finish o ids (Confined.pure _)
      · exact Confined.bind (confined_tries (confined_mutateConstants _ _ _) _) fun _ =>
          confined_finish o ids (Confined.pure _)
      · refine Confined.bind (confined_tries (confined_mutatePoints _ _) _) fun _ => ?_
        split
        · exact confined_finish o ids (Confined.pure _)
        · split
          · exact confined_finish o ids (Confined.map (ih _).1 _)
          · exact confined_finish o ids (Confined.pure _)
    · refine Answers.bind fun _ => Answers.bind fun _ => ?_
      split
      · exact Answers.pure _
      refine Answers.bind fun _ => ?_
      -- every action answers the group, but a point mutation that failed with no fallback
      split
      · exact answers_finish o ids (Answers.pure _)
      · exact Answers.bind fun _ => answers_finish o ids (Answers.pure _)
      · exact Answers.bind fun _ => answers_finish o ids (Answers.pure _)
      · exact Answers.bind fun _ => answers_finish o ids (Answers.pure _)
      · exact Answers.bind fun _ => answers_finish o ids (Answers.pure _)
      · refine Answers.bind fun _ => ?_
        split
        · exact answers_finish o ids (Answers.pure _)
        · split
          · exact answers_finish o ids (Answers.map (ih _).2 _)
          · exact Answers.bind_of_answers (Answers.pure none) (Answers.throw _ _)

end Operator

namespace Subpopulation

open Run

variable {F : Fitness → Prop}

/-- Putting back a group cut from a list in its place gives the list. -/
theorem take_append_group_append_drop (ids : List Nat) (i k : Nat) :
    ids.take i ++ (ids.drop i).take k ++ ids.drop (i + k) = ids := by
  rw [List.append_assoc, ← List.drop_drop, List.take_append_drop, List.take_append_drop]

/-- **A sequence of operators changes the genome and fitness of the list's
members only, and answers the list itself**: each operator walks over
consecutive groups and every group comes back in its place. -/
theorem applyOperators_confined (hreset : ∀ f, F f → F f.reset) (ops : List Operator) (ids : List Nat) :
    Confined F (· ∈ ids) (applyOperators ops ids) ∧ Answers (applyOperators ops ids) ids := by
  unfold applyOperators
  refine Confined.foldlM_fixed ops fun o _ => ?_
  dsimp only
  -- the fold over the groups of one operator keeps the list as it is
  have hgroups : ∀ starts : List Nat,
      Confined F (· ∈ ids) (starts.foldlM (fun ids' i => do
        let result ← o.applyOperator ((ids'.drop i).take o.arity.toNat)
        pure (ids'.take i ++ result ++ ids'.drop (i + o.arity.toNat))) ids) ∧
      Answers (starts.foldlM (fun ids' i => do
        let result ← o.applyOperator ((ids'.drop i).take o.arity.toNat)
        pure (ids'.take i ++ result ++ ids'.drop (i + o.arity.toNat))) ids) ids := by
    intro starts
    refine Confined.foldlM_fixed starts fun i _ => ?_
    obtain ⟨hc, ha⟩ := Operator.confined_applyWith hreset 2 o ((ids.drop i).take o.arity.toNat)
    have hsub : ∀ k, k ∈ (ids.drop i).take o.arity.toNat → k ∈ ids :=
      fun _ hk => List.mem_of_mem_drop (List.mem_of_mem_take hk)
    refine ⟨Confined.bind (hc.mono hsub) fun _ => Confined.pure _, Answers.bind_of_answers ha ?_⟩
    rw [take_append_group_append_drop]
    exact Answers.pure _
  split
  · exact ⟨Confined.throw_bind _ _, Answers.throw_bind _ _ _⟩
  · split
    · exact ⟨Confined.pure _, Answers.pure _⟩
    · exact hgroups _

end Subpopulation

end Evolver
