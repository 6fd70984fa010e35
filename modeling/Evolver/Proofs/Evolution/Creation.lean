import Evolver.Proofs.Breed.Tournament
import Evolver.Evolution.Population
/-!
# Creating a first generation

A subpopulation with no individuals is given a first generation by one of its
creators, drawn by the creation probabilities.  Every new individual is
*minted*: kept under the next identity, with a fitness made for the run; then
its tree is grown or its genes are drawn in place.

Minting takes identities no individual had (`Run.confined_mint`,
`Run.mints_mint`), and growing changes only the new individuals
(`Run.confined_updateM`), so creation changes no individual found before it
(`Population.confined_create`).  When every creator makes fitnesses that
compare single scores, read in the direction of the subpopulation
(`Subpopulation.MakesScalar`), the store stays sound for such fitnesses.
-/

namespace Evolver

open Run

/-! ### Fitnesses made for a run -/

/-- A fitness made with a measure of single scores and a direction compares
single scores in that direction. -/
theorem Fitness.make_scalar {m : Measure} {score : Option Value} {up cache relative : Bool} {f : Fitness}
    (h : Fitness.make m score (.bool up) cache relative = .ok f) (hm : m.isScalar = true) : f.Scalar up := by
  unfold Fitness.make at h
  cases m with
  | ranked => cases hm
  | simple | bloated _ =>
    cases h
    exact ⟨hm, rfl⟩

/-- A creator whose fitnesses compare single scores: trees are always scored
with bloat control; vectors with the measure they are given. -/
def Creator.Scalar : Creator → Prop
  | .chromosomes _ _ _ m _ => m.isScalar = true
  | _ => True

/-- Every creator of the subpopulation makes fitnesses comparing single
scores, and the subpopulation reads them in direction `up`. -/
def Subpopulation.MakesScalar (up : Bool) (s : Subpopulation) : Prop :=
  s.higherIsBetter = .bool up ∧ ∀ c ∈ s.creators, c.Scalar

/-! ### Minting and growing -/

namespace Store

variable {F : Fitness → Prop} {s : Store}

/-- Keeping a new individual under the next identity keeps the store sound,
when its fitness satisfies `F`, and spares every individual. -/
theorem Sound.keepNext (hs : s.Sound F) {i : Individual} (hid : i.id = s.lab.nextId) (hF : F i.fitness) :
    (s.keepNext i).Sound F ∧ s.Spares (fun _ => False) (s.keepNext i) := by
  refine ⟨fun k j hj => ?_, Nat.le_succ _, fun k hk _ => ?_⟩
  · simp only [Store.keepNext, Std.HashMap.getElem?_insert, beq_iff_eq] at hj
    split at hj
    · rename_i hk
      cases hj
      exact ⟨hid.trans hk, by simp only [Store.keepNext]; omega, hF⟩
    · obtain ⟨hid', hlt, hFj⟩ := hs k j hj
      exact ⟨hid', Nat.lt_succ_of_lt hlt, hFj⟩
  · simp only [core, Store.keepNext, Std.HashMap.getElem?_insert, beq_iff_eq]
    rw [if_neg (Nat.ne_of_lt hk).symm]

/-- Putting an individual back under an identity in use keeps the store
sound, when its fitness satisfies `F`, and changes that identity alone. -/
theorem Sound.put (hs : s.Sound F) {j : Individual} (hlt : j.id < s.lab.nextId) (hF : F j.fitness)
    {T : Nat → Prop} (hT : T j.id) :
    ({ s with individuals := s.individuals.insert j.id j } : Store).Sound F ∧
      s.Spares T { s with individuals := s.individuals.insert j.id j } := by
  refine ⟨fun k i hi => ?_, Nat.le_refl _, fun k _ hTk => ?_⟩
  · simp only [Std.HashMap.getElem?_insert, beq_iff_eq] at hi
    split at hi
    · rename_i hk
      cases hi
      exact ⟨hk, hk ▸ hlt, hF⟩
    · exact hs k i hi
  · rw [Run.core_insert]
    split
    · rename_i hk
      exact absurd (hk ▸ hT) hTk
    · rfl

end Store

namespace Run

variable {F : Fitness → Prop} {T : Nat → Prop} {α β : Type}

/-- A computation that may fail, followed by steps confined for each answer it
can give. -/
theorem Confined.ofExcept_bind {x : Except Fault α} {f : α → Run β} (hf : ∀ a, x = .ok a → Confined F T (f a)) :
    Confined F T (Run.ofExcept x >>= f) := by
  cases hx : x with
  | error e => exact Confined.throw_bind e f
  | ok a => exact Confined.bind_of_answers (Confined.pure a) (Answers.pure a) (hf a hx)

/-- Minting an individual: the next identity is taken, the genome made, and
the individual kept under that identity with the fitness given.  Both kinds
of creators mint their individuals so. -/
def mintOf (f : Fitness) (x : Except Fault α) (g : α → Genome) (u : Bool) : Run Nat := do
  let id ← draw Draw.freshId
  let t ← Run.ofExcept x
  put (Individual.fresh id (g t) f u)
  pure id

theorem mintOf_run (f : Fitness) (x : Except Fault α) (g : α → Genome) (u : Bool) (s : Store) :
    (mintOf f x g u).run s = match x with
      | .ok t => .ok s.lab.nextId (s.keepNext (Individual.fresh s.lab.nextId (g t) f u))
      | .error e => .error e { s with lab := { s.lab with nextId := s.lab.nextId + 1 } } := by
  cases x <;> rfl

/-- **Minting changes no individual**, and keeps the store sound when the new
fitness satisfies `F`. -/
theorem confined_mintOf {f : Fitness} (hf : F f) (x : Except Fault α) (g : α → Genome) (u : Bool) :
    Confined F (fun _ => False) (mintOf f x g u) := by
  intro s hs
  rw [mintOf_run]
  cases x with
  | error e =>
    -- only the identity was taken
    exact (confined_draw Draw.Steady.freshId : Confined F (fun _ => False) (draw Draw.freshId)) s hs
  | ok t => exact hs.keepNext rfl hf

/-- What minting answers is the identity it took, now held. -/
theorem mints_mintOf (f : Fitness) (x : Except Fault α) (g : α → Genome) (u : Bool) :
    Mints F (mintOf f x g u) := by
  intro s _ r s' h
  rw [mintOf_run] at h
  cases x with
  | error e => cases h
  | ok t =>
    cases h
    refine ⟨Nat.le_refl _, Nat.lt_succ_self _, ?_⟩
    simp [Store.keepNext]

/-- **A loop of mints changes no individual found before it**, when every
fitness it can make satisfies `F`, and answers identities it handed out. -/
theorem mintEach {γ : Type} (fit : Except Fault Fitness) (hfit : ∀ f, fit = .ok f → F f)
    (x : Except Fault α) (g : α → Genome) (u : Bool) (xs : List γ) :
    Confined F (fun _ => False) (xs.mapM fun _ => Run.ofExcept fit >>= fun f => mintOf f x g u) ∧
      ∀ s, s.Sound F → ∀ ids s', (xs.mapM fun _ => Run.ofExcept fit >>= fun f => mintOf f x g u).run s = .ok ids s' →
        ∀ k ∈ ids, s.lab.nextId ≤ k := by
  have hc : ∀ _ : γ, Confined F (fun _ => False) (Run.ofExcept fit >>= fun f => mintOf f x g u) :=
    fun _ => Confined.ofExcept_bind fun f hf => confined_mintOf (hfit f hf) x g u
  have hm : ∀ _ : γ, Mints F (Run.ofExcept fit >>= fun f => mintOf f x g u) :=
    fun _ => Mints.bind (Confined.ofExcept fit : Confined F (fun _ => False) _) fun f => mints_mintOf f x g u
  refine ⟨Confined.mapM xs fun a _ => hc a, fun s hs ids s' h k hk => ?_⟩
  exact ((mapM_freshIn hc hm xs s hs ids s' h).2.1.bounds k hk).1

/-- **Changing an individual in place by a computation** that keeps its
identity and fitness, and is itself confined, changes that identity alone. -/
theorem confined_updateM (id : Nat) {f : Individual → Run Individual} (hf : ∀ i, Confined F T (f i))
    (hkeep : ∀ i s j s', (f i).run s = .ok j s' → j.id = i.id ∧ j.fitness = i.fitness) (hT : T id) :
    Confined F T (updateM id f) := by
  intro s hs
  cases hi : s.individuals[id]? with
  | none =>
    have hnone : stateOf ((updateM id f).run s) = s := by
      simp [updateM, EStateM.run_bind, get_run_cases, hi]
    rw [hnone]
    exact ⟨hs, Store.Spares.refl T s⟩
  | some i =>
    obtain ⟨hid, hlt, hFi⟩ := hs id i hi
    have hfi := hf i s hs
    simp only [updateM, EStateM.run_bind, get_run hi]
    cases hr : (f i).run s with
    | error e s₁ =>
      rw [hr, stateOf_error] at hfi
      exact hfi
    | ok j s₁ =>
      rw [hr, stateOf_ok] at hfi
      obtain ⟨hjid, hjfit⟩ := hkeep i s j s₁ hr
      rw [hid] at hjid
      -- the changed individual is put back under its own identity
      have hput := hfi.1.put (j := j) (by rw [hjid]; exact Nat.lt_of_lt_of_le hlt hfi.2.1)
        (by rw [hjfit]; exact hFi) (hjid ▸ hT)
      dsimp only
      rw [put_run, stateOf_ok]
      exact ⟨hput.1, hfi.2.trans hput.2⟩

/-- A computation that answers the individual with another genome keeps its
identity and fitness. -/
theorem regenome_run_ok {x : Run α} {g : α → Genome} {i j : Individual} {s s' : Store}
    (h : (x >>= fun a => pure { i with genome := g a }).run s = .ok j s') : j.id = i.id ∧ j.fitness = i.fitness := by
  obtain ⟨a, s₁, -, h⟩ := bind_run_ok.1 h
  obtain ⟨rfl, -⟩ := pure_run_ok.1 h
  exact ⟨rfl, rfl⟩

end Run

/-! ### The creators -/

namespace Draw.Steady

/-- Drawing a position by weights hands no identity back. -/
theorem weightedIndex (weights : List Value) : Steady (Draw.weightedIndex weights) := by
  unfold Draw.weightedIndex
  refine bind (ofExcept _) fun sums => ?_
  split
  · refine bind (ofExcept _) fun total => bind (ofExcept _) fun nonPositive => ?_
    -- both checks of the total either fail or lead to one uniform draw
    dsimp only
    split
    · exact throw_bind _ _
    · split
      · split
        · exact throw_bind _ _
        · exact bind random fun _ => bind (ofExcept _) fun _ => ofExcept _
      · exact bind random fun _ => bind (ofExcept _) fun _ => ofExcept _
  · exact throw _

end Draw.Steady

namespace TreeRecipe

variable {up : Bool} (r : TreeRecipe)

/-- Growing the tree of `id` in place changes that identity alone. -/
theorem confined_growIn (how : Growth) {id : Nat} {T : Nat → Prop} (hid : T id) :
    Confined (Fitness.Scalar up) T (r.growIn how id) := by
  refine confined_updateM id (fun i => ?_) (fun i s j s' h => ?_) hid
  · split
    · exact Confined.bind (confined_draw (.growFrom _ _ _ _ _ _ _)) fun _ => Confined.pure _
    · exact Confined.pure _
  · split at h
    · exact regenome_run_ok h
    · cases h
      exact ⟨rfl, rfl⟩

/-- **Growing trees changes no individual found before**: the trees are
minted empty, each with a fitness with bloat control, then grown in place. -/
theorem confined_create (how : Option Growth) (n : Nat) :
    Confined (Fitness.Scalar up) (fun _ => False) (r.create how n (.bool up)) := by
  unfold TreeRecipe.create TreeRecipe.emptyTrees
  obtain ⟨hc, hfresh⟩ := mintEach (Fitness.make (.bloated r.bloatWeight) none (.bool up) false false)
    (fun _ hf => Fitness.make_scalar hf rfl)
    (Tree.make (some r.functions) (some r.terminals) r.erc r.rootKind) Genome.tree r.updateParents (List.range n)
  refine Confined.bind_fresh hc hfresh fun ids => ?_
  -- the trees are grown in place, one new identity at a time
  dsimp only
  split
  · exact Confined.bind (Confined.forIn ids (fun id hid _ => Confined.bind (r.confined_growIn _ hid) fun _ =>
      Confined.pure _) _) fun _ => Confined.pure _
  · exact Confined.pure _

/-- Ramped half-and-half grows every group by the recipe, at its depths. -/
theorem confined_rampedHalf (n : Nat) :
    Confined (Fitness.Scalar up) (fun _ => False) (r.rampedHalf n (.bool up)) := by
  unfold TreeRecipe.rampedHalf
  dsimp only
  -- the checks of the depths and the size either fail or lead to the groups
  split
  · exact Confined.throw_bind _ _
  split
  · exact Confined.throw_bind _ _
  refine Confined.bind (Confined.forIn _ (fun d _ _ => Confined.bind (confined_create _ _ _) fun _ =>
    Confined.bind (confined_create _ _ _) fun _ => Confined.pure _) _) fun _ => ?_
  -- the rest, grown full, when the groups fall short
  split
  · exact Confined.bind (confined_create _ _ _) fun _ => Confined.pure _
  · exact Confined.pure _

end TreeRecipe

namespace Creator

theorem confined_createIndividuals {up : Bool} (c : Creator) (hc : c.Scalar) (n : Nat) :
    Confined (Fitness.Scalar up) (fun _ => False) (c.createIndividuals n (.bool up)) := by
  unfold Creator.createIndividuals
  cases c with
  | trees r how => exact r.confined_create how n
  | rampedHalf r => exact r.confined_rampedHalf n
  | chromosomes a length bounds m u =>
    obtain ⟨hmint, hfresh⟩ := mintEach (Fitness.make m none (.bool up) false false)
      (fun _ hf => Fitness.make_scalar hf hc)
      (Chromosome.make a length bounds none) Genome.chromosome u (List.range n)
    refine Confined.bind_fresh hmint hfresh fun ids => ?_
    -- the genes are drawn in place, one new identity at a time
    refine Confined.bind (Confined.forIn ids (fun id hid _ => Confined.bind
      (confined_updateM id (fun i => ?_) (fun i s j s' h => ?_) hid) fun _ => Confined.pure _) _) fun _ => Confined.pure _
    · split
      · exact Confined.bind (Confined.mapM _ fun k _ => confined_draw (.randomGene _ _)) fun _ => Confined.pure _
      · exact Confined.pure _
    · split at h
      · exact regenome_run_ok h
      · cases h
        exact ⟨rfl, rfl⟩

end Creator

/-- **Creating a subpopulation changes no individual found before**: a
subpopulation with individuals is kept as it is; one without has its creator
drawn and creates them all. -/
theorem Subpopulation.confined_create {up : Bool} (s : Subpopulation) (hs : s.MakesScalar up) :
    Confined (Fitness.Scalar up) (fun _ => False) s.create := by
  obtain ⟨hup, hcreators⟩ := hs
  unfold Subpopulation.create
  rw [hup]
  split
  · exact Confined.pure _
  · refine Confined.bind (confined_draw (.weightedIndex _)) fun k => ?_
    split
    · rename_i c hc
      exact Confined.bind (c.confined_createIndividuals (hcreators c (List.mem_of_getElem? hc)) _) fun _ =>
        Confined.pure _
    · exact Confined.throw _

namespace Population

theorem confined_create {up : Bool} (p : Population) (hp : ∀ s ∈ p.subpops, s.MakesScalar up) :
    Confined (Fitness.Scalar up) (fun _ => False) p.create := by
  unfold Population.create
  exact Confined.bind (Confined.mapM _ fun s hs => s.confined_create (hp s hs)) fun _ => Confined.pure _

/-- Creation keeps the number of subpopulations. -/
theorem create_length {p p' : Population} {s s' : Store} (h : p.create.run s = .ok p' s') :
    p'.subpops.length = p.subpops.length := by
  unfold Population.create at h
  obtain ⟨ss, s₁, hmap, h⟩ := bind_run_ok.1 h
  obtain ⟨rfl, -⟩ := pure_run_ok.1 h
  exact mapM_length _ hmap

end Population

end Evolver
