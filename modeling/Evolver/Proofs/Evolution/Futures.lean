import Evolver.Proofs.Evolution.FirstBest
/-!
# Scoring directly and through futures

`Population.evaluate p futures` scores every member of the single
subpopulation and answers the best of them.  The two ways of scoring leave
different fitnesses behind, and only one of them answers
(`Population.evaluate_direct_and_through_futures`):

* directly, each member keeps the score the problem gives it, and the first
  member at least as good as every member is answered;
* through futures, each member is scored and then keeps, as its score, what
  its future answered: the individual itself, an object of its class
  (`Individual.asValue`).  Objects do not compare, so with two members or
  more the search for the best fails with the `TypeError` of comparing the
  second member to the first; a member alone is answered with no comparison.

Each loop of `evaluate` touches every member once and no other individual.
What such a loop leaves is stated once (`Store.UpdatedOn`, built a member at
a time by `Store.UpdatedOn.cons`), for the `for` loops
(`Run.forIn_updatesEach`) and for the loop of futures
(`Run.mapM_updatesEach`); each of the three steps is then described by what
it does to the one member it touches (`Run.UpdatesAt`).
-/

namespace Evolver

namespace Individual

/-- The individual holding the score `v`, as a fitness that is not ranked
records it. -/
def scored (i : Individual) (v : Value) : Individual :=
  { i with fitness := { i.fitness with score := v, evaluated := true } }

/-- The individual as a value: an object of its genome's class. -/
def asValue (i : Individual) : Value := .object i.genome.moduleName i.genome.className i.id

@[simp] theorem id_scored (i : Individual) (v : Value) : (i.scored v).id = i.id := rfl

@[simp] theorem asValue_scored (i : Individual) (v : Value) : (i.scored v).asValue = i.asValue := rfl

@[simp] theorem scored_scored (i : Individual) (v w : Value) : (i.scored v).scored w = i.scored w := rfl

/-- A simple fitness is compared by the score it holds. -/
theorem augmentedFitness_scored {i : Individual} (hm : i.fitness.measure = .simple) (v : Value) :
    (i.scored v).augmentedFitness = .ok v := by
  simp [augmentedFitness, Fitness.augmented, Fitness.pure, scored, hm]

theorem scalar_scored {i : Individual} {up : Bool} (hm : i.fitness.measure = .simple)
    (hup : i.fitness.higherIsBetter = .bool up) (v : Value) : (i.scored v).fitness.Scalar up :=
  ⟨by simp [scored, hm, Measure.isScalar], hup⟩

end Individual

/-- Objects of the library's classes have no order. -/
theorem Value.compare_objects (r : Relation) (m c : String) (k : Nat) (m' c' : String) (k' : Nat) :
    Value.compare r (.object m c k) (.object m' c' k') =
      .error (Value.unordered r (.object m c k) (.object m' c' k')) := by
  simp [Value.compare, Value.testCell, Value.toCell?]
  rfl

/-- **Two single scores with no order fail to compare**, with the fault of
their comparison, and the comparison draws nothing. -/
theorem Fitness.betterThan_run_error {up : Bool} {f g : Fitness} (hf : f.Scalar up) (hg : g.Scalar up)
    {size gsize : Nat} {a b : Value} (ha : f.augmented size = .ok a) (hb : g.augmented gsize = .ok b) {e : Fault}
    (hcmp : Value.compare (if up then .gt else .lt) a b = .error e) (l : Lab) :
    (f.betterThan size g gsize).run l = .error e l := by
  rw [Fitness.betterThan_scalar hf hg ha hb, hcmp]
  rfl

namespace Store

/-- `s'` is `s` with the individual `i` of each identity `x` of `ids`
replaced by `f x i`; the streams, the messages and every other identity are
as in `s`. -/
def UpdatedOn (s s' : Store) (ids : List Nat) (f : Nat → Individual → Individual) : Prop :=
  s'.lab = s.lab ∧ s'.written = s.written ∧
    (∀ x ∈ ids, ∃ i, s.individuals[x]? = some i ∧ s'.individuals[x]? = some (f x i)) ∧
    ∀ k, k ∉ ids → s'.individuals[k]? = s.individuals[k]?

variable {f g : Nat → Individual → Individual}

theorem getElem?_insert_of_ne (s : Store) {x y : Nat} (j : Individual) (h : x ≠ y) :
    ({ s with individuals := s.individuals.insert x j } : Store).individuals[y]? = s.individuals[y]? := by
  simp [Std.HashMap.getElem?_insert, h]

theorem UpdatedOn.nil (s : Store) (f : Nat → Individual → Individual) : s.UpdatedOn s [] f :=
  ⟨rfl, rfl, fun _ h => absurd h List.not_mem_nil, fun _ _ => rfl⟩

/-- Replacing the individual of `x`, and then those of `xs`, replaces those
of `x :: xs`. -/
theorem UpdatedOn.cons {s s' : Store} {x : Nat} {xs : List Nat} {i : Individual} (hi : s.individuals[x]? = some i)
    (hx : x ∉ xs) (h : ({ s with individuals := s.individuals.insert x (f x i) } : Store).UpdatedOn s' xs f) :
    s.UpdatedOn s' (x :: xs) f := by
  obtain ⟨hlab, hwritten, hin, hout⟩ := h
  refine ⟨hlab, hwritten, fun y hy => ?_, fun k hk => ?_⟩
  · rcases List.mem_cons.1 hy with rfl | hy
    · refine ⟨i, hi, ?_⟩
      rw [hout y hx]
      simp
    · have hxy : x ≠ y := fun h => hx (h ▸ hy)
      rw [← getElem?_insert_of_ne s (f x i) hxy]
      exact hin y hy
  · have hxk : x ≠ k := fun h => hk (h ▸ List.mem_cons_self)
    rw [hout k fun h => hk (List.mem_cons_of_mem x h)]
    exact getElem?_insert_of_ne s (f x i) hxk

/-- Two loops over the same identities, one after the other, replace each
individual by the second replacement of the first. -/
theorem UpdatedOn.trans {s s₁ s₂ : Store} {ids : List Nat} (h₁ : s.UpdatedOn s₁ ids f)
    (h₂ : s₁.UpdatedOn s₂ ids g) : s.UpdatedOn s₂ ids fun x i => g x (f x i) := by
  obtain ⟨hlab₁, hwritten₁, hin₁, hout₁⟩ := h₁
  obtain ⟨hlab₂, hwritten₂, hin₂, hout₂⟩ := h₂
  refine ⟨hlab₂.trans hlab₁, hwritten₂.trans hwritten₁, fun x hx => ?_, fun k hk => (hout₂ k hk).trans (hout₁ k hk)⟩
  obtain ⟨i, hi, hi₁⟩ := hin₁ x hx
  obtain ⟨j, hj, hj₂⟩ := hin₂ x hx
  rw [hi₁, Option.some.injEq] at hj
  subst hj
  exact ⟨i, hi, hj₂⟩

end Store

namespace Run

/-- Run wherever `x` holds an individual `i` with `P x i`, the step answers
`r` and puts `f x i` in its place, changing nothing else. -/
def UpdatesAt {β : Type} (step : Run β) (x : Nat) (P : Nat → Individual → Prop)
    (f : Nat → Individual → Individual) (r : β) : Prop :=
  ∀ s i, s.individuals[x]? = some i → P x i → step.run s = .ok r { s with individuals := s.individuals.insert x (f x i) }

variable {P : Nat → Individual → Prop} {f : Nat → Individual → Individual}

/-- Replacing the individual of `x` leaves the individuals of the other
identities as they were. -/
theorem held_insert {x : Nat} {xs : List Nat} (hx : x ∉ xs) {s : Store} (j : Individual)
    (hheld : ∀ y ∈ x :: xs, ∃ i, s.individuals[y]? = some i ∧ P y i) :
    ∀ y ∈ xs, ∃ i, ({ s with individuals := s.individuals.insert x j } : Store).individuals[y]? = some i ∧
      P y i :=
  fun y hy => by
    have hxy : x ≠ y := fun h => hx (h ▸ hy)
    rw [Store.getElem?_insert_of_ne s j hxy]
    exact hheld y (List.mem_cons_of_mem x hy)

/-- **A loop of futures over distinct identities**, each step touching its
own identity only, answers every step's answer and replaces each individual
once, from the individual it started with. -/
theorem mapM_updatesEach {β : Type} {step : Nat → Run β} {r : Nat → β} :
    ∀ (xs : List Nat) (s : Store), xs.Nodup → (∀ x ∈ xs, UpdatesAt (step x) x P f (r x)) →
      (∀ x ∈ xs, ∃ i, s.individuals[x]? = some i ∧ P x i) →
      ∃ s', (xs.mapM step).run s = .ok (xs.map r) s' ∧ s.UpdatedOn s' xs f
  | [], s, _, _, _ => ⟨s, rfl, .nil s f⟩
  | x :: xs, s, hnd, hstep, hheld => by
    obtain ⟨hx, hnd⟩ := List.nodup_cons.1 hnd
    obtain ⟨i, hi, hP⟩ := hheld x List.mem_cons_self
    -- the later steps find their individuals as they were
    obtain ⟨s', hrun, hupd⟩ := mapM_updatesEach xs { s with individuals := s.individuals.insert x (f x i) } hnd
      (fun y hy => hstep y (List.mem_cons_of_mem x hy)) (held_insert hx (f x i) hheld)
    refine ⟨s', ?_, hupd.cons hi hx⟩
    rw [List.mapM_cons, EStateM.run_bind, hstep x List.mem_cons_self s i hi hP]
    dsimp only
    rw [EStateM.run_bind, hrun]
    rfl

/-- **A `for` loop over distinct identities**, each step touching its own
identity only, replaces each individual once, from the individual it started
with. -/
theorem forIn_updatesEach {body : Nat → PUnit → Run (ForInStep PUnit)} :
    ∀ (xs : List Nat) (s : Store), xs.Nodup → (∀ x ∈ xs, ∀ u, UpdatesAt (body x u) x P f (.yield PUnit.unit)) →
      (∀ x ∈ xs, ∃ i, s.individuals[x]? = some i ∧ P x i) →
      ∃ s', (forIn xs PUnit.unit body).run s = .ok PUnit.unit s' ∧ s.UpdatedOn s' xs f
  | [], s, _, _, _ => ⟨s, rfl, .nil s f⟩
  | x :: xs, s, hnd, hstep, hheld => by
    obtain ⟨hx, hnd⟩ := List.nodup_cons.1 hnd
    obtain ⟨i, hi, hP⟩ := hheld x List.mem_cons_self
    obtain ⟨s', hrun, hupd⟩ := forIn_updatesEach xs { s with individuals := s.individuals.insert x (f x i) } hnd
      (fun y hy => hstep y (List.mem_cons_of_mem x hy)) (held_insert hx (f x i) hheld)
    refine ⟨s', ?_, hupd.cons hi hx⟩
    rw [List.forIn_cons, EStateM.run_bind, hstep x List.mem_cons_self PUnit.unit s i hi hP]
    exact hrun

/-- Keeping a score in a simple fitness sets it and changes nothing else. -/
theorem keepScore_simple_run {s : Store} {x : Nat} {i : Individual} (hi : s.individuals[x]? = some i)
    (hid : i.id = x) (hm : i.fitness.measure = .simple) (v : Value) :
    (Population.keepScore x v).run s = .ok () { s with individuals := s.individuals.insert x (i.scored v) } := by
  subst hid
  rw [keepScore_run hi, Fitness.setScore_simple hm v]
  rfl

end Run

namespace Population

/-- The member `x` is held under its own identity with a simple fitness, and
the problem scores it `val x`. -/
def ScoresAs (sp : Subpopulation) (val : Nat → Value) (x : Nat) (i : Individual) : Prop :=
  i.id = x ∧ i.fitness.measure = .simple ∧ sp.problem.score i = .ok (val x)

/-- A member held under its own identity with a simple fitness. -/
def HeldSimple (x : Nat) (i : Individual) : Prop := i.id = x ∧ i.fitness.measure = .simple

/-- Scoring a member directly keeps its score. -/
theorem scoreDirectly_updatesAt (sp : Subpopulation) (val : Nat → Value) (x : Nat) (_ : PUnit) :
    Run.UpdatesAt (do
        keepScore x (← Run.ofExcept (sp.problem.score (← Run.get x)))
        pure (ForInStep.yield PUnit.unit)) x (ScoresAs sp val) (fun x i => i.scored (val x))
      (.yield PUnit.unit) := by
  rintro s i hi ⟨hid, hm, hv⟩
  simp only [EStateM.run_bind, Run.get_run hi, hv, Run.ofExcept_ok_run, Run.keepScore_simple_run hi hid hm]
  rfl

/-- Scoring a member through a future keeps its score, and the future
answers. -/
theorem scoreFuture_updatesAt (sp : Subpopulation) (val : Nat → Value) (x : Nat) :
    Run.UpdatesAt (Run.attempt do
        let v ← Run.ofExcept (sp.problem.score (← Run.get x))
        keepScore x v) x (ScoresAs sp val) (fun x i => i.scored (val x)) (.ok ()) := by
  rintro s i hi ⟨hid, hm, hv⟩
  simp only [Run.attempt_run, EStateM.run_bind, Run.get_run hi, hv, Run.ofExcept_ok_run,
    Run.keepScore_simple_run hi hid hm]

/-- Keeping what a future answered keeps the individual itself as its
score. -/
theorem keepSelf_updatesAt (x : Nat) (_ : PUnit) :
    Run.UpdatesAt (do
        let i ← Run.get x
        keepScore x (.object i.genome.moduleName i.genome.className x)
        pure (ForInStep.yield PUnit.unit)) x HeldSimple (fun _ i => i.scored i.asValue) (.yield PUnit.unit) := by
  rintro s i hi ⟨hid, hm⟩
  simp only [EStateM.run_bind, Run.get_run hi, Run.keepScore_simple_run hi hid hm]
  subst hid
  rfl

/-- Two members holding themselves as their scores fail to compare, with the
`TypeError` of comparing the objects. -/
theorem better_run_selves {up : Bool} {s : Store} {a b : Nat} {ia ib : Individual}
    (ha : s.individuals[a]? = some (ia.scored ia.asValue)) (hb : s.individuals[b]? = some (ib.scored ib.asValue))
    (hma : ia.fitness.measure = .simple) (hmb : ib.fitness.measure = .simple)
    (hupa : ia.fitness.higherIsBetter = .bool up) (hupb : ib.fitness.higherIsBetter = .bool up) :
    (Run.better b (some a)).run s =
      .error (Value.unordered (if up then .gt else .lt) ib.asValue ia.asValue) s := by
  have hcmp := Fitness.betterThan_run_error (Individual.scalar_scored hmb hupb ib.asValue)
    (Individual.scalar_scored hma hupa ia.asValue) (Individual.augmentedFitness_scored hmb ib.asValue)
    (Individual.augmentedFitness_scored hma ia.asValue) (Value.compare_objects _ _ _ _ _ _ _) s.lab
  simp only [Run.better, EStateM.run_bind, Run.get_run hb, Run.get_run ha]
  simp only [Run.draw, EStateM.run, Individual.betterThan] at hcmp ⊢
  rw [hcmp]
  rfl

/-- A scan over two members or more stops at its first comparison when that
fails. -/
theorem bestOf_run_error {s : Store} {a b : Nat} {rest : List Nat} {e : Fault}
    (h : (Run.better b (some a)).run s = .error e s) : (bestOf (a :: b :: rest)).run s = .error e s := by
  simp only [bestOf, List.head?_cons, List.tail_cons, List.foldlM_cons, EStateM.run_bind, h]

section Scored

/-! ### A single subpopulation of scored members -/

variable {p : Population} {sp : Subpopulation} {st : Store} {up : Bool} {val : Nat → Value}

/-- A member of a store replaced on the members holds the replacement of the
individual it held, with the identity, measure and direction it had. -/
theorem found_of_updatedOn (hs : st.Sound fun _ => True)
    (hscored : ∀ x ∈ sp.members, ∃ i, st.individuals[x]? = some i ∧ i.fitness.measure = .simple ∧
      i.fitness.higherIsBetter = .bool up ∧ sp.problem.score i = .ok (val x) ∧ (val x).exactValue?.isSome)
    {st' : Store} {g : Nat → Individual → Individual} (hupd : st.UpdatedOn st' sp.members g) :
    ∀ x ∈ sp.members, ∃ i, st.individuals[x]? = some i ∧ st'.individuals[x]? = some (g x i) ∧
      i.id = x ∧ i.fitness.measure = .simple ∧ i.fitness.higherIsBetter = .bool up ∧
      (val x).exactValue?.isSome := by
  intro x hx
  obtain ⟨i, hi, hi'⟩ := hupd.2.2.1 x hx
  obtain ⟨j, hj, hm, hup, -, hex⟩ := hscored x hx
  rw [hi, Option.some.injEq] at hj
  subst hj
  exact ⟨i, hi, hi', (hs x i hi).1, hm, hup, hex⟩

/-- Every member is held under its own identity and scored by the problem. -/
theorem scoresAs_of_scored (hs : st.Sound fun _ => True)
    (hscored : ∀ x ∈ sp.members, ∃ i, st.individuals[x]? = some i ∧ i.fitness.measure = .simple ∧
      i.fitness.higherIsBetter = .bool up ∧ sp.problem.score i = .ok (val x) ∧ (val x).exactValue?.isSome) :
    ∀ x ∈ sp.members, ∃ i, st.individuals[x]? = some i ∧ ScoresAs sp val x i := by
  intro x hx
  obtain ⟨i, hi, hm, -, hv, -⟩ := hscored x hx
  exact ⟨i, hi, (hs x i hi).1, hm, hv⟩

/-- Scored directly, every member holds its score and the first member at
least as good as every member is answered. -/
theorem evaluate_direct_run (hsingle : p.subpops = [sp]) (hs : st.Sound fun _ => True) (hnd : sp.members.Nodup)
    (hscored : ∀ x ∈ sp.members, ∃ i, st.individuals[x]? = some i ∧ i.fitness.measure = .simple ∧
      i.fitness.higherIsBetter = .bool up ∧ sp.problem.score i = .ok (val x) ∧ (val x).exactValue?.isSome)
    (hne : sp.members ≠ []) :
    ∃ b st₁, Pareto.firstBest up val sp.members = some b ∧ (p.evaluate false).run st = .ok b st₁ ∧
      st.UpdatedOn st₁ sp.members fun x i => i.scored (val x) := by
  have hheld := scoresAs_of_scored hs hscored
  obtain ⟨st₁, hloop, hupd⟩ :=
    Run.forIn_updatesEach sp.members st hnd (fun x _ u => scoreDirectly_updatesAt sp val x u) hheld
  -- after the loop every member holds a single score, read in one direction
  have hscalar : st₁.ScalarOn up sp.members := fun x hx j hj => by
    obtain ⟨i, -, hi₁, -, hm, hup, -⟩ := found_of_updatedOn hs hscored hupd x hx
    rw [hi₁, Option.some.injEq] at hj
    subst hj
    exact Individual.scalar_scored hm hup (val x)
  have hrated : st₁.Rated sp.members val := fun x hx => by
    obtain ⟨i, -, hi₁, -, hm, -, hex⟩ := found_of_updatedOn hs hscored hupd x hx
    exact ⟨_, hi₁, Individual.augmentedFitness_scored hm (val x), hex⟩
  obtain ⟨b, hb⟩ := Option.isSome_iff_exists.1
    (Pareto.firstBest_isSome hne : (Pareto.firstBest up val sp.members).isSome)
  refine ⟨b, st₁, hb, ?_, hupd⟩
  simp only [evaluate, single, hsingle, Bool.false_eq_true, if_false]
  simp only [EStateM.run_bind, Run.ofExcept_pure_run, hloop]
  exact bestOf_firstBest hscalar hrated hb

/-- Scored through futures, every member holds itself as its score before the
search for the best begins. -/
theorem evaluate_futures_run (hsingle : p.subpops = [sp]) (hs : st.Sound fun _ => True) (hnd : sp.members.Nodup)
    (hscored : ∀ x ∈ sp.members, ∃ i, st.individuals[x]? = some i ∧ i.fitness.measure = .simple ∧
      i.fitness.higherIsBetter = .bool up ∧ sp.problem.score i = .ok (val x) ∧ (val x).exactValue?.isSome) :
    ∃ st₂, st.UpdatedOn st₂ sp.members (fun _ i => i.scored i.asValue) ∧
      (p.evaluate true).run st = (bestOf sp.members).run st₂ := by
  have hheld := scoresAs_of_scored hs hscored
  -- the futures score every member, and then every member keeps itself
  obtain ⟨st₁, hscore, hupd₁⟩ :=
    Run.mapM_updatesEach sp.members st hnd (fun x _ => scoreFuture_updatesAt sp val x) hheld
  have hheld₁ : ∀ x ∈ sp.members, ∃ i, st₁.individuals[x]? = some i ∧ HeldSimple x i := fun x hx => by
    obtain ⟨i, -, hi₁, hid, hm, -⟩ := found_of_updatedOn hs hscored hupd₁ x hx
    exact ⟨_, hi₁, hid, hm⟩
  obtain ⟨st₂, hloop, hupd₂⟩ :=
    Run.forIn_updatesEach sp.members st₁ hnd (fun x _ u => keepSelf_updatesAt x u) hheld₁
  refine ⟨st₂, by simpa using hupd₁.trans hupd₂, ?_⟩
  -- every future answered, so none of them fails the population
  have hnone : sp.members.findSome? (fun _ => (none : Option Fault)) = none :=
    List.findSome?_eq_none_iff.2 fun _ _ => rfl
  simp only [evaluate, single, hsingle, if_true, EStateM.run_bind, Run.ofExcept_pure_run, hscore,
    List.findSome?_map, Function.comp_def, hnone]
  rw [hloop]

/-- **Scoring through futures is not scoring directly.**  Over a single
subpopulation of distinct members, each kept under its own identity with a
simple fitness read in one direction and scored by the problem with an exact
value:

* scored directly, every member holds its score and the first member at
  least as good as every member is answered;
* scored through futures, every member holds itself as its score; a member
  alone is answered, and with two members or more the search for the best
  fails with the `TypeError` of comparing the second member to the first.

Either way nothing but the members changes. -/
theorem evaluate_direct_and_through_futures (hsingle : p.subpops = [sp]) (hs : st.Sound fun _ => True)
    (hnd : sp.members.Nodup)
    (hscored : ∀ x ∈ sp.members, ∃ i, st.individuals[x]? = some i ∧ i.fitness.measure = .simple ∧
      i.fitness.higherIsBetter = .bool up ∧ sp.problem.score i = .ok (val x) ∧ (val x).exactValue?.isSome)
    {a : Nat} {rest : List Nat} (hmem : sp.members = a :: rest) :
    (∃ b st₁, Pareto.firstBest up val sp.members = some b ∧ (p.evaluate false).run st = .ok b st₁ ∧
      st.UpdatedOn st₁ sp.members fun x i => i.scored (val x)) ∧
    ∃ st₂, st.UpdatedOn st₂ sp.members (fun _ i => i.scored i.asValue) ∧
      (rest = [] → (p.evaluate true).run st = .ok a st₂) ∧
      ∀ b more, rest = b :: more → ∃ ia ib, st.individuals[a]? = some ia ∧ st.individuals[b]? = some ib ∧
        (p.evaluate true).run st = .error (Value.unordered (if up then .gt else .lt) ib.asValue ia.asValue) st₂ := by
  obtain ⟨st₂, hupd, hrun⟩ := evaluate_futures_run hsingle hs hnd hscored
  refine ⟨evaluate_direct_run hsingle hs hnd hscored (hmem ▸ List.cons_ne_nil a rest), st₂, hupd,
    fun hrest => ?alone, fun b more hrest => ?more⟩
  case alone =>
    subst hrest
    rw [hrun, hmem]
    rfl
  case more =>
    -- the first comparison is of the second member's self with the first's
    subst hrest
    obtain ⟨ia, hia, hia₂, -, hma, hupa, -⟩ := found_of_updatedOn hs hscored hupd a (hmem ▸ List.mem_cons_self)
    obtain ⟨ib, hib, hib₂, -, hmb, hupb, -⟩ :=
      found_of_updatedOn hs hscored hupd b (hmem ▸ List.mem_cons_of_mem a List.mem_cons_self)
    refine ⟨ia, ib, hia, hib, ?_⟩
    rw [hrun, hmem]
    exact bestOf_run_error (better_run_selves hia₂ hib₂ hma hmb hupa hupb)

end Scored

/-- The three tied vectors, scored both ways: directly the second vector is
answered; through futures the comparison of the second vector with the first
fails. -/
theorem evaluate_direct_and_through_futures_tied :
    (∃ st₁, ((Population.mk [Subpopulation.tiedThree]).evaluate false).run Subpopulation.tiedScored =
      .ok 2 st₁) ∧
    ∃ st₂, ((Population.mk [Subpopulation.tiedThree]).evaluate true).run Subpopulation.tiedScored =
      .error (Fault.type "'>' not supported between instances of 'IntVector' and 'IntVector'") st₂ := by
  have hscored : ∀ x ∈ Subpopulation.tiedThree.members, ∃ i, Subpopulation.tiedScored.individuals[x]? = some i ∧
      i.fitness.measure = .simple ∧ i.fitness.higherIsBetter = .bool true ∧
      Subpopulation.tiedThree.problem.score i = .ok (Subpopulation.tiedScore x) ∧
      (Subpopulation.tiedScore x).exactValue?.isSome := by
    intro x hx
    obtain ⟨i, hi, -, -⟩ := Subpopulation.tiedScored_rated x hx
    simp only [Subpopulation.tiedThree, Subpopulation.members, Option.getD_some, List.mem_cons,
      List.not_mem_nil, or_false] at hx
    rcases hx with rfl | rfl | rfl <;>
      · simp only [Subpopulation.tiedScored, Std.HashMap.getElem?_insert, beq_iff_eq] at hi
        cases hi
        exact ⟨_, by simp only [Subpopulation.tiedScored, Std.HashMap.getElem?_insert, beq_iff_eq]; rfl,
          rfl, rfl, rfl, rfl⟩
  obtain ⟨⟨b, st₁, hb, hdirect, -⟩, st₂, -, -, hmore⟩ :=
    evaluate_direct_and_through_futures (rfl : (Population.mk [Subpopulation.tiedThree]).subpops = _)
      (fun k i hi => ⟨(Subpopulation.tiedScored_sound k i hi).1, (Subpopulation.tiedScored_sound k i hi).2.1,
        trivial⟩) (by decide) hscored (rfl : Subpopulation.tiedThree.members = 1 :: [2, 3])
  have hb2 : Pareto.firstBest true Subpopulation.tiedScore Subpopulation.tiedThree.members = some 2 := by
    decide +kernel
  rw [hb2, Option.some.injEq] at hb
  subst hb
  obtain ⟨ia, ib, hia, hib, hfail⟩ := hmore 2 [3] rfl
  simp only [Subpopulation.tiedScored, Std.HashMap.getElem?_insert, beq_iff_eq] at hia hib
  cases hia
  cases hib
  exact ⟨⟨st₁, hdirect⟩, st₂, hfail⟩

end Population

end Evolver
