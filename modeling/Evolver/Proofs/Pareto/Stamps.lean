import Evolver.Proofs.Pareto.Scores
/-!
# What sorting reads and writes

Non-dominated sorting reads the scores of individuals and writes two stamps
on their fitnesses: the crowding distance and the front rank.  The store is
seen through three views, the individual without its stamps
(`Store.baseAt`), its crowding distance (`Store.crowdingAt`) and its front
rank (`Store.rankAt`); writing a stamp changes that view of that individual
and nothing else (`Store.withCrowding`, `Store.withRank`).

Each step of sorting is stated once by its run, so that later proofs peel
`do` blocks with `EStateM.run_bind` and cite these lemmas:

* `objective_run`: objective `k` of a scored individual is its `k`-th score;
* `setCrowding_run`, `setRank_run`: a stamp written on an individual kept
  under its own identity;
* `sortByKey_perm`, `sortByKey_sorted`: sorting identities by a key read
  from the store never fails when the keys compare, keeps the identities,
  and orders them by the exact values of the keys.

`Population flags score s S` says that the identities `S` are distinct and
each holds an individual with a ranked, evaluated fitness whose scores are
`score id`, read up or down by `flags`.
-/

namespace Evolver

open Numeric

/-- An individual without the stamps sorting gives it. -/
def Individual.unstamped (i : Individual) : Individual :=
  { i with fitness := { i.fitness with crowding := none, frontRank := none } }

@[simp] theorem Individual.unstamped_id (i : Individual) : i.unstamped.id = i.id := rfl

/-- Stamps do not touch what makes a fitness scored. -/
theorem Fitness.scored_unstamped {flags : List Bool} {xs : List Value} {i : Individual} :
    i.unstamped.fitness.Scored flags xs ↔ i.fitness.Scored flags xs :=
  ⟨fun h => ⟨h.1, h.2, h.3, h.4, h.5, h.6⟩, fun h => ⟨h.1, h.2, h.3, h.4, h.5, h.6⟩⟩

namespace Store

/-- The individual of an identity without its stamps. -/
def baseAt (s : Store) (id : Nat) : Option Individual := s.individuals[id]?.map Individual.unstamped

/-- The crowding distance of an individual. -/
def crowdingAt (s : Store) (id : Nat) : Option Value := s.individuals[id]?.bind (·.fitness.crowding)

/-- The front rank of an individual. -/
def rankAt (s : Store) (id : Nat) : Option Value := s.individuals[id]?.bind (·.fitness.frontRank)

/-- The individual `id` is kept under its own identity. -/
def Keeps (s : Store) (id : Nat) : Prop := ∃ i, s.baseAt id = some i ∧ i.id = id

/-- The individual `id` is kept under its own identity, and its fitness is
scored with the scores `xs`, read by `flags`. -/
def ScoredAt (flags : List Bool) (s : Store) (id : Nat) (xs : List Value) : Prop :=
  ∃ i, s.baseAt id = some i ∧ i.id = id ∧ i.fitness.Scored flags xs

theorem ScoredAt.keeps {flags : List Bool} {s : Store} {id : Nat} {xs : List Value}
    (h : s.ScoredAt flags id xs) : s.Keeps id := by
  obtain ⟨i, hi, hid, -⟩ := h
  exact ⟨i, hi, hid⟩

theorem Keeps.exists {s : Store} {id : Nat} (h : s.Keeps id) :
    ∃ i, s.individuals[id]? = some i ∧ i.id = id := by
  obtain ⟨i, hi, rfl⟩ := h
  obtain ⟨j, hj, rfl⟩ := Option.map_eq_some_iff.1 hi
  exact ⟨j, hj, rfl⟩

theorem ScoredAt.exists {flags : List Bool} {s : Store} {id : Nat} {xs : List Value}
    (h : s.ScoredAt flags id xs) : ∃ i, s.individuals[id]? = some i ∧ i.id = id ∧ i.fitness.Scored flags xs := by
  obtain ⟨i, hi, rfl, hs⟩ := h
  obtain ⟨j, hj, rfl⟩ := Option.map_eq_some_iff.1 hi
  exact ⟨j, hj, rfl, Fitness.scored_unstamped.1 hs⟩

/-- The store with the crowding distance of `id` set to `v`. -/
def withCrowding (s : Store) (id : Nat) (v : Value) : Store :=
  match s.individuals[id]? with
  | some i => { s with individuals := s.individuals.insert id { i with fitness := { i.fitness with crowding := some v } } }
  | none => s

/-- The store with the front rank of `id` set to `v`. -/
def withRank (s : Store) (id : Nat) (v : Value) : Store :=
  match s.individuals[id]? with
  | some i => { s with individuals := s.individuals.insert id { i with fitness := { i.fitness with frontRank := some v } } }
  | none => s

section Views

variable (s : Store) (id x : Nat) (v : Value)

theorem individuals_withCrowding :
    (s.withCrowding id v).individuals[x]? =
      if id = x then s.individuals[x]?.map fun i => { i with fitness := { i.fitness with crowding := some v } }
      else s.individuals[x]? := by
  unfold withCrowding
  split <;> rename_i h <;> by_cases hx : id = x <;> simp_all [Std.HashMap.getElem?_insert]

theorem individuals_withRank :
    (s.withRank id v).individuals[x]? =
      if id = x then s.individuals[x]?.map fun i => { i with fitness := { i.fitness with frontRank := some v } }
      else s.individuals[x]? := by
  unfold withRank
  split <;> rename_i h <;> by_cases hx : id = x <;> simp_all [Std.HashMap.getElem?_insert]

@[simp] theorem baseAt_withCrowding : (s.withCrowding id v).baseAt x = s.baseAt x := by
  simp only [baseAt, individuals_withCrowding]
  split <;> cases s.individuals[x]? <;> rfl

@[simp] theorem rankAt_withCrowding : (s.withCrowding id v).rankAt x = s.rankAt x := by
  simp only [rankAt, individuals_withCrowding]
  split <;> cases s.individuals[x]? <;> rfl

@[simp] theorem baseAt_withRank : (s.withRank id v).baseAt x = s.baseAt x := by
  simp only [baseAt, individuals_withRank]
  split <;> cases s.individuals[x]? <;> rfl

@[simp] theorem crowdingAt_withRank : (s.withRank id v).crowdingAt x = s.crowdingAt x := by
  simp only [crowdingAt, individuals_withRank]
  split <;> cases s.individuals[x]? <;> rfl

variable {s id}

theorem crowdingAt_withCrowding (h : s.Keeps id) :
    (s.withCrowding id v).crowdingAt x = if id = x then some v else s.crowdingAt x := by
  obtain ⟨i, hi, -⟩ := h.exists
  simp only [crowdingAt, individuals_withCrowding]
  split <;> simp_all

theorem rankAt_withRank (h : s.Keeps id) :
    (s.withRank id v).rankAt x = if id = x then some v else s.rankAt x := by
  obtain ⟨i, hi, -⟩ := h.exists
  simp only [rankAt, individuals_withRank]
  split <;> simp_all

end Views

end Store

theorem Run.get_run {s : Store} {id : Nat} {i : Individual} (h : s.individuals[id]? = some i) :
    (Run.get id).run s = .ok i s := by
  simp [Run.get, EStateM.run, bind, EStateM.bind, getThe, MonadStateOf.get, EStateM.get, pure,
    EStateM.pure, h]

@[simp] theorem Run.ofExcept_ok_run {α : Type} (a : α) (s : Store) :
    (Run.ofExcept (.ok a)).run s = .ok a s := rfl

theorem Value.item_of_items {v : Value} {xs : List Value} (h : Fitness.items v = .ok xs) {k : Nat}
    (hk : k < xs.length) : v.item k = .ok xs[k] := by
  have hres : resolveIndex xs.length k = some k := by
    have h0 : ¬ ((k : Int) < 0) := by omega
    have hk' : (k : Int) < xs.length := by omega
    simp [resolveIndex, h0, hk']
  cases v <;> simp only [Fitness.items, reduceCtorEq, Except.ok.injEq] at h <;> subst h <;>
    simp [Value.item, hres, List.getD_eq_getElem?_getD, hk]

namespace Pareto

variable {flags : List Bool} {s : Store} {id : Nat} {xs : List Value}

/-- The objectives of a stored individual whose objectives are numbers are
its score, read without touching the store. -/
theorem objectives_run_of_get {i : Individual} (hi : s.individuals[id]? = some i)
    (hc : i.fitness.Objectives flags xs) : (objectives id).run s = .ok i.fitness.score s := by
  simp only [objectives, EStateM.run_bind, Run.get_run hi, Individual.pureFitness, hc.pure_eq,
    Run.ofExcept_ok_run]

theorem objectives_run (h : s.ScoredAt flags id xs) :
    ∃ v, (objectives id).run s = .ok v s ∧ Fitness.items v = .ok xs := by
  obtain ⟨i, hi, -, hs⟩ := h.exists
  exact ⟨i.fitness.score, objectives_run_of_get hi hs.objectives, hs.items_score⟩

/-- Objective `k` of a scored individual is its `k`-th score. -/
theorem objective_run (h : s.ScoredAt flags id xs) {k : Nat} (hk : k < xs.length) :
    (objective k id).run s = .ok xs[k] s := by
  obtain ⟨v, hv, hitems⟩ := objectives_run h
  simp only [objective, EStateM.run_bind, hv, Value.item_of_items hitems hk, Run.ofExcept_ok_run]

theorem crowdingOf_run (h : s.Keeps id) {c : Value} (hc : s.crowdingAt id = some c) :
    (crowdingOf id).run s = .ok c s := by
  obtain ⟨i, hi, -⟩ := h.exists
  have hic : i.fitness.crowding = some c := by simpa [Store.crowdingAt, hi] using hc
  simp only [crowdingOf, EStateM.run_bind, Run.get_run hi, hic, Fitness.stat, Run.ofExcept_ok_run]

theorem setCrowding_run (h : s.Keeps id) (v : Value) :
    (setCrowding id v).run s = .ok () (s.withCrowding id v) := by
  obtain ⟨i, hi, hid⟩ := h.exists
  simp [setCrowding, Run.update, Run.put, Run.get, Store.withCrowding, EStateM.run, bind, EStateM.bind,
    getThe, MonadStateOf.get, EStateM.get, pure, EStateM.pure, hi, modify, modifyGet,
    MonadStateOf.modifyGet, EStateM.modifyGet, hid]

theorem setRank_run (h : s.Keeps id) (v : Value) :
    (setRank id v).run s = .ok () (s.withRank id v) := by
  obtain ⟨i, hi, hid⟩ := h.exists
  simp [setRank, Run.update, Run.put, Run.get, Store.withRank, EStateM.run, bind, EStateM.bind,
    getThe, MonadStateOf.get, EStateM.get, pure, EStateM.pure, hi, modify, modifyGet,
    MonadStateOf.modifyGet, EStateM.modifyGet, hid]

/-! ### Sorting by a key read from the store -/

section SortByKey

variable {key : Nat → Run Value} {val : Nat → Value}

/-- Reading a key that the store answers without change, for each identity
in turn. -/
theorem mapM_keyed_run :
    ∀ (ids : List Nat), (∀ id ∈ ids, (key id).run s = .ok (val id) s) →
      (ids.mapM fun i => do pure (i, ← key i)).run s = .ok (ids.map fun i => (i, val i)) s
  | [], _ => rfl
  | i :: ids, h => by
    simp only [List.mapM_cons, EStateM.run_bind, h i List.mem_cons_self, EStateM.run_pure,
      mapM_keyed_run ids fun j hj => h j (List.mem_cons_of_mem i hj), List.map_cons]

/-- The comparison sorting by a key makes: the keys by `<`. -/
def keyLt (a b : Nat × Value) : Except Fault Bool := Value.compare .lt a.2 b.2

theorem sortByKey_run {ids : List Nat} (h : ∀ id ∈ ids, (key id).run s = .ok (val id) s) {desc : Bool}
    {sorted : List (Nat × Value)}
    (hs : (if desc then sortDesc keyLt (ids.map fun i => (i, val i))
      else sortBy keyLt (ids.map fun i => (i, val i))) = .ok sorted) :
    (sortByKey ids key desc).run s = .ok (sorted.map (·.1)) s := by
  simp only [sortByKey, EStateM.run_bind, mapM_keyed_run ids h]
  rw [show (fun a b : Nat × Value => Value.compare .lt a.2 b.2) = keyLt from rfl, hs]
  rfl

variable {ids : List Nat}

/-- The keyed identities all carry their own key. -/
theorem mem_keyed {p : Nat × Value} (hp : p ∈ ids.map fun i => (i, val i)) : p.1 ∈ ids ∧ p.2 = val p.1 := by
  obtain ⟨i, hi, rfl⟩ := List.mem_map.1 hp
  exact ⟨hi, rfl⟩

/-- Identities whose keys are numbers make keyed identities whose keys are
numbers. -/
theorem keyed_isSome (hex : ∀ id ∈ ids, (val id).exactValue?.isSome) :
    ∀ p ∈ ids.map (fun i => (i, val i)), p.2.exactValue?.isSome := fun p hp => by
  rw [(mem_keyed hp).2]
  exact hex _ (mem_keyed hp).1

/-- Keyed identities in order of their keys are the identities in order of
their values. -/
theorem pairwise_fst_keyed {r : Value → Value → Prop} {ys : List (Nat × Value)}
    (hp : ys.Perm (ids.map fun i => (i, val i))) (hsorted : ys.Pairwise fun p q => r p.2 q.2) :
    (ys.map (·.1)).Pairwise fun a b => r (val a) (val b) := by
  rw [List.pairwise_map]
  exact hsorted.imp_of_mem fun ha hb hab => by
    rwa [← (mem_keyed (hp.subset ha)).2, ← (mem_keyed (hp.subset hb)).2]

theorem fst_of_perm_keyed {sorted : List (Nat × Value)} (hp : sorted.Perm (ids.map fun i => (i, val i))) :
    (sorted.map (·.1)).Perm ids := by
  simpa [List.map_map, Function.comp_def] using hp.map (·.1)

/-- Comparing keys by their exact values. -/
theorem keyLt_comparesBy :
    ComparesBy keyLt (fun p : Nat × Value => p.2.exactValue?.isSome) fun p => p.2.exact :=
  fun a b ha hb => by
    rw [keyLt, Value.compare_eq_holds .lt (Value.exactValue?_eq_exact ha) (Value.exactValue?_eq_exact hb),
      Relation.holds_lt_compare]

/-- **Sorting by a key keeps the identities** when every two keys compare. -/
theorem sortByKey_perm (h : ∀ id ∈ ids, (key id).run s = .ok (val id) s)
    (hans : ∀ a ∈ ids, ∀ b ∈ ids, ∃ r, Value.compare .lt (val a) (val b) = .ok r) (desc : Bool) :
    ∃ sorted, (sortByKey ids key desc).run s = .ok sorted s ∧ sorted.Perm ids := by
  have hlt : AnswersOn keyLt fun p => p ∈ ids.map fun i => (i, val i) := by
    intro a b ha hb
    obtain ⟨ha1, ha2⟩ := mem_keyed ha
    obtain ⟨hb1, hb2⟩ := mem_keyed hb
    rw [keyLt, ha2, hb2]
    exact hans _ ha1 _ hb1
  cases desc
  · obtain ⟨ys, hys, hp⟩ := sortBy_perm hlt _ fun p hp => hp
    exact ⟨_, sortByKey_run h (by simpa using hys), fst_of_perm_keyed hp⟩
  · obtain ⟨ys, hys, hp⟩ := sortDesc_perm hlt _ fun p hp => hp
    exact ⟨_, sortByKey_run h (by simpa using hys), fst_of_perm_keyed hp⟩

/-- **Sorting by a key orders the identities by the exact values of their
keys**, smallest first, as `sortBy` orders the keyed identities. -/
theorem sortByKey_sorted (h : ∀ id ∈ ids, (key id).run s = .ok (val id) s)
    (hex : ∀ id ∈ ids, (val id).exactValue?.isSome) :
    ∃ sorted, (sortByKey ids key false).run s = .ok sorted s ∧ sorted.Perm ids ∧
      (sorted.Pairwise fun a b => (val a).exact ≤ (val b).exact) ∧
      (fun l => l.map (·.1)) <$> sortBy keyLt (ids.map fun i => (i, val i)) = .ok sorted := by
  obtain ⟨ys, hys, hp, hsorted⟩ := sortBy_sorted keyLt_comparesBy _ (keyed_isSome hex)
  exact ⟨_, sortByKey_run h (by simpa using hys), fst_of_perm_keyed hp,
    pairwise_fst_keyed (r := fun x y => x.exact ≤ y.exact) hp hsorted, by rw [hys]; rfl⟩

/-- **Sorting by a key, largest first, orders the identities by decreasing
exact values of their keys.** -/
theorem sortByKey_sorted_desc (h : ∀ id ∈ ids, (key id).run s = .ok (val id) s)
    (hex : ∀ id ∈ ids, (val id).exactValue?.isSome) :
    ∃ sorted, (sortByKey ids key true).run s = .ok sorted s ∧ sorted.Perm ids ∧
      sorted.Pairwise fun a b => (val b).exact ≤ (val a).exact := by
  obtain ⟨ys, hys, hp, hsorted⟩ := sortDesc_sorted keyLt_comparesBy _ (keyed_isSome hex)
  exact ⟨_, sortByKey_run h (by simpa using hys), fst_of_perm_keyed hp,
    pairwise_fst_keyed (r := fun x y => y.exact ≤ x.exact) hp hsorted⟩

/-- **With distinct keys, sorting keyed identities does not depend on their
order.** -/
theorem sortBy_keyed_eq_of_perm {ids' : List Nat} (hp : ids.Perm ids')
    (hex : ∀ id ∈ ids, (val id).exactValue?.isSome)
    (hinj : ∀ a ∈ ids, ∀ b ∈ ids, (val a).exact = (val b).exact → a = b) :
    sortBy keyLt (ids.map fun i => (i, val i)) = sortBy keyLt (ids'.map fun i => (i, val i)) := by
  refine sortBy_eq_of_perm keyLt_comparesBy (hp.map _) (keyed_isSome hex) fun a ha b hb hab => ?_
  obtain ⟨ha1, ha2⟩ := mem_keyed ha
  obtain ⟨hb1, hb2⟩ := mem_keyed hb
  have hid : a.1 = b.1 := hinj _ ha1 _ hb1 (by rw [← ha2, ← hb2]; exact hab)
  exact Prod.ext hid (by rw [ha2, hb2, hid])

/-- A sort by a key that answers is the sort of the keyed identities. -/
theorem sortByKey_run_ok (h : ∀ id ∈ ids, (key id).run s = .ok (val id) s) {desc : Bool} {sorted : List Nat}
    {s' : Store} (hrun : (sortByKey ids key desc).run s = .ok sorted s') :
    (fun l => l.map (·.1)) <$> (if desc then sortDesc keyLt (ids.map fun i => (i, val i))
      else sortBy keyLt (ids.map fun i => (i, val i))) = .ok sorted := by
  cases hs : (if desc then sortDesc keyLt (ids.map fun i => (i, val i))
      else sortBy keyLt (ids.map fun i => (i, val i))) with
  | error e =>
    simp only [sortByKey, EStateM.run_bind, mapM_keyed_run ids h] at hrun
    rw [show (fun a b : Nat × Value => Value.compare .lt a.2 b.2) = keyLt from rfl, hs] at hrun
    cases hrun
  | ok ys =>
    rw [sortByKey_run h hs] at hrun
    injection hrun with hsorted
    rw [← hsorted]
    rfl

end SortByKey

end Pareto

/-- A crowding distance as sorting writes it: the integer zero or a double. -/
def Value.IsCrowding (v : Value) : Prop := v = .int 0 ∨ ∃ x, v = .float x

/-- Crowding distances always compare, NaN included. -/
theorem Value.compare_answers_of_isCrowding (r : Relation) {a b : Value} (ha : a.IsCrowding)
    (hb : b.IsCrowding) : ∃ t, Value.compare r a b = .ok t := by
  rcases ha with rfl | ⟨x, rfl⟩ <;> rcases hb with rfl | ⟨y, rfl⟩ <;> exact ⟨_, rfl⟩

namespace Pareto

/-- Whether individual `a` dominates individual `b` by their fitnesses. -/
def dominatesAt (s : Store) (a b : Nat) : Bool :=
  match s.individuals[a]?, s.individuals[b]? with
  | some x, some y => (x.fitness.dominates x.size y.fitness y.size).toOption == some true
  | _, _ => false

/-- Individuals that dominance compares: distinct identities, each holding an
individual whose ranked, evaluated fitness has the scores `score id`, one
number other than NaN per flag, read by `flags`. -/
structure Evaluated (flags : List Bool) (score : Nat → List Value) (s : Store) (S : List Nat) : Prop where
  nodup : S.Nodup
  compared : ∀ id ∈ S, ∃ i, s.baseAt id = some i ∧ i.fitness.Objectives flags (score id)

namespace Evaluated

variable {score : Nat → List Value} {S : List Nat} (hS : Evaluated flags score s S)
include hS

theorem exists_individual {id : Nat} (h : id ∈ S) :
    ∃ i, s.individuals[id]? = some i ∧ i.fitness.Objectives flags (score id) := by
  obtain ⟨i, hi, hc⟩ := hS.compared id h
  obtain ⟨j, hj, rfl⟩ := Option.map_eq_some_iff.1 hi
  exact ⟨j, hj, ⟨hc.1, hc.2, hc.3, hc.4, hc.5, hc.6⟩⟩

/-- On individuals that dominance compares, it is the Pareto order of the
exact scores. -/
theorem dominatesAt_eq {a b : Nat} (ha : a ∈ S) (hb : b ∈ S) :
    dominatesAt s a b = decide (Dominates flags ((score a).map Value.exact) ((score b).map Value.exact)) := by
  obtain ⟨x, hx, hxs⟩ := hS.exists_individual ha
  obtain ⟨y, hy, hys⟩ := hS.exists_individual hb
  simp only [dominatesAt, hx, hy, hxs.dominates_eq hys, Except.toOption]
  cases decide (Dominates flags ((score a).map Value.exact) ((score b).map Value.exact)) <;> rfl

theorem dominatesAt_irrefl {a : Nat} (ha : a ∈ S) : dominatesAt s a a = false := by
  rw [hS.dominatesAt_eq ha ha, decide_eq_false (Dominates.irrefl _ _)]

theorem dominatesAt_trans {a b c : Nat} (ha : a ∈ S) (hb : b ∈ S) (hc : c ∈ S)
    (hab : dominatesAt s a b = true) (hbc : dominatesAt s b c = true) : dominatesAt s a c = true := by
  rw [hS.dominatesAt_eq ha hb, decide_eq_true_eq] at hab
  rw [hS.dominatesAt_eq hb hc, decide_eq_true_eq] at hbc
  rw [hS.dominatesAt_eq ha hc, decide_eq_true_eq]
  exact hab.trans hbc

/-- Stamps keep what dominance compares. -/
theorem of_baseAt {s' : Store} (h : ∀ id, s'.baseAt id = s.baseAt id) : Evaluated flags score s' S :=
  ⟨hS.nodup, fun id hid => by
    obtain ⟨i, hi, hc⟩ := hS.compared id hid
    exact ⟨i, (h id).trans hi, hc⟩⟩

theorem objectives_run {id : Nat} (hid : id ∈ S) :
    ∃ v, (objectives id).run s = .ok v s ∧ Fitness.items v = .ok (score id) := by
  obtain ⟨i, hi, hc⟩ := hS.exists_individual hid
  exact ⟨i.fitness.score, objectives_run_of_get hi hc, hc.items_score⟩

/-- Objective `k` of an individual dominance compares is its `k`-th score,
whatever its size. -/
theorem objective_run {id k : Nat} (hid : id ∈ S) (hk : k < (score id).length) :
    (objective k id).run s = .ok (score id)[k] s := by
  obtain ⟨v, hv, hitems⟩ := hS.objectives_run hid
  simp only [objective, EStateM.run_bind, hv, Value.item_of_items hitems hk, Run.ofExcept_ok_run]

/-- Comparing two of the individuals answers without touching the store. -/
theorem dominatesIn_run {a b : Nat} (ha : a ∈ S) (hb : b ∈ S) :
    (Dominance.dominatesIn a b).run s = .ok (dominatesAt s a b) s := by
  obtain ⟨x, hx, hxs⟩ := hS.exists_individual ha
  obtain ⟨y, hy, hys⟩ := hS.exists_individual hb
  have hd := hxs.dominates_eq hys x.size y.size
  simp only [Dominance.dominatesIn, EStateM.run_bind, Run.get_run hx, Run.get_run hy, hd,
    Run.ofExcept_ok_run, hS.dominatesAt_eq ha hb]

end Evaluated

/-- A population for sorting: distinct identities, each holding an
individual kept under its identity whose ranked fitness has the scores
`score id`, read by `flags`, of which there is at least one. -/
structure Population (flags : List Bool) (score : Nat → List Value) (s : Store) (S : List Nat) : Prop where
  nodup : S.Nodup
  wide : flags ≠ []
  scored : ∀ id ∈ S, s.ScoredAt flags id (score id)

namespace Population

variable {score : Nat → List Value} {S : List Nat} (hS : Population flags score s S)
include hS

/-- Stamps keep a population. -/
theorem of_baseAt {s' : Store} (h : ∀ id, s'.baseAt id = s.baseAt id) : Population flags score s' S :=
  ⟨hS.nodup, hS.wide, fun id hid => by
    obtain ⟨i, hi, hid', hsc⟩ := hS.scored id hid
    exact ⟨i, (h id).trans hi, hid', hsc⟩⟩

/-- Part of a population is a population. -/
theorem sublist {T : List Nat} (hT : T.Sublist S) : Population flags score s T :=
  ⟨hT.nodup hS.nodup, hS.wide, fun id hid => hS.scored id (hT.subset hid)⟩

theorem keeps {id : Nat} (h : id ∈ S) : s.Keeps id := (hS.scored id h).keeps

/-- A population is compared by dominance. -/
theorem evaluated : Evaluated flags score s S :=
  ⟨hS.nodup, fun id h => by
    obtain ⟨i, hi, -, hsc⟩ := hS.scored id h
    exact ⟨i, hi, hsc.objectives⟩⟩

end Population

end Pareto

end Evolver
