import Evolver.Proofs.Breed.Operators
import Evolver.Proofs.Pareto.Stamps
/-!
# A selection adds fresh copies

A selection copies individuals of a source list onto a destination list.
Every copy is a clone, kept under the next identity, so:

* a copy answers an identity handed out by the copy itself (`Selection.mints_copy`),
  and a loop of copies answers distinct identities, in increasing order, all
  handed out during the loop (`Run.mapM_freshIn`): lists of such identities
  are `FreshIn` the range the loop handed out;
* every selection changes no individual it found (`Selection.confined_select`);
* a tournament selection, when it answers, answers the destination followed
  by as many fresh copies as the destination lacks
  (`Selection.select_tournament_freshIn`);
* an elitism selection over scored individuals always answers: the
  destination followed by copies, with the same genomes, of the first `count`
  individuals of the source sorted best first (`Selection.select_elitism_run`).
-/

namespace Evolver

/-! ### Identities handed out in a range -/

/-- The identities of `l` are distinct, in increasing order, and were handed
out from `a` on and before `b`. -/
structure FreshIn (a b : Nat) (l : List Nat) : Prop where
  le : a ≤ b
  sorted : l.Pairwise (· < ·)
  bounds : ∀ k ∈ l, a ≤ k ∧ k < b

namespace FreshIn

variable {a b c k : Nat} {l l' : List Nat}

theorem nil (h : a ≤ b) : FreshIn a b [] := ⟨h, List.Pairwise.nil, fun _ h => absurd h List.not_mem_nil⟩

theorem singleton (ha : a ≤ k) (hb : k < b) : FreshIn a b [k] :=
  ⟨by omega, List.pairwise_singleton _ _, fun j hj => by rw [List.mem_singleton.1 hj]; omega⟩

theorem append (h : FreshIn a b l) (h' : FreshIn b c l') : FreshIn a c (l ++ l') := by
  refine ⟨Nat.le_trans h.le h'.le, List.pairwise_append.2 ⟨h.sorted, h'.sorted, fun x hx y hy => ?_⟩,
    fun k hk => ?_⟩
  · have hx' := h.bounds x hx
    have hy' := h'.bounds y hy
    omega
  · have hbc := h'.le
    rcases List.mem_append.1 hk with hk | hk
    · have := h.bounds k hk
      omega
    · have := h'.bounds k hk
      have hab := h.le
      omega

theorem mono (h : FreshIn a b l) {a' b' : Nat} (ha : a' ≤ a) (hb : b ≤ b') : FreshIn a' b' l :=
  ⟨by have := h.le; omega, h.sorted, fun k hk => by have := h.bounds k hk; omega⟩

theorem nodup (h : FreshIn a b l) : l.Nodup := h.sorted.imp Nat.ne_of_lt

end FreshIn

/-! ### Lists, slices and flags -/

theorem slice_subset {xs : List Nat} {a b : Int} {x : Nat} (h : x ∈ slice xs a b) : x ∈ xs :=
  List.mem_of_mem_take (List.mem_of_mem_drop h)

/-- A slice from the front is the first items. -/
theorem slice_zero_left {xs : List Nat} {count : Int} (h : 0 ≤ count) : slice xs 0 count = xs.take count.toNat := by
  unfold slice
  simp only [Int.lt_irrefl, if_false]
  rw [if_neg (Int.not_lt.2 h)]
  have h0 : (min 0 (xs.length : Int)).toNat = 0 := by omega
  rw [h0, List.drop_zero]
  by_cases hc : count ≤ xs.length
  · rw [Int.min_eq_left hc]
  · rw [Int.min_eq_right (by omega), Int.toNat_natCast, List.take_length, List.take_of_length_le (by omega)]

theorem zip_map_self (xs : List Nat) (f : Nat → Value) : xs.zip (xs.map f) = xs.map fun x => (x, f x) := by
  induction xs with
  | nil => rfl
  | cons x xs ih => simp [ih]

@[simp] theorem Value.truth_bool (b : Bool) : (Value.bool b).truth = .ok b := by
  cases b <;> rfl

namespace Store

/-- Every identity of `ids` is kept, and `val id` is the score comparisons
see for it, an exact number. -/
def Rated (s : Store) (ids : List Nat) (val : Nat → Value) : Prop :=
  ∀ id ∈ ids, ∃ i, s.individuals[id]? = some i ∧ i.augmentedFitness = .ok (val id) ∧ (val id).exactValue?.isSome

/-- Identities scored in one store are scored alike in a store where they
keep their genome and fitness. -/
theorem Rated.of_core_eq {s s' : Store} {ids : List Nat} {val : Nat → Value} (h : s.Rated ids val)
    (hcore : ∀ id ∈ ids, s'.core id = s.core id) : s'.Rated ids val := by
  intro id hid
  obtain ⟨i, hi, hv, hex⟩ := h id hid
  have hc := hcore id hid
  rw [core, core, hi, Option.map_some] at hc
  obtain ⟨i', hi', hsame⟩ := Option.map_eq_some_iff.1 hc
  simp only [Prod.mk.injEq] at hsame
  refine ⟨i', hi', ?_, hex⟩
  rw [← hv, Individual.augmentedFitness, Individual.augmentedFitness, Individual.size, Individual.size,
    hsame.1, hsame.2]

/-- The genome of the individual of an identity, if there is one. -/
def genomeAt (s : Store) (k : Nat) : Option Genome := s.individuals[k]?.map (·.genome)

/-- A store that spares an identity keeps its genome. -/
theorem Spares.genomeAt_eq {T : Nat → Prop} {s s' : Store} (h : s.Spares T s') {k : Nat}
    (hk : k < s.lab.nextId) (hT : ¬ T k) : s'.genomeAt k = s.genomeAt k := by
  have hcore := congrArg (Option.map Prod.fst) (h.2 k hk hT)
  simpa [core, genomeAt, Option.map_map, Function.comp_def] using hcore

/-- Every identity of `l` holds an individual. -/
def Holds (s : Store) (l : List Nat) : Prop := ∀ k ∈ l, (s.individuals[k]?).isSome

theorem Holds.append {s : Store} {l l' : List Nat} (h : s.Holds l) (h' : s.Holds l') : s.Holds (l ++ l') :=
  fun k hk => (List.mem_append.1 hk).elim (h k) (h' k)

/-- A change that spares every individual keeps them all. -/
theorem Holds.of_spares {F : Fitness → Prop} {s s' : Store} {l : List Nat} (h : s.Holds l) (hs : s.Sound F)
    (hsp : s.Spares (fun _ => False) s') : s'.Holds l := fun k hk => by
  obtain ⟨i, hi⟩ := Option.isSome_iff_exists.1 (h k hk)
  have hcore := hsp.2 k (hs k i hi).2.1 not_false
  rw [core, core, hi] at hcore
  obtain ⟨i', hi', -⟩ := Option.map_eq_some_iff.1 hcore
  rw [hi']
  rfl

/-- The store with `i` kept under the next identity, which is then taken. -/
def keepNext (s : Store) (i : Individual) : Store :=
  { s with lab := { s.lab with nextId := s.lab.nextId + 1 }, individuals := s.individuals.insert s.lab.nextId i }

end Store

namespace Draw.Steady

theorem betterThan (i : Individual) (j : Option Individual) : Steady (i.betterThan j) := by
  unfold Individual.betterThan Fitness.betterThan
  split
  · exact pure _
  · split
    · exact bind (ofExcept _) fun _ => bind (ofExcept _) fun _ => by
        split
        · exact bind (bits _) fun _ => pure _
        · exact ofExcept _
    · exact ofExcept _

theorem choose (p : List Float) (n : Nat) : Steady (Numeric.choose p n) := by
  unfold Numeric.choose
  dsimp only
  -- each guard fails or goes on; the picks then read the single-word stream only
  repeat' split
  all_goals first
    | exact throw_bind _ _
    | exact mapM (fun _ => bind legacyRandom fun _ => pure _) _

end Draw.Steady

namespace Run

variable {F : Fitness → Prop} {T : Nat → Prop}

theorem confined_better (a : Nat) (b : Option Nat) : Confined F T (better a b) := by
  unfold better
  refine Confined.bind (confined_get a) fun _ => ?_
  split
  · exact Confined.pure _
  · exact Confined.bind (confined_get _) fun _ => confined_draw (.betterThan _ _)

/-- Every answer of `x`, run from a sound store, is an identity that `x`
handed out itself and that holds an individual. -/
def Mints (F : Fitness → Prop) (x : Run Nat) : Prop :=
  ∀ s, s.Sound F → ∀ r s', x.run s = .ok r s' →
    s.lab.nextId ≤ r ∧ r < s'.lab.nextId ∧ (s'.individuals[r]?).isSome

/-- After a step that hands out no identity back, a step that hands out the
identity it answers still does. -/
theorem Mints.bind {α : Type} {x : Run α} {f : α → Run Nat} (hx : Confined F T x) (hf : ∀ a, Mints F (f a)) :
    Mints F (x >>= f) := by
  intro s hs r s' h
  obtain ⟨a, s₁, ha, hfa⟩ := bind_run_ok.1 h
  have hx' := hx.run_ok hs ha
  obtain ⟨h₁, h₂, h₃⟩ := hf a s₁ hx'.1 r s' hfa
  exact ⟨Nat.le_trans hx'.2.1 h₁, h₂, h₃⟩

/-- **A loop of steps that each hand out the identity they answer answers
fresh identities**, one per item, distinct and in increasing order, each
holding an individual at the end. -/
theorem mapM_freshIn {γ : Type} {f : γ → Run Nat} (hc : ∀ a, Confined F (fun _ => False) (f a))
    (hm : ∀ a, Mints F (f a)) :
    ∀ (xs : List γ) (s : Store), s.Sound F → ∀ r s', (xs.mapM f).run s = .ok r s' →
      r.length = xs.length ∧ FreshIn s.lab.nextId s'.lab.nextId r ∧ s'.Holds r
  | [], s, _, r, s', h => by
    cases h
    exact ⟨rfl, .nil (Nat.le_refl _), fun _ h => absurd h List.not_mem_nil⟩
  | x :: xs, s, hs, r, s', h => by
    rw [List.mapM_cons, bind_run_ok] at h
    obtain ⟨a, s₁, ha, h⟩ := h
    rw [bind_run_ok] at h
    obtain ⟨as, s₂, has, h⟩ := h
    obtain ⟨rfl, rfl⟩ := pure_run_ok.1 h
    have hs₁ : s₁.Sound F := by simpa [ha] using (hc x s hs).1
    obtain ⟨hlen, hfresh, hholds⟩ := mapM_freshIn hc hm xs s₁ hs₁ as s₂ has
    obtain ⟨h₁, h₂, h₃⟩ := hm x s hs a s₁ ha
    -- the first identity is kept by the rest of the loop
    have hrest := (Confined.mapM xs fun y _ => hc y).run_ok hs₁ has
    have hfirst : s₂.Holds [a] := Store.Holds.of_spares (fun k hk => by
      rw [List.mem_singleton.1 hk]
      exact h₃) hs₁ hrest.2
    exact ⟨by simp [hlen], (FreshIn.singleton h₁ h₂).append hfresh, hfirst.append hholds⟩

/-- A clone of a kept individual is kept under the next identity, which is
then taken. -/
theorem clone_run {s : Store} {id : Nat} {i : Individual} (h : s.individuals[id]? = some i) :
    (clone id).run s = .ok s.lab.nextId (s.keepNext (i.cloneAs s.lab.nextId)) := by
  simp only [clone, EStateM.run_bind, get_run_cases, h]
  rfl

end Run

namespace Selection

open Run

variable {F : Fitness → Prop} {T : Nat → Prop}

/-- **A copy is a clone that records the selection**, kept under the next
identity; every other identity keeps its individual. -/
theorem copy_run {s : Store} {id : Nat} {i : Individual} (h : s.individuals[id]? = some i) (sel : Selection) :
    ∃ s', (sel.copy id).run s = .ok s.lab.nextId s' ∧ s'.lab.nextId = s.lab.nextId + 1 ∧
      (∀ k, k ≠ s.lab.nextId → s'.individuals[k]? = s.individuals[k]?) ∧
      s'.individuals[s.lab.nextId]? =
        some { i.cloneAs s.lab.nextId with selectedBy := i.selectedBy ++ [sel.className] } := by
  refine ⟨{ s.keepNext (i.cloneAs s.lab.nextId) with
    individuals := (s.keepNext (i.cloneAs s.lab.nextId)).individuals.insert s.lab.nextId
      { i.cloneAs s.lab.nextId with selectedBy := i.selectedBy ++ [sel.className] } }, ?_, rfl, fun k hk => ?_, ?_⟩
  · simp only [copy, EStateM.run_bind, clone_run h, update, get_run_cases, Store.keepNext,
      Std.HashMap.getElem?_insert_self]
    rfl
  · simp only [Store.keepNext, Std.HashMap.getElem?_insert, beq_iff_eq, Individual.cloneAs]
    rw [if_neg (Ne.symm hk), if_neg (Ne.symm hk)]
  · simp only [Std.HashMap.getElem?_insert_self]

/-- Copying an identity that holds no individual fails. -/
theorem copy_run_none {s : Store} {id : Nat} (h : s.individuals[id]? = none) (sel : Selection) :
    (sel.copy id).run s = .error (Fault.request s!"no individual {id}") s := by
  simp only [copy, clone, EStateM.run_bind, get_run_cases, h]

theorem mints_copy (sel : Selection) (id : Nat) : Mints F (sel.copy id) := by
  intro s _ r s' hrun
  rcases hi : s.individuals[id]? with _ | i
  · rw [copy_run_none hi sel] at hrun
    cases hrun
  · obtain ⟨s₁, hcopy, hnext, -, hnew⟩ := copy_run hi sel
    rw [hcopy] at hrun
    cases hrun
    refine ⟨Nat.le_refl _, by omega, ?_⟩
    rw [hnew]
    rfl

theorem confined_copy (hF : ∀ f, F f → F f.stored) (sel : Selection) (id : Nat) :
    Confined F T (sel.copy id) :=
  Confined.bind (confined_clone id hF) fun c =>
    Confined.bind (confined_update c (fun _ => rfl) (fun _ h => h) (.inr fun _ => ⟨rfl, rfl⟩)) fun _ =>
      Confined.pure _

theorem confined_winner : ∀ ps : List Nat, Confined F T (winner ps)
  | [] => Confined.throw _
  | _ :: rest => Confined.foldlM (fun _ p => Confined.bind (confined_better p _) fun _ => by
      split <;> exact Confined.pure _) rest _

/-- One tournament's participants: positions drawn with replacement, or
without, which needs a size that is not negative. -/
theorem confined_tournament (w : Bool) (n : Nat) (size : Int) :
    Confined F T (if w = true then draw (Draw.pick n size.toNat)
      else if size < 0 then throw (Fault.value "Sample larger than population or is negative")
      else draw (Draw.sample n size.toNat)) := by
  split
  · exact confined_draw (.pick _ _)
  · split
    · exact Confined.throw _
    · exact confined_draw (.sample _ _)

theorem confined_scores (ids : List Nat) : Confined F T (scores ids) :=
  Confined.mapM ids fun id _ => Confined.bind (confined_get id) fun _ => Confined.ofExcept _

/-- **A selection changes no individual it found**: it only reads, draws and
adds copies. -/
theorem confined_select (hF : ∀ f, F f → F f.stored) (sel : Selection) (source dest : List Nat) :
    Confined F T (sel.select source dest) := by
  unfold select
  dsimp only
  split
  · -- a tournament: the size check, the draws, then a copy of each winner
    refine Confined.bind (Confined.ofExcept _) fun w => ?_
    split
    · exact Confined.throw_bind _ _
    exact Confined.bind (Confined.mapM _ fun _ _ => confined_tournament _ _ _) fun ts =>
      Confined.bind (Confined.mapM ts fun _ _ => Confined.bind (confined_winner _) fun c => confined_copy hF sel c)
        fun _ => Confined.pure _
  · exact Confined.bind (confined_scores _) fun _ => Confined.bind (Confined.ofExcept _) fun _ =>
      Confined.bind (Confined.ofExcept _) fun _ =>
        Confined.bind (Confined.mapM _ fun c _ => confined_copy hF sel c) fun _ => Confined.pure _
  · refine Confined.bind (confined_scores _) fun _ => Confined.bind (Confined.ofExcept _) fun _ =>
      Confined.bind (Confined.ofExcept _) fun _ => Confined.bind (Confined.ofExcept _) fun _ => ?_
    split
    · exact Confined.throw_bind _ _
    · exact Confined.bind (confined_draw (.choose _ _)) fun ps =>
        Confined.bind (Confined.mapM ps fun _ _ => confined_copy hF sel _) fun _ => Confined.pure _

/-- **A tournament selection adds as many fresh copies as the destination
lacks**: whenever it answers, it answers the destination followed by that
many identities, all handed out by the selection, distinct and increasing. -/
theorem select_tournament_freshIn (hF : ∀ f, F f → F f.stored) {sel : Selection} {size : Int} {replace : Value}
    (hch : sel.choice = .tournament size replace) (source dest : List Nat) {s s' : Store} (hs : s.Sound F)
    {r : List Nat} (h : (sel.select source dest).run s = .ok r s') :
    ∃ winners, r = dest ++ winners ∧ winners.length = ((source.length : Int) - dest.length).toNat ∧
      FreshIn s.lab.nextId s'.lab.nextId winners ∧ s'.Holds winners := by
  rw [select, hch] at h
  dsimp only at h
  rw [ofExcept_bind_run_ok] at h
  obtain ⟨w, -, h⟩ := h
  by_cases hc : (!w && decide ((source.length : Int) < size)) = true
  · -- the size check failed, and nothing was answered
    rw [if_pos hc] at h
    obtain ⟨_, _, hthrow, -⟩ := bind_run_ok.1 h
    cases hthrow
  rw [if_neg hc] at h
  obtain ⟨ts, s₁, hts, h⟩ := bind_run_ok.1 h
  obtain ⟨ws, s₂, hws, h⟩ := bind_run_ok.1 h
  obtain ⟨rfl, hs₂⟩ := pure_run_ok.1 h
  subst s₂
  -- the draws hand out no identity, and every winner's copy hands out its own
  have hdraws : Confined F (fun _ => False) ((List.range ((source.length : Int) - dest.length).toNat).mapM
      fun _ => if w = true then draw (Draw.pick source.length size.toNat)
        else if size < 0 then throw (Fault.value "Sample larger than population or is negative")
        else draw (Draw.sample source.length size.toNat)) :=
    Confined.mapM _ fun _ _ => confined_tournament _ _ _
  have hs₁ := hdraws.run_ok hs hts
  have hwin : ∀ ps, Confined F (fun _ => False) (winner ps) := confined_winner
  obtain ⟨hlen, hfresh, hholds⟩ := mapM_freshIn
    (fun t => Confined.bind (hwin _) fun c => confined_copy hF sel c)
    (fun t => Mints.bind (hwin _) fun c => mints_copy sel c) ts s₁ hs₁.1 ws s' hws
  refine ⟨ws, rfl, ?_, hfresh.mono hs₁.2.1 (Nat.le_refl _), hholds⟩
  rw [hlen, mapM_length _ hts, List.length_range]

/-! ### Elitism -/


/-- Reading the scores of individuals that are scored. -/
theorem scores_run {s : Store} {val : Nat → Value} :
    ∀ ids : List Nat, (∀ id ∈ ids, ∃ i, s.individuals[id]? = some i ∧ i.augmentedFitness = .ok (val id)) →
      (scores ids).run s = .ok (ids.map val) s
  | [], _ => rfl
  | id :: ids, h => by
    obtain ⟨i, hi, hv⟩ := h id List.mem_cons_self
    have hrest := scores_run ids fun j hj => h j (List.mem_cons_of_mem id hj)
    unfold scores at hrest ⊢
    simp only [List.mapM_cons, EStateM.run_bind, Run.get_run hi, hv, Run.ofExcept_ok_run, hrest,
      List.map_cons]
    rfl

/-- **Sorting identities keyed by exact scores puts the best first**, for
either direction of the scores, and keeps the identities. -/
theorem sort_keyed_best_first (up : Bool) {ids : List Nat} {val : Nat → Value}
    (hex : ∀ id ∈ ids, (val id).exactValue?.isSome) :
    ∃ sorted : List (Nat × Value),
      (if up then sortDesc Pareto.keyLt (ids.map fun i => (i, val i))
        else sortBy Pareto.keyLt (ids.map fun i => (i, val i))) = .ok sorted ∧
      (sorted.map (·.1)).Perm ids ∧
      (sorted.map (·.1)).Pairwise fun a b => Pareto.AtLeast up (val a).exact (val b).exact := by
  -- the order the sort gives holds of the keys, so of the scores of the identities
  cases up with
  | true =>
    obtain ⟨ys, hys, hp, hsorted⟩ := sortDesc_sorted Pareto.keyLt_comparesBy _ (Pareto.keyed_isSome hex)
    exact ⟨ys, hys, Pareto.fst_of_perm_keyed hp,
      Pareto.pairwise_fst_keyed (r := fun x y => Pareto.AtLeast true x.exact y.exact) hp hsorted⟩
  | false =>
    obtain ⟨ys, hys, hp, hsorted⟩ := sortBy_sorted Pareto.keyLt_comparesBy _ (Pareto.keyed_isSome hex)
    exact ⟨ys, hys, Pareto.fst_of_perm_keyed hp,
      Pareto.pairwise_fst_keyed (r := fun x y => Pareto.AtLeast false x.exact y.exact) hp hsorted⟩

/-- **Copies of kept individuals, one after another**: the loop answers,
with fresh identities whose genomes are those of the originals, in order, and
changes no individual it found. -/
theorem mapM_copy_run (hF : ∀ f, F f → F f.stored) (sel : Selection) :
    ∀ (src : List Nat) (s : Store), s.Sound F → (∀ id ∈ src, (s.individuals[id]?).isSome) →
      ∃ copies s', (src.mapM sel.copy).run s = .ok copies s' ∧ FreshIn s.lab.nextId s'.lab.nextId copies ∧
        List.Forall₂ (fun c e => s'.genomeAt c = s'.genomeAt e) copies src ∧
        s.Spares (fun _ => False) s' ∧ s'.Sound F
  | [], s, hs, _ => ⟨[], s, rfl, .nil (Nat.le_refl _), .nil, .refl _ s, hs⟩
  | id :: src, s, hs, hsrc => by
    obtain ⟨i, hi⟩ := Option.isSome_iff_exists.1 (hsrc id List.mem_cons_self)
    have hid : id < s.lab.nextId := (hs id i hi).2.1
    obtain ⟨s₁, hcopy, hnext, hother, hnew⟩ := copy_run hi sel
    have hc₁ := (confined_copy hF sel id : Confined F (fun _ => False) _).run_ok hs hcopy
    -- the originals still to copy are kept as they were
    have hsrc₁ : ∀ k ∈ src, (s₁.individuals[k]?).isSome := fun k hk => by
      obtain ⟨j, hj⟩ := Option.isSome_iff_exists.1 (hsrc k (List.mem_cons_of_mem id hk))
      have hk' : k ≠ s.lab.nextId := fun he => by
        have := (hs k j hj).2.1
        omega
      rw [hother k hk', hj]
      rfl
    obtain ⟨copies, s', hrest, hfresh, hgen, hspare, hs'⟩ := mapM_copy_run hF sel src s₁ hc₁.1 hsrc₁
    have hall : s.Spares (fun _ => False) s' := hc₁.2.trans hspare
    refine ⟨s.lab.nextId :: copies, s', ?_, ?_, .cons ?_ hgen, hall, hs'⟩
    · rw [List.mapM_cons, bind_run_ok]
      exact ⟨_, _, hcopy, by rw [bind_run_ok]; exact ⟨_, _, hrest, rfl⟩⟩
    · exact (FreshIn.singleton (Nat.le_refl _) (by omega)).append (hnext ▸ hfresh)
    · -- the first copy, and its original, are spared by the later copies
      rw [hspare.genomeAt_eq (by omega) not_false, hall.genomeAt_eq hid not_false, Store.genomeAt, hnew,
        Store.genomeAt, hi]
      rfl

/-- **An elitism selection copies the first of the sorted source**: over
scored individuals whose keyed scores sort to `sorted`, it answers the
destination followed by copies of the first `count` identities of `sorted`,
fresh, with the genomes of their originals; and it changes no individual it
found. -/
theorem select_elitism_sorted_run (hF : ∀ f, F f → F f.stored) {sel : Selection} {count : Int}
    (hch : sel.choice = .elitism count) {up : Bool} (hup : sel.higherIsBetter = .bool up)
    (source dest : List Nat) {s : Store} (hs : s.Sound F) {val : Nat → Value} (hrated : s.Rated source val)
    {sorted : List (Nat × Value)}
    (hsort : (if up then sortDesc Pareto.keyLt (source.map fun i => (i, val i))
      else sortBy Pareto.keyLt (source.map fun i => (i, val i))) = .ok sorted) :
    ∃ copies s', (sel.select source dest).run s = .ok (dest ++ copies) s' ∧
      FreshIn s.lab.nextId s'.lab.nextId copies ∧
      List.Forall₂ (fun c e => s'.genomeAt c = s'.genomeAt e) copies (slice (sorted.map (·.1)) 0 count) ∧
      s.Spares (fun _ => False) s' ∧ s'.Sound F := by
  obtain ⟨ys, hys, hperm, -⟩ := sort_keyed_best_first up fun id hid => by
    obtain ⟨_, _, _, hex⟩ := hrated id hid
    exact hex
  obtain rfl : ys = sorted := Except.ok.inj (hys.symm.trans hsort)
  have hsrc : ∀ id ∈ slice (ys.map (·.1)) 0 count, (s.individuals[id]?).isSome := fun id hid => by
    obtain ⟨i, hi, -⟩ := hrated id (hperm.subset (slice_subset hid))
    simp [hi]
  obtain ⟨copies, s', hcopies, hfresh, hgen, hspare, hs'⟩ := mapM_copy_run hF sel _ s hs hsrc
  refine ⟨copies, s', ?_, hfresh, hgen, hspare, hs'⟩
  rw [select, hch]
  dsimp only
  rw [EStateM.run_bind, scores_run source fun id hid => by
    obtain ⟨i, hi, hv, -⟩ := hrated id hid
    exact ⟨i, hi, hv⟩]
  simp only [hup, Value.truth_bool, Run.ofExcept_ok_run, EStateM.run_bind, zip_map_self]
  rw [show (fun a b : Nat × Value => Value.compare .lt a.2 b.2) = Pareto.keyLt from rfl, hys]
  simp only [Run.ofExcept_ok_run, hcopies]
  rfl

/-- **An elitism selection over scored individuals answers**: the
destination followed by copies of the first `count` individuals of the
source sorted best first, fresh, with the genomes of their originals; and it
changes no individual it found. -/
theorem select_elitism_run (hF : ∀ f, F f → F f.stored) {sel : Selection} {count : Int}
    (hch : sel.choice = .elitism count) {up : Bool} (hup : sel.higherIsBetter = .bool up)
    (source dest : List Nat) {s : Store} (hs : s.Sound F) {val : Nat → Value} (hrated : s.Rated source val) :
    ∃ sorted copies s', (sel.select source dest).run s = .ok (dest ++ copies) s' ∧
      sorted.Perm source ∧ sorted.Pairwise (fun a b => Pareto.AtLeast up (val a).exact (val b).exact) ∧
      FreshIn s.lab.nextId s'.lab.nextId copies ∧
      List.Forall₂ (fun c e => s'.genomeAt c = s'.genomeAt e) copies (slice sorted 0 count) ∧
      s.Spares (fun _ => False) s' ∧ s'.Sound F := by
  obtain ⟨ys, hys, hperm, hbest⟩ := sort_keyed_best_first up fun id hid => by
    obtain ⟨_, _, _, hex⟩ := hrated id hid
    exact hex
  obtain ⟨copies, s', hrun, hfresh, hgen, hspare, hs'⟩ :=
    select_elitism_sorted_run hF hch hup source dest hs hrated hys
  exact ⟨ys.map (·.1), copies, s', hrun, hperm, hbest, hfresh, hgen, hspare, hs'⟩

/-- **Every selection adds fresh copies**: whenever it answers, it answers the
destination followed by identities handed out by the selection itself,
distinct and increasing. -/
theorem select_freshIn (hF : ∀ f, F f → F f.stored) (sel : Selection) (source dest : List Nat) {s s' : Store}
    (hs : s.Sound F) {r : List Nat} (h : (sel.select source dest).run s = .ok r s') :
    ∃ copies, r = dest ++ copies ∧ FreshIn s.lab.nextId s'.lab.nextId copies ∧ s'.Holds copies := by
  rcases hch : sel.choice with ⟨size, replace⟩ | count | _
  · obtain ⟨w, rfl, -, hw, hholds⟩ := select_tournament_freshIn hF hch source dest hs h
    exact ⟨w, rfl, hw, hholds⟩
  · -- the scores and the sort read only; the copies are the elites'
    rw [select, hch] at h
    dsimp only at h
    rw [bind_run_ok] at h
    obtain ⟨sc, s₁, hsc, h⟩ := h
    obtain ⟨hs₁, hle₁, -⟩ := (confined_scores source : Confined F (fun _ => False) _).run_ok hs hsc
    rw [ofExcept_bind_run_ok] at h
    obtain ⟨up, -, h⟩ := h
    rw [ofExcept_bind_run_ok] at h
    obtain ⟨sorted, -, h⟩ := h
    rw [bind_run_ok] at h
    obtain ⟨copies, s₄, hcp, h⟩ := h
    obtain ⟨rfl, hs₄⟩ := pure_run_ok.1 h
    subst s₄
    obtain ⟨-, hfresh, hholds⟩ := mapM_freshIn (confined_copy hF sel : ∀ id, Confined F (fun _ => False) _)
      (mints_copy sel) _ _ hs₁ _ _ hcp
    exact ⟨copies, rfl, hfresh.mono hle₁ (Nat.le_refl _), hholds⟩
  · -- the scores and the probabilities read only; the copies are of the picks
    rw [select, hch] at h
    dsimp only at h
    rw [bind_run_ok] at h
    obtain ⟨sc, s₁, hsc, h⟩ := h
    obtain ⟨hs₁, hle₁, -⟩ := (confined_scores source : Confined F (fun _ => False) _).run_ok hs hsc
    rw [ofExcept_bind_run_ok] at h
    obtain ⟨v, -, h⟩ := h
    rw [ofExcept_bind_run_ok] at h
    obtain ⟨up, -, h⟩ := h
    rw [ofExcept_bind_run_ok] at h
    obtain ⟨p, -, h⟩ := h
    by_cases hneg : (source.length : Int) - dest.length < 0
    · rw [if_pos hneg, bind_run_ok] at h
      obtain ⟨_, _, hthrow, -⟩ := h
      cases hthrow
    rw [if_neg hneg, bind_run_ok] at h
    obtain ⟨picks, s₅, hpicks, h⟩ := h
    obtain ⟨hs₅, hle₅, -⟩ := (confined_draw (.choose _ _) : Confined F (fun _ => False) _).run_ok hs₁ hpicks
    rw [bind_run_ok] at h
    obtain ⟨copies, s₆, hcp, h⟩ := h
    obtain ⟨rfl, hs₆⟩ := pure_run_ok.1 h
    subst s₆
    obtain ⟨-, hfresh, hholds⟩ := mapM_freshIn (fun i => (confined_copy hF sel _ : Confined F (fun _ => False) _))
      (fun i => mints_copy sel (source.getD i 0)) picks _ hs₅ _ _ hcp
    exact ⟨copies, rfl, hfresh.mono (Nat.le_trans hle₁ hle₅) (Nat.le_refl _), hholds⟩

end Selection

end Evolver
