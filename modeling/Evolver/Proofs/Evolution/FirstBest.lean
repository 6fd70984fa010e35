import Evolver.Proofs.Evolution.Scoring
/-!
# The first best individual

Three computations pick the best individual of a subpopulation:

* the scan that scoring ends with (`Population.bestOf`), where a later
  individual replaces the pick only when strictly better;
* the head of the members stably sorted by augmented score, best first
  (`Subpopulation.best`, and `Subpopulation.worst` worst first);
* the first copy an elitism selection makes, of the head of the same stable
  sort.

Over members scored by exact values, all of them pick the first member, in
list order, that is at least as good as every member (`Pareto.firstBest`):
the scan because a pick is replaced only by something strictly better
(`Pareto.firstBest_eq_scan`), the sorts because they keep equal scores in
their order (`sortBy_filter_key`, `Pareto.sort_keyed_head`).  Main statement:
`Subpopulation.scan_sort_and_elite_pick_first_best`.
-/

namespace Evolver

namespace Pareto

/-- The first identity of `ids` whose score is at least as good as the score
of every identity of `ids`, scores compared by their exact values, higher
the better when `up`. -/
def firstBest (up : Bool) (val : Nat → Value) (ids : List Nat) : Option Nat :=
  ids.find? fun a => ids.all fun b => decide (AtLeast up (val a).exact (val b).exact)

variable {up : Bool} {val : Nat → Value}

/-- An identity that a later one beats is not the first best. -/
theorem firstBest_cons_of_better {w q : Nat} {qs : List Nat} (hb : Better up (val q).exact (val w).exact) :
    firstBest up val (w :: q :: qs) = firstBest up val (q :: qs) := by
  have hw : ¬ AtLeast up (val w).exact (val q).exact := fun h =>
    not_better_self up _ (hb.trans_atLeast h)
  unfold firstBest
  rw [List.find?_cons_of_neg (by simp [hw])]
  -- on `q :: qs`, being at least as good as all of `q :: qs` covers `w` too
  rw [← List.head?_filter, ← List.head?_filter, List.filter_congr fun x _ => ?_]
  rw [Bool.eq_iff_iff]
  simp only [List.all_cons, Bool.and_eq_true, decide_eq_true_iff]
  exact ⟨fun h => h.2, fun h => ⟨h.1.trans hb.atLeast, h⟩⟩

/-- An identity no better than the pick before it changes nothing about the
first best. -/
theorem firstBest_cons_of_not_better {w q : Nat} {qs : List Nat}
    (hb : ¬ Better up (val q).exact (val w).exact) :
    firstBest up val (w :: q :: qs) = firstBest up val (w :: qs) := by
  have hwq : AtLeast up (val w).exact (val q).exact := atLeast_of_not_better hb
  unfold firstBest
  set P : Nat → Bool := fun a => (w :: q :: qs).all fun b => decide (AtLeast up (val a).exact (val b).exact)
    with hP
  set P' : Nat → Bool := fun a => (w :: qs).all fun b => decide (AtLeast up (val a).exact (val b).exact)
    with hP'
  -- whatever is at least as good as `w` is at least as good as `q`
  have hsame : ∀ x, AtLeast up (val x).exact (val w).exact → P x = P' x := fun x hx => by
    simp only [hP, hP', List.all_cons, decide_eq_true hx, decide_eq_true (hx.trans hwq), Bool.true_and]
  have hw : P w = P' w := hsame w (AtLeast.refl _ _)
  by_cases hbest : P' w = true
  · rw [List.find?_cons_of_pos (hw.trans hbest), List.find?_cons_of_pos hbest]
  · -- some `z` beats `w`, so it beats `q` as well, and neither is the first best
    have hnot : ¬ ∀ b ∈ w :: qs, AtLeast up (val w).exact (val b).exact := by
      simpa only [hP', List.all_eq_true, decide_eq_true_iff] using hbest
    push Not at hnot
    obtain ⟨z, hz, hzw⟩ := hnot
    have hq : ¬ P q = true := by
      simp only [hP, List.all_eq_true, decide_eq_true_iff, not_forall]
      exact ⟨z, List.cons_subset_cons w (List.subset_cons_self q qs) hz, fun h => hzw (hwq.trans h)⟩
    rw [List.find?_cons_of_neg (hw ▸ hbest), List.find?_cons_of_neg hq, List.find?_cons_of_neg hbest,
      ← List.head?_filter, ← List.head?_filter, List.filter_congr fun x _ => ?_]
    by_cases hx : AtLeast up (val x).exact (val w).exact
    · exact hsame x hx
    · simp [hP, hP', hx]

/-- **The scan picks the first best**: from `w`, replacing the pick by each
later identity strictly better than it ends on the first identity of
`w :: qs` at least as good as all of them. -/
theorem firstBest_eq_scan :
    ∀ (qs : List Nat) (w : Nat),
      firstBest up val (w :: qs) = some (qs.foldl (fun w p => if Better up (val p).exact (val w).exact then p else w) w)
  | [], w => by simp [firstBest, AtLeast.refl]
  | q :: qs, w => by
    rw [List.foldl_cons]
    by_cases hb : Better up (val q).exact (val w).exact
    · rw [if_pos hb, firstBest_cons_of_better hb, firstBest_eq_scan qs q]
    · rw [if_neg hb, firstBest_cons_of_not_better hb, firstBest_eq_scan qs w]

theorem firstBest_isSome {ids : List Nat} (hne : ids ≠ []) : (firstBest up val ids).isSome := by
  obtain ⟨w, qs, rfl⟩ := List.exists_cons_of_ne_nil hne
  rw [firstBest_eq_scan]
  rfl

theorem firstBest_mem {ids : List Nat} {b : Nat} (h : firstBest up val ids = some b) : b ∈ ids :=
  List.mem_of_find?_eq_some h

/-- **A stable sort by score puts the first best first**: sorting identities
keyed by exact scores, largest first when `up`, starts with the first best
identity. -/
theorem sort_keyed_head (up : Bool) {ids : List Nat} {val : Nat → Value}
    (hex : ∀ id ∈ ids, (val id).exactValue?.isSome) {sorted : List (Nat × Value)}
    (hs : (if up then sortDesc keyLt (ids.map fun i => (i, val i))
      else sortBy keyLt (ids.map fun i => (i, val i))) = .ok sorted) :
    (sorted.map (·.1)).head? = firstBest up val ids := by
  have hkeyed := keyed_isSome hex
  -- the sorted keyed identities start with the first best keyed identity
  have hhead : sorted.head? = (ids.map fun i => (i, val i)).find? fun x =>
      (ids.map fun i => (i, val i)).all fun y => decide (AtLeast up x.2.exact y.2.exact) := by
    cases up with
    | false =>
      obtain ⟨ys, hys, hp, hsorted⟩ := sortBy_sorted keyLt_comparesBy _ hkeyed
      obtain rfl : ys = sorted := Except.ok.inj (hys.symm.trans hs)
      exact head?_eq_find?_of_stable (r := AtLeast false) (AtLeast.refl false) (fun _ _ => AtLeast.antisymm) hp
        hsorted (sortBy_filter_key keyLt_comparesBy _ hkeyed hys)
    | true =>
      obtain ⟨ys, hys, hp, hsorted⟩ := sortDesc_sorted keyLt_comparesBy _ hkeyed
      obtain rfl : ys = sorted := Except.ok.inj (hys.symm.trans hs)
      exact head?_eq_find?_of_stable (r := AtLeast true) (AtLeast.refl true) (fun _ _ => AtLeast.antisymm) hp
        hsorted (sortDesc_filter_key keyLt_comparesBy _ hkeyed hys)
  rw [List.head?_map, hhead, List.find?_map, Option.map_map]
  simp only [firstBest, Function.comp_def, List.all_map, Option.map_id']

end Pareto

namespace Selection

open Run

variable {up : Bool} {s : Store} {ids : List Nat} {val : Nat → Value}

/-- **The scan of scored identities answers its pure reading**: each later
identity replaces the pick exactly when its exact score is better, and
nothing changes. -/
theorem scan_run_eq (hscalar : s.ScalarOn up ids) (hrated : s.Rated ids val) :
    ∀ (qs : List Nat) (w : Nat), w ∈ ids → (∀ q ∈ qs, q ∈ ids) →
      (qs.foldlM (fun w p => do if ← Run.better p (some w) then pure p else pure w) w).run s =
        .ok (qs.foldl (fun w p => if Pareto.Better up (val p).exact (val w).exact then p else w) w) s
  | [], _, _, _ => rfl
  | q :: qs, w, hw, hqs => by
    have hq := hqs q List.mem_cons_self
    have hnext : (if Pareto.Better up (val q).exact (val w).exact then q else w) ∈ ids := by
      split <;> assumption
    have hstep : (do if ← Run.better q (some w) then pure q else pure w : Run Nat).run s =
        .ok (if Pareto.Better up (val q).exact (val w).exact then q else w) s := by
      rw [EStateM.run_bind, better_run_eq_of_scalarOn hscalar hrated hq hw]
      by_cases hb : Pareto.Better up (val q).exact (val w).exact
      · rw [decide_eq_true hb, if_pos hb]
        rfl
      · rw [decide_eq_false hb, if_neg hb]
        rfl
    rw [List.foldlM_cons, EStateM.run_bind, hstep, List.foldl_cons]
    exact scan_run_eq hscalar hrated qs _ hnext fun q' hq' => hqs q' (List.mem_cons_of_mem q hq')

/-- **The winner of a tournament is its first best participant**, and
choosing it changes nothing. -/
theorem winner_firstBest (hscalar : s.ScalarOn up ids) (hrated : s.Rated ids val) {ps : List Nat}
    (hps : ∀ p ∈ ps, p ∈ ids) {b : Nat} (hb : Pareto.firstBest up val ps = some b) : (winner ps).run s = .ok b s := by
  cases ps with
  | nil => simp [Pareto.firstBest] at hb
  | cons w qs =>
    rw [Pareto.firstBest_eq_scan, Option.some.injEq] at hb
    rw [winner, ← hb]
    exact scan_run_eq hscalar hrated qs w (hps w List.mem_cons_self) fun q hq => hps q (List.mem_cons_of_mem w hq)

end Selection

namespace Population

/-- **The scan of scoring picks the first best member**, and changes nothing. -/
theorem bestOf_firstBest {up : Bool} {s : Store} {ids : List Nat} {val : Nat → Value}
    (hscalar : s.ScalarOn up ids) (hrated : s.Rated ids val) {b : Nat}
    (hb : Pareto.firstBest up val ids = some b) : (bestOf ids).run s = .ok b s := by
  rw [bestOf_eq_winner]
  exact Selection.winner_firstBest hscalar hrated (fun _ h => h) hb

end Population

namespace Subpopulation

variable {s : Store} {ids : List Nat} {val : Nat → Value}

/-- Ranking scored identities answers the sort of their keyed scores. -/
theorem ranked_run (hrated : s.Rated ids val) {desc : Bool} {sorted : List (Nat × Value)}
    (hsort : (if desc then sortDesc Pareto.keyLt (ids.map fun i => (i, val i))
      else sortBy Pareto.keyLt (ids.map fun i => (i, val i))) = .ok sorted) :
    (ranked ids desc).run s = .ok (sorted.map (·.1)) s := by
  have hkey : ∀ id ∈ ids, (do Run.ofExcept (← Run.get id).augmentedFitness : Run Value).run s = .ok (val id) s :=
    fun id hid => by
      obtain ⟨i, hi, hv, -⟩ := hrated id hid
      simp only [EStateM.run_bind, Run.get_run hi, hv, Run.ofExcept_ok_run]
  -- the scores are read in turn, as a key is read for sorting by it
  have hkeyed := Pareto.mapM_keyed_run ids hkey
  simp only [bind_assoc] at hkeyed
  simp only [ranked, EStateM.run_bind, hkeyed]
  rw [show (fun a b : Nat × Value => Value.compare .lt a.2 b.2) = Pareto.keyLt from rfl, hsort]
  rfl

/-- The head of the ranking of scored members, largest first when `desc`,
is the first best member read that way. -/
theorem rankedHead_run {sp : Subpopulation} (hrated : s.Rated sp.members val) (desc : Bool) {b : Nat}
    (hb : Pareto.firstBest desc val sp.members = some b) :
    (do
      let some b := (← ranked sp.members desc).head? | throw Fault.listIndex
      pure b : Run Nat).run s = .ok b s := by
  obtain ⟨sorted, hsort, -⟩ := Selection.sort_keyed_best_first desc fun id hid => by
    obtain ⟨_, _, _, hex⟩ := hrated id hid
    exact hex
  have hhead := Pareto.sort_keyed_head desc (fun id hid => by
    obtain ⟨_, _, _, hex⟩ := hrated id hid
    exact hex) hsort
  rw [hb] at hhead
  rw [EStateM.run_bind, ranked_run hrated hsort]
  simp only [hhead]
  rfl

/-- The best member is the first best. -/
theorem best_firstBest {sp : Subpopulation} {up : Bool} (hup : sp.higherIsBetter = .bool up)
    (hrated : s.Rated sp.members val) {b : Nat} (hb : Pareto.firstBest up val sp.members = some b) :
    sp.best.run s = .ok b s := by
  simp only [best, hup, Value.truth_bool, EStateM.run_bind, Run.ofExcept_ok_run]
  exact rankedHead_run hrated up hb

/-- The worst member is the first best read the other way. -/
theorem worst_firstBest {sp : Subpopulation} {up : Bool} (hup : sp.higherIsBetter = .bool up)
    (hrated : s.Rated sp.members val) {w : Nat} (hw : Pareto.firstBest (!up) val sp.members = some w) :
    sp.worst.run s = .ok w s := by
  simp only [worst, hup, Value.truth_bool, EStateM.run_bind, Run.ofExcept_ok_run]
  exact rankedHead_run hrated (!up) hw

end Subpopulation

namespace Selection

/-- **The first elite is a copy of the first best**: an elitism selection of
at least one over scored individuals answers the destination followed by a
fresh copy, with its genome, of the first best individual, then the other
copies. -/
theorem select_elitism_first {F : Fitness → Prop} (hF : ∀ f, F f → F f.stored) {sel : Selection} {count : Int}
    (hch : sel.choice = .elitism count) (hcount : 1 ≤ count) {up : Bool} (hup : sel.higherIsBetter = .bool up)
    (source dest : List Nat) {s : Store} (hs : s.Sound F) {val : Nat → Value} (hrated : s.Rated source val)
    {b : Nat} (hb : Pareto.firstBest up val source = some b) :
    ∃ c copies s', (sel.select source dest).run s = .ok (dest ++ c :: copies) s' ∧ s.lab.nextId ≤ c ∧
      s'.genomeAt c = s.genomeAt b := by
  have hex : ∀ id ∈ source, (val id).exactValue?.isSome := fun id hid => by
    obtain ⟨_, _, _, hex⟩ := hrated id hid
    exact hex
  obtain ⟨sorted, hsort, -⟩ := sort_keyed_best_first up hex
  obtain ⟨copies, s', hrun, hfresh, hgen, hspare, -⟩ :=
    select_elitism_sorted_run hF hch hup source dest hs hrated hsort
  -- the sorted identities start with the first best, and at least one is copied
  have hhead := Pareto.sort_keyed_head up hex hsort
  rw [hb] at hhead
  obtain ⟨rest, hsorted⟩ : ∃ rest, sorted.map (·.1) = b :: rest := by
    cases h : sorted.map (·.1) with
    | nil => rw [h] at hhead; cases hhead
    | cons a rest => rw [h] at hhead; cases hhead; exact ⟨rest, rfl⟩
  rw [hsorted, slice_zero_left (by omega), show count.toNat = (count.toNat - 1) + 1 by omega,
    List.take_succ_cons] at hgen
  obtain ⟨c, cs, hc, -, rfl⟩ := List.forall₂_cons_right_iff.1 hgen
  obtain ⟨i, hi, -⟩ := hrated b (Pareto.firstBest_mem hb)
  refine ⟨c, cs, s', hrun, (hfresh.bounds c List.mem_cons_self).1, ?_⟩
  rw [hc, hspare.genomeAt_eq (hs b i hi).2.1 not_false]

end Selection

namespace Subpopulation

/-- **The scan, the sorts and the first elite agree.**  Over a subpopulation
whose members are scored by exact values, with scalar fitnesses read in the
subpopulation's direction: the scan that scoring ends with, the best member
and the first copy of an elitism selection of at least one all pick the first
member at least as good as every member (the elite as a fresh copy with its
genome), and the worst member is the first member at least as bad as every
member. -/
theorem scan_sort_and_elite_pick_first_best {up : Bool} {sp : Subpopulation} {s : Store} {val : Nat → Value}
    (hs : s.Sound fun _ => True) (hscalar : s.ScalarOn up sp.members) (hup : sp.higherIsBetter = .bool up)
    (hrated : s.Rated sp.members val)
    (hne : sp.members ≠ []) {count : Int} (hcount : 1 ≤ count) (dest : List Nat) :
    ∃ b w, Pareto.firstBest up val sp.members = some b ∧ Pareto.firstBest (!up) val sp.members = some w ∧
      (Population.bestOf sp.members).run s = .ok b s ∧ sp.best.run s = .ok b s ∧ sp.worst.run s = .ok w s ∧
      ∃ c copies s', ((Selection.mk (.elitism count) (.bool up)).select sp.members dest).run s =
        .ok (dest ++ c :: copies) s' ∧ s.lab.nextId ≤ c ∧ s'.genomeAt c = s.genomeAt b := by
  obtain ⟨b, hb⟩ := Option.isSome_iff_exists.1
    (Pareto.firstBest_isSome hne : (Pareto.firstBest up val sp.members).isSome)
  obtain ⟨w, hw⟩ := Option.isSome_iff_exists.1
    (Pareto.firstBest_isSome hne : (Pareto.firstBest (!up) val sp.members).isSome)
  refine ⟨b, w, hb, hw, Population.bestOf_firstBest hscalar hrated hb, best_firstBest hup hrated hb,
    worst_firstBest hup hrated hw, ?_⟩
  exact Selection.select_elitism_first (fun _ h => h) rfl hcount rfl sp.members dest hs hrated hb

/-- Three scored vectors, under identities 1, 2 and 3, scored 5, 7 and 7: the
best score is shared. -/
def tiedScored : Store :=
  ⟨{ Lab.start with nextId := 4 },
    (((∅ : Std.HashMap Nat Individual).insert 1 (scoredVector 1 5)).insert 2 (scoredVector 2 7)).insert 3
      (scoredVector 3 7), []⟩

/-- The three vectors as a subpopulation, higher scores better. -/
def tiedThree : Subpopulation :=
  ⟨[], [], [], [], 3, .bool true, .weightedSum none, 1, some [1, 2, 3]⟩

/-- The scores of the three vectors. -/
def tiedScore (id : Nat) : Value := .int (if id = 1 then 5 else 7)

theorem tiedScored_sound : tiedScored.Sound (Fitness.Scalar true) := by
  intro k i h
  simp only [tiedScored, Std.HashMap.getElem?_insert, beq_iff_eq] at h
  split_ifs at h with h3 h2 h1
  · cases h
    subst h3
    exact ⟨rfl, by decide, rfl, rfl⟩
  · cases h
    subst h2
    exact ⟨rfl, by decide, rfl, rfl⟩
  · cases h
    subst h1
    exact ⟨rfl, by decide, rfl, rfl⟩
  · simp at h

theorem tiedScored_rated : tiedScored.Rated tiedThree.members tiedScore := by
  intro id hid
  simp only [tiedThree, members, Option.getD_some, List.mem_cons, List.not_mem_nil, or_false] at hid
  -- each lookup goes past the later insertions to its own
  rcases hid with rfl | rfl | rfl
  · exact ⟨scoredVector 1 5, by simp only [tiedScored, Std.HashMap.getElem?_insert, beq_iff_eq]; rfl, rfl, rfl⟩
  · exact ⟨scoredVector 2 7, by simp only [tiedScored, Std.HashMap.getElem?_insert, beq_iff_eq]; rfl, rfl, rfl⟩
  · exact ⟨scoredVector 3 7, by simp only [tiedScored, Std.HashMap.getElem?_insert, beq_iff_eq]; rfl, rfl, rfl⟩

/-- With the best score shared by the second and third vectors, the scan, the
best member and the first elite all take the second, and the worst member is
the first. -/
theorem scan_sort_and_elite_pick_first_best_tied :
    (Population.bestOf tiedThree.members).run tiedScored = .ok 2 tiedScored ∧
      tiedThree.best.run tiedScored = .ok 2 tiedScored ∧ tiedThree.worst.run tiedScored = .ok 1 tiedScored ∧
      ∃ c copies s', ((Selection.mk (.elitism 1) (.bool true)).select tiedThree.members []).run tiedScored =
        .ok (c :: copies) s' ∧ 4 ≤ c ∧ s'.genomeAt c = tiedScored.genomeAt 2 := by
  obtain ⟨b, w, hb, hw, hscan, hbest, hworst, c, copies, s', hsel, hc, hgen⟩ :=
    scan_sort_and_elite_pick_first_best (fun k i hi => ⟨(tiedScored_sound k i hi).1, (tiedScored_sound k i hi).2.1,
      trivial⟩) (tiedScored_sound.scalarOn _) rfl tiedScored_rated (by decide) (Int.le_refl 1) []
  have hb2 : Pareto.firstBest true tiedScore tiedThree.members = some 2 := by decide +kernel
  have hw1 : Pareto.firstBest false tiedScore tiedThree.members = some 1 := by decide +kernel
  rw [hb2, Option.some.injEq] at hb
  rw [Bool.not_true, hw1, Option.some.injEq] at hw
  subst hb hw
  exact ⟨hscan, hbest, hworst, c, copies, s', hsel, hc, hgen⟩

end Subpopulation

end Evolver
