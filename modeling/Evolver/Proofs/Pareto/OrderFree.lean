import Evolver.Proofs.Pareto.Select
/-!
# Choosing does not hang on the order of the population

`select` meets the population as a list, in whatever order it is given.  The
fronts it takes are the levels of `depth` under dominance, which no order
changes (`depth_perm`), so the level where the choice ends, and the rank each
member gets, are the same from every order (`Outcome.level_eq`).

The crowding distances are reckoned by stable sorts, one per objective, each
starting from the order the one before left; only the first meets the front in
the order of the population.  When no two members of the front share their
value of the first objective, that sort, and with it every later one, orders
the front the same way from every order (`distances_perm`).  The members taken
from a level that does not fit are then the same (`Outcome.kept`,
`keptOfFront`), and so are the members chosen (`select_order_free`).  With a
tie in the first objective the tied members' distances depend on which comes
first, and so may the members chosen (`select_hangs_on_order_of_first_ties`).
-/

namespace Evolver

open Numeric

namespace Pareto

variable {flags : List Bool} {score : Nat → List Value} {s : Store} {S P : List Nat}

/-! ### Sorting a front from any order -/

/-- With no two members sharing objective `k`, ordering a front by it does not
depend on the order of the front. -/
theorem orderBy_perm {L L' : List Nat} (hp : L.Perm L') {k : Nat}
    (hex : ∀ a ∈ L, ((score a).getD k .none).exactValue?.isSome)
    (hinj : ∀ a ∈ L, ∀ b ∈ L, ((score a).getD k .none).exact = ((score b).getD k .none).exact → a = b) :
    orderBy score k L = orderBy score k L' := by
  rw [orderBy, orderBy, sortBy_keyed_eq_of_perm hp hex hinj]

/-- **With no tie in the first objective, the distances of a front do not
depend on its order**: the first pass sorts it the same way from every order,
and every later pass starts from that sort. -/
theorem distances_perm {F F' : List Nat} (hp : F.Perm F')
    (hex : ∀ a ∈ F, ((score a).getD 0 .none).exactValue?.isSome)
    (hinj : ∀ a ∈ F, ∀ b ∈ F, ((score a).getD 0 .none).exact = ((score b).getD 0 .none).exact → a = b)
    {width : Nat} (hw : 0 < width) : distances score width F = distances score width F' := by
  obtain ⟨w, rfl⟩ : ∃ w, width = w + 1 := ⟨width - 1, by omega⟩
  rw [distances, distances, List.range_succ_eq_map, List.foldlM_cons, List.foldlM_cons]
  simp only [objectivePass, orderBy_perm hp hex hinj]

/-- The members that a choice of `n` keeps from a front that does not fit: the
first `n` of its crowding sort, most crowded first. -/
def keptOfFront (score : Nat → List Value) (width : Nat) (F : List Nat) (n : Nat) :
    Except Fault (List Nat) := do
  let (L, c) ← distances score width F
  let sorted ← sortDesc keyLt (L.map fun i => (i, c i))
  pure ((sorted.map (·.1)).take n)

/-! ### Levels from two orders -/

/-- Every order of a population is a population. -/
theorem Population.perm (hS : Population flags score s S) (hp : S.Perm P) : Population flags score s P :=
  ⟨hp.nodup_iff.1 hS.nodup, hS.wide, fun id hid => hS.scored id (hp.mem_iff.2 hid)⟩

/-- The members picked out by their depth are the same from two orders. -/
theorem filter_depth_perm (hp : S.Perm P) (p : Nat → Bool) :
    (S.filter fun x => p (depth (dominatesAt s) S x)).Perm (P.filter fun x => p (depth (dominatesAt s) P x)) := by
  have hsame : (S.filter fun x => p (depth (dominatesAt s) S x)) = S.filter fun x => p (depth (dominatesAt s) P x) :=
    List.filter_congr fun x _ => by rw [depth_perm hp x]
  rw [hsame]
  exact hp.filter _

/-- Fewer members lie above a level than below the next one. -/
theorem length_filter_depth_mono {i j : Nat} (hij : i ≤ j) :
    (S.filter fun x => decide (depth (dominatesAt s) S x < i)).length ≤
      (S.filter fun x => decide (depth (dominatesAt s) S x < j)).length :=
  (List.monotone_filter_right S fun x hx => by simp only [decide_eq_true_eq] at hx ⊢; omega).length_le

section Ends

variable {size : Int} {J : Nat} {cut out : List Nat} {t : Store} (hO : Outcome s S size J cut out t)
include hO

/-- The choice takes every member above its last level and part of that level:
the members above fall short of `size` by the length of the cut. -/
theorem Outcome.cut_length :
    (cut.length : Int) = size - (S.filter fun x => decide (depth (dominatesAt s) S x < J)).length := by
  have hlen := hO.perm.length_eq
  rw [List.length_append] at hlen
  have := hO.length
  omega

/-- The members down to the last level reach `size`. -/
theorem Outcome.le_below_succ :
    size ≤ (S.filter fun x => decide (depth (dominatesAt s) S x < J + 1)).length := by
  have hcut := hO.cut_sub.length_le
  have hsucc := (filter_lt_succ_perm (depth (dominatesAt s) S) S J).length_eq
  rw [List.length_append] at hsucc
  have := hO.cut_length
  omega

/-- **The level where a choice ends does not depend on the order**: it is the
one whose members above fall short of `size` and whose members down to it
reach it. -/
theorem Outcome.level_eq (hp : S.Perm P) {J' : Nat} {cut' out' : List Nat} {t' : Store}
    (hO' : Outcome s P size J' cut' out' t') : J = J' := by
  -- the members above each level are as many from either order
  have hbelow : ∀ j, (P.filter fun x => decide (depth (dominatesAt s) P x < j)).length =
      (S.filter fun x => decide (depth (dominatesAt s) S x < j)).length :=
    fun j => (filter_depth_perm hp fun d => decide (d < j)).length_eq.symm
  have h₁ := hO.cut_length
  have h₂ := hO.le_below_succ
  have h₁' := hO'.cut_length
  have h₂' := hO'.le_below_succ
  have hc := List.length_pos_of_ne_nil hO.cut_ne
  have hc' := List.length_pos_of_ne_nil hO'.cut_ne
  rw [hbelow] at h₁' h₂'
  rcases Nat.lt_trichotomy J J' with h | h | h
  · have := length_filter_depth_mono (s := s) (S := S) (show J + 1 ≤ J' by omega)
    omega
  · exact h
  · have := length_filter_depth_mono (s := s) (S := S) (show J' + 1 ≤ J by omega)
    omega

/-- **A level that does not fit is cut by crowding**: the choice takes the
first members of its crowding sort, as `keptOfFront` reckons them from the
scores. -/
theorem Outcome.kept (hS : Population flags score s S)
    (hcut : cut.length < (S.filter fun x => decide (depth (dominatesAt s) S x = J)).length) :
    keptOfFront score flags.length (S.filter fun x => decide (depth (dominatesAt s) S x = J))
      (size - (S.filter fun x => decide (depth (dominatesAt s) S x < J)).length).toNat = .ok cut := by
  obtain ⟨t₀, L, t₁, sorted, hbase, hcrowd, hranks, hsort, rfl⟩ := hO.last hcut
  have hFS : ∀ id ∈ S.filter (fun x => decide (depth (dominatesAt s) S x = J)), id ∈ S :=
    fun id hid => (List.mem_filter.1 hid).1
  have hne : S.filter (fun x => decide (depth (dominatesAt s) S x = J)) ≠ [] := fun h => by
    simp only [h, List.length_nil] at hcut
    omega
  -- crowding the level reckons its distances from the scores
  obtain ⟨L', t₁', hcrowd', hperm, hC, -, c, hdist, hc⟩ := crowd_run (hS.of_baseAt hbase) hFS hne
  obtain ⟨rfl, rfl⟩ : L = L' ∧ t₁ = t₁' := by
    rw [hcrowd] at hcrowd'
    injection hcrowd' with h₁ h₂
    exact ⟨h₁, h₂⟩
  -- ranking it leaves the distances, which the crowding sort then reads
  have hSt₁ : Population flags score t₁ S := hS.of_baseAt fun id => (hC.base id).trans (hbase id)
  obtain ⟨t₂, hranks', hb₂, hc₂, -⟩ :=
    forIn_setRank_run (.int J) L t₁ fun id hid => hSt₁.keeps (hFS id (hperm.subset hid))
  obtain rfl : t₂ = t := by
    rw [hranks] at hranks'
    injection hranks' with _ h
    exact h.symm
  have hkey : ∀ id ∈ L, (crowdingOf id).run t₂ = .ok (c id) t₂ := fun id hid =>
    crowdingOf_run ((hSt₁.of_baseAt hb₂).keeps (hFS id (hperm.subset hid)))
      (by rw [hc₂]; exact hc id (hperm.subset hid))
  have hpure := sortByKey_run_ok hkey hsort
  rw [if_pos rfl] at hpure
  cases hs : sortDesc keyLt (L.map fun i => (i, c i)) with
  | error e =>
    rw [hs] at hpure
    cases hpure
  | ok ys =>
    rw [hs] at hpure
    injection hpure with hys
    simp only [keptOfFront, hdist, except_ok_bind, hs, except_pure, hys]

end Ends

/-- **The cut from the last level does not depend on the order** when no two
members of that level share their first objective: either the level is taken
whole, or the same first members of the same crowding sort are taken. -/
theorem Outcome.cut_perm (hS : Population flags score s S) (hp : S.Perm P) {size : Int} {J : Nat}
    {cut out cut' out' : List Nat} {t t' : Store} (hO : Outcome s S size J cut out t)
    (hO' : Outcome s P size J cut' out' t')
    (hties : ∀ a ∈ S.filter (fun x => decide (depth (dominatesAt s) S x = J)),
      ∀ b ∈ S.filter (fun x => decide (depth (dominatesAt s) S x = J)),
        ((score a).getD 0 .none).exact = ((score b).getD 0 .none).exact → a = b) :
    cut.Perm cut' := by
  have hlevel := filter_depth_perm (s := s) hp fun d => decide (d = J)
  have hbelow := (filter_depth_perm (s := s) hp fun d => decide (d < J)).length_eq
  have hlen : cut.length = cut'.length := by
    have h := hO.cut_length
    have h' := hO'.cut_length
    omega
  rcases Nat.lt_or_ge cut.length (S.filter fun x => decide (depth (dominatesAt s) S x = J)).length with hcut | hcut
  · -- the level is cut: the same members of the same crowding sort are kept
    have hw : 0 < flags.length := List.length_pos_of_ne_nil hS.wide
    have hex : ∀ a ∈ S.filter (fun x => decide (depth (dominatesAt s) S x = J)),
        ((score a).getD 0 .none).exactValue?.isSome := fun a ha => (hS.isScore (List.mem_filter.1 ha).1 hw).1
    have hkept := hO.kept hS hcut
    have hkept' := hO'.kept (hS.perm hp) (by rw [← hlen, ← hlevel.length_eq]; exact hcut)
    rw [keptOfFront, ← distances_perm hlevel hex hties hw, ← hbelow] at hkept'
    rw [keptOfFront, hkept'] at hkept
    injection hkept with h
    rw [h]
  · -- the level is taken whole, from either order
    have hwhole := hO.cut_sub.perm_of_length_le hcut
    have hwhole' := hO'.cut_sub.perm_of_length_le (by rw [← hlen, ← hlevel.length_eq]; exact hcut)
    exact hwhole.trans (hlevel.trans hwhole'.symm)

/-- **Choosing does not hang on the order of the population.**  Choosing `k`
members, for `k` from one to the population (given, or half the population),
from a population and from any reordering of it: both choices answer, and
every member gets the same rank from both.  When no two members of one front
share their value of the first objective, both choose the same members. -/
theorem select_order_free (hS : Population flags score s S) (hp : S.Perm P) {size : Option Int} {k : Nat}
    (hk : 1 ≤ k) (hkS : k ≤ S.length) (hsize : size = some (k : Int) ∨ (size = none ∧ k = S.length / 2)) :
    ∃ out t out' t', (select S size).run s = .ok out t ∧ (select P size).run s = .ok out' t' ∧
      (∀ id, t.rankAt id = t'.rankAt id) ∧
      ((∀ a ∈ S, ∀ b ∈ S, depth (dominatesAt s) S a = depth (dominatesAt s) S b →
          ((score a).getD 0 .none).exact = ((score b).getD 0 .none).exact → a = b) → out.Perm out') := by
  obtain ⟨J, cut, out, t, hrun, hO, -⟩ := select_run_ends hS hk hkS hsize
  obtain ⟨J', cut', out', t', hrun', hO', -⟩ := select_run_ends (hS.perm hp) hk (hp.length_eq ▸ hkS)
    (by rwa [← hp.length_eq])
  obtain rfl : J = J' := hO.level_eq hp hO'
  refine ⟨out, t, out', t', hrun, hrun', fun id => ?_, fun hties => ?_⟩
  · rw [hO.rank id, hO'.rank id, depth_perm hp id]
    simp only [hp.mem_iff]
  -- the members above the last level are the same, and so is the cut from it
  have hcut := hO.cut_perm hS hp hO' fun a ha b hb => hties a (List.mem_filter.1 ha).1 b (List.mem_filter.1 hb).1
    (by rw [decide_eq_true_iff.1 (List.mem_filter.1 ha).2, decide_eq_true_iff.1 (List.mem_filter.1 hb).2])
  exact hO.perm.trans (((filter_depth_perm hp fun d => decide (d < J)).append hcut).trans hO'.perm.symm)

/-- The sample population, taken in two orders, keeps the same member. -/
theorem select_order_free_sample :
    ∃ out t out' t', (select [0, 1, 2] (some 1)).run sampleStore = .ok out t ∧
      (select [1, 0, 2] (some 1)).run sampleStore = .ok out' t' ∧
      (∀ id, t.rankAt id = t'.rankAt id) ∧ out.Perm out' := by
  obtain ⟨out, t, out', t', hrun, hrun', hrank, hperm⟩ :=
    select_order_free sampleStore_population (by decide : [0, 1, 2].Perm [1, 0, 2]) (k := 1) le_rfl
      (by decide) (.inl rfl)
  refine ⟨out, t, out', t', hrun, hrun', hrank, hperm ?_⟩
  -- the first objectives, 1, 2 and 3, are distinct
  rintro a ha b hb - hab
  revert a b
  decide +kernel

/-! ### A tie in the first objective -/

/-- **Choosing from one front**: when no member dominates another and fewer
than all are kept, the members chosen are the crowding cut of the whole
population. -/
theorem select_single_front (hS : Population flags score s S)
    (hnone : ∀ x ∈ S, ∀ y ∈ S, dominatesAt s y x = false) {k : Nat} (hk : 1 ≤ k) (hkS : k < S.length) :
    ∃ out t, (select S (some k)).run s = .ok out t ∧
      ∃ kept, keptOfFront score flags.length S k = .ok kept ∧ out.Perm kept := by
  -- every member is at level one
  have hdepth : ∀ x ∈ S, depth (dominatesAt s) S x = 1 := by
    intro x hx
    by_contra hne
    have hlt : 1 < depth (dominatesAt s) S x := by
      have : 1 ≤ depth (dominatesAt s) S x := depth_pos x
      omega
    obtain ⟨y, hy, hyx, -⟩ := exists_dom_of_one_lt hS.strictOn hx hlt
    rw [hnone x hx y hy] at hyx
    exact Bool.false_ne_true hyx
  have hlevel : S.filter (fun x => decide (depth (dominatesAt s) S x = 1)) = S :=
    List.filter_eq_self.2 fun x hx => decide_eq_true (hdepth x hx)
  have hbelow : S.filter (fun x => decide (depth (dominatesAt s) S x < 1)) = [] :=
    List.filter_eq_nil_iff.2 fun x hx => by simp [hdepth x hx]
  obtain ⟨J, cut, out, t, hrun, hO, -⟩ := select_run_ends hS hk hkS.le (.inl rfl)
  -- the choice ends at level one, with a cut of `k`
  obtain rfl : J = 1 := by
    obtain ⟨x, hx⟩ := List.exists_mem_of_ne_nil cut hO.cut_ne
    exact (hO.mem_cut hx).2.symm.trans (hdepth x (hO.mem_cut hx).1)
  have hlen := hO.cut_length
  rw [hbelow, List.length_nil, Nat.cast_zero, Int.sub_zero, Nat.cast_inj] at hlen
  have hkept := hO.kept hS (by rw [hlevel, hlen]; exact hkS)
  rw [hlevel, hbelow, List.length_nil, Nat.cast_zero, Int.sub_zero, Int.toNat_natCast] at hkept
  have hperm := hO.perm
  rw [hbelow, List.nil_append] at hperm
  exact ⟨out, t, hrun, cut, hkept, hperm⟩

/-- Four members on three objectives, none dominating another; the middle two
share their first objective. -/
def firstTieStore : Store :=
  ⟨Lab.start, (((({} : Std.HashMap Nat Individual).insert 0 (sampleIndividual 0 [0, 0, 9])).insert 1
    (sampleIndividual 1 [1, 4, 5])).insert 2 (sampleIndividual 2 [1, 5, 4])).insert 3
      (sampleIndividual 3 [3, 9, 0]), []⟩

/-- The scores of `firstTieStore`. -/
def firstTieScores (id : Nat) : List Value :=
  ([[0, 0, 9], [1, 4, 5], [1, 5, 4], [3, 9, 0]].getD id ([] : List Int)).map .int

theorem firstTieStore_population :
    Population [false, false, false] firstTieScores firstTieStore [0, 1, 2, 3] := by
  refine sample_population (fun id => [[0, 0, 9], [1, 4, 5], [1, 5, 4], [3, 9, 0]].getD id []) (by decide)
    (by decide) ?_ (by decide) (by decide +kernel)
  -- each lookup goes through the four inserts
  intro id hid
  simp only [List.mem_cons, List.not_mem_nil, or_false] at hid
  rcases hid with rfl | rfl | rfl | rfl <;>
    simp only [firstTieStore, Std.HashMap.getElem?_insert, Nat.reduceBEq, Bool.false_eq_true, if_false,
      if_true] <;> rfl

/-- **With a tie in the first objective the choice hangs on the order**:
keeping three of the four members of `firstTieStore` drops whichever of the
tied two comes first, since the first sort gives it the smaller gap. -/
theorem select_hangs_on_order_of_first_ties :
    ∃ out t out' t', (select [0, 1, 2, 3] (some 3)).run firstTieStore = .ok out t ∧
      (select [0, 2, 1, 3] (some 3)).run firstTieStore = .ok out' t' ∧
      out.Perm [0, 2, 3] ∧ out'.Perm [0, 1, 3] := by
  have hS := firstTieStore_population
  have hp : [0, 1, 2, 3].Perm [0, 2, 1, 3] := by decide
  have hnone : ∀ x ∈ [0, 1, 2, 3], ∀ y ∈ [0, 1, 2, 3], dominatesAt firstTieStore y x = false := by
    intro x hx y hy
    rw [hS.evaluated.dominatesAt_eq hy hx]
    revert x y
    decide +kernel
  obtain ⟨out, t, hrun, kept, hkept, hperm⟩ := select_single_front hS hnone (k := 3) (by decide) (by decide)
  obtain ⟨out', t', hrun', kept', hkept', hperm'⟩ := select_single_front (hS.perm hp)
    (fun x hx y hy => hnone x (hp.mem_iff.2 hx) y (hp.mem_iff.2 hy)) (k := 3) (by decide) (by decide)
  -- the two cuts, reckoned from the scores
  have hcut : (keptOfFront firstTieScores [false, false, false].length [0, 1, 2, 3] 3).toOption =
      some [3, 0, 2] := by decide +kernel
  have hcut' : (keptOfFront firstTieScores [false, false, false].length [0, 2, 1, 3] 3).toOption =
      some [3, 0, 1] := by decide +kernel
  rw [hkept] at hcut
  rw [hkept'] at hcut'
  obtain rfl : kept = [3, 0, 2] := Option.some.inj hcut
  obtain rfl : kept' = [3, 0, 1] := Option.some.inj hcut'
  exact ⟨out, t, out', t', hrun, hrun', hperm.trans (by decide), hperm'.trans (by decide)⟩

end Pareto

end Evolver
