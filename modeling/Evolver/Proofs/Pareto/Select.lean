import Evolver.Proofs.Pareto.Crowding
/-!
# Choosing by fronts

`select` chooses the survivors of a population front by front, from the
individuals no remaining one dominates.  The fronts it takes are the levels
of `depth` under dominance: the choice before level `j` (`Before`) has every
member above `j` chosen and ranked, the rest of the store as it was, and its
counts give exactly the members of level `j` as the next front
(`Before.front_eq`).  Taking the front whole leads to the choice before
level `j + 1` (`Before.next`).

`chooseFrom_run` follows the choice to its end (`Outcome`): every member
above some level `J`, and from level `J` either the whole level or the most
crowded of it, the members up to `J` ranked by their depth.  `select_run`
starts it: the comparisons of `Dominance.of` count exactly the dominators.
-/

namespace Evolver

open Numeric

namespace Pareto

variable {flags : List Bool} {score : Nat → List Value} {s : Store} {S : List Nat}

/-- The choice before level `j`: the members above `j` are chosen and carry
their depth as rank, the counts are those of the members from `j` on, and the
store is otherwise as it was in `s`. -/
structure Before (s : Store) (S : List Nat) (j : Nat) (d : Dominance) (source chosen : List Nat)
    (t : Store) : Prop where
  pos : 1 ≤ j
  source_eq : source = S.filter fun x => decide (j ≤ depth (dominatesAt s) S x)
  chosen_perm : chosen.Perm (S.filter fun x => decide (depth (dominatesAt s) S x < j))
  cnt : ∀ x ∈ S, j ≤ depth (dominatesAt s) S x →
    d.cnt x = ((S.filter fun y => dominatesAt s y x && decide (j ≤ depth (dominatesAt s) S y)).length : Int)
  bts : ∀ y ∈ S, d.bts y = S.filter (dominatesAt s y ·)
  base : ∀ id, t.baseAt id = s.baseAt id
  rank : ∀ id, t.rankAt id =
    if id ∈ S ∧ depth (dominatesAt s) S id < j then some (.int (depth (dominatesAt s) S id)) else s.rankAt id
  crowding : ∀ id, (id ∉ S ∨ j ≤ depth (dominatesAt s) S id) → t.crowdingAt id = s.crowdingAt id

section Levels

variable (hS : Population flags score s S)
include hS

/-- **The next front is the next level**: the members from level `j` on that
no remaining member dominates are exactly those of level `j`. -/
theorem Before.front_eq {j : Nat} {d : Dominance} {source chosen : List Nat} {t : Store}
    (hB : Before s S j d source chosen t) :
    d.front source = S.filter fun x => decide (depth (dominatesAt s) S x = j) := by
  have hstrict := hS.strictOn
  rw [Dominance.front_eq, hB.source_eq, List.filter_filter]
  refine List.filter_congr fun x hx => ?_
  by_cases hjx : j ≤ depth (dominatesAt s) S x
  · rw [hB.cnt x hx hjx]
    have hiff : (S.filter fun y => dominatesAt s y x && decide (j ≤ depth (dominatesAt s) S y)).length = 0 ↔
        depth (dominatesAt s) S x = j := by
      rw [List.length_eq_zero_iff, List.filter_eq_nil_iff]
      constructor
      · -- a member deeper than `j` has a dominator one level up, still counted
        intro h
        by_contra hne
        obtain ⟨y, hy, hyx, hdy⟩ := exists_dom_of_one_lt hstrict hx (by have := hB.pos; omega)
        exact h y hy (by simp [hyx]; omega)
      · intro h y hy hyx
        simp only [Bool.and_eq_true, decide_eq_true_eq] at hyx
        have := depth_lt_of_dom hstrict hx hy hyx.1
        omega
    simp only [hjx, decide_true]
    rw [Bool.eq_iff_iff, decide_eq_true_iff, ← hiff]
    simp
  · have : depth (dominatesAt s) S x ≠ j := by omega
    simp [hjx, this]

/-- While fewer than `size` are chosen, and `size` is at most the
population, level `j` is not empty. -/
theorem Before.level_ne_nil {j : Nat} {d : Dominance} {source chosen : List Nat} {t : Store}
    (hB : Before s S j d source chosen t) {size : Int} (hsize : size ≤ S.length)
    (hlt : (chosen.length : Int) < size) :
    S.filter (fun x => decide (depth (dominatesAt s) S x = j)) ≠ [] := by
  -- some member is not chosen yet, so it lies at level `j` or below
  obtain ⟨x, hx, hjx⟩ : ∃ x ∈ S, j ≤ depth (dominatesAt s) S x := by
    by_contra hno
    push Not at hno
    have hall : S.filter (fun x => decide (depth (dominatesAt s) S x < j)) = S :=
      List.filter_eq_self.2 fun x hx => by simpa using hno x hx
    have hlen := hB.chosen_perm.length_eq
    rw [hall] at hlen
    omega
  obtain ⟨y, hy, hdy⟩ := exists_depth_eq hS.strictOn hx hB.pos hjx
  exact List.ne_nil_of_mem (List.mem_filter.2 ⟨hy, by simpa using hdy⟩)

end Levels

/-- The members at level `j` are the members of `S` of that depth. -/
theorem mem_level {j : Nat} {L : List Nat}
    (hL : L.Perm (S.filter fun x => decide (depth (dominatesAt s) S x = j))) {id : Nat} :
    id ∈ L ↔ id ∈ S ∧ depth (dominatesAt s) S id = j := by
  rw [hL.mem_iff, List.mem_filter, decide_eq_true_iff]

section Counting

variable {α : Type} (f : α → Nat) (S : List α) (j : Nat)

/-- The members below level `j + 1` are those below `j` and those at `j`. -/
theorem filter_lt_succ_perm :
    (S.filter (fun x => decide (f x < j)) ++ S.filter fun x => decide (f x = j)).Perm
      (S.filter fun x => decide (f x < j + 1)) := by
  have h := List.filter_append_perm (fun x => decide (f x < j)) (S.filter fun x => decide (f x < j + 1))
  rw [List.filter_filter, List.filter_filter] at h
  refine List.Perm.trans ?_ h
  refine List.Perm.append (List.Perm.of_eq (List.filter_congr fun x _ => ?_))
    (List.Perm.of_eq (List.filter_congr fun x _ => ?_))
  all_goals
    rw [Bool.eq_iff_iff]
    simp only [Bool.and_eq_true, Bool.not_eq_true', decide_eq_true_eq, decide_eq_false_iff_not]
    omega

/-- Counting from level `j` on is counting at level `j` and from `j + 1` on. -/
theorem length_filter_from (q : α → Bool) :
    (S.filter fun y => q y && decide (j ≤ f y)).length =
      (S.filter fun y => q y && decide (f y = j)).length +
        (S.filter fun y => q y && decide (j + 1 ≤ f y)).length := by
  induction S with
  | nil => rfl
  | cons a S ih =>
    simp only [List.filter_cons]
    rcases Nat.lt_trichotomy (f a) j with h | h | h
    · have h₁ : ¬ j ≤ f a := by omega
      have h₂ : ¬ j + 1 ≤ f a := by omega
      simp [h₁, h₂, h.ne, ih]
    · cases q a <;> simp [h, ih]
      omega
    · have h₁ : j ≤ f a := by omega
      have h₂ : j + 1 ≤ f a := by omega
      cases q a <;> simp [h₁, h₂, h.ne', ih]
      omega

end Counting

/-! ### One front taken whole -/

theorem Store.keeps_withRank {t : Store} {i id : Nat} {v : Value} :
    (t.withRank i v).Keeps id ↔ t.Keeps id := by
  simp only [Store.Keeps, Store.baseAt_withRank]

/-- Setting one front rank on each of a list of individuals. -/
theorem forIn_setRank_run (v : Value) : ∀ (L : List Nat) (t : Store), (∀ id ∈ L, t.Keeps id) →
    ∃ t', (forIn L PUnit.unit fun i (_ : PUnit) => do
        setRank i v
        pure (ForInStep.yield PUnit.unit)).run t = .ok () t' ∧
      (∀ id, t'.baseAt id = t.baseAt id) ∧ (∀ id, t'.crowdingAt id = t.crowdingAt id) ∧
      ∀ id, t'.rankAt id = if id ∈ L then some v else t.rankAt id
  | [], t, _ => ⟨t, rfl, fun _ => rfl, fun _ => rfl, fun id => by simp⟩
  | a :: L, t, hK => by
    have ha := hK a List.mem_cons_self
    obtain ⟨t', hrun, hbase, hcrowd, hrank⟩ := forIn_setRank_run v L (t.withRank a v)
      fun id hid => Store.keeps_withRank.2 (hK id (List.mem_cons_of_mem a hid))
    refine ⟨t', ?_, fun id => by rw [hbase, Store.baseAt_withRank],
      fun id => by rw [hcrowd, Store.crowdingAt_withRank], fun id => ?_⟩
    · rw [List.forIn_cons, EStateM.run_bind, EStateM.run_bind, setRank_run ha]
      exact hrun
    · rw [hrank, Store.rankAt_withRank _ _ ha]
      by_cases hid : id ∈ L
      · simp [hid]
      · by_cases hai : a = id
        · simp [hid, hai]
        · simp [hid, hai, Ne.symm hai]

/-- Once `size` are chosen, the choice is over. -/
theorem chooseFrom_of_le {size : Int} {chosen : List Nat} (h : size ≤ chosen.length) :
    ∀ (fuel : Nat) (d : Dominance) (source : List Nat) (rank : Nat) (t : Store),
      (chooseFrom size fuel d source chosen rank).run t = .ok chosen t
  | 0, _, _, _, _ => rfl
  | _ + 1, _, _, _, _ => by
    simp only [chooseFrom, if_neg (not_lt.2 h)]
    rfl

section Next

variable (hS : Population flags score s S)
include hS

/-- **Taking a front whole** leads to the choice before the next level: the
front's members are chosen and ranked, and taking them out of the counts
leaves the counts of the members further down. -/
theorem Before.next {j : Nat} {d : Dominance} {source chosen : List Nat} {t t' : Store}
    (hB : Before s S j d source chosen t) {L : List Nat}
    (hL : L.Perm (S.filter fun x => decide (depth (dominatesAt s) S x = j)))
    (hbase : ∀ id, t'.baseAt id = t.baseAt id)
    (hrank : ∀ id, t'.rankAt id = if id ∈ L then some (.int j) else t.rankAt id)
    (hcrowd : ∀ id, id ∉ L → t'.crowdingAt id = t.crowdingAt id) :
    Before s S (j + 1) (d.remove L) (source.filter fun i => !L.contains i) (chosen ++ L) t' where
  pos := by omega
  source_eq := by
    rw [hB.source_eq, List.filter_filter]
    refine List.filter_congr fun x hx => ?_
    have hmem : x ∈ L ↔ x ∈ S ∧ depth (dominatesAt s) S x = j := mem_level hL
    by_cases hxL : x ∈ L
    · have hdx := (hmem.1 hxL).2
      simp [hxL, hdx]
    · have hdx : depth (dominatesAt s) S x ≠ j := fun h => hxL (hmem.2 ⟨hx, h⟩)
      rw [Bool.eq_iff_iff]
      simp [hxL]
      omega
  chosen_perm := (hB.chosen_perm.append hL).trans (filter_lt_succ_perm _ S j)
  cnt x hx hjx := by
    -- the front's members dominating `x` are those at level `j`
    have hfront : ((L.filter (dominatesAt s · x)).length : Int) =
        (S.filter fun y => dominatesAt s y x && decide (depth (dominatesAt s) S y = j)).length := by
      rw [(hL.filter _).length_eq, List.filter_filter]
    rw [cnt_remove_front (fun a ha => hB.bts a ((mem_level hL).1 ha).1) hS.nodup hx,
      hB.cnt x hx (by omega), length_filter_from (depth (dominatesAt s) S) S j, hfront]
    push_cast
    omega
  bts y hy := by
    simp only [Dominance.bts, (Dominance.remove_spec L d).1]
    exact hB.bts y hy
  base id := (hbase id).trans (hB.base id)
  rank id := by
    have hmem : id ∈ L ↔ id ∈ S ∧ depth (dominatesAt s) S id = j := mem_level hL
    rw [hrank id, hB.rank id]
    by_cases hid : id ∈ S
    · rcases Nat.lt_trichotomy (depth (dominatesAt s) S id) j with h | h | h
      · have hid' : id ∉ L := fun h' => by have := (hmem.1 h').2; omega
        simp [hid, hid', h, Nat.lt_succ_of_lt h]
      · simp [hid, hmem.2 ⟨hid, h⟩, h]
      · have hid' : id ∉ L := fun h' => by have := (hmem.1 h').2; omega
        have h₁ : ¬ depth (dominatesAt s) S id < j := by omega
        have h₂ : ¬ depth (dominatesAt s) S id < j + 1 := by omega
        simp [hid', h₁, h₂]
    · have hid' : id ∉ L := fun h' => hid (hmem.1 h').1
      simp [hid, hid']
  crowding id h := by
    have hid : id ∉ L := fun h' => by
      obtain ⟨hS', hd⟩ := (mem_level hL).1 h'
      rcases h with h | h
      · exact h hS'
      · omega
    rw [hcrowd id hid, hB.crowding id (h.imp_right fun h => by omega)]

end Next

/-! ### The end of the choice -/

/-- Where the choice ends: every member above level `J` and `cut` from level
`J`, `size` in all, each member down to level `J` ranked by its depth and the
store otherwise as in `s`.  When `cut` leaves part of level `J` out, it is
the most crowded part (`ordered`), and it comes from crowding level `J` on a
store that differs from `s` only in stamps (`last`). -/
structure Outcome (s : Store) (S : List Nat) (size : Int) (J : Nat) (cut out : List Nat) (t : Store) :
    Prop where
  pos : 1 ≤ J
  perm : out.Perm (S.filter (fun x => decide (depth (dominatesAt s) S x < J)) ++ cut)
  length : (out.length : Int) = size
  cut_ne : cut ≠ []
  cut_sub : cut.Subperm (S.filter fun x => decide (depth (dominatesAt s) S x = J))
  base : ∀ id, t.baseAt id = s.baseAt id
  rank : ∀ id, t.rankAt id =
    if id ∈ S ∧ depth (dominatesAt s) S id < J + 1 then some (.int (depth (dominatesAt s) S id))
    else s.rankAt id
  crowding : ∀ id, (id ∉ S ∨ J + 1 ≤ depth (dominatesAt s) S id) → t.crowdingAt id = s.crowdingAt id
  ordered : (∀ z ∈ S, depth (dominatesAt s) S z = J → ∃ c, t.crowdingAt z = some c ∧ c.exactValue?.isSome) →
    ∀ x ∈ cut, ∀ y ∈ S, depth (dominatesAt s) S y = J → y ∉ cut →
      ∃ cx cy, t.crowdingAt x = some cx ∧ t.crowdingAt y = some cy ∧ cy.exact ≤ cx.exact
  last : cut.length < (S.filter fun x => decide (depth (dominatesAt s) S x = J)).length →
    ∃ t₀ L t₁ sorted,
      (∀ id, t₀.baseAt id = s.baseAt id) ∧
      (crowd (S.filter fun x => decide (depth (dominatesAt s) S x = J))).run t₀ = .ok L t₁ ∧
      (forIn L PUnit.unit fun i (_ : PUnit) => do
        setRank i (.int J)
        pure (ForInStep.yield PUnit.unit)).run t₁ = .ok () t ∧
      (sortByKey L crowdingOf true).run t = .ok sorted t ∧
      cut = sorted.take (size - (S.filter fun x => decide (depth (dominatesAt s) S x < J)).length).toNat

/-- The levels above `j` as crowding left them in `t`: each member has a
crowding distance, the integer zero or a double, and on whole scores each
objective has a least and a greatest member of each level with an infinite
distance. -/
structure LevelsCrowded (flags : List Bool) (score : Nat → List Value) (s : Store) (S : List Nat) (j : Nat)
    (t : Store) : Prop where
  numbers : ∀ x ∈ S, depth (dominatesAt s) S x < j → ∃ c, t.crowdingAt x = some c ∧ c.IsCrowding
  ends : WholeScores score S → ∀ ℓ, 1 ≤ ℓ → ℓ < j → ∀ k < flags.length,
    EndsInfinite score (S.filter fun x => decide (depth (dominatesAt s) S x = ℓ)) k t

/-- Crowding level `j`, with infinite ends, and leaving the distances of
every other level as they were, adds level `j` to the levels crowded. -/
theorem LevelsCrowded.next {j : Nat} {t t' : Store} (hE : LevelsCrowded flags score s S j t)
    (hnum : ∀ x ∈ S, depth (dominatesAt s) S x = j → ∃ c, t'.crowdingAt x = some c ∧ c.IsCrowding)
    (hends : WholeScores score (S.filter fun x => decide (depth (dominatesAt s) S x = j)) →
      ∀ k < flags.length, EndsInfinite score (S.filter fun x => decide (depth (dominatesAt s) S x = j)) k t')
    (hframe : ∀ x ∈ S, depth (dominatesAt s) S x ≠ j → t'.crowdingAt x = t.crowdingAt x) :
    LevelsCrowded flags score s S (j + 1) t' where
  numbers x hx hxj := by
    by_cases hj : depth (dominatesAt s) S x = j
    · exact hnum x hx hj
    · rw [hframe x hx hj]
      exact hE.numbers x hx (by omega)
  ends hW ℓ hℓ hℓj k hk := by
    by_cases hj : ℓ = j
    · subst hj
      exact hends (fun id hid => hW id (List.mem_filter.1 hid).1) k hk
    · refine (hE.ends hW ℓ hℓ (by omega) k hk).of_frame fun x hx => ?_
      obtain ⟨hxS, hdx⟩ := List.mem_filter.1 hx
      exact hframe x hxS fun h => hj (by simp only [h, decide_eq_true_eq] at hdx; exact hdx.symm)

section Ends

variable {j : Nat} {d d' : Dominance} {source source' chosen L : List Nat} {t t' : Store}
  (hB : Before s S j d source chosen t) (hB' : Before s S (j + 1) d' source' (chosen ++ L) t')
  (hL : L.Perm (S.filter fun x => decide (depth (dominatesAt s) S x = j)))
include hB hB' hL

/-- The choice ends with a whole level. -/
theorem Outcome.of_whole {size : Int} (hne : L ≠ []) (hlen : ((chosen ++ L).length : Int) = size) :
    Outcome s S size j L (chosen ++ L) t' where
  pos := hB.pos
  perm := hB.chosen_perm.append_right L
  length := hlen
  cut_ne := hne
  cut_sub := hL.subperm
  base := hB'.base
  rank := hB'.rank
  crowding := hB'.crowding
  ordered _ _ _ _ hy hdy hyL := absurd ((mem_level hL).2 ⟨hy, hdy⟩) hyL
  last h := absurd hL.length_eq (Nat.ne_of_lt h)

/-- The choice ends within a level, with the first members of its crowding
sort. -/
theorem Outcome.of_cut {size : Int} {t₁ : Store} {sorted : List Nat}
    (hcrowd : (crowd (S.filter fun x => decide (depth (dominatesAt s) S x = j))).run t = .ok L t₁)
    (hranks : (forIn L PUnit.unit fun i (_ : PUnit) => do
        setRank i (.int j)
        pure (ForInStep.yield PUnit.unit)).run t₁ = .ok () t')
    (hkey : ∀ id ∈ L, (crowdingOf id).run t' = .ok ((t'.crowdingAt id).getD .none) t')
    (hsort : (sortByKey L crowdingOf true).run t' = .ok sorted t') (hperm : sorted.Perm L)
    (hpos : (chosen.length : Int) < size) (hcut : size < L.length + chosen.length) :
    Outcome s S size j (sorted.take (size - chosen.length).toNat)
      (chosen ++ sorted.take (size - chosen.length).toNat) t' where
  pos := hB.pos
  perm := hB.chosen_perm.append_right _
  length := by
    rw [List.length_append, List.length_take, hperm.length_eq]
    omega
  cut_ne := by
    have hsne : sorted ≠ [] := fun h => by
      rw [h] at hperm
      simp [← hperm.length_eq] at hcut
      omega
    simpa [List.take_eq_nil_iff, hsne] using by omega
  cut_sub := ((List.take_sublist _ sorted).subperm.trans hperm.subperm).trans hL.subperm
  base := hB'.base
  rank := hB'.rank
  crowding := hB'.crowding
  ordered hfin x hx y hy hdy hyc := by
    -- the crowding keys of the level are all exact, so the sort is by them
    have hval : ∀ z ∈ L, ∃ c, t'.crowdingAt z = some c ∧ c.exactValue?.isSome ∧
        (t'.crowdingAt z).getD .none = c := fun z hz => by
      obtain ⟨hzS, hdz⟩ := (mem_level hL).1 hz
      obtain ⟨c, hc, hex⟩ := hfin z hzS hdz
      exact ⟨c, hc, hex, by rw [hc]; rfl⟩
    obtain ⟨sorted', hsort', -, hpair⟩ := sortByKey_sorted_desc hkey fun z hz => by
      obtain ⟨c, -, hex, hget⟩ := hval z hz
      rwa [hget]
    obtain rfl : sorted' = sorted := by
      rw [hsort] at hsort'
      injection hsort' with h
      exact h.symm
    rw [← List.take_append_drop (size - chosen.length).toNat sorted', List.pairwise_append] at hpair
    have hyL : y ∈ L := (mem_level hL).2 ⟨hy, hdy⟩
    have hyd : y ∈ sorted'.drop (size - chosen.length).toNat := by
      have := hperm.mem_iff.2 hyL
      rw [← List.take_append_drop (size - chosen.length).toNat sorted', List.mem_append] at this
      exact this.resolve_left hyc
    obtain ⟨cx, hcx, -, hgx⟩ := hval x (hperm.subset (List.mem_of_mem_take hx))
    obtain ⟨cy, hcy, -, hgy⟩ := hval y hyL
    exact ⟨cx, cy, hcx, hcy, by simpa [hgx, hgy] using hpair.2.2 x hx y hyd⟩
  last _ := by
    refine ⟨t, L, t₁, sorted, hB.base, hcrowd, hranks, hsort, ?_⟩
    rw [hB.chosen_perm.length_eq]

end Ends

/-- **The choice runs to its end** from the choice before a level, while
fewer than `size` are chosen, `size` is at most the population and the fuel
outlasts the members still to choose. -/
theorem chooseFrom_run (hS : Population flags score s S) {size : Int} (hsize : size ≤ S.length) :
    ∀ (fuel j : Nat) (d : Dominance) (source chosen : List Nat) (t : Store),
      Before s S j d source chosen t → LevelsCrowded flags score s S j t → (chosen.length : Int) < size →
      size < fuel + chosen.length →
      ∃ J cut out t', (chooseFrom size fuel d source chosen j).run t = .ok out t' ∧
        Outcome s S size J cut out t' ∧ LevelsCrowded flags score s S (J + 1) t'
  | 0, _, _, _, _, _, _, _, hlt, hfuel => by omega
  | fuel + 1, j, d, source, chosen, t, hB, hE, hlt, hfuel => by
    -- crowd level `j` and rank it
    obtain ⟨L, t₁, hcrowd, hL, hC, hends, -⟩ := crowd_run (hS.of_baseAt hB.base)
      (fun id hid => (List.mem_filter.1 hid).1) (hB.level_ne_nil hS hsize hlt)
    have hSt₁ : Population flags score t₁ S := hS.of_baseAt fun id => (hC.base id).trans (hB.base id)
    obtain ⟨t₂, hranks, hb₂, hc₂, hr₂⟩ :=
      forIn_setRank_run (.int j) L t₁ fun id hid => hSt₁.keeps ((mem_level hL).1 hid).1
    have hB' := hB.next hS hL (fun id => (hb₂ id).trans (hC.base id)) (fun id => by rw [hr₂, hC.rank])
      fun id hid => by rw [hc₂, hC.frame id fun h => hid (hL.mem_iff.2 h)]
    have hne : L ≠ [] := fun h => hB.level_ne_nil hS hsize hlt (List.Perm.nil_eq (h ▸ hL)).symm
    have hE₂ : LevelsCrowded flags score s S (j + 1) t₂ :=
      hE.next (fun x hx hdx => by rw [hc₂]; exact hC.numbers x (List.mem_filter.2 ⟨hx, by simpa using hdx⟩))
        (fun hW k hk => (hends hW k hk).of_frame fun x _ => hc₂ x) fun x _ hdx => by
          rw [hc₂, hC.frame x fun h => hdx (by simpa using (List.mem_filter.1 h).2)]
    simp only [chooseFrom, takeFront, if_pos hlt, EStateM.run_bind, hB.front_eq hS, hcrowd, hranks]
    by_cases hcut : ((L.length + chosen.length : Nat) : Int) > size
    · -- the level does not fit: its most crowded members fill the choice
      have hnum : ∀ id ∈ L, ∃ c, t₂.crowdingAt id = some c ∧ c.IsCrowding := fun id hid => by
        rw [hc₂]
        exact hC.numbers id (hL.subset hid)
      have hkey : ∀ id ∈ L, (crowdingOf id).run t₂ = .ok ((t₂.crowdingAt id).getD .none) t₂ := by
        intro id hid
        obtain ⟨c, hc, -⟩ := hnum id hid
        rw [hc]
        exact crowdingOf_run ((hS.of_baseAt hB'.base).keeps ((mem_level hL).1 hid).1) hc
      obtain ⟨sorted, hsort, hperm⟩ := sortByKey_perm hkey (fun a ha b hb => by
        obtain ⟨ca, hca, hcca⟩ := hnum a ha
        obtain ⟨cb, hcb, hccb⟩ := hnum b hb
        rw [hca, hcb]
        exact Value.compare_answers_of_isCrowding .lt hcca hccb) true
      have hfull : size ≤ ((chosen ++ sorted.take (size - chosen.length).toNat).length : Int) := by
        rw [List.length_append, List.length_take, hperm.length_eq]
        omega
      simp only [if_pos hcut, EStateM.run_bind, hsort, EStateM.run_pure, chooseFrom_of_le hfull]
      exact ⟨j, _, _, t₂, rfl,
        Outcome.of_cut hB hB' hL hcrowd hranks hkey hsort hperm hlt (by push_cast at hcut; omega), hE₂⟩
    · simp only [if_neg hcut, EStateM.run_pure]
      by_cases hmore : ((chosen ++ L).length : Int) < size
      · -- the level fits and more are wanted: go on to the next level
        have hlen := List.length_pos_of_ne_nil hne
        exact chooseFrom_run hS hsize fuel (j + 1) _ _ _ t₂ hB' hE₂ hmore (by simp; omega)
      · rw [chooseFrom_of_le (by omega)]
        exact ⟨j, L, _, t₂, rfl, Outcome.of_whole hB hB' hL hne (by simp at hcut hmore ⊢; omega), hE₂⟩

/-- The choice before the first level: nothing chosen, every member to
come, and the counts of `Dominance.of`. -/
theorem Before.start {d : Dominance}
    (hcnt : ∀ x ∈ S, d.cnt x = ((S.filter (dominatesAt s · x)).length : Int))
    (hbts : ∀ y ∈ S, d.bts y = S.filter (dominatesAt s y ·)) : Before s S 1 d S [] s where
  pos := le_rfl
  source_eq := (List.filter_eq_self.2 fun x _ => decide_eq_true (depth_pos x)).symm
  chosen_perm := by
    rw [List.filter_eq_nil_iff.2 fun x _ => by
      have : 1 ≤ depth (dominatesAt s) S x := depth_pos x
      simp only [decide_eq_true_eq]
      omega]
  cnt x hx _ := by
    rw [hcnt x hx]
    congr 2
    exact List.filter_congr fun y _ => by rw [decide_eq_true (depth_pos y), Bool.and_true]
  bts := hbts
  base _ := rfl
  rank id := by
    have : 1 ≤ depth (dominatesAt s) S id := depth_pos id
    rw [if_neg fun h => by omega]
  crowding _ _ := rfl

/-- **Selection runs to its end** for every size from one to the population,
given or taken as half the population; on whole scores every level it takes
has infinite ends. -/
theorem select_run_ends (hS : Population flags score s S) {size : Option Int} {k : Nat} (hk : 1 ≤ k)
    (hkS : k ≤ S.length) (hsize : size = some (k : Int) ∨ (size = none ∧ k = S.length / 2)) :
    ∃ J cut out t', (select S size).run s = .ok out t' ∧ Outcome s S k J cut out t' ∧
      LevelsCrowded flags score s S (J + 1) t' := by
  obtain ⟨d, hd, hcnt, hbts⟩ := Dominance.of_run hS.evaluated
  have hrun := chooseFrom_run hS (show (k : Int) ≤ S.length by exact_mod_cast hkS) (k + 1) 1 d S [] s
    (Before.start hcnt hbts) ⟨fun x _ hx => absurd hx (by have : 1 ≤ depth (dominatesAt s) S x := depth_pos x; omega),
      fun _ _ h1 hℓ => absurd hℓ (by omega)⟩ (by simp; omega) (by simp)
  -- the size given, or half the population, is `k`
  rcases hsize with rfl | ⟨rfl, rfl⟩
  · have hk0 : ((k : Int) == 0) = false := by simp; omega
    simpa [select, survivorCount, hd, hk0] using hrun
  · simp only [select, survivorCount, EStateM.run_bind, hd, Int.toNat_natCast]
    exact hrun

theorem select_run (hS : Population flags score s S) {size : Option Int} {k : Nat} (hk : 1 ≤ k)
    (hkS : k ≤ S.length) (hsize : size = some (k : Int) ∨ (size = none ∧ k = S.length / 2)) :
    ∃ J cut out t', (select S size).run s = .ok out t' ∧ Outcome s S k J cut out t' := by
  obtain ⟨J, cut, out, t', hrun, hO, -⟩ := select_run_ends hS hk hkS hsize
  exact ⟨J, cut, out, t', hrun, hO⟩

section Chosen

variable {size : Int} {J : Nat} {cut out : List Nat} {t : Store} (hO : Outcome s S size J cut out t)
include hO

theorem Outcome.mem_iff {x : Nat} :
    x ∈ out ↔ (x ∈ S ∧ depth (dominatesAt s) S x < J) ∨ x ∈ cut := by
  rw [hO.perm.mem_iff, List.mem_append, List.mem_filter, decide_eq_true_iff]

theorem Outcome.mem_cut {x : Nat} (hx : x ∈ cut) : x ∈ S ∧ depth (dominatesAt s) S x = J := by
  have := hO.cut_sub.subset hx
  rwa [List.mem_filter, decide_eq_true_iff] at this

theorem Outcome.mem_out {x : Nat} (hx : x ∈ out) : x ∈ S ∧ depth (dominatesAt s) S x ≤ J := by
  rcases hO.mem_iff.1 hx with ⟨hxS, hxJ⟩ | hxc
  · exact ⟨hxS, hxJ.le⟩
  · exact ⟨(hO.mem_cut hxc).1, (hO.mem_cut hxc).2.le⟩

theorem Outcome.nodup (hS : Population flags score s S) : out.Nodup := by
  obtain ⟨l, hl, hsub⟩ := hO.cut_sub
  refine hO.perm.nodup_iff.2 ((hS.nodup.filter _).append (hl.nodup_iff.1 (hsub.nodup (hS.nodup.filter _))) ?_)
  intro x hx hxc
  have := (hO.mem_cut hxc).2
  rw [List.mem_filter, decide_eq_true_iff] at hx
  omega

end Chosen



/-- **Selection chooses by fronts, then by crowding.**  On a population whose
scores are exact and whose whole numbers are within half the doubles' range,
choosing `k` members, for `k` from one to the population (given, or half the
population when not given), returns `k` distinct members.  Each carries as
front rank its depth under dominance, one more than the deepest member
dominating it (`depth_eq`).  No member is passed over for a deeper one, and
where a level is taken only in part, every member taken has at least the
crowding of every member left, provided no crowding of that level is NaN. -/
theorem select_chooses_by_front_and_crowding (hS : Population flags score s S) {size : Option Int}
    {k : Nat} (hk : 1 ≤ k) (hkS : k ≤ S.length)
    (hsize : size = some (k : Int) ∨ (size = none ∧ k = S.length / 2)) :
    ∃ out s', (select S size).run s = .ok out s' ∧
      out.Nodup ∧ out.length = k ∧ (∀ x ∈ out, x ∈ S) ∧
      (∀ x ∈ out, s'.rankAt x = some (.int (depth (dominatesAt s) S x))) ∧
      (∀ x ∈ out, ∀ y ∈ S, depth (dominatesAt s) S y < depth (dominatesAt s) S x → y ∈ out) ∧
      ∀ x ∈ out, ∀ y ∈ S, y ∉ out → depth (dominatesAt s) S y = depth (dominatesAt s) S x →
        (∀ z ∈ S, depth (dominatesAt s) S z = depth (dominatesAt s) S x →
          ∃ c, s'.crowdingAt z = some c ∧ c.exactValue?.isSome) →
        ∃ cx cy, s'.crowdingAt x = some cx ∧ s'.crowdingAt y = some cy ∧ cy.exact ≤ cx.exact := by
  obtain ⟨J, cut, out, s', hrun, hO⟩ := select_run hS hk hkS hsize
  refine ⟨out, s', hrun, hO.nodup hS, by exact_mod_cast hO.length, fun x hx => (hO.mem_out hx).1,
    fun x hx => ?_, fun x hx y hy hyx => ?_, fun x hx y hy hyo hyx hfin => ?_⟩
  · obtain ⟨hxS, hxJ⟩ := hO.mem_out hx
    rw [hO.rank x, if_pos ⟨hxS, by omega⟩]
  · have hxJ := (hO.mem_out hx).2
    exact hO.mem_iff.2 (.inl ⟨hy, by omega⟩)
  · -- a member left out lies at level `J` or below, a member taken at `J` or above
    have hyJ : J ≤ depth (dominatesAt s) S y := by
      by_contra h
      exact hyo (hO.mem_iff.2 (.inl ⟨hy, by omega⟩))
    have hxJ := (hO.mem_out hx).2
    have hdx : depth (dominatesAt s) S x = J := by omega
    have hxc : x ∈ cut := (hO.mem_iff.1 hx).resolve_left fun h => by omega
    have hyc : y ∉ cut := fun h => hyo (hO.mem_iff.2 (.inr h))
    exact hO.ordered (fun z hz hdz => hfin z hz (hdz.trans hdx.symm)) x hxc y hy (by omega) hyc


/-! ### A sample population -/

/-- An individual with a ranked, evaluated fitness minimizing the whole
numbers `xs`. -/
def sampleIndividual (id : Nat) (xs : List Int) : Individual :=
  { (default : Individual) with
    id := id
    fitness := { (default : Fitness) with
      measure := .ranked, score := .list (xs.map .int), evaluated := true,
      higherIsBetter := .list (xs.map fun _ => .bool false) } }

/-- Three individuals scored on two objectives, the third dominated by both
others. -/
def sampleStore : Store :=
  ⟨Lab.start, ((({} : Std.HashMap Nat Individual).insert 0 (sampleIndividual 0 [1, 2])).insert 1
    (sampleIndividual 1 [2, 1])).insert 2 (sampleIndividual 2 [3, 3]), []⟩

/-- The scores of `sampleStore`. -/
def sampleScores (id : Nat) : List Value := ([[1, 2], [2, 1], [3, 3]].getD id ([] : List Int)).map .int

theorem sampleIndividual_scored (id : Nat) (xs : List Int) (hxs : ∀ n ∈ xs, 2 * n.natAbs < floatLimit) :
    (sampleIndividual id xs).fitness.Scored (xs.map fun _ => false) (xs.map .int) where
  ranked := rfl
  evaluated := rfl
  items_score := rfl
  items_flags := by simp [sampleIndividual, Fitness.items]
  length := by simp
  scores x hx := by
    obtain ⟨n, hn, rfl⟩ := List.mem_map.1 hx
    exact Value.isScore_int (hxs n hn)

/-- A store holding under each identity of `S` the sample individual of its
scores, whole numbers within half the doubles' range, is a population. -/
theorem sample_population (rows : Nat → List Int) {s : Store} (hnd : S.Nodup) (hwide : flags ≠ [])
    (hget : ∀ id ∈ S, s.individuals[id]? = some (sampleIndividual id (rows id)))
    (hflags : ∀ id ∈ S, (rows id).map (fun _ => false) = flags)
    (hsmall : ∀ id ∈ S, ∀ n ∈ rows id, 2 * n.natAbs < floatLimit) :
    Population flags (fun id => (rows id).map .int) s S :=
  ⟨hnd, hwide, fun id hid => ⟨_, by rw [Store.baseAt, hget id hid]; rfl, rfl,
    hflags id hid ▸ sampleIndividual_scored id (rows id) (hsmall id hid)⟩⟩

theorem sampleStore_population : Population [false, false] sampleScores sampleStore [0, 1, 2] := by
  refine sample_population (fun id => [[1, 2], [2, 1], [3, 3]].getD id []) (by decide) (by decide) ?_
    (by decide) (by decide +kernel)
  -- each lookup goes through the three inserts
  intro id hid
  simp only [List.mem_cons, List.not_mem_nil, or_false] at hid
  rcases hid with rfl | rfl | rfl <;>
    simp only [sampleStore, Std.HashMap.getElem?_insert, Nat.reduceBEq, Bool.false_eq_true, if_false,
      if_true] <;> rfl

/-- Choosing two of the sample population: two distinct members, ranked by
their depth. -/
theorem select_chooses_by_front_and_crowding_sample :
    Population [false, false] sampleScores sampleStore [0, 1, 2] ∧
      ∃ out s', (select [0, 1, 2] (some 2)).run sampleStore = .ok out s' ∧ out.Nodup ∧ out.length = 2 ∧
        ∀ x ∈ out, s'.rankAt x = some (.int (depth (dominatesAt sampleStore) [0, 1, 2] x)) := by
  obtain ⟨out, s', hrun, hnd, hlen, -, hrank, -⟩ :=
    select_chooses_by_front_and_crowding sampleStore_population (by decide : 1 ≤ 2) (by decide) (.inl rfl)
  exact ⟨sampleStore_population, out, s', hrun, hnd, hlen, hrank⟩

end Pareto
end Evolver
