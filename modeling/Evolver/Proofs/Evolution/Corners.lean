import Evolver.Proofs.Pareto.Comparison
import Evolver.Evolution.Statistics
/-!
# The corners of the first front

After each generation of a multi-objective run the statistic writes, for each
subpopulation, the corners of its first and its last front: the distinct
scores of the members of that rank whose crowding distance is infinite
(`Statistic.corners`), which it checks are one or two.

Sorting gives both ends of every objective's sort an infinite distance, and
on whole-number scores the shares added for later objectives never take it
away (`crowd_run`, `LevelsCrowded`): every objective's least and greatest
members of the first front are corners.  Two objectives share their ends,
but three can have three members of the front each alone at an end of its
own objective, and then the check fails.

* `Value.equal_items`: two sequences of numbers compare without fault, and
  are equal only when their exact values are;
* `Statistic.distinct_run`: keeping the distinct scores answers a list that
  holds a score equal to each one;
* `Statistic.isCorner_run`: the test of a member ranked by a whole number and
  crowded by zero or a double answers, `true` for an infinite distance at the
  rank asked;
* `Pareto.corners_fail_of_distinct_ends`: three members that pass the test
  with pairwise different scores make the check fail;
* `Pareto.firstFront_corners_fail_on_three_ends`: choosing survivors among
  whole-number scores, with room for the whole first front, ranks the front
  first and leaves the ends of every objective infinitely crowded; three
  members of different scores, each alone at an end of some objective, make
  the corner check of the first front fail.
-/

namespace Evolver

open Numeric

namespace Value

theorem equal_plain {a b : Value} {c d : Cell} (ha : a.toCell? = some c) (hb : b.toCell? = some d) :
    Value.equal a b = .ok (cellEqual c d) := by
  cases a <;> cases b <;> simp only [toCell?, Option.some.injEq, reduceCtorEq] at ha hb <;>
    subst ha hb <;> rfl

theorem cellEqual_exact {c d : Cell} {u v : WithBot (WithTop Int)} (hc : c.exactValue? = some u)
    (hd : d.exactValue? = some v) : cellEqual c d = decide (u = v) := by
  -- numbers are equal when their comparison says so
  have hnum : cellEqual c d = (Ord.compare u v == .eq) := by
    have hcmp := plainCompare_eq "==" hc hd
    -- a number is a whole number or a double, never `none` or text
    cases c <;> cases d <;> first
      | (simp only [Cell.exactValue?, Cell.toInt?, Option.map_none, reduceCtorEq] at hc; done)
      | (simp only [Cell.exactValue?, Cell.toInt?, Option.map_none, reduceCtorEq] at hd; done)
      | (simp only [cellEqual]
         rw [hcmp]
         generalize Ord.compare u v = r
         cases r <;> rfl)
  rw [hnum]
  rcases lt_trichotomy u v with h | rfl | h
  · rw [compare_lt_iff_lt.2 h, decide_eq_false h.ne]
    rfl
  · rw [compare_eq_iff_eq.2 rfl, decide_eq_true rfl]
    rfl
  · rw [compare_gt_iff_gt.2 h, decide_eq_false h.ne']
    rfl

/-- **Plain numbers are equal exactly when their exact values are.** -/
theorem equal_exact {a b : Value} {u v : WithBot (WithTop Int)} (ha : a.exactValue? = some u)
    (hb : b.exactValue? = some v) : Value.equal a b = .ok (decide (u = v)) := by
  obtain ⟨c, hc, hcu⟩ := Option.bind_eq_some_iff.1 ha
  obtain ⟨d, hd, hdv⟩ := Option.bind_eq_some_iff.1 hb
  rw [equal_plain hc hd, cellEqual_exact hcu hdv]

theorem equalList_exact : ∀ (xs ys : List Value), (∀ x ∈ xs, x.exactValue?.isSome) →
    (∀ y ∈ ys, y.exactValue?.isSome) → Value.equalList xs ys = .ok (decide (xs.map exact = ys.map exact))
  | [], [], _, _ => rfl
  | [], _ :: _, _, _ => by simp [Value.equalList]
  | _ :: _, [], _, _ => by simp [Value.equalList]
  | x :: xs, y :: ys, hx, hy => by
    have hx' := hx x List.mem_cons_self
    have hy' := hy y List.mem_cons_self
    rw [Value.equalList, equal_exact (exactValue?_eq_exact hx') (exactValue?_eq_exact hy')]
    by_cases h : x.exact = y.exact
    · rw [equalList_exact xs ys (fun z hz => hx z (List.mem_cons_of_mem x hz))
        fun z hz => hy z (List.mem_cons_of_mem y hz)]
      simp [h]
    · simp [h]

/-- **Two sequences of numbers compare without fault**, and are equal only
when their exact values are. -/
theorem equal_items {v w : Value} {xs ys : List Value} (hv : Fitness.items v = .ok xs)
    (hw : Fitness.items w = .ok ys) (hxs : ∀ x ∈ xs, x.exactValue?.isSome)
    (hys : ∀ y ∈ ys, y.exactValue?.isSome) :
    ∃ b, Value.equal v w = .ok b ∧ (b = true → xs.map exact = ys.map exact) := by
  cases v <;> simp only [Fitness.items, reduceCtorEq, Except.ok.injEq] at hv <;> subst hv <;>
    cases w <;> simp only [Fitness.items, reduceCtorEq, Except.ok.injEq] at hw <;> subst hw
  -- a list and a tuple are never equal; two of a kind compare item by item
  · exact ⟨_, equalList_exact _ _ hxs hys, of_decide_eq_true⟩
  · exact ⟨false, rfl, fun h => absurd h Bool.false_ne_true⟩
  · exact ⟨false, rfl, fun h => absurd h Bool.false_ne_true⟩
  · exact ⟨_, equalList_exact _ _ hxs hys, of_decide_eq_true⟩

theorem equal_items_self {v : Value} {xs : List Value} (hv : Fitness.items v = .ok xs)
    (hxs : ∀ x ∈ xs, x.exactValue?.isSome) : Value.equal v v = .ok true := by
  cases v <;> simp only [Fitness.items, reduceCtorEq, Except.ok.injEq] at hv <;> subst hv <;>
    exact (equalList_exact _ _ hxs hxs).trans (by rw [decide_eq_true rfl])

end Value

namespace Run

/-- A loop whose every step answers a value of its item, without changing
the store, answers the values of its items. -/
theorem mapM_run_map {γ α : Type} {f : γ → Run α} (g : γ → α) {s : Store} :
    ∀ (xs : List γ), (∀ x ∈ xs, (f x).run s = .ok (g x) s) → (xs.mapM f).run s = .ok (xs.map g) s
  | [], _ => rfl
  | x :: xs, h => by
    simp only [List.mapM_cons, EStateM.run_bind, h x List.mem_cons_self,
      mapM_run_map g xs fun y hy => h y (List.mem_cons_of_mem x hy)]
    rfl

/-- A filter whose test answers without changing the store keeps items of
the list, every item its test passes among them. -/
theorem filterM_answers {γ : Type} (p : γ → Run Bool) {s : Store} (xs : List γ)
    (h : ∀ x ∈ xs, ∃ b, (p x).run s = .ok b s) :
    ∃ ys, (xs.filterM p).run s = .ok ys s ∧ (∀ y ∈ ys, y ∈ xs) ∧ ∀ x ∈ xs, (p x).run s = .ok true s → x ∈ ys := by
  classical
  refine ⟨xs.filter fun x => decide ((p x).run s = .ok true s), filterM_run xs fun x hx => ?_,
    fun y hy => (List.mem_filter.1 hy).1, fun x hx hpx => List.mem_filter.2 ⟨hx, decide_eq_true hpx⟩⟩
  obtain ⟨b, hb⟩ := h x hx
  cases b
  · rw [hb, decide_eq_false fun h' => by cases h']
  · rw [hb, decide_eq_true rfl]

end Run

namespace Statistic

/-- Asking whether any kept score equals `v` answers when every comparison
does, `true` exactly when one is equal. -/
theorem anyM_equal {v : Value} : ∀ (kept : List Value), (∀ w ∈ kept, ∃ b, Value.equal v w = .ok b) →
    ∃ b, kept.anyM (Value.equal v) = .ok b ∧ (b = true ↔ ∃ w ∈ kept, Value.equal v w = .ok true)
  | [], _ => ⟨false, rfl, by simp⟩
  | w :: kept, h => by
    obtain ⟨b, hb⟩ := h w List.mem_cons_self
    cases b
    · obtain ⟨b', hb', hiff⟩ := anyM_equal kept fun w' hw' => h w' (List.mem_cons_of_mem w hw')
      refine ⟨b', by simp [List.anyM, hb, hb'], ?_⟩
      rw [hiff]
      simp [hb]
    · exact ⟨true, by simp [List.anyM, hb], by simp [hb]⟩

/-- One step of keeping distinct scores either keeps the list, which then
holds a score equal to the new one, or adds the new one. -/
theorem distinct_step (kept : List Value) (v : Value) (h : ∀ w ∈ kept, ∃ b, Value.equal v w = .ok b) :
    ((do if ← kept.anyM (Value.equal v) then pure kept else pure (kept ++ [v])) :
        Except Fault (List Value)) = .ok kept ∧ (∃ w ∈ kept, Value.equal v w = .ok true) ∨
      ((do if ← kept.anyM (Value.equal v) then pure kept else pure (kept ++ [v])) :
        Except Fault (List Value)) = .ok (kept ++ [v]) := by
  obtain ⟨b, hb, hiff⟩ := anyM_equal kept h
  cases b
  · exact .inr (by simp [hb])
  · exact .inl ⟨by simp [hb], hiff.1 rfl⟩

/-- **Keeping the distinct scores** answers, when every two scores compare
and each equals itself, a list of the scores holding one equal to each. -/
theorem distinct_run (vs : List Value) (hans : ∀ v ∈ vs, ∀ w ∈ vs, ∃ b, Value.equal v w = .ok b)
    (hrefl : ∀ v ∈ vs, Value.equal v v = .ok true) :
    ∃ kept, distinct vs = .ok kept ∧ (∀ w ∈ kept, w ∈ vs) ∧ ∀ v ∈ vs, ∃ w ∈ kept, Value.equal v w = .ok true := by
  -- the fold keeps scores of `vs`, and each score it has passed has an equal one kept
  suffices h : ∀ (rest kept : List Value), (∀ v ∈ rest, v ∈ vs) → (∀ w ∈ kept, w ∈ vs) →
      ∃ kept', rest.foldlM (fun kept v => do
          if ← kept.anyM (Value.equal v) then pure kept else pure (kept ++ [v])) kept = .ok kept' ∧
        (∀ w ∈ kept', w ∈ vs) ∧ (∀ w ∈ kept, w ∈ kept') ∧ ∀ v ∈ rest, ∃ w ∈ kept', Value.equal v w = .ok true by
    obtain ⟨kept, hrun, hsub, -, hcov⟩ := h vs [] (fun v hv => hv) fun w hw => absurd hw List.not_mem_nil
    exact ⟨kept, hrun, hsub, hcov⟩
  intro rest
  induction rest with
  | nil => exact fun kept _ hk => ⟨kept, rfl, hk, fun w hw => hw, fun v hv => absurd hv List.not_mem_nil⟩
  | cons v rest ih =>
    intro kept hrest hk
    have hv := hrest v List.mem_cons_self
    have hrest' : ∀ u ∈ rest, u ∈ vs := fun u hu => hrest u (List.mem_cons_of_mem v hu)
    rcases distinct_step kept v fun w hw => hans v hv w (hk w hw) with ⟨hstep, w, hw, hvw⟩ | hstep
    · obtain ⟨kept', hrun, hsub, hgrow, hcov⟩ := ih kept hrest' hk
      refine ⟨kept', by rw [List.foldlM_cons, hstep]; exact hrun, hsub, hgrow, fun u hu => ?_⟩
      rcases List.mem_cons.1 hu with rfl | hu
      · exact ⟨w, hgrow w hw, hvw⟩
      · exact hcov u hu
    · have hk' : ∀ w ∈ kept ++ [v], w ∈ vs := fun w hw => by
        rcases List.mem_append.1 hw with hw | hw
        · exact hk w hw
        · rw [List.mem_singleton.1 hw]
          exact hv
      obtain ⟨kept', hrun, hsub, hgrow, hcov⟩ := ih (kept ++ [v]) hrest' hk'
      refine ⟨kept', by rw [List.foldlM_cons, hstep]; exact hrun, hsub,
        fun w hw => hgrow w (List.mem_append_left _ hw), fun u hu => ?_⟩
      rcases List.mem_cons.1 hu with rfl | hu
      · exact ⟨u, hgrow u (List.mem_append_right _ (List.mem_singleton_self u)), hrefl u hv⟩
      · exact hcov u hu

theorem rankAndCrowding_run {s : Store} {x : Nat} {i : Individual} (hi : s.individuals[x]? = some i)
    {r c : Value} (hr : i.fitness.frontRank = some r) (hc : i.fitness.crowding = some c) :
    (rankAndCrowding x).run s = .ok (r, c) s := by
  simp only [rankAndCrowding, EStateM.run_bind, Run.get_run hi, hr, hc, Fitness.stat, Run.ofExcept_ok_run]
  rfl

/-- **The corner test** of a member ranked by a whole number and crowded by
zero or a double answers without changing the store, and `true` when the
rank is the one asked and the distance is infinite. -/
theorem isCorner_run {s : Store} {x : Nat} {i : Individual} (hi : s.individuals[x]? = some i)
    {n m : Int} (hr : i.fitness.frontRank = some (.int n)) {c : Value} (hc : i.fitness.crowding = some c)
    (hcc : c.IsCrowding) :
    ∃ b, (isCorner (.int m) x).run s = .ok b s ∧ (n = m → c = Fitness.unranked → b = true) := by
  -- the distance compares with infinity, and infinity is equal to itself
  obtain ⟨e, he, heq⟩ : ∃ e, Value.equal c Fitness.unranked = .ok e ∧ (c = Fitness.unranked → e = true) := by
    rcases hcc with rfl | ⟨y, rfl⟩
    · exact ⟨false, Value.equal_int_unranked 0, fun h => by cases h⟩
    · refine ⟨_, rfl, fun h => ?_⟩
      obtain rfl : y = 1.0 / 0.0 := Value.float.inj h
      rfl
  simp only [isCorner, EStateM.run_bind, rankAndCrowding_run hi hr hc, Value.equal_int, Run.ofExcept_ok_run]
  by_cases hnm : n = m
  · simp only [hnm, beq_self_eq_true, if_true, he, Run.ofExcept_ok_run]
    exact ⟨e, rfl, fun _ => heq⟩
  · simp only [beq_false_of_ne hnm, Bool.false_eq_true, if_false]
    exact ⟨false, rfl, fun h => absurd h hnm⟩

end Statistic

namespace Pareto

variable {flags : List Bool} {score : Nat → List Value} {s : Store} {S : List Nat}

/-- The first front of `S`: its members of depth one, which no member
dominates. -/
def firstFront (s : Store) (S : List Nat) : List Nat :=
  S.filter fun x => decide (depth (dominatesAt s) S x = 1)

/-- Among `F`, `x` alone holds the least, or alone the greatest, value of
objective `k`. -/
def AloneAtEnd (score : Nat → List Value) (F : List Nat) (x k : Nat) : Prop :=
  (∀ y ∈ F, y ≠ x → ((score x).getD k .none).exact < ((score y).getD k .none).exact) ∨
    ∀ y ∈ F, y ≠ x → ((score y).getD k .none).exact < ((score x).getD k .none).exact

/-- A member alone at an end of an objective whose ends are infinitely
crowded is infinitely crowded. -/
theorem AloneAtEnd.crowding {F : List Nat} {x k : Nat} {t : Store} (h : AloneAtEnd score F x k) (hx : x ∈ F)
    (hE : EndsInfinite score F k t) : t.crowdingAt x = some Fitness.unranked := by
  obtain ⟨⟨lo, hlo, hlel, hl⟩, hi, hhi, hleh, hh⟩ := hE
  rcases h with h | h
  · by_cases hne : lo = x
    · rw [← hne]
      exact hl
    · exact absurd (hlel x hx) (not_le.2 (h lo hlo hne))
  · by_cases hne : hi = x
    · rw [← hne]
      exact hh
    · exact absurd (hleh x hx) (not_le.2 (h hi hhi hne))

/-- The score an individual holds in a store. -/
def scoreIn (s : Store) (id : Nat) : Value := (s.individuals[id]?.map (·.fitness.score)).getD .none

/-- A scored member's objectives are its score in the store, read as the
score list. -/
theorem Population.scoreIn_run {t : Store} (hS : Population flags score t S) {x : Nat} (hx : x ∈ S) :
    (objectives x).run t = .ok (scoreIn t x) t ∧ Fitness.items (scoreIn t x) = .ok (score x) ∧
      ∀ v ∈ score x, v.exactValue?.isSome := by
  obtain ⟨i, hi, -, hsc⟩ := (hS.scored x hx).exists
  have hval : scoreIn t x = i.fitness.score := by simp [scoreIn, hi]
  refine ⟨?_, hval ▸ hsc.items_score, fun v hv => (hsc.scores v hv).1⟩
  simp only [objectives, EStateM.run_bind, Run.get_run hi, Individual.pureFitness, hsc.objectives.pure_eq,
    Run.ofExcept_ok_run, hval]

/-- **Three corners with different scores fail the corner check.**  When
every chosen member is scored and answers the corner test of rank `r`
without changing the store, three of them that pass it with pairwise
different scores leave at least three distinct corner scores. -/
theorem corners_fail_of_distinct_ends {t : Store} (hS : Population flags score t S) {out : List Nat}
    (hout : ∀ x ∈ out, x ∈ S) {r : Value} (htest : ∀ x ∈ out, ∃ b, (Statistic.isCorner r x).run t = .ok b t)
    {ends : List Nat} (hlen : 3 ≤ ends.length)
    (hends : ∀ x ∈ ends, x ∈ out ∧ (Statistic.isCorner r x).run t = .ok true t)
    (hnd : (ends.map fun x => (score x).map Value.exact).Nodup) :
    (Statistic.corners out r).run t = .error ⟨.checkFailed, ""⟩ t := by
  obtain ⟨members, hmembers, hsub, hin⟩ := Run.filterM_answers (Statistic.isCorner r) out htest
  have hscore : ∀ x ∈ members, (objectives x).run t = .ok (scoreIn t x) t ∧
      Fitness.items (scoreIn t x) = .ok (score x) ∧ ∀ v ∈ score x, v.exactValue?.isSome :=
    fun x hx => hS.scoreIn_run (hout x (hsub x hx))
  obtain ⟨kept, hdistinct, hkept, hcover⟩ := Statistic.distinct_run (members.map (scoreIn t))
    (fun v hv w hw => by
      obtain ⟨y, hy, rfl⟩ := List.mem_map.1 hv
      obtain ⟨z, hz, rfl⟩ := List.mem_map.1 hw
      obtain ⟨b, hb, -⟩ := Value.equal_items (hscore y hy).2.1 (hscore z hz).2.1 (hscore y hy).2.2
        (hscore z hz).2.2
      exact ⟨b, hb⟩)
    fun v hv => by
      obtain ⟨y, hy, rfl⟩ := List.mem_map.1 hv
      exact Value.equal_items_self (hscore y hy).2.1 (hscore y hy).2.2
  -- every end is a member, so its scores are those of a kept score
  have hsubset : (ends.map fun x => (score x).map Value.exact) ⊆
      kept.map fun w => ((Fitness.items w).toOption.getD []).map Value.exact := by
    intro e he
    obtain ⟨x, hx, rfl⟩ := List.mem_map.1 he
    have hxm := hin x (hends x hx).1 (hends x hx).2
    obtain ⟨w, hw, hxw⟩ := hcover _ (List.mem_map_of_mem hxm)
    obtain ⟨z, hz, rfl⟩ := List.mem_map.1 (hkept w hw)
    obtain ⟨b, hb, heq⟩ := Value.equal_items (hscore x hxm).2.1 (hscore z hz).2.1 (hscore x hxm).2.2
      (hscore z hz).2.2
    rw [hxw, Except.ok.injEq] at hb
    refine List.mem_map.2 ⟨_, hw, ?_⟩
    rw [(hscore z hz).2.1, heq hb.symm]
    rfl
  have hthree : 3 ≤ kept.length := by
    have := (hnd.subperm hsubset).length_le
    simp only [List.length_map] at this
    omega
  simp only [Statistic.corners, EStateM.run_bind, hmembers]
  -- the check reads each member's scores as `objectives` does
  rw [Run.mapM_run_map (scoreIn t) members ?_]
  · simp only [hdistinct, Run.ofExcept_ok_run]
    rw [if_neg (by simp only [Bool.or_eq_true, beq_iff_eq, not_or]; omega)]
    rfl
  · exact fun x hx => (hscore x hx).1

/-- Choosing `k` survivors with room for the whole first front keeps all of
it: either the choice goes past the first front, or it ends there and the
members cut from it are all of it. -/
theorem Outcome.firstFront_mem {k J : Nat} {cut out : List Nat} {t : Store} (hO : Outcome s S k J cut out t)
    (hfit : (firstFront s S).length ≤ k) {x : Nat} (hx : x ∈ firstFront s S) : x ∈ out := by
  obtain ⟨hxS, hdx⟩ := List.mem_filter.1 hx
  rw [decide_eq_true_iff] at hdx
  rcases Nat.lt_or_ge 1 J with hJ1 | hJ1
  · exact hO.mem_iff.2 (.inl ⟨hxS, by omega⟩)
  · obtain rfl : J = 1 := by have := hO.pos; omega
    have hnone : S.filter (fun x => decide (depth (dominatesAt s) S x < 1)) = [] :=
      List.filter_eq_nil_iff.2 fun y _ => by
        have : 1 ≤ depth (dominatesAt s) S y := depth_pos y
        simp only [decide_eq_true_eq]
        omega
    have hcut : cut.length = k := by
      have := hO.perm.length_eq
      rw [hnone, List.nil_append] at this
      have := hO.length
      omega
    have hperm := hO.cut_sub.perm_of_length_le (by rw [hcut]; exact hfit)
    exact hO.mem_iff.2 (.inr (hperm.mem_iff.2 hx))

/-- **Three objectives can give the first front three corners.**  Choosing
`k` survivors, from one to the population, among whole-number scores, with
room for the whole first front: every member of the first front survives,
ranked first, and for every objective a least and a greatest member of the
first front have an infinite crowding distance, so they are corners.  Three
or more members of the first front with pairwise different scores, each
alone at an end of some objective, are then as many corners, and the corner
check of the first front fails. -/
theorem firstFront_corners_fail_on_three_ends (hS : Population flags score s S) (hW : WholeScores score S)
    {size : Option Int} {k : Nat} (hk : 1 ≤ k) (hkS : k ≤ S.length)
    (hsize : size = some (k : Int) ∨ (size = none ∧ k = S.length / 2)) (hfit : (firstFront s S).length ≤ k) :
    ∃ out s', (select S size).run s = .ok out s' ∧
      (∀ x ∈ firstFront s S, x ∈ out ∧ s'.rankAt x = some (.int 1)) ∧
      (∀ j < flags.length, EndsInfinite score (firstFront s S) j s') ∧
      ∀ ends : List Nat, 3 ≤ ends.length →
        (∀ x ∈ ends, x ∈ firstFront s S ∧ ∃ j < flags.length, AloneAtEnd score (firstFront s S) x j) →
        (ends.map fun x => (score x).map Value.exact).Nodup →
        (Statistic.corners out (.int 1)).run s' = .error ⟨.checkFailed, ""⟩ s' := by
  obtain ⟨J, cut, out, s', hrun, hO, hE⟩ := select_run_ends hS hk hkS hsize
  have hdepth : ∀ x ∈ out, x ∈ S ∧ depth (dominatesAt s) S x < J + 1 := fun x hx =>
    ⟨(hO.mem_out hx).1, Nat.lt_succ_of_le (hO.mem_out hx).2⟩
  have hrank : ∀ x ∈ out, s'.rankAt x = some (.int (depth (dominatesAt s) S x)) := fun x hx => by
    rw [hO.rank x, if_pos (hdepth x hx)]
  have hends : ∀ j < flags.length, EndsInfinite score (firstFront s S) j s' :=
    fun j hj => hE.ends hW 1 le_rfl (by have := hO.pos; omega) j hj
  refine ⟨out, s', hrun, fun x hx => ⟨hO.firstFront_mem hfit hx, ?_⟩, hends, fun ends hlen hend hnd => ?_⟩
  · rw [hrank x (hO.firstFront_mem hfit hx), (decide_eq_true_iff.1 (List.mem_filter.1 hx).2)]
    rfl
  -- every member of `out` answers the corner test; every end passes it
  have htest : ∀ x ∈ out, ∃ b, (Statistic.isCorner (.int 1) x).run s' = .ok b s' ∧
      (x ∈ ends → b = true) := by
    intro x hx
    obtain ⟨hxS, hxJ⟩ := hdepth x hx
    obtain ⟨i, hi, -, -⟩ := ((hS.of_baseAt hO.base).scored x hxS).exists
    obtain ⟨c, hc, hcc⟩ := hE.numbers x hxS hxJ
    have hr := hrank x hx
    simp only [Store.rankAt, Store.crowdingAt, hi, Option.bind_some] at hr hc
    obtain ⟨b, hb, htrue⟩ := Statistic.isCorner_run hi hr hc hcc (m := 1)
    refine ⟨b, hb, fun hxe => htrue ?_ ?_⟩
    · obtain ⟨hxF, -⟩ := hend x hxe
      exact_mod_cast decide_eq_true_iff.1 (List.mem_filter.1 hxF).2
    · obtain ⟨hxF, j, hj, halone⟩ := hend x hxe
      have := halone.crowding hxF (hends j hj)
      simp only [Store.crowdingAt, hi, Option.bind_some] at this
      exact Option.some.inj (hc.symm.trans this)
  refine corners_fail_of_distinct_ends (hS.of_baseAt hO.base) (fun x hx => (hdepth x hx).1)
    (fun x hx => (htest x hx).imp fun _ h => h.1) hlen (fun x hx => ?_) hnd
  obtain ⟨b, hb, hbt⟩ := htest x (hO.firstFront_mem hfit (hend x hx).1)
  exact ⟨hO.firstFront_mem hfit (hend x hx).1, hbt hx ▸ hb⟩

/-- Three individuals on three objectives, each alone the least in one of
them. -/
def threeEndsStore : Store :=
  ⟨Lab.start, ((({} : Std.HashMap Nat Individual).insert 0 (sampleIndividual 0 [0, 1, 1])).insert 1
    (sampleIndividual 1 [1, 0, 1])).insert 2 (sampleIndividual 2 [1, 1, 0]), []⟩

/-- The scores of `threeEndsStore`. -/
def threeEndsScores (id : Nat) : List Value :=
  ([[0, 1, 1], [1, 0, 1], [1, 1, 0]].getD id ([] : List Int)).map .int

theorem threeEndsStore_population :
    Population [false, false, false] threeEndsScores threeEndsStore [0, 1, 2] := by
  refine sample_population (fun id => [[0, 1, 1], [1, 0, 1], [1, 1, 0]].getD id []) (by decide) (by decide) ?_
    (by decide) (by decide +kernel)
  -- each lookup goes through the three inserts
  intro id hid
  simp only [List.mem_cons, List.not_mem_nil, or_false] at hid
  rcases hid with rfl | rfl | rfl <;>
    simp only [threeEndsStore, Std.HashMap.getElem?_insert, Nat.reduceBEq, Bool.false_eq_true, if_false,
      if_true] <;> rfl

/-- Keeping all three of `threeEndsStore`, the corner check of the first
front fails. -/
theorem firstFront_corners_fail_on_three_ends_threeEnds :
    Population [false, false, false] threeEndsScores threeEndsStore [0, 1, 2] ∧
      WholeScores threeEndsScores [0, 1, 2] ∧
      ∃ out s', (select [0, 1, 2] (some 3)).run threeEndsStore = .ok out s' ∧
        (Statistic.corners out (.int 1)).run s' = .error ⟨.checkFailed, ""⟩ s' := by
  have hS := threeEndsStore_population
  have hW : WholeScores threeEndsScores [0, 1, 2] := by
    unfold WholeScores
    decide
  -- no member dominates another, so all three make the first front
  have hnone : ∀ x ∈ [0, 1, 2], ∀ y ∈ [0, 1, 2], dominatesAt threeEndsStore y x = false := by
    intro x hx y hy
    rw [hS.evaluated.dominatesAt_eq hy hx]
    revert x y
    decide +kernel
  have hfront : firstFront threeEndsStore [0, 1, 2] = [0, 1, 2] := by
    refine List.filter_eq_self.2 fun x hx => decide_eq_true ?_
    by_contra hne
    have hlt : 1 < depth (dominatesAt threeEndsStore) [0, 1, 2] x := by
      have : 1 ≤ depth (dominatesAt threeEndsStore) [0, 1, 2] x := depth_pos x
      omega
    obtain ⟨y, hy, hyx, -⟩ := exists_dom_of_one_lt hS.strictOn hx hlt
    rw [hnone x hx y hy] at hyx
    exact Bool.false_ne_true hyx
  obtain ⟨out, s', hrun, -, -, hfail⟩ :=
    firstFront_corners_fail_on_three_ends hS hW (by decide : 1 ≤ 3) le_rfl (.inl rfl) (by rw [hfront]; rfl)
  refine ⟨hS, hW, out, s', hrun, hfail [0, 1, 2] le_rfl ?_ (by decide +kernel)⟩
  -- member `x` is alone the least in objective `x`
  rw [hfront]
  intro x hx
  refine ⟨hx, x, by simp at hx ⊢; omega, .inl ?_⟩
  revert x
  decide +kernel

end Pareto

end Evolver
