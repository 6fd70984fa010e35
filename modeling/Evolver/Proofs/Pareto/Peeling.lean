import Evolver.Proofs.Pareto.Select
import Evolver.Proofs.Store.Frame
/-!
# Peeling fronts

`select` takes a population apart one front at a time.  A round
(`takeFront`) crowds and ranks the members that no remaining member
dominates, keeps the most crowded of them when they are more than are still
wanted, and the loop moves those kept from the source to the chosen and takes
them out of the counts of dominators.  Rounds are a relation between choices
(`Choice.Next`), and the loop of `chooseFrom` follows it:

* `takeFront_taken`: whatever the scores, a round that answers takes a part
  of the front, reordered, and at least one member;
* `chooseFrom_ends`: so the loop ends at a choice the rounds reach, because
  enough are chosen or because the round there fails, and never for want of
  fuel.

On individuals whose scores are numbers other than NaN (`Evaluated`),
dominance is a strict order, so comparing each pair once counts every
dominator exactly once.  Taking out any part of a front keeps the counts
exact (`Peeled.next`), and since a strict order on a finite set has a member
with no dominator, the front is never empty while members remain
(`Peeled.front_ne_nil`).  `select_peels_fronts` assembles these: exact counts
at every round, a front taken by each, at most as many rounds as members
wanted, and a fault once more are asked for than there are; when the whole
numbers among the scores are within half the doubles' range the fault is the
index fault of crowding an empty front.  Beyond that range it need not be: a
whole number too large for a double beside a double fails crowding the first
front (`select_short_overflows`).
-/

namespace Evolver

open Numeric

/-- A whole number beyond the doubles' range meeting a double in plain
arithmetic fails: it has no double to become. -/
theorem Value.arith_int_float_beyond (op : Arith) {n : Int} (hn : floatLimit ≤ n.natAbs) (x : Float) :
    Value.arith op (.int n) (.float x) = .error ⟨.outOfRange, "int too large to convert to float"⟩ := by
  cases op <;> simp [Value.arith, Value.isNumeric, Value.toCell?, plainArith, Cell.toInt?, Cell.toFloat?,
    Cell.beyondDouble, hn] <;> rfl

theorem Run.ofExcept_error_run {α : Type} (e : Fault) (s : Store) :
    (Run.ofExcept (.error e : Except Fault α)).run s = .error e s := rfl

/-- A loop whose every step that answers keeps a property of the value it
carries keeps it to the end. -/
theorem Run.forIn_keeps {α β : Type} (P : β → Prop) {body : α → β → Run (ForInStep β)}
    (hbody : ∀ a b {t t' : Store} (r : ForInStep β), P b → (body a b).run t = .ok r t' → P r.value) :
    ∀ (l : List α) (b : β) {t t' : Store} {r : β}, P b → (forIn l b body).run t = .ok r t' → P r
  | [], b, t, t', r, hb, h => by
    rw [List.forIn_nil] at h
    obtain ⟨rfl, -⟩ := Run.pure_run_ok.1 h
    exact hb
  | a :: l, b, t, t', r, hb, h => by
    rw [List.forIn_cons, Run.bind_run_ok] at h
    obtain ⟨step, t₁, hstep, h⟩ := h
    have hP := hbody a b step hb hstep
    cases step with
    | done b' =>
      obtain ⟨rfl, -⟩ := Run.pure_run_ok.1 h
      exact hP
    | yield b' => exact Run.forIn_keeps P hbody l b' hP h

namespace Pareto

/-! ### What a round takes -/

section Taken

/-- Reading a key for each identity keeps the identities, in order. -/
theorem mapM_keyed_fst {key : Nat → Run Value} :
    ∀ (ids : List Nat) {t t' : Store} {keyed : List (Nat × Value)},
      (ids.mapM fun i => do pure (i, ← key i)).run t = .ok keyed t' → keyed.map (·.1) = ids
  | [], t, t', keyed, h => by
    obtain ⟨rfl, -⟩ := Run.pure_run_ok.1 h
    rfl
  | i :: ids, t, t', keyed, h => by
    rw [List.mapM_cons, Run.bind_run_ok] at h
    obtain ⟨p, t₁, hp, h⟩ := h
    rw [Run.bind_run_ok] at h
    obtain ⟨rest, t₂, hrest, h⟩ := h
    obtain ⟨rfl, -⟩ := Run.pure_run_ok.1 h
    rw [Run.bind_run_ok] at hp
    obtain ⟨v, t₃, -, hp⟩ := hp
    obtain ⟨rfl, -⟩ := Run.pure_run_ok.1 hp
    rw [List.map_cons, mapM_keyed_fst ids hrest]

variable {t t' : Store}

/-- Sorting identities by a key keeps them, whatever the keys. -/
theorem sortByKey_perm_of_ok {ids sorted : List Nat} {key : Nat → Run Value} {desc : Bool}
    (h : (sortByKey ids key desc).run t = .ok sorted t') : sorted.Perm ids := by
  rw [sortByKey, Run.bind_run_ok] at h
  obtain ⟨keyed, t₁, hkeyed, h⟩ := h
  rw [Run.ofExcept_bind_run_ok] at h
  obtain ⟨ys, hys, h⟩ := h
  obtain ⟨rfl, -⟩ := Run.pure_run_ok.1 h
  have hperm : ys.Perm keyed := by
    cases desc
    · rw [if_neg Bool.false_ne_true] at hys
      exact sortBy_perm_of_ok hys
    · rw [if_pos rfl] at hys
      exact sortDesc_perm_of_ok hys
  simpa [mapM_keyed_fst ids hkeyed] using hperm.map (·.1)

/-- One objective's pass over a front gives the front back reordered. -/
theorem crowdPass_perm_of_ok {k : Nat} {front sorted : List Nat}
    (h : (crowdPass k front).run t = .ok sorted t') : sorted.Perm front := by
  rw [crowdPass, Run.bind_run_ok] at h
  obtain ⟨sorted₀, t₁, hsort, h⟩ := h
  -- past the sort, the pass either fails or gives the sorted front back
  obtain rfl : sorted = sorted₀ := by
    split at h
    · split at h
      · rw [Run.bind_run_ok] at h
        obtain ⟨-, t₂, -, h⟩ := h
        rw [Run.bind_run_ok] at h
        obtain ⟨-, t₃, -, h⟩ := h
        rw [Run.bind_run_ok] at h
        obtain ⟨-, t₄, -, h⟩ := h
        exact (Run.pure_run_ok.1 h).1.symm
      · cases h
    · cases h
  exact sortByKey_perm_of_ok hsort

/-- Crowding an empty front fails with the index fault of its first member. -/
theorem crowd_nil_run (t : Store) : (crowd []).run t = .error Fault.listIndex t := rfl

/-- Crowding gives the front back reordered. -/
theorem crowd_perm_of_ok {front sorted : List Nat} (h : (crowd front).run t = .ok sorted t') :
    sorted.Perm front := by
  unfold crowd at h
  rw [Run.bind_run_ok] at h
  obtain ⟨-, t₁, -, h⟩ := h
  split at h
  · rw [Run.bind_run_ok] at h
    obtain ⟨v, t₂, -, h⟩ := h
    rw [Run.ofExcept_bind_run_ok] at h
    obtain ⟨width, -, h⟩ := h
    rw [Run.bind_run_ok] at h
    obtain ⟨L, t₃, hloop, h⟩ := h
    obtain ⟨rfl, -⟩ := Run.pure_run_ok.1 h
    -- each objective's pass reorders what the one before gave
    refine Run.forIn_keeps (·.Perm front) ?_ _ front (List.Perm.refl front) hloop
    intro k L' t t' r hL' hr
    rw [Run.bind_run_ok] at hr
    obtain ⟨L'', t'', hpass, hr⟩ := hr
    obtain ⟨rfl, -⟩ := Run.pure_run_ok.1 hr
    exact (crowdPass_perm_of_ok hpass).trans hL'
  · cases h

/-- **A round takes part of the front**: what a round that answers takes is a
reordered part of the front, and not empty while fewer than `size` were
chosen. -/
theorem takeFront_taken {size : Int} {d : Dominance} {source chosen : List Nat} {rank : Nat}
    {F : List Nat} (h : (takeFront size d source chosen rank).run t = .ok F t') :
    F.Subperm (d.front source) ∧ ((chosen.length : Int) < size → F ≠ []) := by
  unfold takeFront at h
  rw [Run.bind_run_ok] at h
  obtain ⟨L, t₁, hcrowd, h⟩ := h
  have hL := crowd_perm_of_ok hcrowd
  -- crowding answered, so the front was not empty
  have hne : L ≠ [] := by
    intro hnil
    rw [hnil] at hL
    rw [← hL.nil_eq, crowd_nil_run] at hcrowd
    cases hcrowd
  rw [Run.bind_run_ok] at h
  obtain ⟨-, t₂, -, h⟩ := h
  split at h
  · rw [Run.bind_run_ok] at h
    obtain ⟨sorted, t₃, hsort, h⟩ := h
    obtain ⟨rfl, -⟩ := Run.pure_run_ok.1 h
    have hs := sortByKey_perm_of_ok hsort
    refine ⟨((List.take_sublist _ _).subperm.trans hs.subperm).trans hL.subperm, fun hlt hnil => ?_⟩
    -- at least one more is wanted, and the sorted front has a member
    rcases List.take_eq_nil_iff.1 hnil with h0 | hsnil
    · omega
    · rw [hsnil] at hs
      exact hne hs.nil_eq.symm
  · obtain ⟨rfl, -⟩ := Run.pure_run_ok.1 h
    exact ⟨hL.subperm, fun _ => hne⟩

end Taken

/-! ### Rounds -/

/-- The choice between two rounds: the counts of dominators, the members still
to choose from, those chosen, the rank of the next front and the store. -/
structure Choice where
  counts : Dominance
  source : List Nat
  chosen : List Nat
  rank : Nat
  store : Store

namespace Choice

/-- The choice before the first round: counts `d`, every member of `S` still
to choose from, none chosen and rank one, in the store `s`. -/
def start (d : Dominance) (S : List Nat) (s : Store) : Choice := ⟨d, S, [], 1, s⟩

/-- The choice after a round that took `F` and left the store `t`. -/
def after (c : Choice) (F : List Nat) (t : Store) : Choice :=
  ⟨c.counts.remove F, c.source.filter fun i => !F.contains i, c.chosen ++ F, c.rank + 1, t⟩

/-- A round towards `size` members that answers, taken while fewer are
chosen. -/
inductive Next (size : Int) : Choice → Choice → Prop
  | round {c : Choice} {F : List Nat} {t : Store} : (c.chosen.length : Int) < size →
      (takeFront size c.counts c.source c.chosen c.rank).run c.store = .ok F t → Next size c (c.after F t)

/-- A round moves on past a part of the front that is not empty. -/
theorem Next.takes {size : Int} {c c' : Choice} (hn : Next size c c') :
    ∃ F t, c' = c.after F t ∧ F ≠ [] ∧ F.Subperm (c.counts.front c.source) := by
  cases hn with
  | @round F t hlt hrun => exact ⟨F, t, rfl, (takeFront_taken hrun).2 hlt, (takeFront_taken hrun).1⟩

end Choice

/-- **The choice ends by its own test or by a round that fails**: with more
fuel than members still wanted, the loop ends at a choice the rounds reach,
with the members chosen once `size` are chosen, or with the fault of the
round that fails there.  Every round that answers takes a member, so the fuel
never runs out first. -/
theorem chooseFrom_ends (size : Int) :
    ∀ (fuel : Nat) (c : Choice), (size - c.chosen.length).toNat < fuel →
      ∃ c', Relation.ReflTransGen (Choice.Next size) c c' ∧
        ((¬ (c'.chosen.length : Int) < size ∧
            (chooseFrom size fuel c.counts c.source c.chosen c.rank).run c.store = .ok c'.chosen c'.store) ∨
          ((c'.chosen.length : Int) < size ∧ ∃ e t,
            (takeFront size c'.counts c'.source c'.chosen c'.rank).run c'.store = .error e t ∧
            (chooseFrom size fuel c.counts c.source c.chosen c.rank).run c.store = .error e t))
  | 0, _, hfuel => absurd hfuel (Nat.not_lt_zero _)
  | fuel + 1, c, hfuel => by
    by_cases hlt : (c.chosen.length : Int) < size
    · cases hround : (takeFront size c.counts c.source c.chosen c.rank).run c.store with
      | error e t =>
        refine ⟨c, .refl, .inr ⟨hlt, e, t, hround, ?_⟩⟩
        simp only [chooseFrom, if_pos hlt, EStateM.run_bind, hround]
      | ok F t =>
        -- the round took at least one member, so fewer are still wanted
        have hlen : 0 < F.length := List.length_pos_of_ne_nil ((takeFront_taken hround).2 hlt)
        have hless : (size - (c.after F t).chosen.length).toNat < fuel := by
          simp only [Choice.after, List.length_append]
          omega
        obtain ⟨c', hreach, hend⟩ := chooseFrom_ends size fuel (c.after F t) hless
        have hrun : (chooseFrom size (fuel + 1) c.counts c.source c.chosen c.rank).run c.store =
            (chooseFrom size fuel (c.after F t).counts (c.after F t).source (c.after F t).chosen
              (c.after F t).rank).run (c.after F t).store := by
          simp only [chooseFrom, if_pos hlt, EStateM.run_bind, hround]
          rfl
        rw [hrun]
        exact ⟨c', .head (.round hlt hround) hreach, hend⟩
    · refine ⟨c, .refl, .inl ⟨hlt, ?_⟩⟩
      simp only [chooseFrom, if_neg hlt]
      rfl

/-! ### Exact counts -/

/-- A part `F` of a list without repeats, followed by what is left of the
list, is the list reordered. -/
theorem perm_append_filter_not {F L : List Nat} (hF : F.Nodup) (hL : L.Nodup) (hsub : ∀ x ∈ F, x ∈ L) :
    (F ++ L.filter fun i => !F.contains i).Perm L := by
  have hin : (L.filter fun i => F.contains i).Perm F :=
    (List.perm_ext_iff_of_nodup (hL.filter _) hF).2 fun x => by
      simp only [List.mem_filter, List.contains_iff_mem]
      exact ⟨fun h => h.2, fun h => ⟨hsub x h, h⟩⟩
  exact (hin.symm.append_right _).trans (List.filter_append_perm _ L)

/-- The choice `c` over the members `S` of `s` at the start of a round: the
chosen and the members still to choose are `S` between them, each member still
to choose counts exactly the members still to choose that dominate it, each
member of `S` lists every member of `S` it dominates, and every round so far
took a member. -/
structure Peeled (s : Store) (S : List Nat) (c : Choice) : Prop where
  perm : (c.chosen ++ c.source).Perm S
  cnt : ∀ y ∈ c.source, c.counts.cnt y = ((c.source.filter (dominatesAt s · y)).length : Int)
  bts : ∀ a ∈ S, c.counts.bts a = S.filter (dominatesAt s a ·)
  rank : c.rank ≤ c.chosen.length + 1

namespace Peeled

variable {s : Store} {S : List Nat} {c c' : Choice}

/-- Before the first round the counts are those of `Dominance.of`. -/
theorem start {d : Dominance} (hcnt : ∀ x ∈ S, d.cnt x = ((S.filter (dominatesAt s · x)).length : Int))
    (hbts : ∀ y ∈ S, d.bts y = S.filter (dominatesAt s y ·)) : Peeled s S (Choice.start d S s) :=
  ⟨by simp [Choice.start], hcnt, hbts, le_refl _⟩

theorem mem_of_mem_source (hP : Peeled s S c) {x : Nat} (hx : x ∈ c.source) : x ∈ S :=
  hP.perm.subset (List.mem_append_right _ hx)

theorem source_nodup (hP : Peeled s S c) (hS : S.Nodup) : c.source.Nodup :=
  (hP.perm.nodup_iff.2 hS).of_append_right

theorem chosen_length_le (hP : Peeled s S c) : c.chosen.length ≤ S.length := by
  have := hP.perm.length_eq
  rw [List.length_append] at this
  omega

/-- **A round keeps the counts exact**: whichever part of the front it takes,
each member left counts exactly the members left that dominate it. -/
theorem next (hS : S.Nodup) (hP : Peeled s S c) {size : Int} (hn : Choice.Next size c c') :
    Peeled s S c' := by
  cases hn with
  | @round F t hlt hrun =>
    obtain ⟨hsub, hne⟩ := takeFront_taken hrun
    have hsrc := hP.source_nodup hS
    have hfront : ∀ x ∈ F, x ∈ c.source := fun x hx => (List.mem_filter.1 (List.Subperm.subset hsub hx)).1
    have hFnd : F.Nodup := by
      obtain ⟨l, hl, hsl⟩ := hsub
      exact hl.nodup_iff.1 ((hsrc.filter _).sublist hsl)
    have hsplit := perm_append_filter_not hFnd hsrc hfront
    refine ⟨?_, fun y hy => ?_, fun a ha => ?_, ?_⟩
    · show ((c.chosen ++ F) ++ c.source.filter fun i => !F.contains i).Perm S
      rw [List.append_assoc]
      exact (hsplit.append_left c.chosen).trans hP.perm
    · -- the dominators of `y` in the front leave its count with the front
      have hyS : y ∈ c.source := (List.mem_filter.1 hy).1
      have hlen : (c.source.filter (dominatesAt s · y)).length = (F.filter (dominatesAt s · y)).length +
          ((c.source.filter fun i => !F.contains i).filter (dominatesAt s · y)).length := by
        rw [← (hsplit.filter _).length_eq, List.filter_append, List.length_append]
      show (c.counts.remove F).cnt y =
        (((c.source.filter fun i => !F.contains i).filter (dominatesAt s · y)).length : Int)
      rw [cnt_remove_front (fun a ha => hP.bts a (hP.mem_of_mem_source (hfront a ha))) hS
        (hP.mem_of_mem_source hyS), hP.cnt y hyS, hlen]
      push_cast
      omega
    · show (c.counts.remove F).bts a = _
      simp only [Dominance.bts, (Dominance.remove_spec F c.counts).1]
      exact hP.bts a ha
    · show c.rank + 1 ≤ (c.chosen ++ F).length + 1
      have := hP.rank
      have := List.length_pos_of_ne_nil (hne hlt)
      rw [List.length_append]
      omega

/-- The counts stay exact over every run of rounds. -/
theorem reach (hS : S.Nodup) (hP : Peeled s S c) {size : Int}
    (h : Relation.ReflTransGen (Choice.Next size) c c') : Peeled s S c' := by
  induction h with
  | refl => exact hP
  | tail _ hn ih => exact ih.next hS hn

/-- **While members remain the front is not empty**: under a strict order
the members left at the first level have no dominator left. -/
theorem front_ne_nil (hstrict : StrictOn (dominatesAt s) S) (hP : Peeled s S c) (hne : c.source ≠ []) :
    c.counts.front c.source ≠ [] := by
  have hon : StrictOn (dominatesAt s) c.source :=
    ⟨fun a ha => hstrict.irrefl a (hP.mem_of_mem_source ha), fun a ha b hb e he =>
      hstrict.trans a (hP.mem_of_mem_source ha) b (hP.mem_of_mem_source hb) e (hP.mem_of_mem_source he)⟩
  -- a member at the first level among those left has no dominator left: one would sit below it
  obtain ⟨y, hy⟩ := List.exists_mem_of_ne_nil _ hne
  obtain ⟨z, hz, hz1⟩ := exists_depth_eq hon hy le_rfl (depth_pos y)
  have hnone : c.source.filter (dominatesAt s · z) = [] := List.filter_eq_nil_iff.2 fun x hx hxz => by
    have hlt := depth_lt_of_dom hon hz hx hxz
    have hpos : 1 ≤ depth (dominatesAt s) c.source x := depth_pos x
    omega
  have hzf : z ∈ c.counts.front c.source := by
    rw [Dominance.front_eq, List.mem_filter, hP.cnt z hz, hnone]
    exact ⟨hz, rfl⟩
  exact List.ne_nil_of_mem hzf

/-- Each round starts with fewer than `size` chosen and takes a member, so
the rank of the next front, one more than the rounds taken, is at most one
more than `size` and than the population. -/
theorem rank_le_of_next (hS : S.Nodup) (hP : Peeled s S c) {size : Int} (hn : Choice.Next size c c') :
    c'.rank ≤ min size.toNat S.length + 1 := by
  have hlen := (hP.next hS hn).chosen_length_le
  have hrank := (hP.next hS hn).rank
  cases hn with
  | @round F t hlt hrun =>
    have := hP.rank
    simp only [Choice.after, List.length_append] at hlen hrank ⊢
    omega

end Peeled

/-! ### Asking for more than there are -/

section Short

variable {flags : List Bool} {score : Nat → List Value} {s t : Store} {S : List Nat} {c c' : Choice}

/-- A round on an empty front fails with the index fault of crowding it. -/
theorem takeFront_nil_run {size : Int} {d : Dominance} {source chosen : List Nat} {rank : Nat}
    (h : d.front source = []) : (takeFront size d source chosen rank).run t = .error Fault.listIndex t := by
  simp only [takeFront, EStateM.run_bind, h, crowd_nil_run]

/-- **A round with room for its whole front** crowds and ranks it on a
population, and keeps every individual. -/
theorem takeFront_run_whole (hS : Population flags score t S) {size : Int} {d : Dominance}
    {source chosen : List Nat} {rank : Nat} (hsub : ∀ id ∈ d.front source, id ∈ S)
    (hne : d.front source ≠ []) (hroom : (((d.front source).length + chosen.length : Nat) : Int) ≤ size) :
    ∃ F t', (takeFront size d source chosen rank).run t = .ok F t' ∧ ∀ id, t'.baseAt id = t.baseAt id := by
  obtain ⟨L, t₁, hcrowd, hL, hC, -⟩ := crowd_run hS hsub hne
  obtain ⟨t₂, hranks, hb₂, -⟩ := forIn_setRank_run (.int rank) L t₁ fun id hid =>
    (hS.of_baseAt hC.base).keeps (hsub id (hL.subset hid))
  have hcut : ¬ ((L.length + chosen.length : Nat) : Int) > size := by
    rw [hL.length_eq]
    omega
  refine ⟨L, t₂, ?_, fun id => (hb₂ id).trans (hC.base id)⟩
  simp only [takeFront, EStateM.run_bind, hcrowd, hranks, if_neg hcut, EStateM.run_pure]

/-- The front is part of the members still to choose. -/
theorem Peeled.front_sub (hP : Peeled s S c) : ∀ id ∈ c.counts.front c.source, id ∈ S :=
  fun _ hid => hP.mem_of_mem_source (List.mem_filter.1 hid).1

/-- While fewer than `size` can be chosen, every front fits whole. -/
theorem Peeled.front_fits (hP : Peeled s S c) {size : Int} (hmore : (S.length : Int) < size) :
    (((c.counts.front c.source).length + c.chosen.length : Nat) : Int) ≤ size := by
  have hsum := hP.perm.length_eq
  have hfront := List.length_filter_le (fun i => c.counts.cnt i == 0) c.source
  rw [List.length_append] at hsum
  rw [Dominance.front_eq]
  omega

/-- With more wanted than the population holds, no round cuts its front,
so the rounds keep every individual. -/
theorem Peeled.base_of_next (hS : Population flags score s S) {size : Int} (hmore : (S.length : Int) < size)
    (hP : Peeled s S c) (hbase : ∀ id, c.store.baseAt id = s.baseAt id) (hn : Choice.Next size c c') :
    ∀ id, c'.store.baseAt id = s.baseAt id := by
  cases hn with
  | @round F t hlt hrun =>
    by_cases hne : c.counts.front c.source = []
    · rw [takeFront_nil_run hne] at hrun
      cases hrun
    · obtain ⟨F', t', hrun', hb⟩ :=
        takeFront_run_whole (hS.of_baseAt hbase) hP.front_sub hne (hP.front_fits hmore)
      rw [hrun'] at hrun
      cases hrun
      exact fun id => (hb id).trans (hbase id)

/-- **Asking a population for more than it holds ends on an empty front**:
a round that fails there fails with the index fault, since every round on a
front that is not empty answers. -/
theorem Peeled.fault_of_short (hS : Population flags score s S) {size : Int} (hmore : (S.length : Int) < size)
    (hP : Peeled s S c) (hbase : ∀ id, c.store.baseAt id = s.baseAt id) {e : Fault}
    (herr : (takeFront size c.counts c.source c.chosen c.rank).run c.store = .error e t) : e = Fault.listIndex := by
  by_cases hne : c.counts.front c.source = []
  · rw [takeFront_nil_run hne] at herr
    cases herr
    rfl
  · obtain ⟨F, t', hrun, -⟩ :=
      takeFront_run_whole (hS.of_baseAt hbase) hP.front_sub hne (hP.front_fits hmore)
    rw [hrun] at herr
    cases herr

/-- The store keeps every individual over every run of rounds that never
cut a front. -/
theorem base_of_reach (hS : Population flags score s S) {size : Int} (hmore : (S.length : Int) < size)
    {c₀ : Choice} (hstart : Peeled s S c₀) (hbase : ∀ id, c₀.store.baseAt id = s.baseAt id)
    (h : Relation.ReflTransGen (Choice.Next size) c₀ c) : ∀ id, c.store.baseAt id = s.baseAt id := by
  induction h with
  | refl => exact hbase
  | tail hab hbc ih => exact (hstart.reach hS.nodup hab).base_of_next hS hmore ih hbc

end Short

/-! ### Selection -/

section Selection

variable {flags : List Bool} {score : Nat → List Value} {s : Store} {S : List Nat}

/-- Selection counts the dominators once and runs the loop from the first
choice, with one more round of fuel than members wanted. -/
theorem select_run_eq {d : Dominance} (hd : (Dominance.of S).run s = .ok d s) (size : Option Int) :
    (select S size).run s = (chooseFrom (survivorCount S size) ((survivorCount S size).toNat + 1) d S [] 1).run s := by
  simp only [select, EStateM.run_bind, hd]

/-- **Peeling fronts keeps exact counts and ends.**  On distinct individuals
whose objectives are numbers other than NaN, comparing each pair once gives
counts that, at the start of every round, are the number of members still to
choose that dominate each one; while members remain the front is not empty,
and a round takes out a part of it that is not empty; the rank of the next
front, one more than the rounds taken, is at most one more than the size
wanted and than the population.  The selection ends at a
choice the rounds reach, with the members chosen or with the fault of the
round there.  Asked for more than the population holds it fails, and when
the whole numbers among the scores are within half the doubles' range it
fails with the index fault of crowding an empty front. -/
theorem select_peels_fronts (hS : Evaluated flags score s S) (size : Option Int) :
    ∃ d, (Dominance.of S).run s = .ok d s ∧
      (∀ c, Relation.ReflTransGen (Choice.Next (survivorCount S size)) (Choice.start d S s) c →
        (∀ y ∈ c.source, c.counts.cnt y = ((c.source.filter (dominatesAt s · y)).length : Int)) ∧
        (c.source ≠ [] → c.counts.front c.source ≠ []) ∧
        (∀ c', Choice.Next (survivorCount S size) c c' →
          ∃ F t, c' = c.after F t ∧ F ≠ [] ∧ F.Subperm (c.counts.front c.source)) ∧
        c.rank ≤ min (survivorCount S size).toNat S.length + 1) ∧
      (∃ c, Relation.ReflTransGen (Choice.Next (survivorCount S size)) (Choice.start d S s) c ∧
        ((¬ (c.chosen.length : Int) < survivorCount S size ∧ (select S size).run s = .ok c.chosen c.store) ∨
          ((c.chosen.length : Int) < survivorCount S size ∧ ∃ e t,
            (takeFront (survivorCount S size) c.counts c.source c.chosen c.rank).run c.store = .error e t ∧
            (select S size).run s = .error e t))) ∧
      ((S.length : Int) < survivorCount S size → ∃ e t, (select S size).run s = .error e t ∧
        (Population flags score s S → e = Fault.listIndex)) := by
  obtain ⟨d, hd, hcnt, hbts⟩ := Dominance.of_run hS
  have hstart : Peeled s S (Choice.start d S s) := Peeled.start hcnt hbts
  have hloop : (select S size).run s = (chooseFrom (survivorCount S size) ((survivorCount S size).toNat + 1)
      (Choice.start d S s).counts (Choice.start d S s).source (Choice.start d S s).chosen
      (Choice.start d S s).rank).run (Choice.start d S s).store := select_run_eq hd size
  obtain ⟨c, hreach, hend⟩ := chooseFrom_ends (survivorCount S size) ((survivorCount S size).toNat + 1)
    (Choice.start d S s) (by simp [Choice.start])
  rw [← hloop] at hend
  refine ⟨d, hd, fun c' h' => ⟨(hstart.reach hS.nodup h').cnt,
    (hstart.reach hS.nodup h').front_ne_nil hS.strictOn, fun _ hn => hn.takes, ?_⟩, ⟨c, hreach, hend⟩,
    fun hmore => ?_⟩
  · -- the rank grows only by rounds
    rcases h'.cases_tail with rfl | ⟨b, hb, hn⟩
    · simp [Choice.start]
    · exact (hstart.reach hS.nodup hb).rank_le_of_next hS.nodup hn
  · -- even with every member chosen fewer are chosen than wanted, so the run ends on a failed round
    have hP := hstart.reach hS.nodup hreach
    rcases hend with ⟨hge, -⟩ | ⟨-, e, t, herr, hsel⟩
    · have := hP.chosen_length_le
      omega
    · exact ⟨e, t, hsel, fun hpop =>
        hP.fault_of_short hpop hmore (base_of_reach hpop hmore hstart (fun _ => rfl) hreach) herr⟩

/-- Three scored individuals asked for four: the selection fails on an empty
front. -/
theorem select_peels_fronts_short_sample :
    ∃ t, (select [0, 1, 2] (some 4)).run sampleStore = .error Fault.listIndex t := by
  obtain ⟨-, -, -, -, hshort⟩ := select_peels_fronts sampleStore_population.evaluated (some 4)
  obtain ⟨e, t, hrun, he⟩ := hshort (by decide)
  rw [he sampleStore_population] at hrun
  exact ⟨t, hrun⟩

/-! ### A whole number beyond the doubles -/

/-- An individual with a ranked, evaluated fitness minimizing the numbers
`xs`. -/
def minimizer (id : Nat) (xs : List Value) : Individual :=
  { (default : Individual) with
    id := id
    fitness := { (default : Fitness) with
      measure := .ranked, score := .list xs, evaluated := true,
      higherIsBetter := .list (xs.map fun _ => .bool false) } }

theorem minimizer_objectives (id : Nat) {xs : List Value} (hxs : ∀ x ∈ xs, x.exactValue?.isSome) :
    (minimizer id xs).unstamped.fitness.Objectives (xs.map fun _ => false) xs where
  ranked := rfl
  evaluated := rfl
  items_score := rfl
  items_flags := by simp [minimizer, Individual.unstamped, Fitness.items]
  length := by simp
  numbers := hxs

/-- Three scores on two objectives, none dominating another; the first
objective sets a whole number beyond the doubles' range beside a double. -/
def wideScores (id : Nat) : List Value :=
  [[.int (10 ^ 400), .int 0], [.int 1, .int 1], [.float 0.0, .int 2]].getD id []

/-- The three individuals of `wideScores`. -/
def wideStore : Store :=
  ⟨Lab.start, ((({} : Std.HashMap Nat Individual).insert 0 (minimizer 0 (wideScores 0))).insert 1
    (minimizer 1 (wideScores 1))).insert 2 (minimizer 2 (wideScores 2)), []⟩

theorem wideStore_get {id : Nat} (hid : id ∈ [0, 1, 2]) :
    wideStore.individuals[id]? = some (minimizer id (wideScores id)) := by
  simp only [List.mem_cons, List.not_mem_nil, or_false] at hid
  rcases hid with rfl | rfl | rfl <;>
    simp only [wideStore, Std.HashMap.getElem?_insert, Nat.reduceBEq, Bool.false_eq_true, if_false, if_true]

theorem wideStore_keeps {id : Nat} (hid : id ∈ [0, 1, 2]) : wideStore.Keeps id :=
  ⟨_, by rw [Store.baseAt, wideStore_get hid]; rfl, rfl⟩

theorem wideStore_evaluated : Evaluated [false, false] wideScores wideStore [0, 1, 2] := by
  have hflags : ∀ id ∈ [0, 1, 2], (wideScores id).map (fun _ => false) = [false, false] := by decide +kernel
  have hnum : ∀ id ∈ [0, 1, 2], ∀ x ∈ wideScores id, x.exactValue?.isSome := by decide +kernel
  refine ⟨by decide, fun id hid => ⟨_, by rw [Store.baseAt, wideStore_get hid]; rfl, ?_⟩⟩
  rw [← hflags id hid]
  exact minimizer_objectives id (hnum id hid)

theorem wide_limit : floatLimit ≤ ((10 : Int) ^ 400).natAbs := by decide +kernel

/-- The first objective's pass sorts the three as `2, 1, 0` and fails on the
gap of the middle one: the whole number minus the double. -/
theorem crowdPass_wide_run {t : Store} (hE : Evaluated [false, false] wideScores t [0, 1, 2])
    (hK : ∀ id ∈ [0, 1, 2], t.Keeps id) :
    (crowdPass 0 [0, 1, 2]).run t = .error ⟨.outOfRange, "int too large to convert to float"⟩
      ((t.withCrowding 2 Fitness.unranked).withCrowding 0 Fitness.unranked) := by
  have hkey : ∀ id ∈ [0, 1, 2], (objective 0 id).run t = .ok ((wideScores id).getD 0 .none) t := by
    intro id hid
    have hlen : 0 < (wideScores id).length := by
      simp only [List.mem_cons, List.not_mem_nil, or_false] at hid
      rcases hid with rfl | rfl | rfl <;> decide
    rw [List.getD_eq_getElem?_getD, List.getElem?_eq_getElem hlen, Option.getD_some]
    exact hE.objective_run hid hlen
  -- the keys compare, the whole number beyond the doubles included
  obtain ⟨keyed, hsort, hids⟩ : ∃ keyed, sortBy keyLt ([0, 1, 2].map fun i => (i, (wideScores i).getD 0 .none)) =
      .ok keyed ∧ keyed.map (·.1) = [2, 1, 0] := by
    have h : (sortBy keyLt ([0, 1, 2].map fun i => (i, (wideScores i).getD 0 .none))).toOption.map
        (·.map (·.1)) = some [2, 1, 0] := by decide +kernel
    cases hs : sortBy keyLt ([0, 1, 2].map fun i => (i, (wideScores i).getD 0 .none)) with
    | error e =>
      rw [hs] at h
      cases h
    | ok ys =>
      rw [hs] at h
      exact ⟨ys, rfl, Option.some.inj h⟩
  have hrun : (sortByKey [0, 1, 2] (objective 0) false).run t = .ok [2, 1, 0] t := by
    rw [← hids]
    exact sortByKey_run hkey (by simpa using hsort)
  -- both ends get an infinite distance, which leaves the objectives as they were
  have hK₀ : (t.withCrowding 2 Fitness.unranked).Keeps 0 := Store.keeps_withCrowding.2 (hK 0 (by simp))
  have hE' : Evaluated [false, false] wideScores
      ((t.withCrowding 2 Fitness.unranked).withCrowding 0 Fitness.unranked) [0, 1, 2] :=
    hE.of_baseAt fun id => by simp only [Store.baseAt_withCrowding]
  have hbig : (objective 0 0).run ((t.withCrowding 2 Fitness.unranked).withCrowding 0 Fitness.unranked) =
      .ok (.int (10 ^ 400)) ((t.withCrowding 2 Fitness.unranked).withCrowding 0 Fitness.unranked) :=
    hE'.objective_run (by simp) (by decide)
  have hzero : (objective 0 2).run ((t.withCrowding 2 Fitness.unranked).withCrowding 0 Fitness.unranked) =
      .ok (.float 0.0) ((t.withCrowding 2 Fitness.unranked).withCrowding 0 Fitness.unranked) :=
    hE'.objective_run (by simp) (by decide)
  have hlast : [2, 1, 0].getLast? = some 0 := rfl
  simp only [crowdPass, EStateM.run_bind, hrun, List.head?_cons, hlast, setCrowding_run (hK 2 (by simp)),
    setCrowding_run hK₀, inner, List.forIn_cons, addGap, hbig, hzero,
    Value.arith_int_float_beyond .sub wide_limit, Run.ofExcept_error_run]

/-- Crowding the three fails in the first objective's pass. -/
theorem crowd_wide_run :
    ∃ t, (crowd [0, 1, 2]).run wideStore = .error ⟨.outOfRange, "int too large to convert to float"⟩ t := by
  obtain ⟨t₁, hreset, hb₁, -, -⟩ :=
    forIn_setCrowding_run (.int 0) [0, 1, 2] wideStore fun id hid => wideStore_keeps hid
  have hE₁ := wideStore_evaluated.of_baseAt hb₁
  have hK₁ : ∀ id ∈ [0, 1, 2], t₁.Keeps id := fun id hid => by
    obtain ⟨i, hi, hii⟩ := wideStore_keeps hid
    exact ⟨i, (hb₁ id).trans hi, hii⟩
  obtain ⟨v, hv, hitems⟩ := hE₁.objectives_run (show 0 ∈ [0, 1, 2] by simp)
  have hwidth : (wideScores 0).length = 2 := rfl
  refine ⟨(t₁.withCrowding 2 Fitness.unranked).withCrowding 0 Fitness.unranked, ?_⟩
  simp only [crowd, EStateM.run_bind, hreset, List.head?_cons, hv, Fitness.size?_of_items hitems, hwidth,
    Run.ofExcept_ok_run]
  simp only [List.range_succ, List.range_zero, List.nil_append, List.singleton_append, List.forIn_cons,
    EStateM.run_bind, crowdPass_wide_run hE₁ hK₁]

/-- None of the three dominates another, so all three make the first front. -/
theorem wideStore_front {d : Dominance}
    (hcnt : ∀ x ∈ [0, 1, 2], d.cnt x = (([0, 1, 2].filter (dominatesAt wideStore · x)).length : Int)) :
    d.front [0, 1, 2] = [0, 1, 2] := by
  have hdec : ∀ a ∈ [0, 1, 2], ∀ b ∈ [0, 1, 2],
      decide (Dominates [false, false] ((wideScores a).map Value.exact) ((wideScores b).map Value.exact)) = false := by
    decide +kernel
  rw [Dominance.front_eq, List.filter_eq_self]
  intro x hx
  rw [hcnt x hx, List.filter_eq_nil_iff.2 fun a ha => by
    rw [wideStore_evaluated.dominatesAt_eq ha hx, hdec a ha x hx]
    exact Bool.false_ne_true]
  rfl

/-- **Asked for more than there are, the selection need not fail on an empty
front**: three individuals dominance compares, asked for four, fail while
crowding their first front, on a whole number beyond the doubles' range
meeting a double, and never with the index fault. -/
theorem select_short_overflows :
    Evaluated [false, false] wideScores wideStore [0, 1, 2] ∧
      (([0, 1, 2] : List Nat).length : Int) < survivorCount [0, 1, 2] (some 4) ∧
      ∃ t, (select [0, 1, 2] (some 4)).run wideStore = .error ⟨.outOfRange, "int too large to convert to float"⟩ t ∧
        ∀ t', (select [0, 1, 2] (some 4)).run wideStore ≠ .error Fault.listIndex t' := by
  obtain ⟨d, hd, hcnt, -⟩ := Dominance.of_run wideStore_evaluated
  obtain ⟨t, hcrowd⟩ := crowd_wide_run
  have hsize : survivorCount [0, 1, 2] (some 4) = 4 := rfl
  have hrun : (select [0, 1, 2] (some 4)).run wideStore =
      .error ⟨.outOfRange, "int too large to convert to float"⟩ t := by
    rw [select_run_eq hd, hsize]
    simp only [chooseFrom, List.length_nil, Nat.cast_zero, show (0 : Int) < 4 by decide, if_true,
      takeFront, EStateM.run_bind, wideStore_front hcnt, hcrowd]
  refine ⟨wideStore_evaluated, by decide, t, hrun, fun t' h => ?_⟩
  rw [hrun] at h
  injection h with he
  injection he with hkind
  cases hkind

end Selection

end Pareto

end Evolver
