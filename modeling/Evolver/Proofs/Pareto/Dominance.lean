import Evolver.Proofs.Pareto.Stamps
import Evolver.Proofs.Pareto.Depth
/-!
# Counting dominators

`Dominance.of` compares every two individuals once and records who
dominates whom; `Dominance.remove` takes a front out of the counts.  Seen
through two views, the count of an identity (`Dominance.cnt`) and the list
of those it dominates (`Dominance.bts`):

* `Dominance.of_run`: on individuals whose scores are numbers other than NaN
  (`Evaluated`) the comparisons never fail, change nothing in the store, and
  count for each member exactly the members that dominate it, and list for
  each exactly the members it dominates;
* `Dominance.cnt_remove`: taking a front out lowers each count by the number
  of times the identity is listed under a member of the front.

Dominance on such individuals is a strict order (`Evaluated.strictOn`), which
is what makes one comparison per pair enough: the pair is recorded one way or
the other, never both.
-/

namespace Evolver
namespace Pareto

namespace Dominance

/-- The count of remaining dominators of `x`. -/
def cnt (d : Dominance) (x : Nat) : Int := d.count.getD x 0

/-- The identities recorded as dominated by `y`. -/
def bts (d : Dominance) (y : Nat) : List Nat := d.beats.getD y []

variable (d : Dominance) (a b x : Nat)

@[simp] theorem cnt_record : (d.record a b).cnt x = d.cnt x + if b = x then 1 else 0 := by
  simp only [cnt, record, Std.HashMap.getD_insert, beq_iff_eq]
  split <;> simp_all

@[simp] theorem bts_record : (d.record a b).bts x = d.bts x ++ if a = x then [b] else [] := by
  simp only [bts, record, Std.HashMap.getD_insert, beq_iff_eq]
  split <;> simp_all

end Dominance

/-- Dominance among individuals it compares is a strict order. -/
theorem Evaluated.strictOn {flags : List Bool} {score : Nat → List Value} {s : Store} {S : List Nat}
    (hS : Evaluated flags score s S) : StrictOn (dominatesAt s) S :=
  ⟨fun _ ha => hS.dominatesAt_irrefl ha, fun _ ha _ hb _ hc => hS.dominatesAt_trans ha hb hc⟩

theorem Population.strictOn {flags : List Bool} {score : Nat → List Value} {s : Store} {S : List Nat}
    (hS : Population flags score s S) : StrictOn (dominatesAt s) S :=
  hS.evaluated.strictOn

/-- A fold whose every step answers without touching the store is the pure
fold of the answers. -/
theorem Run.foldlM_run {β γ : Type} {s : Store} {f : β → γ → Run β} {g : β → γ → β} :
    ∀ (l : List γ) (d : β), (∀ d, ∀ b ∈ l, (f d b).run s = .ok (g d b) s) →
      (l.foldlM f d).run s = .ok (l.foldl g d) s
  | [], _, _ => rfl
  | b :: l, d, h => by
    simp only [List.foldlM_cons, EStateM.run_bind, h d b List.mem_cons_self, List.foldl_cons]
    exact Run.foldlM_run l _ fun d' c hc => h d' c (List.mem_cons_of_mem b hc)

/-! ### Comparing every pair once -/

section Record

variable {dom : Nat → Nat → Bool} {S : List Nat}

/-- The comparison of `a` with a later `b`, recorded as `Dominance.of` records
it: `b` over `a` if it dominates, else `a` over `b` if that dominates. -/
def recordPair (dom : Nat → Nat → Bool) (a : Nat) (d : Dominance) (b : Nat) : Dominance :=
  if dom b a then d.record b a else if dom a b then d.record a b else d

/-- Comparing `a` with each later member lists `a` under each that
dominates it. -/
theorem bts_foldl_recordPair_other {a y : Nat} (hy : y ≠ a) :
    ∀ (rest : List Nat) (d : Dominance),
      (rest.foldl (recordPair dom a) d).bts y =
        d.bts y ++ List.replicate ((rest.filter (dom · a)).count y) a
  | [], d => by simp
  | b :: rest, d => by
    rw [List.foldl_cons, bts_foldl_recordPair_other hy rest]
    unfold recordPair
    by_cases hdba : dom b a = true
    · by_cases hby : b = y
      · subst hby
        simp only [hdba, if_true, Dominance.bts_record, List.filter_cons, List.count_cons,
          beq_self_eq_true, List.append_assoc]
        rw [List.append_cancel_left_eq, List.replicate_succ]
        rfl
      · simp [hdba, hby]
    · have hay : ¬ a = y := fun h => hy h.symm
      by_cases hdab : dom a b = true <;> simp [hdba, hdab, hay]

variable (hS : StrictOn dom S)
include hS

theorem asymm {a b : Nat} (ha : a ∈ S) (hb : b ∈ S) (hba : dom b a = true) : dom a b = false := by
  cases hab : dom a b
  · rfl
  · have := hS.irrefl a ha
    rw [hS.trans a ha b hb a ha hab hba] at this
    exact absurd this Bool.noConfusion

/-- Comparing `a` with each later member adds to the count of `a` its
dominators among them, and to each of them one when `a` dominates it. -/
theorem cnt_foldl_recordPair {a : Nat} (ha : a ∈ S) :
    ∀ (rest : List Nat), (∀ b ∈ rest, b ∈ S) → ∀ (d : Dominance) (x : Nat),
      (rest.foldl (recordPair dom a) d).cnt x =
        d.cnt x + (if a = x then ((rest.filter (dom · a)).length : Int) else 0) +
          ((rest.filter (dom a ·)).count x : Int)
  | [], _, d, x => by simp
  | b :: rest, hrest, d, x => by
    have hb := hrest b List.mem_cons_self
    rw [List.foldl_cons, cnt_foldl_recordPair ha rest (fun c hc => hrest c (List.mem_cons_of_mem b hc))]
    unfold recordPair
    by_cases hba : dom b a = true
    · have hab := asymm hS ha hb hba
      simp only [hba, if_true, Dominance.cnt_record, List.filter_cons, hab, Bool.false_eq_true,
        if_false, List.length_cons]
      split <;> push_cast <;> omega
    · simp only [hba, Bool.false_eq_true, if_false, List.filter_cons]
      by_cases hab : dom a b = true
      · simp only [hab, if_true, Dominance.cnt_record, List.count_cons, beq_iff_eq]
        split <;> split <;> push_cast <;> omega
      · simp only [hab, Bool.false_eq_true, if_false]

/-- Comparing `a` with each later member lists under `a` those it dominates. -/
theorem bts_foldl_recordPair_self {a : Nat} (ha : a ∈ S) :
    ∀ (rest : List Nat), (∀ b ∈ rest, b ∈ S) → a ∉ rest → ∀ (d : Dominance),
      (rest.foldl (recordPair dom a) d).bts a = d.bts a ++ rest.filter (dom a ·)
  | [], _, _, d => by simp
  | b :: rest, hrest, hnot, d => by
    have hb := hrest b List.mem_cons_self
    have hba : b ≠ a := fun h => hnot (h ▸ List.mem_cons_self)
    rw [List.foldl_cons, bts_foldl_recordPair_self ha rest (fun c hc => hrest c (List.mem_cons_of_mem b hc))
      (fun h => hnot (List.mem_cons_of_mem b h))]
    unfold recordPair
    by_cases hdba : dom b a = true
    · simp [hdba, asymm hS ha hb hdba, hba]
    · by_cases hdab : dom a b = true <;> simp [hdba, hdab]

end Record

variable {flags : List Bool} {score : Nat → List Value} {s : Store} {S : List Nat}

/-- **Comparing every pair of a list once** counts for each member the
members that dominate it, and lists for each the members it dominates. -/
theorem go_run (hS : Evaluated flags score s S) :
    ∀ (L : List Nat), L.Sublist S → ∀ (d : Dominance),
      ∃ d', (Dominance.of.go L d).run s = .ok d' s ∧
        (∀ x, d'.cnt x = d.cnt x + if x ∈ L then ((L.filter (dominatesAt s · x)).length : Int) else 0) ∧
        ∀ y, d'.bts y = d.bts y ++ if y ∈ L then L.filter (dominatesAt s y ·) else []
  | [], _, d => ⟨d, rfl, by simp, by simp⟩
  | a :: rest, hL, d => by
    have ha : a ∈ S := hL.subset List.mem_cons_self
    have hrest : rest.Sublist S := (List.sublist_cons_self a rest).trans hL
    have hnodup : (a :: rest).Nodup := hL.nodup hS.nodup
    have hnot : a ∉ rest := (List.nodup_cons.1 hnodup).1
    have hrestS : ∀ b ∈ rest, b ∈ S := fun b hb => hrest.subset hb
    have haa : dominatesAt s a a = false := hS.dominatesAt_irrefl ha
    obtain ⟨d', hgo, hcnt, hbts⟩ := go_run hS rest hrest (rest.foldl (recordPair (dominatesAt s) a) d)
    refine ⟨d', ?_, fun x => ?_, fun y => ?_⟩
    · rw [Dominance.of.go, EStateM.run_bind, Run.foldlM_run rest d (g := recordPair (dominatesAt s) a) ?_]
      · exact hgo
      intro d'' b hb
      simp only [EStateM.run_bind, hS.dominatesIn_run (hrestS b hb) ha, recordPair]
      by_cases hba : dominatesAt s b a = true
      · simp only [hba, if_true]
        rfl
      · simp only [hba, Bool.false_eq_true, if_false, EStateM.run_bind, hS.dominatesIn_run ha (hrestS b hb)]
        split <;> rfl
    · rw [hcnt x, cnt_foldl_recordPair hS.strictOn ha rest hrestS d x]
      by_cases hxa : a = x
      · subst hxa
        simp [hnot, haa, List.count_eq_zero_of_not_mem]
      · by_cases hx : x ∈ rest
        · have hone : rest.count x = 1 := List.count_eq_one_of_mem (List.nodup_cons.1 hnodup).2 hx
          by_cases hax : dominatesAt s a x = true
          · simp [hxa, hx, hax, hone]
            omega
          · have hx' : x ∉ rest.filter (dominatesAt s a ·) := fun h => hax (List.mem_filter.1 h).2
            simp [hxa, hx, hax, List.count_eq_zero_of_not_mem hx']
        · have hx' : x ∉ (rest.filter (dominatesAt s a ·)) := fun h => hx (List.mem_filter.1 h).1
          simp [hxa, hx, List.count_eq_zero_of_not_mem hx', Ne.symm hxa]
    · by_cases hya : y = a
      · subst hya
        rw [hbts, bts_foldl_recordPair_self hS.strictOn ha rest hrestS hnot]
        simp [hnot, haa]
      · rw [hbts, bts_foldl_recordPair_other hya]
        by_cases hy : y ∈ rest
        · have hone : rest.count y = 1 := List.count_eq_one_of_mem (List.nodup_cons.1 hnodup).2 hy
          by_cases hya' : dominatesAt s y a = true
          · simp [hy, hya', hone]
          · have hy' : y ∉ rest.filter (dominatesAt s · a) := fun h => hya' (List.mem_filter.1 h).2
            simp [hy, hya', List.count_eq_zero_of_not_mem hy']
        · have hy' : y ∉ (rest.filter (dominatesAt s · a)) := fun h => hy (List.mem_filter.1 h).1
          simp [hy, hya, List.count_eq_zero_of_not_mem hy']

/-- **The dominance of individuals it compares**: the comparisons never fail
and leave the store as it is; each member counts the members dominating it and
lists the members it dominates. -/
theorem Dominance.of_run (hS : Evaluated flags score s S) :
    ∃ d, (Dominance.of S).run s = .ok d s ∧
      (∀ x ∈ S, d.cnt x = ((S.filter (dominatesAt s · x)).length : Int)) ∧
      ∀ y ∈ S, d.bts y = S.filter (dominatesAt s y ·) := by
  obtain ⟨d, hrun, hcnt, hbts⟩ := go_run hS S (List.Sublist.refl S) ⟨{}, {}⟩
  refine ⟨d, hrun, fun x hx => ?_, fun y hy => ?_⟩
  · rw [hcnt x, if_pos hx]
    simp [Dominance.cnt]
  · rw [hbts y, if_pos hy]
    simp [Dominance.bts]

/-! ### Taking a front out -/

/-- One count lowered, as `Dominance.remove` lowers it. -/
def Dominance.lowerOne (d : Dominance) (b : Nat) : Dominance :=
  { d with count := d.count.insert b (d.count.getD b 0 - 1) }

theorem Dominance.remove_eq (d : Dominance) (F : List Nat) :
    d.remove F = F.foldl (fun d a => (d.bts a).foldl Dominance.lowerOne d) d := rfl

/-- Lowering counts one identity at a time keeps the lists of dominated and
lowers each count by the times its identity is met. -/
theorem foldl_lowerOne : ∀ (l : List Nat) (d : Dominance),
    (l.foldl Dominance.lowerOne d).beats = d.beats ∧
      ∀ x, (l.foldl Dominance.lowerOne d).cnt x = d.cnt x - (l.count x : Int)
  | [], d => ⟨rfl, fun x => by simp⟩
  | b :: l, d => by
    obtain ⟨hb, hc⟩ := foldl_lowerOne l (d.lowerOne b)
    refine ⟨hb, fun x => ?_⟩
    rw [List.foldl_cons, hc, List.count_cons]
    simp only [Dominance.cnt, Dominance.lowerOne, Std.HashMap.getD_insert, beq_iff_eq]
    split
    · subst_vars
      simp
      omega
    · simp_all

/-- **Taking a front out** keeps the lists of dominated and lowers each count
by the number of times the identity is listed under a member of the front. -/
theorem Dominance.remove_spec : ∀ (F : List Nat) (d : Dominance),
    (d.remove F).beats = d.beats ∧ ∀ x, (d.remove F).cnt x = d.cnt x - ((F.flatMap d.bts).count x : Int)
  | [], d => ⟨rfl, fun x => by simp [Dominance.remove_eq]⟩
  | a :: F, d => by
    obtain ⟨hb₁, hc₁⟩ := foldl_lowerOne (d.bts a) d
    have hbts : ((d.bts a).foldl Dominance.lowerOne d).bts = d.bts := by
      funext y
      exact congrArg (fun m => m.getD y []) hb₁
    obtain ⟨hb₂, hc₂⟩ := Dominance.remove_spec F ((d.bts a).foldl Dominance.lowerOne d)
    rw [Dominance.remove_eq] at hb₂ hc₂ ⊢
    refine ⟨hb₂.trans hb₁, fun x => ?_⟩
    rw [List.foldl_cons, hc₂, hc₁, hbts, List.flatMap_cons, List.count_append]
    push_cast
    omega

variable {F : List Nat} {d : Dominance}

/-- Taking out a front whose members list exactly the members they dominate
lowers each count by its dominators in the front. -/
theorem cnt_remove_front {dom : Nat → Nat → Bool} {S : List Nat}
    (hbts : ∀ a ∈ F, d.bts a = S.filter (dom a ·)) (hnodup : S.Nodup) {x : Nat} (hx : x ∈ S) :
    (d.remove F).cnt x = d.cnt x - ((F.filter (dom · x)).length : Int) := by
  have hcount : ∀ G : List Nat, (∀ a ∈ G, d.bts a = S.filter (dom a ·)) →
      (G.flatMap d.bts).count x = (G.filter (dom · x)).length := by
    intro G hG
    induction G with
    | nil => rfl
    | cons a G ih =>
      rw [List.flatMap_cons, List.count_append, hG a List.mem_cons_self,
        ih fun b hb => hG b (List.mem_cons_of_mem a hb), List.filter_cons]
      by_cases hax : dom a x = true
      · simp [hax, List.count_eq_one_of_mem hnodup hx]
        omega
      · have hx' : x ∉ S.filter (dom a ·) := fun h => hax (List.mem_filter.1 h).2
        simp [hax, List.count_eq_zero_of_not_mem hx']
  rw [(Dominance.remove_spec F d).2 x, hcount F hbts]

theorem Dominance.front_eq (source : List Nat) : d.front source = source.filter fun i => d.cnt i == 0 := rfl

end Pareto
end Evolver
