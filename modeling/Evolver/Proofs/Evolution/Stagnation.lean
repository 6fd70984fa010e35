import Evolver.Proofs.Evolution.Corners
import Evolver.Proofs.Evolution.FirstBest
/-!
# Stagnation: calls counted from the anchor

The stagnation check remembers the best scores of one call, its *anchor*,
and counts the calls made since.  A later call whose scores are all close to
the anchor, place by place, counts one more, and stops the run once the count
reaches the limit; the first call, and every call that is not close to the
anchor, becomes the anchor itself and starts the count again.  Close calls
never refresh the anchor, so scores drifting within the tolerance are measured
against an old one.

The calls that set the anchor are told apart by closeness alone
(`Checker.lastReset`, for any closeness of two scores): call `t` answers, and
leaves the check, as the count `t - s` from the last call `s` that set it
says (`Checker.stagnantAt`).  One call is `Checker.check_stagnation_run`; from
it, by induction on the calls still to come, every sequence of calls on
populations of one or more subpopulations whose best scores are real numbers
answers exactly that way (`Checker.stagnant_trace`).
-/

namespace Evolver

/-- A score the check compares as a double: a number or a boolean. -/
def Value.IsReal (v : Value) : Prop := ∃ x, v.realFloat = .ok x

/-- Closeness of two scores as the check reckons it: both as doubles, then
`isClose`. -/
def Value.closeAsDoubles (a b : Value) : Bool :=
  match a.realFloat, b.realFloat with
  | .ok x, .ok y => isClose x y
  | _, _ => false

theorem Value.compare_ge_int (m n : Int) : Value.compare .ge (.int m) (.int n) = .ok (decide (n ≤ m)) := by
  rw [compare_plain .ge rfl rfl, Numeric.plainCompare_whole_whole _ rfl rfl]
  simp only [Option.map_some, Option.getD_some, Relation.holds_ge_compare]
  rfl

theorem Population.bestScores_length {p : Population} {s s' : Store} {scores : List Value}
    (h : p.bestScores.run s = .ok scores s') : scores.length = p.subpops.length := by
  obtain ⟨ids, s₁, hids, hscores⟩ := Run.bind_run_ok.1 h
  rw [Run.mapM_length ids hscores, Run.mapM_length p.subpops hids]

namespace Checker

/-! ### One call -/

/-- Whether each score is close to the one in its place in `anchor`. -/
def closeTo (close : Value → Value → Bool) (scores anchor : List Value) : Bool :=
  (scores.zip anchor).all fun q => close q.1 q.2

/-- **One call of the stagnation check.**  On a population whose best scores
are real numbers, a call close to a remembered anchor counts one more and
stops once the count reaches `K`; any other call remembers its own scores and
answers no. -/
theorem check_stagnation_run {K count : Int} {anchor scores : List Value} {p : Population}
    {best : Option Nat} {s s' : Store} (hscores : p.bestScores.run s = .ok scores s')
    (hreal : ∀ v ∈ scores ++ anchor, v.IsReal) :
    ((stagnation (.int K) anchor count).check p best).run s =
      if !anchor.isEmpty && closeTo Value.closeAsDoubles scores anchor then
        .ok (decide (K ≤ count + 1), stagnation (.int K) anchor (count + 1)) s'
      else .ok (false, stagnation (.int K) scores 0) s' := by
  -- each pair of scores is compared as doubles, reading nothing
  have hclose : ((scores.zip anchor).mapM fun (q : Value × Value) => do
      pure (isClose (← Run.ofExcept q.1.realFloat) (← Run.ofExcept q.2.realFloat))).run s' =
      .ok ((scores.zip anchor).map fun q => q.1.closeAsDoubles q.2) s' :=
    Run.mapM_run_map _ (scores.zip anchor) fun q hq => by
      obtain ⟨x, hx⟩ := hreal q.1 (List.mem_append_left _ (List.of_mem_zip hq).1)
      obtain ⟨y, hy⟩ := hreal q.2 (List.mem_append_right _ (List.of_mem_zip hq).2)
      simp only [EStateM.run_bind, hx, hy, Run.ofExcept_ok_run, Value.closeAsDoubles]
      rfl
  have hall : ((scores.zip anchor).map fun q => q.1.closeAsDoubles q.2).all id =
      closeTo Value.closeAsDoubles scores anchor := by
    simp only [closeTo, List.all_map, Function.id_comp]
  simp only [check, EStateM.run_bind, hscores]
  rw [hclose]
  dsimp only
  rw [hall]
  split
  · simp only [EStateM.run_bind, Value.compare_ge_int, Run.ofExcept_ok_run]
    rfl
  · rfl

/-! ### The anchor along a sequence of calls -/

/-- The call at or before call `t` that last set the anchor, for the best
scores `bs` of successive calls: the first call sets it, and so does every
later call whose scores are not close to the anchor then held. -/
def lastReset (close : Value → Value → Bool) (bs : List (List Value)) : Nat → Nat
  | 0 => 0
  | t + 1 =>
    if closeTo close (bs.getD (t + 1) []) (bs.getD (lastReset close bs t) []) then lastReset close bs t
    else t + 1

theorem lastReset_le (close : Value → Value → Bool) (bs : List (List Value)) : ∀ t, lastReset close bs t ≤ t
  | 0 => Nat.le_refl 0
  | t + 1 => by
    have := lastReset_le close bs t
    simp only [lastReset]
    split <;> omega

/-- What call `t` of a stagnation check with limit `K` answers and leaves:
with `s` the call that last set the anchor, it stops the run when
`K ≤ t - s`, and leaves the scores of call `s` remembered with the count
`t - s`. -/
def stagnantAt (K : Int) (bs : List (List Value)) (t : Nat) : Bool × Checker :=
  let s := lastReset Value.closeAsDoubles bs t
  (decide (K ≤ ((t - s : Nat) : Int)), stagnation (.int K) (bs.getD s []) ((t - s : Nat) : Int))

/-- One call of a check: the population, the best individual of the run and
the store it is asked on. -/
structure Call where
  population : Population
  best : Option Nat
  store : Store

/-- The best scores of a call: it asks a population of one or more
subpopulations, and reads their best individuals' scores. -/
def ScoresOf (call : Call) (scores : List Value) : Prop :=
  call.population.subpops ≠ [] ∧ ∃ s', call.population.bestScores.run call.store = .ok scores s'

theorem ScoresOf.ne_nil {call : Call} {scores : List Value} (h : ScoresOf call scores) : scores ≠ [] := by
  obtain ⟨hne, s', hs⟩ := h
  rw [← List.length_pos_iff, Population.bestScores_length hs]
  exact List.length_pos_iff.2 hne

/-- A checker asked once per call in turn, each call finding it as the call
before left it: what each call answers, with the checker as it leaves it. -/
def trace : Checker → List Call → Except Fault (List (Bool × Checker))
  | _, [] => pure []
  | c, call :: calls =>
    match (c.check call.population call.best).run call.store with
    | .ok (stop, c') _ => ((stop, c') :: ·) <$> c'.trace calls
    | .error e _ => throw e

/-- Every call asks one or more subpopulations, so no call reads no scores. -/
theorem scoresOf_ne_nil : ∀ {calls : List Call} {bs : List (List Value)}, List.Forall₂ ScoresOf calls bs →
    ∀ b ∈ bs, b ≠ []
  | _, _, .nil => fun _ hb => absurd hb List.not_mem_nil
  | _, _, .cons hcall hcalls => List.forall_mem_cons.2 ⟨hcall.ne_nil, scoresOf_ne_nil hcalls⟩

section Trace

variable {K : Int} {bs : List (List Value)}

/-- **One call further.**  From what call `t` leaves, call `t + 1` answers and
leaves what `stagnantAt` says of it. -/
theorem stagnantAt_succ (hK : 1 ≤ K) (hreal : ∀ b ∈ bs, ∀ v ∈ b, v.IsReal) (hne : ∀ b ∈ bs, b ≠ [])
    {t : Nat} (ht : t + 1 < bs.length) {call : Call} {s' : Store}
    (hcall : call.population.bestScores.run call.store = .ok bs[t + 1] s') :
    ((stagnantAt K bs t).2.check call.population call.best).run call.store = .ok (stagnantAt K bs (t + 1)) s' := by
  have hle := lastReset_le Value.closeAsDoubles bs t
  have hs : lastReset Value.closeAsDoubles bs t < bs.length := by omega
  have hanchor : bs.getD (lastReset Value.closeAsDoubles bs t) [] = bs[lastReset Value.closeAsDoubles bs t] := by
    rw [List.getD_eq_getElem?_getD, List.getElem?_eq_getElem hs, Option.getD_some]
  have hnext : bs.getD (t + 1) [] = bs[t + 1] := by
    rw [List.getD_eq_getElem?_getD, List.getElem?_eq_getElem ht, Option.getD_some]
  have hreal' : ∀ v ∈ bs[t + 1] ++ bs.getD (lastReset Value.closeAsDoubles bs t) [], v.IsReal := by
    intro v hv
    rcases List.mem_append.1 hv with hv | hv
    · exact hreal _ (List.getElem_mem ht) v hv
    · exact hreal _ (List.getElem_mem hs) v (hanchor ▸ hv)
  have hnonempty : (bs.getD (lastReset Value.closeAsDoubles bs t) []).isEmpty = false := by
    rw [hanchor, List.isEmpty_eq_false_iff]
    exact hne _ (List.getElem_mem hs)
  simp only [stagnantAt]
  rw [check_stagnation_run hcall hreal', hnonempty, Bool.not_false, Bool.true_and]
  -- the call is close to the anchor exactly when it does not set a new one
  by_cases hclose : closeTo Value.closeAsDoubles bs[t + 1] (bs.getD (lastReset Value.closeAsDoubles bs t) []) = true
  · have hreset : lastReset Value.closeAsDoubles bs (t + 1) = lastReset Value.closeAsDoubles bs t := by
      rw [lastReset, hnext, if_pos hclose]
    rw [if_pos hclose, hreset, show t + 1 - lastReset Value.closeAsDoubles bs t =
      t - lastReset Value.closeAsDoubles bs t + 1 by omega]
    simp only [Nat.cast_add, Nat.cast_one]
  · have hreset : lastReset Value.closeAsDoubles bs (t + 1) = t + 1 := by
      rw [lastReset, hnext, if_neg hclose]
    have hK0 : ¬ K ≤ ((0 : Nat) : Int) := by omega
    rw [if_neg hclose, hreset, hnext, Nat.sub_self, decide_eq_false hK0]
    rfl

/-- The calls after call `t` answer one after another as `stagnantAt` says,
each finding the check as the one before left it. -/
theorem trace_from (hK : 1 ≤ K) (hreal : ∀ b ∈ bs, ∀ v ∈ b, v.IsReal) (hne : ∀ b ∈ bs, b ≠ []) :
    ∀ (calls : List Call) (t : Nat) (rest : List (List Value)), List.Forall₂ ScoresOf calls rest →
      bs.drop (t + 1) = rest →
        (stagnantAt K bs t).2.trace calls = .ok ((List.range' (t + 1) calls.length).map (stagnantAt K bs))
  | [], _, _, _, _ => rfl
  | call :: calls, t, b :: rest, .cons hcall hcalls, hdrop => by
    have ht : t + 1 < bs.length := by
      by_contra h
      rw [List.drop_eq_nil_of_le (by omega)] at hdrop
      cases hdrop
    rw [List.drop_eq_getElem_cons ht, List.cons.injEq] at hdrop
    obtain ⟨hb, hrest⟩ := hdrop
    obtain ⟨-, s', hs'⟩ := hcall
    rw [← hb] at hs'
    rw [trace, stagnantAt_succ hK hreal hne ht hs']
    simp only [trace_from hK hreal hne calls (t + 1) rest hcalls hrest, List.length_cons,
      List.range'_succ, List.map_cons]
    rfl

/-- **The stagnation check counts calls from its anchor.**  Asked once per
call, on populations of one or more subpopulations whose best scores `bs` are
real numbers, the check with limit `K ≥ 1` answers at call `t` whether
`K ≤ t - s`, where `s` is the last call at or before `t` that set the anchor;
it then remembers the scores of call `s`, not refreshed by the close calls
since, and the count `t - s`.  It never fails. -/
theorem stagnant_trace (hK : 1 ≤ K) {calls : List Call} (hcalls : List.Forall₂ ScoresOf calls bs)
    (hreal : ∀ b ∈ bs, ∀ v ∈ b, v.IsReal) :
    (stagnant (.int K)).trace calls = .ok ((List.range bs.length).map (stagnantAt K bs)) := by
  have hne : ∀ b ∈ bs, b ≠ [] := scoresOf_ne_nil hcalls
  cases hcalls with
  | nil => rfl
  | @cons call b calls rest hcall hrest =>
    obtain ⟨-, s', hs'⟩ := hcall
    -- the first call finds no anchor and sets one
    have hfirst : ((stagnant (.int K)).check call.population call.best).run call.store =
        .ok (stagnantAt K (b :: rest) 0) s' := by
      have hK0 : ¬ K ≤ ((0 - 0 : Nat) : Int) := by omega
      rw [stagnant, check_stagnation_run hs' (by simpa using hreal b List.mem_cons_self)]
      simp only [List.isEmpty_nil, Bool.not_true, Bool.false_and]
      simp only [stagnantAt, lastReset, Nat.sub_self, decide_eq_false hK0, List.getD_cons_zero]
      rfl
    rw [trace, hfirst]
    simp only [trace_from hK hreal hne calls 0 rest hrest rfl, hrest.length_eq, List.length_cons, List.range_succ_eq_map,
      List.map_cons, List.range'_eq_map_range, List.map_map, Nat.add_comm 1, Function.comp_def]
    rfl

/-- The three tied vectors as a population of one subpopulation, asked with
no best individual. -/
def tiedCall : Call := ⟨⟨[Subpopulation.tiedThree]⟩, none, Subpopulation.tiedScored⟩

/-- The best of the tied vectors is the second, scored seven. -/
theorem tiedCall_scoresOf : ScoresOf tiedCall [.int 7] := by
  have hb : Pareto.firstBest true Subpopulation.tiedScore Subpopulation.tiedThree.members = some 2 := by
    decide +kernel
  have hbest := Subpopulation.best_firstBest rfl Subpopulation.tiedScored_rated hb
  have hget : Subpopulation.tiedScored.individuals[2]? = some (Subpopulation.scoredVector 2 7) := by
    simp only [Subpopulation.tiedScored, Std.HashMap.getElem?_insert, beq_iff_eq]
    rfl
  refine ⟨List.cons_ne_nil _ _, Subpopulation.tiedScored, ?_⟩
  simp only [Population.bestScores, Population.bests, tiedCall, List.mapM_cons, List.mapM_nil, EStateM.run_bind,
    EStateM.run_pure, hbest, Run.get_run hget]
  rfl

/-- Three calls on the tied vectors with limit two: the first sets the
anchor, the second counts one, and the third, two calls after the anchor,
stops the run. -/
theorem stagnant_trace_tied :
    List.Forall₂ ScoresOf [tiedCall, tiedCall, tiedCall] [[.int 7], [.int 7], [.int 7]] ∧
      (stagnant (.int 2)).trace [tiedCall, tiedCall, tiedCall] =
        .ok [(false, stagnation (.int 2) [.int 7] 0), (false, stagnation (.int 2) [.int 7] 1),
          (true, stagnation (.int 2) [.int 7] 2)] := by
  have hcalls : List.Forall₂ ScoresOf [tiedCall, tiedCall, tiedCall] [[.int 7], [.int 7], [.int 7]] :=
    .cons tiedCall_scoresOf (.cons tiedCall_scoresOf (.cons tiedCall_scoresOf .nil))
  have hreal : ∀ b ∈ [[Value.int 7], [.int 7], [.int 7]], ∀ v ∈ b, v.IsReal := by
    intro b hb v hv
    simp only [List.mem_cons, List.not_mem_nil, or_false, or_self] at hb
    subst hb
    simp only [List.mem_cons, List.not_mem_nil, or_false] at hv
    subst hv
    exact ⟨_, rfl⟩
  refine ⟨hcalls, ?_⟩
  rw [stagnant_trace (by decide) hcalls hreal]
  rfl

end Trace

end Checker

end Evolver
