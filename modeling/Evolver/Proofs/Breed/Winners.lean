import Evolver.Proofs.Evolution.FirstBest
/-!
# The winners of a tournament selection

A tournament selection draws all its tournaments first, then copies the
winner of each, in order.  Over individuals with single exact scores
(`Fitness.Scalar`, `Store.Rated`):

* the winner of a tournament is its first participant at least as good as
  every participant (`Selection.winner_firstBest`), ties going to the
  earliest because a participant replaces the pick only when strictly better;
* its copy is a clone kept under the next identity, recording the selection
  (`Selection.copy_run`), and no identity found before changes.

So a tournament selection answers the destination followed by one fresh
identity per member of the source beyond the destination's length, each
holding a copy of the first best participant of its tournament
(`Selection.select_tournament_first_best`).

A tournament needs a participant: with tournaments of size 0 and a
destination shorter than the source, the selection fails with an index error
(`Selection.select_fails_twoScored_emptyTournaments`).
-/

namespace Evolver

namespace Selection

open Run

/-- `c` holds, in `s'`, the copy that `sel` makes of the individual `b` of
`s`: its clone under `c`, which records the selection. -/
def CopyOf (sel : Selection) (s s' : Store) (b c : Nat) : Prop :=
  ∃ i, s.individuals[b]? = some i ∧
    s'.individuals[c]? = some { i.cloneAs c with selectedBy := i.selectedBy ++ [sel.className] }

variable {up : Bool} {val : Nat → Value}

/-- **The winners, copied one after another.**  Over tournaments of
positions of a scored source, each with a participant, the loop answers the
next identities in order, each holding a copy of the first best participant
of its tournament, and changes no identity it found. -/
theorem mapM_winners_run (sel : Selection) (source : List Nat) :
    ∀ (ts : List (List Nat)) (s : Store), s.Sound (Fitness.Scalar up) → s.Rated source val →
      (∀ t ∈ ts, t ≠ [] ∧ ∀ i ∈ t, i < source.length) →
      ∃ s', (ts.mapM fun t => winner (t.map fun i => source.getD i 0) >>= sel.copy).run s =
          .ok (List.range' s.lab.nextId ts.length) s' ∧
        s'.Sound (Fitness.Scalar up) ∧ (∀ k < s.lab.nextId, s'.individuals[k]? = s.individuals[k]?) ∧
        List.Forall₂ (fun (t : List Nat) (c : Nat) => ∃ b, Pareto.firstBest up val (t.map fun i => source.getD i 0) = some b ∧
          CopyOf sel s s' b c) ts (List.range' s.lab.nextId ts.length)
  | [], s, hs, _, _ => ⟨s, rfl, hs, fun _ _ => rfl, .nil⟩
  | t :: ts, s, hs, hrated, hts => by
    obtain ⟨hne, hlt⟩ := hts t List.mem_cons_self
    obtain ⟨b, hb⟩ := Option.isSome_iff_exists.1
      (Pareto.firstBest_isSome (by simpa using hne) : (Pareto.firstBest up val (t.map fun i => source.getD i 0)).isSome)
    have hwin := winner_firstBest (hs.scalarOn source) hrated (fun p hp => participant_mem hlt hp) hb
    obtain ⟨i, hi, -⟩ := hrated b (participant_mem hlt (Pareto.firstBest_mem hb))
    obtain ⟨s₁, hcopy, hnext, hother, hnew⟩ := copy_run hi sel
    -- the copy keeps the store sound, and every identity found before
    have hs₁ : s₁.Sound (Fitness.Scalar up) := by
      have hconf := (confined_copy (fun _ h => h.stored) sel b :
        Confined (Fitness.Scalar up) (fun _ => False) _).run_ok hs hcopy
      exact hconf.1
    have hbelow : ∀ k < s.lab.nextId, s₁.individuals[k]? = s.individuals[k]? := fun k hk => hother k (by omega)
    -- the source is scored by the same individuals
    have hsource : ∀ id ∈ source, s₁.individuals[id]? = s.individuals[id]? := fun id hid => by
      obtain ⟨j, hj, -⟩ := hrated id hid
      exact hbelow id (hs id j hj).2.1
    have hrated₁ : s₁.Rated source val := fun id hid => by
      rw [hsource id hid]
      exact hrated id hid
    obtain ⟨s', hrest, hs', hbelow', hwins⟩ :=
      mapM_winners_run sel source ts s₁ hs₁ hrated₁ fun t' ht' => hts t' (List.mem_cons_of_mem t ht')
    rw [hnext] at hrest hwins
    refine ⟨s', ?_, hs', fun k hk => by rw [hbelow' k (by omega), hbelow k hk], ?_⟩
    · simp only [List.mapM_cons, EStateM.run_bind, hwin, hcopy, hrest, List.length_cons, List.range'_succ]
      rfl
    · rw [List.length_cons, List.range'_succ]
      refine .cons ⟨b, hb, i, hi, by rw [hbelow' _ (by omega), hnew]⟩ ?_
      -- the later winners are members of the source, which the first copy left alone
      have hpos := (List.forall₂_and_left _ _).2 ⟨fun t' ht' => (hts t' (List.mem_cons_of_mem t ht')).2, hwins⟩
      refine hpos.imp fun t' c ⟨hlt', b', hb', j, hj, hc⟩ => ⟨b', hb', j, ?_, hc⟩
      rw [← hsource b' (participant_mem hlt' (Pareto.firstBest_mem hb')), hj]

/-- **A tournament selection copies the first best of each tournament.**
Over a scored source of fewer than `2 ^ 53` individuals whose fitnesses
compare single exact scores, with tournaments of at least one participant,
and no more than the source when drawn without replacement, a tournament
selection answers the destination followed by the next identities, one per
member of the source beyond the destination's length.  Each of them holds a
copy, recording the selection, of the first participant, in its
tournament's order, at least as good as every participant of that
tournament; each tournament has the size asked for and is made of positions
of the source.  No identity found before changes. -/
theorem select_tournament_first_best {sel : Selection} {size : Int} {w : Bool}
    (hch : sel.choice = .tournament size (.bool w)) (hsize : 0 < size) (source dest : List Nat)
    (hcap : w = true ∨ size ≤ source.length) (hn : source.length < 2 ^ 53) {s : Store}
    (hs : s.Sound (Fitness.Scalar up)) (hrated : s.Rated source val) :
    ∃ ts s', (sel.select source dest).run s =
        .ok (dest ++ List.range' s.lab.nextId (source.length - dest.length)) s' ∧
      List.Forall₂ (fun (t : List Nat) (c : Nat) => t.length = size.toNat ∧ (∀ i ∈ t, i < source.length) ∧
        ∃ b, Pareto.firstBest up val (t.map fun i => source.getD i 0) = some b ∧ CopyOf sel s s' b c)
        ts (List.range' s.lab.nextId (source.length - dest.length)) ∧
      ∀ k < s.lab.nextId, s'.individuals[k]? = s.individuals[k]? := by
  -- drawing the tournaments moves the streams only
  obtain ⟨ts, s₁, hts, hts_ok, hind, hnext⟩ := tournaments_run ((source.length : Int) - dest.length).toNat
    hsize hcap hn (fun hc => by omega) (fun s₁ => s₁.individuals = s.individuals ∧ s₁.lab.nextId = s.lab.nextId)
    (fun _ _ h => h) ⟨rfl, rfl⟩
  have hlen : ts.length = source.length - dest.length := by
    rw [mapM_length _ hts, List.length_range]
    omega
  have hs₁ : s₁.Sound (Fitness.Scalar up) := fun k i hi => by
    rw [hind] at hi
    rw [hnext]
    exact hs k i hi
  have hrated₁ : s₁.Rated source val := fun id hid => by
    rw [hind]
    exact hrated id hid
  obtain ⟨s', hws, -, hbelow, hwins⟩ := mapM_winners_run sel source ts s₁ hs₁ hrated₁ fun t ht =>
    ⟨List.ne_nil_of_length_pos (by rw [(hts_ok t ht).1]; omega), (hts_ok t ht).2⟩
  rw [hnext, hlen] at hws hwins
  rw [hnext] at hbelow
  refine ⟨ts, s', ?_, ?_, fun k hk => by rw [hbelow k hk, hind]⟩
  · rw [select, hch]
    dsimp only
    rw [ofExcept_bind_run_ok]
    refine ⟨w, Value.truth_bool w, ?_⟩
    rw [if_neg (capacity_check hcap), bind_run_ok]
    exact ⟨ts, s₁, hts, by rw [bind_run_ok]; exact ⟨_, s', hws, rfl⟩⟩
  · -- each tournament's size and positions go with its winner
    have hboth := (List.forall₂_and_left _ _).2 ⟨hts_ok, hwins⟩
    refine hboth.imp fun t c h => ?_
    obtain ⟨⟨htlen, hlt⟩, b, hb, i, hi, hc⟩ := h
    refine ⟨htlen, hlt, b, hb, i, ?_, hc⟩
    rw [← hind]
    exact hi

/-- A tournament selection of one participant per tournament, with
replacement. -/
def singleTournament : Selection := ⟨.tournament 1 (.bool true), .bool true⟩

theorem select_tournament_first_best_twoScored :
    ∃ ts s', (singleTournament.select [1, 2] []).run Subpopulation.twoScored =
        .ok ([] ++ List.range' 3 2) s' ∧
      List.Forall₂ (fun (t : List Nat) (c : Nat) => t.length = 1 ∧ (∀ i ∈ t, i < 2) ∧
        ∃ b, Pareto.firstBest true (fun id => .int (2 * id + 3)) (t.map fun i => [1, 2].getD i 0) = some b ∧
          CopyOf singleTournament Subpopulation.twoScored s' b c)
        ts (List.range' 3 2) ∧
      ∀ k < 3, s'.individuals[k]? = Subpopulation.twoScored.individuals[k]? :=
  select_tournament_first_best rfl Int.one_pos [1, 2] [] (.inl rfl) (by decide) Subpopulation.twoScored_sound
    (Subpopulation.twoScored_rated 1 0)

/-- A tournament selection of no participant per tournament, with
replacement. -/
def emptyTournament : Selection := ⟨.tournament 0 (.bool true), .bool true⟩

/-- **Tournaments of size 0 have no winner.**  Selecting from the two scored
vectors into an empty list by tournaments of no participant fails with an
index error, where one winner per vector was wanted. -/
theorem select_fails_twoScored_emptyTournaments :
    ∃ s', (emptyTournament.select [1, 2] []).run Subpopulation.twoScored = .error Fault.listIndex s' :=
  select_empty_tournaments_run rfl (Int.le_refl 0) (by decide) Subpopulation.twoScored

end Selection

end Evolver
