import Evolver.Proofs.Breed.Selection
import Evolver.Proofs.Random.Positions
/-!
# Tournaments that answer

A tournament selection draws all its tournaments first, then copies the
winner of each.  Over individuals with single exact scores (`Fitness.Scalar`,
`Store.Rated`) every step of that answers:

* a comparison of two single scores is a comparison of their exact values
  (`Fitness.betterThan_run`), so a tournament with a participant has a winner,
  one of its participants (`Selection.winner_run`);
* the positions drawn, with replacement or without, are positions of the
  population (`Stream.pick_spec`, `Stream.sample_spec`), so each tournament is
  made of scored individuals; a copy keeps the scored individuals as they
  were (`Store.Rated.of_spares`).

So a tournament selection whose tournaments hold at least one participant,
and no more than the population when drawn without replacement, answers
(`Selection.select_tournament_run`).  The participant is needed: tournaments
of no participant, drawn with replacement, are all empty, and the first
winner sought fails with an index error
(`Selection.select_empty_tournaments_run`).
-/

namespace Evolver

namespace Fitness

/-- A fitness that compares single scores, the higher the better when `up`. -/
def Scalar (up : Bool) (f : Fitness) : Prop := f.measure.isScalar = true ∧ f.higherIsBetter = .bool up

theorem Scalar.stored {up : Bool} {f : Fitness} (h : f.Scalar up) : f.stored.Scalar up := by
  unfold Fitness.stored
  split <;> exact h

theorem Scalar.reset {up : Bool} {f : Fitness} (h : f.Scalar up) : f.reset.Scalar up := by
  unfold Fitness.reset
  split <;> exact h

/-- A fitness with a score to compare has been evaluated. -/
theorem evaluated_of_augmented {f : Fitness} {size : Nat} {a : Value} (h : f.augmented size = .ok a) :
    f.evaluated = true := by
  cases he : f.evaluated
  · simp only [augmented, Fitness.pure, he, Bool.false_eq_true, if_false] at h
    cases h
  · rfl

/-- **Two single scores compare in the direction of the first fitness**: the
comparison is that of their augmented scores, and draws nothing. -/
theorem betterThan_scalar {up : Bool} {f g : Fitness} (hf : f.Scalar up) (hg : g.Scalar up) {size gsize : Nat}
    {a b : Value} (ha : f.augmented size = .ok a) (hb : g.augmented gsize = .ok b) :
    f.betterThan size g gsize = Draw.ofExcept (Value.compare (if up then .gt else .lt) a b) := by
  obtain ⟨hscalar, hup⟩ := hf
  have hcheck : f.checkScalar g = .ok () := by
    simp [checkScalar, hg.1, isEvaluated, evaluated_of_augmented ha, evaluated_of_augmented hb]
  -- a scalar measure takes the branch of single scores
  unfold betterThan
  cases hm : f.measure with
  | ranked => simp [hm, Measure.isScalar] at hscalar
  | simple | bloated _ => simp [hcheck, hup, ha, hb]

/-- **Two single scores compare by their exact values**, in the direction of
the first fitness, and the comparison draws nothing. -/
theorem betterThan_run {up : Bool} {f g : Fitness} (hf : f.Scalar up) (hg : g.Scalar up) {size gsize : Nat}
    {a b : Value} (ha : f.augmented size = .ok a) (hb : g.augmented gsize = .ok b) {u v : WithBot (WithTop Int)}
    (hu : a.exactValue? = some u) (hv : b.exactValue? = some v) (l : Lab) :
    (f.betterThan size g gsize).run l = .ok ((if up then Relation.gt else .lt).holds (compare u v)) l := by
  rw [betterThan_scalar hf hg ha hb, Value.compare_eq_holds _ hu hv]
  rfl

end Fitness

namespace Store

/-- Every identity of `ids` that holds an individual holds a fitness that
compares single scores, the higher the better when `up`. -/
def ScalarOn (s : Store) (up : Bool) (ids : List Nat) : Prop :=
  ∀ id ∈ ids, ∀ i, s.individuals[id]? = some i → i.fitness.Scalar up

theorem Sound.scalarOn {s : Store} {up : Bool} (hs : s.Sound (Fitness.Scalar up)) (ids : List Nat) :
    s.ScalarOn up ids :=
  fun id _ i hi => (hs id i hi).2.2

/-- Scored identities kept by a change stay scored. -/
theorem Rated.of_spares {F : Fitness → Prop} {T : Nat → Prop} {s s' : Store} {ids : List Nat}
    {val : Nat → Value} (h : s.Rated ids val) (hs : s.Sound F) (hsp : s.Spares T s') (hT : ∀ id ∈ ids, ¬ T id) :
    s'.Rated ids val :=
  h.of_core_eq fun id hid => by
    obtain ⟨i, hi, -⟩ := h id hid
    exact hsp.2 id (hs id i hi).2.1 (hT id hid)

end Store

namespace Run

/-- **A loop answers when each of its steps does**, from every store of an
invariant that each step keeps; every answer has the property each step's
answer has. -/
theorem mapM_run_ok {γ α : Type} {f : γ → Run α} (P : Store → Prop) (Q : α → Prop) :
    ∀ (xs : List γ), (∀ a ∈ xs, ∀ s, P s → ∃ b s', (f a).run s = .ok b s' ∧ Q b ∧ P s') →
      ∀ s, P s → ∃ bs s', (xs.mapM f).run s = .ok bs s' ∧ (∀ b ∈ bs, Q b) ∧ P s'
  | [], _, s, hs => ⟨[], s, rfl, fun _ h => absurd h List.not_mem_nil, hs⟩
  | a :: xs, hf, s, hs => by
    obtain ⟨b, s₁, hb, hQ, hs₁⟩ := hf a List.mem_cons_self s hs
    obtain ⟨bs, s', hbs, hQs, hs'⟩ :=
      mapM_run_ok P Q xs (fun a' ha' => hf a' (List.mem_cons_of_mem a ha')) s₁ hs₁
    refine ⟨b :: bs, s', ?_, ?_, hs'⟩
    · rw [List.mapM_cons, bind_run_ok]
      exact ⟨b, s₁, hb, by rw [bind_run_ok]; exact ⟨bs, s', hbs, rfl⟩⟩
    · intro c hc
      rcases List.mem_cons.1 hc with rfl | hc
      · exact hQ
      · exact hQs c hc

/-- Every answer of a loop is an answer of its step. -/
theorem mapM_mem {γ α : Type} {f : γ → Run α} {Q : α → Prop}
    (hf : ∀ a s b s', (f a).run s = .ok b s' → Q b) :
    ∀ (xs : List γ) (s : Store) (bs : List α) (s' : Store), (xs.mapM f).run s = .ok bs s' → ∀ b ∈ bs, Q b
  | [], _, _, _, h => by
    cases h
    exact fun _ hb => absurd hb List.not_mem_nil
  | a :: xs, s, bs, s', h => by
    rw [List.mapM_cons, bind_run_ok] at h
    obtain ⟨b, s₁, hb, h⟩ := h
    rw [bind_run_ok] at h
    obtain ⟨rest, s₂, hrest, h⟩ := h
    obtain ⟨rfl, -⟩ := pure_run_ok.1 h
    intro c hc
    rcases List.mem_cons.1 hc with rfl | hc
    · exact hf a s c s₁ hb
    · exact mapM_mem hf xs s₁ rest s₂ hrest c hc

variable {up : Bool} {s : Store} {ids : List Nat} {val : Nat → Value}

/-- **Comparing two scored individuals answers whether the first is better**,
by their exact values read in the direction of their fitnesses, and changes
nothing. -/
theorem better_run_eq_of_scalarOn (hscalar : s.ScalarOn up ids) (hrated : s.Rated ids val) {p w : Nat}
    (hp : p ∈ ids) (hw : w ∈ ids) :
    (better p (some w)).run s = .ok (decide (Pareto.Better up (val p).exact (val w).exact)) s := by
  obtain ⟨i, hi, hai, hexi⟩ := hrated p hp
  obtain ⟨j, hj, haj, hexj⟩ := hrated w hw
  have hcmp := Fitness.betterThan_run (hscalar p hp i hi) (hscalar w hw j hj) hai haj
    (Value.exactValue?_eq_exact hexi) (Value.exactValue?_eq_exact hexj) s.lab
  rw [Pareto.holds_better] at hcmp
  simp only [better, EStateM.run_bind, get_run hi, get_run hj]
  exact draw_run hcmp

theorem better_run_eq (hs : s.Sound (Fitness.Scalar up)) (hrated : s.Rated ids val) {p w : Nat} (hp : p ∈ ids)
    (hw : w ∈ ids) : (better p (some w)).run s = .ok (decide (Pareto.Better up (val p).exact (val w).exact)) s :=
  better_run_eq_of_scalarOn (hs.scalarOn ids) hrated hp hw

end Run

namespace Draw

/-- A draw that may fail, when it does not, moves the stream on. -/
theorem tryStream_run {α : Type} {f : Random.Stream → Except Fault (α × Random.Stream)} {l : Lab} {a : α}
    {st : Random.Stream} (h : f l.stream = .ok (a, st)) : (tryStream f).run l = .ok a { l with stream := st } := by
  simp only [tryStream, EStateM.run_bind]
  simp [h, EStateM.run, MonadState.get, getThe, MonadStateOf.get, EStateM.get, set, MonadStateOf.set,
    EStateM.set, pure, EStateM.pure, bind, EStateM.bind]

end Draw

namespace Selection

open Run

variable {up : Bool} {s : Store} {ids : List Nat} {val : Nat → Value}

/-- One step of the scan: the pick stays unless the next participant is
better. -/
theorem scan_step_run (hs : s.Sound (Fitness.Scalar up)) (hrated : s.Rated ids val) {q w : Nat} (hq : q ∈ ids)
    (hw : w ∈ ids) : (do if ← Run.better q (some w) then pure q else pure w : Run Nat).run s =
      .ok (if Pareto.Better up (val q).exact (val w).exact then q else w) s := by
  rw [bind_run_ok]
  refine ⟨_, s, better_run_eq hs hrated hq hw, ?_⟩
  by_cases hb : Pareto.Better up (val q).exact (val w).exact
  · rw [decide_eq_true hb, if_pos hb]
    rfl
  · rw [decide_eq_false hb, if_neg hb]
    rfl

/-- **The scan keeps the best so far**: from a scored pick, the fold that
takes each next identity better than its pick answers, and changes nothing,
one of the pick and the next identities, at least as good as all of them. -/
theorem scan_run (hs : s.Sound (Fitness.Scalar up)) (hrated : s.Rated ids val) :
    ∀ (qs : List Nat) (w : Nat), w ∈ ids → (∀ q ∈ qs, q ∈ ids) →
      ∃ c, (qs.foldlM (fun w p => do if ← Run.better p (some w) then pure p else pure w) w).run s = .ok c s ∧
        c ∈ w :: qs ∧ ∀ q ∈ w :: qs, Pareto.AtLeast up (val c).exact (val q).exact
  | [], w, _, _ => ⟨w, rfl, List.mem_singleton_self w, fun q hq => by
      rw [List.mem_singleton.1 hq]
      exact Pareto.AtLeast.refl _ _⟩
  | q :: qs, w, hw, hqs => by
    have hq := hqs q List.mem_cons_self
    have hrest : ∀ q' ∈ qs, q' ∈ ids := fun q' hq' => hqs q' (List.mem_cons_of_mem q hq')
    -- the scan goes on from the next pick
    have hnext : ∀ c, (qs.foldlM (fun w p => do if ← Run.better p (some w) then pure p else pure w)
        (if Pareto.Better up (val q).exact (val w).exact then q else w)).run s = .ok c s →
        ((q :: qs).foldlM (fun w p => do if ← Run.better p (some w) then pure p else pure w) w).run s =
          .ok c s := fun c hc => by
      rw [List.foldlM_cons, bind_run_ok]
      exact ⟨_, s, scan_step_run hs hrated hq hw, hc⟩
    by_cases hb : Pareto.Better up (val q).exact (val w).exact
    · obtain ⟨c, hc, hmem, hle⟩ := scan_run hs hrated qs q hq hrest
      rw [if_pos hb] at hnext
      refine ⟨c, hnext c hc, List.mem_cons_of_mem w hmem, fun p hp => ?_⟩
      rcases List.mem_cons.1 hp with rfl | hp
      · exact (hle q List.mem_cons_self).trans hb.atLeast
      · exact hle p hp
    · obtain ⟨c, hc, hmem, hle⟩ := scan_run hs hrated qs w hw hrest
      rw [if_neg hb] at hnext
      refine ⟨c, hnext c hc, ?_, fun p hp => ?_⟩
      · rcases List.mem_cons.1 hmem with rfl | hmem
        · exact List.mem_cons_self
        · exact List.mem_cons_of_mem w (List.mem_cons_of_mem q hmem)
      · rcases List.mem_cons.1 hp with rfl | hp
        · exact hle p List.mem_cons_self
        · rcases List.mem_cons.1 hp with rfl | hp
          · exact (hle w List.mem_cons_self).trans (Pareto.atLeast_of_not_better hb)
          · exact hle p (List.mem_cons_of_mem w hp)

/-- **A tournament with a participant has a winner**, one of its
participants, and choosing it changes nothing. -/
theorem winner_run (hs : s.Sound (Fitness.Scalar up)) (hrated : s.Rated ids val) :
    ∀ (ps : List Nat), ps ≠ [] → (∀ p ∈ ps, p ∈ ids) → ∃ c, (winner ps).run s = .ok c s ∧ c ∈ ps
  | [], hne, _ => absurd rfl hne
  | first :: rest, _, hps => by
    obtain ⟨c, hc, hmem, -⟩ := scan_run hs hrated rest first (hps first List.mem_cons_self)
      fun q hq => hps q (List.mem_cons_of_mem first hq)
    exact ⟨c, hc, hmem⟩

/-- **The tournaments are drawn**: one per winner wanted, each with `size`
participants, all positions of the population; drawing changes no
individual. -/
theorem tournaments_run {n : Nat} (count : Nat) {size : Int} {w : Bool} (hsize : 0 < size) (hcap : w = true ∨ size ≤ n)
    (hn : n < 2 ^ 53) (hcount : 0 < count → 0 < n) (P : Store → Prop)
    (hP : ∀ s l, P s → P { s with lab := { s.lab with stream := l } }) {s : Store} (hs : P s) :
    ∃ ts s', ((List.range count).mapM fun _ =>
        if w = true then draw (Draw.pick n size.toNat)
        else if size < 0 then throw (Fault.value "Sample larger than population or is negative")
        else draw (Draw.sample n size.toNat)).run s = .ok ts s' ∧
      (∀ t ∈ ts, t.length = size.toNat ∧ ∀ i ∈ t, i < n) ∧ P s' := by
  refine mapM_run_ok P (fun t : List Nat => t.length = size.toNat ∧ ∀ i ∈ t, i < n) _ (fun c hc s hs => ?_) s hs
  have hn0 : 0 < n := hcount (List.length_pos_of_mem hc |>.trans_eq List.length_range)
  by_cases hw : w = true
  · rw [if_pos hw]
    obtain ⟨hlen, hlt⟩ := Random.Stream.pick_spec hn0 hn size.toNat s.lab.stream
    exact ⟨_, _, draw_run rfl, ⟨hlen, hlt⟩, hP s _ hs⟩
  · have hle : size.toNat ≤ n := by
      rcases hcap with hcap | hcap
      · exact absurd hcap hw
      · omega
    rw [if_neg hw, if_neg (by omega)]
    -- without replacement the sample is drawn, the population being large enough
    obtain ⟨out, st, hsample⟩ : ∃ out st, Random.Stream.sample n size.toNat s.lab.stream = .ok (out, st) := by
      unfold Random.Stream.sample
      rw [if_neg (by omega)]
      split <;> exact ⟨_, _, rfl⟩
    obtain ⟨hlen, hlt⟩ := Random.Stream.sample_spec hsample
    exact ⟨out, _, draw_run (Draw.tryStream_run hsample), ⟨hlen, hlt⟩, hP s _ hs⟩

/-- The check of a tournament selection passes when its tournaments are
drawn with replacement or are no larger than the population. -/
theorem capacity_check {w : Bool} {n : Nat} {size : Int} (hcap : w = true ∨ size ≤ n) :
    ¬ ((!w && decide ((n : Int) < size)) = true) := by
  rcases hcap with rfl | hcap
  · simp
  · simp only [Bool.and_eq_true, Bool.not_eq_true', decide_eq_true_eq, not_and, not_lt]
    intro _
    exact hcap

/-- The participants of a tournament of positions of the source are members
of the source. -/
theorem participant_mem {source t : List Nat} (hlt : ∀ i ∈ t, i < source.length) {p : Nat}
    (hp : p ∈ t.map fun i => source.getD i 0) : p ∈ source := by
  obtain ⟨i, hi, rfl⟩ := List.mem_map.1 hp
  exact getD_mem_of_lt (hlt i hi) 0

/-- **A tournament selection over scored individuals answers** when each
tournament has a participant, and, drawn without replacement, no more than
the population. -/
theorem select_tournament_run {sel : Selection} {size : Int} {w : Bool}
    (hch : sel.choice = .tournament size (.bool w)) (hsize : 0 < size) (source dest : List Nat)
    (hcap : w = true ∨ size ≤ source.length) (hn : source.length < 2 ^ 53)
    (hs : s.Sound (Fitness.Scalar up)) (hrated : s.Rated source val) :
    ∃ r s', (sel.select source dest).run s = .ok r s' := by
  have hstored : ∀ f : Fitness, f.Scalar up → f.stored.Scalar up := fun _ h => h.stored
  -- what every step keeps: a sound store, with the population scored
  let P : Store → Prop := fun s => s.Sound (Fitness.Scalar up) ∧ s.Rated source val
  have hP : ∀ s l, P s → P { s with lab := { s.lab with stream := l } } := fun s l h => h
  obtain ⟨ts, s₁, hts, hts_ok, hs₁⟩ := tournaments_run ((source.length : Int) - dest.length).toNat
    hsize hcap hn (fun hc => by omega) P hP ⟨hs, hrated⟩
  -- each winner is a scored member, and its copy keeps the population scored
  obtain ⟨ws, s₂, hws, -, -⟩ := @mapM_run_ok _ _ (fun t => winner (t.map fun i => source.getD i 0) >>= sel.copy)
    P (fun _ => True) ts (fun t ht s' hs' => by
      obtain ⟨hlen, hlt⟩ := hts_ok t ht
      have hne : t ≠ [] := List.ne_nil_of_length_pos (by omega)
      obtain ⟨c, hc, hmem⟩ := winner_run hs'.1 hs'.2 (t.map fun i => source.getD i 0)
        (by simpa using hne) fun p hp => participant_mem hlt hp
      obtain ⟨j, hj, -⟩ := hs'.2 c (participant_mem hlt hmem)
      obtain ⟨s'', hcopy, -⟩ := copy_run hj sel
      have hconf := (confined_copy hstored sel c : Confined (Fitness.Scalar up) (fun _ => False) _).run_ok hs'.1 hcopy
      refine ⟨s'.lab.nextId, s'', ?_, trivial, hconf.1, hs'.2.of_spares hs'.1 hconf.2 fun _ _ h => h⟩
      rw [bind_run_ok]
      exact ⟨c, s', hc, hcopy⟩) s₁ hs₁
  refine ⟨dest ++ ws, s₂, ?_⟩
  rw [select, hch]
  dsimp only
  rw [ofExcept_bind_run_ok]
  refine ⟨w, Value.truth_bool w, ?_⟩
  rw [if_neg (capacity_check hcap), bind_run_ok]
  exact ⟨ts, s₁, hts, by rw [bind_run_ok]; exact ⟨ws, s₂, hws, rfl⟩⟩

/-! ### Tournaments without participants -/

/-- A tournament of no participant, drawn with replacement, draws nothing. -/
theorem draw_pick_zero_run (n : Nat) (s : Store) : (draw (Draw.pick n 0)).run s = .ok [] s :=
  draw_run rfl

theorem mapM_pick_zero_run (n : Nat) : ∀ (xs : List Nat) (s : Store),
    (xs.mapM fun _ => draw (Draw.pick n 0)).run s = .ok (xs.map fun _ => []) s
  | [], _ => rfl
  | _ :: xs, s => by
    simp only [List.mapM_cons, EStateM.run_bind, draw_pick_zero_run, mapM_pick_zero_run n xs]
    rfl

/-- **A tournament without participants has no winner**: a tournament
selection with replacement and no participant per tournament fails with an
index error as soon as it wants a winner. -/
theorem select_empty_tournaments_run {sel : Selection} {size : Int} (hch : sel.choice = .tournament size (.bool true))
    (hsize : size ≤ 0) {source dest : List Nat} (hlen : dest.length < source.length) (s : Store) :
    ∃ s', (sel.select source dest).run s = .error Fault.listIndex s' := by
  have htruth : (Run.ofExcept (Except.ok true : Except Fault Bool)).run s = .ok true s := rfl
  -- at least one tournament is held, the first of them empty
  obtain ⟨k, hk⟩ : ∃ k, ((source.length : Int) - dest.length).toNat = k + 1 :=
    ⟨_, (Nat.succ_pred_eq_of_pos (by omega)).symm⟩
  rw [select, hch]
  dsimp only
  simp only [EStateM.run_bind, Value.truth_bool, Int.toNat_of_nonpos hsize, htruth, Bool.not_true, Bool.false_and,
    Bool.false_eq_true, if_false, if_true, mapM_pick_zero_run, hk, List.range_succ_eq_map, List.mapM_cons,
    List.map_nil, winner, draw_pick_zero_run, EStateM.run_pure]
  exact ⟨_, rfl⟩

end Selection

end Evolver
