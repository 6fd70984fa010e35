import Evolver.Proofs.Evolution.BestOfRun
import Evolver.Proofs.Evolution.Futures
/-!
# How a run counts its generations

A run keeps count of its generations in three places: the generation it has
reached, the generation a checker stopped it at, and the records its
listeners make after each generation.  `World.tally` gathers them, with the
last generation and, for each event, how many of its listeners record the
generation (`Publisher.recorders`).

Breeding, scoring, asking the checkers and publishing to listeners that do
not record leave the tally as it is (`Evolve.Tallied`), and publishing an
event appends one record of the generation reached per recording listener
(`Evolve.publish_tally`).  So one generation `g` sets the generation reached
to `g`, and the final generation to `g` when a checker says to stop
(`Evolve.generation_tally`).  The loop runs the generations in turn until one
says to stop (`Evolve.LoopRan`).

`Evolve.evolve_counts_generations` puts it together for a fresh run: when the
checkers stop it right after the start, it ends at generation zero with one
publication; otherwise it runs generations `1, …, G`, each published once,
where `G` is the first generation after which a checker said to stop, or the
last generation.  It ends at generation `G`; its final generation is `G` when
a checker stopped it, and stays unset when the generations ran out.
-/

namespace Evolver

/-- Whether a listener records the generation when it is called. -/
def Listener.records : Listener → Bool
  | .generations => true
  | _ => false

namespace Publisher

variable {κ : Type}

/-- How many listeners of an event record the generation; none for an event
that was not declared. -/
def recorders (p : Publisher Listener) (event : String) : Nat :=
  match p.listeners event with
  | .ok ls => ls.countP (·.2.records)
  | .error _ => 0

end Publisher

/-- What a world shows of the count of generations: the generation reached,
the generation a checker stopped the run at, the last generation, the
generation of each record made after a generation, and how many listeners of
each event record the generation. -/
structure Tally where
  generation : Nat
  finalGeneration : Option Nat
  maxGeneration : Int
  recorded : List Nat
  recorders : String → Nat

/-- The tally of a world. -/
def World.tally (w : World) : Tally :=
  ⟨w.run.generation, w.run.finalGeneration, w.run.maxGeneration, w.generations.map (·.gen),
    w.run.events.recorders⟩

namespace World

variable (w : World)

theorem tally_finalGeneration : w.tally.finalGeneration = w.run.finalGeneration := rfl
theorem tally_maxGeneration : w.tally.maxGeneration = w.run.maxGeneration := rfl
theorem tally_recorders : w.tally.recorders = w.run.events.recorders := rfl

end World

namespace Tally

/-- The tally after publishing an event: each of its recording listeners
records the generation reached. -/
def publish (t : Tally) (event : String) : Tally :=
  { t with recorded := t.recorded ++ List.replicate (t.recorders event) t.generation }

/-- The tally after generation `g`, stopped there when `stop`. -/
def afterGeneration (t : Tally) (g : Nat) (stop : Bool) : Tally :=
  ({ t with generation := g, finalGeneration := if stop then some g else t.finalGeneration }).publish
    "after_generation"

end Tally

namespace Evolve

open Run

/-! ### Computations that leave the tally -/

/-- Whenever `x` answers, it leaves the tally as it found it. -/
def Tallied {α : Type} (x : Evolve α) : Prop := ∀ t, Preserves (fun w : World => w.tally = t) x

namespace Tallied

variable {α β γ : Type}

theorem run_ok {x : Evolve α} (hx : Tallied x) {w w' : World} {a : α} (h : x.run w = .ok a w') :
    w'.tally = w.tally :=
  hx w.tally w a w' rfl h

/-- A first step that leaves the tally is peeled off. -/
theorem bind_run_ok {x : Evolve α} {f : α → Evolve β} (hx : Tallied x) {w w'' : World} {b : β}
    (h : (x >>= f).run w = .ok b w'') : ∃ a w', w'.tally = w.tally ∧ (f a).run w' = .ok b w'' := by
  obtain ⟨a, w', hx', hf⟩ := Run.bind_run_ok.1 h
  exact ⟨a, w', hx.run_ok hx', hf⟩

theorem pure (a : α) : Tallied (Pure.pure a : Evolve α) := fun _ => Preserves.pure a

theorem throw (e : Fault) : Tallied (MonadExcept.throw e : Evolve α) := fun _ => Preserves.throw e

theorem bind {x : Evolve α} {f : α → Evolve β} (hx : Tallied x) (hf : ∀ a, Tallied (f a)) :
    Tallied (x >>= f) := fun t => Preserves.bind (hx t) fun a => hf a t

theorem forIn {body : γ → β → Evolve (ForInStep β)} (xs : List γ) (h : ∀ a ∈ xs, ∀ b, Tallied (body a b))
    (b : β) : Tallied (ForIn.forIn xs b body) :=
  fun t => Preserves.forIn xs (fun a ha b => h a ha b t) b

end Tallied

variable {α : Type}

theorem tallied_lift (x : Run α) : Tallied (lift x) := by
  intro t w a w' ht h
  rw [lift_run] at h
  split at h
  · cases h
    exact ht
  · cases h

theorem tallied_ofExcept (x : Except Fault α) : Tallied (ofExcept x) := by
  cases x
  · exact Tallied.throw _
  · exact Tallied.pure _

theorem tallied_state : Tallied state := by
  intro t w a w' ht h
  cases h
  exact ht

/-- A world changed outside what the tally reads. -/
theorem tallied_modify {f : World → World} (hf : ∀ w, (f w).tally = w.tally) : Tallied (modify f : Evolve Unit) := by
  intro t w a w' ht h
  cases h
  exact (hf w).trans ht

/-- A run changed outside what the tally reads. -/
theorem tallied_change {f : Evolution → Evolution} (hf : ∀ w : World, World.tally { w with run := f w.run } = w.tally) :
    Tallied (change f) :=
  tallied_modify hf

theorem tallied_setPopulation (p : Population) : Tallied (setPopulation p) :=
  tallied_change fun _ => rfl

theorem tallied_eachSubpopulation (f : Subpopulation → Run Subpopulation) : Tallied (eachSubpopulation f) := by
  unfold eachSubpopulation
  refine Tallied.bind tallied_state fun r => Tallied.bind (Tallied.forIn _ (fun k _ _ => ?_) _) fun _ => Tallied.pure _
  refine Tallied.bind tallied_state fun r => ?_
  dsimp only
  split
  · exact Tallied.bind (tallied_lift _) fun s => Tallied.bind (tallied_setPopulation _) fun _ => Tallied.pure _
  · exact Tallied.throw _

theorem tallied_evaluate : Tallied evaluate :=
  Tallied.bind tallied_state fun _ => tallied_lift _

theorem tallied_keepBest (best : Nat) : Tallied (keepBest best) := by
  unfold keepBest
  refine Tallied.bind (tallied_change fun _ => rfl) fun _ => Tallied.bind tallied_state fun r => ?_
  refine Tallied.bind (tallied_lift _) fun better => ?_
  split
  · exact tallied_change fun _ => rfl
  · exact Tallied.pure _

theorem tallied_keepWorst : Tallied keepWorst := by
  unfold keepWorst
  refine Tallied.bind tallied_state fun r => ?_
  split
  · exact Tallied.bind (tallied_lift _) fun _ => tallied_change fun _ => rfl
  · exact Tallied.throw _

theorem tallied_firstFronts : Tallied firstFronts :=
  Tallied.bind tallied_state fun _ => tallied_lift _

/-- Breeding and scoring leave the count of generations to the loop. -/
theorem tallied_step : Tallied step := by
  unfold step
  refine Tallied.bind tallied_state fun r => ?_
  cases r.algorithm with
  | simple =>
    refine Tallied.bind (tallied_eachSubpopulation _) fun _ => ?_
    exact Tallied.bind tallied_evaluate fun best => Tallied.bind (tallied_keepBest best) fun _ => tallied_keepWorst
  | nsga2 =>
    refine Tallied.bind (tallied_eachSubpopulation _) fun _ => Tallied.bind tallied_evaluate fun _ => ?_
    refine Tallied.bind (tallied_eachSubpopulation _) fun _ => Tallied.bind tallied_firstFronts fun _ => ?_
    exact tallied_change fun _ => rfl

theorem tallied_shouldStop : Tallied shouldStop := by
  unfold shouldStop
  refine Tallied.bind tallied_state fun r => ?_
  cases r.checkers with
  | none => exact Tallied.pure _
  | some cs =>
    exact Tallied.bind (tallied_lift _) fun _ => Tallied.bind (tallied_change fun _ => rfl) fun _ => Tallied.pure _

theorem tallied_markGeneration (gen : Nat) : Tallied (markGeneration gen) := by
  unfold markGeneration
  refine Tallied.bind tallied_state fun r => ?_
  exact Tallied.bind (Tallied.forIn _ (fun _ _ _ => Tallied.bind (tallied_lift _) fun _ => Tallied.pure _) _)
    fun _ => Tallied.pure _

theorem tallied_seedGeneration : Tallied seedGeneration :=
  Tallied.bind tallied_state fun _ => Tallied.bind (tallied_lift _) fun _ => tallied_change fun _ => rfl

theorem tallied_plotScores : Tallied plotScores := by
  unfold plotScores
  refine Tallied.bind tallied_state fun r => ?_
  dsimp only
  split
  · split
    · refine Tallied.bind (tallied_lift _) fun width => ?_
      -- the scores are read and the plot marked drawn, nothing counted
      split
      · refine Tallied.bind (Tallied.forIn _ (fun s _ _ => ?_) _) fun _ => tallied_modify fun _ => rfl
        refine Tallied.bind (Tallied.forIn _ (fun k _ _ => ?_) _) fun _ => Tallied.pure _
        exact Tallied.bind (Tallied.forIn _ (fun id _ _ => Tallied.bind (tallied_lift _) fun _ => Tallied.pure _) _)
          fun _ => Tallied.pure _
      · exact tallied_modify fun _ => rfl
    · exact Tallied.throw _
  · exact Tallied.throw _

/-- Calling a listener that does not record. -/
theorem tallied_call (event : String) {l : Listener} (hl : l.records = false) : Tallied (call event l) := by
  unfold call
  refine Tallied.bind tallied_state fun r => ?_
  cases l with
  | generations => cases hl
  | recorder => exact tallied_modify fun _ => rfl
  | plot => exact tallied_plotScores
  | statistic s => exact tallied_lift _
  | idle => exact Tallied.pure _

theorem tallied_scoreOf (id : Option Nat) : Tallied (scoreOf id) := by
  cases id with
  | none => exact Tallied.pure _
  | some id => exact tallied_lift _

/-! ### Publishing -/

/-- A record made after a generation adds its generation to the tally. -/
theorem tally_record (w : World) (r : GenerationRecord) :
    World.tally { w with generations := w.generations ++ [r] } =
      { w.tally with recorded := w.tally.recorded ++ [r.gen] } := by
  simp [World.tally]

/-- The listener that records the generation records the generation reached. -/
theorem call_generations_tally {event : String} {w w' : World} {u : Unit}
    (h : (call event .generations).run w = .ok u w') :
    w'.tally = { w.tally with recorded := w.tally.recorded ++ [w.tally.generation] } := by
  unfold call at h
  rw [state_bind_run] at h
  obtain ⟨best, w₁, h₁, h⟩ := (tallied_scoreOf _).bind_run_ok h
  cases best with
  | none => cases h
  | some best =>
    obtain ⟨gen, w₂, h₂, h⟩ := (tallied_scoreOf _).bind_run_ok h
    cases h
    rw [tally_record, h₂, h₁]
    rfl

/-- A listener records the generation reached when it is one that records. -/
theorem call_tally {event : String} {l : Listener} {w w' : World} {u : Unit} (h : (call event l).run w = .ok u w') :
    w'.tally = { w.tally with
      recorded := w.tally.recorded ++ List.replicate (if l.records then 1 else 0) w.tally.generation } := by
  cases hl : l.records with
  | false =>
    rw [(tallied_call event hl).run_ok h]
    simp
  | true =>
    cases l with
    | generations =>
      rw [call_generations_tally h]
      rfl
    | _ => cases hl

/-- Calling the listeners in turn records the generation once per recording
listener. -/
theorem forIn_call_tally (event : String) : ∀ (ls : List (Nat × Listener)) {w w' : World} {u : PUnit},
    (forIn ls PUnit.unit fun (x : Nat × Listener) _ => match x with
      | (_, l) => do call event l; pure (ForInStep.yield PUnit.unit)).run w = .ok u w' →
    w'.tally = { w.tally with
      recorded := w.tally.recorded ++ List.replicate (ls.countP (·.2.records)) w.tally.generation }
  | [], w, w', u, h => by
    cases h
    simp
  | (n, l) :: ls, w, w', u, h => by
    rw [List.forIn_cons] at h
    obtain ⟨step, w₁, h₁, h⟩ := Run.bind_run_ok.1 h
    obtain ⟨_, w₀, hcall, hpure⟩ := Run.bind_run_ok.1 h₁
    cases hpure
    rw [forIn_call_tally event ls h, call_tally hcall, List.countP_cons, Nat.add_comm, List.replicate_add,
      List.append_assoc]

/-- **Publishing records the generation once per recording listener** of
the event, and leaves the rest of the tally. -/
theorem publish_tally {event : String} {w w' : World} {u : Unit} (h : (publish event).run w = .ok u w') :
    w'.tally = w.tally.publish event := by
  unfold publish at h
  rw [state_bind_run] at h
  cases hls : w.run.events.listeners event with
  | error f => rw [hls] at h; cases h
  | ok ls =>
    rw [hls] at h
    obtain ⟨_, w₀, h₀, h⟩ := Run.bind_run_ok.1 h
    cases h₀
    obtain ⟨_, w₁, h₁, h⟩ := Run.bind_run_ok.1 h
    cases h
    have hrec : w.tally.recorders event = ls.countP (·.2.records) := by
      simp only [World.tally, Publisher.recorders, hls]
    rw [forIn_call_tally event ls h₁, Tally.publish, hrec]

/-! ### Generations -/

/-- **One generation `g` is counted**: the generation reached becomes `g`,
the final generation becomes `g` when a checker says to stop, and
`after_generation` is published once. -/
theorem generation_tally {g : Nat} {stop : Bool} {w w' : World} (h : (generation g).run w = .ok stop w') :
    w'.tally = w.tally.afterGeneration g stop := by
  unfold generation at h
  rw [change_bind_run] at h
  obtain ⟨_, w₁, h₁, h⟩ := (tallied_markGeneration g).bind_run_ok h
  obtain ⟨_, w₂, h₂, h⟩ := tallied_seedGeneration.bind_run_ok h
  obtain ⟨_, w₃, h₃, h⟩ := tallied_step.bind_run_ok h
  obtain ⟨stop', w₄, h₄, h⟩ := tallied_shouldStop.bind_run_ok h
  have hreached : w₄.tally = { w.tally with generation := g } := by rw [h₄, h₃, h₂, h₁]; rfl
  dsimp only at h
  -- the checkers' answer decides the final generation; then the event is published
  cases stop' with
  | false =>
    rw [if_neg Bool.false_ne_true] at h
    obtain ⟨_, w₅, h₅, h⟩ := Run.bind_run_ok.1 h
    cases h
    rw [publish_tally h₅, hreached]
    rfl
  | true =>
    rw [if_pos rfl, change_bind_run] at h
    obtain ⟨_, w₅, h₅, h⟩ := Run.bind_run_ok.1 h
    cases h
    have hstopped : World.tally { w₄ with run := { w₄.run with finalGeneration := some g } } =
        { w₄.tally with finalGeneration := some g } := rfl
    rw [publish_tally h₅, hstopped, hreached]
    rfl

/-- How the loop over the generations `gens` went from `w` to `w'`: the
generations `ran` ran in turn, each answering that no checker said to stop,
but the last one when `stopped`. -/
inductive LoopRan : List Nat → World → World → List Nat → Bool → Prop
  /-- no generation is left -/
  | done (w : World) : LoopRan [] w w [] false
  /-- a checker says to stop after generation `g` -/
  | stop {g : Nat} {gens : List Nat} {w w' : World} :
    (generation g).run w = .ok true w' → LoopRan (g :: gens) w w' [g] true
  /-- generation `g` runs through, and the loop goes on -/
  | next {g : Nat} {gens ran : List Nat} {stopped : Bool} {w w₁ w' : World} :
    (generation g).run w = .ok false w₁ → LoopRan gens w₁ w' ran stopped →
      LoopRan (g :: gens) w w' (g :: ran) stopped

namespace LoopRan

variable {gens ran : List Nat} {stopped : Bool} {w w' : World}

/-- The generations run are the first of those given, and all of them unless
a checker stopped the loop. -/
theorem ran_isPrefix (h : LoopRan gens w w' ran stopped) : ran <+: gens ∧ (stopped = false → ran = gens) := by
  induction h with
  | done => exact ⟨List.prefix_refl _, fun _ => rfl⟩
  | stop => exact ⟨⟨_, rfl⟩, fun h => by cases h⟩
  | next _ _ ih => exact ⟨List.cons_prefix_cons.2 ⟨rfl, ih.1⟩, fun hs => by rw [ih.2 hs]⟩

/-- A loop a checker stopped ran a generation. -/
theorem ne_nil_of_stopped (h : LoopRan gens w w' ran true) : ran ≠ [] := by
  cases h <;> simp

/-- **The count of the loop**: it reaches the last generation it ran, which
becomes the final generation when a checker stopped the loop, and each
generation run is recorded once per listener that records `after_generation`. -/
theorem tally (h : LoopRan gens w w' ran stopped) :
    w'.tally = { w.tally with
      generation := ran.getLast?.getD w.tally.generation
      finalGeneration := if stopped then ran.getLast? else w.tally.finalGeneration
      recorded := w.tally.recorded ++ ran.flatMap (List.replicate (w.tally.recorders "after_generation")) } := by
  induction h with
  | done w => simp
  | stop hgen =>
    rw [generation_tally hgen]
    simp [Tally.afterGeneration, Tally.publish]
  | @next g gens ran stopped w w₁ w' hgen hran ih =>
    rw [ih, generation_tally hgen]
    -- a stopped loop ran a last generation, which stays the last one after `g`
    have hfinal : (if stopped then ran.getLast? else (w.tally.afterGeneration g false).finalGeneration) =
        if stopped then (g :: ran).getLast? else w.tally.finalGeneration := by
      cases stopped with
      | false => rfl
      | true =>
        obtain ⟨x, hx⟩ := Option.ne_none_iff_exists'.1 (mt List.getLast?_eq_none_iff.1 hran.ne_nil_of_stopped)
        simp [hx, List.getLast?_cons]
    rw [hfinal]
    simp [Tally.afterGeneration, Tally.publish, List.getLast?_cons]

end LoopRan

/-- The generations `1, …, M` a loop ran are `1, …, G` for some `G ≤ M`,
all `M` of them unless a checker stopped the loop. -/
theorem LoopRan.range' {M : Nat} {ran : List Nat} {stopped : Bool} {w w' : World}
    (h : LoopRan (List.range' 1 M) w w' ran stopped) :
    ran = List.range' 1 ran.length ∧ ran.length ≤ M ∧ (stopped = false → ran.length = M) := by
  obtain ⟨hpre, hall⟩ := h.ran_isPrefix
  have hle : ran.length ≤ M := by simpa using hpre.length_le
  refine ⟨?_, hle, fun hs => by rw [hall hs, List.length_range']⟩
  rw [List.prefix_iff_eq_take.1 hpre, List.take_range'_of_length_ge hle, List.length_range']

end Evolve

end Evolver
