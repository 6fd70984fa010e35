import Evolver.Proofs.Breed.Operators
import Evolver.Proofs.Store.Preserves
import Evolver.Proofs.Random.Positions
/-!
# An attempt of a point mutation

An attempt of a point mutation gives each member of its group a turn, in
order (`Operator.redrawMember`): the genes the mutation chooses get new
values, and the vector is checked against its bounds.  A member whose new
genes fail the check gets its old genes back, and the attempt stops there.

One turn is described by `Mutation.Turn`: the member's vector was redrawn at
the chosen genes at most (`Chromosome.RedrawnAt`), and the member keeps the
new vector when it passed the check and gets its old genes back when it did
not (`Operator.redrawMember_run`).  A whole attempt is a run of turns up to the
first that fails (`Operator.mutatePoints_turns_up_to_first_failure`): the
members before it keep their new genes, the failing member alone gets its
genes back, and the members after it are not reached.  So a failed attempt
does not leave its group as it found it.
-/

namespace Evolver

/-- A position given as a natural number names itself. -/
theorem resolveIndex_natCast {n p j : Nat} (h : resolveIndex n p = some j) : j = p := by
  unfold resolveIndex at h
  have hp : ¬ ((p : Int) < 0) := by omega
  simp only [hp, if_false] at h
  split at h
  · cases h
    simp
  · cases h

namespace Draw

/-- A draw that may fail and answered took its answer from the stream. -/
theorem tryStream_run_ok {α : Type} {f : Random.Stream → Except Fault (α × Random.Stream)} {l l' : Lab} {a : α}
    (h : (tryStream f).run l = .ok a l') : ∃ st, f l.stream = .ok (a, st) := by
  simp only [tryStream, EStateM.run_bind, EStateM.run_get] at h
  split at h
  · rename_i a' st hf
    simp only [EStateM.run_bind, EStateM.run_set, EStateM.run_pure] at h
    cases h
    exact ⟨st, hf⟩
  · cases h

end Draw

namespace Chromosome

/-- `c'` is `c` with new genes at the positions `cells` at most: the same
alphabet and bounds, as many genes, and every gene at another position as it
was.  The recorded length is not looked at. -/
def RedrawnAt (c c' : Chromosome) (cells : List Nat) : Prop :=
  c'.alphabet = c.alphabet ∧ c'.bounds = c.bounds ∧ c'.genes.length = c.genes.length ∧
    ∀ j, j ∉ cells → c'.genes[j]? = c.genes[j]?

theorem RedrawnAt.refl (c : Chromosome) (cells : List Nat) : c.RedrawnAt c cells :=
  ⟨rfl, rfl, rfl, fun _ _ => rfl⟩

/-- A vector redrawn at `cells₁`, then at `cells₂`, is redrawn at both. -/
theorem RedrawnAt.trans {c c₁ c₂ : Chromosome} {cells₁ cells₂ : List Nat} (h₁ : c.RedrawnAt c₁ cells₁)
    (h₂ : c₁.RedrawnAt c₂ cells₂) : c.RedrawnAt c₂ (cells₁ ++ cells₂) := by
  obtain ⟨ha₁, hb₁, hn₁, hj₁⟩ := h₁
  obtain ⟨ha₂, hb₂, hn₂, hj₂⟩ := h₂
  refine ⟨ha₂.trans ha₁, hb₂.trans hb₁, hn₂.trans hn₁, fun j hj => ?_⟩
  rw [List.mem_append, not_or] at hj
  exact (hj₂ j hj.2).trans (hj₁ j hj.1)

/-- Setting a gene at one of the positions keeps a vector redrawn there. -/
theorem RedrawnAt.setGene {c c₁ c₂ : Chromosome} {cells : List Nat} {p : Nat} {g : Value}
    (h : c.RedrawnAt c₁ cells) (hp : p ∈ cells) (hset : c₁.setGene p g = .ok c₂) : c.RedrawnAt c₂ cells := by
  obtain ⟨ha, hb, hn, hj⟩ := h
  unfold Chromosome.setGene at hset
  split at hset
  · rename_i j hres
    cases hset
    obtain rfl := resolveIndex_natCast hres
    refine ⟨ha, hb, (List.length_set ..).trans hn, fun k hk => ?_⟩
    have hne : j ≠ k := fun hjk => hk (hjk ▸ hp)
    rw [List.getElem?_set_ne hne]
    exact hj k hk
  · cases hset

end Chromosome

namespace Mutation

/-- The genes a mutation may choose in a vector of `n` genes: as many as its
count, each a position of the vector, or every gene in order. -/
def Selects (m : Mutation) (n : Nat) (cells : List Nat) : Prop :=
  match m.count with
  | some k => 0 ≤ k ∧ cells.length = k.toNat ∧ ∀ p ∈ cells, p < n
  | none => cells = List.range n

/-- Choosing the genes answers genes the mutation may choose, and changes no
individual. -/
theorem selectCells_run {m : Mutation} {n : Nat} {s s' : Store} {cells : List Nat}
    (h : (m.selectCells n).run s = .ok cells s') : m.Selects n cells ∧ s'.individuals = s.individuals := by
  unfold selectCells at h
  unfold Selects
  cases hk : m.count with
  | none =>
    rw [hk] at h
    dsimp only at h ⊢
    obtain ⟨rfl, rfl⟩ := Run.pure_run_ok.1 h
    exact ⟨rfl, rfl⟩
  | some k =>
    rw [hk] at h
    dsimp only at h ⊢
    by_cases hneg : k < 0
    · rw [if_pos hneg] at h
      cases h
    · rw [if_neg hneg] at h
      obtain ⟨hd, hind⟩ := Run.draw_run_ok h
      -- the sample answered, so it has as many positions as asked for
      obtain ⟨st, hst⟩ := Draw.tryStream_run_ok hd
      obtain ⟨hlen, hlt⟩ := Random.Stream.sample_spec hst
      exact ⟨⟨by omega, hlen, hlt⟩, hind⟩

/-- How one member's turn from `s` left it in `s'`, answering `b`: its vector
`c` was redrawn at genes the mutation chose, into `c'`, whose check answered
`b`; the member keeps `c'` when it passed, and gets the genes of `c` back
when it did not. -/
def Turn (m : Mutation) (s s' : Store) (id : Nat) (b : Bool) : Prop :=
  ∃ i c cells c', s.individuals[id]? = some i ∧ i.genome = .chromosome c ∧ m.Selects c.size cells ∧
    c.RedrawnAt c' cells ∧ c'.inBounds = .ok b ∧
    s'.individuals[id]? = some { i with genome := .chromosome (if b then c' else c.setGenes c.genes) }

/-- A turn reads and writes its own member only. -/
theorem Turn.congr {m : Mutation} {s s' t t' : Store} {id : Nat} {b : Bool} (h : m.Turn s s' id b)
    (ht : t.individuals[id]? = s.individuals[id]?) (ht' : t'.individuals[id]? = s'.individuals[id]?) :
    m.Turn t t' id b := by
  obtain ⟨i, c, cells, c', hi, hrest⟩ := h
  refine ⟨i, c, cells, c', ht.trans hi, ?_⟩
  rwa [ht']

end Mutation

namespace Operator

open Run

/-- A draw keeps every individual as it is. -/
theorem preserves_individuals_draw {α : Type} (d : Draw α) (X : Std.HashMap Nat Individual) :
    Preserves (fun t : Store => t.individuals = X) (draw d) :=
  fun _ _ _ hs h => (draw_run_ok h).2.trans hs

/-- Setting genes at positions of `cells`, one after another, redraws the
vector there at most, and changes no individual. -/
theorem foldlM_setGene_redrawnAt {c : Chromosome} {cells : List Nat} :
    ∀ (xs : List (Nat × Value)) {c₁ c₂ : Chromosome} {s s' : Store}, (∀ x ∈ xs, x.1 ∈ cells) →
      c.RedrawnAt c₁ cells → (xs.foldlM (fun c x => Run.ofExcept (c.setGene x.1 x.2)) c₁).run s = .ok c₂ s' →
        c.RedrawnAt c₂ cells ∧ s' = s
  | [], _, _, _, _, _, h₁, h => by
    obtain ⟨rfl, rfl⟩ := pure_run_ok.1 h
    exact ⟨h₁, rfl⟩
  | x :: xs, _, _, _, _, hxs, h₁, h => by
    rw [List.foldlM_cons, ofExcept_bind_run_ok] at h
    obtain ⟨c₃, hset, h⟩ := h
    exact foldlM_setGene_redrawnAt xs (fun y hy => hxs y (List.mem_cons_of_mem x hy))
      (h₁.setGene (hxs x List.mem_cons_self) hset) h

/-- **The end of a turn**: the new vector is set and checked, and the old
genes are put back when the check fails. -/
theorem setChecked_run {id : Nat} {c c' : Chromosome} {s s' : Store} {b : Bool} {i : Individual}
    (hi : s.individuals[id]? = some i) (hid : i.id = id)
    (h : (do
      Run.setGenome id (.chromosome c')
      if !(← Run.ofExcept c'.inBounds) then
        Run.setGenome id (.chromosome (c.setGenes c.genes))
        pure false
      else pure true : Run Bool).run s = .ok b s') :
    c'.inBounds = .ok b ∧
      s'.individuals[id]? = some { i with genome := .chromosome (if b then c' else c.setGenes c.genes) } ∧
      ∀ k, k ≠ id → s'.individuals[k]? = s.individuals[k]? := by
  rw [bind_run_ok] at h
  obtain ⟨_, s₁, hset, h⟩ := h
  obtain ⟨i₁, hi₁, rfl⟩ := setGenome_run_ok hset
  rw [hi, Option.some.injEq] at hi₁
  subst hi₁
  rw [ofExcept_bind_run_ok] at h
  obtain ⟨passed, hcheck, h⟩ := h
  cases passed with
  | true =>
    rw [if_neg (by decide)] at h
    obtain ⟨rfl, rfl⟩ := pure_run_ok.1 h
    refine ⟨hcheck, by simp [hid], fun k hk => ?_⟩
    simp [hid, Std.HashMap.getElem?_insert, Ne.symm hk]
  | false =>
    -- the new genes failed: the old ones are put back over them
    rw [if_pos (by decide), bind_run_ok] at h
    obtain ⟨_, s₂, hback, h⟩ := h
    obtain ⟨i₂, hi₂, rfl⟩ := setGenome_run_ok hback
    obtain ⟨rfl, rfl⟩ := pure_run_ok.1 h
    simp only [hid, Std.HashMap.getElem?_insert_self, Option.some.injEq] at hi₂
    subst hi₂
    refine ⟨hcheck, by simp [hid], fun k hk => ?_⟩
    simp [hid, Std.HashMap.getElem?_insert, Ne.symm hk]

/-- **One member's turn**: from a member kept under its own identity, a turn
that answers redraws the member's vector at the chosen genes and keeps or
undoes the change by the check; no other individual changes. -/
theorem redrawMember_run {m : Mutation} {id : Nat} {s s' : Store} {b : Bool}
    (hself : ∀ i, s.individuals[id]? = some i → i.id = id) (h : (redrawMember m id).run s = .ok b s') :
    m.Turn s s' id b ∧ ∀ k, k ≠ id → s'.individuals[k]? = s.individuals[k]? := by
  unfold redrawMember at h
  dsimp only at h
  -- the copy taken first only takes an identity
  rw [bind_run_ok] at h
  obtain ⟨_, s₁, hfresh, h⟩ := h
  have h₁ := (draw_run_ok hfresh).2
  rw [bind_run_ok] at h
  obtain ⟨i, s₂, hget, h⟩ := h
  obtain ⟨hi, rfl⟩ := get_run_ok hget
  rw [h₁] at hi
  rw [bind_run_ok] at h
  obtain ⟨cells, s₃, hcells, h⟩ := h
  obtain ⟨hsel, h₃⟩ := Mutation.selectCells_run hcells
  -- only a vector has genes to redraw
  split at h
  · rename_i c₀ hg
    rw [bind_run_ok] at h
    obtain ⟨c, s₄, hc, h⟩ := h
    obtain ⟨rfl, rfl⟩ := pure_run_ok.1 hc
    rw [bind_run_ok] at h
    obtain ⟨values, s₅, hvalues, h⟩ := h
    have h₅ : s₅.individuals = s₃.individuals :=
      Preserves.mapM cells (fun _ _ => preserves_individuals_draw _ s₃.individuals) s₃ values s₅ rfl hvalues
    rw [bind_run_ok] at h
    obtain ⟨c', s₆, hfold, h⟩ := h
    obtain ⟨hred, h₆⟩ := foldlM_setGene_redrawnAt _ (fun x hx => (List.of_mem_zip hx).1)
      (Chromosome.RedrawnAt.refl c₀ cells) hfold
    rw [h₆] at h
    have hi₅ : s₅.individuals[id]? = some i := by rw [h₅, h₃, h₁]; exact hi
    obtain ⟨hcheck, hmem, hothers⟩ := setChecked_run hi₅ (hself i hi) h
    have hsize : i.size = c₀.size := by simp [Individual.size, Genome.size, hg]
    refine ⟨⟨i, c₀, cells, c', hi, hg, hsize ▸ hsel, hred, hcheck, hmem⟩, fun k hk => ?_⟩
    rw [hothers k hk, h₅, h₃, h₁]
  · rw [bind_run_ok] at h
    obtain ⟨_, _, hc, -⟩ := h
    cases hc

/-- **An attempt of a point mutation is a run of turns up to the first that
fails.**  On a group of distinct members of a sound store, an attempt that
answers `b` took some `k` turns that passed, `b` telling whether that was
every member: each of the first `k` members keeps its vector redrawn at the
chosen genes, which passed the check; member `k`, when there is one, failed
the check and has its old genes back; and every other individual, the members
after `k` among them, is as it was. -/
theorem mutatePoints_turns_up_to_first_failure {F : Fitness → Prop} (m : Mutation) :
    ∀ {ids : List Nat} {s : Store}, s.Sound F → ids.Nodup → ∀ b s', (mutatePoints m ids).run s = .ok b s' →
      ∃ k ≤ ids.length, (b = true ↔ k = ids.length) ∧ (∀ id ∈ ids.take k, m.Turn s s' id true) ∧
        (∀ id, ids[k]? = some id → m.Turn s s' id false) ∧
        ∀ id, id ∉ ids.take (k + 1) → s'.individuals[id]? = s.individuals[id]?
  | [], s, _, _, b, s', h => by
    obtain ⟨rfl, rfl⟩ := pure_run_ok.1 h
    exact ⟨0, le_rfl, by simp, by simp, by simp, fun _ _ => rfl⟩
  | id :: ids, s, hs, hnd, b, s', h => by
    rw [mutatePoints, List.allM_cons, bind_run_ok] at h
    obtain ⟨b₁, s₁, hturn, h⟩ := h
    obtain ⟨hT, hframe⟩ := redrawMember_run (fun i hi => (hs id i hi).1) hturn
    obtain ⟨hnotin, hnd'⟩ := List.nodup_cons.1 hnd
    cases b₁ with
    | false =>
      -- the first member failed, and the attempt stops with it
      rw [if_neg (by decide)] at h
      obtain ⟨rfl, rfl⟩ := pure_run_ok.1 h
      refine ⟨0, Nat.zero_le _, by simp, by simp, fun id' hid' => ?_, fun id' hid' => ?_⟩
      · cases hid'
        exact hT
      · exact hframe id' (by simpa using hid')
    | true =>
      -- the first member passed; the rest of the attempt starts from the store it left
      rw [if_pos rfl] at h
      have hs₁ : s₁.Sound F := by
        have := ((confined_redrawMember m (T := (· = id)) rfl) s hs).1
        rwa [hturn, stateOf_ok] at this
      obtain ⟨k, hk, hb, hdone, hfail, hrest⟩ := mutatePoints_turns_up_to_first_failure m hs₁ hnd' b s' h
      -- the members after the first are not the first, so its turn left them as they were
      have hback : ∀ id', id' ∈ ids → s₁.individuals[id']? = s.individuals[id']? :=
        fun id' hid' => hframe id' fun he => hnotin (he ▸ hid')
      refine ⟨k + 1, Nat.succ_le_succ hk, by simpa using hb, fun id' hid' => ?_, fun id' hid' => ?_,
        fun id' hid' => ?_⟩
      · rw [List.take_succ_cons, List.mem_cons] at hid'
        rcases hid' with rfl | hid'
        · exact hT.congr rfl (hrest id' fun hm => hnotin (List.mem_of_mem_take hm))
        · exact (hdone id' hid').congr (hback id' (List.mem_of_mem_take hid')).symm rfl
      · rw [List.getElem?_cons_succ] at hid'
        exact (hfail id' hid').congr (hback id' (List.mem_of_getElem? hid')).symm rfl
      · rw [List.take_succ_cons, List.mem_cons, not_or] at hid'
        rw [hrest id' hid'.2, hframe id' hid'.1]

/-- An integer vector with the bounds [0, 9], not yet scored. -/
def boundedVector (id : Nat) (genes : List Int) : Individual :=
  ⟨id, .chromosome ⟨.ints, genes.map .int, .tuple [.int 0, .int 9], genes.length⟩, default, 0, [], [], [], false, []⟩

/-- Two vectors under identities 1 and 2: [1, 1] within its bounds, and
[20, 20] outside them, which no redrawn gene brings back. -/
def insideOutside : Store :=
  ⟨{ Lab.start with nextId := 3 },
    ((∅ : Std.HashMap Nat Individual).insert 1 (boundedVector 1 [1, 1])).insert 2 (boundedVector 2 [20, 20]), []⟩

theorem insideOutside_sound : insideOutside.Sound fun _ => True := by
  intro k i h
  simp only [insideOutside, Std.HashMap.getElem?_insert, beq_iff_eq] at h
  split_ifs at h with h2 h1
  · cases h
    subst h2
    exact ⟨rfl, by decide, trivial⟩
  · cases h
    subst h1
    exact ⟨rfl, by decide, trivial⟩
  · simp at h

theorem mutatePoints_turns_up_to_first_failure_insideOutside :
    insideOutside.Sound (fun _ => True) ∧ [1, 2].Nodup ∧
      ∀ b s', (mutatePoints (.intPoints 1) [1, 2]).run insideOutside = .ok b s' →
        ∃ k ≤ [1, 2].length, (b = true ↔ k = [1, 2].length) ∧
          (∀ id ∈ [1, 2].take k, (Mutation.intPoints 1).Turn insideOutside s' id true) ∧
          (∀ id, [1, 2][k]? = some id → (Mutation.intPoints 1).Turn insideOutside s' id false) ∧
          ∀ id, id ∉ [1, 2].take (k + 1) → s'.individuals[id]? = insideOutside.individuals[id]? :=
  ⟨insideOutside_sound, by decide,
    mutatePoints_turns_up_to_first_failure (.intPoints 1) insideOutside_sound (by decide)⟩

end Operator

end Evolver
