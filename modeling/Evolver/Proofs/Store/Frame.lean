import Evolver.Proofs.Run
/-!
# What a computation over the store leaves alone

A request keeps its individuals in one store, by identity, and hands out
identities one after another.  Two facts carry every statement about what a
generation does to the individuals that existed before it:

* the store is *sound* (`Store.Sound`): every individual is kept under its own
  identity, and every identity in use is below the next one to be handed out;
* a computation is *confined* to a set `T` of identities (`Run.Confined`): it
  keeps the store sound, never hands an identity back, and every individual
  that existed when it started and lies outside `T` has, when it ends, the
  genome and fitness it had (it *spares* them, `Store.Spares`), whether it
  answers or fails.

A draw only moves the identity counter forward (`Draw.Steady`), so a clone
takes an identity no individual had (`Run.confined_clone`); an update in
place touches one identity (`Run.confined_update`); reading, writing a
message and drawing touch none.  Confinement is closed under `bind`
(`Run.Confined.bind`) and so under every loop over a list
(`Run.Confined.forIn`, `Run.Confined.mapM`, `Run.Confined.foldlM`).
-/

namespace Evolver

/-- The state a result leaves, the answer's or the failure's. -/
def stateOf {ε σ α : Type} : EStateM.Result ε σ α → σ
  | .ok _ s => s
  | .error _ s => s

@[simp] theorem stateOf_ok {ε σ α : Type} (a : α) (s : σ) :
    stateOf (EStateM.Result.ok a s : EStateM.Result ε σ α) = s := rfl

@[simp] theorem stateOf_error {ε σ α : Type} (e : ε) (s : σ) :
    stateOf (EStateM.Result.error e s : EStateM.Result ε σ α) = s := rfl

/-! ### Draws hand no identity back -/

namespace Draw

/-- The next identity after a draw is at least the one before, whether the
draw answers or fails. -/
def Steady {α : Type} (d : Draw α) : Prop := ∀ l, l.nextId ≤ (stateOf (d.run l)).nextId

namespace Steady

theorem pure {α : Type} (a : α) : Steady (Pure.pure a : Draw α) := fun _ => Nat.le_refl _

theorem throw {α : Type} (e : Fault) : Steady (MonadExcept.throw e : Draw α) := fun _ => Nat.le_refl _

/-- What follows a failure never runs. -/
theorem throw_bind {α β : Type} (e : Fault) (f : α → Draw β) : Steady (MonadExcept.throw e >>= f) :=
  fun _ => Nat.le_refl _

theorem bind {α β : Type} {x : Draw α} {f : α → Draw β} (hx : Steady x) (hf : ∀ a, Steady (f a)) :
    Steady (x >>= f) := by
  intro l
  have h1 := hx l
  rw [EStateM.run_bind]
  cases h : x.run l with
  | ok a l1 =>
    rw [h, stateOf_ok] at h1
    exact Nat.le_trans h1 (hf a l1)
  | error e l1 =>
    rw [h, stateOf_error] at h1
    exact h1

theorem ofExcept {α : Type} (x : Except Fault α) : Steady (Draw.ofExcept x) := by
  cases x
  · exact throw _
  · exact pure _

theorem onStream {α : Type} (f : Random.Stream → α × Random.Stream) : Steady (Draw.onStream f) := by
  intro l
  simp only [Draw.onStream, EStateM.run_modifyGet, stateOf_ok]
  exact Nat.le_refl _

theorem tryStream {α : Type} (f : Random.Stream → Except Fault (α × Random.Stream)) :
    Steady (Draw.tryStream f) := by
  intro l
  simp only [Draw.tryStream, EStateM.run_bind, EStateM.run_get]
  split
  · simp only [EStateM.run_bind, EStateM.run_set, EStateM.run_pure, stateOf_ok]
    exact Nat.le_refl _
  · exact Nat.le_refl _

theorem random : Steady Draw.random := onStream _

theorem bits (k : Nat) : Steady (Draw.bits k) := onStream _

theorem gauss (mu sigma : Float) : Steady (Draw.gauss mu sigma) := onStream _

theorem pick (n k : Nat) : Steady (Draw.pick n k) := onStream _

theorem randint (a b : Value) : Steady (Draw.randint a b) := tryStream _

theorem uniform (a b : Value) : Steady (Draw.uniform a b) := tryStream _

theorem sample (n k : Nat) : Steady (Draw.sample n k) := tryStream _

theorem choice (n : Nat) : Steady (Draw.choice n) := by
  unfold Draw.choice
  split
  · exact throw _
  · exact onStream _

theorem legacyRandom : Steady Draw.legacyRandom := fun _ => Nat.le_refl _

theorem freshRef : Steady Draw.freshRef := fun _ => Nat.le_refl _

theorem freshId : Steady Draw.freshId := fun l => Nat.le_succ l.nextId

theorem seed (n : Int) : Steady (Draw.seed n) := by
  intro l
  simp only [Draw.seed, EStateM.run_bind, EStateM.run_modify]
  split
  · simp only [EStateM.run_modify, stateOf_ok]
    exact Nat.le_refl _
  · simp only [EStateM.run_throw, stateOf_error]
    exact Nat.le_refl _

theorem mapM {α β : Type} {f : α → Draw β} (hf : ∀ a, Steady (f a)) :
    ∀ xs : List α, Steady (xs.mapM f)
  | [] => pure _
  | x :: xs => by
    rw [List.mapM_cons]
    exact bind (hf x) fun b => bind (mapM hf xs) fun bs => pure _

end Steady

end Draw

/-! ### Sound stores and what a computation keeps -/

namespace Store

/-- Every individual is kept under its own identity, every identity in use
is below the next one to be handed out, and every fitness satisfies `F` (what
a run keeps of its fitnesses, such as their measure and direction). -/
def Sound (F : Fitness → Prop) (s : Store) : Prop :=
  ∀ k i, s.individuals[k]? = some i → i.id = k ∧ k < s.lab.nextId ∧ F i.fitness

/-- The genome and fitness of the individual of an identity, if there is one. -/
def core (s : Store) (k : Nat) : Option (Genome × Fitness) :=
  s.individuals[k]?.map fun i => (i.genome, i.fitness)

/-- From `s` to `s'` no identity was handed back, and every individual of `s`
outside `T` has the genome and fitness it had. -/
def Spares (T : Nat → Prop) (s s' : Store) : Prop :=
  s.lab.nextId ≤ s'.lab.nextId ∧ ∀ k, k < s.lab.nextId → ¬ T k → s'.core k = s.core k

namespace Spares

variable {T T' : Nat → Prop} {s s₁ s₂ : Store}

theorem refl (T : Nat → Prop) (s : Store) : s.Spares T s := ⟨Nat.le_refl _, fun _ _ _ => rfl⟩

theorem trans (h₁ : s.Spares T s₁) (h₂ : s₁.Spares T s₂) : s.Spares T s₂ :=
  ⟨Nat.le_trans h₁.1 h₂.1, fun k hk hT => (h₂.2 k (Nat.lt_of_lt_of_le hk h₁.1) hT).trans (h₁.2 k hk hT)⟩

theorem mono (h : s.Spares T s₁) (hT : ∀ k, T k → T' k) : s.Spares T' s₁ :=
  ⟨h.1, fun k hk hT' => h.2 k hk fun ht => hT' (hT k ht)⟩

/-- A change confined to `T`, then one confined to identities handed out
after the first store, together change only `T`. -/
theorem trans_fresh {T' : Nat → Prop} (h₁ : s.Spares T s₁) (h₂ : s₁.Spares T' s₂)
    (hT' : ∀ k, T' k → s.lab.nextId ≤ k) : s.Spares T s₂ :=
  ⟨Nat.le_trans h₁.1 h₂.1, fun k hk hT =>
    (h₂.2 k (Nat.lt_of_lt_of_le hk h₁.1) fun ht => absurd (hT' k ht) (Nat.not_le.2 hk)).trans (h₁.2 k hk hT)⟩

end Spares

/-- A sound store keeps nothing at or above the next identity. -/
theorem Sound.getElem?_eq_none {F : Fitness → Prop} {s : Store} (hs : s.Sound F) {k : Nat}
    (hk : s.lab.nextId ≤ k) : s.individuals[k]? = none := by
  cases h : s.individuals[k]? with
  | none => rfl
  | some i => exact absurd (hs k i h).2.1 (Nat.not_lt.2 hk)

end Store

namespace Run

/-- `x` keeps the store sound for `F`, hands no identity back, and leaves the
genome and fitness of every individual it found outside `T` as they were,
whether it answers or fails. -/
def Confined {α : Type} (F : Fitness → Prop) (T : Nat → Prop) (x : Run α) : Prop :=
  ∀ s, s.Sound F → (stateOf (x.run s)).Sound F ∧ s.Spares T (stateOf (x.run s))

/-- A bound computation that answers ran its first part to an answer, and
the rest from the state that part left. -/
theorem bind_run_ok {ε σ α β : Type} {x : EStateM ε σ α} {f : α → EStateM ε σ β} {s s'' : σ} {b : β} :
    (x >>= f).run s = .ok b s'' ↔ ∃ a s', x.run s = .ok a s' ∧ (f a).run s' = .ok b s'' := by
  rw [EStateM.run_bind]
  constructor
  · intro h
    cases hx : x.run s with
    | ok a s' => exact ⟨a, s', rfl, by rw [hx] at h; exact h⟩
    | error e s' => rw [hx] at h; cases h
  · rintro ⟨a, s', hx, hf⟩
    rw [hx]
    exact hf

theorem pure_run_ok {ε σ α : Type} {a b : α} {s s' : σ} :
    (Pure.pure a : EStateM ε σ α).run s = .ok b s' ↔ a = b ∧ s = s' := by
  constructor
  · intro h
    cases h
    exact ⟨rfl, rfl⟩
  · rintro ⟨rfl, rfl⟩
    rfl

theorem ofExcept_run_ok {α : Type} {x : Except Fault α} {a : α} {s s' : Store} :
    (ofExcept x).run s = .ok a s' ↔ x = .ok a ∧ s' = s := by
  cases x with
  | error e =>
    constructor
    · intro h
      cases h
    · rintro ⟨h, -⟩
      cases h
  | ok b =>
    constructor
    · intro h
      cases h
      exact ⟨rfl, rfl⟩
    · rintro ⟨h, rfl⟩
      cases h
      rfl

/-- A computation that may fail, followed by more, answers only when it did
not fail, from the same state. -/
theorem ofExcept_bind_run_ok {α β : Type} {x : Except Fault α} {f : α → Run β} {s s' : Store} {b : β} :
    (ofExcept x >>= f).run s = .ok b s' ↔ ∃ a, x = .ok a ∧ (f a).run s = .ok b s' := by
  rw [bind_run_ok]
  constructor
  · rintro ⟨a, s₁, hx, hf⟩
    obtain ⟨hxa, rfl⟩ := ofExcept_run_ok.1 hx
    exact ⟨a, hxa, hf⟩
  · rintro ⟨a, rfl, hf⟩
    exact ⟨a, s, rfl, hf⟩

/-- A loop over a list answers one item for each. -/
theorem mapM_length {γ α : Type} {f : γ → Run α} :
    ∀ (xs : List γ) {s s' : Store} {r : List α}, (xs.mapM f).run s = .ok r s' → r.length = xs.length
  | [], s, s', r, h => by
    cases h
    rfl
  | x :: xs, s, s', r, h => by
    rw [List.mapM_cons, bind_run_ok] at h
    obtain ⟨a, s₁, -, h⟩ := h
    rw [bind_run_ok] at h
    obtain ⟨as, s₂, has, h⟩ := h
    cases h
    simp [mapM_length xs has]

/-- Every answer `x` gives is `a`. -/
def Answers {α : Type} (x : Run α) (a : α) : Prop := ∀ s r s', x.run s = .ok r s' → r = a

theorem Answers.pure {α : Type} (a : α) : Answers (Pure.pure a : Run α) a := by
  intro s r s' h
  cases h
  rfl

/-- A failure answers nothing, so it answers whatever is asked of it. -/
theorem Answers.throw {α : Type} (e : Fault) (a : α) : Answers (MonadExcept.throw e : Run α) a := by
  intro s r s' h
  cases h

theorem Answers.throw_bind {α β : Type} (e : Fault) (f : α → Run β) (b : β) :
    Answers (MonadExcept.throw e >>= f) b := by
  intro s r s' h
  cases h

theorem Answers.bind {α β : Type} {x : Run α} {f : α → Run β} {b : β} (hx : ∀ a, Answers (f a) b) :
    Answers (x >>= f) b := by
  intro s r s' h
  rw [EStateM.run_bind] at h
  cases hr : x.run s with
  | ok a s₁ =>
    rw [hr] at h
    exact hx a s₁ r s' h
  | error e s₁ =>
    rw [hr] at h
    cases h

theorem Answers.bind_of_answers {α β : Type} {x : Run α} {f : α → Run β} {a : α} {b : β}
    (hx : Answers x a) (hf : Answers (f a) b) : Answers (x >>= f) b := by
  intro s r s' h
  rw [EStateM.run_bind] at h
  cases hr : x.run s with
  | ok c s₁ =>
    rw [hr] at h
    obtain rfl := hx s c s₁ hr
    exact hf s₁ r s' h
  | error e s₁ =>
    rw [hr] at h
    cases h

theorem Answers.map {α β : Type} {x : Run α} {a : α} (hx : Answers x a) (f : α → β) :
    Answers (f <$> x) (f a) := by
  rw [map_eq_pure_bind]
  exact Answers.bind_of_answers hx (Answers.pure _)

namespace Confined

variable {F : Fitness → Prop} {T T' : Nat → Prop} {α β : Type}

/-- A computation that leaves the store as it found it is confined to nothing. -/
theorem of_stateOf_eq {x : Run α} (h : ∀ s, stateOf (x.run s) = s) : Confined F T x := by
  intro s hs
  rw [h s]
  exact ⟨hs, Store.Spares.refl T s⟩

theorem pure (a : α) : Confined F T (Pure.pure a : Run α) := of_stateOf_eq fun _ => rfl

theorem throw (e : Fault) : Confined F T (MonadExcept.throw e : Run α) := of_stateOf_eq fun _ => rfl

/-- What follows a failure never runs. -/
theorem throw_bind (e : Fault) (f : α → Run β) : Confined F T (MonadExcept.throw e >>= f) :=
  of_stateOf_eq fun _ => rfl

theorem mono {x : Run α} (h : Confined F T x) (hT : ∀ k, T k → T' k) : Confined F T' x :=
  fun s hs => ⟨(h s hs).1, (h s hs).2.mono hT⟩

/-- What a confined step that answered left. -/
theorem run_ok {x : Run α} (hx : Confined F T x) {s s' : Store} {a : α} (hs : s.Sound F)
    (h : x.run s = .ok a s') : s'.Sound F ∧ s.Spares T s' := by
  have := hx s hs
  rwa [h, stateOf_ok] at this

theorem bind {x : Run α} {f : α → Run β} (hx : Confined F T x) (hf : ∀ a, Confined F T (f a)) :
    Confined F T (x >>= f) := by
  intro s hs
  obtain ⟨hs₁, hk₁⟩ := hx s hs
  rw [EStateM.run_bind]
  cases h : x.run s with
  | ok a s₁ =>
    rw [h, stateOf_ok] at hs₁ hk₁
    obtain ⟨hs₂, hk₂⟩ := hf a s₁ hs₁
    exact ⟨hs₂, hk₁.trans hk₂⟩
  | error e s₁ =>
    rw [h, stateOf_error] at hs₁ hk₁
    exact ⟨hs₁, hk₁⟩

theorem seqRight {x : Run α} {y : Run β} (hx : Confined F T x) (hy : Confined F T y) :
    Confined F T (x *> y) := by
  rw [seqRight_eq_bind]
  exact bind hx fun _ => hy

theorem map {x : Run α} (hx : Confined F T x) (f : α → β) : Confined F T (f <$> x) := by
  rw [map_eq_pure_bind]
  exact bind hx fun _ => pure _

theorem ofExcept (x : Except Fault α) : Confined F T (Run.ofExcept x) := by
  cases x
  · exact throw _
  · exact pure _

theorem forIn {γ : Type} {body : γ → β → Run (ForInStep β)} :
    ∀ (xs : List γ), (∀ a ∈ xs, ∀ b, Confined F T (body a b)) → ∀ b, Confined F T (ForIn.forIn xs b body)
  | [], _, b => pure b
  | x :: xs, h, b => by
    rw [List.forIn_cons]
    refine bind (h x List.mem_cons_self b) fun r => ?_
    cases r with
    | done b' => exact pure b'
    | yield b' => exact forIn xs (fun a ha => h a (List.mem_cons_of_mem x ha)) b'

theorem mapM {γ : Type} {f : γ → Run β} :
    ∀ (xs : List γ), (∀ a ∈ xs, Confined F T (f a)) → Confined F T (xs.mapM f)
  | [], _ => pure _
  | x :: xs, h => by
    rw [List.mapM_cons]
    exact bind (h x List.mem_cons_self) fun b =>
      bind (mapM xs fun a ha => h a (List.mem_cons_of_mem x ha)) fun bs => pure _

theorem allM {γ : Type} {p : γ → Run Bool} :
    ∀ (xs : List γ), (∀ a ∈ xs, Confined F T (p a)) → Confined F T (xs.allM p)
  | [], _ => pure _
  | x :: xs, h => by
    rw [List.allM_cons]
    refine bind (h x List.mem_cons_self) fun b => ?_
    cases b with
    | true => exact allM xs fun a ha => h a (List.mem_cons_of_mem x ha)
    | false => exact pure _

theorem filterM {γ : Type} {p : γ → Run Bool} (hp : ∀ a, Confined F T (p a)) (xs : List γ) :
    Confined F T (xs.filterM p) := by
  have aux : ∀ (ys acc : List γ), Confined F T (List.filterAuxM p ys acc) := by
    intro ys
    induction ys with
    | nil => exact fun acc => pure acc
    | cons y ys ih => exact fun acc => bind (hp y) fun b => ih _
  exact bind (aux xs []) fun _ => pure _

theorem foldlM {γ : Type} {f : β → γ → Run β} (hf : ∀ b a, Confined F T (f b a)) :
    ∀ (xs : List γ) (b : β), Confined F T (xs.foldlM f b)
  | [], b => pure b
  | x :: xs, b => by
    rw [List.foldlM_cons]
    exact bind (hf b x) fun b' => foldlM hf xs b'

/-- When the first step can only answer `a`, the rest need only be confined for `a`. -/
theorem bind_of_answers {x : Run α} {f : α → Run β} {a : α} (hx : Confined F T x) (ha : Answers x a)
    (hf : Confined F T (f a)) : Confined F T (x >>= f) := by
  intro s hs
  obtain ⟨hs₁, hk₁⟩ := hx s hs
  rw [EStateM.run_bind]
  cases h : x.run s with
  | ok b s₁ =>
    rw [h, stateOf_ok] at hs₁ hk₁
    obtain rfl := ha s b s₁ h
    obtain ⟨hs₂, hk₂⟩ := hf s₁ hs₁
    exact ⟨hs₂, hk₁.trans hk₂⟩
  | error e s₁ =>
    rw [h, stateOf_error] at hs₁ hk₁
    exact ⟨hs₁, hk₁⟩

/-- **A step that answers identities it handed out, then a step confined to
them, together change no individual found before the first.** -/
theorem bind_fresh {x : Run (List Nat)} {f : List Nat → Run β} (hx : Confined F (fun _ => False) x)
    (hfresh : ∀ s, s.Sound F → ∀ r s', x.run s = .ok r s' → ∀ k ∈ r, s.lab.nextId ≤ k)
    (hf : ∀ l, Confined F (· ∈ l) (f l)) : Confined F (fun _ => False) (x >>= f) := by
  intro s hs
  obtain ⟨hs₁, hk₁⟩ := hx s hs
  rw [EStateM.run_bind]
  cases h : x.run s with
  | ok r s₁ =>
    rw [h, stateOf_ok] at hs₁ hk₁
    obtain ⟨hs₂, hk₂⟩ := hf r s₁ hs₁
    exact ⟨hs₂, hk₁.trans_fresh hk₂ (hfresh s hs r s₁ h)⟩
  | error e s₁ =>
    rw [h, stateOf_error] at hs₁ hk₁
    exact ⟨hs₁, hk₁⟩

/-- A fold whose every step is confined and answers the value it was given
is confined, and answers its start. -/
theorem foldlM_fixed {γ : Type} {f : β → γ → Run β} {b : β} :
    ∀ xs : List γ, (∀ a ∈ xs, Confined F T (f b a) ∧ Answers (f b a) b) →
      Confined F T (xs.foldlM f b) ∧ Answers (xs.foldlM f b) b
  | [], _ => ⟨pure b, Answers.pure b⟩
  | x :: xs, h => by
    obtain ⟨hc, ha⟩ := h x List.mem_cons_self
    obtain ⟨hc', ha'⟩ := foldlM_fixed xs fun a hm => h a (List.mem_cons_of_mem x hm)
    rw [List.foldlM_cons]
    exact ⟨bind_of_answers hc ha hc', Answers.bind_of_answers ha ha'⟩

end Confined

/-! ### The steps of the store -/

variable {F : Fitness → Prop} {T : Nat → Prop}

/-- Reading an individual: the store as it was, and the individual if it is kept. -/
theorem get_run_cases (id : Nat) (s : Store) : (get id).run s = match s.individuals[id]? with
    | some i => .ok i s
    | none => .error (Fault.request s!"no individual {id}") s := by
  rcases h : s.individuals[id]? with _ | i <;>
    simp [get, EStateM.run, bind, EStateM.bind, getThe, MonadStateOf.get, EStateM.get, h, pure,
      EStateM.pure, throw, throwThe, MonadExceptOf.throw, EStateM.throw]

theorem confined_get (id : Nat) : Confined F T (get id) := by
  refine Confined.of_stateOf_eq fun s => ?_
  rw [get_run_cases]
  split <;> rfl

theorem confined_draw {α : Type} {d : Draw α} (hd : d.Steady) : Confined F T (draw d) := by
  intro s hs
  have hl := hd s.lab
  have hstate : stateOf ((draw d).run s) = { s with lab := stateOf (d.run s.lab) } := by
    simp only [draw, EStateM.run]
    split <;> simp_all [EStateM.run]
  rw [hstate]
  refine ⟨fun k i hi => ?_, hl, fun _ _ _ => rfl⟩
  obtain ⟨hid, hk, hF⟩ := hs k i hi
  exact ⟨hid, Nat.lt_of_lt_of_le hk hl, hF⟩

/-- Trying a computation: its failure becomes its answer, in the state it reached. -/
theorem attempt_run {α : Type} (x : Run α) (s : Store) : (attempt x).run s = match x.run s with
    | .ok a s' => .ok (.ok a) s'
    | .error e s' => .ok (.error e) s' := by
  simp only [attempt, EStateM.run, tryCatch, tryCatchThe, MonadExceptOf.tryCatch, EStateM.tryCatch,
    Functor.map, EStateM.map]
  cases x s <;> rfl

theorem confined_attempt {α : Type} {x : Run α} (hx : Confined F T x) : Confined F T (attempt x) := by
  intro s hs
  have h := hx s hs
  rw [attempt_run]
  cases hr : x.run s <;> rw [hr] at h <;> exact h

/-- Putting an individual under its identity: the store stays sound when that
identity is in use already or below the next one, and only that identity changes. -/
theorem put_run (i : Individual) (s : Store) :
    (put i).run s = .ok () { s with individuals := s.individuals.insert i.id i } := rfl

theorem core_insert (s : Store) (i : Individual) (k : Nat) :
    ({ s with individuals := s.individuals.insert i.id i } : Store).core k =
      if i.id = k then some (i.genome, i.fitness) else s.core k := by
  simp only [Store.core, Std.HashMap.getElem?_insert, beq_iff_eq]
  split <;> simp

/-- **An update in place touches one identity.**  Changing the individual of
`id` by a function that keeps identities, and keeps `F` of fitnesses, keeps
the store sound; it changes the genome or fitness of `id` alone, and of none
when the function keeps them. -/
theorem confined_update (id : Nat) {f : Individual → Individual} (hf : ∀ i, (f i).id = i.id)
    (hF : ∀ i, F i.fitness → F (f i).fitness)
    (hT : T id ∨ ∀ i, (f i).genome = i.genome ∧ (f i).fitness = i.fitness) : Confined F T (update id f) := by
  intro s hs
  simp only [update, EStateM.run_bind, get_run_cases]
  cases hi : s.individuals[id]? with
  | none => exact ⟨hs, Store.Spares.refl T s⟩
  | some i =>
    obtain ⟨hid, hlt, hFi⟩ := hs id i hi
    simp only [put_run, stateOf_ok]
    have hfid : (f i).id = id := (hf i).trans hid
    refine ⟨fun k j hj => ?_, Nat.le_refl _, fun k hk hTk => ?_⟩
    · simp only [Std.HashMap.getElem?_insert, beq_iff_eq] at hj
      split at hj
      · rename_i hk
        cases hj
        exact ⟨hk, by dsimp only; omega, hF i hFi⟩
      · exact hs k j hj
    · rw [core_insert, hfid]
      split
      · rename_i hk'
        subst hk'
        rcases hT with hT | hT
        · exact absurd hT hTk
        · simp [Store.core, hi, (hT i).1, (hT i).2]
      · rfl

/-- **A clone takes an identity no individual had.**  The copy is kept under
the next identity, with its fitness as stored, so no individual of the store
changes. -/
theorem confined_clone (id : Nat) (hF : ∀ f, F f → F f.stored) : Confined F T (clone id) := by
  intro s hs
  simp only [clone, EStateM.run_bind, get_run_cases]
  cases hi : s.individuals[id]? with
  | none => exact ⟨hs, Store.Spares.refl T s⟩
  | some i =>
    simp only [draw, Draw.freshId, EStateM.run, EStateM.modifyGet, put, modify,
      modifyGet, MonadStateOf.modifyGet, pure, EStateM.pure, stateOf_ok]
    refine ⟨fun k j hj => ?_, Nat.le_succ _, fun k hk _ => ?_⟩
    · simp only [Std.HashMap.getElem?_insert, beq_iff_eq, Individual.cloneAs] at hj
      split at hj
      · rename_i hk
        cases hj
        exact ⟨hk, by dsimp only; omega, hF _ (hs id i hi).2.2⟩
      · obtain ⟨hid, hlt, hFj⟩ := hs k j hj
        exact ⟨hid, Nat.lt_succ_of_lt hlt, hFj⟩
    · simp only [Store.core, Std.HashMap.getElem?_insert, beq_iff_eq, Individual.cloneAs]
      rw [if_neg (Nat.ne_of_lt hk).symm]

end Run

end Evolver
