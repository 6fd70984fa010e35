import Evolver.Proofs.Pareto.Dominance
/-!
# Crowding distances

`crowd` gives every member of a front a crowding distance: it starts each at
zero, then for each objective sorts the front by it, sets both ends to
infinity and adds to each inner member the gap between its neighbours over
the spread of the front.  On a population none of this fails:

* the differences of two scores are whole numbers within the doubles' range
  or doubles (`Value.arith_sub_scores`);
* the share of a gap is a double (`Value.arith_div_gaps`): the spread is not
  zero when it is divided by, and a quotient of whole numbers is at most one
  in size, since the neighbours lie between the ends of the sorted front;
* so each step leaves the store or gives the inner member a double
  (`addGap_run`).

`crowd_run` is the whole: the front comes back reordered, and the only change
to the store is a crowding distance on each member, the integer zero or a
double (`Crowded`).  The distances are those that the same arithmetic reckons
from the scores alone (`distances`), one pass per objective
(`crowdPass_run`, `objectivePass`).
-/

namespace Evolver

open Numeric

namespace Value

/-- The whole number a plain value stands for: an integer or a boolean. -/
def whole? (v : Value) : Option Int := v.toCell?.bind Cell.toInt?

/-- The double a plain number converts to. -/
def double? (v : Value) : Option Float := v.toCell?.bind Cell.toFloat?

/-- A plain value that is not a whole number too large to convert to a
double. -/
def FitsDouble (v : Value) : Prop := ∀ n, v = .int n → n.natAbs < floatLimit

variable {a b : Value} {m n : Int} {x y : Float}

theorem arith_sub_whole (ha : a.whole? = some m) (hb : b.whole? = some n) :
    Value.arith .sub a b = .ok (.int (m - n)) := by
  cases a <;> cases b <;> simp_all [whole?, toCell?, Cell.toInt?] <;>
    simp_all [Value.arith, isNumeric, toCell?, plainArith, Cell.toInt?, Arith.symbol] <;> rfl

theorem arith_div_whole (ha : a.whole? = some m) (hb : b.whole? = some n) (hn : n ≠ 0)
    (hinf : (Decimal.ratToFloat m.natAbs n.natAbs ((m < 0) != (n < 0))).isInf = false) :
    Value.arith .div a b = .ok (.float (Decimal.ratToFloat m.natAbs n.natAbs ((m < 0) != (n < 0)))) := by
  cases a <;> cases b <;> simp_all [whole?, toCell?, Cell.toInt?] <;>
    simp_all [Value.arith, isNumeric, toCell?, plainArith, Cell.toInt?, Arith.symbol] <;> rfl

theorem arith_double (op : Arith) (hop : op ≠ .mul) (ha : a.double? = some x) (hb : b.double? = some y)
    (hw : a.whole? = Option.none ∨ b.whole? = Option.none) (hfa : a.FitsDouble) (hfb : b.FitsDouble)
    (hy : op = .div → (y == 0) = false) :
    Value.arith op a b = .ok (.float (if op = .add then x + y else if op = .sub then x - y else x / y)) := by
  cases a <;> cases b <;> simp_all [whole?, double?, toCell?, Cell.toInt?, Cell.toFloat?, FitsDouble] <;>
    cases op <;> simp_all [Value.arith, isNumeric, toCell?, plainArith, Cell.toInt?, Cell.toFloat?, Arith.symbol, Cell.beyondDouble] <;>
    (try rw [if_neg (Nat.not_le.2 hfa)]) <;> (try rw [if_neg (Nat.not_le.2 hfb)]) <;> rfl

theorem truth_int (n : Int) : (Value.int n).truth = .ok (n != 0) := rfl

theorem truth_float (x : Float) : (Value.float x).truth = .ok (x != 0) := rfl

/-- A difference of two scores: a whole number short of the doubles' limit,
or a double. -/
def IsGap (v : Value) : Prop := (∃ n, v = .int n ∧ n.natAbs < floatLimit) ∨ ∃ x, v = .float x

theorem IsGap.truth {v : Value} (h : v.IsGap) : ∃ t, v.truth = .ok t := by
  rcases h with ⟨n, rfl, -⟩ | ⟨x, rfl⟩
  · exact ⟨_, truth_int n⟩
  · exact ⟨_, truth_float x⟩

theorem IsGap.fitsDouble {v : Value} (h : v.IsGap) : v.FitsDouble := by
  rintro n rfl
  rcases h with ⟨k, hk, hb⟩ | ⟨x, hx⟩
  · cases hk
    exact hb
  · cases hx

theorem IsScore.shape {v : Value} (h : v.IsScore) :
    (∃ b, v = .bool b) ∨ (∃ n, v = .int n ∧ 2 * n.natAbs < floatLimit) ∨ ∃ x, v = .float x := by
  obtain ⟨hsome, hint⟩ := h
  cases v with
  | bool b => exact .inl ⟨b, rfl⟩
  | int n => exact .inr (.inl ⟨n, rfl, hint n rfl⟩)
  | float x => exact .inr (.inr ⟨x, rfl⟩)
  | _ => simp only [exactValue?, toCell?, Option.bind_some, Option.bind_none, Cell.exactValue?,
      Cell.toInt?, Option.map_none, Option.isSome_none, Bool.false_eq_true] at hsome

theorem IsScore.double {v : Value} (h : v.IsScore) : ∃ x, v.double? = some x := by
  rcases h.shape with ⟨b, rfl⟩ | ⟨n, rfl, -⟩ | ⟨x, rfl⟩ <;> exact ⟨_, rfl⟩

theorem IsScore.fitsDouble {v : Value} (h : v.IsScore) : v.FitsDouble := by
  rintro n rfl
  have := h.2 n rfl
  omega

theorem IsScore.whole_bound {v : Value} (h : v.IsScore) (hw : v.whole? = some m) :
    2 * m.natAbs < floatLimit := by
  rcases h.shape with ⟨b, rfl⟩ | ⟨n, rfl, hn⟩ | ⟨x, rfl⟩
  · have h2 : 2 < floatLimit := by decide +kernel
    simp only [whole?, toCell?, Option.bind_some, Cell.toInt?, Option.some.injEq] at hw
    subst hw
    split <;> simp only [Int.natAbs_one, Int.natAbs_zero] <;> omega
  · simp only [whole?, toCell?, Option.bind_some, Cell.toInt?, Option.some.injEq] at hw
    exact hw ▸ hn
  · simp [whole?, toCell?, Cell.toInt?] at hw

/-- The exact value of a whole number is the number in units of `2^-1074`. -/
theorem exact_of_whole {v : Value} (hw : v.whole? = some m) :
    v.exact = (((m * 2 ^ 1074 : Int) : WithTop Int) : WithBot (WithTop Int)) := by
  obtain ⟨c, hc, hm⟩ := Option.bind_eq_some_iff.1 hw
  have hex : v.exactValue? = some (((m * 2 ^ 1074 : Int) : WithTop Int) : WithBot (WithTop Int)) := by
    rw [exactValue?, hc, Option.bind_some]
    cases c <;> simp only [Cell.toInt?, reduceCtorEq] at hm <;>
      simp only [Cell.exactValue?, Cell.toInt?, hm, Option.map_some]
  simp only [exact, hex, Option.getD_some]

/-- Whole numbers order as their exact values. -/
theorem whole_le_of_exact_le {a b : Value} (ha : a.whole? = some m) (hb : b.whole? = some n)
    (h : a.exact ≤ b.exact) : m ≤ n := by
  rw [exact_of_whole ha, exact_of_whole hb, WithBot.coe_le_coe, WithTop.coe_le_coe] at h
  exact le_of_mul_le_mul_right h (by positivity)

/-- **The difference of two scores** is a gap, computed exactly when both are
whole numbers. -/
theorem arith_sub_scores (ha : a.IsScore) (hb : b.IsScore) :
    ∃ g, Value.arith .sub a b = .ok g ∧ g.IsGap ∧
      ∀ k, g = .int k → ∃ m n, a.whole? = some m ∧ b.whole? = some n ∧ k = m - n := by
  cases hwa : a.whole? with
  | some m =>
    cases hwb : b.whole? with
    | some n =>
      have hm := ha.whole_bound hwa
      have hn := hb.whole_bound hwb
      refine ⟨_, arith_sub_whole hwa hwb, .inl ⟨m - n, rfl, by omega⟩, ?_⟩
      rintro k ⟨⟩
      exact ⟨m, n, rfl, rfl, rfl⟩
    | none =>
      obtain ⟨x, hx⟩ := ha.double
      obtain ⟨y, hy⟩ := hb.double
      refine ⟨_, arith_double .sub (fun h => by cases h) hx hy (.inr hwb) ha.fitsDouble hb.fitsDouble
        (fun h => by cases h), .inr ⟨_, rfl⟩, ?_⟩
      rintro k ⟨⟩
  | none =>
    obtain ⟨x, hx⟩ := ha.double
    obtain ⟨y, hy⟩ := hb.double
    refine ⟨_, arith_double .sub (fun h => by cases h) hx hy (.inl hwa) ha.fitsDouble hb.fitsDouble
      (fun h => by cases h), .inr ⟨_, rfl⟩, ?_⟩
    rintro k ⟨⟩

/-- **The share of a gap in the spread** is a double: the spread is not zero,
and a quotient of two whole numbers is at most one in size, so finite. -/
theorem arith_div_gaps {g p : Value} (hg : g.IsGap) (hp : p.IsGap) (ht : p.truth = .ok true)
    (hle : ∀ m n, g = .int m → p = .int n → m.natAbs ≤ n.natAbs) :
    ∃ z, Value.arith .div g p = .ok (.float z) := by
  rcases hg with ⟨m, rfl, hm⟩ | ⟨x, rfl⟩ <;> rcases hp with ⟨n, rfl, hn⟩ | ⟨y, rfl⟩
  · have hn0 : n ≠ 0 := by simpa [truth_int] using ht
    have hinf := Decimal.ratToFloat_isInf_of_le (by omega : 0 < n.natAbs) (hle m n rfl rfl)
      ((decide (m < 0)) != (decide (n < 0)))
    exact ⟨_, arith_div_whole rfl rfl hn0 hinf⟩
  · have hy : (y == 0) = false := by simpa [truth_float, bne] using ht
    exact ⟨_, arith_double .div (fun h => by cases h) rfl rfl (.inr rfl) (IsGap.fitsDouble (.inl ⟨m, rfl, hm⟩))
      (IsGap.fitsDouble (.inr ⟨y, rfl⟩)) fun _ => hy⟩
  · have hn0 : n ≠ 0 := by simpa [truth_int] using ht
    exact ⟨_, arith_double .div (fun h => by cases h) rfl rfl (.inl rfl) (IsGap.fitsDouble (.inr ⟨x, rfl⟩))
      (IsGap.fitsDouble (.inl ⟨n, rfl, hn⟩)) fun _ => Numeric.intToFloat_beq_zero hn0⟩
  · have hy : (y == 0) = false := by simpa [truth_float, bne] using ht
    exact ⟨_, arith_double .div (fun h => by cases h) rfl rfl (.inr rfl) (IsGap.fitsDouble (.inr ⟨x, rfl⟩))
      (IsGap.fitsDouble (.inr ⟨y, rfl⟩)) fun _ => hy⟩

/-- Adding a double to a crowding distance gives a double. -/
theorem arith_add_crowding {c : Value} (hc : c.IsCrowding) (x : Float) :
    ∃ y, Value.arith .add c (.float x) = .ok (.float y) := by
  have hfits : c.FitsDouble := by
    rintro n rfl
    rcases hc with h | ⟨y, hy⟩
    · cases h
      decide +kernel
    · cases hy
  rcases hc with rfl | ⟨y, rfl⟩
  · exact ⟨_, arith_double .add (fun h => by cases h) rfl rfl (.inr rfl) hfits (IsGap.fitsDouble (.inr ⟨x, rfl⟩))
      fun h => by cases h⟩
  · exact ⟨_, arith_double .add (fun h => by cases h) rfl rfl (.inr rfl) hfits (IsGap.fitsDouble (.inr ⟨x, rfl⟩))
      fun h => by cases h⟩

/-- An infinite crowding distance plus a quotient at most one in size stays
infinite. -/
theorem arith_add_unranked {num den : Nat} (hden : 0 < den) (h : num ≤ den) (neg : Bool) :
    Value.arith .add Fitness.unranked (.float (Decimal.ratToFloat num den neg)) = .ok Fitness.unranked := by
  obtain ⟨w, hw, hnum, he⟩ := Decimal.ratToFloat_fields_of_le hden h neg
  have hadd := arith_double .add (fun h => by cases h) (show Fitness.unranked.double? = some (1.0 / 0.0) from rfl)
    (show (Value.float (Decimal.ratToFloat num den neg)).double? = some _ from rfl) (.inr rfl)
    (IsGap.fitsDouble (.inr ⟨_, rfl⟩)) (IsGap.fitsDouble (.inr ⟨_, rfl⟩)) fun h => by cases h
  rw [hadd, if_pos rfl, hw, Numeric.inf_add_of_fields hnum he]
  rfl

end Value

/-- A loop whose every step yields, and takes an invariant of the items done
so far to the same with its own item added, keeps it. -/
theorem Run.forIn_inv_done {α β : Type} (I : List α → β → Store → Prop) {body : α → β → Run (ForInStep β)} :
    ∀ (l done : List α), (∀ a ∈ l, ∀ done b s, I done b s →
        ∃ b' s', (body a b).run s = .ok (.yield b') s' ∧ I (done ++ [a]) b' s') →
      ∀ b s, I done b s → ∃ b' s', (forIn l b body).run s = .ok b' s' ∧ I (done ++ l) b' s'
  | [], done, _, b, s, hI => ⟨b, s, rfl, by rw [List.append_nil]; exact hI⟩
  | a :: l, done, h, b, s, hI => by
    obtain ⟨b', s', hrun, hI'⟩ := h a List.mem_cons_self done b s hI
    obtain ⟨b'', s'', hrun', hI''⟩ :=
      Run.forIn_inv_done I l (done ++ [a]) (fun a' ha' => h a' (List.mem_cons_of_mem a ha')) b' s' hI'
    refine ⟨b'', s'', ?_, by rwa [List.append_assoc, List.singleton_append] at hI''⟩
    rw [List.forIn_cons, EStateM.run_bind, hrun]
    exact hrun'

namespace Pareto

variable {flags : List Bool} {score : Nat → List Value} {S : List Nat}

theorem Population.objective_run {s : Store} (hS : Population flags score s S) {id k : Nat} (hid : id ∈ S)
    (hk : k < flags.length) : (objective k id).run s = .ok ((score id).getD k .none) s := by
  obtain ⟨i, -, -, hsc⟩ := (hS.scored id hid).exists
  have hk' : k < (score id).length := hsc.length ▸ hk
  rw [Pareto.objective_run (hS.scored id hid) hk', List.getD_eq_getElem?_getD, List.getElem?_eq_getElem hk',
    Option.getD_some]

theorem Population.isScore {s : Store} (hS : Population flags score s S) {id k : Nat} (hid : id ∈ S)
    (hk : k < flags.length) : ((score id).getD k .none).IsScore := by
  obtain ⟨i, -, -, hsc⟩ := (hS.scored id hid).exists
  have hk' : k < (score id).length := hsc.length ▸ hk
  rw [List.getD_eq_getElem?_getD, List.getElem?_eq_getElem hk', Option.getD_some]
  exact hsc.scores _ (List.getElem_mem hk')

/-! ### Neighbours in a sorted front -/

theorem mem_inner : ∀ {l : List Nat} {b i a : Nat}, (b, i, a) ∈ inner l → ∃ p q, l = p ++ b :: i :: a :: q
  | x :: y :: z :: rest, b, i, a, h => by
    rw [inner, List.mem_cons] at h
    rcases h with h | h
    · obtain ⟨rfl, rfl, rfl⟩ : x = b ∧ y = i ∧ z = a := by simpa using h.symm
      exact ⟨[], rest, rfl⟩
    · obtain ⟨p, q, hpq⟩ := mem_inner h
      exact ⟨x :: p, q, by rw [hpq]; rfl⟩
  | [], _, _, _, h | [_], _, _, _, h | [_, _], _, _, _, h => by simp [inner] at h

section Sorted

variable {key : Nat → WithBot (WithTop Int)} {l : List Nat} (hl : l.Pairwise fun x y => key x ≤ key y)
include hl

theorem head_le_of_sorted {first : Nat} (hfirst : l.head? = some first) {x : Nat} (hx : x ∈ l) :
    key first ≤ key x := by
  obtain ⟨rest, rfl⟩ : ∃ rest, l = first :: rest := by
    cases l with
    | nil => cases hfirst
    | cons y rest => exact ⟨rest, by simp_all⟩
  rcases List.mem_cons.1 hx with rfl | hx
  · exact le_rfl
  · exact List.rel_of_pairwise_cons hl hx

theorem le_last_of_sorted {last : Nat} (hlast : l.getLast? = some last) {x : Nat} (hx : x ∈ l) :
    key x ≤ key last := by
  obtain ⟨ys, rfl⟩ := List.getLast?_eq_some_iff.1 hlast
  rcases List.mem_append.1 hx with hx | hx
  · exact List.pairwise_append.1 hl |>.2.2 x hx last (List.mem_singleton_self last)
  · rw [List.mem_singleton.1 hx]

/-- An inner member's neighbours lie in order between the ends of a sorted
front. -/
theorem inner_sorted {first last b i a : Nat} (hfirst : l.head? = some first)
    (hlast : l.getLast? = some last) (ht : (b, i, a) ∈ inner l) :
    key first ≤ key b ∧ key b ≤ key a ∧ key a ≤ key last ∧ b ∈ l ∧ i ∈ l ∧ a ∈ l := by
  obtain ⟨p, q, rfl⟩ := mem_inner ht
  have hb : b ∈ p ++ b :: i :: a :: q := by simp
  have ha : a ∈ p ++ b :: i :: a :: q := by simp
  have hba : [b, a].Sublist (p ++ b :: i :: a :: q) :=
    (by simp : [b, a].Sublist (b :: i :: a :: q)).trans (List.sublist_append_right p _)
  have hpair : [b, a].Pairwise (fun x y => key x ≤ key y) := hl.sublist hba
  have hab : key b ≤ key a := by simpa using hpair
  exact ⟨head_le_of_sorted hl hfirst hb, hab,
    le_last_of_sorted hl hlast ha, hb, by simp, ha⟩

end Sorted

/-! ### Infinite ends -/

/-- Every score of the members of `F` is a whole number. -/
def WholeScores (score : Nat → List Value) (F : List Nat) : Prop :=
  ∀ id ∈ F, ∀ v ∈ score id, v.whole?.isSome

/-- In `t`, some member of `F` with the least value of objective `k` and some
member with the greatest have an infinite crowding distance. -/
def EndsInfinite (score : Nat → List Value) (F : List Nat) (k : Nat) (t : Store) : Prop :=
  (∃ lo ∈ F, (∀ y ∈ F, ((score lo).getD k .none).exact ≤ ((score y).getD k .none).exact) ∧
      t.crowdingAt lo = some Fitness.unranked) ∧
    ∃ hi ∈ F, (∀ y ∈ F, ((score y).getD k .none).exact ≤ ((score hi).getD k .none).exact) ∧
      t.crowdingAt hi = some Fitness.unranked

/-- Every infinite crowding distance of `t` is still there in `t'`. -/
def KeepsInfinite (t t' : Store) : Prop :=
  ∀ id, t.crowdingAt id = some Fitness.unranked → t'.crowdingAt id = some Fitness.unranked

theorem KeepsInfinite.refl (t : Store) : KeepsInfinite t t := fun _ h => h

theorem KeepsInfinite.trans {t₁ t₂ t₃ : Store} (h₁ : KeepsInfinite t₁ t₂) (h₂ : KeepsInfinite t₂ t₃) :
    KeepsInfinite t₁ t₃ := fun id h => h₂ id (h₁ id h)

/-- Writing a crowding distance keeps every infinite one, the one written
over too when what is written is infinite whenever it was. -/
theorem keepsInfinite_withCrowding {t : Store} {i : Nat} (hi : t.Keeps i) {v : Value}
    (hv : t.crowdingAt i = some Fitness.unranked → v = Fitness.unranked) :
    KeepsInfinite t (t.withCrowding i v) := by
  intro id hid
  rw [Store.crowdingAt_withCrowding _ _ hi]
  split
  · next h =>
    subst h
    rw [hv hid]
  · exact hid

theorem EndsInfinite.mono {F : List Nat} {k : Nat} {t t' : Store} (h : EndsInfinite score F k t)
    (ht : KeepsInfinite t t') : EndsInfinite score F k t' := by
  obtain ⟨⟨lo, hlo, hlel, hl⟩, hi, hhi, hleh, hh⟩ := h
  exact ⟨⟨lo, hlo, hlel, ht lo hl⟩, hi, hhi, hleh, ht hi hh⟩

/-- What `t'` keeps of the crowding distances of `F` keeps its infinite ends. -/
theorem EndsInfinite.of_frame {F : List Nat} {k : Nat} {t t' : Store} (h : EndsInfinite score F k t)
    (ht : ∀ x ∈ F, t'.crowdingAt x = t.crowdingAt x) : EndsInfinite score F k t' := by
  obtain ⟨⟨lo, hlo, hlel, hl⟩, hi, hhi, hleh, hh⟩ := h
  exact ⟨⟨lo, hlo, hlel, (ht lo hlo).trans hl⟩, hi, hhi, hleh, (ht hi hhi).trans hh⟩

theorem Population.whole_getD {s : Store} (hS : Population flags score s S) {F : List Nat}
    (hF : ∀ id ∈ F, id ∈ S) (hW : WholeScores score F) {id k : Nat} (hid : id ∈ F) (hk : k < flags.length) :
    ((score id).getD k .none).whole?.isSome := by
  obtain ⟨i, -, -, hsc⟩ := (hS.scored id (hF id hid)).exists
  have hk' : k < (score id).length := hsc.length ▸ hk
  rw [List.getD_eq_getElem?_getD, List.getElem?_eq_getElem hk', Option.getD_some]
  exact hW id hid _ (List.getElem_mem hk')

/-! ### The distances as values

`crowd` reads the scores from the store and writes the distances back; the
same arithmetic over the scores alone gives the distances as a function of
the members, with the order the front ends in (`distances`). -/

/-- The members of a front in order of objective `k`, stably, as `sortByKey`
orders them. -/
def orderBy (score : Nat → List Value) (k : Nat) (L : List Nat) : Except Fault (List Nat) :=
  (fun sorted => sorted.map (·.1)) <$> sortBy keyLt (L.map fun i => (i, (score i).getD k .none))

/-- The share of objective `k` that an inner member gains: the gap between its
neighbours over the spread of the front, when the spread is not zero. -/
def shareStep (score : Nat → List Value) (k first last : Nat) (c : Nat → Value) :
    Nat × Nat × Nat → Except Fault (Nat → Value)
  | (b, i, a) => do
    let gap ← Value.arith .sub ((score a).getD k .none) ((score b).getD k .none)
    let spread ← Value.arith .sub ((score last).getD k .none) ((score first).getD k .none)
    if ← spread.truth then
      let share ← Value.arith .div gap spread
      pure (Function.update c i (← Value.arith .add (c i) share))
    else pure c

/-- One objective's pass over a front: sort it, make both ends infinite, and
add each inner member's share. -/
def objectivePass (score : Nat → List Value) (state : List Nat × (Nat → Value)) (k : Nat) :
    Except Fault (List Nat × (Nat → Value)) := do
  let sorted ← orderBy score k state.1
  let some first := sorted.head? | throw Fault.listIndex
  let some last := sorted.getLast? | throw Fault.listIndex
  let c := Function.update (Function.update state.2 first Fitness.unranked) last Fitness.unranked
  pure (sorted, ← (inner sorted).foldlM (shareStep score k first last) c)

/-- The crowding distances of a front over `width` objectives, each starting
at zero, with the order the front ends in. -/
def distances (score : Nat → List Value) (width : Nat) (F : List Nat) :
    Except Fault (List Nat × (Nat → Value)) :=
  (List.range width).foldlM (objectivePass score) (F, fun _ => .int 0)

/-! ### One gap -/

/-- `s'` is `s` with a crowding distance on each member of `F`, the integer
zero or a double, and nothing else changed. -/
structure Crowded (F : List Nat) (s s' : Store) : Prop where
  base : ∀ id, s'.baseAt id = s.baseAt id
  rank : ∀ id, s'.rankAt id = s.rankAt id
  frame : ∀ id, id ∉ F → s'.crowdingAt id = s.crowdingAt id
  numbers : ∀ id ∈ F, ∃ c, s'.crowdingAt id = some c ∧ c.IsCrowding

theorem Crowded.withCrowding {F : List Nat} {s t : Store} (h : Crowded F s t) {i : Nat} (hi : i ∈ F)
    (hk : t.Keeps i) {v : Value} (hv : v.IsCrowding) : Crowded F s (t.withCrowding i v) where
  base id := by rw [Store.baseAt_withCrowding, h.base]
  rank id := by rw [Store.rankAt_withCrowding, h.rank]
  frame id hid := by
    have hne : i ≠ id := fun h' => hid (h' ▸ hi)
    rw [Store.crowdingAt_withCrowding _ _ hk, if_neg hne, h.frame id hid]
  numbers id hid := by
    rw [Store.crowdingAt_withCrowding _ _ hk]
    split
    · exact ⟨v, rfl, hv⟩
    · exact h.numbers id hid

/-- **One gap never fails**: given neighbours in order between the ends, the
step either leaves the store or gives the inner member a double, the share
that `shareStep` reckons. -/
theorem addGap_run {t : Store} (hS : Population flags score t S) {k : Nat} (hk : k < flags.length)
    {first last b i a : Nat} (hf : first ∈ S) (hl : last ∈ S) (hb : b ∈ S) (ha : a ∈ S) (hi : t.Keeps i)
    {c : Nat → Value} (hc : t.crowdingAt i = some (c i)) (hcc : (c i).IsCrowding)
    (hfb : ((score first).getD k .none).exact ≤ ((score b).getD k .none).exact)
    (hba : ((score b).getD k .none).exact ≤ ((score a).getD k .none).exact)
    (hal : ((score a).getD k .none).exact ≤ ((score last).getD k .none).exact) :
    ∃ t', (addGap k first last (b, i, a)).run t = .ok () t' ∧
      ((t' = t ∧ shareStep score k first last c (b, i, a) = .ok c) ∨
        ∃ y, t' = t.withCrowding i (.float y) ∧
          shareStep score k first last c (b, i, a) = .ok (Function.update c i (.float y)) ∧
          ((∀ id ∈ [first, last, b, a], ((score id).getD k .none).whole?.isSome) →
            c i = Fitness.unranked → y = 1.0 / 0.0)) := by
  obtain ⟨gap, hgap, hgapG, hgapW⟩ := Value.arith_sub_scores (hS.isScore ha hk) (hS.isScore hb hk)
  obtain ⟨spread, hspread, hspreadG, hspreadW⟩ :=
    Value.arith_sub_scores (hS.isScore hl hk) (hS.isScore hf hk)
  obtain ⟨truth, htruth⟩ := hspreadG.truth
  simp only [addGap, shareStep, EStateM.run_bind, hS.objective_run ha hk, hS.objective_run hb hk, hgap,
    hS.objective_run hl hk, hS.objective_run hf hk, hspread, htruth, Run.ofExcept_ok_run, except_ok_bind]
  cases truth with
  | false => exact ⟨t, rfl, .inl ⟨rfl, rfl⟩⟩
  | true =>
    -- whole gaps come from whole neighbours, which lie between whole ends
    have hle : ∀ m n, gap = .int m → spread = .int n → m.natAbs ≤ n.natAbs := by
      rintro m n hm hn
      obtain ⟨ma, mb, hwa, hwb, rfl⟩ := hgapW m hm
      obtain ⟨ml, mf, hwl, hwf, rfl⟩ := hspreadW n hn
      have h1 := Value.whole_le_of_exact_le hwf hwb hfb
      have h2 := Value.whole_le_of_exact_le hwb hwa hba
      have h3 := Value.whole_le_of_exact_le hwa hwl hal
      omega
    obtain ⟨share, hshare⟩ := Value.arith_div_gaps hgapG hspreadG htruth hle
    obtain ⟨y, hy⟩ := Value.arith_add_crowding hcc share
    simp only [if_true, EStateM.run_bind, hshare, Run.ofExcept_ok_run, crowdingOf_run hi hc, hy,
      setCrowding_run hi, except_ok_bind, except_pure]
    refine ⟨_, rfl, .inr ⟨y, rfl, rfl, fun hwhole hcu => ?_⟩⟩
    -- on whole numbers the share is a quotient at most one in size, which infinity absorbs
    obtain ⟨mf, hmf⟩ := Option.isSome_iff_exists.1 (hwhole first (by simp))
    obtain ⟨ml, hml⟩ := Option.isSome_iff_exists.1 (hwhole last (by simp))
    obtain ⟨mb, hmb⟩ := Option.isSome_iff_exists.1 (hwhole b (by simp))
    obtain ⟨ma, hma⟩ := Option.isSome_iff_exists.1 (hwhole a (by simp))
    rw [Value.arith_sub_whole hma hmb, Except.ok.injEq] at hgap
    rw [Value.arith_sub_whole hml hmf, Except.ok.injEq] at hspread
    subst hgap hspread
    have hn : ml - mf ≠ 0 := by simpa [Value.truth_int] using htruth
    have hmn := hle _ _ rfl rfl
    rw [Value.arith_div_whole rfl rfl hn (Decimal.ratToFloat_isInf_of_le (by omega) hmn _), Except.ok.injEq,
      Value.float.injEq] at hshare
    rw [← hshare, hcu, Value.arith_add_unranked (by omega) hmn, Except.ok.injEq] at hy
    exact (Value.float.injEq _ _ ▸ hy).symm

/-! ### The whole front -/

theorem Store.keeps_withCrowding {t : Store} {i id : Nat} {v : Value} :
    (t.withCrowding i v).Keeps id ↔ t.Keeps id := by
  simp only [Store.Keeps, Store.baseAt_withCrowding]

/-- Setting one crowding distance on each of a list of individuals. -/
theorem forIn_setCrowding_run (v : Value) : ∀ (L : List Nat) (t : Store), (∀ id ∈ L, t.Keeps id) →
    ∃ t', (forIn L PUnit.unit fun i (_ : PUnit) => do
        setCrowding i v
        pure (ForInStep.yield PUnit.unit)).run t = .ok () t' ∧
      (∀ id, t'.baseAt id = t.baseAt id) ∧ (∀ id, t'.rankAt id = t.rankAt id) ∧
      ∀ id, t'.crowdingAt id = if id ∈ L then some v else t.crowdingAt id
  | [], t, _ => ⟨t, rfl, fun _ => rfl, fun _ => rfl, fun id => by simp⟩
  | a :: L, t, hK => by
    have ha := hK a List.mem_cons_self
    obtain ⟨t', hrun, hbase, hrank, hcrowd⟩ := forIn_setCrowding_run v L (t.withCrowding a v)
      fun id hid => Store.keeps_withCrowding.2 (hK id (List.mem_cons_of_mem a hid))
    refine ⟨t', ?_, fun id => by rw [hbase, Store.baseAt_withCrowding],
      fun id => by rw [hrank, Store.rankAt_withCrowding], fun id => ?_⟩
    · rw [List.forIn_cons, EStateM.run_bind, EStateM.run_bind, setCrowding_run ha]
      exact hrun
    · rw [hcrowd, Store.crowdingAt_withCrowding _ _ ha]
      by_cases hid : id ∈ L
      · simp [hid]
      · by_cases hai : a = id
        · simp [hid, hai]
        · simp [hid, hai, Ne.symm hai]

/-- Writing one distance keeps the distances of a front read off a function
of the members, with the function updated there. -/
theorem crowdingAt_withCrowding_update {t : Store} {F : List Nat} {c : Nat → Value}
    (hc : ∀ id ∈ F, t.crowdingAt id = some (c id)) {i : Nat} (hi : t.Keeps i) (v : Value) :
    ∀ id ∈ F, (t.withCrowding i v).crowdingAt id = some (Function.update c i v id) := by
  intro id hid
  rw [Store.crowdingAt_withCrowding _ _ hi, Function.update_apply]
  by_cases h : i = id
  · subst h
    simp
  · simp [h, Ne.symm h, hc id hid]

/-- A fold that reached `c` goes one item further by one step from `c`. -/
theorem foldlM_append_singleton {α γ ε : Type} {f : γ → α → Except ε γ} {l : List α} {b c : γ}
    (h : l.foldlM f b = .ok c) (a : α) : (l ++ [a]).foldlM f b = f c a := by
  rw [List.foldlM_append, h, except_ok_bind, List.foldlM_cons]
  exact bind_pure (f c a)

/-- **The shares of one objective**: the inner members of a sorted front gain
their shares as `shareStep` reckons them, the store stays crowded, and on
whole scores every infinite distance stays infinite. -/
theorem innerGaps_run {s t : Store} (hS : Population flags score s S) {F : List Nat} (hF : ∀ id ∈ F, id ∈ S)
    {k : Nat} (hk : k < flags.length) {sorted : List Nat} (hsF : ∀ id ∈ sorted, id ∈ F)
    (hpair : sorted.Pairwise fun x y => ((score x).getD k .none).exact ≤ ((score y).getD k .none).exact)
    {first last : Nat} (hfirst : sorted.head? = some first) (hlast : sorted.getLast? = some last)
    (hC : Crowded F s t) {c : Nat → Value} (hc : ∀ id ∈ F, t.crowdingAt id = some (c id)) :
    ∃ u t' c', (forIn (inner sorted) PUnit.unit fun tr (_ : PUnit) => do
        addGap k first last tr
        pure (ForInStep.yield PUnit.unit)).run t = .ok u t' ∧
      (inner sorted).foldlM (shareStep score k first last) c = .ok c' ∧
      Crowded F s t' ∧ (∀ id ∈ F, t'.crowdingAt id = some (c' id)) ∧
      (WholeScores score F → KeepsInfinite t t') := by
  have hfirstF : first ∈ F := hsF first (List.mem_of_head? hfirst)
  have hlastF : last ∈ F := hsF last (List.mem_of_getLast? hlast)
  -- the shares done so far are those of the store, which keeps every infinite distance
  refine (Run.forIn_inv_done (fun done _ t' => Crowded F s t' ∧
      (∃ c', done.foldlM (shareStep score k first last) c = .ok c' ∧ ∀ id ∈ F, t'.crowdingAt id = some (c' id)) ∧
      (WholeScores score F → KeepsInfinite t t')) _ [] ?_ PUnit.unit t
      ⟨hC, ⟨c, rfl, hc⟩, fun _ => KeepsInfinite.refl t⟩).imp fun u =>
    Exists.imp fun t' ⟨hrun, hC', ⟨c', hfold, hc'⟩, hK'⟩ => ⟨c', hrun, hfold, hC', hc', hK'⟩
  rintro ⟨b, i, a⟩ htr done - t' ⟨hC', ⟨c', hfold, hc'⟩, hK'⟩
  obtain ⟨hfb, hba, hal, hb, hi, ha⟩ := inner_sorted hpair hfirst hlast htr
  have hSt' : Population flags score t' S := hS.of_baseAt hC'.base
  have hiF := hsF i hi
  have hiK : t'.Keeps i := hSt'.keeps (hF i hiF)
  have hcc : (c' i).IsCrowding := by
    obtain ⟨c₀, hc₀, hcc₀⟩ := hC'.numbers i hiF
    rwa [← Option.some.inj ((hc' i hiF).symm.trans hc₀)] at hcc₀
  obtain ⟨t'', hrun, ht''⟩ := addGap_run hSt' hk (hF first hfirstF) (hF last hlastF) (hF b (hsF b hb))
    (hF a (hsF a ha)) hiK (hc' i hiF) hcc hfb hba hal
  refine ⟨PUnit.unit, t'', by simp only [EStateM.run_bind, hrun]; rfl, ?_⟩
  rcases ht'' with ⟨rfl, hshare⟩ | ⟨y, rfl, hshare, hy⟩
  · exact ⟨hC', ⟨c', by rw [foldlM_append_singleton hfold, hshare], hc'⟩, hK'⟩
  refine ⟨hC'.withCrowding hiF hiK (.inr ⟨y, rfl⟩),
    ⟨_, by rw [foldlM_append_singleton hfold, hshare], crowdingAt_withCrowding_update hc' hiK _⟩,
    fun hW => (hK' hW).trans (keepsInfinite_withCrowding hiK fun hcu => ?_)⟩
  -- an infinite distance gains a share of whole numbers and stays infinite
  have hwhole : ∀ id ∈ [first, last, b, a], ((score id).getD k .none).whole?.isSome := by
    intro id hid
    simp only [List.mem_cons, List.not_mem_nil, or_false] at hid
    rcases hid with rfl | rfl | rfl | rfl
    exacts [hS.whole_getD hF hW hfirstF hk, hS.whole_getD hF hW hlastF hk,
      hS.whole_getD hF hW (hsF _ hb) hk, hS.whole_getD hF hW (hsF _ ha) hk]
  rw [hy hwhole (Option.some.inj ((hc' i hiF).symm.trans hcu))]
  rfl

/-- **One objective's pass** sorts the front, makes both of its ends infinite
and adds each inner member's share, as `objectivePass` reckons them. -/
theorem crowdPass_run {s t : Store} (hS : Population flags score s S) {F : List Nat} (hF : ∀ id ∈ F, id ∈ S)
    (hne : F ≠ []) {k : Nat} (hk : k < flags.length) {sorted : List Nat} (hperm : sorted.Perm F)
    (hC : Crowded F s t) {c : Nat → Value} (hc : ∀ id ∈ F, t.crowdingAt id = some (c id)) :
    ∃ sorted' t' c', (crowdPass k sorted).run t = .ok sorted' t' ∧
      objectivePass score (sorted, c) k = .ok (sorted', c') ∧ sorted'.Perm F ∧ Crowded F s t' ∧
      (∀ id ∈ F, t'.crowdingAt id = some (c' id)) ∧
      (WholeScores score F → KeepsInfinite t t' ∧ EndsInfinite score F k t') := by
  have hSt : Population flags score t S := hS.of_baseAt hC.base
  have hkeeps : ∀ id ∈ F, t.Keeps id := fun id hid => hSt.keeps (hF id hid)
  obtain ⟨sorted', hsort, hperm', hpair, horder⟩ :=
    sortByKey_sorted (fun id hid => hSt.objective_run (hF id (hperm.subset hid)) hk)
      fun id hid => (hSt.isScore (hF id (hperm.subset hid)) hk).1
  have hsF : ∀ id ∈ sorted', id ∈ F := fun id hid => hperm.subset (hperm'.subset hid)
  obtain ⟨first, hfirst⟩ : ∃ first, sorted'.head? = some first := by
    cases hs' : sorted' with
    | nil => exact absurd (List.Perm.nil_eq (hs' ▸ hperm'.trans hperm)).symm hne
    | cons x xs => exact ⟨x, rfl⟩
  obtain ⟨last, hlast⟩ : ∃ last, sorted'.getLast? = some last := by
    cases hs' : sorted'.getLast? with
    | none => simp_all
    | some x => exact ⟨x, rfl⟩
  have hfirstF : first ∈ F := hsF first (List.mem_of_head? hfirst)
  have hlastF : last ∈ F := hsF last (List.mem_of_getLast? hlast)
  -- both ends become infinite
  have hunranked : Fitness.unranked.IsCrowding := .inr ⟨_, rfl⟩
  have hlastK : (t.withCrowding first Fitness.unranked).Keeps last := Store.keeps_withCrowding.2 (hkeeps last hlastF)
  have hC₂ : Crowded F s ((t.withCrowding first Fitness.unranked).withCrowding last Fitness.unranked) :=
    (hC.withCrowding hfirstF (hkeeps first hfirstF) hunranked).withCrowding hlastF hlastK hunranked
  have hc₂ := crowdingAt_withCrowding_update (crowdingAt_withCrowding_update hc (hkeeps first hfirstF)
    Fitness.unranked) hlastK Fitness.unranked
  have hK₂ : KeepsInfinite t ((t.withCrowding first Fitness.unranked).withCrowding last Fitness.unranked) :=
    (keepsInfinite_withCrowding (hkeeps first hfirstF) fun _ => rfl).trans
      (keepsInfinite_withCrowding hlastK fun _ => rfl)
  -- then each inner member gains its share
  obtain ⟨u, t₃, c₃, hinner, hfold, hC₃, hc₃, hK₃⟩ := innerGaps_run hS hF hk hsF hpair hfirst hlast hC₂ hc₂
  refine ⟨sorted', t₃, c₃, ?_, ?_, hperm'.trans hperm, hC₃, hc₃, fun hW => ⟨hK₂.trans (hK₃ hW), ?_⟩⟩
  · simp only [crowdPass, EStateM.run_bind, hsort, hfirst, hlast, setCrowding_run (hkeeps first hfirstF),
      setCrowding_run hlastK, hinner]
    rfl
  · simp only [objectivePass, orderBy, horder, except_ok_bind, hfirst, hlast, hfold]
    rfl
  -- this objective's ends are the ends of its sort
  have hmem : ∀ y ∈ F, y ∈ sorted' := fun y hy => (hperm'.trans hperm).mem_iff.2 hy
  refine ⟨⟨first, hfirstF, fun y hy => head_le_of_sorted hpair hfirst (hmem y hy), hK₃ hW first ?_⟩,
    last, hlastF, fun y hy => le_last_of_sorted hpair hlast (hmem y hy), hK₃ hW last ?_⟩
  · rw [Store.crowdingAt_withCrowding _ _ hlastK, Store.crowdingAt_withCrowding _ _ (hkeeps first hfirstF),
      if_pos rfl]
    split <;> rfl
  · rw [Store.crowdingAt_withCrowding _ _ hlastK, if_pos rfl]

/-- **Crowding a front never fails**: the front comes back reordered, the
store changes only by a crowding distance on each member, the integer zero or
a double, and these are the distances that `distances` reckons from the
scores. -/
theorem crowd_run {s : Store} (hS : Population flags score s S) {F : List Nat} (hF : ∀ id ∈ F, id ∈ S)
    (hne : F ≠ []) : ∃ L s', (crowd F).run s = .ok L s' ∧ L.Perm F ∧ Crowded F s s' ∧
      (WholeScores score F → ∀ k < flags.length, EndsInfinite score F k s') ∧
      ∃ c, distances score flags.length F = .ok (L, c) ∧ ∀ id ∈ F, s'.crowdingAt id = some (c id) := by
  obtain ⟨s₁, hreset, hb₁, hr₁, hc₁⟩ :=
    forIn_setCrowding_run (.int 0) F s fun id hid => hS.keeps (hF id hid)
  have hC₁ : Crowded F s s₁ :=
    ⟨hb₁, hr₁, fun id hid => by rw [hc₁, if_neg hid], fun id hid => ⟨_, by rw [hc₁, if_pos hid], .inl rfl⟩⟩
  obtain ⟨lead, rest, hlead⟩ := List.exists_cons_of_ne_nil hne
  have hleadS : lead ∈ S := hF lead (hlead ▸ List.mem_cons_self)
  obtain ⟨v, hv, hitems⟩ := objectives_run ((hS.of_baseAt hb₁).scored lead hleadS)
  have hhead : F.head? = some lead := by rw [hlead]; rfl
  have hwidth : (score lead).length = flags.length := by
    obtain ⟨i, -, -, hsc⟩ := (hS.scored lead hleadS).exists
    exact hsc.length
  simp only [crowd, EStateM.run_bind, hreset, hhead, hv, Fitness.size?_of_items hitems,
    Run.ofExcept_ok_run, bind_pure]
  -- objective by objective, the front stays a reordering of itself, the store stays crowded with the
  -- distances reckoned so far and, on whole scores, the ends of every objective done keep an infinite distance
  refine (Run.forIn_inv_done
    (fun done L t => L.Perm F ∧ Crowded F s t ∧ (WholeScores score F → ∀ k ∈ done, EndsInfinite score F k t) ∧
      ∃ c, done.foldlM (objectivePass score) (F, fun _ => .int 0) = .ok (L, c) ∧
        ∀ id ∈ F, t.crowdingAt id = some (c id))
    _ [] ?_ F s₁ ⟨List.Perm.refl F, hC₁, fun _ k hk => absurd hk List.not_mem_nil,
      _, rfl, fun id hid => by rw [hc₁, if_pos hid]⟩).imp fun L =>
      Exists.imp fun s' ⟨hrun, hperm, hC, hends, c, hfold, hc⟩ => ⟨hrun, hperm, hC, fun hW k hk =>
        hends hW k (by rw [List.nil_append, List.mem_range, hwidth]; exact hk),
        c, by rw [distances, ← hwidth]; exact hfold, hc⟩
  intro k hk done sorted t ⟨hperm, hC, hE, c, hfold, hc⟩
  have hk' : k < flags.length := hwidth ▸ List.mem_range.1 hk
  obtain ⟨sorted', t', c', hpass, hobj, hperm', hC', hc', hK⟩ := crowdPass_run hS hF hne hk' hperm hC hc
  refine ⟨sorted', t', by simp only [EStateM.run_bind, hpass]; rfl, hperm', hC', fun hW k' hk'' => ?_,
    c', by rw [foldlM_append_singleton hfold, hobj], hc'⟩
  -- the objectives done before keep their ends
  rcases List.mem_append.1 hk'' with hold | hnew
  · exact (hE hW k' hold).mono (hK hW).1
  · rw [List.mem_singleton.1 hnew]
    exact (hK hW).2

end Pareto

end Evolver
