import Evolver.Proofs.Chromosome.Bounds
/-!
# Which genes a k-point crossover exchanges

A k-point crossover cuts two sequences of `n` genes at sorted points
`p₁ < … < p_k` and is meant to exchange the alternate segments `[0, p₁)`,
`[p₂, p₃)`, …: the positions with an even number of cut points at or before
them (`Chromosome.inAlternate`).

The walk over the cut points (`Chromosome.swapSegments`) starts the next
segment at the point after the end of the last one only while that end is
below the number of points, `k + 1` once the length is appended; otherwise
the next segment starts one before the end of the sequence.  So a segment
`[p₂ⱼ, p₂ⱼ₊₁)` is exchanged only while `p₂ⱼ₋₁ ≤ k`; once a segment ends
beyond `k` no later segment is, except the last position of the sequence
when `k` is even (`Chromosome.exchangedAt`).

`Chromosome.exchange_swaps_reached_segments` gives the whole answer: both
sequences crossed at exactly those positions (`Chromosome.crossAt`), the cut
points with the length appended, and no fault.  It agrees with the
alternate segments whenever every cut point but the last is at most `k`.
-/

namespace Evolver

namespace Chromosome

/-! ### Crossing two sequences position by position -/

/-- The first of two sequences with the items at the positions `sw` picks
taken from the second. -/
def crossAt {α : Type} (sw : Nat → Bool) (v₁ v₂ : List α) : List α :=
  (v₁.zip v₂).mapIdx fun j p => if sw j then p.2 else p.1

section Cross

variable {α : Type} {v₁ v₂ : List α}

theorem length_crossAt (sw : Nat → Bool) (hv : v₁.length = v₂.length) :
    (crossAt sw v₁ v₂).length = v₁.length := by
  simp [crossAt, hv]

theorem getElem?_crossAt (sw : Nat → Bool) (hv : v₁.length = v₂.length) (j : Nat) :
    (crossAt sw v₁ v₂)[j]? = if sw j then v₂[j]? else v₁[j]? := by
  rw [crossAt, List.getElem?_mapIdx]
  rcases Nat.lt_or_ge j v₁.length with hj | hj
  · have hz : j < (v₁.zip v₂).length := by simp [hv] at hj ⊢; omega
    rw [List.getElem?_eq_getElem hz, List.getElem_zip, List.getElem?_eq_getElem hj,
      List.getElem?_eq_getElem (hv ▸ hj)]
    split <;> rfl
  · rw [List.getElem?_eq_none (by simp; omega), List.getElem?_eq_none hj,
      List.getElem?_eq_none (by omega)]
    split <;> rfl

/-- Crossing at no position keeps the first sequence. -/
theorem crossAt_none (hv : v₁.length = v₂.length) : crossAt (fun _ => false) v₁ v₂ = v₁ := by
  apply List.ext_getElem?
  intro j
  rw [getElem?_crossAt _ hv]
  rfl

/-- Only the positions of the sequences matter. -/
theorem crossAt_congr {sw sw' : Nat → Bool} (hv : v₁.length = v₂.length)
    (h : ∀ j < v₁.length, sw j = sw' j) : crossAt sw v₁ v₂ = crossAt sw' v₁ v₂ := by
  apply List.ext_getElem?
  intro j
  rw [getElem?_crossAt _ hv, getElem?_crossAt _ hv]
  rcases Nat.lt_or_ge j v₁.length with hj | hj
  · rw [h j hj]
  · rw [List.getElem?_eq_none hj, List.getElem?_eq_none (by omega)]
    split <;> split <;> rfl

/-- **Exchanging the parts between two ends of two crossed sequences**
crosses them also at the positions between the clamped ends, or back where
they were crossed already. -/
theorem exchangePart_crossAt (sw : Nat → Bool) (hv : v₁.length = v₂.length) (start stop : Int) :
    assignSlice (crossAt sw v₁ v₂) start stop (slice (crossAt sw v₂ v₁) start stop) =
      crossAt (fun j => sw j ^^ decide (clampIndex v₁.length start ≤ j ∧ j < clampIndex v₁.length stop))
        v₁ v₂ := by
  have hl₁ := length_crossAt sw hv
  have hl₂ := length_crossAt sw hv.symm
  apply List.ext_getElem?
  intro j
  rw [getElem?_assignSlice_slice (hl₁.trans (hv.trans hl₂.symm)), getElem?_crossAt _ hv,
    getElem?_crossAt _ hv.symm, getElem?_crossAt _ hv, hl₁]
  by_cases hin : clampIndex v₁.length start ≤ j ∧ j < clampIndex v₁.length stop
  · rw [if_pos hin]
    cases sw j <;> simp [hin]
  · rw [if_neg hin]
    cases sw j <;> simp [hin]

end Cross

/-! ### Cut points -/

/-- The number of cut points at or before position `c`. -/
def cutsUpTo (cuts : List Nat) (c : Nat) : Nat := cuts.countP (· ≤ c)

/-- Position `c` lies in an alternate segment `[0, p₁)`, `[p₂, p₃)`, …: an
even number of cut points lie at or before it. -/
def inAlternate (cuts : List Nat) (c : Nat) : Bool := cutsUpTo cuts c % 2 == 0

/-- The positions of a sequence of `n` genes that the exchange at the cut
points swaps: those of an alternate segment with at most one more cut point
before it than there are cut points up to `k`, and the last position when `k`
is even. -/
def exchangedAt (cuts : List Nat) (n c : Nat) : Bool :=
  decide ((cutsUpTo cuts c % 2 = 0 ∧ cutsUpTo cuts c ≤ cutsUpTo cuts cuts.length + 1) ∨
    (cuts.length % 2 = 0 ∧ c + 1 = n))

/-- **Sorted cut points are counted by position**: the `m`-th point lies at
or before `c` exactly when more than `m` points do. -/
theorem lt_cutsUpTo_iff : ∀ {cuts : List Nat}, cuts.Pairwise (· < ·) → ∀ {m : Nat} (hm : m < cuts.length)
    (c : Nat), m < cutsUpTo cuts c ↔ cuts[m] ≤ c
  | [], _, _, hm, _ => absurd hm (Nat.not_lt_zero _)
  | p :: rest, h, m, hm, c => by
    obtain ⟨hp, hrest⟩ := List.pairwise_cons.1 h
    have hcount : cutsUpTo (p :: rest) c = cutsUpTo rest c + if p ≤ c then 1 else 0 := by
      simp [cutsUpTo, List.countP_cons]
    by_cases hpc : p ≤ c
    · rw [hcount, if_pos hpc]
      cases m with
      | zero => simpa using hpc
      | succ m =>
        rw [List.getElem_cons_succ, ← lt_cutsUpTo_iff hrest (by simpa using hm) c]
        omega
    · -- every later point lies beyond `p`, so none lies at or before `c`
      have hnone : cutsUpTo rest c = 0 := by
        rw [cutsUpTo, List.countP_eq_zero]
        intro q hq hqc
        have := hp q hq
        simp only [decide_eq_true_eq] at hqc
        omega
      rw [hcount, if_neg hpc, hnone]
      cases m with
      | zero => simpa using hpc
      | succ m =>
        have := hp _ (List.getElem_mem (by simpa using hm))
        simp only [List.getElem_cons_succ]
        omega

/-! ### The walk over the cut points -/

/-- Cut points of a sequence of `n` genes, as a crossover draws them:
strictly increasing, each strictly inside the sequence. -/
structure Cuts (cuts : List Nat) (n : Nat) : Prop where
  sorted : cuts.Pairwise (· < ·)
  pos : ∀ p ∈ cuts, 0 < p
  lt : ∀ p ∈ cuts, p < n
  length_pos : 0 < n

/-- The `m`-th cut point, counting the length `n` as the last one and every
one after. -/
def cutAt (cuts : List Nat) (n m : Nat) : Nat := (cuts ++ [n]).getD m n

/-- Where the walk starts the segment ending at its `i`-th point: at the
front, or at the point before. -/
def segmentStart (cuts : List Nat) (n i : Nat) : Nat := if i = 0 then 0 else cutAt cuts n (i - 1)

/-- The start the walk carries to its `i`-th point: the front first; then
the point before, when the point before that was at most `k`; else one
before the end. -/
def WalkStart (cuts : List Nat) (n i : Nat) (start : Int) : Prop :=
  (i = 0 ∧ start = 0) ∨ (0 < i ∧ cutAt cuts n (i - 2) ≤ cuts.length ∧ start = cutAt cuts n (i - 1)) ∨
    (0 < i ∧ cuts.length < cutAt cuts n (i - 2) ∧ start = -1)

section Walk

variable {cuts : List Nat} {n : Nat}

theorem cutAt_of_lt {m : Nat} (hm : m < cuts.length) : cutAt cuts n m = cuts[m] := by
  rw [cutAt, List.getD_eq_getElem?_getD, List.getElem?_append_left hm, List.getElem?_eq_getElem hm,
    Option.getD_some]

theorem cutAt_of_ge {m : Nat} (hm : cuts.length ≤ m) : cutAt cuts n m = n := by
  rw [cutAt, List.getD_eq_getElem?_getD]
  rcases Nat.eq_or_lt_of_le hm with rfl | hlt
  · simp
  · rw [List.getElem?_eq_none (by simp; omega), Option.getD_none]

namespace Cuts

variable (hc : Cuts cuts n)
include hc

theorem cutAt_lt_length {m : Nat} (hm : m < cuts.length) : cutAt cuts n m < n := by
  rw [cutAt_of_lt hm]
  exact hc.lt _ (List.getElem_mem hm)

theorem cutAt_le_length (m : Nat) : cutAt cuts n m ≤ n := by
  rcases Nat.lt_or_ge m cuts.length with hm | hm
  · exact Nat.le_of_lt (hc.cutAt_lt_length hm)
  · rw [cutAt_of_ge hm]

/-- The cut points, the length last, strictly increase. -/
theorem cutAt_lt_cutAt {m m' : Nat} (hmm : m < m') (hm' : m' ≤ cuts.length) :
    cutAt cuts n m < cutAt cuts n m' := by
  have hm : m < cuts.length := Nat.lt_of_lt_of_le hmm hm'
  rw [cutAt_of_lt hm]
  rcases Nat.lt_or_ge m' cuts.length with hlt | hge
  · rw [cutAt_of_lt hlt]
    exact List.pairwise_iff_getElem.1 hc.sorted m m' hm hlt hmm
  · rw [cutAt_of_ge hge]
    exact hc.lt _ (List.getElem_mem hm)

/-- The `m`-th cut point is past `m`: the points are distinct and positive. -/
theorem lt_cutAt : ∀ {m : Nat}, m < cuts.length → m < cutAt cuts n m
  | 0, hm => by
    rw [cutAt_of_lt hm]
    exact hc.pos _ (List.getElem_mem hm)
  | m + 1, hm => by
    have := lt_cutAt (Nat.lt_of_succ_lt hm)
    have := hc.cutAt_lt_cutAt (Nat.lt_add_one m) (Nat.le_of_lt hm)
    omega

/-- There are fewer cut points than genes. -/
theorem length_lt : cuts.length < n := by
  rcases Nat.eq_zero_or_pos cuts.length with h | h
  · rw [h]
    exact hc.length_pos
  · have := hc.lt_cutAt (Nat.sub_lt h Nat.one_pos)
    have := hc.cutAt_lt_length (Nat.sub_lt h Nat.one_pos)
    omega

/-- A point `c` between the `(m-1)`-th and the `m`-th cut point has `m` cut
points at or before it. -/
theorem cutsUpTo_eq {m c : Nat} (hm : m ≤ cuts.length) (hlo : m = 0 ∨ cutAt cuts n (m - 1) ≤ c)
    (hhi : c < cutAt cuts n m) : cutsUpTo cuts c = m := by
  have hle : m ≤ cutsUpTo cuts c := by
    rcases hlo with rfl | hlo
    · exact Nat.zero_le _
    · have hpos : 0 < m := by
        rcases Nat.eq_zero_or_pos m with rfl | h
        · -- the `0 - 1`-th point is the first, which lies past `c`
          simp only [Nat.zero_sub] at hlo
          omega
        · exact h
      have hm' : m - 1 < cuts.length := by omega
      rw [cutAt_of_lt hm'] at hlo
      have := (lt_cutsUpTo_iff hc.sorted hm' c).2 hlo
      omega
  have hge : cutsUpTo cuts c ≤ m := by
    rcases Nat.lt_or_ge m cuts.length with hlt | hge
    · rw [cutAt_of_lt hlt] at hhi
      have := mt (lt_cutsUpTo_iff hc.sorted hlt c).1 (by omega)
      omega
    · have : cutsUpTo cuts c ≤ cuts.length := List.countP_le_length
      omega
  omega

/-- The `m`-th cut point is at most `k` exactly when more than `m` cut points are. -/
theorem cutAt_le_length_iff {m : Nat} (hm : m < cuts.length) :
    cutAt cuts n m ≤ cuts.length ↔ m < cutsUpTo cuts cuts.length := by
  rw [cutAt_of_lt hm, lt_cutsUpTo_iff hc.sorted hm]

end Cuts

theorem clampIndex_natCast {m : Nat} (hm : m ≤ n) : clampIndex n (m : Int) = m := by
  simp [clampIndex]
  omega

theorem clampIndex_neg_one (hn : 0 < n) : clampIndex n (-1) = n - 1 := by
  simp [clampIndex]
  omega

/-- **One segment of the walk.**  Exchanging the segment that ends at the
`i`-th point, from where the walk starts it, turns the positions exchanged
before that segment into those exchanged before the point after it. -/
theorem exchangedAt_step (hc : Cuts cuts n) {i : Nat} (heven : i % 2 = 0) (hi : i ≤ cuts.length)
    {start : Int} (hs : WalkStart cuts n i start) {j : Nat} (hj : j < n) :
    ((exchangedAt cuts n j && decide (j < segmentStart cuts n i)) ^^
        decide (clampIndex n start ≤ j ∧ j < clampIndex n (cutAt cuts n i : Int))) =
      (exchangedAt cuts n j && decide (j < cutAt cuts n (i + 1))) := by
  rw [clampIndex_natCast (hc.cutAt_le_length i)]
  -- the ends of the segment and the point after it
  have hkn := hc.length_lt
  have hhi_lt : i < cuts.length → cutAt cuts n i < cutAt cuts n (i + 1) :=
    fun h => hc.cutAt_lt_cutAt (Nat.lt_add_one i) h
  have hhi_n : i < cuts.length → cutAt cuts n i < n := hc.cutAt_lt_length
  have hhi_k : i = cuts.length → cutAt cuts n i = n := fun h => cutAt_of_ge (by omega)
  have hnx_k : cuts.length ≤ i + 1 → cutAt cuts n (i + 1) = n := cutAt_of_ge
  have hnx_n : i + 1 < cuts.length → cutAt cuts n (i + 1) < n := hc.cutAt_lt_length
  have hlo : segmentStart cuts n i = 0 ∧ i = 0 ∨ 0 < i ∧ segmentStart cuts n i = cutAt cuts n (i - 1) ∧
      cutAt cuts n (i - 1) < cutAt cuts n i := by
    unfold segmentStart
    split
    · exact .inl ⟨rfl, ‹_›⟩
    · exact .inr ⟨by omega, rfl, hc.cutAt_lt_cutAt (by omega) hi⟩
  have hlo_n : segmentStart cuts n i < n := by
    have := hc.cutAt_le_length i
    rcases hlo with ⟨h, -⟩ | ⟨-, h, h'⟩ <;> omega
  -- the segment holds the positions with `i` cut points before them, the gap after it `i + 1`
  have hin : segmentStart cuts n i ≤ j → j < cutAt cuts n i → cutsUpTo cuts j = i := fun h1 h2 =>
    hc.cutsUpTo_eq hi (by rcases hlo with ⟨-, h⟩ | ⟨-, h, -⟩ <;> omega) h2
  have hgap : i < cuts.length → cutAt cuts n i ≤ j → j < cutAt cuts n (i + 1) → cutsUpTo cuts j = i + 1 :=
    fun h0 h1 h2 => hc.cutsUpTo_eq h0 (.inr h1) h2
  -- the walk starts the segment where it should exactly when the point two back is at most `k`
  have hstart : (clampIndex n start = segmentStart cuts n i ∧ i ≤ cutsUpTo cuts cuts.length + 1) ∨
      (clampIndex n start = n - 1 ∧ cutsUpTo cuts cuts.length + 2 ≤ i) := by
    rcases hs with ⟨rfl, rfl⟩ | ⟨hpos, hle, rfl⟩ | ⟨hpos, hgt, rfl⟩
    · exact .inl ⟨by simp [clampIndex, segmentStart], by omega⟩
    · have := (hc.cutAt_le_length_iff (by omega : i - 2 < cuts.length)).1 hle
      refine .inl ⟨?_, by omega⟩
      rw [clampIndex_natCast (hc.cutAt_le_length _), segmentStart, if_neg (by omega)]
    · have := mt (hc.cutAt_le_length_iff (by omega : i - 2 < cuts.length)).2 (by omega)
      exact .inr ⟨clampIndex_neg_one hc.length_pos, by omega⟩
  rcases Nat.lt_or_ge j (segmentStart cuts n i) with h₁ | h₁
  · -- before the segment nothing changes
    have : ¬ (clampIndex n start ≤ j ∧ j < cutAt cuts n i) := by omega
    rw [decide_eq_true h₁, decide_eq_false this, decide_eq_true (by omega), Bool.xor_false]
  rcases Nat.lt_or_ge j (cutAt cuts n i) with h₂ | h₂
  · -- inside the segment a position changes from where the walk starts it
    rw [decide_eq_false (by omega : ¬ j < segmentStart cuts n i), Bool.and_false, Bool.false_xor,
      decide_eq_true (by omega : j < cutAt cuts n (i + 1)), Bool.and_true, exchangedAt, hin h₁ h₂,
      decide_eq_decide]
    omega
  rcases Nat.lt_or_ge j (cutAt cuts n (i + 1)) with h₃ | h₃
  · -- in the gap after it an odd number of cut points lie before, and the end is not there
    have hik : i < cuts.length := by omega
    rw [decide_eq_false (by omega : ¬ j < segmentStart cuts n i), Bool.and_false, Bool.false_xor,
      decide_eq_false (by omega : ¬ (clampIndex n start ≤ j ∧ j < cutAt cuts n i)),
      decide_eq_true h₃, Bool.and_true, exchangedAt, hgap hik h₂ h₃, eq_comm, decide_eq_false_iff_not]
    omega
  · -- past the point after it nothing is exchanged yet
    rw [decide_eq_false (by omega : ¬ j < segmentStart cuts n i), Bool.and_false, Bool.false_xor,
      decide_eq_false (by omega : ¬ (clampIndex n start ≤ j ∧ j < cutAt cuts n i)),
      decide_eq_false (by omega : ¬ j < cutAt cuts n (i + 1)), Bool.and_false]

theorem drop_cutAt {i : Nat} (hi : i ≤ cuts.length) :
    (cuts ++ [n]).drop i = cutAt cuts n i :: (cuts ++ [n]).drop (i + 1) := by
  rw [List.drop_eq_getElem_cons (by simp; omega), cutAt, List.getD_eq_getElem?_getD,
    List.getElem?_eq_getElem (by simp; omega), Option.getD_some]

/-- **The walk from its `i`-th point on** exchanges, on top of the positions
exchanged before the segment ending there, exactly the rest of
`exchangedAt`, and ends without a fault. -/
theorem swapSegments_from (hc : Cuts cuts n) {v₁ v₂ : List Value} (h₁ : v₁.length = n)
    (h₂ : v₂.length = n) (i : Nat) (heven : i % 2 = 0) (hi : i ≤ cuts.length + 1) (start : Int)
    (hs : WalkStart cuts n i start) :
    swapSegments (cuts.length + 1) (((cuts ++ [n]).drop i).map fun p : Nat => (p : Int)) start
        (crossAt (fun j => exchangedAt cuts n j && decide (j < segmentStart cuts n i)) v₁ v₂)
        (crossAt (fun j => exchangedAt cuts n j && decide (j < segmentStart cuts n i)) v₂ v₁) =
      (crossAt (exchangedAt cuts n) v₁ v₂, crossAt (exchangedAt cuts n) v₂ v₁, none) := by
  have h₁₂ : v₁.length = v₂.length := h₁.trans h₂.symm
  rcases Nat.lt_or_ge cuts.length i with hend | hle
  · -- every point is walked, and the positions before the last one are all there are
    have hdrop : (cuts ++ [n]).drop i = [] := List.drop_eq_nil_of_le (by simp; omega)
    have hlo : segmentStart cuts n i = n := by
      rw [segmentStart, if_neg (by omega), cutAt_of_ge (by omega)]
    have hsame : ∀ j < n, (exchangedAt cuts n j && decide (j < segmentStart cuts n i)) = exchangedAt cuts n j :=
      fun j hj => by rw [hlo, decide_eq_true hj, Bool.and_true]
    rw [hdrop, List.map_nil, swapSegments, crossAt_congr h₁₂ fun j hj => hsame j (h₁ ▸ hj),
      crossAt_congr h₁₂.symm fun j hj => hsame j (h₂ ▸ hj)]
  -- the segment ending at the `i`-th point is exchanged first
  have hstep : ∀ j < n, ((exchangedAt cuts n j && decide (j < segmentStart cuts n i)) ^^
      decide (clampIndex n start ≤ j ∧ j < clampIndex n (cutAt cuts n i : Int))) =
        (exchangedAt cuts n j && decide (j < segmentStart cuts n (i + 2))) := fun j hj => by
    rw [exchangedAt_step hc heven hle hs hj, segmentStart, if_neg (by omega), show i + 2 - 1 = i + 1 by omega]
  have hx : assignSlice (crossAt (fun j => exchangedAt cuts n j && decide (j < segmentStart cuts n i)) v₁ v₂)
      start (cutAt cuts n i) (slice (crossAt (fun j => exchangedAt cuts n j &&
        decide (j < segmentStart cuts n i)) v₂ v₁) start (cutAt cuts n i)) =
      crossAt (fun j => exchangedAt cuts n j && decide (j < segmentStart cuts n (i + 2))) v₁ v₂ := by
    rw [exchangePart_crossAt _ h₁₂, h₁]
    exact crossAt_congr h₁₂ fun j hj => hstep j (h₁ ▸ hj)
  have hy : assignSlice (crossAt (fun j => exchangedAt cuts n j && decide (j < segmentStart cuts n i)) v₂ v₁)
      start (cutAt cuts n i) (slice (crossAt (fun j => exchangedAt cuts n j &&
        decide (j < segmentStart cuts n i)) v₁ v₂) start (cutAt cuts n i)) =
      crossAt (fun j => exchangedAt cuts n j && decide (j < segmentStart cuts n (i + 2))) v₂ v₁ := by
    rw [exchangePart_crossAt _ h₁₂.symm, h₂]
    exact crossAt_congr h₁₂.symm fun j hj => hstep j (h₂ ▸ hj)
  rcases Nat.lt_or_ge i cuts.length with hik | hik
  · -- a point follows: the walk goes on from it, or from one before the end
    rw [drop_cutAt hle, drop_cutAt (by omega : i + 1 ≤ cuts.length), List.map_cons, List.map_cons,
      swapSegments.eq_2, hx, hy]
    by_cases hlt : (cutAt cuts n i : Int) < ((cuts.length + 1 : Nat) : Int)
    · rw [if_pos hlt]
      exact swapSegments_from hc h₁ h₂ (i + 2) (by omega) (by omega) _
        (.inr (.inl ⟨by omega, by simp only [Nat.add_sub_cancel]; omega, rfl⟩))
    · rw [if_neg hlt]
      exact swapSegments_from hc h₁ h₂ (i + 2) (by omega) (by omega) _
        (.inr (.inr ⟨by omega, by simp only [Nat.add_sub_cancel]; omega, rfl⟩))
  · -- the last point is the length, beyond the number of points: the walk ends
    have hend : (cuts ++ [n]).drop (i + 1) = [] := List.drop_eq_nil_of_le (by simp; omega)
    have hkn := hc.length_lt
    rw [drop_cutAt hle, hend, List.map_cons, List.map_nil, swapSegments.eq_3, hx, hy,
      if_neg (by rw [cutAt_of_ge hik]; omega)]
    have hsame : ∀ j < n, (exchangedAt cuts n j && decide (j < segmentStart cuts n (i + 2))) =
        exchangedAt cuts n j := fun j hj => by
      rw [segmentStart, if_neg (by omega), cutAt_of_ge (by omega), decide_eq_true hj, Bool.and_true]
    rw [crossAt_congr h₁₂ fun j hj => hsame j (h₁ ▸ hj), crossAt_congr h₁₂.symm fun j hj => hsame j (h₂ ▸ hj)]
termination_by cuts.length + 1 - i

end Walk

/-- **Where every cut point but the last is at most `k`**, the positions the
exchange swaps are exactly the alternate segments. -/
theorem exchangedAt_eq_inAlternate (hc : Cuts cuts n) (hfront : ∀ p ∈ cuts.dropLast, p ≤ cuts.length)
    {c : Nat} (hcn : c < n) : exchangedAt cuts n c = inAlternate cuts c := by
  -- all cut points but the last lie at or before `k`, and all of them before the last position
  have hK : cuts.length - 1 ≤ cutsUpTo cuts cuts.length :=
    calc cuts.length - 1 = cuts.dropLast.length := by simp
      _ = cuts.dropLast.countP (· ≤ cuts.length) := (List.countP_eq_length.2 (by simpa using hfront)).symm
      _ ≤ cutsUpTo cuts cuts.length := (List.dropLast_sublist cuts).countP_le
  have hup : cutsUpTo cuts c ≤ cuts.length := List.countP_le_length
  have hlast : c + 1 = n → cutsUpTo cuts c = cuts.length := fun h =>
    List.countP_eq_length.2 fun p hp => by
      have := hc.lt p hp
      simp only [decide_eq_true_eq]
      omega
  rw [exchangedAt, inAlternate, Bool.beq_eq_decide_eq, decide_eq_decide]
  omega

theorem cutPoints_cuts (v : List Value) (cuts : List Nat) :
    cutPoints cuts.length v (cuts.map fun p : Nat => (p : Int)) =
      (cuts ++ [v.length]).map fun p : Nat => (p : Int) := by
  simp [cutPoints]

/-- **A k-point exchange swaps the segments its walk reaches.**  For two
sequences of `n` genes and sorted cut points strictly inside them, the
exchange answers both sequences crossed at exactly the positions
`exchangedAt` names, the cut points with the length appended, and no fault.
Those positions are the alternate segments `[0, p₁)`, `[p₂, p₃)`, … whenever
every cut point but the last is at most `k`. -/
theorem exchange_swaps_reached_segments {v₁ v₂ : List Value} {cuts : List Nat}
    (hv : v₁.length = v₂.length) (hc : Cuts cuts v₁.length) :
    exchange cuts.length v₁ v₂ (cuts.map fun p : Nat => (p : Int)) =
        (crossAt (exchangedAt cuts v₁.length) v₁ v₂, crossAt (exchangedAt cuts v₁.length) v₂ v₁,
          (cuts ++ [v₁.length]).map (fun p : Nat => (p : Int)), none) ∧
      ((∀ p ∈ cuts.dropLast, p ≤ cuts.length) →
        ∀ c < v₁.length, exchangedAt cuts v₁.length c = inAlternate cuts c) := by
  refine ⟨?_, fun hfront c hcn => exchangedAt_eq_inAlternate hc hfront hcn⟩
  have hwalk := swapSegments_from hc rfl hv.symm 0 rfl (Nat.zero_le _) 0 (.inl ⟨rfl, rfl⟩)
  -- before the first segment nothing is exchanged
  have hnone : (fun j => exchangedAt cuts v₁.length j && decide (j < segmentStart cuts v₁.length 0)) =
      fun _ => false := by
    funext j
    simp [segmentStart]
  rw [hnone, crossAt_none hv, crossAt_none hv.symm, List.drop_zero] at hwalk
  have hlen : ((cuts ++ [v₁.length]).map fun p : Nat => (p : Int)).length = cuts.length + 1 := by simp
  simp only [exchange, cutPoints_cuts, hlen, hwalk]

/-- Six zeros and six ones cut at `3` and `4`: the second segment, `[4, 6)`,
starts after a point beyond `k = 2`, so only its last position is swapped. -/
theorem exchange_swaps_reached_segments_threeFour :
    Cuts [3, 4] 6 ∧
      exchange 2 (List.replicate 6 (.int 0)) (List.replicate 6 (.int 1)) [3, 4] =
        ([1, 1, 1, 0, 0, 1].map .int, [0, 0, 0, 1, 1, 0].map .int, [3, 4, 6], none) := by
  have hc : Cuts [3, 4] (List.replicate 6 (Value.int 0)).length :=
    ⟨by decide, by decide, by decide, by decide⟩
  refine ⟨hc, ?_⟩
  have h := (@exchange_swaps_reached_segments (List.replicate 6 (.int 0)) (List.replicate 6 (.int 1)) [3, 4]
    rfl hc).1
  exact h.trans rfl

end Chromosome

end Evolver
