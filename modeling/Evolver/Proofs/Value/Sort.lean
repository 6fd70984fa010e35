import Evolver.Value.Sort
import Mathlib
/-!
# Sorting by a comparison that may fail

`sortBy lt` takes the run at the front of the list and then inserts every later
item by binary search.  What it answers depends on what is known of `lt` on
the items, each of which satisfies a predicate `P`:

* `AnswersOn lt P`: the comparison answers on every two items.  Then the sort
  answers too, with a permutation of the items (`sortBy_perm`), also when the
  answers are no order at all, as for NaN keys.
* `ComparesBy lt P key`: the comparison says whether the first item has the
  smaller key, for a key into a linear order.  Then the answer is ordered by
  the key (`sortBy_sorted`), and when no two items share a key it does not
  depend on the order they came in (`sortBy_eq_of_perm`).

The binary search is proved once, by its invariant `SearchBounds`: the items
before the interval have keys at most the new item's, those after it keys
above (`insertionPoint_bounds`).  `sortDesc_perm` and `sortDesc_sorted` carry
the results over to the largest-first sort.
-/

namespace Evolver

variable {α β : Type} [LinearOrder β]

@[simp] theorem except_ok_bind {ε γ δ : Type} (a : γ) (f : γ → Except ε δ) :
    (Except.ok a >>= f) = f a := rfl

@[simp] theorem except_pure {ε γ : Type} (a : γ) : (pure a : Except ε γ) = .ok a := rfl

section Comparisons

variable (lt : α → α → Except Fault Bool) (P : α → Prop) (key : α → β)

/-- The comparison answers on every two items that satisfy `P`. -/
def AnswersOn : Prop := ∀ a b, P a → P b → ∃ r, lt a b = .ok r

/-- On items that satisfy `P`, the comparison says whether the first has the
smaller key. -/
def ComparesBy : Prop := ∀ a b, P a → P b → lt a b = .ok (decide (key a < key b))

/-- Where `x` may go in `sorted` once the search has narrowed to `[l, r)`:
every item before `l` has a key at most `x`'s, every item from `r` on a key
above it. -/
def SearchBounds (sorted : Array α) (x : α) (l r : Nat) : Prop :=
  l ≤ r ∧ r ≤ sorted.size ∧ (∀ j (hj : j < sorted.size), j < l → key sorted[j] ≤ key x) ∧
    ∀ j (hj : j < sorted.size), r ≤ j → key x < key sorted[j]

variable {lt P key}

theorem ComparesBy.answersOn (h : ComparesBy lt P key) : AnswersOn lt P :=
  fun a b ha hb => ⟨_, h a b ha hb⟩

end Comparisons

variable {lt : α → α → Except Fault Bool} {P : α → Prop} {key : α → β}

/-! ### The run at the front -/

theorem frontRun_go (hlt : AnswersOn lt P) (down : Bool) (prev : α) (ys : List α) (n : Nat)
    (hprev : P prev) (hys : ∀ y ∈ ys, P y) :
    ∃ k ≤ ys.length, frontRun.go lt down prev ys n = .ok (n + k) ∧
      (prev :: ys.take k).IsChain (fun p y => lt y p = .ok down) := by
  induction ys generalizing prev n with
  | nil => exact ⟨0, le_rfl, rfl, .singleton prev⟩
  | cons y ys ih =>
    have hy : P y := hys y List.mem_cons_self
    obtain ⟨r, hr⟩ := hlt y prev hy hprev
    by_cases hd : r = down
    · -- the item keeps the direction: the run grows by one
      obtain ⟨k, hk, hgo, hchain⟩ := ih y (n + 1) hy fun z hz => hys z (List.mem_cons_of_mem y hz)
      refine ⟨k + 1, by simpa using hk, ?_, .cons_cons (hd ▸ hr) hchain⟩
      simp only [frontRun.go, hr, hd, except_ok_bind, beq_self_eq_true, if_true, hgo]
      exact congrArg Except.ok (by omega)
    · refine ⟨0, Nat.zero_le _, ?_, .singleton prev⟩
      simp only [frontRun.go, hr, except_ok_bind, beq_iff_eq, hd, if_false, except_pure, Nat.add_zero]

/-- **The run at the front** is a prefix in which each item keeps one
direction against the one before. -/
theorem frontRun_spec (hlt : AnswersOn lt P) (xs : List α) (hxs : ∀ x ∈ xs, P x) :
    ∃ n down, frontRun lt xs = .ok (n, down) ∧ n ≤ xs.length ∧
      (xs.take n).IsChain (fun p y => lt y p = .ok down) := by
  match xs with
  | [] => exact ⟨0, false, rfl, le_rfl, .nil⟩
  | [a] => exact ⟨1, false, rfl, le_rfl, .singleton a⟩
  | a :: b :: rest =>
    have ha : P a := hxs a (by simp)
    have hb : P b := hxs b (by simp)
    obtain ⟨r, hr⟩ := hlt b a hb ha
    obtain ⟨k, hk, hgo, hchain⟩ := frontRun_go hlt r b rest 2 hb fun z hz => hxs z (by simp [hz])
    refine ⟨2 + k, r, ?_, by simp; omega, ?_⟩
    · cases r <;> simp [frontRun, hr, hgo]
    · rw [Nat.add_comm, List.take_succ_cons, List.take_succ_cons]
      exact .cons_cons hr hchain

/-- A run that keeps its direction is sorted once a descending one is turned
round. -/
theorem run_sorted (hlt : ComparesBy lt P key) {run : List α} {down : Bool}
    (hP : ∀ x ∈ run, P x) (h : run.IsChain (fun p y => lt y p = .ok down)) :
    (if down then run.reverse else run).Pairwise (fun a b => key a ≤ key b) := by
  -- on the run the answer is the comparison of keys
  have hkey : run.IsChain (fun p y => down = decide (key y < key p)) :=
    h.imp_of_mem_imp fun p y hp hy hpy => by
      rw [hlt y p (hP y hy) (hP p hp)] at hpy
      exact (Except.ok.inj hpy).symm
  have hle : ∀ l : List α, l.IsChain (fun a b => key a ≤ key b) →
      l.Pairwise (fun a b => key a ≤ key b) := fun l hl =>
    List.pairwise_map.1 (((List.isChain_map key).2 hl).pairwise)
  cases down
  · exact hle run (hkey.imp fun p y hpy => not_lt.1 (by simpa using hpy))
  · refine hle run.reverse (List.isChain_reverse.2 (hkey.imp fun p y hpy => ?_))
    exact le_of_lt (by simpa using hpy.symm)

/-! ### The binary search -/

theorem insertionPoint_le (hlt : AnswersOn lt P) {sorted : Array α} {x : α}
    (hs : ∀ y ∈ sorted.toList, P y) (hx : P x) (fuel l r : Nat) :
    l ≤ r → r ≤ sorted.size →
      ∃ i, insertionPoint lt sorted x fuel l r = .ok i ∧ l ≤ i ∧ i ≤ r := by
  fun_induction insertionPoint lt sorted x fuel l r with
  | case1 l r => exact fun hlr _ => ⟨l, rfl, le_rfl, hlr⟩
  | case2 fuel l r hlr p ih2 ih1 =>
    intro _ hr
    have hp : p < sorted.size := by omega
    have hmid : sorted.getD p x = sorted[p] := by simp [hp]
    obtain ⟨b, hb⟩ := hlt x sorted[p] hx (hs _ (Array.getElem_mem_toList hp))
    cases b
    · obtain ⟨i, hi, h1, h2⟩ := ih1 (by omega) hr
      exact ⟨i, by simp [hmid, hb, hi], by omega, h2⟩
    · obtain ⟨i, hi, h1, h2⟩ := ih2 (by omega) (by omega)
      exact ⟨i, by simp [hmid, hb, hi], h1, by omega⟩
  | case3 fuel l r hlr => exact fun hle _ => ⟨l, rfl, le_rfl, hle⟩

/-- Whatever the comparison answers, a search that ends ends inside the
interval it started on. -/
theorem insertionPoint_le_of_ok {sorted : Array α} {x : α} {fuel l r i : Nat} (hlr : l ≤ r)
    (h : insertionPoint lt sorted x fuel l r = .ok i) : i ≤ r := by
  induction fuel generalizing l r with
  | zero =>
    obtain rfl : l = i := Except.ok.inj h
    exact hlr
  | succ fuel ih =>
    rw [insertionPoint] at h
    split at h
    · -- the item goes before or after the middle; either half lies inside `[l, r]`
      dsimp only at h
      cases hb : lt x (sorted.getD (l + (r - l) / 2) x) with
      | error e =>
        rw [hb] at h
        cases h
      | ok b =>
        rw [hb, except_ok_bind] at h
        cases b
        · rw [if_neg Bool.false_ne_true] at h
          exact ih (by omega) h
        · rw [if_pos rfl] at h
          have := ih (by omega) h
          omega
    · obtain rfl : l = i := Except.ok.inj h
      exact hlr

theorem key_le_of_sorted {sorted : Array α} (hsorted : sorted.toList.Pairwise (fun a b => key a ≤ key b))
    {i j : Nat} (hij : i ≤ j) (hj : j < sorted.size) : key sorted[i] ≤ key sorted[j] := by
  rcases Nat.lt_or_eq_of_le hij with h | rfl
  · have := List.pairwise_iff_getElem.1 hsorted i j (by simp; omega) (by simpa using hj) h
    simpa using this
  · exact le_rfl

/-- **The search finds where `x` belongs**: with fuel beyond the width of the
interval it ends on a place that splits the keys at `x`'s. -/
theorem insertionPoint_bounds (hlt : ComparesBy lt P key) {sorted : Array α} {x : α}
    (hsorted : sorted.toList.Pairwise (fun a b => key a ≤ key b)) (hs : ∀ y ∈ sorted.toList, P y)
    (hx : P x) (fuel l r : Nat) :
    r - l < fuel → SearchBounds key sorted x l r →
      ∃ i, insertionPoint lt sorted x fuel l r = .ok i ∧ SearchBounds key sorted x i i := by
  fun_induction insertionPoint lt sorted x fuel l r with
  | case1 l r => intro h; omega
  | case2 fuel l r hlr p ih2 ih1 =>
    intro hfuel ⟨hl, hr, hbelow, habove⟩
    have hp : p < sorted.size := by omega
    have hmid : sorted.getD p x = sorted[p] := by simp [hp]
    have hb := hlt x sorted[p] hx (hs _ (Array.getElem_mem_toList hp))
    by_cases hk : key x < key sorted[p]
    · -- `x` goes before the middle item: the search keeps `[l, p)`
      obtain ⟨i, hi, hbounds⟩ := ih2 (by omega) ⟨by omega, by omega, hbelow, fun j hj hpj =>
        lt_of_lt_of_le hk (key_le_of_sorted hsorted hpj hj)⟩
      exact ⟨i, by simp [hmid, hb, hk, hi], hbounds⟩
    · -- `x` goes after the middle item: the search keeps `[p + 1, r)`
      obtain ⟨i, hi, hbounds⟩ := ih1 (by omega) ⟨by omega, hr, fun j hj hjp =>
        le_trans (key_le_of_sorted hsorted (by omega) hp) (not_lt.1 hk), habove⟩
      exact ⟨i, by simp [hmid, hb, hk, hi], hbounds⟩
  | case3 fuel l r hlr =>
    intro _ hbounds
    obtain rfl : l = r := by have := hbounds.1; omega
    exact ⟨l, rfl, hbounds⟩

/-! ### Insertion -/

theorem toList_insertIdxIfInBounds (sorted : Array α) (i : Nat) (x : α) :
    (sorted.insertIdxIfInBounds i x).toList = sorted.toList.insertIdx i x := by
  have h := List.insertIdxIfInBounds_toArray sorted.toList i x
  rw [Array.toArray_toList] at h
  rw [h]

/-- Inserting `x` where the keys split at its own keeps a list sorted. -/
theorem insertIdx_sorted {l : List α} (hl : l.Pairwise (fun a b => key a ≤ key b)) {i : Nat} {x : α}
    (hi : i ≤ l.length) (hbefore : ∀ y ∈ l.take i, key y ≤ key x)
    (hafter : ∀ y ∈ l.drop i, key x ≤ key y) :
    (l.insertIdx i x).Pairwise (fun a b => key a ≤ key b) := by
  obtain ⟨l₁, l₂, rfl, rfl, heq⟩ := List.exists_of_modifyTailIdx (List.cons x) hi
  rw [List.insertIdx, heq]
  simp only [List.take_left', List.drop_left'] at hbefore hafter
  rw [List.pairwise_append] at hl ⊢
  refine ⟨hl.1, List.pairwise_cons.2 ⟨hafter, hl.2.1⟩, fun a ha b hb => ?_⟩
  rcases List.mem_cons.1 hb with rfl | hb
  · exact hbefore a ha
  · exact hl.2.2 a ha b hb

theorem SearchBounds.take_drop {sorted : Array α} {x : α} {i : Nat}
    (h : SearchBounds key sorted x i i) :
    i ≤ sorted.toList.length ∧ (∀ y ∈ sorted.toList.take i, key y ≤ key x) ∧
      ∀ y ∈ sorted.toList.drop i, key x ≤ key y := by
  obtain ⟨-, hi, hbelow, habove⟩ := h
  refine ⟨by simpa using hi, fun y hy => ?_, fun y hy => ?_⟩
  · obtain ⟨j, hj, rfl⟩ := List.mem_take_iff_getElem.1 hy
    simpa using hbelow j (by simp at hj; omega) (by omega)
  · obtain ⟨j, hj, rfl⟩ := List.mem_drop_iff_getElem.1 hy
    exact le_of_lt (by simpa using habove (i + j) (by simp at hj; omega) (by omega))

theorem insertIdxIfInBounds_perm (sorted : Array α) {i : Nat} (x : α) (hi : i ≤ sorted.size) :
    (sorted.insertIdxIfInBounds i x).toList.Perm (x :: sorted.toList) := by
  rw [toList_insertIdxIfInBounds]
  exact List.perm_insertIdx x _ (by simpa using hi)

theorem insertAll_perm (hlt : AnswersOn lt P) (sorted : Array α) (xs : List α)
    (hs : ∀ y ∈ sorted.toList, P y) (hxs : ∀ x ∈ xs, P x) :
    ∃ out, insertAll lt sorted xs = .ok out ∧ out.toList.Perm (sorted.toList ++ xs) := by
  induction xs generalizing sorted with
  | nil => exact ⟨sorted, rfl, by simp⟩
  | cons x xs ih =>
    have hx : P x := hxs x List.mem_cons_self
    obtain ⟨i, hi, -, hle⟩ := insertionPoint_le hlt hs hx (sorted.size + 1) 0 sorted.size
      (Nat.zero_le _) le_rfl
    have hperm := insertIdxIfInBounds_perm sorted x hle
    obtain ⟨out, hout, hp⟩ := ih _
      (fun y hy => (List.mem_cons.1 (hperm.subset hy)).elim (fun h => h ▸ hx) (hs y))
      fun y hy => hxs y (List.mem_cons_of_mem x hy)
    refine ⟨out, by simp [insertAll, hi, hout], ?_⟩
    exact hp.trans ((hperm.append_right xs).trans List.perm_middle.symm)

/-- Inserting never loses or repeats an item, whatever the comparison
answers. -/
theorem insertAll_perm_of_ok : ∀ (sorted : Array α) (xs : List α) {out : Array α},
    insertAll lt sorted xs = .ok out → out.toList.Perm (sorted.toList ++ xs)
  | sorted, [], out, h => by
    obtain rfl : sorted = out := Except.ok.inj h
    simp
  | sorted, x :: xs, out, h => by
    cases hi : insertionPoint lt sorted x (sorted.size + 1) 0 sorted.size with
    | error e =>
      rw [insertAll, hi] at h
      cases h
    | ok i =>
      rw [insertAll, hi, except_ok_bind] at h
      have hperm := insertIdxIfInBounds_perm sorted x (insertionPoint_le_of_ok (Nat.zero_le _) hi)
      exact (insertAll_perm_of_ok _ xs h).trans ((hperm.append_right xs).trans List.perm_middle.symm)

/-- The search over a whole sorted array ends where the keys split at `x`'s. -/
theorem insertionPoint_split (hlt : ComparesBy lt P key) {sorted : Array α} {x : α}
    (hsorted : sorted.toList.Pairwise (fun a b => key a ≤ key b)) (hs : ∀ y ∈ sorted.toList, P y)
    (hx : P x) : ∃ i, insertionPoint lt sorted x (sorted.size + 1) 0 sorted.size = .ok i ∧
      SearchBounds key sorted x i i :=
  insertionPoint_bounds hlt hsorted hs hx (sorted.size + 1) 0 sorted.size (by omega)
    ⟨Nat.zero_le _, le_rfl, fun j _ h => absurd h (Nat.not_lt_zero j), fun j hj h => absurd hj (by omega)⟩

/-- **One insertion step**: `x` goes where the keys split, and the array
stays sorted, its items and `x` all satisfying `P`. -/
theorem insertStep_spec (hlt : ComparesBy lt P key) {sorted : Array α} {x : α}
    (hsorted : sorted.toList.Pairwise (fun a b => key a ≤ key b)) (hs : ∀ y ∈ sorted.toList, P y)
    (hx : P x) : ∃ i, insertionPoint lt sorted x (sorted.size + 1) 0 sorted.size = .ok i ∧
      SearchBounds key sorted x i i ∧
      (sorted.insertIdxIfInBounds i x).toList.Pairwise (fun a b => key a ≤ key b) ∧
      ∀ y ∈ (sorted.insertIdxIfInBounds i x).toList, P y := by
  obtain ⟨i, hi, hbounds⟩ := insertionPoint_split hlt hsorted hs hx
  obtain ⟨hle, hbefore, hafter⟩ := hbounds.take_drop
  have hperm := insertIdxIfInBounds_perm sorted x (by simpa using hle)
  refine ⟨i, hi, hbounds, ?_, fun y hy => (List.mem_cons.1 (hperm.subset hy)).elim (fun h => h ▸ hx) (hs y)⟩
  rw [toList_insertIdxIfInBounds]
  exact insertIdx_sorted hsorted hle hbefore hafter

theorem insertAll_sorted (hlt : ComparesBy lt P key) (sorted : Array α) (xs : List α)
    (hsorted : sorted.toList.Pairwise (fun a b => key a ≤ key b))
    (hs : ∀ y ∈ sorted.toList, P y) (hxs : ∀ x ∈ xs, P x) {out : Array α}
    (hout : insertAll lt sorted xs = .ok out) : out.toList.Pairwise (fun a b => key a ≤ key b) := by
  induction xs generalizing sorted with
  | nil =>
    obtain rfl : sorted = out := Except.ok.inj hout
    exact hsorted
  | cons x xs ih =>
    obtain ⟨i, hi, -, hsorted', hs'⟩ := insertStep_spec hlt hsorted hs (hxs x List.mem_cons_self)
    exact ih _ hsorted' hs' (fun y hy => hxs y (List.mem_cons_of_mem x hy)) (by simpa [insertAll, hi] using hout)

/-! ### The sort -/

/-- The run at the front, turned round or not, holds the first `n` items. -/
theorem run_perm_take (xs : List α) (n : Nat) (down : Bool) :
    (if down then (xs.take n).reverse else xs.take n).Perm (xs.take n) := by
  cases down
  · exact List.Perm.refl _
  · exact List.reverse_perm _

/-- **How a sort that answers ran**: it found a run of `n` items at the
front, turned it round when it descends, and inserted the rest into it. -/
theorem sortBy_eq_ok {xs ys : List α} (h : sortBy lt xs = .ok ys) :
    ∃ n down out, frontRun lt xs = .ok (n, down) ∧
      insertAll lt (if down then (xs.take n).reverse else xs.take n).toArray (xs.drop n) = .ok out ∧
      ys = out.toList := by
  cases hrun : frontRun lt xs with
  | error e =>
    rw [sortBy, hrun] at h
    cases h
  | ok nd =>
    obtain ⟨n, down⟩ := nd
    cases hins : insertAll lt (if down then (xs.take n).reverse else xs.take n).toArray (xs.drop n) with
    | error e =>
      rw [sortBy, hrun, except_ok_bind] at h
      simp only [hins] at h
      cases h
    | ok out =>
      refine ⟨n, down, out, rfl, hins, ?_⟩
      simp only [sortBy, hrun, hins, except_ok_bind, except_pure] at h
      exact (Except.ok.inj h).symm

/-- A sort that answers on items the comparison answers on: its run at the
front is a chain in one direction. -/
theorem sortBy_run (hlt : AnswersOn lt P) {xs ys : List α} (hxs : ∀ x ∈ xs, P x)
    (hys : sortBy lt xs = .ok ys) :
    ∃ n down out, (xs.take n).IsChain (fun p y => lt y p = .ok down) ∧
      insertAll lt (if down then (xs.take n).reverse else xs.take n).toArray (xs.drop n) = .ok out ∧
      ys = out.toList := by
  obtain ⟨n, down, hrun, -, hchain⟩ := frontRun_spec hlt xs hxs
  obtain ⟨n', down', out, hrun', hout, rfl⟩ := sortBy_eq_ok hys
  obtain ⟨rfl, rfl⟩ := Prod.mk.inj (Except.ok.inj (hrun.symm.trans hrun'))
  exact ⟨n, down, out, hchain, hout, rfl⟩

/-- **Sorting never loses or repeats an item**: whatever the comparison
answers, a sort that answers gives a permutation of its items. -/
theorem sortBy_perm_of_ok {xs ys : List α} (h : sortBy lt xs = .ok ys) : ys.Perm xs := by
  obtain ⟨n, down, out, -, hins, rfl⟩ := sortBy_eq_ok h
  have hp : out.toList.Perm ((if down then (xs.take n).reverse else xs.take n) ++ xs.drop n) := by
    simpa using insertAll_perm_of_ok _ _ hins
  exact (hp.trans ((run_perm_take xs n down).append_right _)).trans (by rw [List.take_append_drop])

/-- **The sort answers with a permutation of its items** whenever the
comparison answers on them, whatever it answers. -/
theorem sortBy_perm (hlt : AnswersOn lt P) (xs : List α) (hxs : ∀ x ∈ xs, P x) :
    ∃ ys, sortBy lt xs = .ok ys ∧ ys.Perm xs := by
  obtain ⟨n, down, hrun, -, -⟩ := frontRun_spec hlt xs hxs
  obtain ⟨out, hout, -⟩ := insertAll_perm hlt (if down then (xs.take n).reverse else xs.take n).toArray
    (xs.drop n) (fun y hy => hxs y (List.mem_of_mem_take ((run_perm_take xs n down).subset (by simpa using hy))))
    fun y hy => hxs y (List.mem_of_mem_drop hy)
  have hys : sortBy lt xs = .ok out.toList := by simp [sortBy, hrun, hout]
  exact ⟨out.toList, hys, sortBy_perm_of_ok hys⟩

/-- **The sort orders its items by key** when the comparison compares keys:
the answer is a permutation of the items, each key at most the next. -/
theorem sortBy_sorted (hlt : ComparesBy lt P key) (xs : List α) (hxs : ∀ x ∈ xs, P x) :
    ∃ ys, sortBy lt xs = .ok ys ∧ ys.Perm xs ∧ ys.Pairwise (fun a b => key a ≤ key b) := by
  obtain ⟨ys, hys, hperm⟩ := sortBy_perm hlt.answersOn xs hxs
  refine ⟨ys, hys, hperm, ?_⟩
  obtain ⟨n, down, out, hchain, hout, rfl⟩ := sortBy_run hlt.answersOn hxs hys
  have htake : ∀ y ∈ xs.take n, P y := fun y hy => hxs y (List.mem_of_mem_take hy)
  have hrunP : ∀ y ∈ (if down then (xs.take n).reverse else xs.take n), P y :=
    fun y hy => htake y ((run_perm_take xs n down).subset hy)
  exact insertAll_sorted hlt _ _ (by simpa using run_sorted hlt htake hchain) (by simpa using hrunP)
    (fun y hy => hxs y (List.mem_of_mem_drop hy)) hout

/-- **With distinct keys the sorted list does not depend on the order of the
items.** -/
theorem sortBy_eq_of_perm (hlt : ComparesBy lt P key) {xs xs' : List α} (hp : xs.Perm xs')
    (hxs : ∀ x ∈ xs, P x) (hkey : ∀ a ∈ xs, ∀ b ∈ xs, key a = key b → a = b) :
    sortBy lt xs = sortBy lt xs' := by
  obtain ⟨ys, hys, hperm, hsorted⟩ := sortBy_sorted hlt xs hxs
  obtain ⟨ys', hys', hperm', hsorted'⟩ := sortBy_sorted hlt xs' fun x hx => hxs x (hp.mem_iff.2 hx)
  have hsame : ys.Perm ys' := hperm.trans (hp.trans hperm'.symm)
  have heq : ys = ys' := List.Perm.eq_of_pairwise (fun a b ha hb hab hba =>
    hkey a (hperm.subset ha) b ((hperm'.trans hp.symm).subset hb) (le_antisymm hab hba))
    hsorted hsorted' hsame
  rw [hys, hys', heq]

/-! ### Largest first -/

theorem sortDesc_perm (hlt : AnswersOn lt P) (xs : List α) (hxs : ∀ x ∈ xs, P x) :
    ∃ ys, sortDesc lt xs = .ok ys ∧ ys.Perm xs := by
  obtain ⟨ys, hys, hperm⟩ := sortBy_perm hlt xs.reverse fun x hx => hxs x (List.mem_reverse.1 hx)
  exact ⟨ys.reverse, by simp [sortDesc, hys], (List.reverse_perm ys).trans (hperm.trans (List.reverse_perm xs))⟩

theorem sortDesc_perm_of_ok {xs ys : List α} (h : sortDesc lt xs = .ok ys) : ys.Perm xs := by
  cases hs : sortBy lt xs.reverse with
  | error e =>
    rw [sortDesc, hs] at h
    cases h
  | ok zs =>
    obtain rfl : zs.reverse = ys := by
      simp only [sortDesc, hs, except_ok_bind, except_pure] at h
      exact Except.ok.inj h
    exact (List.reverse_perm zs).trans ((sortBy_perm_of_ok hs).trans (List.reverse_perm xs))

/-- **The largest-first sort orders its items by decreasing key.** -/
theorem sortDesc_sorted (hlt : ComparesBy lt P key) (xs : List α) (hxs : ∀ x ∈ xs, P x) :
    ∃ ys, sortDesc lt xs = .ok ys ∧ ys.Perm xs ∧ ys.Pairwise (fun a b => key b ≤ key a) := by
  obtain ⟨ys, hys, hperm, hsorted⟩ :=
    sortBy_sorted hlt xs.reverse fun x hx => hxs x (List.mem_reverse.1 hx)
  refine ⟨ys.reverse, by simp [sortDesc, hys],
    (List.reverse_perm ys).trans (hperm.trans (List.reverse_perm xs)), ?_⟩
  exact List.pairwise_reverse.2 hsorted

/-! ### Equal keys keep their order

The sort is stable: the items of one key come out in the order they came in
(`sortBy_filter_key`, `sortDesc_filter_key`).  An insertion goes after every
item whose key is not above its own, so before no item of its key; a run at
the front that descends does so strictly, so it holds at most one item of
each key and turning it round moves none.  A stable order therefore puts
first the first item that is best by key (`head?_eq_find?_of_stable`). -/

/-- Where the search ends, every later item has a key above the new one's. -/
theorem SearchBounds.drop_gt {sorted : Array α} {x : α} {i : Nat} (h : SearchBounds key sorted x i i) :
    ∀ y ∈ sorted.toList.drop i, key x < key y := by
  obtain ⟨-, hi, -, habove⟩ := h
  intro y hy
  obtain ⟨j, hj, rfl⟩ := List.mem_drop_iff_getElem.1 hy
  simpa using habove (i + j) (by simp at hj; omega) (by omega)

/-- Inserting `x` before items of larger keys only puts it after every item of
its own key. -/
theorem insertIdx_filter_key {l : List α} {i : Nat} {x : α} (hi : i ≤ l.length)
    (hafter : ∀ y ∈ l.drop i, key x < key y) (k : β) :
    (l.insertIdx i x).filter (fun a => key a = k) =
      l.filter (fun a => key a = k) ++ [x].filter (fun a => key a = k) := by
  obtain ⟨l₁, l₂, rfl, rfl, heq⟩ := List.exists_of_modifyTailIdx (List.cons x) hi
  rw [List.insertIdx, heq]
  simp only [List.drop_left'] at hafter
  by_cases hx : key x = k
  · -- every later item has a key above `k`, so none of them is kept
    have hnil : l₂.filter (fun a => key a = k) = [] :=
      List.filter_eq_nil_iff.2 fun a ha hka => ne_of_gt (hafter a ha) (by simpa [hx] using hka)
    simp [List.filter_append, hx, hnil]
  · simp [List.filter_append, hx]

/-- A list whose keys strictly descend holds at most one item of each key, so
turning its items of one key round changes nothing. -/
theorem reverse_filter_key_of_descends {l : List α} (h : l.Pairwise fun a b => key b < key a) (k : β) :
    (l.filter fun a => key a = k).reverse = l.filter fun a => key a = k := by
  rcases hl : l.filter (fun a => key a = k) with _ | ⟨a, _ | ⟨b, t⟩⟩
  · rfl
  · rfl
  · exfalso
    have hkept : ∀ c ∈ l.filter (fun a => key a = k), key c = k := fun c hc => by
      simpa using (List.mem_filter.1 hc).2
    have hp := h.filter (fun a => key a = k)
    rw [hl] at hp hkept
    have hab := List.rel_of_pairwise_cons hp List.mem_cons_self
    rw [hkept a List.mem_cons_self, hkept b (List.mem_cons_of_mem a List.mem_cons_self)] at hab
    exact lt_irrefl k hab

/-- A run at the front that descends descends strictly. -/
theorem run_descends (hlt : ComparesBy lt P key) {run : List α} (hP : ∀ x ∈ run, P x)
    (h : run.IsChain (fun p y => lt y p = .ok true)) : run.Pairwise (fun a b => key b < key a) := by
  have hkey : run.IsChain (fun p y => key y < key p) :=
    h.imp_of_mem_imp fun p y hp hy hpy => by
      rw [hlt y p (hP y hy) (hP p hp)] at hpy
      simpa using hpy
  have hmap : (run.map key).IsChain (fun a b => b < a) := (List.isChain_map key).2 hkey
  have htrans : Trans (fun a b : β => b < a) (fun a b => b < a) (fun a b => b < a) :=
    ⟨fun h₁ h₂ => lt_trans h₂ h₁⟩
  exact List.pairwise_map.1 hmap.pairwise

/-- **Insertion keeps the order of equal keys**: the items of key `k` of the
result are those of the array followed by those inserted, in order. -/
theorem insertAll_filter_key (hlt : ComparesBy lt P key) (sorted : Array α) (xs : List α)
    (hsorted : sorted.toList.Pairwise (fun a b => key a ≤ key b))
    (hs : ∀ y ∈ sorted.toList, P y) (hxs : ∀ x ∈ xs, P x) {out : Array α}
    (hout : insertAll lt sorted xs = .ok out) (k : β) :
    out.toList.filter (fun a => key a = k) =
      sorted.toList.filter (fun a => key a = k) ++ xs.filter (fun a => key a = k) := by
  induction xs generalizing sorted with
  | nil =>
    obtain rfl : sorted = out := Except.ok.inj hout
    simp
  | cons x xs ih =>
    obtain ⟨i, hi, hbounds, hsorted', hs'⟩ := insertStep_spec hlt hsorted hs (hxs x List.mem_cons_self)
    have hrest := ih _ hsorted' hs' (fun y hy => hxs y (List.mem_cons_of_mem x hy))
      (by simpa [insertAll, hi] using hout)
    rw [hrest, toList_insertIdxIfInBounds, insertIdx_filter_key hbounds.take_drop.1 hbounds.drop_gt k,
      List.append_assoc, ← List.filter_append]
    rfl

/-- **The sort is stable**: the items of each key come out in the order they
came in. -/
theorem sortBy_filter_key (hlt : ComparesBy lt P key) (xs : List α) (hxs : ∀ x ∈ xs, P x) {ys : List α}
    (hys : sortBy lt xs = .ok ys) (k : β) :
    ys.filter (fun a => key a = k) = xs.filter (fun a => key a = k) := by
  obtain ⟨n, down, out, hchain, hout, rfl⟩ := sortBy_run hlt.answersOn hxs hys
  have htake : ∀ y ∈ xs.take n, P y := fun y hy => hxs y (List.mem_of_mem_take hy)
  have hrunP : ∀ y ∈ (if down then (xs.take n).reverse else xs.take n), P y :=
    fun y hy => htake y ((run_perm_take xs n down).subset hy)
  -- the run keeps its items of each key in order, turned round or not
  have hfront : (if down then (xs.take n).reverse else xs.take n).filter (fun a => key a = k) =
      (xs.take n).filter (fun a => key a = k) := by
    cases down
    · rfl
    · rw [if_pos rfl, List.filter_reverse]
      exact reverse_filter_key_of_descends (run_descends hlt htake hchain) k
  rw [insertAll_filter_key hlt _ _ (by simpa using run_sorted hlt htake hchain) (by simpa using hrunP)
    (fun y hy => hxs y (List.mem_of_mem_drop hy)) hout k]
  rw [List.toList_toArray, hfront, ← List.filter_append, List.take_append_drop]

/-- The largest-first sort is stable too. -/
theorem sortDesc_filter_key (hlt : ComparesBy lt P key) (xs : List α) (hxs : ∀ x ∈ xs, P x) {ys : List α}
    (hys : sortDesc lt xs = .ok ys) (k : β) :
    ys.filter (fun a => key a = k) = xs.filter (fun a => key a = k) := by
  obtain ⟨zs, hzs, -⟩ := sortBy_perm hlt.answersOn xs.reverse fun x hx => hxs x (List.mem_reverse.1 hx)
  have hys' : ys = zs.reverse := by
    simp only [sortDesc, hzs, except_ok_bind, except_pure] at hys
    exact (Except.ok.inj hys).symm
  rw [hys', List.filter_reverse, sortBy_filter_key hlt _ (fun x hx => hxs x (List.mem_reverse.1 hx)) hzs k,
    List.filter_reverse, List.reverse_reverse]

/-- **A stable order puts first the first best item.**  When `ys` reorders
`xs` so that every item is in relation `r` by key to each later one, and the
items of each key keep their order, the first item of `ys` is the first item
of `xs` in relation `r` to every item of `xs`. -/
theorem head?_eq_find?_of_stable {r : β → β → Prop} [DecidableRel r] (hrefl : ∀ a, r a a)
    (hanti : ∀ a b, r a b → r b a → a = b) {xs ys : List α} (hperm : ys.Perm xs)
    (hsorted : ys.Pairwise fun a b => r (key a) (key b))
    (hstable : ∀ k, ys.filter (fun a => key a = k) = xs.filter (fun a => key a = k)) :
    ys.head? = xs.find? fun x => xs.all fun y => decide (r (key x) (key y)) := by
  cases ys with
  | nil => rw [List.nil_perm.1 hperm]; rfl
  | cons y rest =>
    -- the first item is in relation `r` to all, so the best items are those of its key
    have hbest : ∀ z ∈ xs, r (key y) (key z) := fun z hz => by
      rcases List.mem_cons.1 (hperm.symm.subset hz) with rfl | hz
      · exact hrefl _
      · exact List.rel_of_pairwise_cons hsorted hz
    have hiff : ∀ x ∈ xs, (xs.all fun z => decide (r (key x) (key z))) = decide (key x = key y) := by
      intro x hx
      rw [Bool.eq_iff_iff, List.all_eq_true, decide_eq_true_iff]
      simp only [decide_eq_true_iff]
      constructor
      · exact fun h => hanti _ _ (h y (hperm.subset List.mem_cons_self)) (hbest x hx)
      · exact fun h z hz => h ▸ hbest z hz
    rw [← List.head?_filter, List.filter_congr hiff, ← hstable, List.filter_cons_of_pos (by simp)]
    rfl

end Evolver
