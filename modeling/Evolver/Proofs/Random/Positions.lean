import Evolver.Lab
import Mathlib
/-!
# Positions drawn from the stream

Tournaments draw their participants as positions of the population: with
replacement by `Stream.pick` (`⌊random() * n⌋` each), without by
`Stream.sample` (a shrinking pool, or rejection of positions already drawn).
Every position either draw gives is a position of the population, and there
are as many as asked for:

* `random53` gives 53 bits (`random53_lt`), so the product with `n`, rounded
  to 53 significant bits, stays below `n * 2^53` (`round53_mul_lt`): rounding
  up moves by half a unit of the last place at most, which is below `n`, while
  the product falls short of `n * 2^53` by `n` at least; its floor over `2^53`
  is a position (`position_lt`);
* `below n` is below `n`, a rejection that runs out of fuel giving `0`
  (`below_lt`), so every pool item and every rejected-and-redrawn position is
  one (`sample_spec`).
-/

namespace Evolver

namespace Random

namespace Stream

/-! ### One draw -/

/-- The shift of a word drops its low bits. -/
theorem toNat_shiftRight_lt (w k : UInt32) (hk : k.toNat < 32) :
    (w >>> k).toNat < 2 ^ (32 - k.toNat) := by
  have hw := w.toNat_lt
  rw [UInt32.toNat_shiftRight, Nat.mod_eq_of_lt hk, Nat.shiftRight_eq_div_pow,
    Nat.div_lt_iff_lt_mul (by positivity), ← pow_add, Nat.sub_add_cancel hk.le]
  exact hw

theorem random53_lt (s : Stream) : s.random53.1 < 2 ^ 53 := by
  have ha := toNat_shiftRight_lt s.word.1 5 (by decide)
  have hb := toNat_shiftRight_lt s.word.2.word.1 6 (by decide)
  unfold random53
  dsimp only
  have h5 : (32 - (5 : UInt32).toNat) = 27 := rfl
  have h6 : (32 - (6 : UInt32).toNat) = 26 := rfl
  rw [h5] at ha
  rw [h6] at hb
  omega

/-- **Rounding a product with a draw stays below the next multiple**: for
`m < 2^53`, `m * n` rounded to 53 significant bits is below `n * 2^53`. -/
theorem round53_mul_lt {m n : Nat} (hm : m < 2 ^ 53) (hn : 0 < n) : round53 (m * n) < n * 2 ^ 53 := by
  -- the product falls short of `n * 2^53` by `n` at least
  have hshort : m * n + n ≤ n * 2 ^ 53 := by
    calc m * n + n = (m + 1) * n := by rw [Nat.add_mul, Nat.one_mul]
      _ ≤ 2 ^ 53 * n := Nat.mul_le_mul_right n hm
      _ = n * 2 ^ 53 := Nat.mul_comm _ _
  unfold round53
  simp only [Nat.pow_eq]
  split
  · omega
  rename_i hbig
  set p := m * n with hp
  set e := p.log2 - 52 with he
  have hp0 : p ≠ 0 := by omega
  have hlog : 53 ≤ p.log2 := (Nat.le_log2 hp0).2 (by omega)
  -- half a unit of the last place is below `n`: else `n * 2^53 ≤ 2^(log2 p) ≤ p`
  have hhalf : 2 ^ (e - 1) < n := by
    refine Nat.lt_of_not_le fun hle => ?_
    have htop : n * 2 ^ 53 ≤ p :=
      calc n * 2 ^ 53 ≤ 2 ^ (e - 1) * 2 ^ 53 := Nat.mul_le_mul_right _ hle
        _ = 2 ^ p.log2 := by rw [← pow_add]; congr 1; omega
        _ ≤ p := Nat.log2_self_le hp0
    omega
  have hulp : 2 ^ e = 2 * 2 ^ (e - 1) := by
    rw [← pow_succ']
    congr 1
    omega
  have hsplit : p / 2 ^ e * 2 ^ e + p % 2 ^ e = p := Nat.div_add_mod' p (2 ^ e)
  split
  · -- rounded up: by the unit less what was cut off, at least half a unit
    rename_i hup
    have hcut : 2 ^ (e - 1) ≤ p % 2 ^ e := by omega
    rw [Nat.add_mul, Nat.one_mul]
    omega
  · -- rounded down: at most the product
    omega

/-- **A drawn position is a position**: `⌊random() * n⌋ < n`. -/
theorem position_lt {n m : Nat} (hm : m < 2 ^ 53) (hn : 0 < n) (hn' : n < 2 ^ 53) : position n m < n := by
  unfold position
  simp only [Nat.pow_eq]
  rw [if_pos hn']
  exact Nat.div_lt_of_lt_mul (by rw [Nat.mul_comm (2 ^ 53)]; exact round53_mul_lt hm hn)

/-! ### With replacement -/

/-- **Positions drawn with replacement**: as many as asked for, each a
position. -/
theorem pick_spec {n : Nat} (hn : 0 < n) (hn' : n < 2 ^ 53) :
    ∀ (k : Nat) (s : Stream), (pick n k s).1.length = k ∧ ∀ i ∈ (pick n k s).1, i < n
  | 0, _ => ⟨rfl, fun _ h => absurd h List.not_mem_nil⟩
  | k + 1, s => by
    obtain ⟨hlen, hlt⟩ := pick_spec hn hn' k s.random53.2
    refine ⟨by simp [pick, hlen], fun i hi => ?_⟩
    simp only [pick, List.mem_cons] at hi
    rcases hi with rfl | hi
    · exact position_lt (random53_lt s) hn hn'
    · exact hlt i hi

/-! ### Without replacement -/

/-- **A rejection draw is below its bound**, the fallback `0` included. -/
theorem below_lt {n : Nat} (hn : 0 < n) (s : Stream) : (below n s).1 < n := by
  have hgo : ∀ fuel k s, (below.go n fuel k s).1 < n := by
    intro fuel
    induction fuel with
    | zero => intro k s; exact hn
    | succ fuel ih =>
      intro k s
      simp only [below.go]
      split
      · assumption
      · exact ih k _
  exact hgo _ _ _

theorem freshBelow_lt {n : Nat} (hn : 0 < n) (taken : List Nat) :
    ∀ (fuel : Nat) (s : Stream), (freshBelow n taken fuel s).1 < n
  | 0, _ => hn
  | fuel + 1, s => by
    simp only [freshBelow]
    split
    · exact freshBelow_lt hn taken fuel _
    · exact below_lt hn s

/-- The pool holds positions only, so the draws from it are positions. -/
theorem poolDraw_spec {n : Nat} (hn : 0 < n) :
    ∀ (is : List Nat) (acc : Array Nat × List Nat × Stream), (∀ x ∈ acc.1.toList, x < n) →
      (∀ x ∈ acc.2.1, x < n) →
      ((is.foldl (poolDraw n) acc).2.1.length = acc.2.1.length + is.length ∧
        ∀ x ∈ (is.foldl (poolDraw n) acc).2.1, x < n)
  | [], _, _, hout => ⟨rfl, hout⟩
  | i :: is, (pool, out, s), hpool, hout => by
    -- an item of the pool, or the default `0`, is a position
    have hget : ∀ j, pool.getD j 0 < n := fun j => by
      rw [Array.getD_eq_getD_getElem?]
      rcases h : pool[j]? with _ | x
      · exact hn
      · exact hpool x (Array.mem_toList_iff.2 (Array.mem_of_getElem? h))
    have hpool' : ∀ x ∈ (pool.setIfInBounds (below (n - i) s).1 (pool.getD (n - i - 1) 0)).toList, x < n := by
      intro x hx
      rcases Array.mem_or_eq_of_mem_setIfInBounds (Array.mem_toList_iff.1 hx) with hx | rfl
      · exact hpool x (Array.mem_toList_iff.2 hx)
      · exact hget _
    obtain ⟨hlen, hlt⟩ := poolDraw_spec hn is (poolDraw n (pool, out, s) i) hpool' (by
      intro x hx
      simp only [poolDraw, List.mem_cons] at hx
      rcases hx with rfl | hx
      · exact hget _
      · exact hout x hx)
    refine ⟨?_, hlt⟩
    rw [List.foldl_cons, hlen]
    simp only [poolDraw, List.length_cons, List.length_cons]
    omega

theorem rejectDraw_spec {n : Nat} (hn : 0 < n) :
    ∀ (is : List Nat) (acc : List Nat × Stream), (∀ x ∈ acc.1, x < n) →
      ((is.foldl (rejectDraw n) acc).1.length = acc.1.length + is.length ∧
        ∀ x ∈ (is.foldl (rejectDraw n) acc).1, x < n)
  | [], _, hout => ⟨rfl, hout⟩
  | i :: is, acc, hout => by
    obtain ⟨hlen, hlt⟩ := rejectDraw_spec hn is (rejectDraw n acc i) (by
      intro x hx
      simp only [rejectDraw, List.mem_cons] at hx
      rcases hx with rfl | hx
      · exact freshBelow_lt hn _ _ _
      · exact hout x hx)
    refine ⟨?_, hlt⟩
    rw [List.foldl_cons, hlen]
    simp only [rejectDraw, List.length_cons]
    omega

/-- **Positions drawn without replacement**: when the sample is drawn, there
are as many as asked for, each a position. -/
theorem sample_spec {n k : Nat} {s s' : Stream} {out : List Nat} (h : sample n k s = .ok (out, s')) :
    out.length = k ∧ ∀ i ∈ out, i < n := by
  unfold sample at h
  by_cases hk : k > n
  · rw [if_pos hk] at h
    cases h
  rw [if_neg hk] at h
  -- no draw at all, or a population to draw from
  rcases Nat.eq_zero_or_pos n with rfl | hn
  · have hk0 : k = 0 := by omega
    subst hk0
    split at h <;> (cases h; exact ⟨rfl, fun _ h => absurd h List.not_mem_nil⟩)
  split at h
  · obtain ⟨hlen, hlt⟩ := poolDraw_spec hn (List.range k) ((List.range n).toArray, [], s)
      (fun x hx => by simpa using hx) (fun _ h => absurd h List.not_mem_nil)
    cases h
    exact ⟨by simpa using hlen, fun i hi => hlt i (List.mem_reverse.1 hi)⟩
  · obtain ⟨hlen, hlt⟩ := rejectDraw_spec hn (List.range k) ([], s) (fun _ h => absurd h List.not_mem_nil)
    cases h
    exact ⟨by simpa using hlen, fun i hi => hlt i (List.mem_reverse.1 hi)⟩

end Stream

end Random

end Evolver
