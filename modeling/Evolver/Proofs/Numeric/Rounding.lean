import Evolver.Proofs.Numeric.Order
/-!
# Rounding a quotient to a double

`ratToFloat` scales `num / den` by a power of two into `[2^52, 2^53)`, rounds
it to a whole significand and lays out the bits (`Evolver.Decimal.Read`).  The
float model turns a bit pattern into a double through its unpacked form, so
the first result here is that nothing is lost on the way: the bits of every
number survive `Float.ofBits` (`toBits_ofBits`).

Main statements:

* `inf_add_of_fields`: infinity plus a finite number is infinity;
* `binScale_spec`: the scale does put the quotient in `[2^52, 2^53)`;
* `build_fields`: the fields of the word the last step lays out, and
  `ratToFloat_layout`: the significand and grid it lays out, a carry included;
* `ratToFloat_fields_of_le`, `ratToFloat_isInf_of_le`: a quotient at most
  one is a finite double, so dividing two whole numbers of which the first is
  the smaller in size never overflows;
* `ratToFloat_beq_zero`, `intToFloat_beq_zero`: a quotient at least one, and
  so every nonzero whole number, becomes a nonzero double.
-/

namespace Evolver
namespace Numeric

open Float.Model UnpackedFloat

namespace Fields

/-- A bit pattern is its sign, exponent and fraction laid side by side. -/
theorem toNat_eq (w : UInt64) :
    w.toNat = (if (ofBits w).neg then 2 ^ 63 else 0) + (ofBits w).exp * 2 ^ 52 + (ofBits w).frac := by
  have hw := w.toNat_lt
  by_cases h : 2 ^ 63 ≤ w.toNat <;> simp only [ofBits, h, decide_true, decide_false, if_true,
    if_false, Bool.false_eq_true] <;> omega

theorem toNat_packComponents (s : Sign) (e : BitVec 11) (m : BitVec 52) :
    (packComponents Format.binary64 s e m).toNat = s.toBitVec.toNat * 2 ^ 63 + e.toNat * 2 ^ 52 + m.toNat := by
  have he := e.isLt
  have hm := m.isLt
  have hs : s.toBitVec.toNat < 2 := s.toBitVec.isLt
  simp only [packComponents, BitVec.toNat_append]
  rw [← Nat.shiftLeft_add_eq_or_of_lt he, ← Nat.shiftLeft_add_eq_or_of_lt hm, Nat.shiftLeft_eq,
    Nat.shiftLeft_eq]
  omega

theorem toNat_sign (f : Fields) : f.sign.toBitVec.toNat = if f.neg then 1 else 0 := by
  cases h : f.neg <;> simp [sign, h, Sign.toBitVec]

/-- **Packing what was unpacked gives the bits back**, for every bit pattern
that is not a NaN. -/
theorem toNat_pack_unpacked {w : UInt64} (hw : (ofBits w).IsNumber) :
    (UnpackedFloat.pack Format.binary64 (ofBits w).unpacked).toNat = w.toNat := by
  have hexp := hw.exp_lt
  have hfrac := hw.frac_lt
  have hsign := toNat_sign (ofBits w)
  rw [toNat_eq w]
  rcases unpacked_cases hw with ⟨hu, hE, hM⟩ | ⟨hu, hl⟩ | ⟨hpos, hu, hl, hE⟩
  · -- an infinity: all exponent bits set, no fraction
    rw [hu, UnpackedFloat.pack, packedInfinity, toNat_packComponents, hsign, hE, hM]
    split <;> simp
  · -- a zero: no exponent, no fraction
    simp only [low] at hl
    rw [hu, UnpackedFloat.pack, packedZero, toNat_packComponents, hsign]
    split <;> simp <;> omega
  · rw [hu]
    by_cases h0 : (ofBits w).exp = 0
    · -- a subnormal number: the fraction alone, below the leading bit
      have hm : (ofBits w).mant = (ofBits w).frac := by simp [mant, h0]
      have he : (ofBits w).expo = -1074 := by simp [expo, h0]
      have hlog : (ofBits w).frac.log2 < 52 := (Nat.log2_lt (by simp [low, h0] at hl; omega)).2 hfrac
      have hb : ((-1074 : Int) + (Format.binary64.exponentBias : Int) +
          (Format.binary64.mantissaBitsWithoutImplicit : Int)).toNat = 1 := rfl
      simp only [UnpackedFloat.pack, hm, he, hb]
      rw [if_neg (by decide), if_neg (show (ofBits w).frac.log2 + 1 ≠ Format.binary64.mantissaBits from
        fun h => by change _ = 53 at h; omega), toNat_packComponents,
        hsign, h0]
      simp only [BitVec.toNat_ofNat, Nat.zero_mod, Nat.mod_eq_of_lt hfrac]
      split <;> simp
    · -- a normal number: the exponent bits, and the mantissa without its leading bit
      have hm : (ofBits w).mant = 2 ^ 52 + (ofBits w).frac := by simp [mant, h0]
      have he : (ofBits w).expo = (ofBits w).exp - 1075 := by simp [expo, h0]
      have hb : ((ofBits w).expo + (Format.binary64.exponentBias : Int) +
          (Format.binary64.mantissaBitsWithoutImplicit : Int)).toNat = (ofBits w).exp := by
        rw [he]
        change ((ofBits w).exp - 1075 + 1023 + 52 : Int).toNat = _
        omega
      have hlog : (2 ^ 52 + (ofBits w).frac).log2 = 52 :=
        (Nat.log2_eq_iff (by omega)).2 ⟨by omega, by omega⟩
      simp only [UnpackedFloat.pack, hb]
      rw [if_neg (show ¬ 2 ^ Format.binary64.exponentBits ≤ (ofBits w).exp + 1 from
        fun h => by change 2 ^ 11 ≤ _ at h; omega), hm, if_pos (by rw [hlog]; rfl),
        toNat_packComponents, hsign, BitVec.toNat_ofNat, BitVec.toNat_ofNat,
        Nat.mod_eq_of_lt (show (ofBits w).exp < 2 ^ 11 by omega)]
      have : (2 ^ 52 + (ofBits w).frac) % 2 ^ 52 = (ofBits w).frac := by omega
      rw [this]
      split <;> simp

/-- The fields of a word laid out from a sign, an exponent and a fraction. -/
theorem ofBits_of_toNat {w : UInt64} {neg : Bool} {e m : Nat} (he : e < 2 ^ 11) (hm : m < 2 ^ 52)
    (h : w.toNat = (if neg then 2 ^ 63 else 0) + e * 2 ^ 52 + m) : ofBits w = ⟨neg, e, m⟩ := by
  simp only [ofBits, h]
  cases neg <;> simp <;> omega

theorem isNumber_of_lt {f : Fields} (he : f.exp < 2047) (hm : f.frac < 2 ^ 52) : f.IsNumber :=
  ⟨by omega, hm, fun h => absurd h (by omega)⟩

/-- A number with exponent bits is not zero. -/
theorem exact_ne_zero {f : Fields} (hf : f.IsNumber) (h : f.exp ≠ 0) :
    f.exact ≠ (((0 : Int) : WithTop Int) : WithBot (WithTop Int)) := by
  by_cases hE : f.exp = 2047
  · cases hn : f.neg <;> simp [exact, hE, hn, ← WithBot.coe_top]
  · have hunits : f.units ≠ 0 := fun hz => by
      have := (units_eq_zero_iff hf).1 hz
      simp only [low] at this
      have : 2 ^ 52 ≤ f.exp * 2 ^ 52 := Nat.le_mul_of_pos_left _ (by omega)
      omega
    cases hn : f.neg <;> simp [exact, hE, value, hn, hunits]

end Fields

/-- **A number's bits survive `Float.ofBits`.** -/
theorem toBits_ofBits {w : UInt64} (hw : (Fields.ofBits w).IsNumber) : (Float.ofBits w).toBits = w := by
  rw [← UInt64.toNat_inj]
  change (UInt64.ofBitVec (UnpackedFloat.pack Format.binary64
    (UnpackedFloat.unpack Format.binary64 w.toBitVec))).toNat = w.toNat
  rw [UInt64.toNat_ofBitVec, Fields.unpack_ofBits]
  exact Fields.toNat_pack_unpacked hw

theorem isNaN_ofBits {w : UInt64} (hw : (Fields.ofBits w).IsNumber) : (Float.ofBits w).isNaN = false := by
  change (UnpackedFloat.unpack Format.binary64 (Float.ofBits w).toBits.toBitVec).isNaN = false
  rw [toBits_ofBits hw, Fields.unpack_ofBits]
  rcases Fields.unpacked_cases hw with ⟨hu, -⟩ | ⟨hu, -⟩ | ⟨_, hu, -⟩ <;> rw [hu] <;> rfl

theorem ofBits_beq_zero {w : UInt64} (hw : (Fields.ofBits w).IsNumber) (h : (Fields.ofBits w).exp ≠ 0) :
    (Float.ofBits w == 0) = false := by
  rw [Bool.eq_false_iff, ne_eq, beq_iff_exactValue (isNaN_ofBits hw) (by decide), exactValue_zero,
    exactValue, toBits_ofBits hw]
  exact Fields.exact_ne_zero hw h

theorem isInf_ofBits {w : UInt64} (hw : (Fields.ofBits w).IsNumber) :
    (Float.ofBits w).isInf = true ↔ (Fields.ofBits w).exp = 2047 := by
  rw [isInf_iff (isNaN_ofBits hw), toBits_ofBits hw]

theorem inf_unpack : (1.0 / 0.0 : Float).toModel.unpack = .infinity .positive := by
  change UnpackedFloat.unpack .binary64 (1.0 / 0.0 : Float).toBits.toBitVec = _
  rw [show (1.0 / 0.0 : Float).toBits = 0x7FF0000000000000 by decide, Fields.unpack_ofBits]
  rfl

/-- **Infinity absorbs a finite number**: the float model adds infinity and a
zero or a finite number to infinity. -/
theorem inf_add_of_fields {w : UInt64} (hw : (Fields.ofBits w).IsNumber) (he : (Fields.ofBits w).exp ≠ 2047) :
    (1.0 / 0.0 : Float) + Float.ofBits w = 1.0 / 0.0 := by
  have hu : (Float.ofBits w).toModel.unpack = (Fields.ofBits w).unpacked := by
    change UnpackedFloat.unpack .binary64 (Float.ofBits w).toBits.toBitVec = _
    rw [toBits_ofBits hw, Fields.unpack_ofBits]
  have hadd : (1.0 / 0.0 : Float) + Float.ofBits w =
      Float.ofModel (pack (UnpackedFloat.add .binary64 (.infinity .positive) (Fields.ofBits w).unpacked)) := by
    rw [← hu, ← inf_unpack]
    rfl
  rw [hadd]
  rcases Fields.unpacked_cases hw with ⟨-, hE, -⟩ | ⟨h, -⟩ | ⟨_, h, -⟩
  · exact absurd hE he
  · rw [h]
    rfl
  · rw [h]
    rfl

end Numeric

namespace Decimal
open Numeric

/-- Lowering the exponent by one doubles the scaled quotient. -/
theorem scale_pred (num den : Nat) (b : Int) :
    num * 2 ^ (-(b - 1)).toNat * (den * 2 ^ b.toNat) =
      2 * (num * 2 ^ (-b).toNat) * (den * 2 ^ (b - 1).toNat) := by
  rcases le_or_gt b 0 with hb | hb
  · rw [show (-(b - 1)).toNat = (-b).toNat + 1 by omega, show (b - 1).toNat = b.toNat by omega,
      Nat.pow_succ]
    ring
  · rw [show (-(b - 1)).toNat = (-b).toNat by omega, show b.toNat = (b - 1).toNat + 1 by omega,
      Nat.pow_succ]
    ring

/-- The first guess of the scale, from the bit lengths, puts the quotient in `[2^51, 2^53)`. -/
theorem scale_guess {num den : Nat} (hnum : num ≠ 0) (hden : den ≠ 0) :
    let b := (num.log2 : Int) - den.log2 - 52
    2 ^ 51 * (den * 2 ^ b.toNat) ≤ num * 2 ^ (-b).toNat ∧
      num * 2 ^ (-b).toNat < 2 ^ 53 * (den * 2 ^ b.toNat) := by
  intro b
  have hn1 := Nat.log2_self_le hnum
  have hn2 := Nat.lt_log2_self (n := num)
  have hd1 := Nat.log2_self_le hden
  have hd2 := Nat.lt_log2_self (n := den)
  rw [Nat.pow_succ] at hn2 hd2
  rcases le_or_gt 0 b with hb | hb
  · -- a large quotient: the denominator takes the scale
    have hpow : 2 ^ num.log2 = 2 ^ 52 * 2 ^ den.log2 * 2 ^ b.toNat := by
      rw [← Nat.pow_add, ← Nat.pow_add]; congr 1; omega
    rw [show (-b).toNat = 0 by omega, Nat.pow_zero, Nat.mul_one]
    have hP : 0 < 2 ^ b.toNat := Nat.two_pow_pos _
    constructor <;> nlinarith
  · -- a small quotient: the numerator takes the scale
    have hpow : 2 ^ den.log2 * 2 ^ 52 = 2 ^ num.log2 * 2 ^ (-b).toNat := by
      rw [← Nat.pow_add, ← Nat.pow_add]; congr 1; omega
    rw [show b.toNat = 0 by omega, Nat.pow_zero, Nat.mul_one]
    have hP : 0 < 2 ^ (-b).toNat := Nat.two_pow_pos _
    constructor <;> nlinarith

/-- **The scale puts the quotient in `[2^52, 2^53)`**: `binScale` corrects the
guess from the bit lengths by exact comparisons. -/
theorem binScale_spec {num den : Nat} (hnum : num ≠ 0) (hden : den ≠ 0) :
    2 ^ 52 * (den * 2 ^ (binScale num den).toNat) ≤ num * 2 ^ (-binScale num den).toNat ∧
      num * 2 ^ (-binScale num den).toNat < 2 ^ 53 * (den * 2 ^ (binScale num den).toNat) := by
  obtain ⟨hlo, hhi⟩ := scale_guess hnum hden
  generalize hb0 : (num.log2 : Int) - den.log2 - 52 = b0 at hlo hhi
  simp only [binScale, Nat.pow_eq, hb0, Nat.mul_assoc, decide_eq_true_eq]
  split
  · -- the guess left the quotient below `2^52`: one step down doubles it
    rename_i hbelow
    have hstep := scale_pred num den b0
    have hD : 0 < den * 2 ^ b0.toNat := Nat.mul_pos (Nat.pos_of_ne_zero hden) (Nat.two_pow_pos _)
    constructor
    · refine Nat.le_of_mul_le_mul_right ?_ hD
      calc 2 ^ 52 * (den * 2 ^ (b0 - 1).toNat) * (den * 2 ^ b0.toNat)
          = 2 * (2 ^ 51 * (den * 2 ^ b0.toNat)) * (den * 2 ^ (b0 - 1).toNat) := by ring
        _ ≤ 2 * (num * 2 ^ (-b0).toNat) * (den * 2 ^ (b0 - 1).toNat) := by gcongr
        _ = num * 2 ^ (-(b0 - 1)).toNat * (den * 2 ^ b0.toNat) := hstep.symm
    · refine Nat.lt_of_mul_lt_mul_right (a := den * 2 ^ b0.toNat) ?_
      calc num * 2 ^ (-(b0 - 1)).toNat * (den * 2 ^ b0.toNat)
          = 2 * (num * 2 ^ (-b0).toNat) * (den * 2 ^ (b0 - 1).toNat) := hstep
        _ < 2 * (2 ^ 52 * (den * 2 ^ b0.toNat)) * (den * 2 ^ (b0 - 1).toNat) := by
            gcongr
        _ = 2 ^ 53 * (den * 2 ^ (b0 - 1).toNat) * (den * 2 ^ b0.toNat) := by ring
  · -- the guess is right: it is never `2^53` or more
    rename_i hbelow
    rw [if_neg (Nat.not_le.2 hhi)]
    exact ⟨Nat.not_lt.1 hbelow, hhi⟩

theorem roundDivEven_le {num den k : Nat} (hden : 0 < den) (h : num < k * den) :
    roundDivEven num den ≤ k := by
  have hq : num / den < k := (Nat.div_lt_iff_lt_mul hden).2 h
  simp only [roundDivEven]
  split
  · omega
  · split
    · omega
    · split <;> omega

theorem div_le_roundDivEven (num den : Nat) : num / den ≤ roundDivEven num den := by
  simp only [roundDivEven]
  split
  · omega
  · split
    · omega
    · split <;> omega

/-- The sign bit laid beside lower bits adds to them. -/
theorem signBit_or (neg : Bool) {x : Nat} (hx : x < 2 ^ 63) :
    (if neg then 2 ^ 63 else 0) ||| x = (if neg then 2 ^ 63 else 0) + x := by
  cases neg
  · simp
  · simpa using (Nat.two_pow_add_eq_or_of_lt hx 1).symm

theorem toNat_signBit (neg : Bool) :
    (if neg then (0x8000000000000000 : UInt64) else 0).toNat = if neg then 2 ^ 63 else 0 := by
  cases neg <;> rfl

/-- **The last step of `ratToFloat`**: from a significand below `2^53` and an
exponent of its last bit from `-1074` on, it lays out infinity, a subnormal or
a normal number. -/
theorem build_fields (neg : Bool) (s : Nat) (b : Int) (hs : s < 2 ^ 53) (hb : -1074 ≤ b) :
    ∃ w, (if b + 52 > 1023 then
          Float.ofBits ((if neg = true then (0x8000000000000000 : UInt64) else 0) ||| 0x7FF0000000000000)
        else if s < 2 ^ 52 then Float.ofBits ((if neg = true then (0x8000000000000000 : UInt64) else 0) ||| s.toUInt64)
        else Float.ofBits ((if neg = true then (0x8000000000000000 : UInt64) else 0) |||
          (b + 1075).toNat.toUInt64 <<< 52 ||| (s - 2 ^ 52).toUInt64)) = Float.ofBits w ∧
      (Fields.ofBits w).IsNumber ∧
      Fields.ofBits w = if b + 52 > 1023 then ⟨neg, 2047, 0⟩
        else if s < 2 ^ 52 then ⟨neg, 0, s⟩ else ⟨neg, (b + 1075).toNat, s - 2 ^ 52⟩ := by
  by_cases hover : b + 52 > 1023
  · -- past the largest exponent: infinity
    refine ⟨_, if_pos hover, ?_⟩
    have hw : Fields.ofBits ((if neg = true then (0x8000000000000000 : UInt64) else 0) ||| 0x7FF0000000000000) =
        ⟨neg, 2047, 0⟩ := by
      refine Fields.ofBits_of_toNat (by decide) (by decide) ?_
      rw [UInt64.toNat_or, toNat_signBit, show (0x7FF0000000000000 : UInt64).toNat = 2047 * 2 ^ 52 from rfl,
        signBit_or neg (by decide)]
      omega
    rw [hw, if_pos hover]
    exact ⟨⟨show 2047 < 2048 by omega, show 0 < 2 ^ 52 by omega, fun _ => rfl⟩, rfl⟩
  · rw [if_neg hover, if_neg hover]
    by_cases hsub : s < 2 ^ 52
    · -- a subnormal number: the significand alone
      refine ⟨_, if_pos hsub, ?_⟩
      have hw : Fields.ofBits ((if neg = true then (0x8000000000000000 : UInt64) else 0) ||| s.toUInt64) =
          ⟨neg, 0, s⟩ := by
        refine Fields.ofBits_of_toNat (by decide) hsub ?_
        rw [UInt64.toNat_or, toNat_signBit, Nat.toUInt64_eq,
          UInt64.toNat_ofNat_of_lt' (show s < 2 ^ 64 by omega), signBit_or neg (by omega)]
        omega
      rw [hw, if_pos hsub]
      exact ⟨Fields.isNumber_of_lt (show 0 < 2047 by omega) hsub, rfl⟩
    · -- a normal number: the exponent of the leading bit, then the fraction
      refine ⟨_, if_neg hsub, ?_⟩
      have he : (b + 1075).toNat < 2047 := by omega
      have hw : Fields.ofBits ((if neg = true then (0x8000000000000000 : UInt64) else 0) |||
          (b + 1075).toNat.toUInt64 <<< 52 ||| (s - 2 ^ 52).toUInt64) =
          ⟨neg, (b + 1075).toNat, s - 2 ^ 52⟩ := by
        refine Fields.ofBits_of_toNat (by omega) (by omega) ?_
        have hshift : ((b + 1075).toNat.toUInt64 <<< 52).toNat = (b + 1075).toNat * 2 ^ 52 := by
          rw [UInt64.toNat_shiftLeft, show (52 : UInt64).toNat % 64 = 52 from rfl, Nat.toUInt64_eq,
            UInt64.toNat_ofNat_of_lt' (show (b + 1075).toNat < 2 ^ 64 by omega), Nat.shiftLeft_eq,
            Nat.mod_eq_of_lt (by omega)]
        have hfrac : ((s - 2 ^ 52).toUInt64).toNat = s - 2 ^ 52 := by
          rw [Nat.toUInt64_eq, UInt64.toNat_ofNat_of_lt' (show s - 2 ^ 52 < 2 ^ 64 by omega)]
        rw [UInt64.toNat_or, UInt64.toNat_or, toNat_signBit, hshift, hfrac, Nat.or_assoc, Nat.mul_comm,
          ← Nat.two_pow_add_eq_or_of_lt (show s - 2 ^ 52 < 2 ^ 52 by omega), signBit_or neg (by omega)]
        omega
      rw [hw, if_neg hsub]
      exact ⟨Fields.isNumber_of_lt he (show s - 2 ^ 52 < 2 ^ 52 by omega), rfl⟩

theorem fields_signBit (neg : Bool) :
    Fields.ofBits (if neg = true then (0x8000000000000000 : UInt64) else 0) = ⟨neg, 0, 0⟩ :=
  Fields.ofBits_of_toNat (by decide) (by decide) (by rw [toNat_signBit]; omega)

/-- Clamping the scale at the subnormal grid keeps the scaled quotient below
`2^53` steps: it can only lower the numerator. -/
theorem scaled_lt {num den : Nat} (h0 : num ≠ 0) (hden : 0 < den) :
    num * 2 ^ (-max (binScale num den) (-1074)).toNat <
      2 ^ 53 * (den * 2 ^ (max (binScale num den) (-1074)).toNat) := by
  obtain ⟨-, hhi⟩ := binScale_spec h0 (Nat.pos_iff_ne_zero.1 hden)
  generalize binScale num den = b at hhi ⊢
  by_cases hb : -1074 ≤ b
  · rwa [max_eq_left hb]
  · generalize hb1 : max b (-1074) = b1
    have hle : num * 2 ^ (-b1).toNat ≤ num * 2 ^ (-b).toNat :=
      Nat.mul_le_mul_left _ (Nat.pow_le_pow_right (by decide) (by omega))
    have h1 : b1.toNat = 0 := by omega
    have h2 : b.toNat = 0 := by omega
    rw [h1]
    rw [h2] at hhi
    omega

/-- A quotient at most one has its scale at most `-51`. -/
theorem binScale_le_of_le {num den : Nat} (h0 : num ≠ 0) (hden : 0 < den) (h : num ≤ den) :
    binScale num den ≤ -51 := by
  obtain ⟨hlo, -⟩ := binScale_spec h0 (Nat.pos_iff_ne_zero.1 hden)
  by_contra hb
  have h1 : num * 2 ^ (-binScale num den).toNat ≤ den * 2 ^ 50 :=
    Nat.mul_le_mul h (Nat.pow_le_pow_right (by decide) (by omega))
  have h2 : 2 ^ 52 * den ≤ 2 ^ 52 * (den * 2 ^ (binScale num den).toNat) :=
    Nat.mul_le_mul_left _ (Nat.le_mul_of_pos_right _ (Nat.two_pow_pos _))
  omega

/-- **What `ratToFloat` lays out** for a nonzero quotient: the word of a
significand `s` below `2^53` on the grid of `b`.  These are the rounded
significand `s₀` on the clamped scale `b₁`, or, when rounding carried `s₀` to
`2^53`, the significand `2^52` one binade up. -/
theorem ratToFloat_layout {num den : Nat} (h0 : num ≠ 0) (hden : 0 < den) (neg : Bool) :
    ∃ w s b, ratToFloat num den neg = Float.ofBits w ∧ (Fields.ofBits w).IsNumber ∧
      Fields.ofBits w = (if b + 52 > 1023 then ⟨neg, 2047, 0⟩
        else if s < 2 ^ 52 then ⟨neg, 0, s⟩ else ⟨neg, (b + 1075).toNat, s - 2 ^ 52⟩) ∧
      s < 2 ^ 53 ∧ -1074 ≤ b ∧
      ∀ b₁ s₀, max (binScale num den) (-1074) = b₁ →
        roundDivEven (num * 2 ^ (-b₁).toNat) (den * 2 ^ b₁.toNat) = s₀ →
        (s = s₀ ∧ b = b₁) ∨ (s₀ = 2 ^ 53 ∧ s = 2 ^ 52 ∧ b = b₁ + 1) := by
  have hs := roundDivEven_le (Nat.mul_pos hden (Nat.two_pow_pos _)) (scaled_lt h0 hden)
  simp only [ratToFloat, if_neg h0, Nat.pow_eq]
  generalize hb1 : max (binScale num den) (-1074) = b1 at hs ⊢
  have hb1' : -1074 ≤ b1 := by omega
  generalize hs0 : roundDivEven (num * 2 ^ (-b1).toNat) (den * 2 ^ b1.toNat) = s0 at hs ⊢
  by_cases hc : s0 ≥ 2 ^ 53
  · -- the significand carried into the next binade
    simp only [hc, if_true]
    have hhalf : s0 / 2 = 2 ^ 52 := by omega
    obtain ⟨w, hw, hnum, hf⟩ := build_fields neg (s0 / 2) (b1 + 1) (by omega) (by omega)
    rw [hhalf] at hw hf ⊢
    refine ⟨w, 2 ^ 52, b1 + 1, hw, hnum, hf, by omega, by omega,
      fun b₁ s₀ hb hs' => .inr ⟨?_, rfl, by rw [hb]⟩⟩
    rw [← hs', ← hb, hs0]
    omega
  · simp only [hc, if_false]
    obtain ⟨w, hw, hnum, hf⟩ := build_fields neg s0 b1 (by omega) hb1'
    refine ⟨w, s0, b1, hw, hnum, hf, by omega, hb1', fun b₁ s₀ hb hs' => .inl ⟨?_, hb⟩⟩
    rw [← hs', ← hb, hs0]

/-- **A quotient at most one is a finite number**: its bits are a number
below the top exponent. -/
theorem ratToFloat_fields_of_le {num den : Nat} (hden : 0 < den) (h : num ≤ den) (neg : Bool) :
    ∃ w, ratToFloat num den neg = Float.ofBits w ∧ (Fields.ofBits w).IsNumber ∧
      (Fields.ofBits w).exp ≠ 2047 := by
  by_cases h0 : num = 0
  · -- a signed zero
    refine ⟨_, by rw [ratToFloat, if_pos h0], ?_, ?_⟩ <;> rw [fields_signBit]
    · exact Fields.isNumber_of_lt (show 0 < 2047 by omega) (show 0 < 2 ^ 52 by omega)
    · simp
  · -- the quotient is at most one, so its scale is at most `-51` and it stays below the top binade
    have hneg := binScale_le_of_le h0 hden h
    obtain ⟨w, s, b, hw, hnum, hf, -, -, hcarry⟩ := ratToFloat_layout h0 hden neg
    have hb : b ≤ -50 := by
      rcases hcarry _ _ rfl rfl with ⟨-, rfl⟩ | ⟨-, -, rfl⟩ <;> omega
    refine ⟨w, hw, hnum, ?_⟩
    rw [hf, if_neg (by omega)]
    split
    · simp
    · simp only; omega

/-- **A quotient at most one is a finite double.** -/
theorem ratToFloat_isInf_of_le {num den : Nat} (hden : 0 < den) (h : num ≤ den) (neg : Bool) :
    (ratToFloat num den neg).isInf = false := by
  obtain ⟨w, hw, hnum, he⟩ := ratToFloat_fields_of_le hden h neg
  rw [hw, Bool.eq_false_iff, ne_eq, isInf_ofBits hnum]
  exact he

/-- **A quotient at least one is not zero.** -/
theorem ratToFloat_beq_zero {num den : Nat} (hden : 0 < den) (h : den ≤ num) (neg : Bool) :
    (ratToFloat num den neg == 0) = false := by
  have h0 : num ≠ 0 := by omega
  obtain ⟨hlo, -⟩ := binScale_spec h0 (Nat.pos_iff_ne_zero.1 hden)
  -- the quotient is at least one, so its scale is at least `-52` and is not clamped
  have hpos : -52 ≤ binScale num den := by
    by_contra hb
    have h1 : den * 2 ^ 53 ≤ num * 2 ^ (-binScale num den).toNat :=
      Nat.mul_le_mul h (Nat.pow_le_pow_right (by decide) (by omega))
    obtain ⟨-, hhi⟩ := binScale_spec h0 (Nat.pos_iff_ne_zero.1 hden)
    rw [show (binScale num den).toNat = 0 by omega] at hhi
    omega
  have hb1 : max (binScale num den) (-1074) = binScale num den := max_eq_left (by omega)
  -- so the rounded significand is at least `2^52`, and the word is a normal number or infinity
  have hD : 0 < den * 2 ^ (binScale num den).toNat := Nat.mul_pos hden (Nat.two_pow_pos _)
  have hs_lo : 2 ^ 52 ≤ roundDivEven (num * 2 ^ (-binScale num den).toNat) (den * 2 ^ (binScale num den).toNat) :=
    le_trans ((Nat.le_div_iff_mul_le hD).2 (Nat.mul_comm (2 ^ 52) _ ▸ hlo)) (div_le_roundDivEven _ _)
  obtain ⟨w, s, b, hw, hnum, hf, -, hb, hcarry⟩ := ratToFloat_layout h0 hden neg
  have hs : 2 ^ 52 ≤ s := by
    rcases hcarry _ _ hb1 rfl with ⟨rfl, -⟩ | ⟨-, rfl, -⟩ <;> omega
  rw [hw]
  refine ofBits_beq_zero hnum ?_
  rw [hf]
  split
  · simp
  · rw [if_neg (by omega)]; simp; omega

end Decimal

/-- **A nonzero whole number becomes a nonzero double.** -/
theorem Numeric.intToFloat_beq_zero {n : Int} (hn : n ≠ 0) : (Numeric.intToFloat n == 0) = false := by
  simp only [Numeric.intToFloat, Decimal.Dec.toFloat, Int.toNat_zero, Int.neg_zero, Nat.pow_eq,
    Nat.pow_zero, Nat.mul_one]
  exact Decimal.ratToFloat_beq_zero (by decide) (by omega) _

end Evolver
