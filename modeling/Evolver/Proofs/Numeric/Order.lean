import Evolver.Value.Order
import Mathlib
/-!
# Numbers in the order of their exact values

Comparisons of numbers (`plainCompare`, and through it `Value.compare`)
order integers, booleans and doubles by their exact values.  This module
proves it, reading a double from its bits:

| bits | fields | value |
| --- | --- | --- |
| 63 | sign | |
| 62 – 52 | biased exponent `E` | `E = 2047`: infinity (fraction 0) or NaN |
| 51 – 0 | fraction `M` | `E = 0`: `M·2^-1074`; else `(2^52 + M)·2^(E-1075)` |

Every finite double is a whole number of units of `2^-1074`, the least
subnormal (`Fields.units`), so the exact value of a number lives in the
integers with both infinities (`exactValue`, `Cell.exactValue?`, `Value.exactValue?`).

Main statements:

* `Fields.compare_unpacked`: the float model's comparison (exponent first,
  then mantissa, with the signs and the special values in front) is the order
  of the low 63 bits with the sign in front;
* `compare_toModel`, `lt_iff_exactValue`, `beq_iff_exactValue`: doubles that
  are not NaN compare as their exact values;
* `cmpIntFloat_eq`: an integer and a double compare exactly;
* `plainCompare_eq`, `Value.compare_eq_holds`: every comparison of two
  numbers is the comparison of their exact values.
-/

namespace Evolver
namespace Numeric

open Float.Model UnpackedFloat

section Comparisons

/-- Two comparisons agree when their strict orders do. -/
theorem compare_congr {α β : Type} [LinearOrder α] [LinearOrder β] {a b : α} {c d : β}
    (hlt : a < b ↔ c < d) (hgt : b < a ↔ d < c) : compare a b = compare c d := by
  rcases lt_trichotomy a b with h | h | h
  · rw [compare_lt_iff_lt.2 h, compare_lt_iff_lt.2 (hlt.1 h)]
  · have hcd : c = d := le_antisymm (not_lt.1 fun h' => (lt_irrefl a) (h ▸ hgt.2 h'))
      (not_lt.1 fun h' => (lt_irrefl a) (h ▸ hlt.2 h'))
    rw [compare_eq_iff_eq.2 h, compare_eq_iff_eq.2 hcd]
  · rw [compare_gt_iff_gt.2 h, compare_gt_iff_gt.2 (hgt.1 h)]

theorem swap_compare_eq {α : Type} [LinearOrder α] (a b : α) : (compare a b).swap = compare b a := by
  rcases lt_trichotomy a b with h | h | h
  · rw [compare_lt_iff_lt.2 h, compare_gt_iff_gt.2 h]; rfl
  · rw [compare_eq_iff_eq.2 h, compare_eq_iff_eq.2 h.symm]; rfl
  · rw [compare_gt_iff_gt.2 h, compare_lt_iff_lt.2 h]; rfl

theorem compare_coe (a b : Int) :
    compare ((a : WithTop Int) : WithBot (WithTop Int)) ((b : WithTop Int) : WithBot (WithTop Int)) =
      compare a b :=
  compare_congr (by simp) (by simp)

theorem compare_mul_pos (a b : Int) {c : Int} (hc : 0 < c) : compare (a * c) (b * c) = compare a b :=
  compare_congr (Int.mul_lt_mul_right hc) (Int.mul_lt_mul_right hc)

/-- An ordering is the comparison of two integers when it says `lt` and `gt`
exactly when they hold. -/
theorem eq_compare_iff {o : Ordering} {a b : Int} :
    o = compare a b ↔ (o = .lt ↔ a < b) ∧ (o = .gt ↔ b < a) := by
  rcases Int.lt_trichotomy a b with h | h | h
  · rw [Int.compare_eq_lt.mpr h]; cases o <;> simp <;> omega
  · rw [Int.compare_eq_eq.mpr h]; cases o <;> simp <;> omega
  · rw [Int.compare_eq_gt.mpr h]; cases o <;> simp <;> omega

theorem swap_compare_neg (a b : Int) : (compare a b).swap = compare (-a) (-b) := by
  rw [eq_compare_iff]
  rcases Int.lt_trichotomy a b with h | h | h
  · rw [Int.compare_eq_lt.mpr h]; simp; omega
  · rw [Int.compare_eq_eq.mpr h]; simp; omega
  · rw [Int.compare_eq_gt.mpr h]; simp; omega

/-- Lexicographic comparison agrees with the comparison of a key that grows
with the first component and, within it, moves with the second. -/
theorem then_compare_of {a b k l : Int} {c d : Nat} (hlt : a < b → k < l) (hgt : b < a → l < k)
    (heq : a = b → k - l = c - d) : (compare a b).then (compare c d) = compare k l := by
  rcases Int.lt_trichotomy a b with h | h | h
  · rw [Int.compare_eq_lt.mpr h, Int.compare_eq_lt.mpr (hlt h)]
    rfl
  · have hd := heq h
    rw [Int.compare_eq_eq.mpr h]
    rcases Nat.lt_trichotomy c d with h' | h' | h'
    · rw [Nat.compare_eq_lt.mpr h', Int.compare_eq_lt.mpr (by omega)]
      rfl
    · rw [Nat.compare_eq_eq.mpr h', Int.compare_eq_eq.mpr (by omega)]
      rfl
    · rw [Nat.compare_eq_gt.mpr h', Int.compare_eq_gt.mpr (by omega)]
      rfl
  · rw [Int.compare_eq_gt.mpr h, Int.compare_eq_gt.mpr (hgt h)]
    rfl

end Comparisons

/-- The fields of the bits of a double. -/
structure Fields where
  neg : Bool
  /-- the biased exponent -/
  exp : Nat
  /-- the fraction, without the leading bit -/
  frac : Nat

namespace Fields

/-- The fields of a bit pattern. -/
def ofBits (b : UInt64) : Fields :=
  ⟨decide (2 ^ 63 ≤ b.toNat), b.toNat / 2 ^ 52 % 2 ^ 11, b.toNat % 2 ^ 52⟩

/-- The sign as the float model writes it. -/
def sign (f : Fields) : Sign := if f.neg then .negative else .positive

/-- The exponent of the last mantissa bit; subnormals share the least one. -/
def expo (f : Fields) : Int := if f.exp = 0 then -1074 else (f.exp : Int) - 1075

/-- The mantissa, with its leading bit when the number is normal. -/
def mant (f : Fields) : Nat := if f.exp = 0 then f.frac else 2 ^ 52 + f.frac

/-- The float the fields encode, unpacked. -/
def unpacked (f : Fields) : UnpackedFloat :=
  if f.exp = 2047 then (if f.frac = 0 then .infinity f.sign else .notANumber)
  else if h : f.mant = 0 then .zero f.sign
  else .finite f.sign f.mant f.expo (Nat.pos_of_ne_zero h)

theorem toNat_unpackExponent (b : UInt64) :
    (@unpackExponent Format.binary64 b.toBitVec).toNat = (ofBits b).exp := by
  simp [unpackExponent, BitVec.extractLsb_toNat, ofBits, Nat.shiftRight_eq_div_pow]

theorem toNat_unpackMantissa (b : UInt64) :
    (@unpackMantissa Format.binary64 b.toBitVec).toNat = (ofBits b).frac := by
  simp [unpackMantissa, BitVec.extractLsb_toNat, ofBits]

theorem ofBitVec_unpackSign (b : UInt64) :
    Sign.ofBitVec (@unpackSign Format.binary64 b.toBitVec) = (ofBits b).sign := by
  have hb := b.toNat_lt
  simp only [unpackSign, Sign.ofBitVec, sign, ofBits, ← BitVec.toNat_inj, BitVec.toNat_cast,
    BitVec.extractLsb_toNat, Nat.shiftRight_eq_div_pow, decide_eq_true_eq, UInt64.toNat_toBitVec,
    BitVec.toNat_ofNat, Nat.reduceAdd, Nat.reduceSub, Nat.zero_mod]
  -- the top bit is set exactly from `2^63` on
  split_ifs <;> first | rfl | omega

/-- Unpacking the bits reads their fields. -/
theorem unpack_ofBits (b : UInt64) :
    UnpackedFloat.unpack .binary64 b.toBitVec = (ofBits b).unpacked := by
  simp only [UnpackedFloat.unpack, unpacked]
  have hm : (1#1 ++ @unpackMantissa Format.binary64 b.toBitVec).toNat = 2 ^ 52 + (ofBits b).frac := by
    have hf : (ofBits b).frac < 2 ^ 52 := Nat.mod_lt _ (by decide)
    rw [BitVec.toNat_append, toNat_unpackMantissa, Nat.shiftLeft_eq]
    show 2 ^ 52 * 1 ||| (ofBits b).frac = _
    rw [← Nat.two_pow_add_eq_or_of_lt hf, Nat.mul_one]
  have hbias : Format.binary64.exponentBias = 1023 := rfl
  simp only [← BitVec.toNat_inj, toNat_unpackExponent, toNat_unpackMantissa, ofBitVec_unpackSign, hm,
    hbias]
  by_cases hE : (ofBits b).exp = 2047
  · simp [hE]
  · by_cases hz : (ofBits b).exp = 0
    · simp [hz, mant, expo]
    · simp [hE, hz, mant, expo]

/-- The fields of a number: in range, and not a NaN. -/
structure IsNumber (f : Fields) : Prop where
  exp_lt : f.exp < 2048
  frac_lt : f.frac < 2 ^ 52
  frac_of_top : f.exp = 2047 → f.frac = 0

/-- The low 63 bits: the exponent above the fraction. -/
def low (f : Fields) : Nat := f.exp * 2 ^ 52 + f.frac

/-- The bits read as a sign and a magnitude. -/
def key (f : Fields) : Int := if f.neg then -(f.low : Int) else f.low

theorem unpacked_cases {f : Fields} (hf : f.IsNumber) :
    (f.unpacked = .infinity f.sign ∧ f.exp = 2047 ∧ f.frac = 0) ∨
    (f.unpacked = .zero f.sign ∧ f.low = 0) ∨
    (∃ h, f.unpacked = .finite f.sign f.mant f.expo h ∧ 0 < f.low ∧ f.exp < 2047) := by
  have := hf.frac_lt
  have := hf.exp_lt
  by_cases hE : f.exp = 2047
  · exact .inl ⟨by simp [unpacked, hE, hf.frac_of_top hE], hE, hf.frac_of_top hE⟩
  · by_cases hm : f.mant = 0
    · refine .inr (.inl ⟨by simp [unpacked, hE, hm], ?_⟩)
      simp only [mant] at hm
      simp only [low]
      split at hm <;> omega
    · refine .inr (.inr ⟨Nat.pos_of_ne_zero hm, by simp [unpacked, hE, hm], ?_, by omega⟩)
      simp only [mant] at hm
      simp only [low]
      split at hm
      · omega
      · have : 2 ^ 52 ≤ f.exp * 2 ^ 52 := Nat.le_mul_of_pos_left _ (by omega)
        omega

/-- Exponent first, then mantissa, is the order of the low bits. -/
theorem then_compare_eq {f g : Fields} (hf : f.IsNumber) (hg : g.IsNumber) :
    (compare f.expo g.expo).then (compare f.mant g.mant) = compare (f.low : Int) g.low := by
  have := hf.frac_lt
  have := hg.frac_lt
  apply then_compare_of <;> simp only [expo, mant, low] <;> split <;> split <;> intro h <;> omega

/-- **The float model orders numbers as their signed low bits.** -/
theorem compare_unpacked {f g : Fields} (hf : f.IsNumber) (hg : g.IsNumber) :
    f.unpacked.compare g.unpacked = some (compare f.key g.key) := by
  have := hf.frac_lt
  have := hg.frac_lt
  rcases unpacked_cases hf with ⟨hu, hE, hM⟩ | ⟨hu, hl⟩ | ⟨_, hu, hl, hE⟩ <;>
  rcases unpacked_cases hg with ⟨hu', hE', hM'⟩ | ⟨hu', hl'⟩ | ⟨_, hu', hl', hE'⟩ <;>
  rw [hu, hu'] <;> cases hn : f.neg <;> cases hn' : g.neg <;>
  simp only [sign, key, hn, hn', if_true, if_false, Bool.false_eq_true, UnpackedFloat.compare,
    Option.some.injEq]
  -- two finite numbers of one sign: exponent first, then mantissa
  case inr.inr.inr.inr.false.false => exact then_compare_eq hf hg
  case inr.inr.inr.inr.true.true => rw [then_compare_eq hf hg, swap_compare_neg]
  -- the other pairs differ in sign or in kind, and the model answers at once
  all_goals
    rw [eq_compare_iff]
    simp only [low] at *
    constructor <;> simp [compare] <;> omega

/-- The magnitude of a finite number in units of `2^-1074`, the least
subnormal: every finite double is a whole number of them. -/
def units (f : Fields) : Nat := if f.exp = 0 then f.frac else (2 ^ 52 + f.frac) * 2 ^ (f.exp - 1)

/-- The value of a finite number in units of `2^-1074`. -/
def value (f : Fields) : Int := if f.neg then -(f.units : Int) else f.units

theorem units_lt_of_low_lt {f g : Fields} (hf : f.IsNumber) (hg : g.IsNumber) (h : f.low < g.low) :
    f.units < g.units := by
  have hf52 := hf.frac_lt
  have hg52 := hg.frac_lt
  simp only [low] at h
  rcases Nat.lt_or_eq_of_le (show f.exp ≤ g.exp by
    by_contra hc
    have : (g.exp + 1) * 2 ^ 52 ≤ f.exp * 2 ^ 52 := Nat.mul_le_mul_right _ (by omega)
    omega) with hlt | heq
  · -- a larger exponent outweighs any fraction
    have hg0 : g.exp ≠ 0 := by omega
    have hfu : f.units < 2 ^ 52 * 2 ^ f.exp := by
      unfold units
      split
      · rename_i h0; simp [h0]; omega
      · have : 2 ^ f.exp = 2 * 2 ^ (f.exp - 1) := by
          rw [← Nat.pow_succ']; congr 1; omega
        rw [this, Nat.mul_left_comm, ← Nat.mul_assoc]
        exact Nat.mul_lt_mul_of_pos_right (by omega) (Nat.two_pow_pos _)
    have hgu : 2 ^ 52 * 2 ^ f.exp ≤ g.units := by
      simp only [units, if_neg hg0]
      exact Nat.mul_le_mul (by omega) (Nat.pow_le_pow_right (by decide) (by omega))
    omega
  · -- one exponent: the fractions decide
    have hfr : f.frac < g.frac := by rw [heq] at h; omega
    simp only [units, heq]
    split
    · exact hfr
    · exact Nat.mul_lt_mul_of_pos_right (by omega) (Nat.two_pow_pos _)

theorem units_eq_of_low_eq {f g : Fields} (hf : f.IsNumber) (hg : g.IsNumber) (h : f.low = g.low) :
    f.units = g.units := by
  have hf52 := hf.frac_lt
  have hg52 := hg.frac_lt
  have he : f.exp = g.exp := by simp only [low] at h; omega
  have hr : f.frac = g.frac := by simp only [low] at h; omega
  simp only [units, he, hr]

theorem units_lt_iff {f g : Fields} (hf : f.IsNumber) (hg : g.IsNumber) :
    f.units < g.units ↔ f.low < g.low := by
  refine ⟨fun h => ?_, units_lt_of_low_lt hf hg⟩
  rcases Nat.lt_trichotomy f.low g.low with h' | h' | h'
  · exact h'
  · exact absurd (units_eq_of_low_eq hf hg h') (Nat.ne_of_lt h)
  · exact absurd (units_lt_of_low_lt hg hf h') (Nat.lt_asymm h)

theorem units_eq_zero_iff {f : Fields} (hf : f.IsNumber) : f.units = 0 ↔ f.low = 0 := by
  have hz : (⟨false, 0, 0⟩ : Fields).IsNumber := ⟨by decide, by decide, by decide⟩
  have h0 : (⟨false, 0, 0⟩ : Fields).units = 0 := rfl
  constructor
  · intro h
    rcases Nat.eq_zero_or_pos f.low with h' | h'
    · exact h'
    · have := units_lt_of_low_lt hz hf (by simpa [low] using h')
      omega
  · intro h
    exact units_eq_of_low_eq hf hz (by simpa [low] using h)

theorem low_lt_top {f : Fields} (hf : f.IsNumber) (h : f.exp ≠ 2047) : f.low < 2047 * 2 ^ 52 := by
  have := hf.frac_lt
  have := hf.exp_lt
  have : (f.exp + 1) * 2 ^ 52 ≤ 2047 * 2 ^ 52 := Nat.mul_le_mul_right _ (by omega)
  simp only [low]
  omega

theorem value_lt_iff {f g : Fields} (hf : f.IsNumber) (hg : g.IsNumber) :
    f.value < g.value ↔ f.key < g.key := by
  have h1 := units_lt_iff hf hg
  have h2 := units_lt_iff hg hf
  have z1 := units_eq_zero_iff hf
  have z2 := units_eq_zero_iff hg
  cases hn : f.neg <;> cases hn' : g.neg <;> simp only [value, key, hn, hn', if_true, if_false,
    Bool.false_eq_true] <;> omega

/-- The exact value in units of `2^-1074`, the infinities at the ends. -/
def exact (f : Fields) : WithBot (WithTop Int) :=
  if f.exp = 2047 then (if f.neg then ⊥ else ⊤) else ((f.value : WithTop Int) : WithBot (WithTop Int))

theorem exact_lt_iff {f g : Fields} (hf : f.IsNumber) (hg : g.IsNumber) :
    f.exact < g.exact ↔ f.key < g.key := by
  have hv := value_lt_iff hf hg
  by_cases hE : f.exp = 2047 <;> by_cases hE' : g.exp = 2047
  · have h1 : f.low = 2047 * 2 ^ 52 := by simp [low, hE, hf.frac_of_top hE]
    have h2 : g.low = 2047 * 2 ^ 52 := by simp [low, hE', hg.frac_of_top hE']
    cases hn : f.neg <;> cases hn' : g.neg <;> simp [exact, key, hE, hE', hn, hn', h1, h2]
  · have h1 : f.low = 2047 * 2 ^ 52 := by simp [low, hE, hf.frac_of_top hE]
    have h2 := low_lt_top hg hE'
    cases hn : f.neg <;> cases hn' : g.neg <;> simp [exact, key, hE, hE', hn, hn', h1] <;> omega
  · have h1 := low_lt_top hf hE
    have h2 : g.low = 2047 * 2 ^ 52 := by simp [low, hE', hg.frac_of_top hE']
    cases hn : f.neg <;> cases hn' : g.neg <;>
      simp [exact, key, hE, hE', hn, hn', h2, ← WithBot.coe_top] <;> omega
  · simpa [exact, hE, hE'] using hv

/-- The exact value of a number orders as its signed low bits. -/
theorem compare_key {f g : Fields} (hf : f.IsNumber) (hg : g.IsNumber) :
    compare f.key g.key = compare f.exact g.exact :=
  compare_congr (exact_lt_iff hf hg).symm (exact_lt_iff hg hf).symm

theorem units_eq (f : Fields) : (f.units : Int) = f.mant * 2 ^ (f.expo + 1074).toNat := by
  simp only [units, mant, expo]
  split
  · simp
  · rw [show ((f.exp : Int) - 1075 + 1074).toNat = f.exp - 1 by omega, Int.natCast_mul, Int.natCast_pow]
    rfl

theorem expo_ge (f : Fields) : -1074 ≤ f.expo := by
  simp only [expo]
  split <;> omega

end Fields

/-! ### Doubles -/

/-- The exact value of a double, in units of `2^-1074`, the infinities at
the ends. -/
def exactValue (x : Float) : WithBot (WithTop Int) := (Fields.ofBits x.toBits).exact

theorem ofBits_isNumber {b : UInt64} (h : (UnpackedFloat.unpack .binary64 b.toBitVec).isNaN = false) :
    (Fields.ofBits b).IsNumber := by
  refine ⟨Nat.mod_lt _ (by decide), Nat.mod_lt _ (by decide), fun hE => ?_⟩
  rw [Fields.unpack_ofBits] at h
  by_contra hM
  simp [Fields.unpacked, hE, hM, UnpackedFloat.isNaN] at h

/-- **Two doubles that are not NaN compare as their exact values.** -/
theorem compare_toModel {x y : Float} (hx : x.isNaN = false) (hy : y.isNaN = false) :
    x.toModel.compare y.toModel = some (compare (exactValue x) (exactValue y)) := by
  have hx' := ofBits_isNumber hx
  have hy' := ofBits_isNumber hy
  simp only [Float.Model.compare, Float.Model.unpack]
  rw [Fields.unpack_ofBits, Fields.unpack_ofBits, Fields.compare_unpacked hx' hy',
    Fields.compare_key hx' hy']
  rfl

theorem lt_iff_exactValue {x y : Float} (hx : x.isNaN = false) (hy : y.isNaN = false) :
    x < y ↔ exactValue x < exactValue y := by
  have h := compare_toModel hx hy
  change (decide ((x.toModel.unpack.compare y.toModel.unpack == some .lt) = true)) = true ↔ _
  simp only [decide_eq_true_eq, beq_iff_eq]
  change x.toModel.compare y.toModel = some .lt ↔ _
  rw [h, Option.some.injEq, compare_lt_iff_lt]

theorem beq_iff_exactValue {x y : Float} (hx : x.isNaN = false) (hy : y.isNaN = false) :
    (x == y) = true ↔ exactValue x = exactValue y := by
  have h := compare_toModel hx hy
  change (x.toModel.unpack.compare y.toModel.unpack == some .eq) = true ↔ _
  rw [beq_iff_eq]
  change x.toModel.compare y.toModel = some .eq ↔ _
  rw [h, Option.some.injEq, compare_eq_iff_eq]

theorem isInf_iff {x : Float} (hx : x.isNaN = false) :
    x.isInf = true ↔ (Fields.ofBits x.toBits).exp = 2047 := by
  have hx' := ofBits_isNumber hx
  change (UnpackedFloat.unpack .binary64 x.toBits.toBitVec).isInf = true ↔ _
  rw [Fields.unpack_ofBits]
  by_cases hE : (Fields.ofBits x.toBits).exp = 2047
  · have hM : (Fields.ofBits x.toBits).frac = 0 := hx'.frac_of_top hE
    simp [Fields.unpacked, hE, hM, UnpackedFloat.isInf]
  · simp only [Fields.unpacked, hE, if_false, iff_false]
    split <;> simp [UnpackedFloat.isInf]

theorem exactValue_zero : exactValue 0 = (((0 : Int) : WithTop Int) : WithBot (WithTop Int)) := by
  have h : (0 : Float).toBits = 0 := by decide
  simp [exactValue, h, Fields.ofBits, Fields.exact, Fields.value, Fields.units]

/-- The decoded magnitude of a double is its mantissa and exponent. -/
theorem binary_ofBits (b : UInt64) :
    (Decimal.Binary.ofBits b).m = (Fields.ofBits b).mant ∧
      (Decimal.Binary.ofBits b).q = (Fields.ofBits b).expo := by
  have he : ((b >>> 52) &&& 0x7FF).toNat = (Fields.ofBits b).exp := by
    simp only [UInt64.toNat_and, UInt64.toNat_shiftRight, Fields.ofBits, Nat.shiftRight_eq_div_pow]
    rw [show (0x7FF : UInt64).toNat = 2 ^ 11 - 1 from rfl, Nat.and_two_pow_sub_one_eq_mod]
    rfl
  have hf : (b &&& 0xFFFFFFFFFFFFF).toNat = (Fields.ofBits b).frac := by
    simp only [UInt64.toNat_and, Fields.ofBits]
    rw [show (0xFFFFFFFFFFFFF : UInt64).toNat = 2 ^ 52 - 1 from rfl, Nat.and_two_pow_sub_one_eq_mod]
  simp only [Decimal.Binary.ofBits, he, hf, Fields.mant, Fields.expo, beq_iff_eq]
  split <;> simp_all

theorem neg_bit (b : UInt64) : ((b >>> 63) == 1) = (Fields.ofBits b).neg := by
  have hb := b.toNat_lt
  have h : (b >>> 63).toNat = b.toNat / 2 ^ 63 := by
    simp only [UInt64.toNat_shiftRight, Nat.shiftRight_eq_div_pow]
    rfl
  have key : b >>> 63 = 1 ↔ 2 ^ 63 ≤ b.toNat := by
    rw [← UInt64.toNat_inj, h, show (1 : UInt64).toNat = 1 from rfl]
    omega
  rw [Bool.eq_iff_iff, beq_iff_eq, Fields.ofBits, decide_eq_true_iff]
  exact key

/-- Comparing `n` with `±m·2^q` after scaling both sides to whole numbers of
`2^-1074`. -/
theorem compare_scaled (n : Int) (m : Nat) (q : Int) (neg : Bool) (hq : -1074 ≤ q) :
    compare (if q < 0 then n * ((2 ^ (-q).toNat : Nat) : Int) else n)
      (if neg = true then -(if q < 0 then (m : Int) else m * ((2 ^ q.toNat : Nat) : Int))
        else if q < 0 then (m : Int) else m * ((2 ^ q.toNat : Nat) : Int)) =
    compare (n * 2 ^ 1074)
      (if neg = true then -((m : Int) * 2 ^ (q + 1074).toNat) else (m : Int) * 2 ^ (q + 1074).toNat) := by
  simp only [Int.natCast_pow, Int.cast_ofNat_Int]
  by_cases hneg : q < 0
  · simp only [if_pos hneg]
    rw [← compare_mul_pos _ _ (Int.pow_pos (by decide) : (0 : Int) < 2 ^ (q + 1074).toNat)]
    have hpow : n * 2 ^ (-q).toNat * 2 ^ (q + 1074).toNat = n * 2 ^ 1074 := by
      rw [Int.mul_assoc, ← Int.pow_add, show (-q).toNat + (q + 1074).toNat = 1074 by omega]
    rw [hpow]
    cases neg <;> simp only [Int.neg_mul, if_true, if_false, Bool.false_eq_true]
  · simp only [if_neg hneg]
    rw [← compare_mul_pos _ _ (Int.pow_pos (by decide) : (0 : Int) < 2 ^ 1074)]
    have hpow : (m : Int) * 2 ^ q.toNat * 2 ^ 1074 = m * 2 ^ (q + 1074).toNat := by
      rw [Int.mul_assoc, ← Int.pow_add, show q.toNat + 1074 = (q + 1074).toNat by omega]
    cases neg <;> simp only [Int.neg_mul, hpow, if_true, if_false, Bool.false_eq_true]

/-- **An integer and a double compare by their exact values.** -/
theorem cmpIntFloat_eq (n : Int) {x : Float} (hx : x.isNaN = false) :
    cmpIntFloat n x = some (compare (((n * 2 ^ 1074 : Int) : WithTop Int) : WithBot (WithTop Int))
      (exactValue x)) := by
  unfold cmpIntFloat
  rw [if_neg (by rw [hx]; exact Bool.false_ne_true)]
  by_cases hinf : x.isInf = true
  · -- an infinity is beyond every integer, on its side of zero
    rw [if_pos hinf]
    have hE := (isInf_iff hx).1 hinf
    have hpos : x > 0 ↔ exactValue 0 < exactValue x := lt_iff_exactValue (by decide) hx
    rw [exactValue_zero] at hpos
    simp only [exactValue, Fields.exact, hE, if_true] at hpos ⊢
    cases hn : (Fields.ofBits x.toBits).neg <;>
      simp only [hn, if_true, if_false, Bool.false_eq_true] at hpos ⊢
    · have h : (0 : Float) < x := hpos.2 (WithBot.coe_lt_coe.2 (WithTop.coe_lt_top 0))
      have h' : (((n * 2 ^ 1074 : Int) : WithTop Int) : WithBot (WithTop Int)) < ⊤ :=
        WithBot.coe_lt_coe.2 (WithTop.coe_lt_top _)
      rw [if_pos h, compare_lt_iff_lt.2 h']
    · have h : ¬ (0 : Float) < x := fun h => not_lt_bot (hpos.1 h)
      have h' : (⊥ : WithBot (WithTop Int)) < ((n * 2 ^ 1074 : Int) : WithTop Int) :=
        WithBot.bot_lt_coe _
      rw [if_neg h, compare_gt_iff_gt.2 h']
  · rw [if_neg hinf]
    have hE : (Fields.ofBits x.toBits).exp ≠ 2047 := fun h => hinf ((isInf_iff hx).2 h)
    obtain ⟨hm, hq⟩ := binary_ofBits x.toBits
    simp only [exactValue, Fields.exact, if_neg hE, compare_coe, neg_bit, hm, hq, Fields.value,
      Nat.pow_eq, Fields.units_eq]
    exact congrArg some (compare_scaled n _ _ _ (Fields.expo_ge _))

/-! ### Cells and values -/

/-- The exact value of a number, in units of `2^-1074`; nothing for NaN and
for what is not a number. -/
def Cell.exactValue? (c : Cell) : Option (WithBot (WithTop Int)) :=
  match c with
  | .float x => if x.isNaN then Option.none else some (exactValue x)
  | c => c.toInt?.map fun n => ((n * 2 ^ 1074 : Int) : WithTop Int)

/-- A number is a double that is not NaN, or a whole number (an integer or a
boolean). -/
theorem Cell.exactValue?_eq_some {c : Cell} {u : WithBot (WithTop Int)} (h : c.exactValue? = some u) :
    (∃ x, c = .float x ∧ x.isNaN = false ∧ exactValue x = u) ∨
      (∃ n, c.toInt? = some n ∧ (((n * 2 ^ 1074 : Int) : WithTop Int) : WithBot (WithTop Int)) = u) := by
  cases c <;> simp only [Cell.exactValue?, Cell.toInt?, Option.map_some, Option.map_none, reduceCtorEq,
    Option.some.injEq, Option.ite_none_left_eq_some, Bool.not_eq_true, exists_eq_left', false_and,
    exists_false, or_false, false_or] at h ⊢
  case float => exact ⟨_, rfl, h⟩
  all_goals exact h

theorem compare_floats {x y : Float} (hx : x.isNaN = false) (hy : y.isNaN = false) :
    (if x < y then some Ordering.lt else if x == y then some .eq else some .gt) =
      some (compare (exactValue x) (exactValue y)) := by
  rcases lt_trichotomy (exactValue x) (exactValue y) with h | h | h
  · rw [if_pos ((lt_iff_exactValue hx hy).2 h), compare_lt_iff_lt.2 h]
  · rw [if_neg fun h' => (lt_irrefl _) (h ▸ (lt_iff_exactValue hx hy).1 h'),
      if_pos ((beq_iff_exactValue hx hy).2 h), compare_eq_iff_eq.2 h]
  · rw [if_neg fun h' => (lt_asymm h) ((lt_iff_exactValue hx hy).1 h'),
      if_neg fun h' => (ne_of_gt h) ((beq_iff_exactValue hx hy).1 h'), compare_gt_iff_gt.2 h]

theorem plainCompare_float_whole (sym : String) (x : Float) {c : Cell} {n : Int}
    (hn : c.toInt? = some n) : plainCompare sym (.float x) c = .ok ((cmpIntFloat n x).map Ordering.swap) := by
  cases c <;> simp_all [plainCompare, Cell.toInt?, pure, Except.pure]

theorem plainCompare_whole_float (sym : String) {c : Cell} {n : Int} (hn : c.toInt? = some n) (y : Float) :
    plainCompare sym c (.float y) = .ok (cmpIntFloat n y) := by
  cases c <;> simp_all [plainCompare, Cell.toInt?, pure, Except.pure]

theorem plainCompare_whole_whole (sym : String) {a b : Cell} {m n : Int} (ha : a.toInt? = some m)
    (hb : b.toInt? = some n) : plainCompare sym a b = .ok (some (compare m n)) := by
  cases a <;> cases b <;> simp_all [plainCompare, Cell.toInt?, pure, Except.pure]

/-- **Numbers compare by their exact values**, integers, booleans and
doubles alike. -/
theorem plainCompare_eq (sym : String) {a b : Cell} {u v : WithBot (WithTop Int)}
    (ha : a.exactValue? = some u) (hb : b.exactValue? = some v) :
    plainCompare sym a b = .ok (some (compare u v)) := by
  rcases Cell.exactValue?_eq_some ha with ⟨x, rfl, hx, rfl⟩ | ⟨m, hm, rfl⟩ <;>
  rcases Cell.exactValue?_eq_some hb with ⟨y, rfl, hy, rfl⟩ | ⟨n, hn, rfl⟩
  · simp only [plainCompare, hx, hy, Bool.or_false, Bool.false_eq_true, if_false]
    rw [compare_floats hx hy]
    rfl
  · rw [plainCompare_float_whole sym x hn, cmpIntFloat_eq n hx, Option.map_some, swap_compare_eq]
  · rw [plainCompare_whole_float sym hm y, cmpIntFloat_eq m hy]
  · rw [plainCompare_whole_whole sym hm hn, compare_coe, compare_mul_pos _ _ (Int.pow_pos (by decide))]

end Numeric

namespace Value

open Numeric

/-- The exact value of a plain number, in units of `2^-1074`. -/
def exactValue? (v : Value) : Option (WithBot (WithTop Int)) := v.toCell?.bind Cell.exactValue?

theorem compare_plain (r : Relation) {a b : Value} {c d : Cell} (ha : a.toCell? = some c)
    (hb : b.toCell? = some d) :
    Value.compare r a b = match plainCompare r.symbol c d with
      | .ok o => pure ((o.map r.holds).getD false)
      | .error _ => throw (unordered r a b) := by
  cases a <;> cases b <;> simp only [toCell?, Option.some.injEq, reduceCtorEq] at ha hb <;>
    subst ha hb <;> rfl

/-- **Plain numbers compare by their exact values.** -/
theorem compare_eq_holds (r : Relation) {a b : Value} {u v : WithBot (WithTop Int)}
    (ha : a.exactValue? = some u) (hb : b.exactValue? = some v) :
    Value.compare r a b = .ok (r.holds (Ord.compare u v)) := by
  obtain ⟨c, hc, hcu⟩ := Option.bind_eq_some_iff.1 ha
  obtain ⟨d, hd, hdv⟩ := Option.bind_eq_some_iff.1 hb
  rw [compare_plain r hc hd, plainCompare_eq r.symbol hcu hdv]
  rfl

end Value

end Evolver
