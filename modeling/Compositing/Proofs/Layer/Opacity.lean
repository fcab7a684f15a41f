/-
Compositing.Proofs.Layer.Opacity — the weight of a blend is a number.

An opacity may be anything, an infinity or no number at all; a weight is
finite all the same (`isFinite_blendWeight`). It is the result of binary64
arithmetic, which rounds and which overflows near `2 ^ 1024`. All that is
followed through it is a bound on the size, as a power of two
(`IsBelow`): a difference adds two to the exponent of the bound, a product
one to their sum, and a clamped opacity starts with seven.
-/
import Compositing.Layer.Opacity
import Mathlib.Algebra.Ring.Nat
import Mathlib.Tactic.SplitIfs

namespace Compositing

open Float.Model (UnpackedFloat totalExponent)
open Float.Model.Format (binary64)
open Float.Model.UnpackedFloat

/-! ## Sizes -/

/-- The size `m * 2 ^ e` is less than `2 ^ limit`. -/
def SizeBelow (limit : Int) (m : Nat) (e : Int) : Prop :=
  ∃ n : Nat, m < 2 ^ n ∧ e + n ≤ limit

/-- A finite number of a size less than `2 ^ limit`. -/
def IsBelow (limit : Int) : UnpackedFloat → Prop
  | .zero _ => True
  | .finite _ m e _ => SizeBelow limit m e
  | .infinity _ | .notANumber => False

variable {limit limit' e : Int} {m m' : Nat}

namespace SizeBelow

theorem mono (h : SizeBelow limit m e) (le : limit ≤ limit') :
    SizeBelow limit' m e := by
  obtain ⟨n, lt, sum⟩ := h
  exact ⟨n, lt, Int.le_trans sum le⟩

theorem of_le (h : SizeBelow limit m e) (le : m' ≤ m) :
    SizeBelow limit m' e := by
  obtain ⟨n, lt, sum⟩ := h
  exact ⟨n, Nat.lt_of_le_of_lt le lt, sum⟩

theorem totalExponent_le (h : SizeBelow limit m e) (pos : 0 < m) :
    totalExponent m e ≤ limit := by
  obtain ⟨n, lt, sum⟩ := h
  have top : m.log2 < n := (Nat.log2_lt (Nat.ne_of_gt pos)).mpr lt
  unfold totalExponent
  omega

/-- Bits that are shifted out do not make a number larger. -/
theorem shiftRight (h : SizeBelow limit m e) (k : Nat)
    (some_left : m / 2 ^ k ≠ 0) : SizeBelow limit (m / 2 ^ k) (e + k) := by
  obtain ⟨n, lt, sum⟩ := h
  have le : k ≤ n := by
    refine Nat.le_of_not_lt fun less => some_left (Nat.div_eq_of_lt ?_)
    exact Nat.lt_trans lt (Nat.pow_lt_pow_right (by decide) less)
  refine ⟨n - k, ?_, by omega⟩
  rw [Nat.div_lt_iff_lt_mul (Nat.two_pow_pos k), ← Nat.pow_add,
    Nat.sub_add_cancel le]
  exact lt

theorem shiftLeft (h : SizeBelow limit m e) (k : Nat) :
    SizeBelow limit (m <<< k) (e - k) := by
  obtain ⟨n, lt, sum⟩ := h
  refine ⟨n + k, ?_, by omega⟩
  rw [Nat.shiftLeft_eq, Nat.pow_add]
  exact Nat.mul_lt_mul_of_pos_right lt (Nat.two_pow_pos k)

/-- The same size with a lower exponent. -/
theorem decreaseExponent {e' : Int} (h : SizeBelow limit m e)
    (le : e' ≤ e) : SizeBelow limit (decreaseExponent m e e').1 e' := by
  have shifted := h.shiftLeft (e - e').toNat
  have reached : e - (e - e').toNat = e' := by omega
  rwa [reached] at shifted

theorem add (h : SizeBelow limit m e) (h' : SizeBelow limit m' e) :
    SizeBelow (limit + 1) (m + m') e := by
  obtain ⟨n, lt, sum⟩ := h
  obtain ⟨n', lt', sum'⟩ := h'
  have le : 2 ^ n ≤ 2 ^ max n n' :=
    Nat.pow_le_pow_right (by decide) (Nat.le_max_left n n')
  have le' : 2 ^ n' ≤ 2 ^ max n n' :=
    Nat.pow_le_pow_right (by decide) (Nat.le_max_right n n')
  refine ⟨max n n' + 1, ?_, by omega⟩
  rw [Nat.pow_succ]
  omega

theorem mul {e' : Int} (h : SizeBelow limit m e)
    (h' : SizeBelow limit' m' e') :
    SizeBelow (limit + limit') (m * m') (e + e') := by
  obtain ⟨n, lt, sum⟩ := h
  obtain ⟨n', lt', sum'⟩ := h'
  refine ⟨n + n', ?_, by omega⟩
  rw [Nat.pow_add]
  exact Nat.mul_lt_mul'' lt lt'

end SizeBelow

theorem IsBelow.mono {u : UnpackedFloat} (h : IsBelow limit u)
    (le : limit ≤ limit') : IsBelow limit' u := by
  cases u with
  | zero => trivial
  | finite => exact SizeBelow.mono h le
  | infinity => cases h
  | notANumber => cases h

/-! ## Rounding -/

theorem mantissa_shiftRight (em : ExtendedMantissa) (k : Nat) :
    (em >>> k).mantissa = em.mantissa / 2 ^ k := by
  change (k.repeat ExtendedMantissa.shiftRightOne em).mantissa = _
  induction k with
  | zero => exact (Nat.div_one _).symm
  | succ k ih =>
    rw [Nat.repeat, ExtendedMantissa.shiftRightOne, ih,
      Nat.div_div_eq_div_mul, Nat.pow_succ]

theorem mantissa_shiftToTargetExponent (m : Nat) (e : Int) :
    (shiftToTargetExponent binary64 m e .exact).1.mantissa =
      m / 2 ^ (binary64.targetExponent (totalExponent m e) - e).toNat :=
  mantissa_shiftRight _ _

theorem roundedMantissa_le (em : ExtendedMantissa) :
    em.roundedMantissa ≤ em.mantissa + 1 := by
  obtain ⟨m, round, sticky⟩ := em
  cases round <;> cases sticky <;>
    simp only [ExtendedMantissa.roundedMantissa, ExtendedMantissa.accuracy,
      Accuracy.roundToNearestEven] <;>
    omega

/-- A number is rounded 53 bits below its highest one, but not below the
subnormal numbers. -/
theorem targetExponent_le {total : Int} (le : total ≤ limit)
    (low : -1022 ≤ limit) : binary64.targetExponent total + 52 ≤ limit := by
  have lowest : binary64.minExponent = -1074 := by decide
  have bits : binary64.mantissaBits = 53 := by decide
  unfold Float.Model.Format.targetExponent
  rw [lowest, bits]
  omega

/-- Rounding may carry into one more bit. -/
theorem SizeBelow.rounded (h : SizeBelow limit m e) (pos : 0 < m)
    (low : -1022 ≤ limit) :
    let shifted := shiftToTargetExponent binary64 m e .exact
    SizeBelow (limit + 1) shifted.1.roundedMantissa shifted.2 := by
  let k := (binary64.targetExponent (totalExponent m e) - e).toNat
  have le :=
    roundedMantissa_le (shiftToTargetExponent binary64 m e .exact).1
  rw [mantissa_shiftToTargetExponent] at le
  have carried : SizeBelow (limit + 1) (m / 2 ^ k + 1) (e + k) := by
    by_cases none_left : m / 2 ^ k = 0
    · -- At most one unit of the new exponent is left.
      have target := targetExponent_le (h.totalExponent_le pos) low
      have shifts : k ≠ 0 := by
        intro still
        rw [still, Nat.pow_zero, Nat.div_one] at none_left
        exact Nat.ne_of_gt pos none_left
      rw [none_left]
      exact ⟨1, by decide, by omega⟩
    · have shifted := h.shiftRight k none_left
      exact shifted.add (shifted.of_le (Nat.pos_of_ne_zero none_left))
  exact carried.of_le le

theorem isBelow_roundWithAccuracy (h : SizeBelow limit m e) (pos : 0 < m)
    (low : -1022 ≤ limit) (sign : Sign) :
    IsBelow (limit + 1)
      (roundWithAccuracy binary64 sign m e .exact) := by
  have rounded := h.rounded pos low
  unfold roundWithAccuracy
  dsimp only at rounded ⊢
  -- What has carried is shifted once more, without another rounding.
  generalize
    (shiftToTargetExponent binary64 m e .exact).1.roundedMantissa = m',
    (shiftToTargetExponent binary64 m e .exact).2 = e' at rounded ⊢
  by_cases none_left :
      (shiftToTargetExponent binary64 m' e' .exact).1.mantissa = 0
  · rw [dif_pos none_left]
    trivial
  · rw [dif_neg none_left]
    rw [mantissa_shiftToTargetExponent] at none_left
    show SizeBelow _ _ _
    rw [mantissa_shiftToTargetExponent]
    exact rounded.shiftRight _ none_left

theorem isBelow_round (h : SizeBelow limit m e) (pos : 0 < m)
    (low : -1022 ≤ limit) (sign : Sign) :
    IsBelow (limit + 1) (UnpackedFloat.round binary64 sign m e) := by
  refine isBelow_roundWithAccuracy (h.shiftLeft _) ?_ low sign
  rw [Nat.shiftLeft_eq]
  exact Nat.mul_pos pos (Nat.two_pow_pos _)

theorem isBelow_normalize {n : Int} (h : SizeBelow limit n.natAbs e)
    (low : -1022 ≤ limit) (zeroSign : Sign) :
    IsBelow (limit + 1) (UnpackedFloat.normalize binary64 n e zeroSign) := by
  unfold UnpackedFloat.normalize
  split
  · rename_i lt
    have lt : n < 0 := Int.compare_eq_lt.mp lt
    exact isBelow_round (h.of_le (by omega)) (by omega) low .negative
  · trivial
  · rename_i gt
    have gt : 0 < n := Int.compare_eq_gt.mp gt
    exact isBelow_round (h.of_le (by omega)) (by omega) low .positive

/-! ## Packing -/

/-- The bits of a number whose exponent is neither that of an infinity nor
too high. -/
theorem isBelow_unpack_packComponents {sign : Sign}
    {exponent : BitVec 11} {mantissa : BitVec 52}
    (finite : exponent ≠ -1#11)
    (normal : exponent ≠ 0#11 → (exponent.toNat : Int) - 1022 ≤ limit)
    (low : -1022 ≤ limit) :
    IsBelow limit (unpack binary64
      (packComponents binary64 sign exponent mantissa)) := by
  have bias : binary64.exponentBias = 1023 := by decide
  generalize packed : packComponents binary64 sign exponent mantissa = b
  have field : @unpackExponent binary64 b = exponent := by
    rw [← packed]
    exact unpackExponent_packComponents
  unfold unpack
  dsimp only
  rw [if_neg (field ▸ finite)]
  by_cases subnormal : @unpackExponent binary64 b = 0#11
  · rw [if_pos subnormal]
    by_cases empty : @unpackMantissa binary64 b = 0#52
    · rw [dif_pos empty]
      trivial
    · rw [dif_neg empty]
      refine ⟨52, BitVec.isLt _, ?_⟩
      rw [subnormal, bias]
      show (0 : Int) - _ + 1 + _ ≤ _
      omega
  · rw [if_neg subnormal]
    have high := normal (field ▸ subnormal)
    refine ⟨53, BitVec.isLt _, ?_⟩
    rw [field, bias]
    omega

/-- A number that is small enough is packed as one. -/
theorem IsBelow.unpack_pack {u : UnpackedFloat} (h : IsBelow limit u)
    (low : -1022 ≤ limit) (high : limit ≤ 971) :
    IsBelow limit (unpack binary64 (pack binary64 u)) := by
  have subnormal : (0#11 ≠ 0#11 → ((0#11).toNat : Int) - 1022 ≤ limit) :=
    fun nonzero => absurd rfl nonzero
  match u with
  | .notANumber => cases h
  | .infinity _ => cases h
  | .zero sign =>
    exact isBelow_unpack_packComponents (by decide) subnormal low
  | .finite sign m e pos =>
    obtain ⟨n, lt, sum⟩ := h
    have bias : binary64.exponentBias = 1023 := by decide
    have bits : binary64.mantissaBits = 53 := by decide
    unfold pack
    simp only [bias, bits]
    generalize biased : (e + (1023 : Nat) + (52 : Nat)).toNat = exponent
    have fits : ¬ 2 ^ 11 ≤ exponent + 1 := by omega
    have field : (BitVec.ofNat 11 exponent).toNat = exponent := by
      rw [BitVec.toNat_ofNat]
      omega
    rw [if_neg fits]
    split
    · rename_i full
      have top : m.log2 < n := (Nat.log2_lt (Nat.ne_of_gt pos)).mpr lt
      refine isBelow_unpack_packComponents (fun ones => ?_)
        (fun nonzero => ?_) low
      · have all : (-1#11).toNat = 2047 := by decide
        rw [ones, all] at field
        omega
      · have : exponent ≠ 0 := fun zero => nonzero (by rw [zero])
        rw [field]
        omega
    · exact isBelow_unpack_packComponents (by decide) subnormal low

/-- A mantissa of at most 53 bits, if there is one. -/
def IsNarrow : UnpackedFloat → Prop
  | .finite _ m _ _ => m < 2 ^ 53
  | _ => True

theorem isNarrow_unpack (x : Float.Model) : IsNarrow x.unpack := by
  unfold Float.Model.unpack unpack
  dsimp only
  by_cases special : @unpackExponent binary64 x.toBits.toBitVec = -1#11
  · rw [if_pos special]
    split <;> trivial
  · rw [if_neg special]
    by_cases subnormal : @unpackExponent binary64 x.toBits.toBitVec = 0#11
    · rw [if_pos subnormal]
      by_cases empty : @unpackMantissa binary64 x.toBits.toBitVec = 0#52
      · rw [dif_pos empty]
        trivial
      · rw [dif_neg empty]
        exact Nat.lt_trans (BitVec.isLt _) (by decide)
    · rw [if_neg subnormal]
      exact BitVec.isLt _

/-! ## Arithmetic -/

theorem natAbs_apply (sign : Sign) (n : Int) :
    (sign.apply n).natAbs = n.natAbs := by
  cases sign with
  | negative => exact Int.natAbs_neg n
  | positive => rfl

theorem IsBelow.sub {u v : UnpackedFloat} (hu : IsBelow limit u)
    (hv : IsBelow limit v) (low : -1022 ≤ limit) :
    IsBelow (limit + 2) (UnpackedFloat.sub binary64 u v) := by
  match u, v with
  | .notANumber, _ => cases hu
  | .infinity _, _ => cases hu
  | _, .notANumber => cases hv
  | _, .infinity _ => cases hv
  | .zero _, .zero _ =>
    unfold UnpackedFloat.sub
    dsimp only
    split <;> trivial
  | .zero _, .finite .. => exact SizeBelow.mono hv (by omega)
  | .finite .., .zero _ => exact SizeBelow.mono hu (by omega)
  | .finite s₁ m₁ e₁ _, .finite s₂ m₂ e₂ _ =>
    have h₁ := SizeBelow.decreaseExponent hu (Int.min_le_left e₁ e₂)
    have h₂ := SizeBelow.decreaseExponent hv (Int.min_le_right e₁ e₂)
    refine (isBelow_normalize ((h₁.add h₂).of_le ?_) (by omega) _).mono
      (by omega)
    refine Nat.le_trans (Int.natAbs_sub_le _ _) ?_
    rw [natAbs_apply, natAbs_apply]
    exact Nat.le_refl _

theorem IsBelow.mul {u v : UnpackedFloat} (hu : IsBelow limit u)
    (hv : IsBelow limit' v) (low : -1022 ≤ limit + limit') :
    IsBelow (limit + limit' + 1) (UnpackedFloat.mul binary64 u v) := by
  match u, v with
  | .notANumber, _ => cases hu
  | .infinity _, _ => cases hu
  | _, .notANumber => cases hv
  | _, .infinity _ => cases hv
  | .zero _, .zero _ => trivial
  | .zero _, .finite .. => trivial
  | .finite .., .zero _ => trivial
  | .finite s₁ m₁ e₁ pos₁, .finite s₂ m₂ e₂ pos₂ =>
    exact isBelow_roundWithAccuracy (SizeBelow.mul hu hv)
      (Nat.mul_pos pos₁ pos₂) low _

section

variable {x y : Float}

theorem isBelow_sub (hx : IsBelow limit x.toModel.unpack)
    (hy : IsBelow limit y.toModel.unpack) (low : -1022 ≤ limit)
    (high : limit ≤ 969) : IsBelow (limit + 2) (x - y).toModel.unpack :=
  (hx.sub hy low).unpack_pack (by omega) (by omega)

theorem isBelow_mul (hx : IsBelow limit x.toModel.unpack)
    (hy : IsBelow limit' y.toModel.unpack) (low : -1022 ≤ limit + limit')
    (high : limit + limit' ≤ 970) :
    IsBelow (limit + limit' + 1) (x * y).toModel.unpack :=
  (hx.mul hy low).unpack_pack (by omega) (by omega)

theorem isFinite_of_isBelow (h : IsBelow limit x.toModel.unpack) :
    x.isFinite = true := by
  show x.toModel.unpack.isFinite = true
  cases unpacked : x.toModel.unpack with
  | zero => rfl
  | finite => rfl
  | infinity =>
    rw [unpacked] at h
    cases h
  | notANumber =>
    rw [unpacked] at h
    cases h

theorem lt_iff_compare :
    x < y ↔ x.toModel.unpack.compare y.toModel.unpack = some .lt := by
  show decide (Float.Model.lt x.toModel y.toModel = true) = true ↔ _
  rw [decide_eq_true_iff]
  exact beq_iff_eq

end

/-! ## Opacities and weights -/

theorem exists_unpack_hundred : ∃ m pos,
    (100.0 : Float).toModel.unpack = .finite .positive m (-46) pos :=
  ⟨_, _, rfl⟩

/-- Numbers are compared by their exponents first, so none that is at most
100 has a higher one. -/
theorem isBelow_of_percent {x : Float} (finite : x.isFinite = true)
    (nonneg : ¬ x < 0.0) (le : ¬ 100.0 < x) :
    IsBelow 7 x.toModel.unpack := by
  obtain ⟨hundred, _, unpacked_hundred⟩ := exists_unpack_hundred
  have unpacked_zero : (0.0 : Float).toModel.unpack = .zero .positive := rfl
  rw [lt_iff_compare, unpacked_zero] at nonneg
  rw [lt_iff_compare, unpacked_hundred] at le
  have finite : x.toModel.unpack.isFinite = true := finite
  have narrow := isNarrow_unpack x.toModel
  cases unpacked : x.toModel.unpack with
  | zero => trivial
  | infinity =>
    rw [unpacked] at finite
    cases finite
  | notANumber =>
    rw [unpacked] at finite
    cases finite
  | finite sign m e pos =>
    rw [unpacked] at nonneg le narrow
    cases sign with
    | negative => exact absurd rfl nonneg
    | positive =>
      have exponent : e ≤ -46 := by
        refine Int.not_lt.mp fun less => le ?_
        show some ((compare (-46) e).then (compare hundred m)) = some .lt
        rw [Int.compare_eq_lt.mpr less]
        rfl
      exact ⟨53, narrow, by omega⟩

theorem isBelow_clampOpacity (opacity : Float) :
    IsBelow 7 (clampOpacity opacity).toModel.unpack := by
  have hundred : IsBelow 7 (100.0 : Float).toModel.unpack :=
    ⟨53, by decide, by decide⟩
  unfold clampOpacity
  split_ifs with finite negative large
  · trivial
  · exact hundred
  · exact isBelow_of_percent finite negative large
  · exact hundred

/-- A weight is a finite number, whatever the opacity. -/
theorem isFinite_blendWeight (opacity : Float) :
    (blendWeight opacity).isFinite = true := by
  have fifty : IsBelow 7 (50.0 : Float).toModel.unpack :=
    ⟨53, by decide, by decide⟩
  have two : IsBelow 2 (2.0 : Float).toModel.unpack :=
    ⟨53, by decide, by decide⟩
  have centred := isBelow_sub (isBelow_clampOpacity opacity) fifty
    (by decide) (by decide)
  exact isFinite_of_isBelow
    (isBelow_mul centred two (by decide) (by decide))

theorem clampOpacity_cases (opacity : Float) :
    clampOpacity opacity = 0.0 ∨ clampOpacity opacity = 100.0 ∨
      clampOpacity opacity = opacity := by
  unfold clampOpacity
  split_ifs
  · exact .inl rfl
  · exact .inr (.inl rfl)
  · exact .inr (.inr rfl)
  · exact .inr (.inl rfl)

theorem clampOpacity_clampOpacity (opacity : Float) :
    clampOpacity (clampOpacity opacity) = clampOpacity opacity := by
  rcases clampOpacity_cases opacity with eq | eq | eq <;> rw [eq]
  · decide +kernel
  · decide +kernel
  · exact eq

/-- A weight is that of the clamped opacity. -/
theorem blendWeight_clampOpacity (opacity : Float) :
    blendWeight (clampOpacity opacity) = blendWeight opacity := by
  rw [blendWeight, blendWeight, clampOpacity_clampOpacity]

end Compositing
