import Lisplet.Number
import Lisplet.Proofs.Double.Rounding

/-!
# Proofs/Double/Whole — a decimal without places is read as a whole number

A double stands for a rational number (`toRat`), and the test that the written form makes on its
mantissa and exponent is whether that is an integer (`isWhole_iff`).  A decimal without places may
be rounded when it is read, but never to a number with places (`isWhole_of_toFloat`): up to
fifty-three bits it is a double itself (`unpack_toFloat_of_lt`), and beyond that rounding leaves no
negative exponent (`exponent_nonneg_of_toFloat`).
-/

namespace Lisplet.Double

open Float.Model Float.Model.UnpackedFloat

/-! ## Doubles as rational numbers -/

/-- **The rational number that a finite double is.** -/
def toRat (x : Float) : ℚ :=
  match x.toModel.unpack with
  | .finite s m e _ => s.apply m * 2 ^ e
  | _ => 0

theorem isWhole_iff_dvd {m : Nat} {e : Int} : isWhole m e = true ↔ 2 ^ (-e).toNat ∣ m := by
  rw [isWhole, decide_eq_true_iff, Nat.dvd_iff_mod_eq_zero]
  rfl

/-- **The test for a whole number is whether the number is an integer.** -/
theorem isWhole_iff (s : Sign) (m : Nat) (e : Int) :
    isWhole m e = true ↔ ∃ k : ℤ, (s.apply m * 2 ^ e : ℚ) = k := by
  rw [isWhole_iff_dvd, ← Int.natCast_dvd_natCast]
  have hsign : ∀ j : ℤ, j ∣ (m : ℤ) ↔ j ∣ s.apply m := by
    intro j
    cases s <;> simp [Sign.apply]
  rw [hsign]
  rcases Int.lt_or_le e 0 with he | he
  · obtain ⟨j, rfl⟩ : ∃ j : Nat, e = -j := ⟨(-e).toNat, by omega⟩
    have hpow : (2 : ℚ) ^ j ≠ 0 := by positivity
    simp only [neg_neg, Int.toNat_natCast, zpow_neg, zpow_natCast]
    constructor
    · rintro ⟨k, hk⟩
      exact ⟨k, by rw [hk]; push_cast; field_simp⟩
    · rintro ⟨k, hk⟩
      refine ⟨k, ?_⟩
      have hmul : ((s.apply m : ℤ) : ℚ) = 2 ^ j * k := by rw [← hk]; field_simp
      exact_mod_cast hmul
  · obtain ⟨j, rfl⟩ := Int.eq_ofNat_of_zero_le he
    simp only [show (-(j : Int)).toNat = 0 by omega, Nat.pow_zero, Int.natCast_one, one_dvd,
      true_iff, zpow_natCast]
    exact ⟨s.apply m * 2 ^ j, by push_cast; rfl⟩

theorem isWhole_of_nonneg {m : Nat} {e : Int} (h : 0 ≤ e) : isWhole m e = true := by
  rw [isWhole_iff_dvd, show (-e).toNat = 0 by omega]
  exact Nat.one_dvd m

/-! ## Rounding to a full mantissa -/

theorem mantissa_shiftRight (em : ExtendedMantissa) (j : Nat) :
    (em >>> j).mantissa = em.mantissa / 2 ^ j := by
  change (j.repeat ExtendedMantissa.shiftRightOne em).mantissa = _
  induction j with
  | zero => simp [Nat.repeat]
  | succ j ih =>
    rw [Nat.repeat, ExtendedMantissa.shiftRightOne, ih, Nat.div_div_eq_div_mul, ← Nat.pow_succ]

theorem mantissa_le_roundedMantissa (em : ExtendedMantissa) :
    em.mantissa ≤ em.roundedMantissa := by
  obtain ⟨m, round, sticky⟩ := em
  cases round <;> cases sticky <;>
    simp [ExtendedMantissa.roundedMantissa, ExtendedMantissa.accuracy,
      Accuracy.roundToNearestEven]

/-- A mantissa that fills its fifty-three bits or more is cut to the first fifty-three. -/
theorem shiftToTargetExponent_of_full {n : Nat} {e : Int} (hn : 2 ^ 52 ≤ n) (he : -1074 ≤ e) :
    ∃ em e', shiftToTargetExponent .binary64 n e .exact = (em, e') ∧
      2 ^ 52 ≤ em.mantissa ∧ em.mantissa < 2 ^ 53 ∧ e' = n.log2 + e - 52 := by
  have hne : n ≠ 0 := by omega
  have hlog : 52 ≤ n.log2 := (Nat.le_log2 hne).mpr hn
  have hmin : Format.binary64.minExponent = -1074 := by decide
  have htarget : Format.binary64.targetExponent (totalExponent n e) = n.log2 + e - 52 := by
    simp only [Format.targetExponent, totalExponent, mantissaBits_binary64, hmin]
    omega
  have hle : 2 ^ (52 + (n.log2 - 52)) ≤ n := by
    rw [show 52 + (n.log2 - 52) = n.log2 by omega]
    exact Nat.log2_self_le hne
  have hlt : n < 2 ^ (53 + (n.log2 - 52)) := by
    rw [show 53 + (n.log2 - 52) = n.log2 + 1 by omega]
    exact Nat.lt_log2_self
  rw [Nat.pow_add] at hle hlt
  refine ⟨_, _, rfl, ?_⟩
  rw [htarget, show (n.log2 + e - 52 - e).toNat = n.log2 - 52 by omega, mantissa_shiftRight]
  exact ⟨(Nat.le_div_iff_mul_le (Nat.two_pow_pos _)).mpr hle,
    (Nat.div_lt_iff_lt_mul (Nat.two_pow_pos _)).mpr hlt, by omega⟩

/-- **Rounding a mantissa of fifty-three bits or more leaves fifty-three**, with an exponent that is
as large as its size asks for. -/
theorem exists_roundWithAccuracy {n : Nat} {e : Int} (hn : 2 ^ 52 ≤ n) (he : -1074 ≤ e)
    (s : Sign) : ∃ m e' hm, roundWithAccuracy .binary64 s n e .exact = .finite s m e' hm ∧
      2 ^ 52 ≤ m ∧ m < 2 ^ 53 ∧ n.log2 + e - 52 ≤ e' := by
  have hlog : 52 ≤ n.log2 := (Nat.le_log2 (by omega)).mpr hn
  obtain ⟨em, e₁, hem, hle, -, he₁⟩ := shiftToTargetExponent_of_full hn he
  have hrounded : 2 ^ 52 ≤ em.roundedMantissa := hle.trans (mantissa_le_roundedMantissa em)
  have hlog₁ : 52 ≤ em.roundedMantissa.log2 := (Nat.le_log2 (by omega)).mpr hrounded
  -- Rounding up may have taken one bit more, so the mantissa is cut a second time.
  obtain ⟨em', e₂, hem', hle', hlt', he₂⟩ :=
    shiftToTargetExponent_of_full (e := e₁) hrounded (by omega)
  refine ⟨em'.mantissa, e₂, by omega, ?_, hle', hlt', by omega⟩
  simp only [roundWithAccuracy, hem, hem']
  rw [dif_neg (by omega)]

/-- An exponent that does not fit makes a double infinite. -/
theorem isFinite_pack_of_high {m : Nat} {e : Int} (h : 971 < e) (s : Sign) (hm : 0 < m) :
    (Float.Model.pack (.finite s m e hm)).unpack.isFinite = false := by
  have hbits : UnpackedFloat.pack .binary64 (.finite s m e hm) =
      UnpackedFloat.pack .binary64 (.infinity s) := by
    simp only [UnpackedFloat.pack, exponentBias_binary64]
    exact if_pos (by simp; omega)
  have hpack : Float.Model.pack (.finite s m e hm) = .pack (.infinity s) := by
    simp only [Float.Model.pack, hbits]
  rw [hpack]
  cases s <;> decide

/-! ## Reading a decimal without places -/

/-- Up to fifty-three bits a whole number is a double. -/
theorem canonical_of_lt {k : Nat} (hk : k ≠ 0) (hlt : k < 2 ^ 53) :
    Canonical (k * 2 ^ (52 - k.log2)) (-(52 - k.log2 : Nat)) := by
  have hlog : k.log2 < 53 := (Nat.log2_lt hk).mpr hlt
  have hle : 2 ^ k.log2 ≤ k := Nat.log2_self_le hk
  have hup : k < 2 ^ (k.log2 + 1) := Nat.lt_log2_self
  have hpow : 2 ^ k.log2 * 2 ^ (52 - k.log2) = 2 ^ 52 := by
    rw [← Nat.pow_add, show k.log2 + (52 - k.log2) = 52 by omega]
  have hpow' : 2 ^ (k.log2 + 1) * 2 ^ (52 - k.log2) = 2 ^ 53 := by
    rw [← Nat.pow_add, show k.log2 + 1 + (52 - k.log2) = 53 by omega]
  refine ⟨Nat.mul_pos (Nat.pos_of_ne_zero hk) (Nat.two_pow_pos _), ?_, by omega, by omega, .inl ?_⟩
  · rw [← hpow']
    exact Nat.mul_lt_mul_of_pos_right hup (Nat.two_pow_pos _)
  · rw [← hpow]
    exact Nat.mul_le_mul_right _ hle

theorem toFloat_of_digits_eq_zero {d : Decimal} (h : d.digits = 0) :
    d.toFloat.toModel.unpack = .zero .positive := by
  rw [Decimal.toFloat, Float.Model.ofScientific, UnpackedFloat.ofScientific, dif_pos h]
  rfl

/-- Up to fifty-three bits a whole number is read as itself. -/
theorem unpack_toFloat_of_lt {k : Nat} (hk : k ≠ 0) (hlt : k < 2 ^ 53) :
    (Decimal.toFloat ⟨k, 0⟩).toModel.unpack = .finite .positive (k * 2 ^ (52 - k.log2))
      (-(52 - k.log2 : Nat)) (canonical_of_lt hk hlt).pos := by
  have hread := ofScientific_of_nonneg (d := ⟨k, 0⟩) (canonical_of_lt hk hlt) (by simp [Equals])
    (Int.le_refl 0)
  rw [Decimal.toFloat, Float.Model.ofScientific, hread]
  exact unpack_pack (canonical_of_lt hk hlt) .positive

/-- Beyond fifty-three bits a whole number is rounded to one, or to infinity. -/
theorem exponent_nonneg_of_toFloat {k : Nat} {s : Sign} {m : Nat} {e : Int} {hm : 0 < m}
    (hk : 2 ^ 53 ≤ k) (h : (Decimal.toFloat ⟨k, 0⟩).toModel.unpack = .finite s m e hm) :
    0 ≤ e := by
  have hne : k ≠ 0 := by omega
  have hlog : 53 ≤ k.log2 := (Nat.le_log2 hne).mpr hk
  obtain ⟨m', e', hm', hround, hle, hlt, hexp⟩ :=
    exists_roundWithAccuracy (n := k * 2 ^ 53) (e := -53) (by omega) (by omega) .positive
  rw [log2_mul_two_pow hne] at hexp
  have hread : (Decimal.toFloat ⟨k, 0⟩).toModel.unpack =
      (Float.Model.pack (.finite .positive m' e' hm')).unpack := by
    rw [Decimal.toFloat, Float.Model.ofScientific,
      ofScientific_of_le hne (Int.le_refl 0) (by omega), Int.toNat_zero, Nat.pow_zero,
      Nat.mul_one, hround]
  rw [hread] at h
  have hhigh : e' ≤ 971 := by
    by_contra hhigh
    have hinf := isFinite_pack_of_high (not_le.mp hhigh) .positive hm'
    rw [h] at hinf
    cases hinf
  have hc : Canonical m' e' := ⟨hm', hlt, by omega, hhigh, .inl hle⟩
  obtain ⟨-, -, rfl⟩ := UnpackedFloat.finite.inj ((unpack_pack hc .positive).symm.trans h)
  omega

theorem isWhole_of_toFloat_ofNat {k : Nat} {s : Sign} {m : Nat} {e : Int} {hm : 0 < m}
    (h : (Decimal.toFloat ⟨k, 0⟩).toModel.unpack = .finite s m e hm) : isWhole m e = true := by
  have hk : k ≠ 0 := by
    rintro rfl
    rw [toFloat_of_digits_eq_zero rfl] at h
    cases h
  rcases Nat.lt_or_ge k (2 ^ 53) with hlt | hge
  · obtain ⟨-, rfl, rfl⟩ := UnpackedFloat.finite.inj ((unpack_toFloat_of_lt hk hlt).symm.trans h)
    rw [isWhole_iff_dvd, Int.neg_neg, Int.toNat_natCast]
    exact Nat.dvd_mul_left _ _
  · exact isWhole_of_nonneg (exponent_nonneg_of_toFloat hge h)

/-- **A decimal without places is read as a whole number**, or is beyond all doubles. -/
theorem isWhole_of_toFloat {d : Decimal} {s : Sign} {m : Nat} {e : Int} {hm : 0 < m}
    (hd : 0 ≤ d.exponent) (h : d.toFloat.toModel.unpack = .finite s m e hm) :
    isWhole m e = true := by
  obtain ⟨n, p⟩ := d
  obtain ⟨k, rfl⟩ := Int.eq_ofNat_of_zero_le hd
  have hfinite : (Decimal.toFloat ⟨n, k⟩).isFinite = true := isFinite_iff.mpr (.inr ⟨_, _, _, _, h⟩)
  exact isWhole_of_toFloat_ofNat ((toFloat_scale hfinite).symm ▸ h)

end Lisplet.Double
