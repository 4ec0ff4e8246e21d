import Lisplet.Proofs.Double.Fields

/-!
# Proofs/Double/Rounding — a decimal that is a double is read as that double

Reading a decimal multiplies or divides and rounds.  When the decimal is exactly `m · 2 ^ e` for a
canonical pair, the product or the quotient is `m` with zeros behind it (`roundWithAccuracy_eq`), so
nothing is rounded away: `toFloat_eq_abs`.
-/

namespace Lisplet.Double

open Float.Model Float.Model.UnpackedFloat

/-! ## Rounding what needs no rounding -/

theorem log2_mul_two_pow {m : Nat} (hm : m ≠ 0) (j : Nat) : (m * 2 ^ j).log2 = m.log2 + j := by
  induction j with
  | zero => simp
  | succ j ih =>
    have hne : m * 2 ^ j ≠ 0 := Nat.mul_ne_zero hm (by simp)
    rw [Nat.pow_succ, ← Nat.mul_assoc, Nat.mul_comm, Nat.log2_two_mul hne, ih]
    omega

/-- The exponent of a canonical pair is the one that its size asks for. -/
theorem targetExponent_eq {m : Nat} {e : Int} (h : Canonical m e) :
    Format.binary64.targetExponent (totalExponent m e) = e := by
  have hne : m ≠ 0 := Nat.ne_of_gt h.pos
  have hlt := (Nat.log2_lt hne).mpr h.lt
  have hlow := h.low
  have hmin : Format.binary64.minExponent = -1074 := by decide
  have hfull : 52 ≤ m.log2 ∨ e = -1074 := h.full.imp_left (Nat.le_log2 hne).mpr
  simp only [Format.targetExponent, totalExponent, mantissaBits_binary64, hmin]
  omega

theorem shiftRight_exact (m j : Nat) :
    ExtendedMantissa.ofMantissaAndAccuracy (m * 2 ^ j) .exact >>> j = ⟨m, false, false⟩ := by
  change j.repeat ExtendedMantissa.shiftRightOne ⟨m * 2 ^ j, false, false⟩ = ⟨m, false, false⟩
  induction j generalizing m with
  | zero => simp [Nat.repeat]
  | succ j ih =>
    rw [Nat.repeat, Nat.pow_succ, ← Nat.mul_assoc, Nat.mul_right_comm, ih]
    simp [ExtendedMantissa.shiftRightOne]

theorem shiftToTargetExponent_eq {m : Nat} {e : Int} (h : Canonical m e) (j : Nat) :
    shiftToTargetExponent .binary64 (m * 2 ^ j) (e - j) .exact = (⟨m, false, false⟩, e) := by
  have htotal : totalExponent (m * 2 ^ j) (e - j) = totalExponent m e := by
    rw [totalExponent, totalExponent, log2_mul_two_pow (Nat.ne_of_gt h.pos)]
    omega
  rw [shiftToTargetExponent, htotal, targetExponent_eq h, shiftToExponent]
  simp only [show (e - (e - j : Int)).toNat = j by omega, shiftRight_exact, Prod.mk.injEq, true_and]
  omega

/-- **Rounding a canonical pair, however it is spread out, gives it back.** -/
theorem roundWithAccuracy_eq {m : Nat} {e : Int} (h : Canonical m e) (s : Sign) (j : Nat) :
    roundWithAccuracy .binary64 s (m * 2 ^ j) (e - j) .exact = .finite s m e h.pos := by
  have hagain := shiftToTargetExponent_eq h 0
  rw [Nat.pow_zero, Nat.mul_one, Int.natCast_zero, Int.sub_zero] at hagain
  have hrounded : ExtendedMantissa.roundedMantissa ⟨m, false, false⟩ = m := rfl
  simp only [roundWithAccuracy, shiftToTargetExponent_eq h j, hrounded, hagain]
  rw [dif_neg (Nat.ne_of_gt h.pos)]


/-! ## Reading a decimal that is a double -/

theorem log2_add_le_log2_mul {a b : Nat} (ha : a ≠ 0) (hb : b ≠ 0) :
    a.log2 + b.log2 ≤ (a * b).log2 := by
  rw [Nat.le_log2 (Nat.mul_ne_zero ha hb), Nat.pow_add]
  exact Nat.mul_le_mul (Nat.log2_self_le ha) (Nat.log2_self_le hb)

theorem log2_mul_le {a b : Nat} (ha : a ≠ 0) (hb : b ≠ 0) :
    (a * b).log2 ≤ a.log2 + b.log2 + 1 := by
  have h : (a * b).log2 < a.log2 + 1 + (b.log2 + 1) := by
    rw [Nat.log2_lt (Nat.mul_ne_zero ha hb), Nat.pow_add]
    exact Nat.mul_lt_mul_of_lt_of_lt Nat.lt_log2_self Nat.lt_log2_self
  omega

theorem le_log2_ten_pow (k : Nat) : k ≤ (10 ^ k).log2 := by
  rw [Nat.le_log2 (by simp)]
  exact Nat.pow_le_pow_left (by decide) k

/-- Powers of two on the two sides of an equation count by their difference alone. -/
theorem mul_two_pow_eq {x y a b p q : Nat} (h : x * 2 ^ a = y * 2 ^ b) (hs : b + p = q + a) :
    x * 2 ^ p = y * 2 ^ q := by
  refine Nat.eq_of_mul_eq_mul_right (Nat.two_pow_pos a) ?_
  calc x * 2 ^ p * 2 ^ a = x * 2 ^ a * 2 ^ p := Nat.mul_right_comm ..
    _ = y * 2 ^ b * 2 ^ p := by rw [h]
    _ = y * 2 ^ q * 2 ^ a := by rw [Nat.mul_assoc, Nat.mul_assoc, ← Nat.pow_add, ← Nat.pow_add, hs]

/-- `d = m · 2 ^ e`, in whole numbers. -/
def Equals (d : Decimal) (m : Nat) (e : Int) : Prop :=
  d.digits * 10 ^ d.exponent.toNat * 2 ^ (-e).toNat = m * 10 ^ (-d.exponent).toNat * 2 ^ e.toNat

theorem digits_ne_zero {d : Decimal} {m : Nat} {e : Int} (h : Canonical m e)
    (heq : Equals d m e) : d.digits ≠ 0 := by
  intro h0
  rw [Equals, h0, Nat.zero_mul, Nat.zero_mul] at heq
  exact Nat.ne_of_lt (Nat.mul_pos (Nat.mul_pos h.pos (Nat.pow_pos (by decide)))
    (Nat.two_pow_pos _)) heq

/-- A decimal without places is a product, which is rounded once. -/
theorem ofScientific_of_le {n : Nat} {p : Int} (hn : n ≠ 0) (h0 : 0 ≤ p) (hp : p ≤ 2048) :
    UnpackedFloat.ofScientific .binary64 n p =
      roundWithAccuracy .binary64 .positive (n * 2 ^ 53 * 10 ^ p.toNat) (-53) .exact := by
  have hbits : (2 : Int) ^ Format.binary64.exponentBits = 2048 := by decide
  rw [UnpackedFloat.ofScientific, dif_neg hn, hbits, if_neg (by omega), if_neg (by omega),
    if_pos h0, UnpackedFloat.mul, mantissaBits_binary64, Nat.shiftLeft_eq]
  rfl

theorem ofScientific_of_nonneg {d : Decimal} {m : Nat} {e : Int} (h : Canonical m e)
    (heq : Equals d m e) (hd : 0 ≤ d.exponent) :
    UnpackedFloat.ofScientific .binary64 d.digits d.exponent = .finite .positive m e h.pos := by
  have hn := digits_ne_zero h heq
  obtain ⟨n, p⟩ := d
  simp only [Equals] at heq hd hn ⊢
  have hm : m ≠ 0 := Nat.ne_of_gt h.pos
  rw [show (-p).toNat = 0 by omega, Nat.pow_zero, Nat.mul_one] at heq
  have hlow := h.low
  have hhigh := h.high
  have hten : 10 ^ p.toNat ≠ 0 := by simp
  have hp := le_log2_ten_pow p.toNat
  have hlt := (Nat.log2_lt hm).mpr h.lt
  have hlog := congrArg Nat.log2 heq
  rw [log2_mul_two_pow (Nat.mul_ne_zero hn hten), log2_mul_two_pow hm] at hlog
  have hsize := log2_add_le_log2_mul hn hten
  have hspread : n * 10 ^ p.toNat * 2 ^ 53 = m * 2 ^ (e + 53).toNat :=
    mul_two_pow_eq heq (by omega)
  rw [ofScientific_of_le hn hd (by omega), Nat.mul_right_comm, hspread,
    show (-53 : Int) = e - (e + 53).toNat by omega]
  exact roundWithAccuracy_eq h .positive (e + 53).toNat

theorem ofScientific_of_neg {d : Decimal} {m : Nat} {e : Int} (h : Canonical m e)
    (heq : Equals d m e) (hd : d.exponent < 0) :
    UnpackedFloat.ofScientific .binary64 d.digits d.exponent = .finite .positive m e h.pos := by
  have hn := digits_ne_zero h heq
  obtain ⟨n, p⟩ := d
  simp only [Equals] at heq hd hn ⊢
  have hm : m ≠ 0 := Nat.ne_of_gt h.pos
  rw [show p.toNat = 0 by omega, Nat.pow_zero, Nat.mul_one] at heq
  have hten : 10 ^ (-p).toNat ≠ 0 := by simp
  have hlow := h.low
  have hp := le_log2_ten_pow (-p).toNat
  have hlog := congrArg Nat.log2 heq
  rw [log2_mul_two_pow hn, log2_mul_two_pow (Nat.mul_ne_zero hm hten)] at hlog
  have hsize := log2_add_le_log2_mul hm hten
  have hsize' := log2_mul_le hm hten
  have htarget := targetExponent_eq h
  have hmin : Format.binary64.minExponent = -1074 := by decide
  rw [UnpackedFloat.ofScientific, dif_neg hn, if_neg (by simp; omega), if_neg (by simp; omega),
    if_neg (by omega), UnpackedFloat.div, divCore]
  generalize ht : min (0 - 0 : Int) _ = t
  have hte : t ≤ e ∧ t ≤ 0 := by
    simp only [Format.targetExponent, totalExponent, mantissaBits_binary64, hmin] at ht htarget
    omega
  have hspread : n * 2 ^ (0 - 0 - t).toNat = m * 10 ^ (-p).toNat * 2 ^ (e - t).toNat :=
    mul_two_pow_eq heq (by omega)
  have hround := roundWithAccuracy_eq h .positive (e - t).toNat
  simp only [Nat.shiftLeft_eq, hspread]
  rw [Nat.mul_right_comm, Nat.mul_div_cancel _ (Nat.pos_of_ne_zero hten), Nat.mul_mod_left,
    ← hround]
  simp only [accuracyOfFraction]
  congr 1
  omega

theorem toFloat_eq_abs {x : Float} {s : Sign} {m : Nat} {e : Int} {hm : 0 < m} {d : Decimal}
    (h : x.toModel.unpack = .finite s m e hm) (heq : Equals d m e) : d.toFloat = x.abs := by
  have hc := canonical_of_unpack h
  have hd : UnpackedFloat.ofScientific .binary64 d.digits d.exponent =
      .finite .positive m e hm := by
    rcases Int.lt_or_le d.exponent 0 with hneg | hnonneg
    · exact ofScientific_of_neg hc heq hneg
    · exact ofScientific_of_nonneg hc heq hnonneg
  rw [abs_eq_ofModel_pack h, Decimal.toFloat, Float.Model.ofScientific, hd]

/-! ## Decimals -/

theorem equals_dropZeros {d : Decimal} {m : Nat} {e : Int} (h : Equals d m e) (budget : Nat) :
    Equals (d.dropZeros budget) m e := by
  induction budget generalizing d with
  | zero => exact h
  | succ budget ih =>
    rw [Decimal.dropZeros]
    split
    · next h0 =>
      refine ih ?_
      obtain ⟨n, p⟩ := d
      obtain ⟨q, rfl⟩ := Nat.dvd_of_mod_eq_zero h0
      simp only [Equals] at h ⊢
      rw [Nat.mul_div_cancel_left q (by decide)]
      rcases Int.lt_or_le p 0 with hp | hp
      · rw [show p.toNat = 0 by omega, show (-p).toNat = (-(p + 1)).toNat + 1 by omega,
          Nat.pow_succ] at h
        rw [show (p + 1).toNat = 0 by omega]
        exact Nat.eq_of_mul_eq_mul_left (show 0 < 10 by decide)
          (Eq.trans (by ac_rfl) (h.trans (by ac_rfl)))
      · rw [show (-(p + 1)).toNat = (-p).toNat by omega,
          show (p + 1).toNat = p.toNat + 1 by omega, Nat.pow_succ]
        exact Eq.trans (by ac_rfl) h
    · exact h

theorem exact_eq (m : Nat) (e : Int) : Decimal.exact m e =
    if 0 ≤ e then ⟨m * 2 ^ e.toNat, 0⟩ else ⟨m * 5 ^ (-e).toNat, e⟩ := rfl

theorem equals_exact (m : Nat) (e : Int) : Equals (Decimal.exact m e) m e := by
  rw [exact_eq]
  split
  · next he => simp [Equals, show (-e).toNat = 0 by omega]
  · next he =>
    simp only [Equals, show e.toNat = 0 by omega, Nat.pow_zero, Nat.mul_one]
    rw [Nat.mul_assoc, ← Nat.mul_pow]

/-- Beyond all doubles every decimal but zero is infinite. -/
theorem isFinite_toFloat_of_lt {n k : Nat} (hn : n ≠ 0) (hk : 2048 < k) :
    (Decimal.toFloat ⟨n, k⟩).isFinite = false := by
  have hbits : (2 : Int) ^ Format.binary64.exponentBits = 2048 := by decide
  simp only [Decimal.toFloat, Float.Model.ofScientific, UnpackedFloat.ofScientific]
  rw [dif_neg hn, hbits, if_pos (by omega)]
  decide

/-- **Zeros behind the digits and in the exponent are the same.** -/
theorem toFloat_scale {n k : Nat} (h : (Decimal.toFloat ⟨n, k⟩).isFinite = true) :
    Decimal.toFloat ⟨n * 10 ^ k, 0⟩ = Decimal.toFloat ⟨n, k⟩ := by
  rcases Nat.eq_zero_or_pos n with rfl | hpos
  · simp [Decimal.toFloat, Float.Model.ofScientific, UnpackedFloat.ofScientific]
  · have hn : n ≠ 0 := Nat.ne_of_gt hpos
    have hscaled : n * 10 ^ k ≠ 0 := Nat.mul_ne_zero hn (by simp)
    have hk : k ≤ 2048 := Nat.le_of_not_lt fun hlt => by simp [isFinite_toFloat_of_lt hn hlt] at h
    simp only [Decimal.toFloat, Float.Model.ofScientific]
    rw [ofScientific_of_le hscaled (by omega) (by omega),
      ofScientific_of_le hn (by omega) (by omega), Nat.mul_right_comm n]
    simp

end Lisplet.Double
