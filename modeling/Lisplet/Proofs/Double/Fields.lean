import Lisplet.Number
import Mathlib

/-!
# Proofs/Double/Fields — a double and its fields

A double that is finite and not zero is a sign, a mantissa and an exponent.  `Canonical` says which
mantissas and exponents occur, and such a pair goes into the fields of a double and comes out of
them unchanged: `unpack_pack`.  So a double is its absolute value with its sign (`abs_of_positive`,
`neg_abs_of_negative`).
-/

namespace Lisplet.Double

open Float.Model Float.Model.UnpackedFloat

/-! ## Canonical pairs -/

/-- **The mantissa and the exponent of a double**: the mantissa fills its fifty-three bits, unless
the exponent is already the least. -/
structure Canonical (m : Nat) (e : Int) : Prop where
  pos : 0 < m
  lt : m < 2 ^ 53
  low : -1074 ≤ e
  high : e ≤ 971
  full : 2 ^ 52 ≤ m ∨ e = -1074

theorem exponentBias_binary64 : Format.binary64.exponentBias = 1023 := by decide

theorem mantissaBits_binary64 : Format.binary64.mantissaBits = 53 := by decide

/-! ## The fields in the bits -/

theorem toNat_one_append (b : BitVec 52) : (1#1 ++ b).toNat = 2 ^ 52 + b.toNat := by
  rw [BitVec.toNat_append, ← Nat.shiftLeft_add_eq_or_of_lt b.isLt]
  simp [Nat.shiftLeft_eq]

/-- **The fields of a double that is finite and not zero.** -/
theorem fields_of_unpack {b : BitVec Format.binary64.numBits} {s : Sign} {m : Nat} {e : Int}
    {hm : 0 < m} (h : unpack .binary64 b = .finite s m e hm) :
    s = Sign.ofBitVec (unpackSign b) ∧
      ((unpackExponent b).toNat = 0 ∧ m = (unpackMantissa b).toNat ∧ e = -1074 ∨
        0 < (unpackExponent b).toNat ∧ (unpackExponent b).toNat < 2047 ∧
          m = 2 ^ 52 + (unpackMantissa b).toNat ∧ e = (unpackExponent b).toNat - 1075) := by
  simp only [UnpackedFloat.unpack] at h
  split at h
  · split at h <;> simp at h
  next hinf =>
  split at h
  · next h0 =>
    split at h
    · simp at h
    · simp only [UnpackedFloat.finite.injEq, h0, exponentBias_binary64] at h
      obtain ⟨rfl, rfl, rfl⟩ := h
      exact ⟨rfl, .inl ⟨by rw [h0]; rfl, rfl, by decide⟩⟩
  · next h0 =>
    have hlt : (unpackExponent b).toNat ≠ 2047 := fun hc => hinf (BitVec.eq_of_toNat_eq hc)
    have hpos : (unpackExponent b).toNat ≠ 0 := fun hc => h0 (BitVec.eq_of_toNat_eq hc)
    have he11 : (unpackExponent b).toNat < 2 ^ 11 := (unpackExponent b).isLt
    simp only [UnpackedFloat.finite.injEq, toNat_one_append, exponentBias_binary64] at h
    obtain ⟨rfl, rfl, rfl⟩ := h
    exact ⟨rfl, .inr ⟨by omega, by omega, rfl, by omega⟩⟩

/-- **What a double unpacks to is canonical.** -/
theorem canonical_of_unpack {b : BitVec Format.binary64.numBits} {s : Sign} {m : Nat} {e : Int}
    {hm : 0 < m} (h : unpack .binary64 b = .finite s m e hm) : Canonical m e := by
  have hlt : (unpackMantissa b).toNat < 2 ^ 52 := (unpackMantissa b).isLt
  obtain ⟨-, ⟨-, rfl, rfl⟩ | ⟨_, _, rfl, rfl⟩⟩ := fields_of_unpack h
  · exact ⟨hm, by omega, by omega, by omega, .inr rfl⟩
  · exact ⟨hm, by omega, by omega, by omega, .inl (by omega)⟩

/-! ## Out of the fields and back -/

theorem log2_add_one {m : Nat} {e : Int} (h : Canonical m e) : m.log2 + 1 = 53 ↔ 2 ^ 52 ≤ m := by
  have hne : m ≠ 0 := Nat.ne_of_gt h.pos
  have := (Nat.log2_lt hne).mpr h.lt
  rw [← Nat.le_log2 hne]
  omega

/-- Packing puts a canonical pair into the fields. -/
theorem pack_finite {m : Nat} {e : Int} (h : Canonical m e) (s : Sign) :
    UnpackedFloat.pack .binary64 (.finite s m e h.pos) =
      packComponents .binary64 s
        (BitVec.ofNat 11 (if 2 ^ 52 ≤ m then (e + 1075).toNat else 0)) (BitVec.ofNat 52 m) := by
  have hhigh := h.high
  have hlow := h.low
  simp only [UnpackedFloat.pack, exponentBias_binary64, mantissaBits_binary64, log2_add_one h]
  rw [if_neg (by simp; omega), show e + (1023 : Nat) + (52 : Nat) = e + 1075 by omega]
  split <;> rfl

theorem ofNat_ne {w k n : Nat} (hk : k < 2 ^ w) (hn : n < 2 ^ w) (h : k ≠ n) :
    BitVec.ofNat w k ≠ BitVec.ofNat w n := fun hc => h (by
  have := congrArg BitVec.toNat hc
  rwa [BitVec.toNat_ofNat, BitVec.toNat_ofNat, Nat.mod_eq_of_lt hk, Nat.mod_eq_of_lt hn] at this)

/-- **A canonical pair comes out of the fields as it went in.** -/
theorem unpack_pack {m : Nat} {e : Int} (h : Canonical m e) (s : Sign) :
    unpack .binary64 (UnpackedFloat.pack .binary64 (.finite s m e h.pos)) =
      .finite s m e h.pos := by
  have hhigh := h.high
  have hlow := h.low
  have hlt := h.lt
  have hpos := h.pos
  rw [pack_finite h, UnpackedFloat.unpack]
  simp only [unpackMantissa_packComponents, unpackExponent_packComponents,
    unpackSign_packComponents, Sign.ofBitVec_toBitVec, toNat_one_append,
    exponentBias_binary64, BitVec.toNat_ofNat]
  by_cases hm : 2 ^ 52 ≤ m
  · simp only [if_pos hm]
    rw [if_neg (show _ ≠ -1#11 from ofNat_ne (n := 2047) (by omega) (by omega) (by omega)),
      if_neg (ofNat_ne (by omega) (by omega) (by omega))]
    simp only [UnpackedFloat.finite.injEq, true_and]
    omega
  · have he : e = -1074 := h.full.resolve_left hm
    simp only [if_neg hm]
    rw [if_neg (by decide), if_pos trivial, dif_neg (ofNat_ne (by omega) (by omega) (by omega))]
    simp only [UnpackedFloat.finite.injEq, true_and]
    omega

/-! ## Sign and absolute value -/

variable {x : Float} {s : Sign} {m : Nat} {e : Int} {hm : 0 < m}

/-- **Packing what a double unpacks to gives the double.** -/
theorem ofModel_pack_unpack (x : Float) : .ofModel (.pack x.toModel.unpack) = x := by
  obtain ⟨⟨bits, valid⟩⟩ := x
  have hb : UnpackedFloat.pack .binary64 (unpack .binary64 bits.toBitVec) = bits.toBitVec :=
    pack_unpack_of_valid valid
  change Float.ofModel (.pack (unpack .binary64 bits.toBitVec)) = _
  simp only [Float.Model.pack, hb]

theorem eq_ofModel_pack (h : x.toModel.unpack = .finite s m e hm) :
    x = .ofModel (.pack (.finite s m e hm)) := by
  rw [← h, ofModel_pack_unpack]

theorem abs_eq_ofModel_pack (h : x.toModel.unpack = .finite s m e hm) :
    x.abs = .ofModel (.pack (.finite .positive m e hm)) := by
  change Float.ofModel (.pack x.toModel.unpack.abs) = _
  rw [h]
  rfl

theorem abs_of_positive (h : x.toModel.unpack = .finite .positive m e hm) : x.abs = x := by
  rw [abs_eq_ofModel_pack h, ← eq_ofModel_pack h]

theorem neg_abs_of_negative (h : x.toModel.unpack = .finite .negative m e hm) : -x.abs = x := by
  have hu : (Float.Model.pack (.finite .positive m e hm)).unpack = .finite .positive m e hm :=
    unpack_pack (canonical_of_unpack h) .positive
  rw [abs_eq_ofModel_pack h]
  change Float.ofModel (.pack (Float.Model.pack _).unpack.neg) = x
  rw [hu, eq_ofModel_pack h]
  rfl

theorem isFinite_iff : x.isFinite = true ↔
    (∃ s, x.toModel.unpack = .zero s) ∨ ∃ s m e hm, x.toModel.unpack = .finite s m e hm := by
  change x.toModel.unpack.isFinite = true ↔ _
  cases x.toModel.unpack <;> simp [UnpackedFloat.isFinite, *]

/-- What is infinite or undefined is so in a double. -/
theorem isFinite_of_pack {u : UnpackedFloat}
    (h : (Float.Model.pack u).unpack.isFinite = true) : u.isFinite = true := by
  cases u with
  | notANumber => exact absurd h (by decide)
  | infinity s => cases s <;> exact absurd h (by decide)
  | zero | finite => rfl

/-- **A sum is finite only of finite numbers.** -/
theorem isFinite_add {x y : Float} (h : (x + y).isFinite = true) :
    x.isFinite = true ∧ y.isFinite = true := by
  have hsum : (UnpackedFloat.add .binary64 x.toModel.unpack y.toModel.unpack).isFinite = true :=
    isFinite_of_pack h
  change x.toModel.unpack.isFinite = true ∧ y.toModel.unpack.isFinite = true
  match x.toModel.unpack, y.toModel.unpack, hsum with
  | .zero _, .zero _, _ | .zero _, .finite .., _ | .finite .., .zero _, _
  | .finite .., .finite .., _ => exact ⟨rfl, rfl⟩
  | .infinity s, .infinity s', hsum =>
    rw [UnpackedFloat.add] at hsum
    split at hsum <;> cases hsum

/-- A finite number equals itself. -/
theorem beq_self (hx : x.isFinite = true) : (x == x) = true := by
  rw [Float.beq_self_iff]
  rintro rfl
  exact absurd hx (by decide +kernel)

/-- A zero has no field but its sign. -/
theorem eq_of_unpack_zero (h : x.toModel.unpack = .zero s) : x = .ofModel (.pack (.zero s)) := by
  rw [← h, ofModel_pack_unpack]

end Lisplet.Double
