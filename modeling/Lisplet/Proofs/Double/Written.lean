import Lisplet.Proofs.Double.Rounding
import Lisplet.Proofs.Token.Numeral

/-!
# Proofs/Double/Written — the written form of a number is a numeral that reads back

The positional layout of a decimal spells a numeral of the same value (`exists_numeral_positional`).
The digits that a number is written in are either its exact value or were found by reading them, so
the numeral stands for the number itself: `exists_numeral_numberText`.
-/

namespace Lisplet

open Float.Model (UnpackedFloat)
open Lisplet.Double

/-! ## The positional layout -/

namespace Decimal

theorem isDigit_of_mem_digitChars {n : Nat} {c : Char} (h : c ∈ digitChars n) :
    c.isDigit = true := Nat.isDigit_of_mem_toDigits (by decide) (by decide) h

theorem isDigit_of_mem_replicate {n : Nat} {c : Char} (h : c ∈ List.replicate n '0') :
    c.isDigit = true := by
  rw [List.eq_of_mem_replicate h]
  decide

theorem ofDigitChars_digitChars (n : Nat) : Nat.ofDigitChars 10 (digitChars n) 0 = n :=
  Nat.ofDigitChars_ten_toDigits

/-- What it is for a numeral to spell a decimal: it has no sign, it is the text, and it stands for
the decimal with the zeros of a positive exponent written out. -/
structure Spelled (d : Decimal) (n : Numeral) : Prop where
  wellFormed : n.WellFormed
  sign : n.sign = []
  chars : d.positional = n.chars
  magnitude : n.magnitude = if d.exponent ≤ 0 then d else ⟨d.digits * 10 ^ d.exponent.toNat, 0⟩

/-- Without places: the digits and zeros behind them. -/
theorem spelled_ofNat (k zeros : Nat) :
    Spelled ⟨k, zeros⟩ ⟨[], digitChars k ++ List.replicate zeros '0', none⟩ where
  wellFormed := by
    refine ⟨.inl rfl, by simp [Nat.toDigits_ne_nil], fun c hc => ?_, by simp⟩
    exact (List.mem_append.mp hc).elim isDigit_of_mem_digitChars isDigit_of_mem_replicate
  sign := rfl
  chars := by simp [positional, Numeral.chars]
  magnitude := by
    have hdigits : Nat.ofDigitChars 10 (digitChars k ++ List.replicate zeros '0') 0 =
        k * 10 ^ zeros := by
      rw [Nat.ofDigitChars_append, ofDigitChars_digitChars, Nat.ofDigitChars_replicate_zero,
        Nat.mul_comm]
    simp only [Numeral.magnitude, Numeral.places, Option.getD_none, List.append_nil, hdigits]
    cases zeros with
    | zero => simp
    | succ zeros =>
      rw [if_neg (by omega)]
      rfl

/-- With fewer places than digits: the point stands among the digits. -/
theorem spelled_negSucc_of_lt {k n : Nat} (h : n + 1 < (digitChars k).length) :
    Spelled ⟨k, .negSucc n⟩ ⟨[], (digitChars k).take ((digitChars k).length - (n + 1)),
      some ((digitChars k).drop ((digitChars k).length - (n + 1)))⟩ where
  wellFormed := by
    refine ⟨.inl rfl, ?_, fun c hc => ?_, fun ds hds c hc => ?_⟩
    · simp only [ne_eq, List.take_eq_nil_iff, Nat.toDigits_ne_nil, or_false]
      omega
    · exact isDigit_of_mem_digitChars (List.mem_of_mem_take hc)
    · obtain rfl := Option.some.inj hds
      exact isDigit_of_mem_digitChars (List.mem_of_mem_drop hc)
  sign := rfl
  chars := by simp [positional, Numeral.chars, h]
  magnitude := by
    simp only [Numeral.magnitude, Numeral.places, Option.getD_some, List.take_append_drop,
      ofDigitChars_digitChars, List.length_drop]
    rw [if_pos (by omega)]
    congr 1
    omega

/-- With as many places as digits or more: a zero, the point, and zeros in front of the digits. -/
theorem spelled_negSucc_of_le {k n : Nat} (h : (digitChars k).length ≤ n + 1) :
    Spelled ⟨k, .negSucc n⟩ ⟨[], ['0'],
      some (List.replicate (n + 1 - (digitChars k).length) '0' ++ digitChars k)⟩ where
  wellFormed := by
    refine ⟨.inl rfl, by simp, by simp, fun ds hds c hc => ?_⟩
    obtain rfl := Option.some.inj hds
    exact (List.mem_append.mp hc).elim isDigit_of_mem_replicate isDigit_of_mem_digitChars
  sign := rfl
  chars := by simp [positional, Numeral.chars, Nat.not_lt.mpr h]
  magnitude := by
    have hdigits : Nat.ofDigitChars 10
        (['0'] ++ (List.replicate (n + 1 - (digitChars k).length) '0' ++ digitChars k)) 0 = k := by
      rw [Nat.ofDigitChars_append, Nat.ofDigitChars_append, Nat.ofDigitChars_replicate_zero]
      simp [Nat.ofDigitChars_cons]
    simp only [Numeral.magnitude, Numeral.places, Option.getD_some, hdigits, List.length_append,
      List.length_replicate]
    rw [if_pos (by omega)]
    congr 1
    omega

/-- **The positional layout spells a numeral.** -/
theorem exists_spelled (d : Decimal) : ∃ n : Numeral, d.Spelled n := by
  obtain ⟨k, p⟩ := d
  cases p with
  | ofNat zeros => exact ⟨_, spelled_ofNat k zeros⟩
  | negSucc n =>
    rcases Nat.lt_or_ge (n + 1) (digitChars k).length with h | h
    · exact ⟨_, spelled_negSucc_of_lt h⟩
    · exact ⟨_, spelled_negSucc_of_le h⟩

/-- **A spelled decimal reads as the decimal itself**, unless it is beyond all doubles. -/
theorem Spelled.toFloat_magnitude {d : Decimal} {n : Numeral} (h : d.Spelled n)
    (hd : d.toFloat.isFinite = true) : n.magnitude.toFloat = d.toFloat := by
  rw [h.magnitude]
  split
  · rfl
  · next hp =>
    obtain ⟨k, p⟩ := d
    obtain ⟨zeros, rfl⟩ : ∃ zeros : Nat, p = zeros := ⟨p.toNat, by simp only at hp; omega⟩
    exact toFloat_scale hd

end Decimal

/-! ## Numerals with a sign -/

namespace Numeral

/-- A numeral without a sign, with the sign of a number in front of it. -/
def signed (n : Numeral) : UnpackedFloat.Sign → Numeral
  | .positive => n
  | .negative => { n with sign := ['-'] }

variable {n : Numeral} {s : UnpackedFloat.Sign}

@[simp] theorem fraction_signed : (n.signed s).fraction = n.fraction := by cases s <;> rfl

@[simp] theorem whole_signed : (n.signed s).whole = n.whole := by cases s <;> rfl

theorem WellFormed.signed (h : n.WellFormed) (s : UnpackedFloat.Sign) : (n.signed s).WellFormed :=
  match s with
  | .positive => h
  | .negative => ⟨.inr (.inr rfl), h.whole_ne_nil, h.whole, h.fraction⟩

theorem toList_withSign (h : n.sign = []) (s : UnpackedFloat.Sign) :
    (withSign s n.chars).toList = (n.signed s).chars := by
  cases s <;> simp [withSign, signed, chars, h]

/-- A numeral that reads as the absolute value of a number stands for the number with its sign. -/
theorem value_signed {x : Float} {m : Nat} {e : Int} {hm : 0 < m} (hsign : n.sign = [])
    (h : x.toModel.unpack = .finite s m e hm) (hread : n.magnitude.toFloat = x.abs) :
    (n.signed s).value = x := by
  cases s with
  | positive => simp [signed, value, hsign, hread, abs_of_positive h]
  | negative =>
    rw [value, if_pos (show (n.signed .negative).sign = ['-'] from rfl)]
    exact (congrArg Neg.neg hread).trans (neg_abs_of_negative h)

end Numeral

/-! ## The written form of a number -/

namespace Double

variable {x : Float}

/-- A whole number is equal to its digits. -/
theorem equals_exact_of_isWhole {m : Nat} {e : Int} (h : isWhole m e = true) :
    Equals (Decimal.exact (m / 2 ^ (-e).toNat) (max e 0)) m e := by
  have hdiv : m / 2 ^ (-e).toNat * 2 ^ (-e).toNat = m :=
    Nat.div_mul_cancel (Nat.dvd_of_mod_eq_zero (of_decide_eq_true h))
  simp only [Equals, exact_eq, if_pos (show 0 ≤ max e 0 by omega),
    show (max e 0).toNat = e.toNat by omega]
  simp only [Int.toNat_zero, Int.neg_zero, Nat.pow_zero, Nat.mul_one]
  rw [Nat.mul_right_comm, hdiv]

/-- **The digits of a number read back as the number without its sign**: either they were found by
reading them, or they are the exact value. -/
theorem toFloat_shortest {s : UnpackedFloat.Sign} {m : Nat} {e : Int} {hm : 0 < m}
    (h : x.toModel.unpack = .finite s m e hm) : (Decimal.shortest x).toFloat = x.abs := by
  simp only [Decimal.shortest, h]
  cases hsearch : Decimal.searchFrom (Decimal.fraction m e).1 (Decimal.fraction m e).2 x.abs 1
      Decimal.mostDigits with
  | some d => exact Decimal.toFloat_of_searchFrom hsearch
  | none => exact toFloat_eq_abs h (equals_dropZeros (equals_exact m e) _)

/-- The decimal that a number other than zero is written as. -/
theorem exists_decimal {s : UnpackedFloat.Sign} {m : Nat} {e : Int} {hm : 0 < m}
    (h : x.toModel.unpack = .finite s m e hm) :
    ∃ d : Decimal, numberText x = withSign s d.positional ∧ d.toFloat = x.abs := by
  simp only [numberText, h]
  split
  · next hw => exact ⟨_, rfl, toFloat_eq_abs h (equals_exact_of_isWhole hw)⟩
  · exact ⟨_, rfl, toFloat_shortest h⟩

/-- A numeral that is spelled for a number stands for it. -/
theorem value_signed_of_spelled {s : UnpackedFloat.Sign} {m : Nat} {e : Int} {hm : 0 < m}
    {d : Decimal} {n : Numeral} (h : x.toModel.unpack = .finite s m e hm) (hd : d.toFloat = x.abs)
    (hn : d.Spelled n) : (n.signed s).value = x := by
  have habs : x.abs.isFinite = true := by
    rw [abs_eq_ofModel_pack h]
    exact isFinite_iff.mpr (.inr ⟨_, _, _, _, unpack_pack (canonical_of_unpack h) _⟩)
  exact Numeral.value_signed hn.sign h ((hn.toFloat_magnitude (hd ▸ habs)).trans hd)

/-- A number other than zero is written as a numeral of its own value. -/
theorem exists_numeral_of_unpack {s : UnpackedFloat.Sign} {m : Nat} {e : Int} {hm : 0 < m}
    (h : x.toModel.unpack = .finite s m e hm) :
    ∃ n : Numeral, n.WellFormed ∧ (numberText x).toList = n.chars ∧ n.value = x := by
  obtain ⟨d, htext, hd⟩ := exists_decimal h
  obtain ⟨n, hn⟩ := d.exists_spelled
  refine ⟨n.signed s, hn.wellFormed.signed s, ?_, value_signed_of_spelled h hd hn⟩
  rw [htext, hn.chars, Numeral.toList_withSign hn.sign]

/-- **Every finite number is the value of some numeral.** -/
theorem exists_numeral (hx : x.isFinite = true) :
    ∃ n : Numeral, n.WellFormed ∧ n.value = x := by
  obtain ⟨s, hz⟩ | ⟨s, m, e, hm, hf⟩ := isFinite_iff.mp hx
  · rw [eq_of_unpack_zero hz]
    cases s with
    | positive => exact ⟨⟨[], ['0'], none⟩, ⟨.inl rfl, by simp, by simp, by simp⟩, by rfl⟩
    | negative => exact ⟨⟨['-'], ['0'], none⟩, ⟨.inr (.inr rfl), by simp, by simp, by simp⟩, by rfl⟩
  · obtain ⟨n, hn, -, hvalue⟩ := exists_numeral_of_unpack hf
    exact ⟨n, hn, hvalue⟩

/-- **The written form of a finite number is a numeral that reads back as an equal number**, the two
zeros being equal. -/
theorem exists_numeral_numberText (hx : x.isFinite = true) :
    ∃ n : Numeral, n.WellFormed ∧ (numberText x).toList = n.chars ∧ n.value.isFinite = true ∧
      (n.value == x) = true := by
  obtain ⟨s, hz⟩ | ⟨s, m, e, hm, hf⟩ := isFinite_iff.mp hx
  · refine ⟨⟨[], ['0'], none⟩, ⟨.inl rfl, by simp, by simp, by simp⟩, ?_, by decide, ?_⟩
    · simp [numberText, hz, Numeral.chars]
    · rw [eq_of_unpack_zero hz]
      cases s <;> rfl
  · obtain ⟨n, hn, htext, rfl⟩ := exists_numeral_of_unpack hf
    exact ⟨n, hn, htext, hx, beq_self hx⟩

end Double

end Lisplet
