import Lisplet.Proofs.Double.Whole
import Lisplet.Proofs.Double.Written
import Lisplet.Proofs.Token.Lexeme
import Lisplet.Token.Position

/-!
# Proofs/Double/Normal — the written form of a number is the normal numeral of its value

Of the numerals of a value, `Numeral.Normal` leaves those without a plus sign and without zeros that
could be left out.  The positional layout of a decimal is normal if its digits are not zero and,
where it has places, end in no zero (`exists_spelled_normal`).  The digits of a number that is not
whole are reduced ones (`exists_reduced_eq_shortest`) and do have places, for a decimal without
places is read as a whole number.
-/

namespace Lisplet

open Float.Model (UnpackedFloat)
open Lisplet.Double

/-! ## Normal numerals -/

namespace Numeral

/-- **A numeral without anything that could be left out**: `-?(0|[1-9][0-9]*)(\.[0-9]*[1-9])?`. -/
structure Normal (n : Numeral) : Prop extends n.WellFormed where
  sign_ne_plus : n.sign ≠ ['+']
  whole_eq_zero_or : n.whole = ['0'] ∨ n.whole.head? ≠ some '0'
  fraction_ends : ∀ ds, n.fraction = some ds → ds ≠ [] ∧ ds.getLast? ≠ some '0'

/-- A numeral shows a point exactly if it has a fraction. -/
theorem WellFormed.point_mem_chars_iff {n : Numeral} (h : n.WellFormed) :
    '.' ∈ n.chars ↔ n.fraction ≠ none := by
  have hsign : '.' ∉ n.sign := by
    obtain hs | hs | hs := h.sign <;> simp [hs]
  have hwhole : '.' ∉ n.whole := fun hmem => absurd (h.whole _ hmem) (by decide)
  cases hn : n.fraction with
  | none => simp [chars, hn, hsign, hwhole]
  | some ds => simp [chars, hn]

end Numeral

/-! ## Digits -/

namespace Decimal

/-- The digits of a number other than zero start with none. -/
theorem head?_digitChars {n : Nat} (h : n ≠ 0) : (digitChars n).head? ≠ some '0' := by
  induction n using Nat.strong_induction_on with
  | _ n ih =>
    rw [digitChars, Nat.toDigits_eq_if (show 1 < 10 by decide)]
    split
    · simpa using h
    · next hle =>
      rw [List.head?_append_of_ne_nil _ Nat.toDigits_ne_nil]
      exact ih (n / 10) (by omega) (by omega)

theorem getLast?_digitChars {n : Nat} (h : n % 10 ≠ 0) : (digitChars n).getLast? ≠ some '0' := by
  rw [digitChars, Nat.toDigits_eq_if (show 1 < 10 by decide)]
  split
  · next hlt => simpa [Nat.mod_eq_of_lt hlt] using h
  · simpa using h

/-- Zeros at the end of the digits are dropped as long as the budget lasts. -/
theorem digits_dropZeros {d : Decimal} {budget : Nat} (h : d.digits < 10 ^ budget) :
    (d.dropZeros budget).digits = 0 ∨ (d.dropZeros budget).digits % 10 ≠ 0 := by
  induction budget generalizing d with
  | zero => exact .inl (Nat.lt_one_iff.mp h)
  | succ budget ih =>
    rw [dropZeros]
    split
    · exact ih (Nat.div_lt_of_lt_mul (by rwa [Nat.pow_succ, Nat.mul_comm] at h))
    · next hne => exact .inr hne

/-- **Reduced digits end in no zero**, unless they are zero. -/
theorem digits_reduced (d : Decimal) : d.reduced.digits = 0 ∨ d.reduced.digits % 10 ≠ 0 :=
  digits_dropZeros ((Nat.length_toDigits_le_iff (by decide) Nat.length_toDigits_pos).mp
    (Nat.le_refl _))

theorem exists_reduced_of_searchFrom {num den : Nat} {target : Float} {count grids : Nat}
    {d : Decimal} (h : searchFrom num den target count grids = some d) :
    ∃ c : Decimal, d = c.reduced := by
  induction grids generalizing count with
  | zero => cases h
  | succ grids ih =>
    rw [searchFrom] at h
    split at h
    · next found hfound =>
      obtain rfl := Option.some.inj h
      obtain ⟨c, -, hc⟩ := List.mem_map.mp (List.mem_of_find?_eq_some hfound)
      exact ⟨c, hc.symm⟩
    · exact ih h

/-- **The shortest decimal is a reduced one.** -/
theorem exists_reduced_eq_shortest {x : Float} {s : UnpackedFloat.Sign} {m : Nat} {e : Int}
    {hm : 0 < m} (h : x.toModel.unpack = .finite s m e hm) :
    ∃ c : Decimal, shortest x = c.reduced := by
  simp only [shortest, h]
  cases hsearch : searchFrom (fraction m e).1 (fraction m e).2 x.abs 1 mostDigits with
  | some d => exact exists_reduced_of_searchFrom hsearch
  | none => exact ⟨exact m e, rfl⟩

/-! ## The layout of normal digits -/

/-- **The positional layout is a normal numeral** if the digits are not zero and, where there are
places, end in no zero; it has a fraction exactly if the exponent is negative. -/
theorem exists_spelled_normal {d : Decimal} (h : d.digits ≠ 0)
    (hend : d.exponent < 0 → d.digits % 10 ≠ 0) :
    ∃ n : Numeral, d.Spelled n ∧ n.Normal ∧ (n.fraction ≠ none ↔ d.exponent < 0) := by
  obtain ⟨k, p⟩ := d
  cases p with
  | ofNat zeros =>
    refine ⟨_, spelled_ofNat k zeros, ⟨(spelled_ofNat k zeros).wellFormed, by simp, .inr ?_,
      by simp⟩, by simp⟩
    rw [List.head?_append_of_ne_nil _ Nat.toDigits_ne_nil]
    exact head?_digitChars h
  | negSucc n =>
    have hlast := getLast?_digitChars (hend (Int.negSucc_lt_zero n))
    rcases Nat.lt_or_ge (n + 1) (digitChars k).length with hlt | hle
    · have hspelled := spelled_negSucc_of_lt hlt
      refine ⟨_, hspelled, ⟨hspelled.wellFormed, by simp, .inr ?_, ?_⟩, by simp⟩
      · simpa [List.head?_take, Nat.sub_eq_zero_iff_le, hlt] using head?_digitChars h
      · rintro ds ⟨⟩
        have hplaces : (digitChars k).length - (n + 1) < (digitChars k).length := by omega
        refine ⟨List.ne_nil_of_length_pos (by rw [List.length_drop]; omega), ?_⟩
        rwa [List.getLast?_drop, if_neg (Nat.not_le.mpr hplaces)]
    · have hspelled := spelled_negSucc_of_le hle
      refine ⟨_, hspelled, ⟨hspelled.wellFormed, by simp, .inl rfl, ?_⟩, by simp⟩
      rintro ds ⟨⟩
      refine ⟨by simp, ?_⟩
      rwa [List.getLast?_append_of_ne_nil _ Nat.toDigits_ne_nil]

end Decimal

/-! ## The written form of a number -/

theorem Numeral.Normal.signed {n : Numeral} (h : n.Normal) (s : UnpackedFloat.Sign) :
    (n.signed s).Normal where
  toWellFormed := h.toWellFormed.signed s
  sign_ne_plus := by
    cases s with
    | positive => exact h.sign_ne_plus
    | negative => simp [Numeral.signed]
  whole_eq_zero_or := by simpa using h.whole_eq_zero_or
  fraction_ends := by simpa using h.fraction_ends

namespace Double

variable {x : Float}

section

variable {s : UnpackedFloat.Sign} {m : Nat} {e : Int} {hm : 0 < m}

theorem isWhole_eq_of_toFloat {d : Decimal} (h : x.toModel.unpack = .finite s m e hm)
    (hd : d.toFloat = x.abs) : d.digits ≠ 0 ∧ (0 ≤ d.exponent → isWhole m e = true) := by
  have hunpack : d.toFloat.toModel.unpack = .finite .positive m e hm := by
    rw [hd, abs_eq_ofModel_pack h]
    exact unpack_pack (canonical_of_unpack h) .positive
  refine ⟨fun hzero => ?_, fun hexp => isWhole_of_toFloat hexp hunpack⟩
  rw [toFloat_of_digits_eq_zero hzero] at hunpack
  cases hunpack

/-- **The decimal that a number is written as** has normal digits, and places exactly if the number
is not whole. -/
theorem exists_normal_decimal (h : x.toModel.unpack = .finite s m e hm) :
    ∃ d : Decimal, numberText x = withSign s d.positional ∧ d.toFloat = x.abs ∧ d.digits ≠ 0 ∧
      (d.exponent < 0 → d.digits % 10 ≠ 0) ∧ (d.exponent < 0 ↔ isWhole m e = false) := by
  simp only [numberText, h]
  by_cases hwhole : isWhole m e = true
  · have hread := toFloat_eq_abs h (equals_exact_of_isWhole hwhole)
    have hexp : (Decimal.exact (m / 2 ^ (-e).toNat) (max e 0)).exponent = 0 := by
      rw [exact_eq, if_pos (by omega)]
    refine ⟨_, by rw [if_pos hwhole]; rfl, hread, (isWhole_eq_of_toFloat h hread).1, ?_, ?_⟩
    · rw [hexp]
      exact fun hneg => absurd hneg (by decide)
    · simp [hexp, hwhole]
  · have hread := toFloat_shortest h
    obtain ⟨hdigits, hexp⟩ := isWhole_eq_of_toFloat h hread
    obtain ⟨c, hc⟩ := Decimal.exists_reduced_eq_shortest h
    refine ⟨_, by rw [if_neg hwhole], hread, hdigits, fun _ => ?_, ?_⟩
    · rw [hc] at hdigits ⊢
      exact c.digits_reduced.resolve_left hdigits
    · have hneg : (Decimal.shortest x).exponent < 0 := not_le.mp fun hle => hwhole (hexp hle)
      simp [hneg, hwhole]

/-- A number other than zero is written as a normal numeral of its own value, with a fraction
exactly if it is not whole. -/
theorem exists_normal_of_unpack (h : x.toModel.unpack = .finite s m e hm) :
    ∃ n : Numeral, n.Normal ∧ (numberText x).toList = n.chars ∧ n.value = x ∧
      (n.fraction ≠ none ↔ isWhole m e = false) := by
  obtain ⟨d, htext, hd, hdigits, hend, hexp⟩ := exists_normal_decimal h
  obtain ⟨n, hn, hnormal, hfraction⟩ := Decimal.exists_spelled_normal hdigits hend
  refine ⟨n.signed s, hnormal.signed s, ?_, value_signed_of_spelled h hd hn, ?_⟩
  · rw [htext, hn.chars, Numeral.toList_withSign hn.sign]
  · rw [Numeral.fraction_signed, hfraction, hexp]

end

/-- **A finite number is written as a normal numeral of an equal value**, with a fraction exactly if
it is not an integer. -/
theorem exists_normal (hx : x.isFinite = true) :
    ∃ n : Numeral, n.Normal ∧ (numberText x).toList = n.chars ∧ n.value.isFinite = true ∧
      (n.value == x) = true ∧ (x ≠ -0.0 → n.value = x) ∧
      (n.fraction ≠ none ↔ ¬ ∃ k : ℤ, toRat x = k) := by
  obtain ⟨s, hzero⟩ | ⟨s, m, e, hm, hf⟩ := isFinite_iff.mp hx
  · refine ⟨⟨[], ['0'], none⟩, ⟨⟨.inl rfl, by simp, by simp, by simp⟩, by simp, .inl rfl, by simp⟩,
      ?_, by decide, ?_, ?_, ?_⟩
    · simp [numberText, hzero, Numeral.chars]
    · rw [eq_of_unpack_zero hzero]
      cases s <;> rfl
    · rw [eq_of_unpack_zero hzero]
      cases s with
      | positive => exact fun _ => by rfl
      | negative => exact fun hne => absurd (by rfl) hne
    · rw [toRat, hzero]
      exact iff_of_false (not_not.mpr rfl) (not_not.mpr ⟨0, by simp⟩)
  · obtain ⟨n, hnormal, htext, rfl, hfraction⟩ := exists_normal_of_unpack hf
    refine ⟨n, hnormal, htext, hx, beq_self hx, fun _ => rfl, ?_⟩
    rw [hfraction, toRat, hf, ← isWhole_iff, Bool.not_eq_true]

/-! ## Reading the written form -/

/-- A numeral that is a whole text is read as one token. -/
theorem readAt_numeral {n : Numeral} (h : n.WellFormed) (hfinite : n.value.isFinite = true) :
    Token.readAt n.chars 0 = .ok (.number n.value, n.chars.length) := by
  have hlongest : n.Longest [] := Numeral.longest_of_ends h fun c hc => by simp at hc
  have hread := Token.readAt_of_longest h hlongest (List.append_nil (n.chars.drop 0)).symm
  rwa [if_pos hfinite, Nat.zero_add] at hread

/-- **Numbers are written as numerals of the language that read back.**  The text of a finite number
is a normal numeral, which has a point exactly if the number is not an integer.  All of it is read
as one number, which is equal to the one that was written; it is the same number, but for the
negative zero, which is written like the other one. -/
theorem numberText_reads_back (x : Float) (hx : x.isFinite = true) :
    (∃ n : Numeral, n.Normal ∧ (numberText x).toList = n.chars) ∧
    ('.' ∈ (numberText x).toList ↔ ¬ ∃ k : ℤ, toRat x = k) ∧
    (∃ v, Token.readAt (numberText x).toList 0 = .ok (.number v, (numberText x).toList.length) ∧
      (v == x) = true ∧ (x ≠ -0.0 → v = x)) ∧
    numberText (-0.0) = "0" := by
  obtain ⟨n, hnormal, htext, hfinite, hequal, hsame, hfraction⟩ := exists_normal hx
  refine ⟨⟨n, hnormal, htext⟩, ?_, ⟨n.value, ?_, hequal, hsame⟩, by decide +kernel⟩
  · rw [htext, hnormal.point_mem_chars_iff, hfraction]
  · rw [htext]
    exact readAt_numeral hnormal.toWellFormed hfinite

/-- The least of all positive numbers: three hundred and twenty-three zeros stand between the point
and its only digit. -/
theorem numberText_reads_back_least :
    let least : Float := 5e-324
    let text := ['0', '.'] ++ List.replicate 323 '0' ++ ['5']
    least.isFinite = true ∧ (numberText least).toList = text ∧
      Token.readAt text 0 = .ok (.number least, 326) ∧ ¬ ∃ k : ℤ, toRat least = k := by
  intro least text
  have hfinite : least.isFinite = true := by decide +kernel
  have htext : (numberText least).toList = text := by decide +kernel
  have hlength : text.length = 326 := by decide +kernel
  obtain ⟨-, hpoint, ⟨v, hread, -, hsame⟩, -⟩ := numberText_reads_back least hfinite
  obtain rfl : v = least := hsame (by decide +kernel)
  rw [htext] at hpoint hread
  rw [hlength] at hread
  exact ⟨hfinite, htext, hread, hpoint.mp (by decide +kernel)⟩

end Double

end Lisplet
