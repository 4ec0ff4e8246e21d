import Lisplet.Proofs.Token.Lexeme
import Lisplet.Proofs.Token.Pattern

/-!
# Proofs/Token/NumeralPattern — numerals by a pattern

Whether a numeral starts in a text is decided by one or two characters, and its parts are then cut
off one after the other.  Here the numerals are given a second time, by the pattern
`[+-]?[0-9]+(\.[0-9]*)?`.  Its words are the numerals (`mem_matches_pattern_iff`), and it matches
where the test says that one starts, and leaves what is left behind the longest
(`first?_pattern`).  So the two never disagree at a position of a source, and a number is never read
where the pattern has no match.
-/

namespace Lisplet

/-! ## The pattern of numerals -/

namespace Numeral

open RegularExpression Pattern

/-- The ten digits. -/
def digits : List Char := "0123456789".toList

theorem mem_digits_iff {c : Char} : c ∈ digits ↔ c.isDigit = true := by
  constructor
  · intro h
    have hall : digits.all Char.isDigit = true := by decide
    exact List.all_eq_true.mp hall c h
  · intro h
    obtain ⟨hlow, hhigh⟩ : 48 ≤ c.toNat ∧ c.toNat ≤ 57 := Char.isDigit_iff_toNat.mp h
    have hall : ∀ n < 58, 48 ≤ n → Char.ofNat n ∈ digits := by decide
    rw [← Char.ofNat_toNat c]
    exact hall c.toNat (Nat.lt_succ_of_le hhigh) hlow

theorem contains_digits : digits.contains = Char.isDigit := by
  funext c
  rw [Bool.eq_iff_iff, List.contains_iff_mem, mem_digits_iff]

/-- **The pattern of numerals**: `[+-]?[0-9]+(\.[0-9]*)?`. -/
def pattern : Pattern :=
  orNothing (oneOf ['+', '-']) * (oneOf digits * star (oneOf digits)) *
    orNothing (char '.' * star (oneOf digits))

/-! ### The match -/

theorem first?_sign (cs : List Char) :
    first? (orNothing (oneOf ['+', '-'])) cs = some (splitSign cs).2 := by
  rw [first?_orNothing, first?_oneOf]
  fun_cases splitSign cs with
  | case1 cs => rfl
  | case2 cs => rfl
  | case3 cs hplus hminus =>
    have hnone : cs.head?.any (['+', '-'].contains ·) = false := by
      cases cs with
      | nil => rfl
      | cons c cs =>
        have hp : c ≠ '+' := fun h => hplus cs (h ▸ rfl)
        have hm : c ≠ '-' := fun h => hminus cs (h ▸ rfl)
        simp [hp, hm]
    rw [hnone]
    rfl

theorem first?_star_digits (cs : List Char) :
    first? (star (oneOf digits)) cs = some (cs.dropWhile Char.isDigit) := by
  rw [first?_star_oneOf, contains_digits]

theorem first?_whole {cs : List Char} (h : cs.takeWhile Char.isDigit ≠ []) :
    first? (oneOf digits * star (oneOf digits)) cs = some (cs.dropWhile Char.isDigit) := by
  match cs with
  | [] => exact absurd rfl h
  | c :: cs =>
    have hc : c.isDigit = true := by
      by_contra hc
      exact h (List.takeWhile_cons_of_neg hc)
    have hone := first?_oneOf digits (c :: cs)
    rw [contains_digits, List.head?_cons, Option.any_some, if_pos hc] at hone
    rw [List.dropWhile_cons_of_pos hc]
    exact first?_mul hone (first?_star_digits cs)

theorem first?_fraction (cs : List Char) :
    first? (orNothing (char '.' * star (oneOf digits))) cs = some (splitFraction cs).2 := by
  rw [first?_orNothing]
  fun_cases splitFraction cs with
  | case1 cs =>
    rw [first?_mul (first?_char '.' _) (first?_star_digits cs)]
    rfl
  | case2 cs hpoint =>
    have hnone : first? (char '.') cs = none := by
      rw [first?_char, if_neg]
      intro h
      obtain ⟨rest, rfl⟩ := List.head?_eq_some_iff.mp h
      exact hpoint rest rfl
    rw [first?_mul_of_none hnone]
    rfl

/-- **Where a numeral starts, the pattern leaves what is left behind the numeral.** -/
theorem first?_pattern_of_startsNumeral {cs : List Char} (h : startsNumeral cs = true) :
    pattern.first? cs = some (split cs).2 :=
  first?_mul (first?_mul (first?_sign cs) (first?_whole (whole_split_ne_nil h)))
    (first?_fraction _)

/-! ### The language -/

theorem mem_matches_sign {w : List Char} :
    w ∈ (orNothing (oneOf ['+', '-'])).matches' ↔ w = [] ∨ w = ['+'] ∨ w = ['-'] := by
  rw [mem_matches_orNothing, mem_matches_oneOf]
  simp [or_comm]

theorem mem_matches_star_digits {w : List Char} :
    w ∈ (star (oneOf digits)).matches' ↔ ∀ c ∈ w, c.isDigit = true := by
  simp only [mem_matches_star_oneOf, mem_digits_iff]

theorem mem_matches_whole {w : List Char} :
    w ∈ (oneOf digits * star (oneOf digits) : Pattern).matches' ↔
      w ≠ [] ∧ ∀ c ∈ w, c.isDigit = true := by
  rw [matches'_mul, Language.mem_mul]
  constructor
  · rintro ⟨_, hone, v, hv, rfl⟩
    obtain ⟨d, hd, rfl⟩ := mem_matches_oneOf.mp hone
    exact ⟨by simp, List.forall_mem_cons.mpr ⟨mem_digits_iff.mp hd, mem_matches_star_digits.mp hv⟩⟩
  · rintro ⟨hne, hw⟩
    obtain ⟨d, v, rfl⟩ := List.exists_cons_of_ne_nil hne
    obtain ⟨hd, hv⟩ := List.forall_mem_cons.mp hw
    exact ⟨[d], mem_matches_oneOf.mpr ⟨d, mem_digits_iff.mpr hd, rfl⟩, v, mem_matches_star_digits.mpr hv, rfl⟩

theorem mem_matches_fraction {w : List Char} :
    w ∈ (orNothing (char '.' * star (oneOf digits))).matches' ↔
      ∃ fraction : Option (List Char), (∀ ds, fraction = some ds → ∀ c ∈ ds, c.isDigit = true) ∧
        (fraction.map ('.' :: ·)).getD [] = w := by
  rw [mem_matches_orNothing, matches'_mul, Language.mem_mul]
  constructor
  · rintro (⟨_, rfl, ds, hds, rfl⟩ | rfl)
    · exact ⟨some ds, fun _ h => Option.some.inj h ▸ mem_matches_star_digits.mp hds, rfl⟩
    · exact ⟨none, by simp, rfl⟩
  · rintro ⟨fraction, hds, rfl⟩
    cases fraction with
    | none => exact .inr rfl
    | some ds => exact .inl ⟨['.'], rfl, ds, mem_matches_star_digits.mpr (hds ds rfl), rfl⟩

/-- **The language of the pattern is the numerals.** -/
theorem mem_matches_pattern_iff {w : List Char} :
    w ∈ pattern.matches' ↔ ∃ n : Numeral, n.WellFormed ∧ n.chars = w := by
  rw [pattern, matches'_mul, Language.mem_mul]
  constructor
  · rintro ⟨_, hfront, _, hfraction, rfl⟩
    obtain ⟨sign, hsign, whole, hwhole, rfl⟩ := Language.mem_mul.mp hfront
    obtain ⟨hne, hwhole⟩ := mem_matches_whole.mp hwhole
    obtain ⟨fraction, hplaces, rfl⟩ := mem_matches_fraction.mp hfraction
    exact ⟨⟨sign, whole, fraction⟩, ⟨mem_matches_sign.mp hsign, hne, hwhole, hplaces⟩, rfl⟩
  · rintro ⟨n, hn, rfl⟩
    exact ⟨n.sign ++ n.whole,
      Language.append_mem_mul (mem_matches_sign.mpr hn.sign)
        (mem_matches_whole.mpr ⟨hn.whole_ne_nil, hn.whole⟩),
      _, mem_matches_fraction.mpr ⟨n.fraction, hn.fraction, rfl⟩, rfl⟩

/-- **The pattern matches where a numeral starts, and nowhere else.** -/
theorem first?_pattern (cs : List Char) :
    pattern.first? cs = if startsNumeral cs then some (split cs).2 else none := by
  split
  · next h => exact first?_pattern_of_startsNumeral h
  · next h =>
    refine Option.not_isSome_iff_eq_none.mp fun hsome => ?_
    obtain ⟨w, hw, rest, rfl⟩ := (isSome_first?_iff _ _).mp hsome
    obtain ⟨n, hn, rfl⟩ := mem_matches_pattern_iff.mp hw
    exact h (startsNumeral_chars_append hn rest)

/-! ### What follows the match -/

/-- Behind digits, and a point and its places if there are any, stands no digit, and no point unless
there was one. -/
theorem of_head?_splitFraction {cs : List Char} {c : Char}
    (hcs : ∀ d, cs.head? = some d → d.isDigit = false)
    (h : (splitFraction cs).2.head? = some c) :
    c.isDigit = false ∧ (c = '.' → '.' ∈ ((splitFraction cs).1.map ('.' :: ·)).getD []) := by
  unfold splitFraction at h ⊢
  split at h
  · exact ⟨eq_false_of_head?_dropWhile h, fun _ => List.mem_cons_self⟩
  · next hpoint =>
    refine ⟨hcs c h, ?_⟩
    rintro rfl
    obtain ⟨rest, rfl⟩ := List.head?_eq_some_iff.mp h
    exact absurd rfl (hpoint rest)

/-- **What stands behind the longest numeral** is no digit, and a point only if there is a point in
the numeral. -/
theorem Longest.of_head? {n : Numeral} {rest : List Char} (hword : n.WellFormed)
    (hlongest : n.Longest rest) {c : Char} (h : rest.head? = some c) :
    c.isDigit = false ∧ (c = '.' → '.' ∈ n.chars) := by
  have hsplit := split_of_longest hword hlongest
  have hfirst : (split (n.chars ++ rest)).1 = n := congrArg Prod.fst hsplit
  have hrest : (split (n.chars ++ rest)).2 = rest := congrArg Prod.snd hsplit
  rw [← hrest] at h
  obtain ⟨hdigit, hpoint⟩ := of_head?_splitFraction (fun _ => eq_false_of_head?_dropWhile) h
  refine ⟨hdigit, fun hc => ?_⟩
  rw [← hfirst]
  exact List.mem_append_right _ (hpoint hc)

/-- Where a numeral starts stands a longest one. -/
theorem exists_longest {cs : List Char} (h : startsNumeral cs = true) :
    ∃ (n : Numeral) (rest : List Char), n.WellFormed ∧ n.Longest rest ∧ cs = n.chars ++ rest :=
  ⟨_, _, wellFormed_split h, longest_split cs, (chars_split cs).symm⟩

end Numeral

namespace Token

/-! ## Answers of the reader of numbers -/

/-- **An answer of the reader of numbers**: a number, or the fault of a numeral out of range. -/
def IsNumberAnswer {α : Type} : Except Fault (Token × α) → Prop
  | .ok (.number _, _) | .error (.numeralRange _) => True
  | _ => False

theorem isNumberAnswer_map {α β : Type} (f : α → β) (answer : Except Fault (Token × α)) :
    IsNumberAnswer (answer.map fun (t, a) => (t, f a)) ↔ IsNumberAnswer answer := by
  obtain fault | ⟨t, a⟩ := answer
  · cases fault <;> exact Iff.rfl
  · cases t <;> exact Iff.rfl

theorem isNumberAnswer_readNumber (cs : List Char) : IsNumberAnswer (readNumber cs) := by
  simp only [readNumber]
  split <;> trivial

theorem not_isNumberAnswer_readString (q : Char) (cs : List Char) :
    ¬ IsNumberAnswer (readString q cs) := by
  rw [readString]
  split <;> exact not_false

theorem read_of_startsNumeral {cs : List Char} (h : startsNumeral cs = true) :
    read cs = readNumber cs := by
  match cs with
  | [] => simp [startsNumeral] at h
  | c :: cs => rw [read_of_isSymbolChar (isSymbolChar_of_startsNumeral h), if_pos h]

/-- **A number is read where a numeral starts, and nowhere else.** -/
theorem isNumberAnswer_read_iff (cs : List Char) :
    IsNumberAnswer (read cs) ↔ startsNumeral cs = true := by
  constructor
  · intro h
    match cs with
    | [] => exact h.elim
    | c :: cs =>
      rw [read] at h
      split at h
      · exact h.elim
      split at h
      · exact h.elim
      split at h
      · exact absurd h (not_isNumberAnswer_readString c cs)
      split at h
      · assumption
      · exact h.elim
  · intro h
    rw [read_of_startsNumeral h]
    exact isNumberAnswer_readNumber cs

end Token

/-! ## At a position -/

theorem extract_of_append {α : Type} {source used rest : List α} {position : Nat}
    (h : source.drop position = used ++ rest) :
    source.extract position (position + used.length) = used := by
  rw [List.extract_eq_take_drop, h, Nat.add_sub_cancel_left, List.take_left]

/-- In a source the test for a numeral always has an answer. -/
theorem startsNumeralAt?_of_lt {source : List Char} {position : Nat}
    (h : position < source.length) :
    startsNumeralAt? source position = some (startsNumeral (source.drop position)) := by
  rw [startsNumeralAt?, List.drop_eq_getElem_cons h]

section Longest

variable {source rest : List Char} {position : Nat} {n : Numeral} (hword : n.WellFormed)
  (hlongest : n.Longest rest) (hdrop : source.drop position = n.chars ++ rest)

include hword hlongest hdrop

/-- The match of the pattern of numerals ends behind the longest numeral. -/
theorem matchAt?_of_longest :
    Numeral.pattern.matchAt? source position = some (position + n.chars.length) := by
  rw [Pattern.matchAt?, hdrop, Numeral.first?_pattern,
    if_pos (Numeral.startsNumeral_chars_append hword rest),
    Numeral.split_of_longest hword hlongest, Option.map_some, (positionAfter_of_append hdrop).1]

theorem isLongestMatch_of_longest :
    Numeral.pattern.IsLongestMatch source position (position + n.chars.length) := by
  have hpos : 0 < n.chars.length := by
    have := List.length_pos_iff.mpr hword.whole_ne_nil
    simp only [Numeral.chars, List.length_append]
    omega
  have hlength := congrArg List.length hdrop
  rw [List.length_drop, List.length_append] at hlength
  refine ⟨by omega, by omega, ?_, fun w hw hfront => ?_⟩
  · rw [extract_of_append hdrop]
    exact Numeral.mem_matches_pattern_iff.mpr ⟨n, hword, rfl⟩
  · obtain ⟨m, hm, rfl⟩ := Numeral.mem_matches_pattern_iff.mp hw
    exact Nat.add_le_add_left (hlongest m hm (hdrop ▸ hfront)) position

end Longest

/-- **The test for a numeral agrees with the pattern of numerals everywhere.**  At each position of
a source the test says whether the pattern matches, that is whether a word of it stands there; a
number is read exactly where it does, and there alone the reader of numbers has an answer.  The
match is the longest one: behind it stands no digit, and a point only if there is a point in it.
Its word is the numeral whose value is answered together with the end of the match, or refused. -/
theorem numeral_test_agrees_with_pattern (source : List Char) (position : Nat)
    (h : position < source.length) :
    startsNumeralAt? source position =
      some (Numeral.pattern.matchAt? source position).isSome ∧
    ((Numeral.pattern.matchAt? source position).isSome = true ↔
      ∃ w ∈ Numeral.pattern.matches', w <+: source.drop position) ∧
    (Token.IsNumberAnswer (Token.readAt source position) ↔
      (Numeral.pattern.matchAt? source position).isSome = true) ∧
    Token.readNumberAt? source position =
      (Numeral.pattern.matchAt? source position).map (fun _ => Token.readAt source position) ∧
    ∀ stop, Numeral.pattern.matchAt? source position = some stop →
      Numeral.pattern.IsLongestMatch source position stop ∧
      (∀ c, source[stop]? = some c →
        c.isDigit = false ∧ (c = '.' → '.' ∈ source.extract position stop)) ∧
      ∃ n : Numeral, n.WellFormed ∧ n.chars = source.extract position stop ∧
        Token.readAt source position =
          if n.value.isFinite then .ok (.number n.value, stop)
          else .error (.numeralRange (String.ofList n.chars)) := by
  have htest := startsNumeralAt?_of_lt h
  have hnumber : Token.IsNumberAnswer (Token.readAt source position) ↔
      startsNumeral (source.drop position) = true :=
    (Token.isNumberAnswer_map _ _).trans (Token.isNumberAnswer_read_iff _)
  rw [hnumber, Token.readNumberAt?, htest]
  refine and_left_comm.mp ⟨Pattern.isSome_matchAt?_iff _ _ _, ?_⟩
  cases hs : startsNumeral (source.drop position) with
  | false =>
    have hmatch : Numeral.pattern.matchAt? source position = none := by
      rw [Pattern.matchAt?, Numeral.first?_pattern, hs]
      rfl
    simp [hmatch]
  | true =>
    obtain ⟨n, rest, hword, hlongest, hdrop⟩ := Numeral.exists_longest hs
    have hmatch := matchAt?_of_longest hword hlongest hdrop
    rw [hmatch]
    refine ⟨rfl, Iff.rfl, ?_, ?_⟩
    · simp [Token.readAt, Token.readAtWith, Token.read_of_startsNumeral hs]
    · rintro _ ⟨⟩
      have hword' := extract_of_append hdrop
      refine ⟨isLongestMatch_of_longest hword hlongest hdrop, fun c hc => ?_, n, hword,
        hword'.symm, Token.readAt_of_longest hword hlongest hdrop⟩
      rw [← List.head?_drop, (positionAfter_of_append hdrop).2] at hc
      rw [hword']
      exact hlongest.of_head? hword hc

/-- In `- -1.5.2` the second sign starts a numeral, which ends in front of the second point, and the
first sign does not. -/
theorem numeral_test_agrees_with_pattern_signed :
    let source := "- -1.5.2".toList
    (2 < source.length ∧ startsNumeralAt? source 2 = some true ∧
      Numeral.pattern.matchAt? source 2 = some 6 ∧
      Numeral.pattern.IsLongestMatch source 2 6 ∧
      Token.readAt source 2 = .ok (.number (-1.5), 6)) ∧
    0 < source.length ∧ startsNumeralAt? source 0 = some false ∧
      Numeral.pattern.matchAt? source 0 = none ∧ Token.readNumberAt? source 0 = none := by
  intro source
  have hmatch : Numeral.pattern.matchAt? source 2 = some 6 := by
    rw [Pattern.matchAt?, Numeral.first?_pattern]
    decide
  have hnone : Numeral.pattern.matchAt? source 0 = none := by
    rw [Pattern.matchAt?, Numeral.first?_pattern]
    decide
  obtain ⟨htest, -, -, -, hstop⟩ := numeral_test_agrees_with_pattern source 2 (by decide)
  obtain ⟨hfirst, -, -, hnumber, -⟩ := numeral_test_agrees_with_pattern source 0 (by decide)
  obtain ⟨hlongest, -, n, hn, hchars, hread⟩ := hstop 6 hmatch
  obtain rfl : n = ⟨['-'], ['1'], some ['5']⟩ :=
    Numeral.chars_injective hn ⟨.inr (.inr rfl), by simp, by simp, by simp⟩ (hchars.trans rfl)
  rw [hmatch] at htest
  rw [hnone] at hfirst hnumber
  rw [if_pos (by decide +kernel)] at hread
  refine ⟨⟨by decide, htest, hmatch, hlongest, hread.trans ?_⟩, by decide, hfirst, hnone, hnumber⟩
  have hvalue : Numeral.value ⟨['-'], ['1'], some ['5']⟩ = -1.5 := by decide +kernel
  rw [hvalue]

end Lisplet
