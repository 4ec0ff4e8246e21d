import Lisplet.Token.Numeral

/-!
# Proofs/Token/Numeral — a numeral in a text is cut off where it ends

`Numeral.WellFormed` is the shape of a numeral, and `Numeral.Ends` says of the text behind one that
it does not go on with it.  Together they pin the split: `split_chars_append` gives back exactly the
numeral that was put in front.  Of all numerals at the front of a text the split takes the longest
(`longest_split`), and `split_of_longest` says that there is no other choice.
-/

namespace Lisplet

/-! ## Runs

A run of characters of one sort ends where the first character of another sort stands. -/

section Run

variable {α : Type} {p : α → Bool} {xs ys : List α}

theorem takeWhile_append_of_head? (hx : ∀ a ∈ xs, p a = true)
    (hy : ∀ a, ys.head? = some a → p a = false) : (xs ++ ys).takeWhile p = xs := by
  rw [List.takeWhile_append_of_pos hx]
  cases ys with
  | nil => simp
  | cons a ys => simp [hy a rfl]

theorem dropWhile_append_of_head? (hx : ∀ a ∈ xs, p a = true)
    (hy : ∀ a, ys.head? = some a → p a = false) : (xs ++ ys).dropWhile p = ys := by
  rw [List.dropWhile_append_of_pos hx]
  cases ys with
  | nil => rfl
  | cons a ys => simp [hy a rfl]

theorem eq_false_of_head?_dropWhile {a : α} (h : (xs.dropWhile p).head? = some a) :
    p a = false := by
  have hnot := List.head?_dropWhile_not p xs
  rwa [h] at hnot

end Run

namespace Numeral

/-- **The shape of a numeral**: a sign or none, one digit or more, and a fraction of digits or
none. -/
structure WellFormed (n : Numeral) : Prop where
  sign : n.sign = [] ∨ n.sign = ['+'] ∨ n.sign = ['-']
  whole_ne_nil : n.whole ≠ []
  whole : ∀ c ∈ n.whole, c.isDigit = true
  fraction : ∀ ds, n.fraction = some ds → ∀ c ∈ ds, c.isDigit = true

/-- A text that goes on with no numeral in front of it. -/
def Ends (cs : List Char) : Prop := ∀ c, cs.head? = some c → c.isDigit = false ∧ c ≠ '.'

theorem splitSign_append_of_isDigit {sign cs : List Char}
    (hs : sign = [] ∨ sign = ['+'] ∨ sign = ['-'])
    (hcs : ∀ c, cs.head? = some c → c.isDigit = true) : splitSign (sign ++ cs) = (sign, cs) := by
  obtain rfl | rfl | rfl := hs
  · cases cs with
    | nil => rfl
    | cons c cs =>
      have hd : c.isDigit = true := hcs c rfl
      have hp : c ≠ '+' := by rintro rfl; simp at hd
      have hm : c ≠ '-' := by rintro rfl; simp at hd
      simp [splitSign, hp, hm]
  · rfl
  · rfl

theorem splitFraction_append_of_ends {fraction : Option (List Char)} {rest : List Char}
    (hf : ∀ ds, fraction = some ds → ∀ c ∈ ds, c.isDigit = true) (hr : Ends rest) :
    splitFraction ((fraction.map ('.' :: ·)).getD [] ++ rest) = (fraction, rest) := by
  cases fraction with
  | none =>
    cases rest with
    | nil => rfl
    | cons c rest => simp [splitFraction, (hr c rfl).2]
  | some ds =>
    have hend : ∀ c, rest.head? = some c → c.isDigit = false := fun c hc => (hr c hc).1
    simp [splitFraction, takeWhile_append_of_head? (hf ds rfl) hend,
      dropWhile_append_of_head? (hf ds rfl) hend]

/-- The sign of a numeral is split off, whatever stands behind the numeral. -/
theorem splitSign_chars_append {n : Numeral} (h : n.WellFormed) (rest : List Char) :
    splitSign (n.chars ++ rest) =
      (n.sign, n.whole ++ ((n.fraction.map ('.' :: ·)).getD [] ++ rest)) := by
  rw [chars, List.append_assoc, List.append_assoc]
  refine splitSign_append_of_isDigit h.sign fun c hc => ?_
  obtain ⟨d, ds, hd⟩ := List.exists_cons_of_ne_nil h.whole_ne_nil
  rw [hd] at hc
  obtain rfl : d = c := by simpa using hc
  exact h.whole d (hd ▸ List.mem_cons_self)

/-- **A numeral in front of a text that does not go on with it is split off whole.** -/
theorem split_chars_append {n : Numeral} (h : n.WellFormed) {rest : List Char} (hr : Ends rest) :
    split (n.chars ++ rest) = (n, rest) := by
  have hafter : ∀ c, ((n.fraction.map ('.' :: ·)).getD [] ++ rest).head? = some c →
      c.isDigit = false := by
    intro c hc
    cases hn : n.fraction with
    | none =>
      rw [hn] at hc
      exact (hr c hc).1
    | some ds =>
      rw [hn] at hc
      obtain rfl : '.' = c := by simpa using hc
      rfl
  simp only [split, splitSign_chars_append h, takeWhile_append_of_head? h.whole hafter,
    dropWhile_append_of_head? h.whole hafter, splitFraction_append_of_ends h.fraction hr]

/-- A numeral starts as numerals do. -/
theorem startsNumeral_chars_append {n : Numeral} (h : n.WellFormed) (rest : List Char) :
    startsNumeral (n.chars ++ rest) = true := by
  obtain ⟨sign, whole, fraction⟩ := n
  obtain ⟨hs, hne, hw, hf⟩ := h
  simp only at hs hne hw hf
  obtain ⟨d, ds, rfl⟩ := List.exists_cons_of_ne_nil hne
  have hd : d.isDigit = true := hw d List.mem_cons_self
  obtain rfl | rfl | rfl := hs <;> simp [chars, startsNumeral, hd]

/-! ## The longest numeral -/

/-- What is split off a text that starts as numerals do is a numeral. -/
theorem wellFormed_split {cs : List Char} (h : startsNumeral cs = true) :
    (split cs).1.WellFormed where
  sign := by
    simp only [split]
    fun_cases splitSign cs <;> simp
  whole_ne_nil := whole_split_ne_nil h
  whole := fun c hc => List.all_eq_true.mp List.all_takeWhile c hc
  fraction := by
    intro ds hds c hc
    simp only [split] at hds
    unfold splitFraction at hds
    split at hds
    · obtain rfl := Option.some.inj hds
      exact List.all_eq_true.mp List.all_takeWhile c hc
    · simp at hds

/-- **No numeral at the front of a text is longer than the one that is split off.** -/
theorem length_chars_le_split {n : Numeral} (h : n.WellFormed) (rest : List Char) :
    n.chars.length ≤ (split (n.chars ++ rest)).1.chars.length := by
  simp only [split, splitSign_chars_append h]
  cases hn : n.fraction with
  | none =>
    -- Digits behind the numeral can only add to its own.
    have hwhole : n.whole.length ≤ ((n.whole ++ rest).takeWhile Char.isDigit).length := by
      rw [List.takeWhile_append_of_pos h.whole, List.length_append]
      exact Nat.le_add_right _ _
    simp only [chars, hn, Option.map_none, Option.getD_none, List.append_nil, List.nil_append,
      List.length_append]
    omega
  | some ds =>
    have hpoint : ∀ c, ('.' :: (ds ++ rest)).head? = some c → c.isDigit = false := by
      intro c hc
      obtain rfl : '.' = c := by simpa using hc
      rfl
    have hplaces : ds.length ≤ ((ds ++ rest).takeWhile Char.isDigit).length := by
      rw [List.takeWhile_append_of_pos (h.fraction ds hn), List.length_append]
      exact Nat.le_add_right _ _
    simp only [chars, hn, Option.map_some, Option.getD_some, List.cons_append, List.length_append,
      takeWhile_append_of_head? h.whole hpoint, dropWhile_append_of_head? h.whole hpoint,
      splitFraction, List.length_cons]
    omega

/-- **The longest numeral in front of a text**: no numeral at the front of the whole is longer. -/
def Longest (n : Numeral) (rest : List Char) : Prop :=
  ∀ m : Numeral, m.WellFormed → m.chars <+: n.chars ++ rest → m.chars.length ≤ n.chars.length

theorem longest_split (cs : List Char) : (split cs).1.Longest (split cs).2 := by
  rw [Longest, chars_split]
  rintro m hm ⟨rest, rfl⟩
  exact length_chars_le_split hm rest

theorem longest_of_ends {n : Numeral} {rest : List Char} (h : n.WellFormed) (hr : Ends rest) :
    n.Longest rest := by
  have hlongest := longest_split (n.chars ++ rest)
  rwa [split_chars_append h hr] at hlongest

/-- Numerals with the same characters are the same. -/
theorem chars_injective {n m : Numeral} (hn : n.WellFormed) (hm : m.WellFormed)
    (h : n.chars = m.chars) : n = m := by
  have hend : Ends [] := fun c hc => by simp at hc
  have hsplit := split_chars_append hn hend
  rw [h, split_chars_append hm hend] at hsplit
  exact (congrArg Prod.fst hsplit).symm

/-- **The longest numeral is split off**, even where what follows it looks like more of it. -/
theorem split_of_longest {n : Numeral} {rest : List Char} (h : n.WellFormed)
    (hlongest : n.Longest rest) : split (n.chars ++ rest) = (n, rest) := by
  have hm : (split (n.chars ++ rest)).1.WellFormed :=
    wellFormed_split (startsNumeral_chars_append h rest)
  have hchars := chars_split (n.chars ++ rest)
  have hlength : (split (n.chars ++ rest)).1.chars.length = n.chars.length :=
    Nat.le_antisymm (hlongest _ hm ⟨_, hchars⟩) (length_chars_le_split h rest)
  obtain ⟨hfirst, hrest⟩ := List.append_inj hchars hlength
  exact Prod.ext (chars_injective hm h hfirst) hrest

end Numeral

end Lisplet
