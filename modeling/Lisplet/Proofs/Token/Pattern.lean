import Lisplet.Token.Position
import Mathlib.Computability.RegularExpressions

/-!
# Proofs/Token/Pattern — patterns and their matches

A pattern is a regular expression that is tried at the front of a text.  `Pattern.rests` lists what
it can leave of the text, in the order in which that is tried, and the match is the first of them.
All words of the pattern at the front of the text are tried and nothing else (`mem_rests_iff`), but
which of them is first hangs on the order; the lemmas on `Pattern.first?` find it for patterns whose
parts never have to give anything back.
-/

namespace Lisplet

/-- A pattern for the front of a text; its words are the language `RegularExpression.matches'`. -/
abbrev Pattern := RegularExpression Char

namespace Pattern

open RegularExpression
open scoped Computability

/-! ## Matching in order -/

/-- What turn after turn can leave of a text.  One more turn is tried before none, and a turn that
takes nothing is no turn. -/
def repeatedly (turn : List Char → List (List Char)) (cs : List Char) : List (List Char) :=
  ((turn cs).flatMap fun rest =>
    if _ : rest.length < cs.length then repeatedly turn rest else []) ++ [cs]
termination_by cs.length

/-- **All that a pattern can leave of a text, in the order in which it is tried**: of two patterns
the left one first, and of a repetition as many turns as there can be. -/
def rests : Pattern → List Char → List (List Char)
  | 0, _ => []
  | 1, cs => [cs]
  | .char a, cs => if cs.head? = some a then [cs.tail] else []
  | P + Q, cs => rests P cs ++ rests Q cs
  | P * Q, cs => (rests P cs).flatMap (rests Q)
  | .star P, cs => repeatedly (rests P) cs

theorem rests_add (P Q : Pattern) (cs : List Char) : (P + Q).rests cs = P.rests cs ++ Q.rests cs :=
  rfl

theorem rests_mul (P Q : Pattern) (cs : List Char) :
    (P * Q).rests cs = (P.rests cs).flatMap Q.rests := rfl

theorem rests_star (P : Pattern) (cs : List Char) : rests P.star cs = repeatedly P.rests cs := rfl

/-- What the match of a pattern leaves of a text, if it matches. -/
def first? (P : Pattern) (cs : List Char) : Option (List Char) := (P.rests cs).head?

/-- **Where the match of a pattern at a position of a source ends**, if it matches there. -/
def matchAt? (P : Pattern) (source : List Char) (position : Nat) : Option Nat :=
  (P.first? (source.drop position)).map (positionAfter source position)

/-- **The longest match of a pattern at a position**: it is not empty, ends in the source, and no
word of the pattern that stands at the position goes further. -/
structure IsLongestMatch (P : Pattern) (source : List Char) (position stop : Nat) : Prop where
  lt_stop : position < stop
  stop_le : stop ≤ source.length
  word : source.extract position stop ∈ P.matches'
  longest : ∀ w ∈ P.matches', w <+: source.drop position → position + w.length ≤ stop

/-! ### What is tried is the language -/

/-- A repetition tries one turn that takes something and goes on, or no turn. -/
theorem mem_repeatedly {turn : List Char → List (List Char)} {cs rest : List Char} :
    rest ∈ repeatedly turn cs ↔
      (∃ mid ∈ turn cs, mid.length < cs.length ∧ rest ∈ repeatedly turn mid) ∨ rest = cs := by
  rw [repeatedly, List.mem_append, List.mem_singleton, List.mem_flatMap]
  refine or_congr_left (exists_congr fun mid => and_congr_right fun _ => ?_)
  split
  · next hlt => exact (and_iff_right hlt).symm
  · next hle => simp [hle]

/-- Turn after turn tries the words of the repeated language. -/
theorem mem_repeatedly_iff {L : Language Char} {turn : List Char → List (List Char)}
    (hturn : ∀ cs rest, rest ∈ turn cs ↔ ∃ w ∈ L, w ++ rest = cs) (cs rest : List Char) :
    rest ∈ repeatedly turn cs ↔ ∃ w ∈ L∗, w ++ rest = cs := by
  -- The induction is on the length of the text: every turn that counts shortens it.
  induction cs using repeatedly.induct with
  | case1 cs ih =>
    rw [mem_repeatedly]
    constructor
    · rintro (⟨mid, hmid, hlt, hrest⟩ | rfl)
      · obtain ⟨w, hw, rfl⟩ := (hturn cs mid).mp hmid
        obtain ⟨v, hv, rfl⟩ := (ih mid hlt).mp hrest
        have hle : L * L∗ ≤ L∗ := mul_kstar_le_kstar
        exact ⟨w ++ v, hle (Language.append_mem_mul hw hv), List.append_assoc w v rest⟩
      · exact ⟨[], Language.nil_mem_kstar L, rfl⟩
    · rintro ⟨w, hw, rfl⟩
      -- A word of the repeated language does without empty turns.
      obtain ⟨turns, rfl, hturns⟩ := Language.mem_kstar_iff_exists_nonempty.mp hw
      cases turns with
      | nil => exact .inr rfl
      | cons v turns =>
        obtain ⟨⟨hv, hne⟩, hlater⟩ := List.forall_mem_cons.mp hturns
        have hlt : (turns.flatten ++ rest).length < ((v :: turns).flatten ++ rest).length := by
          have := List.length_pos_iff.mpr hne
          simp only [List.flatten_cons, List.length_append]
          omega
        have hmid : turns.flatten ++ rest ∈ turn ((v :: turns).flatten ++ rest) :=
          (hturn _ _).mpr ⟨v, hv, by simp⟩
        have hmore : turns.flatten ∈ L∗ :=
          Language.join_mem_kstar fun u hu => (hlater u hu).1
        exact .inl ⟨_, hmid, hlt, (ih _ hlt).mpr ⟨_, hmore, rfl⟩⟩

theorem mem_matches_char {a : Char} {w : List Char} : w ∈ (char a).matches' ↔ w = [a] := Iff.rfl

/-- **What a pattern tries on a text are its words at the front of it.** -/
theorem mem_rests_iff (P : Pattern) (cs rest : List Char) :
    rest ∈ P.rests cs ↔ ∃ w ∈ P.matches', w ++ rest = cs := by
  induction P generalizing cs rest with
  | zero => simp [rests]
  | epsilon => simp [rests, eq_comm]
  | char a =>
    simp only [mem_matches_char, exists_eq_left, List.singleton_append]
    cases cs with
    | nil => simp [rests]
    | cons c cs => by_cases hc : c = a <;> simp [rests, hc, eq_comm]
  | plus P Q ihP ihQ =>
    simp only [plus_def, rests, List.mem_append, ihP, ihQ, matches'_add, Language.mem_add,
      or_and_right, exists_or]
  | comp P Q ihP ihQ =>
    simp only [comp_def, rests, List.mem_flatMap, ihP, ihQ, matches'_mul]
    constructor
    · rintro ⟨_, ⟨w, hw, rfl⟩, v, hv, rfl⟩
      exact ⟨w ++ v, Language.append_mem_mul hw hv, List.append_assoc w v rest⟩
    · rintro ⟨_, hwv, rfl⟩
      obtain ⟨w, hw, v, hv, rfl⟩ := Language.mem_mul.mp hwv
      exact ⟨v ++ rest, ⟨w, hw, (List.append_assoc w v rest).symm⟩, v, hv, rfl⟩
  | star P ih => exact mem_repeatedly_iff ih cs rest

/-- **A pattern matches where one of its words stands.** -/
theorem isSome_first?_iff (P : Pattern) (cs : List Char) :
    (P.first? cs).isSome = true ↔ ∃ w ∈ P.matches', w <+: cs := by
  rw [first?, List.isSome_head?]
  constructor
  · intro h
    obtain ⟨rest, hrest⟩ := List.exists_mem_of_ne_nil _ h
    obtain ⟨w, hw, hcs⟩ := (P.mem_rests_iff cs rest).mp hrest
    exact ⟨w, hw, rest, hcs⟩
  · rintro ⟨w, hw, rest, hcs⟩
    exact List.ne_nil_of_mem ((P.mem_rests_iff cs rest).mpr ⟨w, hw, hcs⟩)

theorem isSome_matchAt?_iff (P : Pattern) (source : List Char) (position : Nat) :
    (P.matchAt? source position).isSome = true ↔
      ∃ w ∈ P.matches', w <+: source.drop position := by
  rw [matchAt?, Option.isSome_map, isSome_first?_iff]

/-! ### Matching without a step back -/

variable {P Q : Pattern} {cs rest : List Char}

theorem first?_char (a : Char) (cs : List Char) :
    first? (char a) cs = if cs.head? = some a then some cs.tail else none := by
  rw [first?, rests]
  split <;> rfl

theorem first?_add (P Q : Pattern) (cs : List Char) :
    (P + Q).first? cs = (P.first? cs).or (Q.first? cs) := by
  rw [first?, rests_add, List.head?_append]
  rfl

/-- If a pattern matches behind the first match of another, their product does not step back. -/
theorem first?_mul {mid : List Char} (hP : P.first? cs = some mid) (hQ : Q.first? mid = some rest) :
    (P * Q).first? cs = some rest := by
  obtain ⟨tried, hrests⟩ := List.head?_eq_some_iff.mp hP
  rw [first?, rests_mul, hrests, List.flatMap_cons, List.head?_append, ← first?, hQ, Option.some_or]

theorem first?_mul_of_none (h : P.first? cs = none) (Q : Pattern) : (P * Q).first? cs = none := by
  rw [first?, List.head?_eq_none_iff] at h
  rw [first?, rests_mul, h]
  rfl

/-- A repetition matches everywhere, if need be without a turn. -/
theorem isSome_first?_star (P : Pattern) (cs : List Char) : (first? P.star cs).isSome = true := by
  rw [first?, rests_star, repeatedly]
  simp

theorem first?_star_of_none (h : P.first? cs = none) : first? P.star cs = some cs := by
  rw [first?, List.head?_eq_none_iff] at h
  rw [first?, rests_star, repeatedly, h]
  rfl

/-- After a turn a repetition goes on as from the start. -/
theorem first?_star_of_some (h : P.first? cs = some rest) (hlt : rest.length < cs.length) :
    first? P.star cs = first? P.star rest := by
  obtain ⟨tried, hrests⟩ := List.head?_eq_some_iff.mp h
  obtain ⟨stop, hstop⟩ := Option.isSome_iff_exists.mp (isSome_first?_star P rest)
  rw [hstop]
  rw [first?, rests_star] at hstop ⊢
  -- What the turns after the first try comes in front of all else that the first one tries.
  rw [repeatedly, hrests, List.flatMap_cons, dif_pos hlt, List.append_assoc, List.head?_append,
    hstop, Option.some_or]

/-- A pattern or nothing. -/
def orNothing (P : Pattern) : Pattern := P + 1

theorem first?_orNothing (P : Pattern) (cs : List Char) :
    P.orNothing.first? cs = some ((P.first? cs).getD cs) := by
  rw [orNothing, first?_add]
  cases P.first? cs <;> rfl

theorem mem_matches_orNothing {w : List Char} :
    w ∈ P.orNothing.matches' ↔ w ∈ P.matches' ∨ w = [] := Iff.rfl

/-- One character of several. -/
def oneOf (as : List Char) : Pattern := (as.map char).sum

theorem first?_oneOf (as : List Char) (cs : List Char) :
    (oneOf as).first? cs = if cs.head?.any (as.contains ·) then some cs.tail else none := by
  induction as with
  | nil =>
    cases cs <;> simp [oneOf, first?, rests]
  | cons a as ih =>
    rw [oneOf, List.map_cons, List.sum_cons, first?_add, ← oneOf, ih]
    cases cs with
    | nil => simp [first?, rests]
    | cons c cs => by_cases hc : c = a <;> simp [first?, rests, hc]

theorem mem_matches_oneOf {as w : List Char} : w ∈ (oneOf as).matches' ↔ ∃ a ∈ as, w = [a] := by
  induction as with
  | nil => simp [oneOf]
  | cons a as ih =>
    rw [oneOf, List.map_cons, List.sum_cons, matches'_add, Language.mem_add, mem_matches_char,
      ← oneOf, ih, List.exists_mem_cons_iff]

/-- Characters of several are taken as long as there are any. -/
theorem first?_star_oneOf (as cs : List Char) :
    first? (star (oneOf as)) cs = some (cs.dropWhile (as.contains ·)) := by
  induction cs with
  | nil => exact first?_star_of_none (first?_oneOf as [])
  | cons c cs ih =>
    have hone := first?_oneOf as (c :: cs)
    rw [List.head?_cons, Option.any_some, List.tail_cons] at hone
    by_cases hc : as.contains c = true
    · rw [if_pos hc] at hone
      rw [first?_star_of_some hone (Nat.lt_succ_self _), ih, List.dropWhile_cons_of_pos hc]
    · rw [if_neg hc] at hone
      rw [first?_star_of_none hone, List.dropWhile_cons_of_neg hc]

theorem mem_matches_star_oneOf {as w : List Char} :
    w ∈ (star (oneOf as)).matches' ↔ ∀ c ∈ w, c ∈ as := by
  rw [matches'_star, Language.mem_kstar]
  constructor
  · rintro ⟨turns, rfl, hturns⟩ c hc
    obtain ⟨turn, hturn, hmem⟩ := List.mem_flatten.mp hc
    obtain ⟨a, ha, rfl⟩ := mem_matches_oneOf.mp (hturns turn hturn)
    rwa [List.mem_singleton.mp hmem]
  · intro h
    refine ⟨w.map ([·]), by rw [← List.flatMap_def, List.flatMap_singleton'], fun turn hturn => ?_⟩
    obtain ⟨c, hc, rfl⟩ := List.mem_map.mp hturn
    exact mem_matches_oneOf.mpr ⟨c, h c hc, rfl⟩

end Pattern

end Lisplet
