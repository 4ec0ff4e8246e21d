import Lisplet.Session.Entry
import Mathlib.Data.List.DropRight

/-!
# Proofs/Session/Trimmed — lines without the blanks around them

Lines are trimmed before they are put together, at one end in a file and at both in a shell.
Trimming takes blanks only, so it keeps the characters that are no blanks (`wordChars`); whether a
line is blank, and whether it goes on on the next one, can be told by those alone.
-/

namespace Lisplet

/-- The characters of a text that are no blanks, in order. -/
def wordChars (text : String) : List Char := text.toList.filter (!isBlank ·)

theorem wordChars_append (a b : String) : wordChars (a ++ b) = wordChars a ++ wordChars b := by
  rw [wordChars, String.toList_append, List.filter_append, wordChars, wordChars]

/-! ## Trimming -/

theorem filter_skipBlanks (cs : List Char) :
    (skipBlanks cs).filter (!isBlank ·) = cs.filter (!isBlank ·) := by
  have hblanks : (cs.takeWhile isBlank).filter (!isBlank ·) = [] :=
    List.filter_eq_nil_iff.mpr fun c hc => by simp [List.all_eq_true.mp List.all_takeWhile c hc]
  calc (skipBlanks cs).filter (!isBlank ·)
      = (cs.takeWhile isBlank ++ skipBlanks cs).filter (!isBlank ·) := by
        rw [List.filter_append, hblanks, List.nil_append]
    _ = cs.filter (!isBlank ·) := by rw [skipBlanks, List.takeWhile_append_dropWhile]

theorem filter_dropTrailingBlanks (cs : List Char) :
    (dropTrailingBlanks cs).filter (!isBlank ·) = cs.filter (!isBlank ·) := by
  rw [dropTrailingBlanks, List.filter_reverse, ← skipBlanks, filter_skipBlanks, List.filter_reverse,
    List.reverse_reverse]

@[simp] theorem wordChars_trimEnd (line : String) : wordChars (trimEnd line) = wordChars line := by
  rw [wordChars, trimEnd, String.toList_ofList, filter_dropTrailingBlanks, wordChars]

@[simp] theorem wordChars_trim (line : String) : wordChars (trim line) = wordChars line := by
  rw [wordChars, trim, String.toList_ofList, filter_skipBlanks, filter_dropTrailingBlanks,
    wordChars]

/-- **A line is blank if no character of it stands in a word.** -/
theorem isEmpty_trim_iff {line : String} : (trim line).isEmpty = true ↔ wordChars line = [] := by
  constructor
  · intro h
    rw [← wordChars_trim, String.isEmpty_iff.mp h]
    rfl
  · intro h
    rw [← wordChars_trim] at h
    have hskip : (trim line).toList = skipBlanks (dropTrailingBlanks line.toList) :=
      String.toList_ofList
    cases hcs : (trim line).toList with
    | nil => simpa using hcs
    | cons c cs =>
      have hc : isBlank c = false := not_isBlank_of_skipBlanks (hskip ▸ hcs)
      simp [wordChars, hcs, hc] at h

@[simp] theorem isEmpty_trim_trimEnd (line : String) :
    (trim (trimEnd line)).isEmpty = (trim line).isEmpty :=
  Bool.eq_iff_iff.mpr (by rw [isEmpty_trim_iff, wordChars_trimEnd, ← isEmpty_trim_iff])

/-- The end of a line is trimmed once and for all. -/
@[simp] theorem trimEnd_trimEnd (line : String) : trimEnd (trimEnd line) = trimEnd line := by
  simp only [trimEnd, String.toList_ofList, dropTrailingBlanks, List.reverse_reverse]
  rw [List.dropWhile_idempotent isBlank]

/-! ## Lines that go on -/

/-- **Blanks make no difference to whether a line goes on.** -/
theorem isUnfinished_congr {a b : String} (h : wordChars a = wordChars b) :
    isUnfinished a = isUnfinished b := by
  have hcount (c : Char) (hc : isBlank c = false) : a.toList.count c = b.toList.count c := by
    have hword (text : String) : (wordChars text).count c = text.toList.count c :=
      List.count_filter (p := (!isBlank ·)) (by simp [hc])
    rw [← hword a, h, hword b]
  rw [isUnfinished, isUnfinished, hcount '(' (by decide), hcount ')' (by decide)]

theorem isUnfinished_trimEnd (line : String) : isUnfinished (trimEnd line) = isUnfinished line :=
  isUnfinished_congr (wordChars_trimEnd line)

/-- A blank line does not go on. -/
theorem isUnfinished_of_wordChars_eq_nil {line : String} (h : wordChars line = []) :
    isUnfinished line = false :=
  isUnfinished_congr (b := "") h

theorem ne_empty_of_isUnfinished {line : String} (h : isUnfinished line = true) : line ≠ "" := by
  rintro rfl
  exact Bool.noConfusion h

end Lisplet
