import Lisplet.Proofs.Session.Command
import Lisplet.Proofs.Session.Segmentation
import Lisplet.Proofs.Token.Joining

/-!
# Proofs/Session/Modes — the same lines in a file and typed

A file and a shell put lines together by different means: the one trims them at their end and
numbers an entry by its first line, the other trims them at both ends, trims again what it has put
together, and numbers it by the last.  Line by line the two stay in step (`InStep`): what the shell
holds has the words of the entry that is unfinished, and where the one is finished so is the other
(`InStep.step`).  So the shell hands over the same programs as the file has entries
(`modes_agree`).
-/

namespace Lisplet

/-! ## Texts with the same words -/

/-- **Texts with the same words**: they have the same tokens, and differ in blanks only. -/
structure SameWords (a b : String) : Prop where
  tokens : ∃ ts, Token.ofSource a = .ok ts ∧ Token.ofSource b = .ok ts
  chars : wordChars a = wordChars b

namespace SameWords

variable {a b line : String} {ts : List Token}

theorem isUnfinished_eq (h : SameWords a b) : isUnfinished a = isUnfinished b :=
  isUnfinished_congr h.chars

/-- A line on its own, trimmed in both ways. -/
theorem trimmed (h : Token.ofSource line = .ok ts) :
    SameWords (trimEnd (trim line)) (trimEnd line) where
  tokens := ⟨ts, Token.ofSource_trimEnd (Token.ofSource_trim h), Token.ofSource_trimEnd h⟩
  chars := by simp

/-- A line goes on with texts that have the same words, in both ways. -/
theorem join (h : SameWords a b) (hline : Token.ofSource line = .ok ts) :
    SameWords (trimEnd (a ++ " " ++ trim line)) (b ++ " " ++ trimEnd line) where
  tokens := by
    obtain ⟨held, ha, hb⟩ := h.tokens
    exact ⟨held ++ ts, Token.ofSource_trimEnd (Token.ofSource_join ha (Token.ofSource_trim hline)),
      Token.ofSource_join hb (Token.ofSource_trimEnd hline)⟩
  chars := by simp [wordChars_append, h.chars]

end SameWords

/-- What a text comes to depends on its tokens. -/
theorem Scope.run_congr {a b : String} {ts : List Token} (ha : Token.ofSource a = .ok ts)
    (hb : Token.ofSource b = .ok ts) (scope : Scope) : scope.run a = scope.run b := by
  simp only [Scope.run, Expr.ofSource, ha, hb]

/-! ## Entries of both modes -/

namespace Entry

/-- **A typed entry that agrees with an entry of a file**: they have the same tokens.  Wherever the
sessions have the same scope and show results alike, either both have a value and it is printed the
same, or neither has one and the evaluation ends for the same reason. -/
structure Agrees (typed filed : Entry) : Prop where
  tokens : ∃ ts, Token.ofSource typed.text = .ok ts ∧ Token.ofSource filed.text = .ok ts
  printed : ∀ s s' : Session, s.scope = s'.scope → s.showTree = s'.showTree →
    ∀ rest : List Entry,
      (∃ value text more, (s.add typed.text typed.number).1 = .ok value ∧
        (s.attempt typed.text typed.number).printed = some text ∧
        (s'.runEntries (filed :: rest)).printed = text :: more) ∨
      ∃ halt, (s.add typed.text typed.number).1 = .error halt ∧
        (s.attempt typed.text typed.number).printed = none ∧
        (s'.runEntries (filed :: rest)).printed = [] ∧
        (s'.runEntries (filed :: rest)).halt = some halt

/-- Entries with the same tokens agree. -/
theorem agrees_of_tokens {typed filed : Entry} {ts : List Token}
    (htyped : Token.ofSource typed.text = .ok ts) (hfiled : Token.ofSource filed.text = .ok ts) :
    typed.Agrees filed := by
  refine ⟨⟨ts, htyped, hfiled⟩, fun s s' hscope htree rest => ?_⟩
  have hsame : s'.scope.run filed.text = s.scope.run typed.text := by
    rw [hscope, Scope.run_congr hfiled htyped]
  cases hrun : s.scope.run typed.text with
  | ok result =>
    obtain ⟨e, value⟩ := result
    obtain ⟨more, hfile⟩ := Session.printed_runEntries_of_run_ok (hsame.trans hrun) rest
    rw [Session.shown, ← htree, ← Session.shown] at hfile
    refine .inl ⟨value, _, more, ?_, ?_, hfile⟩
    · rw [Session.add_of_run_ok hrun]
    · rw [Session.attempt_of_run_ok hrun]
  | error halt =>
    refine .inr ⟨halt, ?_, ?_, Session.runEntries_of_run_error (hsame.trans hrun) rest⟩
    · rw [Session.add_of_run_error hrun]
    · rw [Session.attempt_of_run_error hrun, Session.settle]

end Entry

theorem SameWords.agrees {a b : String} (h : SameWords a b) (number number' : Int) :
    Entry.Agrees ⟨a, number⟩ ⟨b, number'⟩ := by
  obtain ⟨ts, ha, hb⟩ := h.tokens
  exact Entry.agrees_of_tokens ha hb

/-! ## Lines that are pieces of program -/

/-- **A line that is a piece of program in both modes**: it is divided into tokens on its own, and
the shell does not take it for a command. -/
structure IsProgram (line : String) : Prop where
  tokens : ∃ ts, Token.ofSource line = .ok ts
  no_question : (trim line).toList.head? ≠ some '?'
  no_command : String.ofList ((trim line).toList.takeWhile Command.isNameChar) ∉
    ["help", "exit", "EOF"]

theorem Command.ofLine_of_isProgram {line : String} (h : IsProgram line) :
    ofLine line = if (trim line).isEmpty then .blank else .program (trim line) :=
  ofLine_of_front h.no_question h.no_command

namespace Shell

/-- A piece of program is trimmed; a blank line is one only where text is held. -/
theorem piece?_of_isProgram {line : String} (h : IsProgram line) (s : Shell) :
    s.piece? line = if (trim line).isEmpty && s.held.isEmpty then none else some (trim line) := by
  rw [piece?, Command.ofLine_of_isProgram h]
  cases hblank : (trim line).isEmpty with
  | true => cases hheld : s.held.isEmpty <;> simp [String.isEmpty_iff.mp hblank]
  | false => simp

end Shell

/-! ## Line by line -/

namespace Gathering

/-- The entries that no later line can change: all but the newest if that is unfinished. -/
def complete (g : Gathering) : List Entry :=
  if g.unfinished then g.entries.tail.reverse else g.entries.reverse

theorem complete_of_finished {g : Gathering} (h : g.unfinished = false) :
    g.complete = g.entries.reverse := by
  rw [complete, h, if_neg Bool.false_ne_true]

theorem complete_of_unfinished {g : Gathering} (h : g.unfinished = true) :
    g.complete = g.entries.tail.reverse := by
  rw [complete, h, if_pos rfl]

theorem complete_push {text : String} (h : (trim text).isEmpty = false) (entries : List Entry)
    (number : Int) : (push entries ⟨text, number⟩).complete =
      entries.reverse ++ if isUnfinished text then [] else [⟨text, number⟩] := by
  rw [push_of_not_isEmpty h, complete]
  cases isUnfinished text <;> simp

end Gathering

/-- **A shell and a gathering in step**: nothing is unfinished in either, or what the shell holds
has the words of the entry that is unfinished. -/
inductive InStep (s : Shell) (g : Gathering) : Prop
  | finished : s.held = "" → g.unfinished = false → InStep s g
  | unfinished {newest : Entry} {older : List Entry} : g.entries = newest :: older →
      g.unfinished = true → isUnfinished s.held = true → SameWords s.held newest.text → InStep s g

namespace InStep

variable {s : Shell} {g : Gathering} {line : String}

theorem held_ne_iff (h : InStep s g) : s.held ≠ "" ↔ g.unfinished = true := by
  cases h with
  | finished hheld hg => simp [hheld, hg]
  | unfinished _ hg hheld _ => simp [ne_empty_of_isUnfinished hheld, hg]

/-- All entries are complete but the one that is unfinished, whose words the shell holds. -/
theorem exists_inOrder_eq (h : InStep s g) : ∃ rest, g.inOrder = g.complete ++ rest ∧
    (rest.length = if g.unfinished then 1 else 0) ∧
    ∀ entry ∈ rest, SameWords s.held entry.text := by
  cases h with
  | finished _ hg =>
    refine ⟨[], ?_, by rw [hg]; rfl, fun entry hentry => absurd hentry List.not_mem_nil⟩
    rw [Gathering.complete_of_finished hg, Gathering.inOrder, List.append_nil]
  | @unfinished newest older hentries hg _ hwords =>
    refine ⟨[newest], ?_, by rw [hg]; rfl, fun entry hentry => ?_⟩
    · simp [Gathering.complete_of_unfinished hg, Gathering.inOrder, hentries]
    · rwa [List.mem_singleton.mp hentry]

/-- **What a line does to both**: they stay in step, and what it completes in the one agrees with
what it completes in the other. -/
def Advances (s : Shell) (line : String) (entries : List Entry) (next : Gathering) : Prop :=
  InStep (s.step line).shell next ∧ ∃ new, next.complete = entries ++ new ∧
    List.Forall₂ Entry.Agrees (s.submitted? line).toList new

/-- A text that is not blank is taken in, whatever was there before. -/
theorem advances_push {piece text : String} (hpiece : s.piece? line = some piece)
    (hwords : SameWords (s.joined piece) text) (htext : (trim text).isEmpty = false)
    (others : List Entry) (number : Int) :
    Advances s line others.reverse (Gathering.push others ⟨text, number⟩) := by
  rw [Advances, Gathering.complete_push htext, Gathering.push_of_not_isEmpty htext,
    ← hwords.isUnfinished_eq, Shell.step_of_some hpiece, Shell.submitted?_of_piece? hpiece]
  cases hunfinished : isUnfinished (s.joined piece) with
  | true =>
    rw [Shell.shell_takeProgram_of_unfinished hunfinished]
    exact ⟨.unfinished rfl rfl hunfinished hwords, [], rfl, .nil⟩
  | false =>
    rw [Shell.shell_takeProgram_of_finished hunfinished]
    exact ⟨.finished rfl rfl, [⟨text, number⟩], rfl, .cons (hwords.agrees _ _) .nil⟩

/-- A blank line outside of everything changes nothing. -/
theorem advances_blank (hline : IsProgram line) (hblank : (trim line).isEmpty = true)
    (hheld : s.held = "") (entries : List Entry) (number : Int) :
    Advances s line entries.reverse (Gathering.push entries ⟨trimEnd line, number⟩) := by
  have hpiece : s.piece? line = none := by
    rw [Shell.piece?_of_isProgram hline, hblank, String.isEmpty_iff.mpr hheld]
    rfl
  rw [Gathering.push_of_isEmpty ((isEmpty_trim_trimEnd line).trans hblank), Advances,
    Shell.shell_step_of_none hpiece, Shell.submitted?, Shell.handed?, hpiece]
  exact ⟨.finished hheld rfl, [], (List.append_nil _).symm, .nil⟩

/-- **One line.** -/
theorem step (h : InStep s g) (hline : IsProgram line) (number : Int) : ∃ text next,
    g.feed line number = some (text, next) ∧ Advances s line g.complete next := by
  obtain ⟨ts, htokens⟩ := hline.tokens
  cases h with
  | finished hheld hg =>
    refine ⟨_, _, Gathering.feed_of_finished hg line number, ?_⟩
    rw [Gathering.complete_of_finished hg]
    cases hblank : (trim line).isEmpty with
    | true => exact advances_blank hline hblank hheld g.entries number
    | false =>
      have hpiece : s.piece? line = some (trim line) := by
        rw [Shell.piece?_of_isProgram hline, hblank]
        rfl
      have hwords : SameWords (s.joined (trim line)) (trimEnd line) := by
        rw [Shell.joined_of_held_eq hheld]
        exact .trimmed htokens
      exact advances_push hpiece hwords ((isEmpty_trim_trimEnd line).trans hblank) g.entries number
  | @unfinished newest older hentries hg hheld hwords =>
    refine ⟨_, _, Gathering.feed_of_unfinished hg hentries line number, ?_⟩
    rw [Gathering.complete_of_unfinished hg, hentries, List.tail_cons]
    have hne := ne_empty_of_isUnfinished hheld
    have hpiece : s.piece? line = some (trim line) := by
      rw [Shell.piece?_of_isProgram hline, if_neg (by simp [hne])]
    have hjoined : SameWords (s.joined (trim line)) (newest.text ++ " " ++ trimEnd line) := by
      rw [Shell.joined_of_held_ne hne]
      exact hwords.join htokens
    have htext : (trim (newest.text ++ " " ++ trimEnd line)).isEmpty = false := by
      -- A blank text would have no word of the text that is held.
      rw [Bool.eq_false_iff, ne_eq, isEmpty_trim_iff, wordChars_append, wordChars_append,
        ← hwords.chars]
      intro hnil
      obtain ⟨hnil, -⟩ := List.append_eq_nil_iff.mp hnil
      simp [isUnfinished_of_wordChars_eq_nil (List.append_eq_nil_iff.mp hnil).1] at hheld
    exact advances_push hpiece hjoined htext older newest.number

/-- **Any lines** do. -/
theorem after (h : InStep s g) {lines : List String} (hlines : ∀ line ∈ lines, IsProgram line)
    (number : Int) :
    ∃ next new, g.feedAll number lines = some next ∧ InStep (s.after lines) next ∧
      next.complete = g.complete ++ new ∧
      List.Forall₂ Entry.Agrees (s.collect Shell.submitted? lines) new := by
  induction lines generalizing s g number with
  | nil => exact ⟨g, [], rfl, h, (List.append_nil _).symm, .nil⟩
  | cons line lines ih =>
    obtain ⟨hline, hlines⟩ := List.forall_mem_cons.mp hlines
    obtain ⟨text, next, hfeed, hstep, new, hnew, hagrees⟩ := h.step hline number
    obtain ⟨last, more, hall, hlast, hmore, hrest⟩ := ih hstep hlines (number + 1)
    rw [Shell.after_cons, Shell.collect]
    refine ⟨last, new ++ more, ?_, hlast, ?_, List.rel_append hagrees hrest⟩
    · simp only [Gathering.feedAll, hfeed, hall]
    · rw [hmore, hnew, List.append_assoc]

end InStep

/-! ## Whole files -/

/-- **A file and a shell run the same program.**  Where every line is a piece of program in both
modes, the entries that a shell hands to its session agree one by one with those that the lines have
in a file, up to the last if that is unfinished; they are all that reaches the session.  The shell
ends with text held if and only if that last entry is unfinished, and then it has the words of it
and loading the file is at fault; else the file is loaded as the entries that agree. -/
theorem modes_agree (session : Session) {lines : List String}
    (hlines : ∀ line ∈ lines, IsProgram line) :
    let start : Shell := { session }
    let handed := start.collect Shell.submitted? lines
    ∃ g entries rest, (Gathering.mk [] false).feedAll 1 lines = some g ∧
      g.inOrder = entries ++ rest ∧
      (rest.length = if g.unfinished then 1 else 0) ∧
      (∀ entry ∈ rest, SameWords (start.after lines).held entry.text) ∧
      List.Forall₂ Entry.Agrees handed entries ∧
      (start.after lines).session = handed.foldl
        (fun session entry => (session.attempt entry.text entry.number).session) session ∧
      ((start.after lines).held ≠ "" ↔ g.unfinished = true) ∧
      ∀ (path : String) (bytes : List UInt8) (cs : List Char), path ≠ typedPath →
        '\x00' ∉ path.toList → Utf8.decode bytes = .ok cs → fileLines cs = lines →
        ∀ reporter asTyped tree,
          ((start.after lines).held ≠ "" ↔ Session.ofFile reporter path (some bytes) asTyped tree =
            .error (Fault.unfinished path).incident) ∧
          ((start.after lines).held = "" → ∃ loaded,
            Session.ofFile reporter path (some bytes) asTyped tree = .ok loaded ∧
              loaded.waiting = entries) := by
  intro start handed
  have hinitial : InStep start (Gathering.mk [] false) := .finished rfl rfl
  obtain ⟨g, entries, hg, hstep, hentries, hagrees⟩ := hinitial.after hlines 1
  obtain rfl : g.complete = entries := hentries
  obtain ⟨rest, horder, hlength, hrest⟩ := hstep.exists_inOrder_eq
  refine ⟨g, g.complete, rest, hg, horder, hlength, hrest, hagrees, Shell.session_after start lines,
    hstep.held_ne_iff, fun path bytes cs hpath hzero hdecode hfile reporter asTyped tree => ?_⟩
  subst hfile
  have hload := Session.load_of_decode hzero hdecode hg
  cases hunfinished : g.unfinished with
  | true =>
    rw [hunfinished, if_pos rfl] at hload
    have hheld := hstep.held_ne_iff.mpr hunfinished
    exact ⟨⟨fun _ => Session.ofFile_of_load_error hpath hload _ _ _, fun _ => hheld⟩,
      fun hempty => absurd hempty hheld⟩
  | false =>
    rw [hunfinished, if_neg Bool.false_ne_true] at hload
    have hheld : (start.after (fileLines cs)).held = "" := by
      by_contra hne
      simp [hstep.held_ne_iff.mp hne] at hunfinished
    have hnil : rest = [] := by rwa [hunfinished, if_neg Bool.false_ne_true,
      List.length_eq_zero_iff] at hlength
    obtain ⟨loaded, hloaded, hwaiting⟩ := Session.ofFile_of_load hpath hload reporter asTyped tree
    rw [horder, hnil, List.append_nil] at hwaiting
    refine ⟨⟨fun hne => absurd hheld hne, fun herror => ?_⟩, fun _ => ⟨loaded, hloaded, hwaiting⟩⟩
    simp [hloaded] at herror

/-- The lines `(f`, an empty one, ` x)`, `  y ` and `(g`, in a file and typed: the texts differ in
their blanks and in their numbers, and the last line is never finished in either. -/
theorem modes_agree_blanks :
    let session := Session.typed (Program.reporter .plain) .standard false
    let lines := ["(f", "", " x)", "  y ", "(g"]
    let bytes := "(f\n\n x)\n  y \n(g\n".toList.map fun c => c.toNat.toUInt8
    (∀ line ∈ lines, IsProgram line) ∧
      Shell.collect Shell.submitted? { session } lines = [⟨"(f x)", 3⟩, ⟨"y", 4⟩] ∧
      Entry.Agrees ⟨"(f x)", 3⟩ ⟨"(f   x)", 1⟩ ∧ Entry.Agrees ⟨"y", 4⟩ ⟨"  y", 4⟩ ∧
      SameWords (Shell.after { session } lines).held "(g" ∧
      Session.ofFile (Program.reporter .plain) "p" (some bytes) false false =
        .error (Fault.unfinished "p").incident := by
  intro session lines bytes
  have hlines : ∀ line ∈ lines, IsProgram line := by
    have hfirst : IsProgram "(f" := ⟨⟨[.lparen, .symbol "f"], by cbv⟩, by decide, by decide⟩
    have hempty : IsProgram "" := ⟨⟨[], by cbv⟩, by decide, by decide⟩
    have hclose : IsProgram " x)" := ⟨⟨[.symbol "x", .rparen], by cbv⟩, by decide, by decide⟩
    have hname : IsProgram "  y " := ⟨⟨[.symbol "y"], by cbv⟩, by decide, by decide⟩
    have hlast : IsProgram "(g" := ⟨⟨[.lparen, .symbol "g"], by cbv⟩, by decide, by decide⟩
    simp [lines, hfirst, hempty, hclose, hname, hlast]
  have hsubmitted : Shell.collect Shell.submitted? { session } lines =
      [⟨"(f x)", 3⟩, ⟨"y", 4⟩] := by decide +kernel
  have hgathered : (Gathering.mk [] false).feedAll 1 lines =
      some ⟨[⟨"(g", 5⟩, ⟨"  y", 4⟩, ⟨"(f   x)", 1⟩], true⟩ := by decide +kernel
  have hmodes := modes_agree session hlines
  dsimp only at hmodes
  rw [hsubmitted] at hmodes
  obtain ⟨g, entries, rest, hg, horder, -, hrest, hagrees, -, hheld, hfile⟩ := hmodes
  obtain rfl := Option.some.inj (hg.symm.trans hgathered)
  obtain ⟨first, more, hfirst, hmore, rfl⟩ := List.forall₂_cons_left_iff.mp hagrees
  obtain ⟨second, last, hsecond, hlast, rfl⟩ := List.forall₂_cons_left_iff.mp hmore
  obtain rfl := List.forall₂_nil_left_iff.mp hlast
  obtain ⟨rfl, rfl, rfl⟩ : first = ⟨"(f   x)", 1⟩ ∧ second = ⟨"  y", 4⟩ ∧ rest = [⟨"(g", 5⟩] := by
    simpa [Gathering.inOrder, eq_comm] using horder
  have hdecode : Utf8.decode bytes = .ok "(f\n\n x)\n  y \n(g\n".toList := by decide +kernel
  have hfileLines : fileLines "(f\n\n x)\n  y \n(g\n".toList = lines := by decide +kernel
  have hload := (hfile "p" bytes _ (by decide) (by decide) hdecode hfileLines
    (Program.reporter .plain) false false).1.mp (hheld.mpr rfl)
  exact ⟨hlines, hsubmitted, hfirst, hsecond, hrest _ List.mem_cons_self, hload⟩

end Lisplet
