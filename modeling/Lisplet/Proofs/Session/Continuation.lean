import Lisplet.Proofs.Eval.Faults
import Lisplet.Proofs.Expr.Unfinished
import Lisplet.Proofs.Session.Lines
import Lisplet.Proofs.Session.Trimmed

/-!
# Proofs/Session/Continuation — lines that go on on the next line

A line goes on on the next one if it is unfinished.  What is handed to a session is finished
therefore: in a file only the newest of the entries gathered so far may be unfinished
(`Gathering.Sound`), and the file must not end with such a one; in a shell unfinished text is held.
As the parser agrees on what is unfinished, no text that reaches a session ends inside a list
(`unfinished_agrees`).
-/

namespace Lisplet

/-! ## Gathering the lines of a file -/

namespace Gathering

/-- **Only the newest entry may be unfinished**, and the gathering knows whether it is. -/
structure Sound (g : Gathering) : Prop where
  older : ∀ entry ∈ g.entries.tail, isUnfinished entry.text = false
  newest : g.unfinished = g.entries.head?.any fun entry => isUnfinished entry.text

theorem Sound.of_nil : (⟨[], false⟩ : Gathering).Sound := ⟨by simp, rfl⟩

/-- A gathering without an unfinished entry has finished entries only. -/
theorem Sound.finished {g : Gathering} (h : g.Sound) (hg : g.unfinished = false) :
    ∀ entry ∈ g.entries, isUnfinished entry.text = false := by
  obtain ⟨holder, hnewest⟩ := h
  rw [hg] at hnewest
  cases hentries : g.entries with
  | nil => simp
  | cons newest older =>
    rw [hentries] at holder hnewest
    exact List.forall_mem_cons.mpr ⟨by simpa using hnewest.symm, holder⟩

/-- An entry is added to finished ones. -/
theorem sound_push {entries : List Entry} (h : ∀ entry ∈ entries, isUnfinished entry.text = false)
    (entry : Entry) : (push entries entry).Sound := by
  unfold push
  split
  · next hblank =>
    refine ⟨fun older holder => h older (List.mem_of_mem_tail holder), ?_⟩
    rw [isUnfinished_of_wordChars_eq_nil (isEmpty_trim_iff.mp hblank)]
    cases entries with
    | nil => rfl
    | cons newest older => simp [h newest List.mem_cons_self]
  · exact ⟨h, by simp⟩

/-- **What taking in a line does**: the entry with its text is added to the entries there were if
they are finished, and to those behind the newest if it joins that one. -/
theorem exists_push_of_feed {g next : Gathering} {line text : String} {number : Int}
    (h : g.feed line number = some (text, next)) :
    ∃ others start, next = push others ⟨text, start⟩ ∧
      ((g.unfinished = false ∧ others = g.entries) ∨ ∃ newest, g.entries = newest :: others) := by
  unfold feed at h
  split at h
  · split at h
    · simp at h
    · next newest older hentries =>
      obtain ⟨htext, hnext⟩ := Prod.mk.inj (Option.some.inj h)
      exact ⟨older, newest.number, by rw [← hnext, ← htext], .inr ⟨newest, hentries⟩⟩
  · next hfinished =>
    obtain ⟨htext, hnext⟩ := Prod.mk.inj (Option.some.inj h)
    exact ⟨g.entries, number, by rw [← hnext, ← htext], .inl ⟨Bool.eq_false_iff.mpr hfinished, rfl⟩⟩

/-- The new gathering tells whether the text goes on. -/
theorem unfinished_of_feed {g next : Gathering} {line text : String} {number : Int}
    (h : g.feed line number = some (text, next)) : next.unfinished = isUnfinished text := by
  obtain ⟨others, start, rfl, -⟩ := exists_push_of_feed h
  rfl

theorem Sound.feed {g next : Gathering} {line text : String} {number : Int} (hg : g.Sound)
    (h : g.feed line number = some (text, next)) : next.Sound := by
  obtain ⟨others, start, rfl, ⟨hfinished, rfl⟩ | ⟨newest, hentries⟩⟩ := exists_push_of_feed h
  · exact sound_push (hg.finished hfinished) _
  · -- The newest entry is replaced, and it is the only one that may be unfinished.
    have holder := hg.older
    rw [hentries] at holder
    exact sound_push holder _

theorem Sound.feedAll {g next : Gathering} {number : Int} {lines : List String} (hg : g.Sound)
    (h : g.feedAll number lines = some next) : next.Sound := by
  fun_induction Gathering.feedAll g number lines with
  | case1 => exact Option.some.inj h ▸ hg
  | case2 => simp at h
  | case3 g number line lines text after hfeed ih => exact ih (hg.feed hfeed) h

end Gathering

/-! ## What is handed to a session -/

namespace Session

/-- **The entries of a file are finished.** -/
theorem isUnfinished_of_load {path : String} {bytes : Option (List UInt8)} {entries : List Entry}
    (h : load path bytes = .ok entries) : ∀ entry ∈ entries, isUnfinished entry.text = false := by
  obtain ⟨content, cs, g, -, -, hg, hfinished, rfl⟩ := exists_gathering_of_load h
  have hsound := Gathering.Sound.of_nil.feedAll hg
  exact fun entry hentry => hsound.finished hfinished entry (List.mem_reverse.mp hentry)

theorem isUnfinished_of_ofFile {reporter : Reporter} {path : String} {bytes : Option (List UInt8)}
    {asTyped showTree : Bool} {s : Session}
    (h : ofFile reporter path bytes asTyped showTree = .ok s) :
    ∀ entry ∈ s.waiting, isUnfinished entry.text = false := by
  obtain hnone | hload := (of_ofFile h).2
  · simp [hnone]
  · exact isUnfinished_of_load hload

end Session

/-- No evaluation is at fault for a list that is not closed. -/
theorem not_ofEvaluation_openList : ¬ Fault.openList.OfEvaluation := by
  simp [Fault.OfEvaluation, Fault.kind]

/-- **A finished text does not end inside a list**, wherever it is evaluated. -/
theorem Scope.run_ne_openList {source : String} (h : isUnfinished source = false) (scope : Scope) :
    scope.run source ≠ .error (.fault .openList) := by
  intro hrun
  unfold Scope.run at hrun
  cases hread : Expr.ofSource source with
  | error fault =>
    rw [hread] at hrun
    obtain rfl : fault = .openList := by simpa [Outcome.ofFaulty] using hrun
    simp [Expr.isUnfinished_of_openList hread] at h
  | ok e =>
    rw [hread] at hrun
    cases heval : evaluate depthLimit e scope with
    | error halt =>
      obtain rfl : halt = .fault .openList := by simpa [Outcome.ofFaulty, heval] using hrun
      exact not_ofEvaluation_openList (ofEvaluation_of_evaluate heval)
    | ok value => simp [Outcome.ofFaulty, heval] at hrun

namespace Session

theorem add_ne_openList {line : String} (h : isUnfinished line = false) (s : Session)
    (number : Int) : (s.add line number).1 ≠ .error (.fault .openList) := by
  have hrun := s.scope.run_ne_openList h
  unfold add
  split
  · next halt herror =>
    rw [herror] at hrun
    simpa using hrun
  · simp

/-- **Finished entries do not stop a run inside a list.** -/
theorem halt_runEntries_ne_openList (s : Session) {entries : List Entry}
    (h : ∀ entry ∈ entries, isUnfinished entry.text = false) :
    (s.runEntries entries).halt ≠ some (.fault .openList) := by
  induction entries generalizing s with
  | nil => simp [runEntries]
  | cons entry rest ih =>
    obtain ⟨hentry, hrest⟩ := List.forall_mem_cons.mp h
    have hadd := add_ne_openList hentry { s with waiting := rest } entry.number
    unfold runEntries
    split
    · next halt after herror =>
      rw [herror] at hadd
      simpa using hadd
    · split
      · exact ih _ hrest
      · exact ih _ hrest

end Session

/-! ## The parser and the lines -/

/-- **Whether a line goes on agrees with the parser**: a line that is read does not, and a line that
ends inside a list does, be it a line of its own or joined to others.  So what a file or a shell
hands to a session never ends inside a list, and text that a shell holds is no expression. -/
theorem unfinished_agrees :
    (∀ line : String,
      (∀ e, Expr.ofSource line = .ok e → isUnfinished (trimEnd line) = false) ∧
      (Expr.ofSource line = .error .openList → isUnfinished (trimEnd line) = true)) ∧
    (∀ (g next : Gathering) (line text : String) (number : Int),
      g.feed line number = some (text, next) →
        (∀ e, Expr.ofSource text = .ok e → next.unfinished = false) ∧
        (Expr.ofSource text = .error .openList → next.unfinished = true)) ∧
    (∀ (reporter : Reporter) (path : String) (bytes : Option (List UInt8)) (asTyped tree : Bool)
      (s : Session), Session.ofFile reporter path bytes asTyped tree = .ok s →
        (∀ entry ∈ s.waiting, ∀ (s' : Session) (number : Int),
          (s'.add entry.text number).1 ≠ .error (.fault .openList)) ∧
        s.run.halt ≠ some (.fault .openList)) ∧
    (∀ (s : Shell) (line : String), (s.step line).shell.session =
      (s.handed? line).elim s.session fun text =>
        (s.session.attempt text (s.lineNumber + 1 : Nat)).session) ∧
    ∀ (s : Shell) (lines : List String), s.held = "" →
      ((s.after lines).held ≠ "" → ∀ e, Expr.ofSource (s.after lines).held ≠ .ok e) ∧
      ∀ line text, (s.after lines).handed? line = some text → ∀ (s' : Session) (number : Int),
        (s'.add text number).1 ≠ .error (.fault .openList) := by
  refine ⟨fun line => ⟨fun e he => ?_, fun he => ?_⟩, fun g next line text number hfeed =>
    ⟨fun e he => ?_, fun he => ?_⟩, fun reporter path bytes asTyped tree s hs =>
    ⟨fun entry hentry s' number => ?_, ?_⟩, Shell.session_step, fun s lines hs =>
    ⟨fun hheld e he => ?_, fun line text htext s' number => ?_⟩⟩
  · rw [isUnfinished_trimEnd, Expr.isUnfinished_of_ofSource he]
  · rw [isUnfinished_trimEnd, Expr.isUnfinished_of_openList he]
  · rw [Gathering.unfinished_of_feed hfeed, Expr.isUnfinished_of_ofSource he]
  · rw [Gathering.unfinished_of_feed hfeed, Expr.isUnfinished_of_openList he]
  · exact s'.add_ne_openList (Session.isUnfinished_of_ofFile hs entry hentry) number
  · exact s.halt_runEntries_ne_openList (Session.isUnfinished_of_ofFile hs)
  · have hholds : s.HoldsUnfinished := .inl hs
    obtain hempty | hunfinished := hholds.after lines
    · exact hheld hempty
    · rw [Expr.isUnfinished_of_ofSource he] at hunfinished
      simp at hunfinished
  · exact s'.add_ne_openList (Shell.isUnfinished_of_handed? htext) number

/-- The lines `(f` and `(g))`, in a file and typed: the first is held, and both together are handed
over. -/
theorem unfinished_agrees_joined :
    let bytes := "(f\n(g))\n".toList.map fun c => c.toNat.toUInt8
    let s := Program.shell .plain false
    isUnfinished (trimEnd "(f") = true ∧ isUnfinished (trimEnd "(f (g))") = false ∧
      (∃ loaded, Session.ofFile (Program.reporter .plain) "p" (some bytes) false false = .ok loaded ∧
        loaded.waiting = [⟨"(f (g))", 1⟩] ∧ loaded.run.halt ≠ some (.fault .openList)) ∧
      (s.after ["(f"]).held = "(f" ∧ (∀ e, Expr.ofSource (s.after ["(f"]).held ≠ .ok e) ∧
      (s.after ["(f"]).handed? "(g))" = some "(f (g))" ∧
      ((s.after ["(f"]).session.add "(f (g))" 2).1 ≠ .error (.fault .openList) := by
  intro bytes s
  obtain ⟨hline, -, hfile, -, hshell⟩ := unfinished_agrees
  have hopen : Expr.ofSource "(f" = .error .openList := by cbv
  have hread : Expr.ofSource "(f (g))" = .ok (.list [.symbol "f", .list [.symbol "g"]]) := by cbv
  have hheld : (s.after ["(f"]).held = "(f" := by decide +kernel
  have hhanded : (s.after ["(f"]).handed? "(g))" = some "(f (g))" := by decide +kernel
  have hwaiting : (Session.ofFile (Program.reporter .plain) "p" (some bytes) false
      false).toOption.map (·.waiting) = some [⟨"(f (g))", 1⟩] := by decide +kernel
  obtain ⟨loaded, hloaded, hentries⟩ := Session.exists_of_map_waiting hwaiting
  obtain ⟨hnever, hnot⟩ := hshell s ["(f"] rfl
  exact ⟨(hline _).2 hopen, (hline _).1 _ hread,
    ⟨loaded, hloaded, hentries, (hfile _ _ _ _ _ loaded hloaded).2⟩, hheld,
    hnever (by simp [hheld]), hhanded, hnot _ _ hhanded _ 2⟩

end Lisplet
