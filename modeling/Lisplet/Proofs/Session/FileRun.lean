import Lisplet.Proofs.Session.Segmentation
import Lisplet.Proofs.Session.Stack
import Mathlib.Data.List.Forall2

/-!
# Proofs/Session/FileRun — a run of a file stops at its first failure

An entry with a value leaves nothing in the session but its printed result
(`Session.runEntries_cons_of_run_ok`), so entries with values only put their results in front of
what the others come to (`Session.runEntries_append`).  The first one without a value ends the run
with what is printed by then: nothing depends on the entries behind it, and its report names its
file, its first line and its text.  All entries of a file are made from its lines
(`Session.exists_of_load`), so none of them is blank and each is named in its report.
-/

namespace Lisplet

/-! ## Entries and their results -/

namespace Session

/-- **The results of entries**: of each, the expression that its text reads as and the value that
this evaluates to. -/
def ResultsOf (scope : Scope) (entries : List Entry) (results : List Evaluated) : Prop :=
  List.Forall₂ (fun entry r => scope.run entry.text = .ok (r.expr, r.value)) entries results

/-- **The first entry without a value**: those before it have results, and adding it to a session
fails (`add_of_run_error`). -/
structure FirstFailure (scope : Scope) (entries before : List Entry) (results : List Evaluated)
    (entry : Entry) (after : List Entry) (halt : Halt) : Prop where
  splits : entries = before ++ entry :: after
  results : ResultsOf scope before results
  halts : scope.run entry.text = .error halt

/-- Entries have results, or one of them is the first without. -/
theorem results_or_firstFailure (scope : Scope) (entries : List Entry) :
    (∃ results, ResultsOf scope entries results) ∨
      ∃ before results entry after halt,
        FirstFailure scope entries before results entry after halt := by
  induction entries with
  | nil => exact .inl ⟨[], .nil⟩
  | cons entry entries ih =>
    cases hrun : scope.run entry.text with
    | error halt => exact .inr ⟨[], [], entry, entries, halt, rfl, .nil, hrun⟩
    | ok result =>
      obtain ⟨results, hresults⟩ | ⟨before, results, failing, after, halt, h⟩ := ih
      · exact .inl ⟨⟨result.1, result.2⟩ :: results, .cons hrun hresults⟩
      · exact .inr ⟨entry :: before, ⟨result.1, result.2⟩ :: results, failing, after, halt,
          congrArg (List.cons entry) h.splits, .cons hrun h.results, h.halts⟩

/-! ## Running entries -/

section

variable {s : Session} {entry : Entry} {before : List Entry} {results : List Evaluated}
  {halt : Halt}

/-- What waited before a run makes no difference to it. -/
theorem runEntries_waiting (s : Session) (waiting entries : List Entry) :
    ({ s with waiting := waiting } : Session).runEntries entries = s.runEntries entries := by
  cases entries <;> rfl

/-- **One entry with a value** prints its result, and leaves the session as it was. -/
theorem runEntries_cons_of_run_ok (hworks : s.reporter.WorksOn s.path none) {r : Evaluated}
    (h : s.scope.run entry.text = .ok (r.expr, r.value)) (rest : List Entry) :
    s.runEntries (entry :: rest) =
      { s.runEntries rest with printed := s.shown r :: (s.runEntries rest).printed } := by
  have hadd : ({ s with waiting := rest } : Session).add entry.text entry.number =
    (.ok r.value, _) := add_of_run_ok h
  simp only [runEntries, hadd, pop, hworks.finishLine_startLine]
  rw [← runEntries_waiting s rest rest]
  rfl

/-- **Entries with values** print their results in order, and leave the session as it was. -/
theorem runEntries_append (hworks : s.reporter.WorksOn s.path none)
    (h : ResultsOf s.scope before results) (rest : List Entry) :
    s.runEntries (before ++ rest) =
      { s.runEntries rest with
        printed := results.map s.shown ++ (s.runEntries rest).printed } := by
  induction h with
  | nil => rfl
  | cons hrun _ ih =>
    rw [List.cons_append, runEntries_cons_of_run_ok hworks hrun, ih]
    rfl

/-- **All entries have values**: nothing waits any more. -/
theorem runEntries_of_results (hworks : s.reporter.WorksOn s.path none)
    {entries : List Entry} (h : ResultsOf s.scope entries results) :
    s.runEntries entries = ⟨results.map s.shown, none, { s with waiting := [] }⟩ := by
  have happend := runEntries_append hworks h []
  rwa [List.append_nil, runEntries, List.append_nil] at happend

/-- **The run up to the first failure**: the entries behind it still wait, and the reporter is at
work on it. -/
theorem runEntries_of_firstFailure (hworks : s.reporter.WorksOn s.path none)
    {entries after : List Entry}
    (h : FirstFailure s.scope entries before results entry after halt) :
    s.runEntries entries = ⟨results.map s.shown, some halt,
      { s with
        waiting := after
        reporter := s.reporter.startLine s.path entry.text entry.number }⟩ := by
  rw [h.splits, runEntries_append hworks h.results, runEntries_cons_of_run_error h.halts,
    List.append_nil]

end

end Session

/-! ## Loading a file -/

theorem Gathering.isEmpty_trim_of_mem_entriesFrom {number : Int} {stretches : List Stretch}
    (h : ∀ s ∈ stretches, s.Fits) {entry : Entry} (hentry : entry ∈ entriesFrom number stretches) :
    (trim entry.text).isEmpty = false := by
  fun_induction entriesFrom number stretches with
  | case1 => cases hentry
  | case2 number line rest ih => exact ih (List.forall_mem_cons.mp h).2 hentry
  | case3 number first more rest ih =>
    obtain ⟨hgroup, hrest⟩ := List.forall_mem_cons.mp h
    obtain rfl | hentry := List.mem_cons.mp hentry
    · exact isEmpty_trim_joinLines hgroup.1 more
    · exact ih hrest hentry

namespace Session

/-- **What is loaded from a file are the entries of its lines**, all of them finished. -/
theorem exists_of_load {path : String} {bytes : Option (List UInt8)} {entries : List Entry}
    (h : load path bytes = .ok entries) :
    ∃ content cs stretches, bytes = some content ∧ Utf8.decode content = .ok cs ∧
      Gathering.Segmentation (fileLines cs) stretches false ∧
      entries = Gathering.entriesFrom 1 stretches := by
  obtain ⟨content, cs, g, hbytes, hdecode, hg, hfinished, rfl⟩ := exists_gathering_of_load h
  obtain ⟨g', hg', stretches, hsegments, hentries⟩ :=
    Gathering.Gathered.nil.feedAll (fileLines cs)
  obtain rfl := Option.some.inj (hg'.symm.trans hg)
  rw [hfinished] at hsegments
  exact ⟨content, cs, stretches, hbytes, hdecode, hsegments, hentries⟩

/-- **A session for a file** is fresh, and waits for the entries of the file. -/
theorem eq_of_ofFile {reporter : Reporter} {path : String} {bytes : Option (List UInt8)}
    {showTree : Bool} {s : Session} (h : ofFile reporter path bytes false showTree = .ok s) :
    ∃ entries, load path bytes = .ok entries ∧
      s = { path, scope := .standard, showTree, reporter := reporter.addFile path,
            waiting := entries } := by
  simp only [ofFile, Bool.false_eq_true, if_false] at h
  split at h
  · cases h
  · split at h
    · cases h
    · next entries hload => exact ⟨entries, hload, (Except.ok.inj h).symm⟩

/-- A file that cannot be read is not loaded. -/
theorem load_none {path : String} (hpath : '\x00' ∉ path.toList) :
    load path none = .error (Fault.cannotOpen path).incident := by
  rw [load.eq_def, if_neg (by simpa using hpath)]

/-- A file whose lines end inside an entry is not loaded. -/
theorem load_of_unfinished {path : String} {content : List UInt8} {cs : List Char}
    {stretches : List Gathering.Stretch} (hpath : '\x00' ∉ path.toList)
    (hdecode : Utf8.decode content = .ok cs)
    (h : Gathering.Segmentation (fileLines cs) stretches true) :
    load path (some content) = .error (Fault.unfinished path).incident := by
  obtain ⟨g, hg, stretches', hsegments, -⟩ := Gathering.Gathered.nil.feedAll (fileLines cs)
  rw [load_of_decode hpath hdecode hg, if_pos (hsegments.unique h).2]

/-- A result is printed behind its own tree, if trees are shown. -/
theorem shown_eq (s : Session) (r : Evaluated) :
    s.shown r = (if s.showTree then "Parse Tree:\n" ++ r.expr.outline 1 ++ "\n" else "") ++
      r.value.source := by
  rw [shown]
  split
  · rfl
  · rw [String.empty_append]

end Session

/-! ## Reports -/

namespace Program

/-- The reason of a failure as it is printed. -/
def reasonText (style : Style) (m : Message) : String :=
  Style.boldIn .red "error: " style ++ m.render (Style.bold · style) ++ "\n"

/-- The head of a report that names an entry of a file. -/
def headText (path : String) (entry : Entry) : String :=
  "  File '" ++ path ++ "', line " ++ toString entry.number ++ ":\n    " ++ entry.text ++ "\n"

/-- Results as they are printed, each on lines of its own. -/
def printedText (printed : List String) : String := String.join (printed.map (· ++ "\n"))

/-- Where no line is at work, a report has no head. -/
theorem reportText_of_idle {r : Reporter} {path : String} (h : r.WorksOn path none)
    {d : Diagnostic} (hd : d.internal = false) :
    r.reportText d = reasonText r.style d.message := by
  rw [Reporter.reportText, Reporter.traceText_eq, h.working, hd]
  simp [reasonText, Reporter.shown, String.append_assoc]

/-- The report of an entry names it, unless it is empty. -/
theorem reportText_of_entry {r : Reporter} {path : String} {entry : Entry}
    (h : r.WorksOn path none) (hentry : entry.text.isEmpty = false) {d : Diagnostic}
    (hd : d.internal = false) :
    (r.startLine path entry.text entry.number).reportText d =
      headText path entry ++ reasonText r.style d.message := by
  have hworks : (r.startLine path entry.text entry.number).WorksOn path
    (some ⟨entry.text, entry.number⟩) := h.place _
  rw [Reporter.reportText, Reporter.traceText_eq, hworks.working, hd]
  simp [reasonText, headText, Reporter.shown, Reporter.lineText, Reporter.startLine, hentry,
    String.append_assoc]

/-! ## Running a loaded file -/

section

variable {style : Style} {path : String} {bytes : Option (List UInt8)} {tree : Bool} {s : Session}

/-- A session for a file has no line at work, and reports in the style of the run. -/
theorem worksOn_of_ofFile (h : Session.ofFile (reporter style) path bytes false tree = .ok s) :
    s.path = path ∧ s.reporter.WorksOn s.path none ∧ s.reporter.style = style ∧
      s.reporter.fatal = true ∧ s.results = [] := by
  obtain ⟨entries, -, rfl⟩ := Session.eq_of_ofFile h
  exact ⟨rfl, (idle_reporter style).addFile path, Reporter.style_place .., Reporter.fatal_place ..,
    rfl⟩

/-- No entry of a file is empty. -/
theorem isEmpty_of_ofFile (h : Session.ofFile (reporter style) path bytes false tree = .ok s)
    {entry : Entry} (hentry : entry ∈ s.waiting) : entry.text.isEmpty = false := by
  obtain ⟨entries, hload, rfl⟩ := Session.eq_of_ofFile h
  obtain ⟨content, cs, stretches, -, -, hsegments, rfl⟩ := Session.exists_of_load hload
  have htrim := Gathering.isEmpty_trim_of_mem_entriesFrom hsegments.fits hentry
  cases hempty : entry.text.isEmpty with
  | false => rfl
  | true =>
    rw [String.isEmpty_iff.mp hempty] at htrim
    exact absurd htrim (by decide)

/-- A file all of whose entries have values: the results, and nothing else. -/
theorem runFile_of_results (h : Session.ofFile (reporter style) path bytes false tree = .ok s)
    {results : List Evaluated} (hresults : Session.ResultsOf s.scope s.waiting results) :
    runFile style path bytes tree = (printedText (results.map s.shown), .done) := by
  obtain ⟨-, hworks, -⟩ := worksOn_of_ofFile h
  simp only [runFile, h, Session.run, Session.runEntries_of_results hworks hresults]
  rfl

/-- **A file with an entry without a value**: the results before the first such entry, and its
report. -/
theorem runFile_of_firstFailure
    (h : Session.ofFile (reporter style) path bytes false tree = .ok s) {before after : List Entry}
    {results : List Evaluated} {entry : Entry} {halt : Halt}
    (hfailure : Session.FirstFailure s.scope s.waiting before results entry after halt) :
    runFile style path bytes tree = (printedText (results.map s.shown) ++ headText path entry ++
      reasonText style halt.diagnostic.message, .exit 1) := by
  obtain ⟨rfl, hworks, hstyle, hfatal, -⟩ := worksOn_of_ofFile h
  have hentry : entry ∈ s.waiting := by simp [hfailure.splits]
  have hstarted : (s.reporter.startLine s.path entry.text entry.number).fatal = true :=
    (Reporter.fatal_place ..).trans hfatal
  have hreport := reportText_of_entry hworks (isEmpty_of_ofFile h hentry)
    halt.internal_diagnostic
  simp only [runFile, h, Session.run, Session.runEntries_of_firstFailure hworks hfailure,
    Session.settle, Reporter.settle_incident, Reporter.report, hstarted, if_true, hreport, hstyle,
    endingOf]
  rw [String.append_assoc]
  rfl

/-- A file that is at fault when it is loaded: the reason, and nothing else. -/
theorem runFile_of_fault {fault : Fault}
    (h : Session.ofFile (reporter style) path bytes false tree = .error fault.incident) :
    runFile style path bytes tree = (reasonText style fault.message, .exit 1) := by
  rw [runFile_of_ofFile_error h, reportText_of_idle ((idle_reporter style).addFile path) rfl]
  rfl

theorem run_of_file {argv : List String} {arguments : Arguments}
    (hargs : Arguments.read argv = .ok (.run arguments)) (hfile : arguments.file = some path)
    (surroundings : History.Surroundings) (files : FileTree) (typed : String) {output : String}
    {ending : Ending}
    (h : runFile style path (files.read? path) arguments.tree = (output, ending)) :
    run style argv surroundings files typed = { output, ending, files } := by
  simp only [run, hargs, hfile, h]

end

end Program

/-! ## The first failure ends the run -/

/-- **A run of a file stops at its first failure, after exactly the results before it.**  Once a
file is loaded, its entries are those of its lines.  If all have values, the run prints these in
order, each behind its own tree if trees are shown, and ends.  Otherwise it prints the results in
front of the first entry without a value, and one report, which names the file, the first line of
that entry and its text and gives the reason, and it ends with a status; then the entries behind
are all that waits, no result is kept, and whatever these entries were, the run would be the same.
A file that is at fault when it is loaded, because it cannot be opened or ends inside an entry, is
only reported, without any line. -/
theorem file_run_stops_at_first_failure {argv : List String} {arguments : Arguments} {path : String}
    (hargs : Arguments.read argv = .ok (.run arguments)) (hfile : arguments.file = some path)
    (style : Style) (surroundings : History.Surroundings) (files : FileTree) (typed : String) :
    let outcome := Program.run style argv surroundings files typed
    let loaded := Session.ofFile (Program.reporter style) path (files.read? path) false
      arguments.tree
    (∀ s, loaded = .ok s →
      (∃ content cs stretches, files.read? path = some content ∧ Utf8.decode content = .ok cs ∧
        Gathering.Segmentation (fileLines cs) stretches false ∧
        s.waiting = Gathering.entriesFrom 1 stretches) ∧
      (∀ r, s.shown r = (if arguments.tree then "Parse Tree:\n" ++ r.expr.outline 1 ++ "\n"
        else "") ++ r.value.source) ∧
      ((∃ results, Session.ResultsOf s.scope s.waiting results) ∨
        ∃ before results entry after halt,
          Session.FirstFailure s.scope s.waiting before results entry after halt) ∧
      (∀ results, Session.ResultsOf s.scope s.waiting results →
        outcome = { output := Program.printedText (results.map s.shown), ending := .done, files }) ∧
      ∀ before results entry after halt,
        Session.FirstFailure s.scope s.waiting before results entry after halt →
          outcome = { output := Program.printedText (results.map s.shown) ++
                        Program.headText path entry ++
                        Program.reasonText style halt.diagnostic.message,
                      ending := .exit 1, files } ∧
          s.run.session.waiting = after ∧ s.run.session.results = [] ∧
          ∀ later, s.runEntries (before ++ entry :: later) =
            { s.run with session := { s.run.session with waiting := later } }) ∧
    (∀ fault : Fault, loaded = .error fault.incident →
      outcome = { output := Program.reasonText style fault.message, ending := .exit 1, files }) ∧
    (path = typedPath → loaded = .error Fault.reserved.incident) ∧
    (path ≠ typedPath → '\x00' ∉ path.toList →
      (files.read? path = none → loaded = .error (Fault.cannotOpen path).incident) ∧
      ∀ content cs stretches, files.read? path = some content → Utf8.decode content = .ok cs →
        Gathering.Segmentation (fileLines cs) stretches true →
        loaded = .error (Fault.unfinished path).incident) := by
  intro outcome loaded
  have houtcome {output : String} {ending : Ending}
      (h : Program.runFile style path (files.read? path) arguments.tree = (output, ending)) :
      outcome = { output, ending, files } :=
    Program.run_of_file hargs hfile surroundings files typed h
  refine ⟨fun s hs => ?_, fun fault hfault => houtcome (Program.runFile_of_fault hfault),
    fun hpath => ?_, fun hpath hzero => ⟨fun hnone => ?_,
      fun content cs stretches hcontent hdecode hsegments => ?_⟩⟩
  · obtain ⟨entries, hload, hsession⟩ := Session.eq_of_ofFile hs
    obtain ⟨-, hworks, -, -, hresults⟩ := Program.worksOn_of_ofFile hs
    refine ⟨?_, fun r => ?_, Session.results_or_firstFailure s.scope s.waiting,
      fun results h => houtcome (Program.runFile_of_results hs h),
      fun before results entry after halt h =>
        ⟨houtcome (Program.runFile_of_firstFailure hs h), ?_⟩⟩
    · obtain ⟨content, cs, stretches, hfile⟩ := Session.exists_of_load hload
      exact ⟨content, cs, stretches, hsession ▸ hfile⟩
    · rw [s.shown_eq, hsession]
    · have hrun := Session.runEntries_of_firstFailure hworks h
      rw [Session.run, hrun]
      refine ⟨rfl, hresults, fun later => ?_⟩
      exact Session.runEntries_of_firstFailure hworks ⟨rfl, h.results, h.halts⟩
  · simp [loaded, Session.ofFile, hpath]
  · exact Session.ofFile_of_load_error hpath (hnone ▸ Session.load_none hzero) ..
  · have hload := Session.load_of_unfinished hzero hdecode hsegments
    exact Session.ofFile_of_load_error hpath (hcontent ▸ hload) ..

/-- The entries `(lambda (x) x)`, `(f`, which goes on for a line, and `x`, with an empty line in
between: the second one is a call of nothing, so the third is never evaluated. -/
theorem file_run_stops_at_first_failure_unbound :
    let text := "(lambda (x) x)\n\n(f\n x)\nx\n"
    let bytes := text.toList.map fun c => c.toNat.toUInt8
    let files : FileTree := ⟨[(["p"], .file bytes)]⟩
    Program.run .plain ["p"] { home := "/" } files "" =
      { output := "(lambda (x) x)\n  File 'p', line 3:\n    (f  x)\nerror: symbol not found: f\n"
        ending := .exit 1, files } := by
  intro text bytes files
  have hargs : Arguments.read ["p"] = .ok (.run { file := some "p" }) := by rfl
  have hread : files.read? "p" = some bytes := by rfl
  have hdecode : Utf8.decode bytes = .ok text.toList := by decide +kernel
  have hgathered : (Gathering.mk [] false).feedAll 1 (fileLines text.toList) =
      some ⟨[⟨"x", 5⟩, ⟨"(f  x)", 3⟩, ⟨"(lambda (x) x)", 1⟩], false⟩ := by decide +kernel
  have hload : Session.load "p" (files.read? "p") =
      .ok [⟨"(lambda (x) x)", 1⟩, ⟨"(f  x)", 3⟩, ⟨"x", 5⟩] := by
    rw [hread]
    exact Session.load_of_decode (by decide) hdecode hgathered
  obtain ⟨s, hs, hwaiting⟩ :=
    Session.ofFile_of_load (by decide) hload (Program.reporter .plain) false false
  have hscope : s.scope = .standard := (Session.of_ofFile hs).1
  have hcall : Expr.ofSource "(f  x)" = .ok (.list [.symbol "f", .symbol "x"]) := by cbv
  have hfailure : Session.FirstFailure s.scope s.waiting [⟨"(lambda (x) x)", 1⟩]
      [⟨.list [.symbol "lambda", .list [.symbol "x"], .symbol "x"],
        .lambda ["x"] (.symbol "x") Scope.standard⟩]
      ⟨"(f  x)", 3⟩ [⟨"x", 5⟩] (.fault (.unbound "f")) := by
    rw [hscope, hwaiting]
    refine ⟨rfl, .cons Scope.run_identity .nil, ?_⟩
    rw [Scope.run, hcall]
    rfl
  obtain ⟨hfile, -⟩ :=
    file_run_stops_at_first_failure hargs rfl .plain { home := "/" } files ""
  obtain ⟨-, hshown, -, -, hstops⟩ := hfile s hs
  rw [(hstops _ _ _ _ _ hfailure).1, List.map_singleton, hshown]
  rfl

end Lisplet
