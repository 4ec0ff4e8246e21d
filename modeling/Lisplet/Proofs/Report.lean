import Lisplet.Report
import Mathlib.Data.List.Nodup

/-!
# Proofs/Report — the lines at work

A report starts with the lines at work, and these are all that the trace of a reporter matters for
(`Reporter.reportText_congr`).  A reporter that serves one session has at most one line at work, the
one that the session has noted last (`Reporter.WorksOn`), whatever other files it knows.
-/

namespace Lisplet

namespace Reporter

/-- **The lines at work**, each with its file. -/
def working (r : Reporter) : List (String × SourceLine) :=
  r.trace.filterMap fun entry => entry.2.map (entry.1, ·)

/-- A line at work as it heads a report. -/
def lineText (entry : String × SourceLine) : String :=
  if entry.2.text.isEmpty then ""
  else "  File '" ++ entry.1 ++ "', line " ++ toString entry.2.number ++ ":\n    " ++ entry.2.text
    ++ "\n"

theorem working_eq_nil_iff {r : Reporter} : r.working = [] ↔ ∀ entry ∈ r.trace, entry.2 = none := by
  simp [working]

theorem traceText_eq (r : Reporter) :
    r.traceText = String.join (r.working.map lineText) := by
  rw [traceText, working]
  induction r.trace with
  | nil => rfl
  | cons entry rest ih =>
    obtain ⟨path, line⟩ := entry
    rw [List.map_cons, String.join_cons, ih]
    cases line with
    | none => rw [List.filterMap_cons_none (by rfl), String.empty_append]
    | some line => rw [List.filterMap_cons_some (by rfl), List.map_cons, String.join_cons, lineText]

@[simp] theorem style_place (r : Reporter) (path : String) (line : Option SourceLine) :
    (r.place path line).style = r.style := by
  rw [place]
  split <;> rfl

@[simp] theorem fatal_place (r : Reporter) (path : String) (line : Option SourceLine) :
    (r.place path line).fatal = r.fatal := by
  rw [place]
  split <;> rfl

/-- **A report depends on the lines at work**, and on no other part of the trace. -/
theorem reportText_congr {r r' : Reporter} (hstyle : r.style = r'.style)
    (h : r.working = r'.working) (d : Diagnostic) : r.reportText d = r'.reportText d := by
  simp only [reportText, traceText_eq, shown, h, hstyle]

/-! ## One line at work -/

/-- A reporter that knows files, each once, and has no line at work. -/
structure Idle (r : Reporter) : Prop where
  nodup : (r.trace.map (·.1)).Nodup
  idle : ∀ entry ∈ r.trace, entry.2 = none

/-- **A reporter at work on a line of a file**, or on none of its lines, and on no other file. -/
def WorksOn (r : Reporter) (path : String) (line : Option SourceLine) : Prop :=
  ∃ before after, r.trace = before ++ (path, line) :: after ∧
    ∀ entry ∈ before ++ after, entry.1 ≠ path ∧ entry.2 = none

namespace WorksOn

variable {r : Reporter} {path : String} {line : Option SourceLine}

theorem working (h : r.WorksOn path line) : r.working = line.toList.map (path, ·) := by
  obtain ⟨before, after, htrace, hothers⟩ := h
  have hnone (entries : List (String × Option SourceLine)) (hsub : entries ⊆ before ++ after) :
      entries.filterMap (fun entry => entry.2.map (entry.1, ·)) = [] :=
    List.filterMap_eq_nil_iff.mpr fun entry hentry => by simp [(hothers entry (hsub hentry)).2]
  rw [Reporter.working, htrace, List.filterMap_append, hnone before (List.subset_append_left _ _),
    List.nil_append]
  cases line with
  | none => exact hnone after (List.subset_append_right _ _)
  | some line =>
    rw [List.filterMap_cons_some (by rfl), hnone after (List.subset_append_right _ _)]
    rfl

/-- What keeps all elements but one changes that one in its place. -/
theorem map_middle {α : Type} {f : α → α} {before after : List α} {a : α}
    (h : ∀ b ∈ before ++ after, f b = b) :
    (before ++ a :: after).map f = before ++ f a :: after := by
  have hsame (bs : List α) (hsub : bs ⊆ before ++ after) : bs.map f = bs := by
    have hkept : ∀ b ∈ bs, f b = id b := fun b hb => h b (hsub hb)
    rw [List.map_congr_left hkept, List.map_id]
  rw [List.map_append, List.map_cons, hsame before (List.subset_append_left _ _),
    hsame after (List.subset_append_right _ _)]

/-- The line of a file that is known once is replaced in its place. -/
theorem place_eq {before after : List (String × Option SourceLine)}
    (htrace : r.trace = before ++ (path, line) :: after)
    (hothers : ∀ entry ∈ before ++ after, entry.1 ≠ path) (line' : Option SourceLine) :
    r.place path line' = { r with trace := before ++ (path, line') :: after } := by
  have hknown : r.trace.any (·.1 == path) = true := by simp [htrace]
  have hmap := map_middle (f := fun entry => if entry.1 == path then (path, line') else entry)
    (a := (path, line)) fun entry hentry => if_neg (by simpa using hothers entry hentry)
  rw [Reporter.place, if_pos hknown, htrace, hmap, if_pos (beq_self_eq_true path)]

/-- The line of the file is replaced. -/
theorem place (h : r.WorksOn path line) (line' : Option SourceLine) :
    (r.place path line').WorksOn path line' := by
  obtain ⟨before, after, htrace, hothers⟩ := h
  rw [place_eq htrace fun entry hentry => (hothers entry hentry).1]
  exact ⟨before, after, rfl, hothers⟩

/-- **Work on a line that is done leaves no mark.** -/
theorem finishLine_startLine (h : r.WorksOn path none) (text : String) (number : Int) :
    (r.startLine path text number).finishLine path = r := by
  obtain ⟨before, after, htrace, hothers⟩ := h
  have hpaths : ∀ entry ∈ before ++ after, entry.1 ≠ path := fun entry hentry =>
    (hothers entry hentry).1
  rw [startLine, place_eq htrace hpaths, finishLine, place_eq rfl hpaths, ← htrace]

/-- No line is at work once all are forgotten. -/
theorem forgetLines (h : r.WorksOn path line) : r.forgetLines.WorksOn path none := by
  obtain ⟨before, after, htrace, hothers⟩ := h
  refine ⟨before, after, ?_, hothers⟩
  rw [Reporter.forgetLines, htrace]
  exact map_middle fun entry hentry => Prod.ext rfl (hothers entry hentry).2.symm

end WorksOn

/-- An idle reporter that gets to know a file is at work on none of its lines. -/
theorem Idle.addFile {r : Reporter} (h : r.Idle) (path : String) :
    (r.addFile path).WorksOn path none := by
  by_cases hknown : path ∈ r.trace.map (·.1)
  · obtain ⟨⟨_, line⟩, hmem, rfl⟩ := List.mem_map.mp hknown
    obtain ⟨before, after, htrace⟩ := List.append_of_mem hmem
    have hnodup := h.nodup
    rw [htrace, List.map_append, List.map_cons, List.nodup_middle, List.nodup_cons,
      ← List.map_append] at hnodup
    refine WorksOn.place ⟨before, after, htrace, fun entry hentry =>
      ⟨fun heq => ?_, h.idle entry ?_⟩⟩ none
    · exact hnodup.1 (List.mem_map.mpr ⟨entry, hentry, heq⟩)
    · rw [htrace]
      exact (List.mem_append.mp hentry).elim (List.mem_append_left _) fun hafter =>
        List.mem_append_right _ (List.mem_cons_of_mem _ hafter)
  · have hunknown : ¬ r.trace.any (·.1 == path) = true := by simpa using hknown
    refine ⟨r.trace, [], by simp only [Reporter.addFile, Reporter.place, hunknown, if_false,
      Bool.false_eq_true], fun entry hentry => ?_⟩
    rw [List.append_nil] at hentry
    refine ⟨?_, h.idle entry hentry⟩
    rintro rfl
    exact hknown (List.mem_map_of_mem hentry)

end Reporter

/-! ## Evaluations that end without a value -/

/-- The report of an evaluation that ends without a value. -/
def Halt.diagnostic : Halt → Diagnostic
  | .fault f => f.diagnostic
  | .tooDeep => .nesting

/-- The program is to blame for an evaluation that ends without a value. -/
@[simp] theorem Halt.internal_diagnostic (halt : Halt) : halt.diagnostic.internal = false := by
  cases halt <;> rfl

/-- An evaluation that ends without a value is reported, whatever the reason. -/
theorem Reporter.settle_incident (r : Reporter) (halt : Halt) :
    r.settle halt.incident = r.report halt.diagnostic := by
  cases halt <;> rfl

/-! ## Messages and their templates -/

namespace Message

/-- The texts of a message, between which its pieces stand. -/
def texts (m : Message) : List String := m.lead :: m.filled.map (·.2)

/-- The template of a message: its texts, with a place for each piece between them. -/
def template (m : Message) : String :=
  m.lead ++ String.join (m.filled.map fun filled => "\x7b\x7d" ++ filled.2)

/-- Whether nothing in a text is taken for a place or for a doubled brace. -/
def isBraceFree (text : String) : Bool := text.toList.all fun c => c != '\x7b' && c != '\x7d'

/-- **A message with a place for each of its pieces**, and no braces of its own. -/
structure Plain (m : Message) : Prop where
  braceFree : m.texts.all isBraceFree = true
  unused : m.unused = []

theorem splitTemplate_append {text : String} (h : isBraceFree text = true) (rest : List Char) :
    splitTemplate (text.toList ++ rest) =
      (text.toList ++ (splitTemplate rest).1, (splitTemplate rest).2) := by
  rw [isBraceFree, List.all_eq_true] at h
  generalize text.toList = cs at h ⊢
  induction cs with
  | nil => rfl
  | cons c cs ih =>
    obtain ⟨hc, hcs⟩ := List.forall_mem_cons.mp h
    obtain ⟨hopen, hclose⟩ : c ≠ '\x7b' ∧ c ≠ '\x7d' := by simpa using hc
    rw [List.cons_append, splitTemplate, ih hcs]
    · rfl
    all_goals simp [hopen, hclose]

/-- The places of a template are those of its pieces. -/
theorem splitTemplate_places {filled : List (String × String)}
    (h : (filled.map (·.2)).all isBraceFree = true) :
    splitTemplate (String.join (filled.map fun filled => "\x7b\x7d" ++ filled.2)).toList =
      ([], filled.map (·.2.toList)) := by
  induction filled with
  | nil => rfl
  | cons first rest ih =>
    obtain ⟨hfirst, hrest⟩ := Bool.and_eq_true_iff.mp h
    have hplace : (String.join ((first :: rest).map fun filled => "\x7b\x7d" ++ filled.2)).toList =
        '\x7b' :: '\x7d' :: (first.2.toList ++
          (String.join (rest.map fun filled => "\x7b\x7d" ++ filled.2)).toList) := by
      simp
    rw [hplace, splitTemplate, splitTemplate_append hfirst, ih hrest, List.append_nil,
      List.map_cons]

/-- **A template is filled with the pieces of its message**, whatever stands in them: no place of it
stays empty, and no piece is left over. -/
theorem Plain.ofTemplate_template {m : Message} (h : m.Plain) :
    ofTemplate m.template m.pieces = .ok m := by
  obtain ⟨hlead, hfilled⟩ := Bool.and_eq_true_iff.mp h.braceFree
  have hsplit : splitTemplate m.template.toList = (m.lead.toList, m.filled.map (·.2.toList)) := by
    rw [template, String.toList_append, splitTemplate_append hlead, splitTemplate_places hfilled,
      List.append_nil]
  have hpieces : m.pieces = m.filled.map (·.1) := by rw [pieces, h.unused, List.append_nil]
  have htexts : (m.filled.map (·.2.toList)).map String.ofList = m.filled.map (·.2) := by simp
  have hzip : (m.filled.map (·.1)).zip (m.filled.map (·.2)) = m.filled := by simp [List.zip_map']
  have hdrop : (m.filled.map (·.1)).drop m.filled.length = m.unused := by simp [h.unused]
  simp only [ofTemplate, hsplit, hpieces, htexts, hzip, List.length_map, hdrop, Nat.lt_irrefl,
    if_false, String.ofList_toList]

end Message

theorem Fault.plain_message (f : Fault) : f.message.Plain := by
  cases f <;> refine ⟨?_, rfl⟩ <;>
    simp only [message, arityMessage, Message.texts, List.map_cons, List.map_nil] <;>
    decide +kernel

/-- **The message of an evaluation without a value can always be made.** -/
theorem Halt.plain_message (halt : Halt) : halt.diagnostic.message.Plain := by
  cases halt with
  | fault f => exact f.plain_message
  | tooDeep => exact ⟨rfl, rfl⟩

end Lisplet
