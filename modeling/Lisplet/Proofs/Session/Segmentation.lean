import Lisplet.Program
import Lisplet.Proofs.Session.Trimmed

/-!
# Proofs/Session/Segmentation — the lines of a file and its entries

The lines of a file fall into stretches: blank lines between the entries, and the lines of one
entry.  `Segmentation` says where one stretch ends and the next begins, by the parentheses of the
lines alone and without gathering anything; there is only one way to do it (`Segmentation.unique`).
Gathering line by line never fails and finds that segmentation (`Gathered.feed`,
`Gathered.feedAll`), so what a file is loaded as can be read off its lines
(`entries_segment_lines`).
-/

namespace Lisplet

namespace Gathering

/-! ## Stretches of lines -/

/-- **The text of lines put together**: each without the blanks at its end, and a space between any
two of them. -/
def joinLines (lines : List String) : String := " ".intercalate (lines.map trimEnd)

/-- A stretch of a file. -/
inductive Stretch where
  /-- A blank line outside of every entry. -/
  | gap (line : String)
  /-- The lines of one entry, the first and those that go on with it. -/
  | group (first : String) (more : List String)
deriving DecidableEq, Repr

namespace Stretch

/-- The lines of a stretch. -/
def lines : Stretch → List String
  | .gap line => [line]
  | .group first more => first :: more

/-- Whether the lines of a stretch have more opening than closing parentheses. -/
def isUnfinished (s : Stretch) : Bool := Lisplet.isUnfinished (joinLines s.lines)

/-- **What a stretch has to be**: a gap is blank, and a group starts with a line that is not, and is
unfinished in front of each of its later lines. -/
def Fits : Stretch → Prop
  | .gap line => (trim line).isEmpty = true
  | .group first more => (trim first).isEmpty = false ∧
      ∀ front, front <+: first :: more → front ≠ [] → front ≠ first :: more →
        Lisplet.isUnfinished (joinLines front) = true

end Stretch

/-- **A segmentation of lines** into stretches that fit.  A stretch ends where it is finished; what
follows an unfinished line, blank or not, belongs to its group, so only the last stretch may be
unfinished, and then so are the lines as a whole. -/
structure Segmentation (lines : List String) (stretches : List Stretch) (unfinished : Bool) :
    Prop where
  covers : stretches.flatMap Stretch.lines = lines
  fits : ∀ s ∈ stretches, s.Fits
  closes : ∀ s ∈ stretches.dropLast, s.isUnfinished = false
  last : unfinished = stretches.getLast?.any Stretch.isUnfinished

/-- **The entries of stretches** whose lines are numbered from `number`: each group is an entry with
the number of its first line. -/
def entriesFrom (number : Int) : List Stretch → List Entry
  | [] => []
  | .gap _ :: rest => entriesFrom (number + 1) rest
  | .group first more :: rest =>
    ⟨joinLines (first :: more), number⟩ :: entriesFrom (number + (first :: more).length) rest

/-! ## Lines put together -/

theorem joinLines_singleton (line : String) : joinLines [line] = trimEnd line :=
  String.intercalate_singleton

theorem joinLines_append_singleton {lines : List String} (h : lines ≠ []) (line : String) :
    joinLines (lines ++ [line]) = joinLines lines ++ " " ++ trimEnd line := by
  rw [joinLines, List.map_append, String.intercalate_append_of_ne_nil (by simpa using h) (by simp),
    List.map_singleton, String.intercalate_singleton, joinLines]

/-- The words of the first line are among those of the whole text. -/
theorem wordChars_joinLines_cons (first : String) (more : List String) :
    ∃ cs, wordChars (joinLines (first :: more)) = wordChars first ++ cs := by
  cases more with
  | nil => exact ⟨[], by rw [joinLines_singleton, wordChars_trimEnd, List.append_nil]⟩
  | cons next more =>
    refine ⟨wordChars (" " ++ joinLines (next :: more)), ?_⟩
    rw [joinLines, List.map_cons, List.map_cons, String.intercalate_cons_cons, String.append_assoc,
      wordChars_append, wordChars_trimEnd, ← List.map_cons, ← joinLines]

/-- A text that starts with a line that is not blank is not blank. -/
theorem isEmpty_trim_joinLines {first : String} (h : (trim first).isEmpty = false)
    (more : List String) : (trim (joinLines (first :: more))).isEmpty = false := by
  rw [Bool.eq_false_iff, ne_eq, isEmpty_trim_iff] at h ⊢
  obtain ⟨cs, hcs⟩ := wordChars_joinLines_cons first more
  rw [hcs]
  exact fun hnil => h (List.append_eq_nil_iff.mp hnil).1

/-! ## Stretches that fit -/

namespace Stretch

theorem lines_ne_nil (s : Stretch) : s.lines ≠ [] := by
  cases s <;> exact List.cons_ne_nil _ _

theorem isUnfinished_gap {line : String} (h : (gap line).Fits) :
    (gap line).isUnfinished = false := by
  rw [isUnfinished, lines, joinLines_singleton, isUnfinished_trimEnd]
  exact isUnfinished_of_wordChars_eq_nil (isEmpty_trim_iff.mp h)

/-- In front of each of its later lines a stretch is unfinished. -/
theorem Fits.opens {s : Stretch} (h : s.Fits) {front : List String} (hfront : front <+: s.lines)
    (hnil : front ≠ []) (hne : front ≠ s.lines) :
    Lisplet.isUnfinished (joinLines front) = true := by
  cases s with
  | gap line =>
    obtain ⟨rest, hrest⟩ := hfront
    obtain ⟨rfl, -⟩ | ⟨hfront, -⟩ := List.append_eq_singleton_iff.mp hrest
    · exact absurd rfl hnil
    · exact absurd hfront hne
  | group first more => exact h.2 front hfront hnil hne

/-- A stretch is known by its lines. -/
theorem Fits.eq_of_lines_eq {s t : Stretch} (hs : s.Fits) (ht : t.Fits) (h : s.lines = t.lines) :
    s = t := by
  cases s with
  | gap line =>
    cases t with
    | gap line' => rw [List.singleton_inj.mp h]
    | group first more =>
      obtain ⟨rfl, -⟩ := List.cons.inj h
      exact absurd hs (Bool.eq_false_iff.mp ht.1)
  | group first more =>
    cases t with
    | gap line =>
      obtain ⟨rfl, -⟩ := List.cons.inj h
      exact absurd ht (Bool.eq_false_iff.mp hs.1)
    | group first' more' =>
      obtain ⟨rfl, rfl⟩ := List.cons.inj h
      rfl

/-- A line of its own is a stretch. -/
theorem fits_group_nil {line : String} (h : (trim line).isEmpty = false) :
    (group line []).Fits := by
  refine ⟨h, fun front hfront hnil hne => ?_⟩
  obtain ⟨rest, hrest⟩ := hfront
  obtain ⟨rfl, -⟩ | ⟨rfl, -⟩ := List.append_eq_singleton_iff.mp hrest
  · exact absurd rfl hnil
  · exact absurd rfl hne

/-- A line goes on with an unfinished group. -/
theorem Fits.append_line {first : String} {more : List String} (h : (group first more).Fits)
    (hopen : (group first more).isUnfinished = true) (line : String) :
    (group first (more ++ [line])).Fits := by
  refine ⟨h.1, fun front hfront hnil hne => ?_⟩
  rw [← List.cons_append] at hfront hne
  obtain hwhole | hfront := List.prefix_concat_iff.mp hfront
  · exact absurd hwhole hne
  · by_cases heq : front = first :: more
    · rw [heq]
      exact hopen
    · exact h.2 front hfront hnil heq

end Stretch

/-! ## There is one segmentation -/

namespace Segmentation

variable {lines : List String} {s t : Stretch} {stretches stretches' : List Stretch}
  {unfinished unfinished' : Bool}

theorem nil : Segmentation [] [] false := ⟨rfl, by simp, by simp, rfl⟩

/-- A stretch behind which lines remain is finished. -/
theorem tail (h : Segmentation lines (s :: stretches) unfinished) (hne : stretches ≠ []) :
    s.isUnfinished = false ∧
      Segmentation (stretches.flatMap Stretch.lines) stretches unfinished := by
  obtain ⟨-, hfits, hcloses, hlast⟩ := h
  rw [List.dropLast_cons_of_ne_nil hne] at hcloses
  obtain ⟨hs, hcloses⟩ := List.forall_mem_cons.mp hcloses
  refine ⟨hs, rfl, (List.forall_mem_cons.mp hfits).2, hcloses, ?_⟩
  rwa [List.getLast?_cons_of_ne_nil hne] at hlast

/-- The first stretch ends where it is finished, so it is no shorter than any other that fits. -/
theorem lines_eq_of_isPrefix (h : Segmentation lines (s :: stretches) unfinished) (ht : t.Fits)
    (hlines : t.lines <+: lines) (hfront : s.lines <+: t.lines) : s.lines = t.lines := by
  by_contra hne
  have hopen : s.isUnfinished = true := ht.opens hfront s.lines_ne_nil hne
  have hnil : stretches = [] := by
    by_contra hmore
    simp [(h.tail hmore).1] at hopen
  have hcovers := h.covers
  rw [hnil, List.flatMap_singleton] at hcovers
  rw [← hcovers] at hlines
  exact hne (hfront.eq_of_length_le hlines.length_le)

theorem head_eq (h : Segmentation lines (s :: stretches) unfinished)
    (h' : Segmentation lines (t :: stretches') unfinished') : s = t := by
  have hs := h.fits s List.mem_cons_self
  have ht := h'.fits t List.mem_cons_self
  have hfront : s.lines <+: lines := ⟨_, h.covers⟩
  have hfront' : t.lines <+: lines := ⟨_, h'.covers⟩
  obtain hle | hle := List.prefix_or_prefix_of_prefix hfront hfront'
  · exact hs.eq_of_lines_eq ht (h.lines_eq_of_isPrefix ht hfront' hle)
  · exact hs.eq_of_lines_eq ht (h'.lines_eq_of_isPrefix hs hfront hle).symm

/-- **There is only one segmentation of lines.** -/
theorem unique (h : Segmentation lines stretches unfinished)
    (h' : Segmentation lines stretches' unfinished') :
    stretches = stretches' ∧ unfinished = unfinished' := by
  suffices heq : stretches = stretches' from ⟨heq, by rw [h.last, h'.last, heq]⟩
  induction stretches generalizing lines stretches' with
  | nil =>
    cases stretches' with
    | nil => rfl
    | cons t rest' =>
      have hcovers := h'.covers
      rw [← h.covers] at hcovers
      exact absurd (List.append_eq_nil_iff.mp hcovers).1 t.lines_ne_nil
  | cons s rest ih =>
    cases stretches' with
    | nil =>
      have hcovers := h.covers
      rw [← h'.covers] at hcovers
      exact absurd (List.append_eq_nil_iff.mp hcovers).1 s.lines_ne_nil
    | cons t rest' =>
      obtain rfl := h.head_eq h'
      have hrest : rest.flatMap Stretch.lines = rest'.flatMap Stretch.lines :=
        List.append_cancel_left (h.covers.trans h'.covers.symm)
      by_cases hnil : rest = []
      · subst hnil
        cases rest' with
        | nil => rfl
        | cons t' _ => exact absurd (List.append_eq_nil_iff.mp hrest.symm).1 t'.lines_ne_nil
      · have hnil' : rest' ≠ [] := by
          rintro rfl
          obtain ⟨s', rest, rfl⟩ := List.exists_cons_of_ne_nil hnil
          exact absurd (List.append_eq_nil_iff.mp hrest).1 s'.lines_ne_nil
        rw [ih (h.tail hnil).2 (hrest ▸ (h'.tail hnil').2)]

/-- A stretch that fits goes on with lines that are finished. -/
theorem append_stretch (h : Segmentation lines stretches false) (hs : s.Fits) :
    Segmentation (lines ++ s.lines) (stretches ++ [s]) s.isUnfinished where
  covers := by rw [List.flatMap_append, List.flatMap_singleton, h.covers]
  fits t ht := by
    obtain ht | ht := List.mem_append.mp ht
    · exact h.fits t ht
    · rwa [List.mem_singleton.mp ht]
  closes t ht := by
    rw [List.dropLast_concat] at ht
    by_cases hmem : t ∈ stretches.dropLast
    · exact h.closes t hmem
    · -- The stretch that was last is finished, as the lines are.
      have hne := List.ne_nil_of_mem ht
      rw [← List.dropLast_concat_getLast hne] at ht
      obtain rfl := List.mem_singleton.mp ((List.mem_append.mp ht).resolve_left hmem)
      simpa [List.getLast?_eq_some_getLast hne] using h.last.symm
  last := by rw [List.getLast?_concat, Option.any_some]

/-- Unfinished lines end in a group, which is unfinished, with finished lines in front of it. -/
theorem exists_group (h : Segmentation lines stretches true) :
    ∃ front first more, stretches = front ++ [.group first more] ∧
      (Stretch.group first more).isUnfinished = true ∧
      Segmentation (front.flatMap Stretch.lines) front false := by
  obtain ⟨hcovers, hfits, hcloses, hlast⟩ := h
  obtain rfl | ⟨front, s, rfl⟩ := List.eq_nil_or_concat' stretches
  · simp at hlast
  rw [List.getLast?_concat, Option.any_some] at hlast
  rw [List.dropLast_concat] at hcloses
  have hs := hfits s List.mem_concat_self
  cases s with
  | gap line => simp [Stretch.isUnfinished_gap hs] at hlast
  | group first more =>
    refine ⟨front, first, more, rfl, hlast.symm, rfl, fun t ht =>
      hfits t (List.mem_append_left _ ht), fun t ht =>
      hcloses t (List.dropLast_subset front ht), ?_⟩
    cases hback : front.getLast? with
    | none => rfl
    | some t => simp [hcloses t (List.mem_of_getLast? hback)]

end Segmentation

/-! ## The entries of a segmentation -/

theorem entriesFrom_append (number : Int) (stretches stretches' : List Stretch) :
    entriesFrom number (stretches ++ stretches') = entriesFrom number stretches ++
      entriesFrom (number + (stretches.flatMap Stretch.lines).length) stretches' := by
  induction stretches generalizing number with
  | nil => simp [entriesFrom]
  | cons s rest ih =>
    rw [List.flatMap_cons, List.length_append, Int.natCast_add, ← Int.add_assoc, List.cons_append]
    cases s with
    | gap line => exact ih (number + 1)
    | group first more => exact congrArg (List.cons _) (ih _)

theorem le_number_of_mem_entriesFrom {number : Int} {stretches : List Stretch} {entry : Entry}
    (h : entry ∈ entriesFrom number stretches) : number ≤ entry.number := by
  fun_induction entriesFrom number stretches with
  | case1 => simp at h
  | case2 number line rest ih =>
    have := ih h
    omega
  | case3 number first more rest ih =>
    obtain rfl | h := List.mem_cons.mp h
    · exact Int.le_refl _
    · have := ih h
      omega

/-- **The numbers of entries increase.** -/
theorem pairwise_number_entriesFrom (number : Int) (stretches : List Stretch) :
    (entriesFrom number stretches).Pairwise fun a b => a.number < b.number := by
  fun_induction entriesFrom number stretches with
  | case1 => exact .nil
  | case2 number line rest ih => exact ih
  | case3 number first more rest ih =>
    refine .cons (fun entry hentry => ?_) ih
    have := le_number_of_mem_entriesFrom hentry
    rw [List.length_cons] at this
    dsimp only
    omega

/-! ## Gathering finds the segmentation -/

/-- **What gathering comes to for lines**: the entries of their segmentation. -/
def Gathered (lines : List String) (g : Gathering) : Prop :=
  ∃ stretches, Segmentation lines stretches g.unfinished ∧ g.inOrder = entriesFrom 1 stretches

theorem Gathered.nil : Gathered [] ⟨[], false⟩ := ⟨[], .nil, rfl⟩

theorem push_of_isEmpty {text : String} (h : (trim text).isEmpty = true) (entries : List Entry)
    (number : Int) : push entries ⟨text, number⟩ = ⟨entries, false⟩ := by
  rw [push, if_pos h, isUnfinished_of_wordChars_eq_nil (isEmpty_trim_iff.mp h)]

theorem push_of_not_isEmpty {text : String} (h : (trim text).isEmpty = false)
    (entries : List Entry) (number : Int) :
    push entries ⟨text, number⟩ = ⟨⟨text, number⟩ :: entries, isUnfinished text⟩ := by
  rw [push, if_neg (Bool.eq_false_iff.mp h)]

theorem unfinished_push (entries : List Entry) (text : String) (number : Int) :
    (push entries ⟨text, number⟩).unfinished = isUnfinished text := rfl

theorem inOrder_push {text : String} (h : (trim text).isEmpty = false) (entries : List Entry)
    (number : Int) :
    (push entries ⟨text, number⟩).inOrder = entries.reverse ++ [⟨text, number⟩] := by
  rw [push_of_not_isEmpty h, inOrder, List.reverse_cons]

theorem feed_of_finished {g : Gathering} (h : g.unfinished = false) (line : String) (number : Int) :
    g.feed line number = some (trimEnd line, push g.entries ⟨trimEnd line, number⟩) := by
  rw [feed, h, if_neg Bool.false_ne_true]

theorem feed_of_unfinished {g : Gathering} (h : g.unfinished = true) {newest : Entry}
    {older : List Entry} (hentries : g.entries = newest :: older) (line : String) (number : Int) :
    g.feed line number = some (newest.text ++ " " ++ trimEnd line,
      push older ⟨newest.text ++ " " ++ trimEnd line, newest.number⟩) := by
  rw [feed, h, if_pos rfl, hentries]

/-- Behind finished lines a line is a gap or starts a group. -/
theorem Gathered.push_line {lines : List String} {g : Gathering} (h : Gathered lines g)
    (hg : g.unfinished = false) (line : String) :
    Gathered (lines ++ [line]) (push g.entries ⟨trimEnd line, lines.length + 1⟩) := by
  obtain ⟨stretches, hsegments, hentries⟩ := h
  rw [hg] at hsegments
  have hnumber : (1 : Int) + (stretches.flatMap Stretch.lines).length = lines.length + 1 := by
    rw [hsegments.covers, Int.add_comm]
  have hsegment (s : Stretch) (hs : s.Fits) (hlines : s.lines = [line]) :
      Segmentation (lines ++ [line]) (stretches ++ [s]) (isUnfinished (trimEnd line)) := by
    have happend := hsegments.append_stretch hs
    rwa [Stretch.isUnfinished, hlines, joinLines_singleton] at happend
  cases hblank : (trim line).isEmpty with
  | true =>
    refine ⟨stretches ++ [.gap line], ?_, ?_⟩
    · rw [unfinished_push]
      exact hsegment (.gap line) hblank rfl
    · rw [push_of_isEmpty ((isEmpty_trim_trimEnd line).trans hblank), entriesFrom_append,
        entriesFrom, entriesFrom, List.append_nil]
      exact hentries
  | false =>
    refine ⟨stretches ++ [.group line []], ?_, ?_⟩
    · rw [unfinished_push]
      exact hsegment (.group line []) (Stretch.fits_group_nil hblank) rfl
    · rw [inOrder_push ((isEmpty_trim_trimEnd line).trans hblank), entriesFrom_append, entriesFrom,
        entriesFrom, hnumber, joinLines_singleton, ← hentries, inOrder]

/-- An unfinished group goes on with the next line, whatever that is. -/
theorem Gathered.join_line {lines : List String} {g : Gathering} (h : Gathered lines g)
    (hg : g.unfinished = true) (line : String) : ∃ newest older,
      g.entries = newest :: older ∧ Gathered (lines ++ [line])
        (push older ⟨newest.text ++ " " ++ trimEnd line, newest.number⟩) := by
  obtain ⟨stretches, hsegments, hentries⟩ := h
  rw [hg] at hsegments
  obtain ⟨front, first, more, rfl, hopen, hfront⟩ := hsegments.exists_group
  have hgroup := hsegments.fits _ List.mem_concat_self
  have hfits := hgroup.append_line hopen line
  have hcovers := hsegments.covers
  rw [List.flatMap_append, List.flatMap_singleton] at hcovers
  have htext : joinLines (first :: (more ++ [line])) =
      joinLines (first :: more) ++ " " ++ trimEnd line :=
    joinLines_append_singleton (List.cons_ne_nil first more) line
  rw [entriesFrom_append, entriesFrom, entriesFrom, inOrder] at hentries
  obtain ⟨newest, hnewest⟩ : ∃ newest : Entry, newest =
    ⟨joinLines (first :: more), 1 + (front.flatMap Stretch.lines).length⟩ := ⟨_, rfl⟩
  rw [← hnewest] at hentries
  have hblank : (trim (newest.text ++ " " ++ trimEnd line)).isEmpty = false := by
    rw [hnewest, ← htext]
    exact isEmpty_trim_joinLines hgroup.1 _
  refine ⟨newest, (entriesFrom 1 front).reverse, ?_,
    front ++ [.group first (more ++ [line])], ?_, ?_⟩
  · rw [← List.reverse_reverse g.entries, hentries, List.reverse_append, List.reverse_singleton,
      List.singleton_append]
  · have happend := hfront.append_stretch hfits
    rw [Stretch.isUnfinished, Stretch.lines, htext, ← List.cons_append,
      ← List.append_assoc] at happend
    rw [unfinished_push, hnewest, ← hcovers]
    exact happend
  · rw [inOrder_push hblank, entriesFrom_append, entriesFrom, entriesFrom, htext,
      List.reverse_reverse, hnewest]

/-- **Taking in one more line** never fails, and finds the segmentation of the lines with it. -/
theorem Gathered.feed {lines : List String} {g : Gathering} (h : Gathered lines g)
    (line : String) : ∃ text next, g.feed line (lines.length + 1) = some (text, next) ∧
      Gathered (lines ++ [line]) next := by
  cases hg : g.unfinished with
  | false => exact ⟨_, _, feed_of_finished hg _ _, h.push_line hg line⟩
  | true =>
    obtain ⟨newest, older, hentries, hnext⟩ := h.join_line hg line
    exact ⟨_, _, feed_of_unfinished hg hentries _ _, hnext⟩

/-- **Taking in lines** never fails, and finds the segmentation of all of them. -/
theorem Gathered.feedAll {lines : List String} {g : Gathering} (h : Gathered lines g)
    (more : List String) :
    ∃ next, g.feedAll (lines.length + 1) more = some next ∧ Gathered (lines ++ more) next := by
  induction more generalizing lines g with
  | nil => exact ⟨g, rfl, by rwa [List.append_nil]⟩
  | cons line more ih =>
    obtain ⟨text, next, hfeed, hnext⟩ := h.feed line
    obtain ⟨last, hall, hlast⟩ := ih hnext
    rw [List.length_append, List.length_singleton, Int.natCast_add] at hall
    refine ⟨last, ?_, by rwa [List.append_assoc] at hlast⟩
    simp only [Gathering.feedAll, hfeed]
    exact hall

end Gathering

/-! ## Loading a file -/

namespace Session

/-- **A file is loaded as the entries of its lines**, unless the last of them is unfinished. -/
theorem load_of_decode {path : String} {bytes : List UInt8} {cs : List Char} {g : Gathering}
    (hpath : '\x00' ∉ path.toList) (hdecode : Utf8.decode bytes = .ok cs)
    (hg : (Gathering.mk [] false).feedAll 1 (fileLines cs) = some g) :
    load path (some bytes) =
      if g.unfinished then .error (Fault.unfinished path).incident else .ok g.inOrder := by
  rw [load, if_neg (by simpa using hpath)]
  simp only [entriesOf, hdecode, hg]

/-- A file whose entries are finished waits for them. -/
theorem ofFile_of_load {path : String} {bytes : Option (List UInt8)} {entries : List Entry}
    (hpath : path ≠ typedPath) (h : load path bytes = .ok entries) (reporter : Reporter)
    (asTyped showTree : Bool) :
    ∃ s, ofFile reporter path bytes asTyped showTree = .ok s ∧ s.waiting = entries := by
  simp only [ofFile, if_neg hpath, h]
  exact ⟨_, rfl, rfl⟩

theorem ofFile_of_load_error {path : String} {bytes : Option (List UInt8)} {incident : Incident}
    (hpath : path ≠ typedPath) (h : load path bytes = .error incident) (reporter : Reporter)
    (asTyped showTree : Bool) : ofFile reporter path bytes asTyped showTree = .error incident := by
  simp only [ofFile, if_neg hpath, h]

end Session

/-- A file that is at fault when it is loaded is not run; there is only a report. -/
theorem Program.runFile_of_ofFile_error {style : Style} {path : String}
    {bytes : Option (List UInt8)} {tree : Bool} {fault : Fault}
    (h : Session.ofFile (reporter style) path bytes false tree = .error fault.incident) :
    runFile style path bytes tree =
      (((reporter style).addFile path).reportText fault.diagnostic, .exit 1) := by
  have hfatal : ((reporter style).addFile path).fatal = true := rfl
  simp only [runFile, h, Fault.incident, Reporter.settle, Reporter.report, hfatal, if_true,
    endingOf]

/-- A file that ends inside an entry is one of those. -/
theorem Program.runFile_of_load {path : String} {bytes : Option (List UInt8)} {fault : Fault}
    (hpath : path ≠ typedPath) (h : Session.load path bytes = .error fault.incident)
    (style : Style) (tree : Bool) : runFile style path bytes tree =
      (((reporter style).addFile path).reportText fault.diagnostic, .exit 1) :=
  runFile_of_ofFile_error (Session.ofFile_of_load_error hpath h (reporter style) false tree)

/-- **The entries of a file partition its lines.**  Gathering lines never fails and finds their
segmentation, the only one there is, with an entry for each of its groups and increasing numbers.
A file of these lines is loaded as those entries, unless it ends inside the last group; then loading
it is at fault, and all that a run of it does is to say so. -/
theorem entries_segment_lines (lines : List String) :
    ∃ g stretches, (Gathering.mk [] false).feedAll 1 lines = some g ∧
      Gathering.Segmentation lines stretches g.unfinished ∧
      (∀ stretches' unfinished', Gathering.Segmentation lines stretches' unfinished' →
        stretches' = stretches ∧ unfinished' = g.unfinished) ∧
      g.inOrder = Gathering.entriesFrom 1 stretches ∧
      (g.inOrder.Pairwise fun a b => a.number < b.number) ∧
      ∀ (path : String) (bytes : List UInt8) (cs : List Char), path ≠ typedPath →
        '\x00' ∉ path.toList → Utf8.decode bytes = .ok cs → fileLines cs = lines →
        (g.unfinished = false → ∀ reporter asTyped tree, ∃ s,
          Session.ofFile reporter path (some bytes) asTyped tree = .ok s ∧
            s.waiting = g.inOrder) ∧
        (g.unfinished = true →
          (∀ reporter asTyped tree, Session.ofFile reporter path (some bytes) asTyped tree =
            .error (Fault.unfinished path).incident) ∧
          (∀ style tree, Program.runFile style path (some bytes) tree =
            (((Program.reporter style).addFile path).reportText (Fault.unfinished path).diagnostic,
              .exit 1)) ∧
          (Fault.unfinished path).message.text =
            "'" ++ path ++ "' ends inside an unclosed list") := by
  obtain ⟨g, hg, stretches, hsegments, hentries⟩ := Gathering.Gathered.nil.feedAll lines
  refine ⟨g, stretches, hg, hsegments, fun _ _ h => h.unique hsegments, hentries,
    hentries ▸ Gathering.pairwise_number_entriesFrom 1 stretches,
    fun path bytes cs hpath hzero hdecode hlines => ?_⟩
  subst hlines
  have hload := Session.load_of_decode hzero hdecode hg
  refine ⟨fun hfinished reporter asTyped tree => ?_, fun hunfinished => ?_⟩
  · rw [hfinished, if_neg Bool.false_ne_true] at hload
    exact Session.ofFile_of_load hpath hload reporter asTyped tree
  · rw [hunfinished, if_pos rfl] at hload
    refine ⟨Session.ofFile_of_load_error hpath hload, Program.runFile_of_load hpath hload, ?_⟩
    simp [Fault.message, Message.text, Message.render, String.append_assoc]

/-- The lines `(f`, an empty one, `x)`, another empty one and `(g`: the first empty line is inside
an entry and the second is not, and the last line is never finished. -/
theorem entries_segment_lines_gap :
    let bytes := "(f\n\nx)\n\n(g\n".toList.map fun c => c.toNat.toUInt8
    (∃ stretches, Gathering.Segmentation ["(f", "", "x)", "", "(g"] stretches true ∧
      Gathering.entriesFrom 1 stretches = [⟨"(f  x)", 1⟩, ⟨"(g", 5⟩]) ∧
    Session.ofFile (Program.reporter .plain) "p" (some bytes) false false =
      .error (Fault.unfinished "p").incident ∧
    Program.runFile .plain "p" (some bytes) false =
      ("error: 'p' ends inside an unclosed list\n", .exit 1) := by
  intro bytes
  obtain ⟨g, stretches, hg, hsegments, -, hentries, -, hfile⟩ :=
    entries_segment_lines ["(f", "", "x)", "", "(g"]
  have hgathered : (Gathering.mk [] false).feedAll 1 ["(f", "", "x)", "", "(g"] =
      some ⟨[⟨"(g", 5⟩, ⟨"(f  x)", 1⟩], true⟩ := by decide +kernel
  obtain rfl := Option.some.inj (hg.symm.trans hgathered)
  have hdecode : Utf8.decode bytes = .ok "(f\n\nx)\n\n(g\n".toList := by decide +kernel
  have hlines : fileLines "(f\n\nx)\n\n(g\n".toList = ["(f", "", "x)", "", "(g"] := by
    decide +kernel
  obtain ⟨hload, hrun, -⟩ := (hfile "p" bytes _ (by decide) (by decide) hdecode hlines).2 rfl
  have hreport : ((Program.reporter .plain).addFile "p").reportText
      (Fault.unfinished "p").diagnostic = "error: 'p' ends inside an unclosed list\n" := by
    decide +kernel
  refine ⟨⟨stretches, hsegments, hentries.symm⟩, hload _ _ _, ?_⟩
  rw [hrun, hreport]

end Lisplet
