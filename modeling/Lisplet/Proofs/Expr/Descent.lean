import Lisplet.Expr.Position
import Lisplet.Proofs.Expr.Refusal

/-!
# Proofs/Expr/Descent — the parser at a position

At a position among tokens an expression is an atom or a list, and a list is one expression after
another up to its closing parenthesis.  These rules call one another and never come back to a
position (`ReadsOne`, `ReadsRest`), and what they derive is what the parser answers, although it
goes over the tokens once and keeps the open lists aside (`readsOne_and_readsRest`).  The rules for
expressions have none for the end of the tokens, where the parser answers the empty list.  What is
read is told by the tokens between the two positions and by nothing around them
(`reading_is_local`).
-/

namespace Lisplet.Expr

/-! ## Recursive descent -/

mutual

/-- **The rules for an expression at a position**: what it is with the position behind it, or the
fault. -/
inductive ReadsOne (ts : List Token) : Nat → Except Fault (Expr × Nat) → Prop
  | number {position : Nat} {x : Float} : ts[position]? = some (.number x) →
      ReadsOne ts position (.ok (.number x, position + 1))
  | symbol {position : Nat} {name : String} : ts[position]? = some (.symbol name) →
      ReadsOne ts position (.ok (.symbol name, position + 1))
  | list {position : Nat} {result : Except Fault (Expr × Nat)} : ts[position]? = some .lparen →
      ReadsRest ts [] (position + 1) result → ReadsOne ts position result
  | stray {position : Nat} : ts[position]? = some .rparen →
      ReadsOne ts position (.error .strayClose)
  | string {position : Nat} {value : String} : ts[position]? = some (.string value) →
      ReadsOne ts position (.error (.stringToken value))
  | finish {position : Nat} : ts[position]? = some .finish →
      ReadsOne ts position (.error .finishToken)

/-- **The rules for the rest of a list at a position**, where it has some elements already: it is
closed there, or its next element is read there and its rest behind that. -/
inductive ReadsRest (ts : List Token) : List Expr → Nat → Except Fault (Expr × Nat) → Prop
  | ended {es : List Expr} {position : Nat} : ts.length ≤ position →
      ReadsRest ts es position (.error .openList)
  | closed {es : List Expr} {position : Nat} : ts[position]? = some .rparen →
      ReadsRest ts es position (.ok (.list es, position + 1))
  | fault {es : List Expr} {position : Nat} {t : Token} {fault : Fault} :
      ts[position]? = some t → t ≠ .rparen → ReadsOne ts position (.error fault) →
      ReadsRest ts es position (.error fault)
  | element {es : List Expr} {position next : Nat} {t : Token} {e : Expr}
      {result : Except Fault (Expr × Nat)} : ts[position]? = some t → t ≠ .rparen →
      ReadsOne ts position (.ok (e, next)) → ReadsRest ts (es ++ [e]) next result →
      ReadsRest ts es position result

end

/-- No rule reads an expression at the end of the tokens. -/
theorem ReadsOne.lt_length {ts : List Token} {position : Nat} {result : Except Fault (Expr × Nat)}
    (h : ReadsOne ts position result) : position < ts.length := by
  cases h with
  | number h | symbol h | list h | stray h | string h | finish h =>
    exact (List.getElem?_eq_some_iff.mp h).1

/-! ## A list inside a list -/

/-- Lists that are open around others wait until these are read. -/
theorem readOpen_append (inner next : List Expr) (outer outer' : List (List Expr))
    (ts : List Token) :
    readOpen inner (outer ++ next :: outer') ts =
      readOpen inner outer ts >>= fun (e, rest) => readOpen (e :: next) outer' rest := by
  fun_induction readOpen inner outer ts with
  | case1 | case7 | case8 => rfl
  | case2 _ _ _ ih | case4 _ _ _ _ ih | case5 _ _ _ _ ih | case6 _ _ _ _ ih => exact ih
  | case3 => rfl

/-- **The next element of a list is read as an expression on its own.** -/
theorem readOpen_cons {t : Token} (ht : t ≠ .rparen) (inner : List Expr) (ts : List Token) :
    readOpen inner [] (t :: ts) =
      readOne (t :: ts) >>= fun (e, rest) => readOpen (e :: inner) [] rest := by
  cases t with
  | lparen => exact readOpen_append [] inner [] [] ts
  | rparen => exact absurd rfl ht
  | number | symbol | string | finish => rfl

/-- What is left behind a list is the end of what was there. -/
theorem suffix_of_readOpen {inner : List Expr} {outer : List (List Expr)} {ts rest : List Token}
    {e : Expr} (h : readOpen inner outer ts = .ok (e, rest)) : rest <:+ ts := by
  fun_induction readOpen inner outer ts with
  | case1 | case7 | case8 => cases h
  | case3 inner ts =>
    obtain ⟨rfl, rfl⟩ := Prod.mk.inj (Except.ok.inj h)
    exact List.suffix_cons ..
  | case2 _ _ _ ih | case4 _ _ _ _ ih | case5 _ _ _ _ ih | case6 _ _ _ _ ih =>
    exact (ih h).trans (List.suffix_cons ..)

/-- What is left behind an expression is the end of what was there behind its first token. -/
theorem suffix_of_readOne {t : Token} {ts rest : List Token} {e : Expr}
    (h : readOne (t :: ts) = .ok (e, rest)) : rest <:+ ts := by
  cases t with
  | lparen => exact suffix_of_readOpen h
  | number | symbol =>
    obtain ⟨rfl, rfl⟩ := Prod.mk.inj (Except.ok.inj h)
    exact List.suffix_rfl
  | rparen | string | finish => cases h

/-! ## The parser at a position

Behind what is read stands what is left, so its position is told by the length of that, wherever
the reading started (`place`). -/

/-- The rest of a list at a position, where it has some elements already. -/
def readRestAt (ts : List Token) (es : List Expr) (position : Nat) : Except Fault (Expr × Nat) :=
  (readOpen es.reverse [] (ts.drop position)).map fun (e, rest) =>
    (e, positionAfter ts position rest)

theorem readRestAt_of_le {ts : List Token} {position : Nat} (h : ts.length ≤ position)
    (es : List Expr) : readRestAt ts es position = .error .openList := by
  rw [readRestAt, List.drop_of_length_le h]
  rfl

theorem readOneAt_of_le {ts : List Token} {position : Nat} (h : ts.length ≤ position) :
    readOneAt ts position = .ok (.list [], position) := by
  simp [readOneAt, readOne, Except.map, positionAfter, List.drop_of_length_le h]

/-- What is read and the position of what is left. -/
def place (ts : List Token) : Expr × List Token → Expr × Nat
  | (e, rest) => (e, ts.length - rest.length)

/-- Reading from a position on, by what is left. -/
theorem map_place {ts : List Token} {position : Nat} (hle : position ≤ ts.length)
    {result : Except Fault (Expr × List Token)}
    (h : ∀ e rest, result = .ok (e, rest) → rest <:+ ts.drop position) :
    (result.map fun (e, rest) => (e, positionAfter ts position rest)) = result.map (place ts) := by
  cases result with
  | error fault => rfl
  | ok read =>
    obtain ⟨e, rest⟩ := read
    have hlength : rest.length ≤ ts.length - position := by
      simpa using (h e rest rfl).length_le
    have hposition : positionAfter ts position rest = ts.length - rest.length := by
      rw [positionAfter, List.length_drop]
      omega
    simp only [Except.map, place, hposition]

theorem readRestAt_eq_place {ts : List Token} {position : Nat} (hle : position ≤ ts.length)
    (es : List Expr) :
    readRestAt ts es position = (readOpen es.reverse [] (ts.drop position)).map (place ts) :=
  map_place hle fun _ _ => suffix_of_readOpen

section At

variable {ts : List Token} {position : Nat} {t : Token} (hat : ts[position]? = some t)

include hat

theorem readOneAt_eq_place : readOneAt ts position =
    (readOne (t :: ts.drop (position + 1))).map (place ts) := by
  have hlt := (List.getElem?_eq_some_iff.mp hat).1
  rw [readOneAt, drop_of_getElem? hat]
  refine map_place (Nat.le_of_lt hlt) fun e rest h => ?_
  rw [drop_of_getElem? hat]
  exact (suffix_of_readOne h).trans (List.suffix_cons ..)

/-- An atom takes one token. -/
theorem readOneAt_of_atom {e : Expr} (h : ∀ rest, readOne (t :: rest) = .ok (e, rest)) :
    readOneAt ts position = .ok (e, position + 1) := by
  have hlt := (List.getElem?_eq_some_iff.mp hat).1
  rw [readOneAt_eq_place hat, h, Except.map, place, List.length_drop]
  congr 2
  omega

theorem readOneAt_of_error {fault : Fault} (h : ∀ rest, readOne (t :: rest) = .error fault) :
    readOneAt ts position = .error fault := by
  rw [readOneAt_eq_place hat, h, Except.map]

/-- Behind an opening parenthesis stands the rest of a list. -/
theorem readOneAt_of_lparen (ht : t = .lparen) :
    readOneAt ts position = readRestAt ts [] (position + 1) := by
  have hlt := (List.getElem?_eq_some_iff.mp hat).1
  rw [readOneAt_eq_place hat, readRestAt_eq_place hlt, ht]
  rfl

theorem readRestAt_of_rparen (ht : t = .rparen) (es : List Expr) :
    readRestAt ts es position = .ok (.list es, position + 1) := by
  have hlt := (List.getElem?_eq_some_iff.mp hat).1
  rw [readRestAt_eq_place (Nat.le_of_lt hlt), drop_of_getElem? hat, ht, readOpen, List.reverse_reverse,
    Except.map, place, List.length_drop]
  congr 2
  omega

/-- **Reading advances**, and leaves off among the tokens or at their end. -/
theorem lt_of_readOneAt {e : Expr} {next : Nat} (h : readOneAt ts position = .ok (e, next)) :
    position < next ∧ next ≤ ts.length := by
  have hlt := (List.getElem?_eq_some_iff.mp hat).1
  rw [readOneAt_eq_place hat] at h
  cases hread : readOne (t :: ts.drop (position + 1)) with
  | error fault => rw [hread] at h; cases h
  | ok read =>
    rw [hread] at h
    obtain ⟨rfl, rfl⟩ := Prod.mk.inj (Except.ok.inj h)
    have hlength := (suffix_of_readOne hread).length_le
    rw [List.length_drop] at hlength
    omega

/-- **The next element of a list is read at the position, and the rest of the list behind it.** -/
theorem readRestAt_of_ne (ht : t ≠ .rparen) (es : List Expr) : readRestAt ts es position =
    readOneAt ts position >>= fun (e, next) => readRestAt ts (es ++ [e]) next := by
  have hlt := (List.getElem?_eq_some_iff.mp hat).1
  rw [readRestAt_eq_place (Nat.le_of_lt hlt), readOneAt_eq_place hat, drop_of_getElem? hat,
    readOpen_cons ht]
  cases hread : readOne (t :: ts.drop (position + 1)) with
  | error fault => rfl
  | ok read =>
    obtain ⟨e, rest⟩ := read
    have hrest : rest <:+ ts := (suffix_of_readOne hread).trans (List.drop_suffix ..)
    have hplace := readRestAt_eq_place (Nat.sub_le ts.length rest.length) (es ++ [e])
    rw [← List.suffix_iff_eq_drop.mp hrest, List.reverse_concat] at hplace
    exact hplace.symm

end At

/-! ## The parser follows the rules -/

/-- **What the parser answers is derived by the rules**, at every position. -/
theorem readsOne_and_readsRest (ts : List Token) (position : Nat) :
    (position < ts.length → ReadsOne ts position (readOneAt ts position)) ∧
      ∀ es, ReadsRest ts es position (readRestAt ts es position) := by
  -- The rules call one another at positions further on, of which there are finitely many.
  induction hleft : ts.length - position using Nat.strongRecOn generalizing position with
  | ind left ih =>
    have hone : position < ts.length → ReadsOne ts position (readOneAt ts position) := by
      intro hlt
      have hat := List.getElem?_eq_getElem hlt
      generalize ts[position] = t at hat
      cases t with
      | number => rw [readOneAt_of_atom hat fun _ => rfl]; exact .number hat
      | symbol => rw [readOneAt_of_atom hat fun _ => rfl]; exact .symbol hat
      | rparen => rw [readOneAt_of_error hat fun _ => rfl]; exact .stray hat
      | string => rw [readOneAt_of_error hat fun _ => rfl]; exact .string hat
      | finish => rw [readOneAt_of_error hat fun _ => rfl]; exact .finish hat
      | lparen =>
        rw [readOneAt_of_lparen hat rfl]
        exact .list hat ((ih _ (by omega) (position + 1) rfl).2 [])
    refine ⟨hone, fun es => ?_⟩
    rcases Nat.lt_or_ge position ts.length with hlt | hge
    · have hat := List.getElem?_eq_getElem hlt
      by_cases ht : ts[position] = .rparen
      · rw [readRestAt_of_rparen hat ht]
        exact .closed (ht ▸ hat)
      · have hderived := hone hlt
        rw [readRestAt_of_ne hat ht]
        cases hread : readOneAt ts position with
        | error fault => exact .fault hat ht (hread ▸ hderived)
        | ok read =>
          obtain ⟨hadvance, hinside⟩ := lt_of_readOneAt hat hread
          exact .element hat ht (hread ▸ hderived) ((ih _ (by omega) read.2 rfl).2 _)
    · rw [readRestAt_of_le hge]
      exact .ended hge

mutual

/-- What the rules derive is what the parser answers. -/
theorem ReadsOne.readOneAt_eq {ts : List Token} {position : Nat}
    {result : Except Fault (Expr × Nat)} :
    ReadsOne ts position result → readOneAt ts position = result
  | .number h | .symbol h => readOneAt_of_atom h fun _ => rfl
  | .list h hrest => (readOneAt_of_lparen h rfl).trans hrest.readRestAt_eq
  | .stray h | .string h | .finish h => readOneAt_of_error h fun _ => rfl

/-- What the rules derive of a list is what the parser answers. -/
theorem ReadsRest.readRestAt_eq {ts : List Token} {es : List Expr} {position : Nat}
    {result : Except Fault (Expr × Nat)} :
    ReadsRest ts es position result → readRestAt ts es position = result
  | .ended h => readRestAt_of_le h es
  | .closed h => readRestAt_of_rparen h rfl es
  | .fault h ht hone => by
    rw [readRestAt_of_ne h ht, hone.readOneAt_eq]
    rfl
  | .element h ht hone hrest => by
    rw [readRestAt_of_ne h ht, hone.readOneAt_eq]
    exact hrest.readRestAt_eq

end

/-! ## What is read is told by its own tokens -/

/-- **A reading is local**: it advances, leaves off among the tokens or at their end, and the tokens
that it takes are read the same way wherever they stand. -/
structure ReadsLocally (reader : List Token → Nat → Except Fault (Expr × Nat)) (ts : List Token)
    (position : Nat) (e : Expr) (next : Nat) : Prop where
  advances : position < next
  inside : next ≤ ts.length
  moved : ∀ before after : List Token,
    reader (before ++ (ts.drop position).take (next - position) ++ after) before.length =
      .ok (e, before.length + (next - position))

theorem IsSyntax.tokens_ne_nil {e : Expr} (h : e.IsSyntax) : e.tokens ≠ [] := by
  cases h <;> simp [tokens]

/-- The tokens of an expression are read as that, whatever is behind them. -/
theorem readOne_tokens_append {e : Expr} (he : e.IsSyntax) (after : List Token) :
    readOne (e.tokens ++ after) = .ok (e, after) :=
  readOne_append_of_ok he.tokens_ne_nil (readOne_of_ofTokens (ofTokens_tokens he)) after

section Local

variable {reader : List Token → Nat → Except Fault (Expr × Nat)}
  {read : List Token → Except Fault (Expr × List Token)} {ts : List Token} {position next : Nat}
  {e : Expr}

/-- What a reading at a position takes off what is left there. -/
theorem exists_rest_of_reader
    (hreader : ∀ ts position, reader ts position =
      (read (ts.drop position)).map fun (e, rest) => (e, positionAfter ts position rest))
    (h : reader ts position = .ok (e, next)) :
    ∃ rest, read (ts.drop position) = .ok (e, rest) ∧ next = positionAfter ts position rest := by
  rw [hreader] at h
  cases hread : read (ts.drop position) with
  | error fault => rw [hread] at h; cases h
  | ok result =>
    rw [hread] at h
    obtain ⟨rfl, rfl⟩ := Prod.mk.inj (Except.ok.inj h)
    exact ⟨result.2, rfl, rfl⟩

/-- A reading that does not look at what is behind the tokens it takes is local. -/
theorem readsLocally_of_append
    (hreader : ∀ ts position, reader ts position =
      (read (ts.drop position)).map fun (e, rest) => (e, positionAfter ts position rest))
    {used rest : List Token} (hused : used ≠ []) (hdrop : ts.drop position = used ++ rest)
    (hread : ∀ after, read (used ++ after) = .ok (e, after)) :
    ReadsLocally reader ts position e (positionAfter ts position rest) := by
  obtain ⟨hafter, -⟩ := positionAfter_of_append hdrop
  have hpos : 0 < used.length := List.length_pos_iff.mpr hused
  have hlength := congrArg List.length hdrop
  rw [List.length_drop, List.length_append] at hlength
  rw [hafter]
  refine ⟨by omega, by omega, fun before after => ?_⟩
  have htake : (ts.drop position).take (position + used.length - position) = used := by
    rw [hdrop, Nat.add_sub_cancel_left, List.take_left]
  have hmoved : (before ++ used ++ after).drop before.length = used ++ after := by
    rw [List.append_assoc, List.drop_left]
  rw [htake, hreader, hmoved, hread, Nat.add_sub_cancel_left]
  simp only [Except.map, (positionAfter_of_append hmoved).1]

end Local

/-- **An expression is told by its own tokens.** -/
theorem readsLocally_readOneAt {ts : List Token} {position next : Nat} {e : Expr}
    (hlt : position < ts.length) (h : readOneAt ts position = .ok (e, next)) :
    ReadsLocally readOneAt ts position e next := by
  obtain ⟨rest, hread, rfl⟩ := exists_rest_of_reader (fun _ _ => rfl) h
  obtain ⟨hnil, -⟩ | ⟨he, htokens⟩ := tokens_of_readOne hread
  · exact absurd (List.drop_eq_nil_iff.mp hnil) (Nat.not_le_of_lt hlt)
  · exact readsLocally_of_append (fun _ _ => rfl) he.tokens_ne_nil htokens (readOne_tokens_append he)

/-- **The rest of a list is told by its own tokens.** -/
theorem readsLocally_readListAt {ts : List Token} {position next : Nat} {e : Expr}
    (h : readListAt ts position = .ok (e, next)) :
    ReadsLocally readListAt ts position e next := by
  obtain ⟨rest, hread, rfl⟩ := exists_rest_of_reader (fun _ _ => rfl) h
  -- With its opening parenthesis in front the rest of a list is an expression.
  have hopened : readOne (.lparen :: ts.drop position) = .ok (e, rest) := hread
  obtain ⟨hnil, -⟩ | ⟨he, htokens⟩ := tokens_of_readOne hopened
  · cases hnil
  · have hread (after : List Token) : readOne (e.tokens ++ after) = .ok (e, after) :=
      readOne_tokens_append he after
    rcases hbody : e.tokens with - | ⟨t, body⟩
    · exact absurd hbody he.tokens_ne_nil
    rw [hbody] at htokens hread
    obtain ⟨rfl, hdrop⟩ := List.cons.inj htokens
    refine readsLocally_of_append (fun _ _ => rfl) ?_ hdrop hread
    rintro rfl
    cases hread []

/-- **The parser always advances, and what it reads is local.**  At a position before the end of the
tokens it answers what the rules for an expression derive, and at any position what those for the
rest of a list do; the rules have derivations, so the parser ends, and they read no expression at
the end of the tokens, where the parser would answer the empty list.  Where it reads something, the
position moves on and not beyond the end, and with other tokens before and behind it reads the same
from as many tokens. -/
theorem reading_is_local (ts : List Token) (position : Nat) :
    (∀ result, ReadsOne ts position result ↔
      position < ts.length ∧ readOneAt ts position = result) ∧
    (∀ result, ReadsRest ts [] position result ↔ readListAt ts position = result) ∧
    (ts.length ≤ position → readOneAt ts position = .ok (.list [], position) ∧
      readListAt ts position = .error .openList) ∧
    (∀ e next, position < ts.length → readOneAt ts position = .ok (e, next) →
      ReadsLocally readOneAt ts position e next) ∧
    ∀ e next, readListAt ts position = .ok (e, next) →
      ReadsLocally readListAt ts position e next := by
  obtain ⟨hone, hrest⟩ := readsOne_and_readsRest ts position
  refine ⟨fun result => ⟨fun h => ⟨h.lt_length, h.readOneAt_eq⟩, ?_⟩,
    fun result => ⟨fun h => h.readRestAt_eq, ?_⟩,
    fun hle => ⟨readOneAt_of_le hle, readRestAt_of_le hle []⟩,
    fun _ _ => readsLocally_readOneAt, fun _ _ => readsLocally_readListAt⟩
  · rintro ⟨hlt, rfl⟩
    exact hone hlt
  · rintro rfl
    exact hrest []

/-- The tokens of `f (() 1) 's'`, read from the first parenthesis on and from behind it, and moved
to between a stray parenthesis and a symbol. -/
theorem reading_is_local_moved :
    let ts : List Token :=
      [.symbol "f", .lparen, .lparen, .rparen, .number 1, .rparen, .string "s"]
    let e : Expr := .list [.list [], .number 1]
    1 < ts.length ∧ readOneAt ts 1 = .ok (e, 6) ∧ readListAt ts 2 = .ok (e, 6) ∧
      ReadsOne ts 1 (.ok (e, 6)) ∧ ReadsRest ts [] 2 (.ok (e, 6)) ∧
      (7 ≤ ts.length ∧ readOneAt ts 7 = .ok (.list [], 7)) ∧
      readOneAt [.rparen, .lparen, .lparen, .rparen, .number 1, .rparen, .symbol "g"] 1 =
        .ok (e, 6) ∧
      readListAt [.rparen, .lparen, .rparen, .number 1, .rparen, .symbol "g"] 1 = .ok (e, 5) := by
  intro ts e
  have hlt : 1 < ts.length := by decide
  have hone : readOneAt ts 1 = .ok (e, 6) := rfl
  have hrest : readListAt ts 2 = .ok (e, 6) := rfl
  obtain ⟨hrules, -, -, hlocal, -⟩ := reading_is_local ts 1
  obtain ⟨-, hrulesRest, -, -, hlocalRest⟩ := reading_is_local ts 2
  refine ⟨hlt, hone, hrest, (hrules _).mpr ⟨hlt, hone⟩, (hrulesRest _).mpr hrest,
    ⟨by decide, ((reading_is_local ts 7).2.2.1 (by decide)).1⟩, ?_, ?_⟩
  · exact (hlocal e 6 hlt hone).moved [.rparen] [.symbol "g"]
  · exact (hlocalRest e 6 hrest).moved [.rparen] [.symbol "g"]

end Lisplet.Expr
