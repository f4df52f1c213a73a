import BoxFlow.Proofs.Selector.Parts

/-!
# Which texts are selectors

A text is accepted exactly if it is not empty and belongs to the grammar, and what comes out is
what the grammar says (`Selector.parse_reads_grammar`).

One direction follows a derivation: behind the part of the text that was derived, the run has
arrived at the selector that was derived with it, whatever comes next (`readParts_of_written`). The
other follows the run: what was read so far is derived at every step (`written_of_readParts`).
-/

set_option autoImplicit false

namespace BoxFlow

namespace Compound

variable {α : Type} {argument : List Char → α → Prop}
variable {parseArgument : List Char → Except SelectorError α}
variable {text : List Char} {s s' : Compound α}

/-! ## Runs -/

/-- A run over a text of the grammar arrives behind it, in at most as many steps as it has
characters. -/
theorem readParts_of_written (hargs : ReadsArguments parseArgument argument)
    (hs : Written argument text s) (rest : List Char) (hend : EndsName rest) :
    ∃ steps ≤ text.length, ∃ c : Cursor, c.rest = rest ∧ ∀ limit,
      readParts parseArgument (limit + steps) true {} (.start (text ++ rest)) =
        readParts parseArgument limit text.isEmpty s c := by
  induction hs generalizing rest with
  | blank => exact ⟨0, Nat.le_refl 0, .start rest, rfl, fun limit => rfl⟩
  | star =>
    obtain ⟨c, hc, hnext⟩ : ∃ c' : Cursor, c'.rest = rest ∧
        (Cursor.start (['*'] ++ rest)).next = (.ok (some ⟨.star, ['*']⟩), c') :=
      Cursor.next_punctuation rfl rfl
    refine ⟨1, Nat.le_refl 1, c, hc, ?_⟩
    intro limit
    rw [readParts, hnext]
    simp [addPart]
  | @tag name hname =>
    obtain ⟨c, hc, hnext⟩ : ∃ c' : Cursor, c'.rest = rest ∧
        (Cursor.start (name ++ rest)).next = (.ok (some ⟨.identifier, name⟩), c') :=
      Cursor.next_identifier rfl hname hend
    have hempty : name.isEmpty = false := by simpa using hname.1
    refine ⟨1, List.length_pos_iff.2 hname.1, c, hc, ?_⟩
    intro limit
    rw [readParts, hnext]
    simp [addPart, hempty]
  | @part text piece s s' hs hadds ih =>
    -- the part in front stops where this one starts
    obtain ⟨first, cs, hpiece, hfirst⟩ := hadds.exists_cons
    have hend' : EndsName (piece ++ rest) := by
      rw [hpiece, List.cons_append]
      exact endsName_cons (mem_reservedChars_of_mem_partChars hfirst)
    obtain ⟨steps, hsteps, c, hc, hrun⟩ := ih (piece ++ rest) hend'
    obtain ⟨token, c₁, c₂, hnext, hadd, hc₂⟩ :=
      addPart_of_adds hargs hadds hc hend text.isEmpty
    have hlength : 1 ≤ piece.length := List.length_pos_iff.2 hadds.ne_nil
    have hempty : (text ++ piece).isEmpty = false := by simp [hadds.ne_nil]
    refine ⟨steps + 1, ?_, c₂, hc₂, ?_⟩
    · rw [List.length_append]
      omega
    · intro limit
      rw [List.append_assoc, Nat.add_comm steps 1, ← Nat.add_assoc, hrun (limit + 1), readParts,
        hnext]
      simp [hadd, hempty]

/-- When a run ends well, it has read the rest of its text. -/
theorem written_of_readParts (hargs : ReadsArguments parseArgument argument) {limit : Nat}
    {c : Cursor} (hlimit : c.rest.length < limit) (hs : Written argument text s)
    (h : readParts parseArgument limit text.isEmpty s c = .ok s') :
    Written argument (text ++ c.rest) s' := by
  induction limit generalizing text s c with
  | zero => exact absurd hlimit (Nat.not_lt_zero _)
  | succ limit ih =>
    unfold readParts at h
    split at h
    · simp at h
    · next hnext =>
      obtain rfl : s = s' := by simpa using h
      rw [Cursor.rest_of_next_eq_none hnext, List.append_nil]
      exact hs
    · next token c₁ hnext =>
      split at h
      · simp at h
      · next s₂ c₂ hadd =>
        obtain ⟨piece, hpiece, hrest, hs₂⟩ := written_of_addPart hargs hs hnext hadd
        have hlength : 1 ≤ piece.length := List.length_pos_iff.2 hpiece
        have hempty : (text ++ piece).isEmpty = false := by simp [hpiece]
        rw [hrest, List.length_append] at hlimit
        rw [hrest, ← List.append_assoc]
        exact ih (by omega) hs₂ (by rw [hempty]; exact h)

/-- At the end of the text a run ends. -/
theorem readParts_of_rest_eq_nil {c : Cursor} (hc : c.rest = []) (limit : Nat) (first : Bool) :
    readParts parseArgument limit first s c = .ok s := by
  cases limit with
  | zero => rfl
  | succ limit => simp [readParts, Cursor.next, hc]

/-- What follows a text of the grammar in an accepted text is nothing, or another part and what the
run reads behind it. -/
theorem exists_adds_of_parseWith (hargs : ReadsArguments parseArgument argument)
    {rest : List Char} (hs : Written argument text s) (hne : text ≠ []) (hend : EndsName rest)
    (h : parseWith parseArgument (text ++ rest) = .ok s') :
    rest = [] ∧ s' = s ∨ ∃ piece s₂, Adds argument s piece s₂ ∧ ∃ limit, ∃ c : Cursor,
      rest = piece ++ c.rest ∧ readParts parseArgument limit false s₂ c = .ok s' := by
  obtain ⟨steps, hsteps, c, hc, hrun⟩ := readParts_of_written hargs hs rest hend
  obtain ⟨limit, hlimit⟩ : ∃ limit, (text ++ rest).length + 1 = limit + 1 + steps := by
    rw [List.length_append]
    exact ⟨text.length + rest.length - steps, by omega⟩
  have hempty : text.isEmpty = false := by simpa using hne
  have hparse : readParts parseArgument (limit + 1) false s c = .ok s' := by
    rw [← hempty, ← hrun, ← hlimit, ← h]
    simp [parseWith, hne]
  unfold readParts at hparse
  split at hparse
  · simp at hparse
  · next hnext =>
    rw [← hc]
    exact Or.inl ⟨Cursor.rest_of_next_eq_none hnext, by simpa using hparse.symm⟩
  · next token c₁ hnext =>
    split at hparse
    · simp at hparse
    · next s₂ c₂ hadd =>
      obtain ⟨piece, hrest, hadds⟩ := adds_of_addPart hargs hnext hadd
      rw [← hc]
      exact Or.inr ⟨piece, s₂, hadds, limit, c₂, hrest, hparse⟩

/-- A reader accepts the texts of the grammar over the arguments that it accepts. -/
theorem parseWith_eq_ok_iff (hargs : ReadsArguments parseArgument argument) :
    parseWith parseArgument text = .ok s ↔ text ≠ [] ∧ Written argument text s := by
  by_cases htext : text = []
  · simp [htext, parseWith]
  have hparse : parseWith parseArgument text =
      readParts parseArgument (text.length + 1) true {} (.start text) := by
    simp [parseWith, htext]
  rw [hparse, and_iff_right htext]
  constructor
  · intro h
    have hblank : Written argument [] ({} : Compound α) := .blank
    exact written_of_readParts hargs (Nat.lt_succ_self _) hblank h
  · intro hs
    obtain ⟨steps, hsteps, c, hc, hrun⟩ := readParts_of_written hargs hs [] endsName_nil
    obtain ⟨limit, hlimit⟩ : ∃ limit, text.length + 1 = limit + 1 + steps :=
      ⟨text.length - steps, by omega⟩
    have hrun := hrun (limit + 1)
    rw [List.append_nil, ← hlimit] at hrun
    rw [hrun, readParts_of_rest_eq_nil hc]

end Compound

/-! ## Selectors and their arguments -/

theorem PlainSelector.parse_eq_ok_iff {text : List Char} {s : PlainSelector} :
    PlainSelector.parse text = .ok s ↔ text ≠ [] ∧ PlainSelector.Written text s := by
  apply Compound.parseWith_eq_ok_iff
  intro raw a _
  simp

theorem Selector.readsArguments : ReadsArguments PlainSelector.parse Selector.Argument := by
  intro raw a _
  exact PlainSelector.parse_eq_ok_iff

theorem Selector.parse_eq_ok_iff {text : List Char} {s : Selector} :
    Selector.parse text = .ok s ↔ text ≠ [] ∧ Selector.Written text s :=
  Compound.parseWith_eq_ok_iff Selector.readsArguments

/-- A pseudo-class without an argument, as one of a selector. -/
def PseudoClass.widen : PseudoClass Empty → PseudoClass PlainSelector
  | .plain kind => .plain kind

/-- A selector without arguments, as a selector. -/
def PlainSelector.widen (s : PlainSelector) : Selector where
  tag := s.tag
  ids := s.ids
  classes := s.classes
  attributeTest := s.attributeTest
  universal := s.universal
  pseudoClasses := s.pseudoClasses.map PseudoClass.widen

/-- A part without an argument is a part. -/
theorem PlainSelector.adds_widen {piece : List Char} {s s' : PlainSelector}
    (h : Compound.Adds (fun _ _ => False) s piece s') :
    Compound.Adds Selector.Argument s.widen piece s'.widen := by
  cases h with
  | id hname => exact .id hname
  | className hname => exact .className hname
  | attributeTest hnone hraw => exact .attributeTest hnone hraw
  | plain kind =>
    simp only [widen, List.map_append, List.map_cons, List.map_nil]
    exact .plain kind
  | functional kind hraw ha => exact ha.elim

theorem PlainSelector.written_widen {text : List Char} {s : PlainSelector}
    (h : PlainSelector.Written text s) : Selector.Written text s.widen := by
  unfold PlainSelector.Written at h
  induction h with
  | blank => exact .blank
  | star => exact .star
  | tag hname => exact .tag hname
  | part _ hadds ih => exact .part ih (PlainSelector.adds_widen hadds)

/-- Without an opening parenthesis, the text of a selector is one of a selector without
arguments. -/
theorem Selector.exists_widen_of_written {text : List Char} {s : Selector}
    (h : Selector.Written text s) (hparen : '(' ∉ text) :
    ∃ a : PlainSelector, s = a.widen ∧ PlainSelector.Written text a := by
  unfold Selector.Written at h
  induction h with
  | blank => exact ⟨{}, rfl, .blank⟩
  | star => exact ⟨{ universal := true }, rfl, .star⟩
  | @tag name hname => exact ⟨{ tag := .ofList name }, rfl, .tag hname⟩
  | part hs hadds ih =>
    rw [List.mem_append, not_or] at hparen
    obtain ⟨a, rfl, ha⟩ := ih hparen.1
    cases hadds with
    | @id name hname =>
      exact ⟨{ a with ids := a.ids ++ [.ofList name] }, rfl, .part ha (.id hname)⟩
    | @className name hname =>
      exact ⟨{ a with classes := a.classes ++ [.ofList name] }, rfl, .part ha (.className hname)⟩
    | @attributeTest raw hnone hraw =>
      exact ⟨{ a with attributeTest := some (.ofList raw) }, rfl,
        .part ha (.attributeTest hnone hraw)⟩
    | plain kind =>
      refine ⟨{ a with pseudoClasses := a.pseudoClasses ++ [.plain kind] }, ?_,
        .part ha (.plain kind)⟩
      simp [PlainSelector.widen, PseudoClass.widen]
    | functional kind hraw ha => simp at hparen

/-- What may stand between the parentheses of a pseudo-class is an argument exactly if it is
accepted on its own, with the same meaning. -/
theorem Selector.parse_eq_ok_iff_argument {raw : List Char} {s : Selector}
    (hraw : IsArgumentText raw) :
    Selector.parse raw = .ok s ↔ ∃ a : PlainSelector, Selector.Argument raw a ∧ s = a.widen := by
  rw [Selector.parse_eq_ok_iff]
  constructor
  · rintro ⟨hne, hs⟩
    obtain ⟨a, rfl, ha⟩ := exists_widen_of_written hs (isArgumentText_iff.1 hraw).2
    exact ⟨a, ⟨hne, ha⟩, rfl⟩
  · rintro ⟨a, ⟨hne, ha⟩, rfl⟩
    exact ⟨hne, PlainSelector.written_widen ha⟩

/-- A text is accepted exactly if it is not empty and belongs to the grammar, with the meaning that
the grammar gives to it. The arguments in it are the texts that are accepted themselves and can
stand between parentheses. -/
theorem Selector.parse_reads_grammar (text : List Char) (s : Selector) :
    (Selector.parse text = .ok s ↔ text ≠ [] ∧ Selector.Written text s) ∧
      ∀ (raw : List Char) (t : Selector), IsArgumentText raw →
        (Selector.parse raw = .ok t ↔
          ∃ a : PlainSelector, Selector.Argument raw a ∧ t = a.widen) := by
  constructor
  · exact parse_eq_ok_iff
  · intro raw t hraw
    exact parse_eq_ok_iff_argument hraw

/-- A tag with a negation is read, and so is the argument of the negation on its own. -/
theorem Selector.parse_reads_negation :
    Selector.Written "a:not(:root)".toList
        { tag := "a",
          pseudoClasses := [.functional .negation { pseudoClasses := [.plain .root] }] } ∧
      IsArgumentText ":root".toList ∧
      ∃ a : PlainSelector, Selector.Argument ":root".toList a ∧
        { pseudoClasses := [.plain .root] } = a.widen := by
  have hraw : IsArgumentText ":root".toList := by decide
  obtain ⟨hread, hargument⟩ := parse_reads_grammar "a:not(:root)".toList
    { tag := "a", pseudoClasses := [.functional .negation { pseudoClasses := [.plain .root] }] }
  exact ⟨(hread.1 (by decide)).2, hraw, (hargument ":root".toList _ hraw).1 (by decide)⟩

end BoxFlow
