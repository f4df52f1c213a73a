import BoxFlow.Proofs.Selector.Cursor

/-!
# Reading one part of a selector

Each reader of a part is described twice: on a text that starts with such a part it succeeds and
stops behind it, and when it succeeds such a part stood in front of it. `addPart_of_adds` and
`written_of_addPart` put the readers together.

The reader of arguments is a parameter here. All that is asked of it is that it accepts the
language of arguments wherever an argument can stand (`ReadsArguments`).
-/

set_option autoImplicit false

namespace BoxFlow

/-- What came out of a mapped computation came out of the computation. -/
theorem exists_ok_of_map_eq_ok {ε α β : Type} {f : α → β} {e : Except ε α} {b : β}
    (h : e.map f = .ok b) : ∃ a, e = .ok a ∧ f a = b := by
  cases e with
  | error _ => simp [Except.map] at h
  | ok a => exact ⟨a, rfl, by simpa [Except.map] using h⟩

/-- The reader accepts the arguments of the language, with their meaning, and no others. -/
def ReadsArguments {α : Type} (parseArgument : List Char → Except SelectorError α)
    (argument : List Char → α → Prop) : Prop :=
  ∀ raw a, IsArgumentText raw → (parseArgument raw = .ok a ↔ argument raw a)

section

variable {α : Type} {argument : List Char → α → Prop}
variable {parseArgument : List Char → Except SelectorError α}
variable {c c' : Cursor} {rest raw : List Char}

/-! ## Names and attribute tests -/

namespace Compound

variable {name : String}

theorem readName_of_rest {cs : List Char} (hrest : c.rest = cs ++ rest) (hname : IsIdentifier cs)
    (hend : EndsName rest) : ∃ c', c'.rest = rest ∧ readName c = .ok (.ofList cs, c') := by
  obtain ⟨c', hc', hexpect⟩ := Cursor.expect_identifier hrest hname hend
  exact ⟨c', hc', by simp [readName, hexpect]⟩

theorem readName_eq_ok (h : readName c = .ok (name, c')) :
    ∃ cs, IsIdentifier cs ∧ name = .ofList cs ∧ c.rest = cs ++ c'.rest := by
  unfold readName at h
  split at h
  · simp at h
  · next token after hexpect =>
    simp only [Except.ok.injEq, Prod.mk.injEq] at h
    obtain ⟨rfl, rfl⟩ := h
    obtain ⟨hrest, hname⟩ := Cursor.expect_identifier_eq hexpect
    exact ⟨token.raw, hname, rfl, hrest⟩

/-- A name that was read and added. -/
theorem exists_identifier_of_map {f : String → Compound α} {s' : Compound α}
    (h : ((readName c).map fun (name, c) => (f name, c)) = .ok (s', c')) :
    ∃ cs, IsIdentifier cs ∧ s' = f (.ofList cs) ∧ c.rest = cs ++ c'.rest := by
  obtain ⟨⟨name, after⟩, hread, hpair⟩ := exists_ok_of_map_eq_ok h
  obtain ⟨rfl, rfl⟩ := Prod.mk.inj hpair
  obtain ⟨cs, hname, rfl, hrest⟩ := readName_eq_ok hread
  exact ⟨cs, hname, rfl, hrest⟩

theorem readAttribute_of_rest (hrest : c.rest = raw ++ ']' :: rest) (hraw : IsAttributeText raw) :
    ∃ c', c'.rest = rest ∧ readAttribute c = .ok (.ofList raw, c') := by
  obtain ⟨c', hc', hread⟩ := Cursor.readRaw_of_rest hrest (by decide) hraw.1
  exact ⟨c', hc', by simp [readAttribute, hread, hraw.2]⟩

theorem readAttribute_eq_ok (h : readAttribute c = .ok (name, c')) :
    ∃ raw, IsAttributeText raw ∧ name = .ofList raw ∧ c.rest = raw ++ ']' :: c'.rest := by
  unfold readAttribute at h
  split at h
  · simp at h
  · simp at h
  · next raw after hread =>
    split at h
    · simp at h
    · next hblank =>
      simp only [Except.ok.injEq, Prod.mk.injEq] at h
      obtain ⟨rfl, rfl⟩ := h
      obtain ⟨hrest, hraw⟩ := Cursor.readRaw_eq_some hread
      exact ⟨raw, ⟨hraw, hblank⟩, rfl, hrest⟩

end Compound

/-! ## Pseudo-classes -/

/-- The text of an argument is what raw text up to the closing parenthesis can be, without an
opening one. -/
theorem isArgumentText_iff :
    IsArgumentText raw ↔ (∀ ch ∈ raw, ch ∉ [')', '\n', '\r', '\t']) ∧ '(' ∉ raw := by
  constructor
  · intro h
    exact ⟨fun ch hch hmem => h ch hch (List.mem_cons_of_mem _ hmem),
      fun hparen => h _ hparen List.mem_cons_self⟩
  · rintro ⟨h, hparen⟩ ch hch hmem
    rcases List.mem_cons.1 hmem with rfl | hmem
    · exact hparen hch
    · exact h ch hch hmem

namespace PseudoClass

variable {kind : FunctionalPseudo} {a : α} {pseudo : PseudoClass α}

theorem readArgument_of_rest (hargs : ReadsArguments parseArgument argument)
    (hrest : c.rest = '(' :: (raw ++ ')' :: rest)) (hraw : IsArgumentText raw)
    (ha : argument raw a) :
    ∃ c', c'.rest = rest ∧ readArgument parseArgument kind c = .ok (.functional kind a, c') := by
  obtain ⟨c₁, hc₁, hnext⟩ := Cursor.next_punctuation hrest rfl
  obtain ⟨hchars, hparen⟩ := isArgumentText_iff.1 hraw
  obtain ⟨c₂, hc₂, hread⟩ := Cursor.readRaw_of_rest hc₁ (by decide) hchars
  have hopen : c.expect .openParen = (.ok ⟨.openParen, ['(']⟩, c₁) := Cursor.expect_of_next hnext
  have hparse : parseArgument raw = .ok a := (hargs raw a hraw).2 ha
  exact ⟨c₂, hc₂, by simp [readArgument, hopen, hread, hparen, hparse]⟩

theorem readArgument_eq_ok (hargs : ReadsArguments parseArgument argument)
    (h : readArgument parseArgument kind c = .ok (pseudo, c')) :
    ∃ raw a, c.rest = '(' :: (raw ++ ')' :: c'.rest) ∧ IsArgumentText raw ∧ argument raw a ∧
      pseudo = .functional kind a := by
  unfold readArgument at h
  split at h
  · simp at h
  · next token c₁ hexpect =>
    obtain ⟨hnext, hkind⟩ := Cursor.next_of_expect hexpect
    have hrest : c.rest = '(' :: c₁.rest := Cursor.rest_of_next hnext (by rw [hkind]; rfl)
    split at h
    · simp at h
    · simp at h
    · next raw c₂ hread =>
      split at h
      · simp at h
      · next hparen =>
        split at h
        · simp at h
        · next a hparse =>
          simp only [Except.ok.injEq, Prod.mk.injEq] at h
          obtain ⟨rfl, rfl⟩ := h
          obtain ⟨hrest₁, hchars⟩ := Cursor.readRaw_eq_some hread
          have hraw : IsArgumentText raw :=
            isArgumentText_iff.2 ⟨hchars, by simpa using hparen⟩
          exact ⟨raw, a, by rw [hrest, hrest₁], hraw, (hargs raw a hraw).1 hparse, rfl⟩

theorem read_plain {kind : PlainPseudo} (hrest : c.rest = kind.name.toList ++ rest)
    (hend : EndsName rest) :
    ∃ c', c'.rest = rest ∧ read parseArgument c = .ok (.plain kind, c') := by
  have hname : PseudoName.ofText? kind.name = some (.plain kind) :=
    PseudoName.ofText?_text (.plain kind)
  obtain ⟨c', hc', hexpect⟩ :=
    Cursor.expect_identifier hrest (PseudoName.isIdentifier_text (.plain kind)) hend
  exact ⟨c', hc', by simp [read, hexpect, hname]⟩

theorem read_functional (hargs : ReadsArguments parseArgument argument)
    (hrest : c.rest = kind.name.toList ++ '(' :: (raw ++ ')' :: rest)) (hraw : IsArgumentText raw)
    (ha : argument raw a) :
    ∃ c', c'.rest = rest ∧ read parseArgument c = .ok (.functional kind a, c') := by
  have hname : PseudoName.ofText? kind.name = some (.functional kind) :=
    PseudoName.ofText?_text (.functional kind)
  obtain ⟨c₁, hc₁, hexpect⟩ := Cursor.expect_identifier hrest
    (PseudoName.isIdentifier_text (.functional kind)) (endsName_cons (by decide))
  obtain ⟨c₂, hc₂, hread⟩ : ∃ c', c'.rest = rest ∧
      readArgument parseArgument kind c₁ = .ok (.functional kind a, c') :=
    readArgument_of_rest hargs hc₁ hraw ha
  exact ⟨c₂, hc₂, by simp [read, hexpect, hname, hread]⟩

/-- A pseudo-class that was read, plain or with its argument. -/
theorem read_eq_ok (hargs : ReadsArguments parseArgument argument)
    (h : read parseArgument c = .ok (pseudo, c')) :
    (∃ kind : PlainPseudo, c.rest = kind.name.toList ++ c'.rest ∧ pseudo = .plain kind) ∨
      ∃ (kind : FunctionalPseudo) (raw : List Char) (a : α),
        c.rest = kind.name.toList ++ '(' :: (raw ++ ')' :: c'.rest) ∧ IsArgumentText raw ∧
          argument raw a ∧ pseudo = .functional kind a := by
  unfold read at h
  split at h
  · simp at h
  · simp at h
  · next token c₁ hexpect =>
    obtain ⟨hrest, -⟩ := Cursor.expect_identifier_eq hexpect
    dsimp only at h
    split at h
    · simp at h
    · next kind hname =>
      simp only [Except.ok.injEq, Prod.mk.injEq] at h
      obtain ⟨rfl, rfl⟩ := h
      have htext : kind.name = .ofList token.raw := PseudoName.text_of_ofText? hname
      exact Or.inl ⟨kind, by rw [hrest, htext, String.toList_ofList], rfl⟩
    · next kind hname =>
      have htext : kind.name = .ofList token.raw := PseudoName.text_of_ofText? hname
      obtain ⟨raw, a, hrest₁, hraw, ha, hpseudo⟩ := readArgument_eq_ok hargs h
      refine Or.inr ⟨kind, raw, a, ?_, hraw, ha, hpseudo⟩
      rw [hrest, hrest₁, htext, String.toList_ofList]

end PseudoClass

/-! ## Any part -/

namespace Compound

variable {s s' : Compound α} {piece text : List Char}

/-- On a text that starts with a part, the part is read and added. -/
theorem addPart_of_adds (hargs : ReadsArguments parseArgument argument)
    (hadds : Adds argument s piece s') (hrest : c.rest = piece ++ rest) (hend : EndsName rest)
    (first : Bool) :
    ∃ token c₁ c₂, c.next = (.ok (some token), c₁) ∧
      addPart parseArgument first s token c₁ = .ok (s', c₂) ∧ c₂.rest = rest := by
  cases hadds with
  | id hname =>
    obtain ⟨c₁, hc₁, hnext⟩ := Cursor.next_punctuation hrest rfl
    obtain ⟨c₂, hc₂, hread⟩ := readName_of_rest hc₁ hname hend
    exact ⟨_, c₁, c₂, hnext, by simp [addPart, hread, Except.map], hc₂⟩
  | className hname =>
    obtain ⟨c₁, hc₁, hnext⟩ := Cursor.next_punctuation hrest rfl
    obtain ⟨c₂, hc₂, hread⟩ := readName_of_rest hc₁ hname hend
    exact ⟨_, c₁, c₂, hnext, by simp [addPart, hread, Except.map], hc₂⟩
  | attributeTest hnone hraw =>
    simp only [List.append_assoc, List.cons_append, List.nil_append] at hrest
    obtain ⟨c₁, hc₁, hnext⟩ := Cursor.next_punctuation hrest rfl
    obtain ⟨c₂, hc₂, hread⟩ := readAttribute_of_rest hc₁ hraw
    exact ⟨_, c₁, c₂, hnext, by simp [addPart, hnone, hread, Except.map], hc₂⟩
  | plain kind =>
    obtain ⟨c₁, hc₁, hnext⟩ := Cursor.next_punctuation hrest rfl
    obtain ⟨c₂, hc₂, hread⟩ : ∃ c', c'.rest = rest ∧
        PseudoClass.read parseArgument c₁ = .ok (.plain kind, c') :=
      PseudoClass.read_plain hc₁ hend
    exact ⟨_, c₁, c₂, hnext, by simp [addPart, hread, Except.map], hc₂⟩
  | functional kind hraw ha =>
    simp only [List.append_assoc, List.cons_append, List.nil_append] at hrest
    obtain ⟨c₁, hc₁, hnext⟩ := Cursor.next_punctuation hrest rfl
    obtain ⟨c₂, hc₂, hread⟩ := PseudoClass.read_functional hargs hc₁ hraw ha
    exact ⟨_, c₁, c₂, hnext, by simp [addPart, hread, Except.map], hc₂⟩

/-- What is added behind the head stood in front of the cursor. -/
theorem adds_of_addPart {token : Token} {c₁ c₂ : Cursor}
    (hargs : ReadsArguments parseArgument argument) (hnext : c.next = (.ok (some token), c₁))
    (h : addPart parseArgument false s token c₁ = .ok (s', c₂)) :
    ∃ piece, c.rest = piece ++ c₂.rest ∧ Adds argument s piece s' := by
  unfold addPart at h
  split at h
  · simp at h
  · simp at h
  · next hkind =>
    obtain ⟨cs, hname, rfl, hrest⟩ :=
      exists_identifier_of_map (f := fun name => { s with ids := s.ids ++ [name] }) h
    refine ⟨'#' :: cs, ?_, .id hname⟩
    rw [Cursor.rest_of_next hnext (by rw [hkind]; rfl), hrest, List.cons_append]
  · next hkind =>
    obtain ⟨cs, hname, rfl, hrest⟩ :=
      exists_identifier_of_map (f := fun name => { s with classes := s.classes ++ [name] }) h
    refine ⟨'.' :: cs, ?_, .className hname⟩
    rw [Cursor.rest_of_next hnext (by rw [hkind]; rfl), hrest, List.cons_append]
  · next hkind =>
    split at h
    · simp at h
    · next hnone =>
      obtain ⟨⟨name, after⟩, hread, hpair⟩ := exists_ok_of_map_eq_ok h
      obtain ⟨rfl, rfl⟩ := Prod.mk.inj hpair
      obtain ⟨raw, hraw, rfl, hrest⟩ := readAttribute_eq_ok hread
      refine ⟨'[' :: raw ++ [']'], ?_, .attributeTest (by simpa using hnone) hraw⟩
      rw [Cursor.rest_of_next hnext (by rw [hkind]; rfl), hrest]
      simp
  · next hkind =>
    obtain ⟨⟨pseudo, after⟩, hread, hpair⟩ := exists_ok_of_map_eq_ok h
    obtain ⟨rfl, rfl⟩ := Prod.mk.inj hpair
    have hcolon : c.rest = ':' :: c₁.rest := Cursor.rest_of_next hnext (by rw [hkind]; rfl)
    obtain ⟨kind, hrest, rfl⟩ | ⟨kind, raw, a, hrest, hraw, ha, rfl⟩ :=
      PseudoClass.read_eq_ok hargs hread
    · exact ⟨':' :: kind.name.toList, by rw [hcolon, hrest, List.cons_append], .plain kind⟩
    · refine ⟨':' :: kind.name.toList ++ '(' :: raw ++ [')'], ?_, .functional kind hraw ha⟩
      rw [hcolon, hrest]
      simp
  · split at h <;> simp at h

/-- What is added to a text that was read so far makes a longer text. Only in front of everything
else a star or an identifier is taken. -/
theorem written_of_addPart {token : Token} {c₁ c₂ : Cursor}
    (hargs : ReadsArguments parseArgument argument) (hs : Written argument text s)
    (hnext : c.next = (.ok (some token), c₁))
    (h : addPart parseArgument text.isEmpty s token c₁ = .ok (s', c₂)) :
    ∃ piece, piece ≠ [] ∧ c.rest = piece ++ c₂.rest ∧ Written argument (text ++ piece) s' := by
  have hpart : addPart parseArgument false s token c₁ = .ok (s', c₂) →
      ∃ piece, piece ≠ [] ∧ c.rest = piece ++ c₂.rest ∧ Written argument (text ++ piece) s' := by
    intro hadd
    obtain ⟨piece, hrest, hadds⟩ := adds_of_addPart hargs hnext hadd
    exact ⟨piece, hadds.ne_nil, hrest, .part hs hadds⟩
  cases text with
  | cons d ds => exact hpart h
  | nil =>
    obtain rfl := hs.eq_empty
    obtain ⟨hrest, ⟨hkind, hname⟩ | ⟨ch, hch, hchar⟩⟩ := Cursor.next_eq_some hnext
    · simp only [addPart, hkind, List.isEmpty_nil, if_true, Except.ok.injEq, Prod.mk.injEq] at h
      obtain ⟨rfl, rfl⟩ := h
      exact ⟨token.raw, hname.1, hrest, .tag hname⟩
    · by_cases hstar : token.kind = .star
      · simp only [addPart, hstar, List.isEmpty_nil, if_true, Except.ok.injEq, Prod.mk.injEq] at h
        obtain ⟨rfl, rfl⟩ := h
        obtain rfl : '*' = ch := by simpa [hstar, TokenKind.char?] using hchar
        exact ⟨['*'], List.cons_ne_nil _ _, hch ▸ hrest, .star⟩
      · refine hpart (h ▸ ?_)
        cases hkind : token.kind <;> simp_all [addPart, TokenKind.char?]

end Compound

end

end BoxFlow
