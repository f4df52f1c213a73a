import BoxFlow.Proofs.Selector.Reading

/-!
# A text behind a tag and its negation

For a tag `t` and a text `x`, both `t` followed by `x` and `t` followed by the negation of `x` may
be selectors. Then `x` is a selector without arguments, and the two selectors ask for the tag
together with what `x` asks for, and for the tag and the negation of it
(`Selector.exists_negated`). A closing parenthesis inside of `x` would end the argument early, but
then `x` would not be accepted behind the tag.
-/

set_option autoImplicit false

namespace BoxFlow

theorem IsIdentifier.append {name name' : List Char} (h : IsIdentifier name)
    (h' : IsIdentifier name') : IsIdentifier (name ++ name') := by
  refine ⟨by simp [h.1], ?_, ?_⟩
  · intro c hc
    rcases List.mem_append.1 hc with hc | hc
    · exact h.2.1 c hc
    · exact h'.2.1 c hc
  · intro c hc
    rw [List.head?_append, Option.or_of_isSome (List.isSome_head?.2 h.1)] at hc
    exact h.2.2 c hc

/-- A text whose selector is universal starts with a star. -/
theorem Compound.Written.exists_star {α : Type} {argument : List Char → α → Prop}
    {text : List Char} {s : Compound α} (h : Compound.Written argument text s)
    (huniversal : s.universal = true) : ∃ cs, text = '*' :: cs := by
  induction h with
  | blank => simp at huniversal
  | star => exact ⟨[], rfl⟩
  | tag hname => simp at huniversal
  | part hs hadds ih =>
    obtain ⟨cs, rfl⟩ := ih (by cases hadds <;> exact huniversal)
    exact ⟨_, rfl⟩

/-- The selector with `tag` in front of its text. -/
def PlainSelector.behind (tag : List Char) (a : PlainSelector) : Selector :=
  { a.widen with tag := .ofList (tag ++ a.tag.toList) }

/-- Behind a tag, the text of a selector without a star goes on as before. -/
theorem PlainSelector.written_behind {tag raw : List Char} {a : PlainSelector}
    (htag : IsIdentifier tag) (h : PlainSelector.Written raw a) (huniversal : a.universal = false) :
    Selector.Written (tag ++ raw) (a.behind tag) := by
  unfold PlainSelector.Written at h
  induction h with
  | blank =>
    have hwritten : Selector.Written tag { tag := .ofList tag } := .tag htag
    simpa [behind, widen] using hwritten
  | star => simp at huniversal
  | @tag name hname =>
    have hwritten : Selector.Written (tag ++ name) { tag := .ofList (tag ++ name) } :=
      .tag (htag.append hname)
    simpa [behind, widen] using hwritten
  | part hs hadds ih =>
    obtain ⟨hstar, htagged⟩ := hadds.head_eq
    have hwritten := ih (hstar ▸ huniversal)
    rw [← List.append_assoc]
    refine .part hwritten ?_
    unfold behind
    rw [htagged]
    exact (adds_widen hadds).withTag _

namespace Selector

variable {tag x : List Char} {c₁ c₂ : Selector}

/-- What is negated behind a tag ends at the first closing parenthesis. -/
theorem exists_argument_of_negated (htag : IsIdentifier tag)
    (h : Selector.parse (tag ++ (":not(".toList ++ x ++ [')'])) = .ok c₂) :
    ∃ raw a more, x ++ [')'] = raw ++ ')' :: more ∧ PlainSelector.parse raw = .ok a ∧
      (more = [] → c₂ = { tag := .ofList tag, pseudoClasses := [.functional .negation a] }) := by
  have hend : EndsName (":not(".toList ++ x ++ [')']) := endsName_cons (by decide)
  obtain ⟨hnil, -⟩ | ⟨piece, s₂, hadds, limit, c, hrest, hrun⟩ :=
    Compound.exists_adds_of_parseWith readsArguments (.tag htag) htag.1 hend h
  · simp at hnil
  have hnot : ":not(".toList = [':', 'n', 'o', 't', '('] := rfl
  rw [hnot] at hrest
  cases hadds with
  | id hname => simp at hrest
  | className hname => simp at hrest
  | attributeTest hnone hraw => simp at hrest
  | plain kind =>
    -- no name of this sort starts as `not` does
    cases kind <;> simp [PlainPseudo.name] at hrest
  | @functional kind raw a hraw ha =>
    obtain rfl : kind = .negation := by
      cases kind <;> simp [FunctionalPseudo.name] at hrest ⊢
    have hsplit : x ++ [')'] = raw ++ ')' :: c.rest := by
      simpa [FunctionalPseudo.name] using hrest
    refine ⟨raw, a, c.rest, hsplit, PlainSelector.parse_eq_ok_iff.2 ha, ?_⟩
    intro hmore
    rw [Compound.readParts_of_rest_eq_nil hmore] at hrun
    simpa using hrun.symm

/-- A tag in front of a text and in front of its negation. -/
theorem exists_negated (htag : IsIdentifier tag) (h₁ : Selector.parse (tag ++ x) = .ok c₁)
    (h₂ : Selector.parse (tag ++ (":not(".toList ++ x ++ [')'])) = .ok c₂) :
    ∃ a : PlainSelector, PlainSelector.parse x = .ok a ∧ c₁ = a.behind tag ∧
      c₂ = { tag := .ofList tag, pseudoClasses := [.functional .negation a] } := by
  obtain ⟨raw, a, more, hsplit, hparse, hc₂⟩ := exists_argument_of_negated htag h₂
  have ha : PlainSelector.Written raw a := (PlainSelector.parse_eq_ok_iff.1 hparse).2
  -- either the argument is all of `x`, or it ends at a closing parenthesis inside of `x`
  obtain ⟨after, rfl, hafter⟩ :
      ∃ after, x = raw ++ after ∧ (after = [] ∧ more = [] ∨ ∃ cs, after = ')' :: cs) := by
    rcases List.eq_nil_or_concat more with rfl | ⟨cs, d, rfl⟩
    · exact ⟨[], by simpa using hsplit, Or.inl ⟨rfl, rfl⟩⟩
    · have hlast : x ++ [')'] = raw ++ ')' :: cs ++ [d] := by simpa using hsplit
      exact ⟨')' :: cs, (List.append_inj' hlast rfl).1, Or.inr ⟨cs, rfl⟩⟩
  cases huniversal : a.universal with
  | true =>
    -- behind the tag, a star is refused
    obtain ⟨cs, rfl⟩ := ha.exists_star huniversal
    have hend : EndsName ('*' :: cs ++ after) := endsName_cons (by decide)
    obtain ⟨hnil, -⟩ | ⟨piece, s₂, hadds, limit, c, hrest, -⟩ :=
      Compound.exists_adds_of_parseWith readsArguments (.tag htag) htag.1 hend h₁
    · simp at hnil
    · exact absurd (hadds.mem_partChars hrest) (by decide)
  | false =>
    have hwritten : Selector.Written (tag ++ raw) (a.behind tag) :=
      PlainSelector.written_behind htag ha huniversal
    have hend : EndsName after := by
      rcases hafter with ⟨rfl, -⟩ | ⟨cs, rfl⟩
      · exact endsName_nil
      · exact endsName_cons (by decide)
    rw [← List.append_assoc] at h₁
    obtain ⟨rfl, rfl⟩ | ⟨piece, s₂, hadds, limit, c, hrest, -⟩ :=
      Compound.exists_adds_of_parseWith readsArguments hwritten (by simp [htag.1]) hend h₁
    · rw [List.append_nil]
      refine ⟨a, hparse, rfl, hc₂ ?_⟩
      rcases hafter with ⟨-, hmore⟩ | ⟨cs, hcs⟩
      · exact hmore
      · simp at hcs
    · -- and so is a closing parenthesis
      rcases hafter with ⟨rfl, -⟩ | ⟨cs, rfl⟩
      · exact absurd (List.append_eq_nil_iff.1 hrest.symm).1 hadds.ne_nil
      · exact absurd (hadds.mem_partChars hrest) (by decide)

end Selector

end BoxFlow
