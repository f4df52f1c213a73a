import BoxFlow.Proofs.Cascade.BoundedScore
import BoxFlow.Proofs.Selector.Negation
import BoxFlow.Proofs.Selector.Printing

/-!
# When a selector matches

Matching is defined here without scores. A selector matches an element if everything it asks for
holds there and it is not a pseudo-class alone; a negation holds if its argument does not match in
this sense. For the selectors that can be read, this is what a positive score says
(`Selector.specificity_pos_iff`).

The exception is due to the base of -1: each pseudo-class adds 1, so one pseudo-class without
anything else scores 0, and every other selector that is not empty scores above 0 where its parts
hold (`Compound.weight_pos_iff`).
-/

set_option autoImplicit false

namespace BoxFlow

/-! ## Matching without scores -/

/-- The attribute test written as `raw` can be read, and the element passes it. -/
def Element.Passes (e : Element) (raw : String) : Prop :=
  ∃ test, AttributeTest.compile raw = .ok test ∧ test.holds e = true

/-- What a pseudo-class asks for, given what the functional ones ask for. -/
def PseudoClass.Holds {α : Type} (functionHolds : FunctionalPseudo → α → Prop) (s : Subject)
    (e : Element) : PseudoClass α → Prop
  | plain kind => kind.holds s e = true
  | functional kind a => functionHolds kind a

namespace Compound

variable {α : Type}

/-- Everything that a selector asks for holds at an element. -/
structure PartsHold (functionHolds : FunctionalPseudo → α → Prop) (c : Compound α) (s : Subject)
    (e : Element) : Prop where
  ids : ∀ id ∈ c.ids, e.id = id
  tag : c.tag ≠ "" → Text.sameIgnoringCase c.tag e.tag = true
  classes : ∀ name ∈ c.classes, name ∈ e.classes
  attributeTest : ∀ raw ∈ c.attributeTest, e.Passes raw
  pseudoClasses : ∀ p ∈ c.pseudoClasses, p.Holds functionHolds s e

/-- The node is an element at which everything holds that a selector asks for. -/
def Meets (functionHolds : FunctionalPseudo → α → Prop) (c : Compound α) (s : Subject) : Prop :=
  ∃ e, s.tree.element? s.id = some e ∧ c.PartsHold functionHolds s e

/-- The selector is one pseudo-class and nothing else. -/
def IsLonePseudo (c : Compound α) : Prop :=
  ∃ p, c = { pseudoClasses := [p] }

/-- The selector matches: it is more than a pseudo-class, and everything it asks for holds. -/
def MatchesWith (functionHolds : FunctionalPseudo → α → Prop) (c : Compound α) (s : Subject) :
    Prop :=
  ¬ c.IsLonePseudo ∧ c.Meets functionHolds s

end Compound

/-- A selector without arguments matches. -/
def PlainSelector.Matches (c : PlainSelector) (s : Subject) : Prop :=
  Compound.MatchesWith nofun c s

/-- What a functional pseudo-class asks for: a negation, that its argument does not match; a
language, that the node speaks it. Nothing is counted. -/
def FunctionalPseudo.Holds (s : Subject) (kind : FunctionalPseudo) (a : PlainSelector) : Prop :=
  match kind with
  | negation => ¬ a.Matches s
  | lang => s.speaks a.tag = true
  | nthChild | nthLastChild | nthLastOfType | nthOfType => False

/-- A selector matches. -/
def Selector.Matches (c : Selector) (s : Subject) : Prop :=
  Compound.MatchesWith (FunctionalPseudo.Holds s) c s

/-! ## Scores -/

namespace Compound

variable {α : Type} {c : Compound α} {s : Subject} {e : Element}
variable {functionHolds : FunctionalPseudo → α → Prop} {computed : FunctionalPseudo → α → Bool}

/-- The weight is positive unless there are no parts, or a pseudo-class is the only one. -/
theorem weight_nonpos_iff (c : Compound α) : c.weight ≤ 0 ↔ c = {} ∨ c.IsLonePseudo := by
  constructor
  · intro h
    obtain ⟨tag, ids, classes, test, universal, pseudoClasses⟩ := c
    simp only [weight] at h
    -- any part but a pseudo-class outweighs the base, and so do two pseudo-classes
    obtain rfl : universal = false := by
      cases universal with
      | false => rfl
      | true => simp only [if_true] at h; omega
    obtain rfl : tag = "" := by
      by_contra htag
      simp only [if_neg htag] at h
      omega
    obtain rfl : ids = [] := List.eq_nil_of_length_eq_zero (by omega)
    obtain rfl : classes = [] := List.eq_nil_of_length_eq_zero (by omega)
    obtain rfl : test = none := by
      cases test with
      | none => rfl
      | some raw => simp at h; omega
    rcases pseudoClasses with _ | ⟨p, _ | ⟨q, ps⟩⟩
    · exact Or.inl rfl
    · exact Or.inr ⟨p, rfl⟩
    · simp at h
      omega
  · rintro (rfl | ⟨p, rfl⟩) <;> simp [weight]

theorem attributeHolds_iff :
    c.attributeHolds e = true ↔ ∀ raw ∈ c.attributeTest, e.Passes raw := by
  unfold attributeHolds Element.Passes
  cases c.attributeTest with
  | none => simp
  | some raw =>
    cases hcompile : AttributeTest.compile raw with
    | ok test => simp [hcompile]
    | error cause => simp [hcompile]

theorem namesHold_iff :
    c.namesHold e = true ↔ (∀ id ∈ c.ids, e.id = id) ∧
      (c.tag ≠ "" → Text.sameIgnoringCase c.tag e.tag = true) ∧
      ∀ name ∈ c.classes, name ∈ e.classes := by
  simp [namesHold, Element.hasClass, Classical.or_iff_not_imp_left, and_assoc]

theorem pseudoHolds_iff {p : PseudoClass α}
    (h : ∀ kind a, p = .functional kind a → (computed kind a = true ↔ functionHolds kind a)) :
    pseudoHolds computed s e p = true ↔ p.Holds functionHolds s e := by
  cases p with
  | plain kind => rfl
  | functional kind a => exact h kind a rfl

/-- All parts are found to hold if they do, provided that the functional pseudo-classes are computed
as they should be. -/
theorem partsHold_iff
    (h : ∀ kind a, .functional kind a ∈ c.pseudoClasses →
      (computed kind a = true ↔ functionHolds kind a)) :
    (c.namesHold e && c.attributeHolds e &&
      c.pseudoClasses.all (pseudoHolds computed s e)) = true ↔ c.PartsHold functionHolds s e := by
  have hpseudo : c.pseudoClasses.all (pseudoHolds computed s e) = true ↔
      ∀ p ∈ c.pseudoClasses, p.Holds functionHolds s e := by
    rw [List.all_eq_true]
    refine forall₂_congr ?_
    intro p hp
    apply pseudoHolds_iff
    intro kind a hpa
    rw [hpa] at hp
    exact h kind a hp
  rw [Bool.and_eq_true, Bool.and_eq_true, namesHold_iff, attributeHolds_iff, hpseudo]
  constructor
  · rintro ⟨⟨⟨hids, htag, hclasses⟩, htest⟩, hall⟩
    exact ⟨hids, htag, hclasses, htest, hall⟩
  · rintro ⟨hids, htag, hclasses, htest, hall⟩
    exact ⟨⟨⟨hids, htag, hclasses⟩, htest⟩, hall⟩

/-- A score is positive if the selector matches, provided that the functional pseudo-classes are
computed as they should be. -/
theorem scoreWith_pos_iff (hc : c ≠ {})
    (h : ∀ kind a, .functional kind a ∈ c.pseudoClasses →
      (computed kind a = true ↔ functionHolds kind a)) :
    0 < c.scoreWith computed s ↔ c.MatchesWith functionHolds s := by
  unfold scoreWith MatchesWith Meets
  cases s.tree.element? s.id with
  | none => simp [noMatch]
  | some e =>
    have hparts := partsHold_iff (s := s) (e := e) h
    simp only [Option.some.injEq, exists_eq_left']
    split
    · next hholds =>
      rw [← Int.not_le, weight_nonpos_iff]
      simp [hc, hparts.1 hholds]
    · next hfails =>
      have hnot : ¬ c.PartsHold functionHolds s e := by
        intro hp
        exact hfails (hparts.2 hp)
      simp [noMatch, hnot]

end Compound

/-- A selector without arguments that asks for something scores above zero if it matches. -/
theorem PlainSelector.specificity_pos_iff {a : PlainSelector} (ha : a ≠ {}) (s : Subject) :
    0 < a.specificity s ↔ a.Matches s :=
  Compound.scoreWith_pos_iff ha fun _ b => nomatch b

theorem FunctionalPseudo.holds_iff {a : PlainSelector} (ha : a ≠ {}) (s : Subject)
    (kind : FunctionalPseudo) : kind.holds s a = true ↔ kind.Holds s a := by
  cases kind with
  | negation => simp [holds, Holds, ← PlainSelector.specificity_pos_iff ha s]
  | lang => rfl
  | nthChild | nthLastChild | nthLastOfType | nthOfType => simp [holds, Holds]

/-- The selectors that can be read ask for something, and so do the arguments in them. -/
theorem Selector.ne_empty_of_parse {text : List Char} {c : Selector}
    (h : Selector.parse text = .ok c) :
    c ≠ {} ∧ ∀ kind a, .functional kind a ∈ c.pseudoClasses → a ≠ {} := by
  obtain ⟨hne, hc⟩ := Selector.parse_eq_ok_iff.1 h
  have hvalid := Compound.IsValid.of_written Selector.printsArguments hc
  constructor
  · rintro rfl
    have hperm : Selector.print {} |>.Perm text := Selector.print_perm hc
    exact hne hperm.nil_eq.symm
  · rintro kind a ha rfl
    exact (hvalid.arguments kind {} ha).2.1 rfl

/-- A selector that can be read scores above zero exactly against the elements that it matches. -/
theorem Selector.specificity_pos_iff {text : List Char} {c : Selector}
    (h : Selector.parse text = .ok c) (s : Subject) : 0 < c.specificity s ↔ c.Matches s := by
  obtain ⟨hc, harguments⟩ := Selector.ne_empty_of_parse h
  apply Compound.scoreWith_pos_iff hc
  intro kind a ha
  exact FunctionalPseudo.holds_iff (harguments kind a ha) s kind

/-! ## A selector and its negation -/

theorem PseudoClass.holds_widen {functionHolds : FunctionalPseudo → PlainSelector → Prop}
    {s : Subject} {e : Element} (p : PseudoClass Empty) :
    p.widen.Holds functionHolds s e ↔ p.Holds nofun s e := by
  cases p with
  | plain kind => exact Iff.rfl
  | functional kind a => exact nomatch a

/-- Two tags that are those of one element have the same length. -/
theorem length_eq_of_sameIgnoringCase {tag tag' : String} {e : Element}
    (h : Text.sameIgnoringCase tag e.tag = true) (h' : Text.sameIgnoringCase tag' e.tag = true) :
    tag.toList.length = tag'.toList.length := by
  simp only [Text.sameIgnoringCase, beq_iff_eq] at h h'
  have hmap := congrArg List.length (h.trans h'.symm)
  simpa using hmap

/-- Where a text and its negation match behind one tag, the text is a pseudo-class alone: anything
else that is asked for behind the tag is refused by the negation. -/
theorem Selector.isLonePseudo_of_matches {tag : List Char} {a : PlainSelector} {s : Subject}
    (htag : tag ≠ []) (h₁ : Selector.Matches (a.behind tag) s)
    (h₂ : Selector.Matches
      { tag := .ofList tag, pseudoClasses := [.functional .negation a] } s) : a.IsLonePseudo := by
  obtain ⟨-, e, he, hparts⟩ := h₁
  obtain ⟨-, e', he', hparts'⟩ := h₂
  obtain rfl : e = e' := Option.some.inj (he.symm.trans he')
  have hneg : ¬ a.Matches s := hparts'.pseudoClasses _ List.mem_cons_self
  by_contra hlone
  apply hneg
  refine ⟨hlone, e, he, hparts.ids, ?_, hparts.classes, hparts.attributeTest, ?_⟩
  · -- a tag of the text would make the one behind `tag` longer than that of the element
    intro hatag
    have hboth := hparts.tag (by simp [PlainSelector.behind, htag])
    have hfirst := hparts'.tag (by simpa using htag)
    have hlength := length_eq_of_sameIgnoringCase hboth hfirst
    have hempty : a.tag.toList = [] := by simpa [PlainSelector.behind] using hlength
    exact absurd (String.toList_eq_nil_iff.1 hempty) hatag
  · intro p hp
    rw [← PseudoClass.holds_widen p]
    exact hparts.pseudoClasses p.widen (List.mem_map_of_mem hp)

/-- A selector that can be read has a score in 32 bits if its parts, and those of its arguments, do
not weigh too much. Whenever it has one, the score is above zero exactly if the node is an element
at which everything holds that the selector asks for, and the selector is not a pseudo-class
alone. So no element is matched by a text behind a tag and by its negation behind the same tag,
unless the text is a pseudo-class alone. -/
theorem Selector.score_pos_exactly (s : Subject) :
    (∀ (text : List Char) (c : Selector), Selector.parse text = .ok c →
      (c.Fits → ∃ n, c.specificity32? s = some n) ∧
      ∀ n, c.specificity32? s = some n → (0 < n ↔ c.Matches s)) ∧
    ∀ (tag x : List Char) (c₁ c₂ : Selector) (n₁ n₂ : Int), IsIdentifier tag →
      Selector.parse (tag ++ x) = .ok c₁ →
      Selector.parse (tag ++ (":not(".toList ++ x ++ [')'])) = .ok c₂ →
      c₁.specificity32? s = some n₁ → c₂.specificity32? s = some n₂ → 0 < n₁ → 0 < n₂ →
      ∃ p, PlainSelector.parse x = .ok { pseudoClasses := [p] } := by
  have hpos : ∀ (text : List Char) (c : Selector) (n : Int), Selector.parse text = .ok c →
      c.specificity32? s = some n → (0 < n ↔ c.Matches s) := by
    intro text c n hc hn
    rw [← Selector.specificity_of_32 hn]
    exact Selector.specificity_pos_iff hc s
  constructor
  · intro text c hc
    exact ⟨fun hfits => ⟨_, Selector.specificity32?_eq hfits s⟩, fun n hn => hpos text c n hc hn⟩
  · intro tag x c₁ c₂ n₁ n₂ htag h₁ h₂ hn₁ hn₂ hpos₁ hpos₂
    rw [hpos _ c₁ n₁ h₁ hn₁] at hpos₁
    rw [hpos _ c₂ n₂ h₂ hn₂] at hpos₂
    obtain ⟨a, ha, rfl, rfl⟩ := Selector.exists_negated htag h₁ h₂
    obtain ⟨p, rfl⟩ := Selector.isLonePseudo_of_matches htag.1 hpos₁ hpos₂
    exact ⟨p, ha⟩

/-- The element of a page that holds nothing else. -/
def Subject.emptyPage : Subject :=
  ⟨(Tree.empty.appendNew Tree.root (.element { tag := "html" })).1, 1, {}⟩

/-- The element of a page is its root, and the root behind its tag matches it. -/
theorem Selector.score_pos_root :
    Selector.Matches { tag := "html", pseudoClasses := [.plain .root] } .emptyPage ∧
      ∃ p, PlainSelector.parse ":root".toList = .ok { pseudoClasses := [p] } := by
  obtain ⟨hmatches, hboth⟩ := Selector.score_pos_exactly .emptyPage
  constructor
  · have hparse : Selector.parse "html:root".toList =
        .ok { tag := "html", pseudoClasses := [.plain .root] } := by decide
    obtain ⟨-, hpos⟩ := hmatches _ _ hparse
    exact (hpos 2 (by decide)).1 (by decide)
  · exact hboth "html".toList ":root".toList { tag := "html", pseudoClasses := [.plain .root] }
      { tag := "html",
        pseudoClasses := [.functional .negation { pseudoClasses := [.plain .root] }] } 2 2
      (by decide) (by decide) (by decide) (by decide) (by decide) (by decide) (by decide)

/-- All that `:root` asks for holds at the element of a page, but its score is not positive. Behind
the tag, both the root and its negation score above zero. -/
theorem Selector.root_score_zero :
    Selector.parse ":root".toList = .ok { pseudoClasses := [.plain .root] } ∧
      Compound.Meets (FunctionalPseudo.Holds .emptyPage) { pseudoClasses := [.plain .root] }
        .emptyPage ∧
      Selector.specificity32? { pseudoClasses := [.plain .root] } .emptyPage = some 0 ∧
      Selector.parse "html:root".toList =
        .ok { tag := "html", pseudoClasses := [.plain .root] } ∧
      Selector.specificity32? { tag := "html", pseudoClasses := [.plain .root] } .emptyPage =
        some 2 ∧
      Selector.parse "html:not(:root)".toList =
        .ok { tag := "html",
              pseudoClasses := [.functional .negation { pseudoClasses := [.plain .root] }] } ∧
      Selector.specificity32?
        { tag := "html",
          pseudoClasses := [.functional .negation { pseudoClasses := [.plain .root] }] }
        .emptyPage = some 2 := by
  have hmeets : Compound.Meets (FunctionalPseudo.Holds .emptyPage)
      { pseudoClasses := [.plain .root] } .emptyPage := by
    refine ⟨{ tag := "html" }, by decide, by simp, by simp, by simp, by simp, ?_⟩
    intro p hp
    obtain rfl : p = .plain .root := by simpa using hp
    show PlainPseudo.holds .root .emptyPage { tag := "html" } = true
    decide
  exact ⟨by decide, hmeets, by decide, by decide, by decide, by decide, by decide⟩

end BoxFlow
