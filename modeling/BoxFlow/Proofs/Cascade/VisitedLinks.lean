import BoxFlow.Cascade.Compute
import BoxFlow.Proofs.Dom.Subtree
import BoxFlow.Selector.Parse
import Mathlib.Logic.Basic
import Mathlib.Tactic.IntervalCases

/-!
# What styles tell about visited links

The visited set is compared over two runs. Two sets agree on a tree if they answer alike for each
target that the tree links to, the target of an element being its first `href`
(`Visited.AgreeOn`). What lies outside the tree is then invisible: no pseudo-class, negated or not,
and so no score, no rank and no style at any depth tells the two sets apart.

Within the tree, `:link` and `:visited` split the elements with an `href` between them. Behind a
star each is a match of its own (`Selector.starred`), which a pseudo-class alone is not.
-/

set_option autoImplicit false

namespace BoxFlow

/-- Some element of the tree has `href` as the value of its first `href` attribute. -/
def Tree.LinksTo (t : Tree) (href : String) : Prop :=
  ∃ id e, t.element? id = some e ∧ e.attribute? "href" = some href

/-- Both sets or neither have each target that the tree links to. -/
def Visited.AgreeOn (t : Tree) (v w : Visited) : Prop :=
  ∀ href, t.LinksTo href → v.contains href = w.contains href

/-! ## Two runs over one tree -/

section TwoRuns

variable {t : Tree} {v w : Visited} {id : NodeId}

/-- Only `:link` and `:visited` ask for visited targets, and only for that of the element. -/
theorem PlainPseudo.holds_eq_of_agreeOn (h : v.AgreeOn t w) {e : Element}
    (he : t.element? id = some e) (kind : PlainPseudo) :
    kind.holds ⟨t, id, v⟩ e = kind.holds ⟨t, id, w⟩ e := by
  have htarget : ∀ href, e.attribute? "href" = some href → v.contains href = w.contains href :=
    fun href hhref => h href ⟨id, e, he, hhref⟩
  cases kind with
  | link | visited =>
    cases hhref : e.attribute? "href" with
    | none => simp [holds, hhref]
    | some href => simp [holds, hhref, htarget href hhref]
  -- all other kinds are computed from the tree alone
  | _ => rfl

theorem Compound.scoreWith_eq_of_agreeOn {α : Type} (h : v.AgreeOn t w)
    (functionHolds : FunctionalPseudo → α → Bool) (c : Compound α) :
    c.scoreWith functionHolds ⟨t, id, v⟩ = c.scoreWith functionHolds ⟨t, id, w⟩ := by
  cases he : t.element? id with
  | none => simp only [scoreWith, he]
  | some e =>
    -- names and the attribute test are asked of the element, so only pseudo-classes are left
    have hpseudo : pseudoHolds functionHolds ⟨t, id, v⟩ e =
        pseudoHolds functionHolds ⟨t, id, w⟩ e := by
      funext p
      cases p with
      | plain kind => exact kind.holds_eq_of_agreeOn h he
      | functional kind argument => rfl
    simp only [scoreWith, he, hpseudo]

theorem PlainSelector.specificity_eq_of_agreeOn (h : v.AgreeOn t w) (c : PlainSelector) :
    c.specificity ⟨t, id, v⟩ = c.specificity ⟨t, id, w⟩ :=
  Compound.scoreWith_eq_of_agreeOn h _ c

/-- A negation asks for the score of its argument, in which there is no further negation. -/
theorem FunctionalPseudo.holds_eq_of_agreeOn (h : v.AgreeOn t w) :
    FunctionalPseudo.holds ⟨t, id, v⟩ = FunctionalPseudo.holds ⟨t, id, w⟩ := by
  funext kind argument
  cases kind with
  | negation => simp only [holds, PlainSelector.specificity_eq_of_agreeOn h]
  | _ => rfl

theorem Selector.specificity_eq_of_agreeOn (h : v.AgreeOn t w) (c : Selector) :
    c.specificity ⟨t, id, v⟩ = c.specificity ⟨t, id, w⟩ := by
  rw [specificity, FunctionalPseudo.holds_eq_of_agreeOn h]
  exact Compound.scoreWith_eq_of_agreeOn h _ c

/-- The same rules match with the same scores, so they have the same order of rank. -/
theorem Stylesheet.computed_eq_of_agreeOn (h : v.AgreeOn t w) (sheet : Stylesheet)
    (parent : Style) : sheet.computed ⟨t, id, v⟩ parent = sheet.computed ⟨t, id, w⟩ parent := by
  have hmatching : sheet.matching ⟨t, id, v⟩ = sheet.matching ⟨t, id, w⟩ := by
    simp only [matching, Selector.specificity_eq_of_agreeOn h]
  simp only [computed, cascaded, ranked, hmatching]

theorem StyleInput.stylesWithin_eq_of_agreeOn (h : v.AgreeOn t w) (sheet : Stylesheet)
    (levels : ℕ) : stylesWithin ⟨t, sheet, v⟩ levels = stylesWithin ⟨t, sheet, w⟩ levels := by
  induction levels with
  | zero => rfl
  | succ levels ih =>
    funext parent id
    -- the children are styled from the style of the node, which is the same in both runs
    simp only [stylesWithin, subject, Stylesheet.computed_eq_of_agreeOn h, ih]

end TwoRuns

/-! ## Links behind a star -/

namespace Selector

/-- A star with one pseudo-class. -/
def starred (kind : PlainPseudo) : Selector :=
  { universal := true, pseudoClasses := [.plain kind] }

/-- The star makes up for the base of -1, so the pseudo-class alone decides. -/
theorem specificity_starred_pos_iff (kind : PlainPseudo) (s : Subject) :
    0 < (starred kind).specificity s ↔
      ∃ e, s.tree.element? s.id = some e ∧ kind.holds s e = true := by
  cases he : s.tree.element? s.id with
  | none => simp [specificity, Compound.scoreWith, he, noMatch]
  | some e =>
    cases hkind : kind.holds s e <;>
      simp [specificity, Compound.scoreWith, Compound.namesHold, Compound.attributeHolds,
        Compound.pseudoHolds, Compound.weight, starred, he, hkind, noMatch]

end Selector

section Partition

variable (s : Subject)

theorem PlainPseudo.not_holds_link_and_visited (e : Element) :
    ¬ (holds link s e = true ∧ holds visited s e = true) := by
  cases hhref : e.attribute? "href" <;> simp [holds, hhref]

theorem PlainPseudo.holds_link_or_visited_iff (e : Element) :
    holds link s e = true ∨ holds visited s e = true ↔ e.hasAttribute "href" = true := by
  cases hhref : e.attribute? "href" with
  | none => simp [holds, Element.hasAttribute, hhref]
  | some href =>
    cases hv : s.visited.contains href <;> simp [holds, Element.hasAttribute, hhref, hv]

theorem Selector.not_starred_link_and_visited :
    ¬ (0 < (starred .link).specificity s ∧ 0 < (starred .visited).specificity s) := by
  rw [specificity_starred_pos_iff, specificity_starred_pos_iff]
  rintro ⟨⟨e, he, hlink⟩, e', he', hvisited⟩
  obtain rfl : e = e' := Option.some.inj (he.symm.trans he')
  exact PlainPseudo.not_holds_link_and_visited s e ⟨hlink, hvisited⟩

theorem Selector.starred_link_or_visited_iff {e : Element} (he : s.tree.element? s.id = some e) :
    0 < (starred .link).specificity s ∨ 0 < (starred .visited).specificity s ↔
      e.hasAttribute "href" = true := by
  simp only [specificity_starred_pos_iff, he, Option.some.injEq, exists_eq_left',
    PlainPseudo.holds_link_or_visited_iff]

end Partition

/-! ## Styles -/

namespace StyleInput

/-- Visited sets that agree on the first `href` of each element give the same styles. No node is
matched both by `*:link` and by `*:visited`. An element with an `href` is matched by exactly one of
them, and an element without is matched by neither. -/
theorem styles_see_links_only :
    (∀ (t : Tree) (sheet : Stylesheet) (v w : Visited), v.AgreeOn t w →
      styles ⟨t, sheet, v⟩ = styles ⟨t, sheet, w⟩) ∧
    ∃ link visited : Selector, Selector.parse "*:link".toList = .ok link ∧
      Selector.parse "*:visited".toList = .ok visited ∧
      ∀ s : Subject, ¬ (0 < link.specificity s ∧ 0 < visited.specificity s) ∧
        ∀ e, s.tree.element? s.id = some e →
          (e.hasAttribute "href" = true →
            Xor (0 < link.specificity s) (0 < visited.specificity s)) ∧
          (e.hasAttribute "href" = false →
            ¬ 0 < link.specificity s ∧ ¬ 0 < visited.specificity s) := by
  constructor
  · intro t sheet v w h
    simp only [styles, styleList, stylesWithin_eq_of_agreeOn h]
  · refine ⟨.starred .link, .starred .visited, by decide, by decide, ?_⟩
    intro s
    have hboth := Selector.not_starred_link_and_visited s
    refine ⟨hboth, ?_⟩
    intro e he
    have heither := Selector.starred_link_or_visited_iff s he
    constructor
    · intro hhref
      rw [xor_iff_or_and_not_and]
      exact ⟨heither.2 hhref, hboth⟩
    · intro hhref
      rw [← not_or, heither, hhref]
      exact Bool.false_ne_true

/-- A visited page that nothing links to makes no difference. The link to a visited page is left
alone, and the one to a new page is green, for only its first `href` counts. -/
theorem styles_see_links_only_of_two :
    let tree := (((Tree.empty.appendNew Tree.root
      (.element ⟨"a", [⟨"href", "/seen"⟩]⟩)).1.appendNew Tree.root
      (.element ⟨"a", [⟨"href", "/new"⟩, ⟨"href", "/seen"⟩]⟩)).1.appendNew Tree.root
      (.element ⟨"a", []⟩)).1
    let unvisited : Selector :=
      { tag := "a",
        pseudoClasses :=
          [.functional .negation { universal := true, pseudoClasses := [.plain .visited] }] }
    let sheet : Stylesheet :=
      ⟨[⟨"a:not(*:visited)", unvisited, Block.empty.set "color" "green"⟩]⟩
    let v : Visited := ⟨["/seen", "/elsewhere"]⟩
    let w : Visited := ⟨["/seen"]⟩
    v ≠ w ∧ v.AgreeOn tree w ∧ styles ⟨tree, sheet, v⟩ = styles ⟨tree, sheet, w⟩ ∧
      (styles ⟨tree, sheet, v⟩).get? 1 = some .empty ∧
      (styles ⟨tree, sheet, v⟩).get? 2 = some (.ofPairs [("color", "green")]) ∧
      ∃ link visited : Selector,
        Xor (0 < link.specificity ⟨tree, 2, v⟩) (0 < visited.specificity ⟨tree, 2, v⟩) ∧
        ¬ 0 < link.specificity ⟨tree, 3, v⟩ ∧ ¬ 0 < visited.specificity ⟨tree, 3, v⟩ := by
  intro tree unvisited sheet v w
  have hagree : v.AgreeOn tree w := by
    rintro href ⟨id, e, he, hhref⟩
    have hid : id < 4 := Tree.lt_size_of_element? (Option.isSome_of_eq_some he)
    interval_cases id <;> cases he <;> cases hhref <;> decide
  obtain ⟨hstyles, link, visited, -, -, hsplit⟩ := styles_see_links_only
  -- the second link, and the element without one
  have hnew := (hsplit ⟨tree, 2, v⟩).2 ⟨"a", [⟨"href", "/new"⟩, ⟨"href", "/seen"⟩]⟩ (by decide)
  have hanchor := (hsplit ⟨tree, 3, v⟩).2 ⟨"a", []⟩ (by decide)
  exact ⟨by decide, hagree, hstyles tree sheet v w hagree, by decide +kernel, by decide +kernel,
    link, visited, hnew.1 (by decide), hanchor.2 (by decide)⟩

end StyleInput

end BoxFlow
