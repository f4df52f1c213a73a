import BoxFlow.Proofs.Cascade.Matching
import Mathlib.Data.List.Perm.Basic

/-!
# Adding up a score

The score of a selector is what its checks come to (`Compound.scoreWith_eq_outcome`): the sum of the
weights of its parts if all that it asks for holds, and `noMatch` otherwise. What a list of checks
comes to does not depend on its order (`Check.outcome_eq_of_perm`). So two selectors score the same
if they ask for the same parts in different orders, also within their arguments
(`Selector.specificity_eq_of_rearranges`).
-/

set_option autoImplicit false

namespace BoxFlow

/-- The order of checks does not matter, neither for the sum nor for a failure. -/
theorem Check.outcome_eq_of_perm {checks checks' : List Check} (h : checks.Perm checks')
    (total : Int) : outcome total checks = outcome total checks' := by
  rw [outcome, outcome, h.all_eq, (h.map weight).sum_nat]

namespace Compound

variable {α : Type} {functionHolds : FunctionalPseudo → α → Bool} {c : Compound α} {s : Subject}

/-- The score is the weight if all parts hold, provided that the functional pseudo-classes are
computed as they should be. -/
theorem scoreWith_of_meets {meets : FunctionalPseudo → α → Prop}
    (h : ∀ kind a, .functional kind a ∈ c.pseudoClasses →
      (functionHolds kind a = true ↔ meets kind a)) (hmeets : c.Meets meets s) :
    c.scoreWith functionHolds s = c.weight := by
  obtain ⟨e, he, hparts⟩ := hmeets
  simp only [scoreWith, he]
  rw [if_pos ((partsHold_iff h).2 hparts)]

theorem scoreWith_of_not_meets {meets : FunctionalPseudo → α → Prop}
    (h : ∀ kind a, .functional kind a ∈ c.pseudoClasses →
      (functionHolds kind a = true ↔ meets kind a)) (hmeets : ¬ c.Meets meets s) :
    c.scoreWith functionHolds s = noMatch := by
  cases he : s.tree.element? s.id with
  | none => simp only [scoreWith, he]
  | some e =>
    simp only [scoreWith, he]
    rw [if_neg]
    intro hall
    exact hmeets ⟨e, he, (partsHold_iff h).1 hall⟩

end Compound

/-! ## Rearranged selectors -/

/-- Two pseudo-classes of one kind, with related arguments if they have any. -/
inductive PseudoClass.Related {α : Type} (R : α → α → Prop) : PseudoClass α → PseudoClass α → Prop
  | plain (kind : PlainPseudo) : Related R (.plain kind) (.plain kind)
  | functional (kind : FunctionalPseudo) {a b : α} :
      R a b → Related R (.functional kind a) (.functional kind b)

/-- Two selectors with the same head and the same attribute test that ask for the same ids, classes
and pseudo-classes in some order, where the arguments of a pseudo-class are related. -/
structure Compound.Rearranges {α : Type} (R : α → α → Prop) (c c' : Compound α) : Prop where
  universal : c.universal = c'.universal
  tag : c.tag = c'.tag
  attributeTest : c.attributeTest = c'.attributeTest
  ids : c.ids.Perm c'.ids
  classes : c.classes.Perm c'.classes
  pseudoClasses : ∃ ps, c.pseudoClasses.Perm ps ∧
    List.Forall₂ (PseudoClass.Related R) ps c'.pseudoClasses

/-- Two selectors without arguments that ask for the same parts in some order. -/
def PlainSelector.Rearranges (c c' : PlainSelector) : Prop := Compound.Rearranges nofun c c'

/-- Two selectors that ask for the same parts in some order, also within arguments. -/
def Selector.Rearranges (c c' : Selector) : Prop :=
  Compound.Rearranges PlainSelector.Rearranges c c'

namespace Compound

variable {α : Type} {R : α → α → Prop} {functionHolds : FunctionalPseudo → α → Bool}
  {c c' : Compound α}

/-- Related pseudo-classes hold alike if functional ones with related arguments do. -/
theorem map_pseudoHolds_eq
    (hR : ∀ kind a b, R a b → functionHolds kind a = functionHolds kind b) (s : Subject)
    (e : Element) {ps qs : List (PseudoClass α)} (h : List.Forall₂ (PseudoClass.Related R) ps qs) :
    ps.map (pseudoHolds functionHolds s e) = qs.map (pseudoHolds functionHolds s e) := by
  induction h with
  | nil => rfl
  | cons hrelated _ ih =>
    rw [List.map_cons, List.map_cons, ih]
    cases hrelated with
    | plain kind => rfl
    | functional kind hab => rw [pseudoHolds, pseudoHolds, hR kind _ _ hab]

/-- A rearranged selector makes the same checks in some order. -/
theorem Rearranges.perm_checks (h : c.Rearranges R c')
    (hR : ∀ kind a b, R a b → functionHolds kind a = functionHolds kind b) (s : Subject)
    (e : Element) : (c.knownChecks functionHolds s e).Perm (c'.knownChecks functionHolds s e) := by
  obtain ⟨ps, hperm, hrelated⟩ := h.pseudoClasses
  have hpseudo : (c.pseudoClasses.map (pseudoHolds functionHolds s e)).Perm
      (c'.pseudoClasses.map (pseudoHolds functionHolds s e)) := by
    rw [← map_pseudoHolds_eq hR s e hrelated]
    exact hperm.map _
  simp only [knownChecks, checks, pseudoHolds?_known, h.tag, h.attributeTest]
  refine (((h.ids.map _).append (.refl _)).append (h.classes.map _)).append (.refl _) |>.append ?_
  simpa only [List.map_map, Function.comp_def] using
    hpseudo.map fun holds => Check.mk 1 (some holds)

theorem Rearranges.scoreWith_eq (h : c.Rearranges R c')
    (hR : ∀ kind a b, R a b → functionHolds kind a = functionHolds kind b) (s : Subject) :
    c.scoreWith functionHolds s = c'.scoreWith functionHolds s := by
  cases he : s.tree.element? s.id with
  | none => simp only [scoreWith, he]
  | some e =>
    rw [scoreWith_eq_outcome _ he, scoreWith_eq_outcome _ he, base, base, h.universal]
    exact Check.outcome_eq_of_perm (h.perm_checks hR s e) _

end Compound

/-- A rearranged argument asks a functional pseudo-class for the same. -/
theorem FunctionalPseudo.holds_eq_of_rearranges (s : Subject) (kind : FunctionalPseudo)
    {a b : PlainSelector} (h : a.Rearranges b) : kind.holds s a = kind.holds s b := by
  have hscore : a.specificity s = b.specificity s :=
    Compound.Rearranges.scoreWith_eq h (fun _ x => nomatch x) s
  cases kind with
  | negation => rw [holds, holds, hscore]
  | lang => rw [holds, holds, h.tag]
  | nthChild | nthLastChild | nthLastOfType | nthOfType => rfl

namespace Selector

variable {text : List Char} {c c' : Selector}

theorem specificity_eq_of_rearranges (h : c.Rearranges c') (s : Subject) :
    c.specificity s = c'.specificity s :=
  Compound.Rearranges.scoreWith_eq h (fun kind _ _ hab => kind.holds_eq_of_rearranges s hab) s

/-- The score of a selector that can be read, of at most a million parts: if all that it asks for
holds at the node it is the sum of the weights of its parts, and otherwise `noMatch`. Every sum on
the way to it fits into 32 bits, and so it is for the argument of a negation. Any selector that asks
for the same parts in some order, also within arguments, has the same score. -/
theorem specificity_adds_up (h : Selector.parse text = .ok c) (hcount : c.partCount ≤ 1000000)
    (s : Subject) :
    (c.Meets (FunctionalPseudo.Holds s) s →
      c.specificity s = (if c.universal then 1 else -1) + 100 * c.ids.length +
        (if c.tag = "" then 0 else 2) + 10 * c.classes.length +
        (if c.attributeTest.isSome then 10 else 0) + c.pseudoClasses.length) ∧
      (¬ c.Meets (FunctionalPseudo.Holds s) s → c.specificity s = noMatch) ∧
      c.score32? (fun kind a => some (kind.holds s a)) s = some (c.specificity s) ∧
      (∀ kind a, .functional kind a ∈ c.pseudoClasses → a.partCount ≤ 1000000 →
        a.specificity32? s = some (a.specificity s)) ∧
      ((∀ kind a, .functional kind a ∈ c.pseudoClasses → a.partCount ≤ 1000000) →
        c.specificity32? s = some (c.specificity s)) ∧
      ∀ c', c.Rearranges c' → c'.specificity s = c.specificity s := by
  have hholds : ∀ kind a, .functional kind a ∈ c.pseudoClasses →
      (FunctionalPseudo.holds s kind a = true ↔ FunctionalPseudo.Holds s kind a) := by
    intro kind a ha
    exact FunctionalPseudo.holds_iff ((ne_empty_of_parse h).2 kind a ha) s kind
  have hweight : c.weight < 2 ^ 31 := Compound.weight_lt_of_partCount hcount
  refine ⟨?_, ?_, Compound.score32?_eq hweight (fun _ _ _ => rfl) s, ?_, ?_, ?_⟩
  · intro hmeets
    exact Compound.scoreWith_of_meets hholds hmeets
  · intro hmeets
    exact Compound.scoreWith_of_not_meets hholds hmeets
  · intro kind a _ hcount'
    exact PlainSelector.specificity32?_eq (Compound.weight_lt_of_partCount hcount') s
  · intro harguments
    exact specificity32?_eq (.of_partCount hcount harguments) s
  · intro c' hrearranges
    exact (specificity_eq_of_rearranges hrearranges s).symm

/-- A selector with a negation, and one that asks for its parts in another order. -/
theorem specificity_adds_up_rearranged :
    let tree := (Tree.empty.appendNew Tree.root
      (.element ⟨"p", [⟨"id", "x"⟩, ⟨"class", "a b"⟩]⟩)).1
    let s : Subject := ⟨tree, 1, {}⟩
    let c : Selector :=
      { tag := "p", ids := ["x"], classes := ["a", "b"],
        pseudoClasses := [.functional .negation { classes := ["c", "d"] }, .plain .empty] }
    let c' : Selector :=
      { tag := "p", ids := ["x"], classes := ["b", "a"],
        pseudoClasses := [.plain .empty, .functional .negation { classes := ["d", "c"] }] }
    Selector.parse "p#x.a.b:not(.c.d):empty".toList = .ok c ∧
      Selector.parse "p:empty.b.a#x:not(.d.c)".toList = .ok c' ∧ c.partCount ≤ 1000000 ∧
      c.Meets (FunctionalPseudo.Holds s) s ∧ c.Rearranges c' ∧
      c.specificity s = 123 ∧ c'.specificity s = 123 := by
  intro tree s c c'
  have h : Selector.parse "p#x.a.b:not(.c.d):empty".toList = .ok c := by decide
  have h' : Selector.parse "p:empty.b.a#x:not(.d.c)".toList = .ok c' := by decide
  have hcount : c.partCount ≤ 1000000 := by decide
  have hpseudo : List.Forall₂ (PseudoClass.Related PlainSelector.Rearranges)
      [.plain .empty, .functional .negation { classes := ["c", "d"] }] c'.pseudoClasses :=
    .cons (.plain _) (.cons (.functional _
      ⟨rfl, rfl, rfl, .refl _, .swap _ _ _, [], .refl _, .nil⟩) .nil)
  have hrearranges : c.Rearranges c' :=
    ⟨rfl, rfl, rfl, .refl _, .swap _ _ _, _, .swap _ _ _, hpseudo⟩
  have hmeets : c.Meets (FunctionalPseudo.Holds s) s := by
    by_contra hnot
    have hscore := (specificity_adds_up h hcount s).2.1 hnot
    exact absurd hscore (by decide +kernel)
  obtain ⟨hsum, -, -, -, -, hsame⟩ := specificity_adds_up h hcount s
  have hscore : c.specificity s = 123 := hsum hmeets
  exact ⟨h, h', hcount, hmeets, hrearranges, hscore, (hsame c' hrearranges).trans hscore⟩

end Selector

end BoxFlow
