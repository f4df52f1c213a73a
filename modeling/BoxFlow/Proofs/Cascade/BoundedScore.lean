import BoxFlow.Cascade.Compute
import Mathlib.Algebra.Order.Ring.Int
import Mathlib.Data.List.Forall2

/-!
# Scores in 32 bits

A selector is scored by asking for its parts one after the other, with a total of 32 bits. Each part
that holds adds its weight to the total, and the first that does not hold ends it. Where this comes
to a score, it is the one that is defined without a bound (`Selector.specificity_of_32`). It does so
at every node if the parts of the selector weigh less than `2 ^ 31`, and so do the parts of each
argument (`Selector.specificity32?_eq`), which selectors of up to a million parts are far from
(`Selector.Fits.of_partCount`). Styling with such selectors does not fail
(`StyleInput.overflow?_eq_none`).
-/

set_option autoImplicit false

namespace BoxFlow

/-! ## Checks in turn -/

namespace Check

variable {check check' : Check} {checks checks' : List Check} {total n : Int}

/-- Whether the part is known to hold. -/
def passes (check : Check) : Bool := check.passes? == some true

/-- What checks come to on top of a total: the sum of their weights, unless one fails. -/
def outcome (total : Int) (checks : List Check) : Int :=
  if checks.all passes then total + (checks.map weight).sum else noMatch

/-- If the sum of all weights fits, so does each sum on the way to it. -/
theorem tally32?_eq (hknown : ∀ check ∈ checks, check.passes?.isSome) (hlow : -2 ^ 31 ≤ total)
    (hhigh : total + (checks.map weight).sum < 2 ^ 31) :
    tally32? total checks = some (outcome total checks) := by
  -- weights are no negative numbers, so the next total is between this one and the last
  induction checks generalizing total with
  | nil => simp [tally32?, outcome]
  | cons check checks ih =>
    obtain ⟨hfirst, hrest⟩ := List.forall_mem_cons.1 hknown
    obtain ⟨passed, hpassed⟩ := Option.isSome_iff_exists.1 hfirst
    rw [List.map_cons, List.sum_cons, Int.natCast_add] at hhigh
    rw [tally32?, hpassed]
    cases passed with
    | true =>
      have hfits : -2147483648 ≤ total + check.weight ∧ total + check.weight ≤ 2147483647 := by
        omega
      simp only [add32?, if_pos hfits, Option.bind_some, ih hrest hfits.1 (by omega)]
      simp [outcome, passes, hpassed, Int.add_assoc]
    | false => simp [outcome, passes, hpassed]

/-- What is counted is what the checks come to. -/
theorem eq_outcome (hknown : ∀ check ∈ checks, check.passes?.isSome)
    (h : tally32? total checks = some n) : n = outcome total checks := by
  induction checks generalizing total with
  | nil => simpa [tally32?, outcome, eq_comm] using h
  | cons check checks ih =>
    obtain ⟨hfirst, hrest⟩ := List.forall_mem_cons.1 hknown
    obtain ⟨passed, hpassed⟩ := Option.isSome_iff_exists.1 hfirst
    rw [tally32?, hpassed] at h
    cases passed with
    | true =>
      obtain ⟨sum, hsum, htail⟩ := Option.bind_eq_some_iff.1 h
      rw [add32?, Option.ite_none_right_eq_some, Option.some.injEq] at hsum
      rw [ih hrest htail, ← hsum.2]
      simp [outcome, passes, hpassed, Int.add_assoc]
    | false =>
      obtain rfl := Option.some.inj h
      simp [outcome, passes, hpassed]

/-- Of two checks of one weight, the second says what the first says, and maybe more. -/
structure Completes (check check' : Check) : Prop where
  weight_eq : check'.weight = check.weight
  passes? : ∀ passed, check.passes? = some passed → check'.passes? = some passed

instance : Std.Refl Completes := ⟨fun _ => ⟨rfl, fun _ h => h⟩⟩

/-- What is counted does not change if more is said. -/
theorem tally32?_of_completes (hchecks : List.Forall₂ Completes checks checks')
    (h : tally32? total checks = some n) : tally32? total checks' = some n := by
  induction hchecks generalizing total with
  | nil => exact h
  | @cons check check' checks checks' hfirst _ ih =>
    cases hpassed : check.passes? with
    | none => simp [tally32?, hpassed] at h
    | some passed =>
      rw [tally32?, hpassed] at h
      rw [tally32?, hfirst.passes? passed hpassed]
      cases passed with
      | false => exact h
      | true =>
        obtain ⟨sum, hsum, htail⟩ := Option.bind_eq_some_iff.1 h
        rw [hfirst.weight_eq]
        exact Option.bind_eq_some_iff.2 ⟨sum, hsum, ih htail⟩

end Check

/-! ## The checks of a selector -/

namespace Compound

variable {α : Type} {c : Compound α} {s : Subject} {e : Element} {n : Int}

/-- The number of parts. -/
def partCount (c : Compound α) : ℕ :=
  c.ids.length + (if c.tag = "" then 0 else 1) + c.classes.length +
    c.attributeTest.toList.length + c.pseudoClasses.length

theorem attributeHolds_eq (c : Compound α) (e : Element) :
    c.attributeHolds e = c.attributeTest.toList.all (fragmentHolds e) := by
  rw [attributeHolds]
  cases c.attributeTest with
  | none => rfl
  | some raw => rw [Option.toList_some, List.all_cons, List.all_nil, Bool.and_true]; rfl

theorem sum_checks (functionHolds? : FunctionalPseudo → α → Option Bool) (c : Compound α)
    (s : Subject) (e : Element) :
    ((c.checks functionHolds? s e).map Check.weight).sum =
      100 * c.ids.length + (if c.tag = "" then 0 else 2) + 10 * c.classes.length +
        10 * c.attributeTest.toList.length + c.pseudoClasses.length := by
  simp only [checks, List.map_append, List.map_map, List.sum_append, Function.comp_def,
    List.map_const', List.sum_replicate_nat]
  by_cases htag : c.tag = "" <;> simp [htag] <;> omega

theorem weight_eq (functionHolds? : FunctionalPseudo → α → Option Bool) (c : Compound α)
    (s : Subject) (e : Element) :
    c.weight = c.base + ((c.checks functionHolds? s e).map Check.weight).sum := by
  rw [sum_checks, weight, base]
  cases c.attributeTest <;> by_cases htag : c.tag = "" <;> simp [htag] <;> omega

theorem neg_one_le_base (c : Compound α) : -1 ≤ c.base := by
  rw [base]
  split <;> decide

/-- No part weighs more than a hundred. -/
theorem weight_le_of_parts (c : Compound α) : c.weight ≤ 1 + 100 * c.partCount := by
  rw [weight, partCount]
  cases c.attributeTest with
  | none => simp only [Option.isSome_none, Option.toList_none, List.length_nil]; grind
  | some raw => simp only [Option.isSome_some, Option.toList_some, List.length_singleton]; grind

/-- A million parts are far from what 32 bits can count. -/
theorem weight_lt_of_partCount (h : c.partCount ≤ 1000000) : c.weight < 2 ^ 31 := by
  have hweight := c.weight_le_of_parts
  omega

section Known

variable (functionHolds : FunctionalPseudo → α → Bool)

/-- The checks of a selector, if functional pseudo-classes are known to hold or not. -/
def knownChecks (c : Compound α) (s : Subject) (e : Element) : List Check :=
  c.checks (fun kind a => some (functionHolds kind a)) s e

theorem pseudoHolds?_known (p : PseudoClass α) :
    pseudoHolds? (fun kind a => some (functionHolds kind a)) s e p =
      some (pseudoHolds functionHolds s e p) := by
  cases p <;> rfl

theorem isSome_of_mem_knownChecks (c : Compound α) (s : Subject) (e : Element) :
    ∀ check ∈ c.knownChecks functionHolds s e, check.passes?.isSome := by
  intro check hcheck
  simp only [knownChecks, checks, List.mem_append, List.mem_map, pseudoHolds?_known] at hcheck
  rcases hcheck with (((⟨_, _, rfl⟩ | htag) | ⟨_, _, rfl⟩) | ⟨_, _, rfl⟩) | ⟨_, _, rfl⟩
  · rfl
  · split at htag
    · exact absurd htag List.not_mem_nil
    · rw [List.mem_singleton.1 htag]
      rfl
  · rfl
  · rfl
  · rfl

theorem all_knownChecks (c : Compound α) (s : Subject) (e : Element) :
    (c.knownChecks functionHolds s e).all Check.passes = (c.namesHold e && c.attributeHolds e &&
      c.pseudoClasses.all (pseudoHolds functionHolds s e)) := by
  simp only [knownChecks, checks, List.all_append, List.all_map, namesHold, attributeHolds_eq,
    Function.comp_def, Check.passes, pseudoHolds?_known]
  by_cases htag : c.tag = ""
  · simp [htag]
  · simp [htag, beq_eq_false_iff_ne.2 htag, Check.passes]

theorem scoreWith_eq_outcome (he : s.tree.element? s.id = some e) :
    c.scoreWith functionHolds s = Check.outcome c.base (c.knownChecks functionHolds s e) := by
  simp only [scoreWith, he]
  rw [Check.outcome, all_knownChecks, weight_eq _ c s e]
  rfl

variable {functionHolds} {functionHolds? : FunctionalPseudo → α → Option Bool}

/-- The score of a selector that does not weigh too much is counted, if it can be told of its
functional pseudo-classes whether they hold. -/
theorem score32?_eq (hweight : c.weight < 2 ^ 31)
    (hknown : ∀ kind a, .functional kind a ∈ c.pseudoClasses →
      functionHolds? kind a = some (functionHolds kind a)) (s : Subject) :
    c.score32? functionHolds? s = some (c.scoreWith functionHolds s) := by
  rw [score32?]
  cases he : s.tree.element? s.id with
  | none => simp [scoreWith, he]
  | some e =>
    have hchecks : c.checks functionHolds? s e = c.knownChecks functionHolds s e := by
      simp only [knownChecks, checks]
      congr 1
      apply List.map_congr_left
      rintro (kind | ⟨kind, a⟩) hp
      · rfl
      · exact congrArg (Check.mk 1) (hknown kind a hp)
    have hbase := c.neg_one_le_base
    rw [weight_eq functionHolds? c s e, hchecks] at hweight
    rw [scoreWith_eq_outcome functionHolds he]
    show Check.tally32? c.base (c.checks functionHolds? s e) = _
    rw [hchecks]
    exact Check.tally32?_eq (c.isSome_of_mem_knownChecks functionHolds s e) (by omega) hweight

/-- A score that is counted is the score, whatever of the functional pseudo-classes can be told. -/
theorem scoreWith_of_32
    (hsound : ∀ kind a passed, functionHolds? kind a = some passed →
      functionHolds kind a = passed)
    (h : c.score32? functionHolds? s = some n) : c.scoreWith functionHolds s = n := by
  rw [score32?] at h
  cases he : s.tree.element? s.id with
  | none =>
    rw [he] at h
    simpa [scoreWith, he] using h
  | some e =>
    rw [he] at h
    have hpseudo : List.Forall₂ Check.Completes
        (c.pseudoClasses.map fun p => ⟨1, pseudoHolds? functionHolds? s e p⟩)
        (c.pseudoClasses.map fun p =>
          ⟨1, pseudoHolds? (fun kind a => some (functionHolds kind a)) s e p⟩) := by
      rw [List.forall₂_map_left_iff, List.forall₂_map_right_iff, List.forall₂_same]
      rintro (kind | ⟨kind, a⟩) -
      · exact Std.Refl.refl _
      · refine ⟨rfl, fun passed hpassed => ?_⟩
        exact congrArg some (hsound kind a passed hpassed)
    have hchecks : List.Forall₂ Check.Completes (c.checks functionHolds? s e)
        (c.knownChecks functionHolds s e) :=
      List.rel_append (List.forall₂_refl _) hpseudo
    rw [scoreWith_eq_outcome functionHolds he]
    exact (Check.eq_outcome (c.isSome_of_mem_knownChecks functionHolds s e)
      (Check.tally32?_of_completes hchecks h)).symm

end Known

end Compound

/-! ## Selectors -/

namespace PlainSelector

variable {a : PlainSelector} {n : Int}

/-- An argument has no functional pseudo-classes, so there is nothing to be told of them. -/
theorem specificity_of_32 {s : Subject} (h : a.specificity32? s = some n) :
    a.specificity s = n :=
  Compound.scoreWith_of_32 (fun _ b => b.elim) h

theorem specificity32?_eq (h : a.weight < 2 ^ 31) (s : Subject) :
    a.specificity32? s = some (a.specificity s) :=
  Compound.score32?_eq h (fun _ b => b.elim) s

end PlainSelector

namespace FunctionalPseudo

variable {s : Subject} {kind : FunctionalPseudo} {a : PlainSelector}

theorem holds_of_32 {passed : Bool} (h : kind.holds32? s a = some passed) :
    kind.holds s a = passed := by
  cases kind with
  | negation =>
    obtain ⟨n, hn, rfl⟩ := Option.map_eq_some_iff.1 h
    rw [holds, PlainSelector.specificity_of_32 hn]
  | lang | nthChild | nthLastChild | nthLastOfType | nthOfType => exact Option.some.inj h

theorem holds32?_eq (h : a.weight < 2 ^ 31) : kind.holds32? s a = some (kind.holds s a) := by
  cases kind with
  | negation => rw [holds32?, PlainSelector.specificity32?_eq h, Option.map_some, holds]
  | lang | nthChild | nthLastChild | nthLastOfType | nthOfType => rfl

end FunctionalPseudo

namespace Selector

variable {c : Selector} {n : Int}

/-- The parts of a selector weigh less than `2 ^ 31`, and so do the parts of each argument. -/
structure Fits (c : Selector) : Prop where
  weight_lt : c.weight < 2 ^ 31
  argument_lt : ∀ kind a, .functional kind a ∈ c.pseudoClasses → Compound.weight a < 2 ^ 31

/-- A million parts fit, with a million parts in each argument. -/
theorem Fits.of_partCount (h : c.partCount ≤ 1000000)
    (harguments : ∀ kind a, .functional kind a ∈ c.pseudoClasses →
      Compound.partCount a ≤ 1000000) : c.Fits where
  weight_lt := Compound.weight_lt_of_partCount h
  argument_lt kind a ha := Compound.weight_lt_of_partCount (harguments kind a ha)

/-- A score that is counted in 32 bits is the score. -/
theorem specificity_of_32 {s : Subject} (h : c.specificity32? s = some n) : c.specificity s = n :=
  Compound.scoreWith_of_32 (fun _ _ _ hpassed => FunctionalPseudo.holds_of_32 hpassed) h

/-- The score of a selector that fits is counted at every node. -/
theorem specificity32?_eq (h : c.Fits) (s : Subject) :
    c.specificity32? s = some (c.specificity s) :=
  Compound.score32?_eq h.weight_lt
    (fun kind a ha => FunctionalPseudo.holds32?_eq (h.argument_lt kind a ha)) s

end Selector

/-! ## Styling -/

namespace Stylesheet

variable {sheet : Stylesheet} {s : Subject}

theorem overflow?_eq_none_iff : sheet.overflow? s = none ↔
    ((s.tree.element? s.id).isSome →
      ∀ rule ∈ sheet.rules, (rule.selector.specificity32? s).isSome) := by
  rw [overflow?]
  cases s.tree.element? s.id with
  | none => simp
  | some e => simp [Option.isSome_iff_ne_none]

theorem overflow?_eq_none (h : ∀ rule ∈ sheet.rules, rule.selector.Fits) (s : Subject) :
    sheet.overflow? s = none := by
  rw [overflow?_eq_none_iff]
  intro _ rule hrule
  rw [Selector.specificity32?_eq (h rule hrule)]
  rfl

end Stylesheet

namespace StyleInput

variable {input : StyleInput}

theorem overflowWithin?_eq_none (h : ∀ rule ∈ input.sheet.rules, rule.selector.Fits)
    (levels : ℕ) (id : NodeId) : input.overflowWithin? levels id = none := by
  induction levels generalizing id with
  | zero => rfl
  | succ levels ih =>
    rw [overflowWithin?]
    split
    · rw [Stylesheet.overflow?_eq_none h, Option.none_or, List.findSome?_eq_none_iff]
      intro child _
      exact ih child
    · rfl

/-- Styling a tree with selectors that fit does not fail. -/
theorem overflow?_eq_none (h : ∀ rule ∈ input.sheet.rules, rule.selector.Fits) :
    input.overflow? = none := by
  rw [overflow?, List.findSome?_eq_none_iff]
  intro child _
  exact overflowWithin?_eq_none h maxDepth child

end StyleInput

end BoxFlow
