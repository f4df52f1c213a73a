import BoxFlow.Cascade.Compute
import BoxFlow.Proofs.Style.Lookup
import Mathlib.Data.Bool.Basic
import Mathlib.Data.Prod.Lex

/-!
# Which rule decides about a property

A rule competes for a property of a node when its selector scores above zero against the node and
its block declares the property. Competing rules are compared by score first, then a universal one
yields to the others, then the later one in the sheet wins. What the sheet gives to the property is
the value in the greatest competing rule (`Gives`), and there is exactly one such answer.

Applying all matching rules in order of rank arrives at that answer (`Stylesheet.gives_cascaded`).
The proof is by induction on the sheet: a rule in front of the others is sorted in behind those
that are strictly below it and before all others.
-/

set_option autoImplicit false

namespace BoxFlow

/-! ## The order of application -/

namespace RankedRule

variable {x y z : RankedRule}

/-- The score, then whether the selector is not universal. -/
def key (x : RankedRule) : ℤ ×ₗ Bool := toLex (x.score, !x.rule.selector.universal)

theorem le_iff_key_le : x.le y = true ↔ x.key ≤ y.key := by
  rw [key, key, Prod.Lex.toLex_le_toLex]
  cases hx : x.rule.selector.universal <;> cases hy : y.rule.selector.universal <;>
    simp [RankedRule.le, hx, hy]

theorem le_of_le_of_le (x y z : RankedRule) (hxy : x.le y = true) (hyz : y.le z = true) :
    x.le z = true :=
  le_iff_key_le.2 ((le_iff_key_le.1 hxy).trans (le_iff_key_le.1 hyz))

theorem le_or_le (x y : RankedRule) : (x.le y || y.le x) = true := by
  rw [Bool.or_eq_true, le_iff_key_le, le_iff_key_le]
  exact le_total x.key y.key

/-- Whether the rule declares a property. -/
def declares (p : String) (x : RankedRule) : Bool :=
  (x.rule.declarations.get? p).isSome

/-- The last of some rules that declares a property. -/
def lastDeclaring (p : String) (xs : List RankedRule) : Option RankedRule :=
  xs.reverse.find? (declares p)

theorem lastDeclaring_append (p : String) (xs ys : List RankedRule) :
    lastDeclaring p (xs ++ ys) = (lastDeclaring p ys).or (lastDeclaring p xs) := by
  rw [lastDeclaring, List.reverse_append, List.find?_append]
  rfl

theorem lastDeclaring_cons (p : String) (x : RankedRule) (xs : List RankedRule) :
    lastDeclaring p (x :: xs) =
      (lastDeclaring p xs).or (if x.declares p then some x else none) := by
  rw [← List.singleton_append, lastDeclaring_append]
  cases hx : x.declares p <;> simp [lastDeclaring, hx]

theorem declares_of_lastDeclaring {p : String} {xs : List RankedRule}
    (h : lastDeclaring p xs = some x) : x.declares p = true :=
  List.find?_some h

theorem mem_of_lastDeclaring {p : String} {xs : List RankedRule}
    (h : lastDeclaring p xs = some x) : x ∈ xs :=
  List.mem_reverse.1 (List.mem_of_find?_eq_some h)

theorem not_declares_of_lastDeclaring {p : String} {xs : List RankedRule}
    (h : lastDeclaring p xs = none) (hx : x ∈ xs) : ¬ x.declares p = true :=
  List.find?_eq_none.1 h x (List.mem_reverse.2 hx)

/-- Applied in turn, the last rule that declares a property decides about it. -/
theorem get?_foldl_apply (p : String) (xs : List RankedRule) (style : Style) :
    (xs.foldl (fun style x => style.apply x.rule.declarations) style).get? p =
      ((lastDeclaring p xs).bind fun x => x.rule.declarations.get? p).or (style.get? p) := by
  induction xs generalizing style with
  | nil => rfl
  | cons x xs ih =>
    rw [List.foldl_cons, ih, Style.get?_apply, lastDeclaring_cons]
    cases hlast : lastDeclaring p xs with
    | some y =>
      obtain ⟨v, hv⟩ := Option.isSome_iff_exists.1 (declares_of_lastDeclaring hlast)
      simp [hv]
    | none =>
      cases hv : x.rule.declarations.get? p <;> simp [declares, hv]

end RankedRule

/-! ## The greatest competing rule -/

namespace Rule

variable {r r' : Rule} {s : Subject}

/-- The rule with its score against a node. -/
def against (s : Subject) (r : Rule) : RankedRule :=
  ⟨r.selector.specificity s, r⟩

/-- The rule matches the node and declares the property. -/
def Competes (r : Rule) (s : Subject) (p : String) : Prop :=
  0 < r.selector.specificity s ∧ (r.declarations.get? p).isSome

/-- The rank of a rule at a position of a sheet: its score, then whether it is not universal, then
the position. -/
def rank (r : Rule) (s : Subject) (position : ℕ) : (ℤ ×ₗ Bool) ×ₗ ℕ :=
  toLex (toLex (r.selector.specificity s, !r.selector.universal), position)

theorem rank_le_rank_iff {i j : ℕ} :
    r.rank s i ≤ r'.rank s j ↔
      (r.against s).key < (r'.against s).key ∨
        (r.against s).key = (r'.against s).key ∧ i ≤ j :=
  Prod.Lex.toLex_le_toLex

end Rule

/-- The rule at position `i` of a list of rules competes for a property, and no competing rule has
a greater rank. -/
structure IsWinner (rules : List Rule) (s : Subject) (p : String) (i : ℕ) (r : Rule) : Prop where
  at_position : rules[i]? = some r
  competes : r.Competes s p
  greatest : ∀ (j : ℕ) (r' : Rule), rules[j]? = some r' → r'.Competes s p →
    r'.rank s j ≤ r.rank s i

/-- What a list of rules gives to a property of a node: nothing if no rule competes for it, and
otherwise its value in the winner. -/
inductive Gives (rules : List Rule) (s : Subject) (p : String) : Option String → Prop
  | nothing : (∀ r ∈ rules, ¬ r.Competes s p) → Gives rules s p none
  | winner {i : ℕ} {r : Rule} :
      IsWinner rules s p i r → Gives rules s p (r.declarations.get? p)

namespace IsWinner

variable {rules : List Rule} {s : Subject} {p : String} {i j : ℕ} {r r' : Rule}

/-- Ranks at different positions differ, so there is one winner. -/
theorem unique (h : IsWinner rules s p i r) (h' : IsWinner rules s p j r') : r = r' := by
  have hle := h'.greatest i r h.at_position h.competes
  have hge := h.greatest j r' h'.at_position h'.competes
  have hij : i = j := congrArg (fun x => (ofLex x).2) (le_antisymm hle hge)
  subst hij
  exact Option.some.inj (h.at_position.symm.trans h'.at_position)

/-- A winner remains one behind a further rule that is not above it. -/
theorem cons {a : Rule} (h : IsWinner rules s p i r)
    (ha : a.Competes s p → (a.against s).key ≤ (r.against s).key) :
    IsWinner (a :: rules) s p (i + 1) r where
  at_position := h.at_position
  competes := h.competes
  greatest := by
    intro j r' hj hr'
    rw [Rule.rank_le_rank_iff]
    cases j with
    | zero =>
      obtain rfl : a = r' := Option.some.inj hj
      rcases (ha hr').lt_or_eq with hlt | heq
      · exact Or.inl hlt
      · exact Or.inr ⟨heq, Nat.zero_le _⟩
    | succ j =>
      rcases Rule.rank_le_rank_iff.1 (h.greatest j r' hj hr') with hlt | ⟨heq, hji⟩
      · exact Or.inl hlt
      · exact Or.inr ⟨heq, Nat.succ_le_succ hji⟩

/-- A competing rule in front of rules that are all below it wins. -/
theorem head {a : Rule} (ha : a.Competes s p)
    (hbelow : ∀ r ∈ rules, r.Competes s p → (r.against s).key < (a.against s).key) :
    IsWinner (a :: rules) s p 0 a where
  at_position := rfl
  competes := ha
  greatest := by
    intro j r' hj hr'
    rw [Rule.rank_le_rank_iff]
    cases j with
    | zero =>
      obtain rfl : a = r' := Option.some.inj hj
      exact Or.inr ⟨rfl, Nat.le_refl _⟩
    | succ j => exact Or.inl (hbelow r' (List.mem_of_getElem? hj) hr')

end IsWinner

theorem Gives.unique {rules : List Rule} {s : Subject} {p : String} {v w : Option String}
    (hv : Gives rules s p v) (hw : Gives rules s p w) : v = w := by
  cases hv with
  | nothing hnone =>
    cases hw with
    | nothing => rfl
    | winner h => exact absurd h.competes (hnone _ (List.mem_of_getElem? h.at_position))
  | winner h =>
    cases hw with
    | nothing hnone => exact absurd h.competes (hnone _ (List.mem_of_getElem? h.at_position))
    | winner h' => rw [h.unique h']

/-! ## The order of application finds the winner -/

namespace Stylesheet

variable {s : Subject} {p : String}

theorem matching_cons (a : Rule) (rules : List Rule) (s : Subject) :
    matching ⟨a :: rules⟩ s =
      if 0 < a.selector.specificity s then a.against s :: matching ⟨rules⟩ s
      else matching ⟨rules⟩ s := by
  by_cases h : 0 < a.selector.specificity s <;> simp [matching, Rule.against, h]

theorem mem_matching {rules : List Rule} {r : Rule} (hr : r ∈ rules)
    (h : 0 < r.selector.specificity s) : r.against s ∈ matching ⟨rules⟩ s :=
  List.mem_filter.2 ⟨List.mem_map_of_mem hr, decide_eq_true h⟩

/-- The last rule in the order of application that declares a property is the winner. -/
theorem exists_isWinner_of_lastDeclaring {rules : List Rule} {x : RankedRule}
    (hx : RankedRule.lastDeclaring p (ranked ⟨rules⟩ s) = some x) :
    ∃ i r, IsWinner rules s p i r ∧ r.against s = x := by
  induction rules generalizing x with
  | nil => simp [ranked, matching, RankedRule.lastDeclaring] at hx
  | cons a rules ih =>
    rw [ranked, matching_cons] at hx
    by_cases hscore : 0 < a.selector.specificity s
    · rw [if_pos hscore] at hx
      obtain ⟨below, above, happend, hrest, hbelow⟩ :=
        List.mergeSort_cons RankedRule.le_of_le_of_le RankedRule.le_or_le (a.against s)
          (matching ⟨rules⟩ s)
      have hranked : ranked ⟨rules⟩ s = below ++ above := hrest
      have hsorted : (below ++ a.against s :: above).Pairwise (fun x y => x.le y = true) :=
        happend ▸ List.pairwise_mergeSort RankedRule.le_of_le_of_le RankedRule.le_or_le _
      have habove : ∀ y ∈ above, (a.against s).le y = true :=
        (List.pairwise_cons.1 (List.pairwise_append.1 hsorted).2.1).1
      rw [happend, RankedRule.lastDeclaring_append, RankedRule.lastDeclaring_cons] at hx
      rw [hranked, RankedRule.lastDeclaring_append] at ih
      cases hlast : RankedRule.lastDeclaring p above with
      | some y =>
        -- a rule that the new one yields to declares the property
        obtain rfl : y = x := by simpa [hlast] using hx
        obtain ⟨i, r, hr, rfl⟩ := ih (by rw [hlast]; rfl)
        have hle := habove _ (RankedRule.mem_of_lastDeclaring hlast)
        exact ⟨i + 1, r, hr.cons fun _ => RankedRule.le_iff_key_le.1 hle, rfl⟩
      | none =>
        by_cases hdeclares : (a.against s).declares p = true
        · -- the new rule is above all others that declare it
          obtain rfl : a.against s = x := by simpa [hlast, hdeclares] using hx
          refine ⟨0, a, IsWinner.head ⟨hscore, hdeclares⟩ ?_, rfl⟩
          intro r hr hcompetes
          have hmem : r.against s ∈ below ++ above :=
            hranked ▸ List.mem_mergeSort.2 (mem_matching hr hcompetes.1)
          rcases List.mem_append.1 hmem with hmem | hmem
          · apply not_le.1
            intro hle
            have hlt := hbelow _ hmem
            rw [RankedRule.le_iff_key_le.2 hle] at hlt
            exact absurd hlt (by decide)
          · exact absurd hcompetes.2 (RankedRule.not_declares_of_lastDeclaring hlast hmem)
        · -- the new rule does not declare it
          obtain ⟨i, r, hr, heq⟩ := ih (by simpa [hlast, hdeclares] using hx)
          exact ⟨i + 1, r, hr.cons fun ha => absurd ha.2 hdeclares, heq⟩
    · rw [if_neg hscore] at hx
      obtain ⟨i, r, hr, heq⟩ := ih hx
      exact ⟨i + 1, r, hr.cons fun ha => absurd ha.1 hscore, heq⟩

/-- The declarations of a sheet, applied in order of rank, leave every property with the value that
the sheet gives to it. -/
theorem gives_cascaded (sheet : Stylesheet) (s : Subject) (p : String) :
    Gives sheet.rules s p ((sheet.cascaded s).get? p) := by
  rw [cascaded, RankedRule.get?_foldl_apply, Style.get?_empty, Option.or_none]
  cases hlast : RankedRule.lastDeclaring p (sheet.ranked s) with
  | some x =>
    obtain ⟨i, r, hr, rfl⟩ := exists_isWinner_of_lastDeclaring hlast
    exact Gives.winner hr
  | none =>
    apply Gives.nothing
    intro r hr hcompetes
    exact RankedRule.not_declares_of_lastDeclaring hlast
      (List.mem_mergeSort.2 (mem_matching hr hcompetes.1)) hcompetes.2

end Stylesheet

end BoxFlow
