import BoxFlow.Proofs.Cascade.Winner
import BoxFlow.Proofs.Stylesheet.Occurrences

/-!
# The deciding occurrence in the sources

Which value the sources give to a property can be read off the occurrences of its declarations
(`Decides`). An occurrence counts if its selector scores above zero. Of those that count, the ones
with the greatest score come first, a universal selector yielding to others. Between selectors of
equal score it matters where each selector text came up first in the sources, not where the
declaration stands: a sheet keeps the rule for a text in its first place. Of the occurrences with
one text, the last decides.

The order of application arrives at that value (`Stylesheet.cascaded_iff_decides`). Ordering equal
scores by the places of the declarations themselves would give another value
(`Stylesheet.decides_by_first_place`).
-/

set_option autoImplicit false

namespace BoxFlow

namespace Occurrence

/-- The selector matches the node, and the property is the one asked for. -/
def Competes (o : Occurrence) (s : Subject) (p : String) : Prop :=
  0 < o.selector.specificity s ∧ o.name = p

/-- The score, then whether the selector is not universal. -/
def key (o : Occurrence) (s : Subject) : ℤ ×ₗ Bool :=
  toLex (o.selector.specificity s, !o.selector.universal)

/-- The rank of an occurrence at a position of the sources: its key, then the place in which its
selector text came up first, then the position. -/
def rank (texts : List String) (o : Occurrence) (s : Subject) (position : ℕ) :
    (ℤ ×ₗ Bool) ×ₗ ℕ ×ₗ ℕ :=
  toLex (o.key s, toLex (texts.idxOf o.text, position))

theorem rank_le_rank_iff {texts : List String} {o o' : Occurrence} {s : Subject} {i j : ℕ} :
    o'.rank texts s j ≤ o.rank texts s i ↔
      o'.key s < o.key s ∨
        o'.key s = o.key s ∧ (texts.idxOf o'.text < texts.idxOf o.text ∨
          texts.idxOf o'.text = texts.idxOf o.text ∧ j ≤ i) := by
  rw [rank, rank, Prod.Lex.toLex_le_toLex, Prod.Lex.toLex_le_toLex]

end Occurrence

/-- The occurrence at position `i` of the sources competes for a property, and no competing one has
a greater rank. -/
structure IsDecisive (sources : List String) (s : Subject) (p : String) (i : ℕ) (o : Occurrence) :
    Prop where
  at_position : (occurrences sources)[i]? = some o
  competes : o.Competes s p
  greatest : ∀ (j : ℕ) (o' : Occurrence), (occurrences sources)[j]? = some o' → o'.Competes s p →
    o'.rank (writtenTexts sources) s j ≤ o.rank (writtenTexts sources) s i

/-- What the sources give to a property of a node: nothing if no occurrence competes for it, and
otherwise the value of the decisive one. -/
inductive Decides (sources : List String) (s : Subject) (p : String) : Option String → Prop
  | nothing : (∀ o ∈ occurrences sources, ¬ o.Competes s p) → Decides sources s p none
  | occurrence {i : ℕ} {o : Occurrence} :
      IsDecisive sources s p i o → Decides sources s p (some o.value)

variable {sources : List String} {s : Subject} {p : String} {i j : ℕ} {o o' : Occurrence}

/-- Ranks at different positions differ, so there is one decisive occurrence. -/
theorem IsDecisive.unique (h : IsDecisive sources s p i o) (h' : IsDecisive sources s p j o') :
    o = o' := by
  have hle := h'.greatest i o h.at_position h.competes
  have hge := h.greatest j o' h'.at_position h'.competes
  have hij : i = j := congrArg (fun x => (ofLex (ofLex x).2).2) (le_antisymm hle hge)
  subst hij
  exact Option.some.inj (h.at_position.symm.trans h'.at_position)

theorem Decides.unique {v w : Option String} (hv : Decides sources s p v)
    (hw : Decides sources s p w) : v = w := by
  cases hv with
  | nothing hnone =>
    cases hw with
    | nothing => rfl
    | occurrence h => exact absurd h.competes (hnone _ (List.mem_of_getElem? h.at_position))
  | occurrence h =>
    cases hw with
    | nothing hnone => exact absurd h.competes (hnone _ (List.mem_of_getElem? h.at_position))
    | occurrence h' => rw [h.unique h']

namespace Stylesheet

/-! ## Rules and occurrences -/

variable {r r' : Rule}

/-- A rule takes part in the competition for every competing occurrence of its text. -/
theorem competes_of_occurrence (hr : r ∈ (parseAll sources).rules)
    (ho : o ∈ occurrences sources) (htext : r.text = o.text) (h : o.Competes s p) :
    r.Competes s p := by
  constructor
  · rw [selector_eq hr ho htext]
    exact h.1
  · rw [get?_rules_parseAll hr, Option.isSome_map, lastOccurrence?, List.find?_isSome]
    exact ⟨o, List.mem_reverse.2 ho, by simp [htext, h.2]⟩

theorem key_eq_of_text_eq (hr : r ∈ (parseAll sources).rules) (ho : o ∈ occurrences sources)
    (htext : r.text = o.text) : o.key s = (r.against s).key := by
  rw [Occurrence.key, ← selector_eq hr ho htext]
  rfl

/-- The last element of a list with a property has a position, after which no other one has it. -/
theorem exists_position_of_find?_reverse {α : Type} {accepts : α → Bool} {xs : List α} {x : α}
    (h : xs.reverse.find? accepts = some x) :
    ∃ i : ℕ, xs[i]? = some x ∧ ∀ (j : ℕ) (y : α), xs[j]? = some y → accepts y → j ≤ i := by
  obtain ⟨-, later, earlier, hreverse, hlater⟩ := List.find?_eq_some_iff_append.1 h
  have hxs : xs = earlier.reverse ++ x :: later.reverse := by
    rw [← List.reverse_reverse xs, hreverse]
    simp
  refine ⟨earlier.length, ?_, ?_⟩
  · rw [hxs, List.getElem?_append_right (by simp)]
    simp
  · intro j y hj hy
    by_contra hlt
    -- a position behind that of `x` belongs to an element that was passed over
    have hmem : y ∈ later := by
      rw [hxs, List.getElem?_append_right (by simp; omega), List.getElem?_cons] at hj
      split at hj
      · next hzero =>
        rw [List.length_reverse] at hzero
        omega
      · exact List.mem_reverse.1 (List.mem_of_getElem? hj)
    have hno := hlater y hmem
    rw [hy] at hno
    exact absurd hno (by decide)

/-- Rules of a sheet stand in the order in which their texts came up first. -/
theorem idxOf_lt_of_lt (hr : (parseAll sources).rules[i]? = some r)
    (hr' : (parseAll sources).rules[j]? = some r') (h : i < j) :
    (writtenTexts sources).idxOf r.text < (writtenTexts sources).idxOf r'.text := by
  have hpairwise := Keyed.pairwise_keys_putAll (K := Rule.keyed)
    ((writtenRules sources).map WrittenRule.toRule)
  rw [← rules_parseAll, keys_map_toRule, Keyed.keys, List.pairwise_map,
    List.pairwise_iff_getElem] at hpairwise
  obtain ⟨hi, rfl⟩ := List.getElem?_eq_some_iff.1 hr
  obtain ⟨hj, rfl⟩ := List.getElem?_eq_some_iff.1 hr'
  exact hpairwise i j hi hj h

/-! ## The winning rule holds the decisive occurrence -/

/-- The last occurrence in the winning rule is decisive. -/
theorem exists_isDecisive (h : IsWinner (parseAll sources).rules s p i r) :
    ∃ k o, IsDecisive sources s p k o ∧ r.declarations.get? p = some o.value := by
  have hr : r ∈ (parseAll sources).rules := List.mem_of_getElem? h.at_position
  obtain ⟨v, hv⟩ := Option.isSome_iff_exists.1 h.competes.2
  obtain ⟨o, hlast, rfl⟩ := Option.map_eq_some_iff.1 ((get?_rules_parseAll hr p).symm.trans hv)
  obtain ⟨htext, hname⟩ := eq_of_lastOccurrence? hlast
  obtain ⟨k, hk, hgreatest⟩ := exists_position_of_find?_reverse hlast
  have ho : o ∈ occurrences sources := List.mem_of_getElem? hk
  have hscore : 0 < o.selector.specificity s := by
    rw [← selector_eq hr ho htext.symm]
    exact h.competes.1
  refine ⟨k, o, ⟨hk, ⟨hscore, hname⟩, ?_⟩, hv⟩
  intro j o' hj hcompetes
  -- the rule that holds the other occurrence is not above the winner
  have ho' : o' ∈ occurrences sources := List.mem_of_getElem? hj
  obtain ⟨r', hr', htext'⟩ := exists_rule_of_mem_occurrences ho'
  obtain ⟨i', hi'⟩ := List.getElem?_of_mem hr'
  have hrank := h.greatest i' r' hi' (competes_of_occurrence hr' ho' htext' hcompetes)
  rw [Occurrence.rank_le_rank_iff, key_eq_of_text_eq hr ho htext.symm,
    key_eq_of_text_eq hr' ho' htext', ← htext', htext]
  rcases Rule.rank_le_rank_iff.1 hrank with hlt | ⟨heq, hle⟩
  · exact Or.inl hlt
  · refine Or.inr ⟨heq, ?_⟩
    rcases Nat.lt_or_eq_of_le hle with hlt | rfl
    · exact Or.inl (idxOf_lt_of_lt hi' h.at_position hlt)
    · -- both occurrences belong to the winning rule
      obtain rfl : r' = r := Option.some.inj (hi'.symm.trans h.at_position)
      exact Or.inr ⟨rfl, hgreatest j o' hj (decide_eq_true ⟨htext'.symm, hcompetes.2⟩)⟩

theorem decides_of_gives {v : Option String} (h : Gives (parseAll sources).rules s p v) :
    Decides sources s p v := by
  cases h with
  | nothing hnone =>
    apply Decides.nothing
    intro o ho hcompetes
    obtain ⟨r, hr, htext⟩ := exists_rule_of_mem_occurrences ho
    exact hnone r hr (competes_of_occurrence hr ho htext hcompetes)
  | winner hwinner =>
    obtain ⟨k, o, hdecisive, hvalue⟩ := exists_isDecisive hwinner
    rw [hvalue]
    exact .occurrence hdecisive

/-- What a node has for a property, after the rules of several sources have been applied in order of
rank, is what the occurrences in the sources decide. -/
theorem cascaded_iff_decides (sources : List String) (s : Subject) (p : String)
    (v : Option String) :
    ((parseAll sources).cascaded s).get? p = v ↔ Decides sources s p v := by
  have hcascaded := decides_of_gives ((parseAll sources).gives_cascaded s p)
  exact ⟨fun h => h ▸ hcascaded, fun h => hcascaded.unique h⟩

/-- Of three occurrences with equal scores, the last one sets the color to green, but under a text
that came up first before that of another one. It does not decide. -/
theorem decides_by_first_place :
    let sources := [".x \x7b color: red \x7d .y \x7b color: blue \x7d .x \x7b color: green \x7d"]
    let tree := (Tree.empty.appendNew Tree.root (.element ⟨"p", [⟨"class", "x y"⟩]⟩)).1
    let s : Subject := ⟨tree, 1, {}⟩
    let o : Occurrence := ⟨".x", { classes := ["x"] }, "color", "green"⟩
    (occurrences sources)[2]? = some o ∧ o.Competes s "color" ∧
      (∀ (j : ℕ) (o' : Occurrence), (occurrences sources)[j]? = some o' →
        o'.Competes s "color" → toLex (o'.key s, j) ≤ toLex (o.key s, 2)) ∧
      ((parseAll sources).cascaded s).get? "color" = some "blue" := by
  intro sources tree s o
  have hoccurrences : occurrences sources =
      [⟨".x", { classes := ["x"] }, "color", "red"⟩,
        ⟨".y", { classes := ["y"] }, "color", "blue"⟩, o] := by
    decide +kernel
  have hrules : (parseAll sources).rules =
      [⟨".x", { classes := ["x"] }, Block.empty.set "color" "green"⟩,
        ⟨".y", { classes := ["y"] }, Block.empty.set "color" "blue"⟩] := by
    decide +kernel
  have hgives : Gives (parseAll sources).rules s "color" (some "blue") := by
    rw [hrules]
    have hlast : IsWinner [⟨".y", { classes := ["y"] }, Block.empty.set "color" "blue"⟩] s "color" 0
        ⟨".y", { classes := ["y"] }, Block.empty.set "color" "blue"⟩ :=
      IsWinner.head ⟨by decide +kernel, by decide⟩ fun r hr => absurd hr List.not_mem_nil
    exact Gives.winner (hlast.cons fun _ => by decide +kernel)
  refine ⟨by rw [hoccurrences]; rfl, ⟨by decide +kernel, rfl⟩, ?_,
    ((parseAll sources).gives_cascaded s "color").unique hgives⟩
  intro j o' hj _
  have hmem : o' ∈ occurrences sources := List.mem_of_getElem? hj
  have hkey : ∀ o' ∈ occurrences sources, o'.key s = o.key s := by
    rw [hoccurrences]
    decide +kernel
  have hlength : j < 3 := by
    rw [hoccurrences] at hj
    exact (List.getElem?_eq_some_iff.1 hj).1
  rw [Prod.Lex.toLex_le_toLex]
  exact Or.inr ⟨hkey o' hmem, Nat.le_of_lt_succ hlength⟩

end Stylesheet

end BoxFlow
