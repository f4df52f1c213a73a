import BoxFlow.Proofs.Stylesheet.IndexedSheet

/-!
# Laws of merging

Merging a sheet into another overrides property by property: under every selector text a property
has the value of the second sheet, if that declares it there, and otherwise that of the first
(`Stylesheet.value?_merge`). The rules are those of the first sheet, extended, followed by those of
the second under new texts (`Stylesheet.rules_merge_eq`). So merging is associative, sheets without
rules are neutral, and a sheet merged into itself is itself. All of this needs that texts and
property names are distinct, which they are in every sheet that readings and merges lead to
(`Stylesheet.merge_overrides`).
-/

set_option autoImplicit false

namespace BoxFlow

namespace Block

theorem extend_self (b : Block) : b.extend b = b := by
  apply ext_declarations
  rw [declarations_extend]
  exact Keyed.putAll_self b.nodup_keys fun _ _ => rfl

end Block

namespace Stylesheet

variable {a b : Stylesheet}

/-- What is declared for a property under a selector text. -/
def value? (sheet : Stylesheet) (t p : String) : Option String :=
  (sheet.get? t).bind fun declarations => declarations.get? p

/-- A rule with what a sheet declares under its text declared over it. -/
def override (sheet : Stylesheet) (r : Rule) : Rule :=
  { r with declarations := r.declarations.extend ((sheet.get? r.text).getD .empty) }

theorem get?_eq_find? (sheet : Stylesheet) (t : String) :
    sheet.get? t = (Rule.keyed.find? t sheet.rules).map Rule.declarations := by
  rw [get?, Keyed.find?]
  congr 2

theorem override_eq_combineWith (sheet : Stylesheet) (r : Rule) :
    sheet.override r = Rule.keyed.combineWith sheet.rules r := by
  rw [override, get?_eq_find?, Keyed.combineWith]
  show _ = ((Rule.keyed.find? r.text sheet.rules).map _).getD r
  cases Rule.keyed.find? r.text sheet.rules <;> rfl

/-- Under a text, a property has the value of the second sheet, or else that of the first. -/
theorem value?_merge (hb : (Rule.keyed.keys b.rules).Nodup) (a : Stylesheet) (t p : String) :
    (a.merge b).value? t p = (b.value? t p).or (a.value? t p) := by
  simp only [value?, get?_eq_find?, rules_merge, Keyed.find?_putAll hb]
  cases Rule.keyed.find? t b.rules with
  | none => rfl
  | some r' =>
    cases Rule.keyed.find? t a.rules with
    | none => exact Option.or_none.symm
    | some r => exact Block.get?_extend r.declarations r'.declarations p

/-- The rules of the first sheet stay in their places, and those of new texts come after them. -/
theorem rules_merge_eq (ha : (Rule.keyed.keys a.rules).Nodup)
    (hb : (Rule.keyed.keys b.rules).Nodup) :
    (a.merge b).rules = a.rules.map b.override ++ b.rules.filter fun r => r.text ∉ a.texts := by
  rw [rules_merge, Keyed.putAll_eq_map_append ha hb, funext b.override_eq_combineWith]
  rfl

theorem merge_assoc (hb : (Rule.keyed.keys b.rules).Nodup) (a c : Stylesheet) :
    (a.merge b).merge c = a.merge (b.merge c) := by
  apply ext_rules
  simp only [rules_merge]
  exact (Keyed.putAll_assoc hb _ _).symm

theorem empty_merge (ha : (Rule.keyed.keys a.rules).Nodup) : empty.merge a = a := by
  apply ext_rules
  rw [rules_merge]
  exact Keyed.putAll_eq_append ha

theorem merge_self (ha : (Rule.keyed.keys a.rules).Nodup) : a.merge a = a := by
  apply ext_rules
  rw [rules_merge]
  refine Keyed.putAll_self ha ?_
  intro r _
  exact congrArg (Rule.mk r.text r.selector) r.declarations.extend_self

/-- A sheet that readings and merges lead to is well formed, and a table that is kept along with it
holds the position of every rule under its text, and nothing else. Another such sheet merged into it
overrides it property by property; its rules stay in their places and new ones come after them.
Merging is associative, and neither the empty sheet nor the sheet itself changes it. -/
theorem merge_overrides {k : IndexedSheet} (hk : IndexedSheet.Follows k a) (hb : b.Reachable)
    (c : Stylesheet) :
    a.WellFormed ∧ k.rules = a.rules ∧
      (∀ (t : String) (i : ℕ), k.index[t]? = some i ↔ ∃ r, a.rules[i]? = some r ∧ r.text = t) ∧
      (∀ t, k.index[t]? = a.index? t ∧ k.get? t = a.get? t) ∧
      (∀ t p, (a.merge b).value? t p = (b.value? t p).or (a.value? t p)) ∧
      (a.merge b).rules = a.rules.map b.override ++ b.rules.filter (fun r => r.text ∉ a.texts) ∧
      (a.merge b).merge c = a.merge (b.merge c) ∧
      a.merge empty = a ∧ empty.merge a = a ∧ a.merge a = a := by
  have ha := hk.reachable
  have hagrees := hk.agrees
  refine ⟨ha.wellFormed, hagrees.rules_eq, ?_, ?_, value?_merge hb.nodup_keys a,
    rules_merge_eq ha.nodup_keys hb.nodup_keys, merge_assoc hb.nodup_keys a c, rfl,
    empty_merge ha.nodup_keys, merge_self ha.nodup_keys⟩
  · intro t i
    rw [hagrees.inStep t i, hagrees.rules_eq]
    exact Option.map_eq_some_iff
  · intro t
    exact ⟨(hagrees.index?_eq t).symm, hagrees.get?_eq t⟩

/-- A color is overridden, a margin is kept, and a third sheet may be merged first. -/
theorem merge_overrides_color :
    let base := "p { color: red; margin-top: 4px }"
    let other := "p { color: blue } span { color: green }"
    let third := "p { margin-top: 0 }"
    IndexedSheet.Follows (.parse base) (parse base) ∧ (parse other).Reachable ∧
      ((parse base).merge (parse other)).value? "p" "color" = some "blue" ∧
      ((parse base).merge (parse other)).value? "p" "margin-top" = some "4px" ∧
      ((parse base).merge (parse other)).merge (parse third) =
        (parse base).merge ((parse other).merge (parse third)) := by
  intro base other third
  have hbase : IndexedSheet.Follows (.parse base) (parse base) := .parse base
  have hother : (parse other).Reachable := .parse other
  obtain ⟨-, -, -, -, hvalue, -, hassoc, -⟩ := merge_overrides hbase hother (parse third)
  refine ⟨hbase, hother, ?_, ?_, hassoc⟩
  · rw [hvalue, show (parse other).value? "p" "color" = some "blue" by decide +kernel]
    rfl
  · rw [hvalue, show (parse other).value? "p" "margin-top" = none by decide +kernel]
    decide +kernel

end Stylesheet

end BoxFlow
