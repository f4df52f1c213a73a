import BoxFlow.Proofs.Stylesheet.Occurrences
import BoxFlow.Proofs.Text.Trimming

/-!
# Reachable sheets

Sheets come from reading sources and from merging sheets, in any order (`Stylesheet.Reachable`).
What holds of every rule that is written in a source, and is kept when one rule is extended by
another, holds of every rule of such a sheet (`Stylesheet.Reachable.forall_rules`). So their rules
have distinct and trimmed texts, each with the selector that it reads as
(`Stylesheet.Reachable.wellFormed`).
-/

set_option autoImplicit false

namespace BoxFlow.Stylesheet

variable {sheet : Stylesheet} {sources : List String} {w : WrittenRule}

/-- The sheets that reading sources and merging lead to. -/
inductive Reachable : Stylesheet → Prop
  | parse (source : String) : Reachable (parse source)
  | merge {a b : Stylesheet} : Reachable a → Reachable b → Reachable (a.merge b)

/-- The selector texts of the rules, in order. -/
def texts (sheet : Stylesheet) : List String := sheet.rules.map Rule.text

/-- Rules have distinct and trimmed texts, each with the selector that it reads as, and declare
distinct properties. -/
structure WellFormed (sheet : Stylesheet) : Prop where
  texts_trimmed : ∀ r ∈ sheet.rules, Text.trimmed r.text = r.text
  texts_distinct : sheet.texts.Nodup
  selectors_read : ∀ r ∈ sheet.rules, Selector.parse r.text.toList = .ok r.selector
  names_distinct : ∀ r ∈ sheet.rules, (r.declarations.declarations.map Declaration.name).Nodup

/-- The text of a written rule is a piece of a selector group, trimmed. -/
theorem trimmed_writtenRules (hw : w ∈ writtenRules sources) : Text.trimmed w.text = w.text := by
  obtain ⟨block, piece, hpiece, htext, -, -⟩ := exists_block_of_mem_writtenRules hw
  obtain ⟨part, -, rfl⟩ := List.mem_map.1 hpiece
  rw [htext, Text.trimmed, String.toList_ofList, Text.trim_trim]

namespace Reachable

theorem nodup_keys (h : sheet.Reachable) : (Rule.keyed.keys sheet.rules).Nodup := by
  induction h with
  | parse source =>
    have hnil : (Rule.keyed.keys []).Nodup := List.nodup_nil
    rw [rules_parse]
    exact Keyed.nodup_keys_putAll hnil _
  | merge _ _ iha _ =>
    rw [rules_merge]
    exact Keyed.nodup_keys_putAll iha _

/-- What every written rule has and extending a rule keeps, every rule of a sheet has. -/
theorem forall_rules {P : Rule → Prop}
    (hcombine : ∀ r r', P r → P r' → P (Rule.keyed.combine r r'))
    (hwritten : ∀ source, ∀ w ∈ writtenRules [source], P w.toRule) (h : sheet.Reachable) :
    ∀ r ∈ sheet.rules, P r := by
  induction h with
  | parse source =>
    rw [rules_parse]
    refine Keyed.forall_mem_putAll hcombine (List.forall_mem_nil _) ?_
    intro r hr
    obtain ⟨w, hw, rfl⟩ := List.mem_map.1 hr
    exact hwritten source w hw
  | merge _ _ iha ihb =>
    rw [rules_merge]
    exact Keyed.forall_mem_putAll hcombine iha ihb

theorem wellFormed (h : sheet.Reachable) : sheet.WellFormed where
  texts_trimmed :=
    h.forall_rules (fun _ _ htext _ => htext) fun _ _ hw => trimmed_writtenRules hw
  texts_distinct := h.nodup_keys
  selectors_read :=
    h.forall_rules (P := fun r => Selector.parse r.text.toList = .ok r.selector)
      (fun _ _ hread _ => hread) fun _ _ hw => parse_writtenRules hw
  names_distinct := fun r _ => r.declarations.distinct

end Reachable

end BoxFlow.Stylesheet
