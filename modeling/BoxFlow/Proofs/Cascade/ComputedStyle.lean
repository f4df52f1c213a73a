import BoxFlow.Proofs.Cascade.Winner
import BoxFlow.Proofs.Style.Inheritance
import BoxFlow.Proofs.Stylesheet.InlineValues

/-!
# The computed value of a property

The computed style of an element is determined property by property: what the sheet gives to the
property, what inheritance makes of it, and what the style attribute puts in its place.
-/

set_option autoImplicit false

namespace BoxFlow

/-- What the style attribute of an element declares for a property. -/
def Element.inline? (e : Element) (p : String) : Option String :=
  (e.attribute? "style").bind fun text => (Block.ofInline text).get? p

/-- A value in a style attribute is blank only if it is empty. -/
theorem Block.eq_empty_of_ofInline_blank {text p v : String}
    (h : (Block.ofInline text).get? p = some v) (hblank : Text.isAllBlank v.toList) : v = "" := by
  obtain ⟨d, hd, -, rfl⟩ := Block.exists_mem_of_get? h
  exact Block.ofInline_solid text d hd hblank

namespace Stylesheet

/-- The computed value of a property of an element is what the sheet declares for it, after
inheritance and after the style attribute. -/
theorem get?_computed (sheet : Stylesheet) {s : Subject} {e : Element}
    (he : s.tree.element? s.id = some e) (parent : Style) (p : String) :
    (sheet.computed s parent).get? p =
      inlineValue p (parent.get? p) (e.inline? p)
        (inheritedValue p (parent.get? p) ((sheet.cascaded s).get? p)) := by
  rw [← Style.get?_inherit, Element.inline?]
  simp only [computed, he]
  cases e.attribute? "style" with
  | none => rw [Option.bind_none, inlineValue_none]
  | some text =>
    rw [Option.bind_some]
    exact Style.get?_resolveInline_apply _ parent fun v => Block.eq_empty_of_ofInline_blank

/-- The sheet gives exactly one value, or none, to a property of an element, and whichever it gives,
the computed value is that value after inheritance and after the style attribute. -/
theorem computed_get? (sheet : Stylesheet) (s : Subject) (parent : Style) (p : String)
    {e : Element} (he : s.tree.element? s.id = some e) :
    (∃! v, Gives sheet.rules s p v) ∧
      ∀ v, Gives sheet.rules s p v →
        (sheet.computed s parent).get? p =
          inlineValue p (parent.get? p) (e.inline? p) (inheritedValue p (parent.get? p) v) := by
  have hcascaded := sheet.gives_cascaded s p
  refine ⟨⟨_, hcascaded, fun w hw => hw.unique hcascaded⟩, ?_⟩
  intro v hv
  rw [hv.unique hcascaded, ← Style.get?_inherit, Element.inline?]
  simp only [computed, he]
  cases e.attribute? "style" with
  | none => rw [Option.bind_none, inlineValue_none]
  | some text =>
    rw [Option.bind_some]
    exact Style.get?_resolveInline_apply _ parent fun v => Block.eq_empty_of_ofInline_blank

/-- A rule for a tag and a later universal one have equal scores; the first wins with its keyword,
and the parent supplies the value. -/
theorem computed_color_of_keyword_rule :
    let tree := (Tree.empty.appendNew Tree.root (.element ⟨"p", []⟩)).1
    let s : Subject := ⟨tree, 1, {}⟩
    let sheet : Stylesheet :=
      ⟨[⟨"p", { tag := "p" }, Block.empty.set "color" "inherit"⟩,
        ⟨"*", { universal := true }, Block.empty.set "color" "black"⟩]⟩
    s.tree.element? s.id = some ⟨"p", []⟩ ∧
      Gives sheet.rules s "color" (some "inherit") ∧
      (sheet.computed s (Style.empty.set "color" "blue")).get? "color" = some "blue" := by
  intro tree s sheet
  have he : s.tree.element? s.id = some ⟨"p", []⟩ := by decide
  have hgives : Gives sheet.rules s "color" (some "inherit") := by
    apply Gives.winner (IsWinner.head ⟨by decide +kernel, by decide⟩ ?_)
    intro r hr _
    obtain rfl := List.mem_singleton.1 hr
    decide +kernel
  refine ⟨he, hgives, ?_⟩
  rw [(computed_get? sheet s (Style.empty.set "color" "blue") "color" he).2 _ hgives]
  decide +kernel

end Stylesheet

end BoxFlow
