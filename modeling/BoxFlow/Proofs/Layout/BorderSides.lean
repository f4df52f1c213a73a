import BoxFlow.Cascade.Compute
import BoxFlow.Layout.Border
import BoxFlow.Proofs.Style.Inheritance
import BoxFlow.Proofs.Stylesheet.ReadableValues

/-!
# Border sides

A side of a border is laid out from the values that the style has for that side. Where it has none,
or a blank one, those shared by all sides are asked for. With a style that comes from the rules of a
sheet this makes no difference (`BorderSide.partValue?_eq`): values for a side are acceptable, so
they are not blank, and a shared value never comes without those of the sides. Nor is there a width
that cannot be read (`BorderSide.warnings_eq_nil`).
-/

set_option autoImplicit false

namespace BoxFlow

namespace BorderPart

variable {part : BorderPart} {v : String}

/-- Blanks around a value make no difference to whether it can be read. -/
theorem accepts_trimmed (part : BorderPart) (v : String) :
    part.accepts (Text.trimmed v) = part.accepts v := by
  have htrim : Text.trim (Text.trimmed v).toList = Text.trim v.toList := by
    rw [Text.trimmed, String.toList_ofList, Text.trim_trim]
  cases part with
  | width => rw [accepts, Value.isBorderWidth, Value.isBorderWidth, Length.borderWidth?, htrim]; rfl
  | style => rw [accepts, Length.isBorderStyle, Length.isBorderStyle, Text.trimmed_trimmed]
  | color => rw [accepts, Value.isColor, Value.isColor, ColorText.read?, htrim]; rfl

theorem accepts_empty (part : BorderPart) : part.accepts "" = false := by
  cases part
  · rfl
  · decide
  · decide

theorem trimmed_ne_empty (h : part.accepts v) : Text.trimmed v ≠ "" := by
  intro hempty
  rw [← accepts_trimmed, hempty, accepts_empty] at h
  cases h

end BorderPart

theorem Side.border_notMem_inheritedProperties (side : Side) (part : BorderPart) :
    side.border part ∉ inheritedProperties := by
  cases side <;> cases part <;> decide

theorem BorderPart.shared_notMem_inheritedProperties (part : BorderPart) :
    part.shared ∉ inheritedProperties := by
  cases part <;> decide

/-- A style whose borders come from a readable look-up. -/
structure Style.HasReadableBorders (style : Style) : Prop where
  accepts : ∀ (side : Side) (part : BorderPart) (v : String),
    style.get? (side.border part) = some v → part.accepts v
  sides : ∀ part : BorderPart, (style.get? part.shared).isSome →
    ∀ side : Side, (style.get? (side.border part)).isSome

namespace BorderSide

variable {style : Style} {text : String}

/-- The values shared by all sides are not needed. -/
theorem partValue?_eq (h : style.HasReadableBorders) (side : Side) (part : BorderPart) :
    partValue? style side part = (style.get? (side.border part)).map Text.trimmed := by
  show (((style.get? (side.border part)).map Text.trimmed).filter (· != "")).or
    (((style.get? part.shared).map Text.trimmed).filter (· != "")) = _
  cases hside : style.get? (side.border part) with
  | some v =>
    have hne : (Text.trimmed v != "") = true :=
      bne_iff_ne.2 (BorderPart.trimmed_ne_empty (h.accepts side part v hside))
    rw [Option.map_some, Option.filter_some, if_pos hne]
    rfl
  | none =>
    -- a shared value would have come with one for this side
    have hshared : style.get? part.shared = Option.none := by
      by_contra hsome
      have hlonghand := h.sides part (Option.isSome_iff_ne_none.2 hsome) side
      rw [hside] at hlonghand
      cases hlonghand
    rw [hshared]
    rfl

/-- A width can be read. -/
theorem isSome_borderWidth? (h : style.HasReadableBorders) {side : Side}
    (htext : partValue? style side .width = some text) : (Length.borderWidth? text).isSome := by
  rw [partValue?_eq h, Option.map_eq_some_iff] at htext
  obtain ⟨v, hv, rfl⟩ := htext
  have haccepts := h.accepts side .width v hv
  rwa [← BorderPart.accepts_trimmed] at haccepts

theorem warnings_eq_nil (h : style.HasReadableBorders) (side : Side) :
    warnings style side = [] := by
  rw [warnings]
  split
  · split
    · rfl
    · next text htext => rw [if_pos (isSome_borderWidth? h htext)]
  · rfl

end BorderSide

namespace Stylesheet

variable {sheet : Stylesheet}

/-- What a sheet of readable blocks declares for a node is readable. -/
theorem readable_cascaded (h : ∀ r ∈ sheet.rules, Readable r.declarations.get?) (s : Subject) :
    Readable (sheet.cascaded s).get? := by
  refine List.foldlRecOn (sheet.ranked s) _ (motive := fun style : Style => Readable style.get?)
    .none ?_
  intro style hstyle ranked hranked
  have hmatching : ranked ∈ sheet.matching s := List.mem_mergeSort.1 hranked
  obtain ⟨r, hr, rfl⟩ := List.mem_map.1 (List.mem_of_mem_filter hmatching)
  have hget : (style.apply r.declarations).get? = fun p =>
      (r.declarations.get? p).or (style.get? p) := funext (Style.get?_apply style r.declarations)
  exact hget ▸ (h r hr).or hstyle

/-- Without a style attribute, a property that is not inherited is as the sheet declares it. -/
theorem get?_computed_of_notMem {s : Subject} {e : Element} (he : s.tree.element? s.id = some e)
    (hattribute : e.attribute? "style" = none) (parent : Style) {p : String}
    (hp : p ∉ inheritedProperties) :
    (sheet.computed s parent).get? p = (sheet.cascaded s).get? p := by
  simp only [computed, he, hattribute]
  rw [Style.get?_inherit, inheritedValue, if_neg fun h => hp h.1]

theorem hasReadableBorders_computed (h : ∀ r ∈ sheet.rules, Readable r.declarations.get?)
    {s : Subject} {e : Element} (he : s.tree.element? s.id = some e)
    (hattribute : e.attribute? "style" = none) (parent : Style) :
    (sheet.computed s parent).HasReadableBorders where
  accepts := by
    intro side part v hv
    rw [get?_computed_of_notMem he hattribute parent
      (side.border_notMem_inheritedProperties part)] at hv
    rw [← Value.isValid_border side]
    exact (readable_cascaded h s).valid _ v hv
  sides := by
    intro part hshared side
    rw [get?_computed_of_notMem he hattribute parent
      part.shared_notMem_inheritedProperties] at hshared
    rw [get?_computed_of_notMem he hattribute parent
      (side.border_notMem_inheritedProperties part)]
    exact (readable_cascaded h s).sides _ _ (Shorthand.ofName?_shared part) hshared side

/-- In a sheet that readings and merges lead to, every declaration is acceptable, and a block that
declares a part of the border, the margin or the padding for all sides declares it for each side. So
for an element without a style attribute, whatever its tree and the style of its parent, no width of
a side of the border is unreadable, and no side falls back to a value that all sides share: where
there is one, the side has its own, and that is what it is laid out with. -/
theorem borders_read (h : sheet.Reachable) :
    (∀ r ∈ sheet.rules, ∀ d ∈ r.declarations.declarations, Value.isValid d.name d.value) ∧
      (∀ r ∈ sheet.rules, ∀ side : Side,
        (∀ part : BorderPart, (r.declarations.get? ("border-" ++ part.name)).isSome →
          (r.declarations.get? (side.border part)).isSome) ∧
        ((r.declarations.get? "margin").isSome → (r.declarations.get? side.margin).isSome) ∧
        ((r.declarations.get? "padding").isSome → (r.declarations.get? side.padding).isSome)) ∧
      ∀ (s : Subject) (e : Element) (parent : Style), s.tree.element? s.id = some e →
        e.attribute? "style" = none → ∀ side : Side,
          let style := sheet.computed s parent
          (∀ text, BorderSide.partValue? style side .width = some text →
            (Length.borderWidth? text).isSome) ∧
          BorderSide.warnings style side = [] ∧
          ∀ part : BorderPart,
            BorderSide.partValue? style side part =
              (style.get? (side.border part)).map Text.trimmed ∧
            ((style.get? ("border-" ++ part.name)).isSome →
              (style.get? (side.border part)).isSome) := by
  have hreadable := h.readable
  refine ⟨?_, ?_, ?_⟩
  · intro r hr d hd
    apply (hreadable r hr).valid
    rw [Block.get?_eq_find?, show d.name = Declaration.keyed.key d from rfl,
      Keyed.find?_of_mem r.declarations.nodup_keys hd]
    rfl
  · intro r hr side
    refine ⟨?_, ?_, ?_⟩
    · intro part hpart
      exact (hreadable r hr).sides _ _ (Shorthand.ofName?_shared part) hpart side
    · intro hmargin
      exact (hreadable r hr).sides _ _ rfl hmargin side
    · intro hpadding
      exact (hreadable r hr).sides _ _ rfl hpadding side
  · intro s e parent he hattribute side style
    have hborders := hasReadableBorders_computed hreadable he hattribute parent
    refine ⟨fun text htext => BorderSide.isSome_borderWidth? hborders htext,
      BorderSide.warnings_eq_nil hborders side, ?_⟩
    intro part
    exact ⟨BorderSide.partValue?_eq hborders side part,
      fun hshared => hborders.sides part hshared side⟩

/-- A shared width, of which one side is overridden and a later value cannot be read, and the border
of one side. -/
theorem borders_read_mixed :
    let source := "p \x7b border-width: thin; border-top-width: thick; border-width: wide \x7d"
    let other := "p \x7b border-left: solid \x7d"
    let sheet := (parse source).merge (parse other)
    let tree := (Tree.empty.appendNew Tree.root (.element ⟨"p", []⟩)).1
    let s : Subject := ⟨tree, 1, {}⟩
    let style := sheet.computed s .empty
    sheet.Reachable ∧ s.tree.element? s.id = some ⟨"p", []⟩ ∧
      BorderSide.partValue? style .top .width = some "thick" ∧
      BorderSide.partValue? style .left .width = some "thin" ∧
      BorderSide.partValue? style .left .style = some "solid" ∧
      ∀ side, BorderSide.warnings style side = [] := by
  intro source other sheet tree s style
  have hsheet : sheet.Reachable := .merge (.parse source) (.parse other)
  have he : s.tree.element? s.id = some ⟨"p", []⟩ := by decide
  have hread := (borders_read hsheet).2.2 s _ Style.empty he rfl
  have hvalues : [Side.top.border .width, Side.left.border .width, Side.left.border .style].map
      style.get? = [some "thick", some "thin", some "solid"] := by
    decide +kernel
  simp only [List.map_cons, List.map_nil, List.cons.injEq] at hvalues
  obtain ⟨htop, hleft, hstyle, -⟩ := hvalues
  refine ⟨hsheet, he, ?_, ?_, ?_, fun side => (hread side).2.1⟩
  · rw [((hread .top).2.2 .width).1, htop]
    decide
  · rw [((hread .left).2.2 .width).1, hleft]
    decide
  · rw [((hread .left).2.2 .style).1, hstyle]
    decide

end Stylesheet

end BoxFlow
