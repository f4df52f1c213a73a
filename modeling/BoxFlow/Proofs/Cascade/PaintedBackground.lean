import BoxFlow.Proofs.Cascade.ComputedStyle
import BoxFlow.Proofs.Cascade.Coverage
import BoxFlow.Style.Reading

/-!
# The color behind an element

The color behind an element is read from the shorthand `background`, and from the longhand
`background-color` where the shorthand has nothing to say. Both are inherited, each on its own. So
an element that declares a color for the longhand only keeps it, but takes the shorthand over from
its parent if there is one, and then that is what is read (`StyleInput.background_of_declares`). The
longhands that are declared above the element do not matter.
-/

set_option autoImplicit false

namespace BoxFlow

/-! ## Declared values -/

/-- A value that stands for a concrete color is not blank and no inheritance keyword. -/
theorem ColorText.not_takesParentValue {p v : String} {c : Color} (hp : p ≠ "color")
    (h : read? v = some (.color c)) : takesParentValue p v = false := by
  rw [read?] at h
  split at h
  · cases h
  · next hkeyword =>
    have hink : Text.isAllBlank v.toList = false := by
      rw [← Bool.not_eq_true]
      intro hblank
      have htrim := Text.trim_append hblank []
      have hnone : concrete? (Text.trim []) = none := by decide +kernel
      rw [List.append_nil] at htrim
      rw [htrim, hnone] at h
      cases h
    have hinherit : Text.trimmed v ≠ "inherit" := by
      intro heq
      apply hkeyword
      rw [isInheritKeyword, ← Text.trimmed, heq]
      rfl
    simp [takesParentValue, isInheritanceKeyword, hink, hinherit, hp]

namespace StyleInput

variable {input : StyleInput} {c m n p : NodeId} {s above : Style} {levels : ℕ}

/-- What an element declares for a property: the value in its style attribute, or else the one that
the sheet gives. -/
def Declares (input : StyleInput) (n : NodeId) (p : String) (v : Option String) : Prop :=
  ∃ e given, input.tree.element? n = some e ∧ Gives input.sheet.rules (input.subject n) p given ∧
    v = (e.inline? p).or given

/-- What an element declares can be computed. -/
theorem declares_of_cascaded {e : Element} (he : input.tree.element? n = some e) {p : String}
    {v : Option String}
    (hv : (e.inline? p).or ((input.sheet.cascaded (input.subject n)).get? p) = v) :
    input.Declares n p v :=
  ⟨e, _, he, input.sheet.gives_cascaded _ p, hv.symm⟩

/-- A declared value that does not ask for that of the parent is the computed one. -/
theorem get?_computed_of_declares {p v : String} (h : input.Declares n p (some v))
    (hv : takesParentValue p v = false) (above : Style) :
    (input.sheet.computed (input.subject n) above).get? p = some v := by
  obtain ⟨e, given, he, hgiven, hor⟩ := h
  rw [Stylesheet.get?_computed _ he, (input.sheet.gives_cascaded _ p).unique hgiven]
  cases hinline : e.inline? p with
  | none =>
    obtain rfl : some v = given := by rw [hor, hinline, Option.none_or]
    rw [inlineValue_none, inheritedValue, if_neg]
    rintro ⟨-, htakes, -⟩
    rw [Option.all_some, hv] at htakes
    cases htakes
  | some own =>
    obtain rfl : v = own := by simpa [hinline] using hor
    rw [inlineValue, if_neg]
    rintro ⟨-, hkeyword, -⟩
    rw [takesParentValue, hkeyword, Bool.or_true] at hv
    cases hv

/-- An inherited property that is declared nowhere has the value of the parent. -/
theorem get?_computed_of_undeclared {p : String} (hp : p ∈ inheritedProperties)
    (h : input.Declares n p none) (above : Style) :
    (input.sheet.computed (input.subject n) above).get? p = above.get? p := by
  obtain ⟨e, given, he, hgiven, hor⟩ := h
  obtain ⟨hinline, hnone⟩ := Option.or_eq_none_iff.1 hor.symm
  rw [Stylesheet.get?_computed _ he, (input.sheet.gives_cascaded _ p).unique hgiven, hinline, hnone,
    inlineValue_none, inheritedValue]
  cases above.get? p <;> simp [hp]

/-! ## The style of the parent -/

/-- A walk comes to a node by starting there, or from its parent, which it has come to before. -/
theorem cases_of_mem_stylesWithin (h : (n, s) ∈ input.stylesWithin levels above c) :
    input.tree.TakesStyle n ∧
      ((n = c ∧ s = input.sheet.computed (input.subject n) above) ∨
        ∃ m up, (m, up) ∈ input.stylesWithin levels above c ∧ n ∈ input.tree.children m ∧
          s = input.sheet.computed (input.subject n) up) := by
  -- on the levels; the walk below a child starts with the style of its parent as the one above
  induction levels generalizing above c with
  | zero => exact absurd h List.not_mem_nil
  | succ levels ih =>
    obtain ⟨htakes, ⟨rfl, rfl⟩ | ⟨helement, c', hc', hn⟩⟩ := mem_stylesWithin_succ.1 h
    · exact ⟨htakes, Or.inl ⟨rfl, rfl⟩⟩
    · obtain ⟨hntakes, hway⟩ := ih hn
      refine ⟨hntakes, Or.inr ?_⟩
      rcases hway with ⟨rfl, rfl⟩ | ⟨m, up, hm, hchild, hs⟩
      · exact ⟨c, _, self_mem_stylesWithin htakes levels above, hc', rfl⟩
      · exact ⟨m, up, mem_stylesWithin_succ.2 ⟨htakes, Or.inr ⟨helement, c', hc', hm⟩⟩, hchild, hs⟩

/-- What a walk lists for a node of a linked tree is what the table has for it. -/
theorem get?_styles_of_mem (h : input.tree.Linked) (hn : (n, s) ∈ input.styleList) :
    input.styles.get? n = some s := by
  have hreached : ∀ {s'}, (n, s') ∈ input.styleList → Reached input n s' := by
    intro s' hmem
    obtain ⟨c, hc, hwalk⟩ := List.mem_flatMap.1 hmem
    exact reached_of_mem_stylesWithin (.top hc) hwalk
  obtain ⟨p, hp⟩ := ((hreached hn).below_root h).exists_parent
  apply StyleMap.get?_ofList_of_mem (Tree.lt_size_of_parent? hp) hn
  intro s' hn'
  exact (hreached hn').unique h (hreached hn)

/-- The document has no style. -/
theorem styleOf_root (h : input.tree.Linked) : input.styles.styleOf Tree.root = .empty := by
  have hnone : input.styles.get? Tree.root = none := by
    rw [Option.eq_none_iff_forall_ne_some]
    intro s hs
    obtain ⟨c, -, hwalk⟩ := List.mem_flatMap.1 (StyleMap.mem_of_get?_ofList hs)
    have htakes := (cases_of_mem_stylesWithin hwalk).1
    simp [Tree.TakesStyle, Tree.element?, Tree.text?, h.root_is_document] at htakes
  rw [StyleMap.styleOf, hnone]
  rfl

/-- The style of a node is computed from that of its parent. -/
theorem exists_parent_of_styles (h : input.tree.Linked) (hs : input.styles.get? n = some s) :
    ∃ p, input.tree.parent? n = some p ∧
      s = input.sheet.computed (input.subject n) (input.styles.styleOf p) := by
  obtain ⟨c, hc, hwalk⟩ := List.mem_flatMap.1 (StyleMap.mem_of_get?_ofList hs)
  rcases (cases_of_mem_stylesWithin hwalk).2 with ⟨rfl, rfl⟩ | ⟨m, up, hm, hchild, rfl⟩
  · exact ⟨_, (h.mem_children_iff _ _).1 hc, by rw [styleOf_root h]⟩
  · have hup := get?_styles_of_mem h (List.mem_flatMap.2 ⟨c, hc, hm⟩)
    exact ⟨m, (h.mem_children_iff _ _).1 hchild, by rw [StyleMap.styleOf, hup]; rfl⟩

/-! ## The color that is read -/

/-- In any tree, an element that has a style, that declares a concrete color for `background-color`
and nothing for `background`: it is painted in its own color, with its opacity, if its parent has no
`background` but a blank one. If the parent has another `background`, this is read in place of the
own color. -/
theorem background_of_declares (htree : input.tree.Built) {v : String} {color : Color}
    (hs : input.styles.get? n = some s) (hcolor : input.Declares n "background-color" (some v))
    (hv : ColorText.read? v = some (.color color)) (hnone : input.Declares n "background" none) :
    ∃ p, input.tree.parent? n = some p ∧
      ((∀ w, (input.styles.styleOf p).get? "background" = some w → Text.isAllBlank w.toList) →
        s.backgroundColor? = some (color.withOpacity s.opacity)) ∧
      ∀ w, (input.styles.styleOf p).get? "background" = some w → ¬ Text.isAllBlank w.toList →
        s.backgroundColor? = (ColorText.read? w).map fun
          | .color passed => passed.withOpacity s.opacity
          | .inherit => s.textColor := by
  obtain ⟨p, hp, hcomputed⟩ := exists_parent_of_styles htree.linked hs
  -- the longhand is the element's own, and the shorthand is that of the parent
  have hown : s.get? "background-color" = some v := by
    rw [hcomputed]
    exact get?_computed_of_declares hcolor (ColorText.not_takesParentValue (by decide) hv) _
  have hpassed : s.get? "background" = (input.styles.styleOf p).get? "background" := by
    rw [hcomputed]
    exact get?_computed_of_undeclared (by decide) hnone _
  refine ⟨p, hp, ?_, ?_⟩
  · intro hblank
    have hfilter : (s.get? "background").filter (fun text => !Text.isAllBlank text.toList) =
        none := by
      rw [hpassed, Option.filter_eq_none_iff]
      intro w hw
      rw [hblank w hw]
      decide
    simp only [Style.backgroundColor?, hfilter, Option.none_or, hown, Option.bind_some, hv]
  · intro w hw hink
    have hfilter : (s.get? "background").filter (fun text => !Text.isAllBlank text.toList) =
        some w := by
      rw [hpassed, hw, Option.filter_some, if_pos (by simpa using hink)]
    rw [Style.backgroundColor?, hfilter, Option.some_or, Option.bind_some]
    cases ColorText.read? w with
    | none => rfl
    | some text => cases text <;> rfl

/-- A `p` keeps the color that a rule gives to it, in spite of the `background-color` of the `div`
around it. -/
theorem background_of_declares_in_colored :
    let tree := ((Tree.empty.appendNew Tree.root
      (.element ⟨"div", [⟨"style", "background-color: red; opacity: 0.5"⟩]⟩)).1.appendNew 1
        (.element ⟨"p", []⟩)).1
    let sheet : Stylesheet :=
      ⟨[⟨"p", { tag := "p" }, Block.empty.set "background-color" "blue"⟩]⟩
    let input : StyleInput := { tree, sheet }
    let s := Style.ofPairs [("background-color", "blue"), ("opacity", "0.5")]
    let blue : Color := ⟨0, 0, 255, 255⟩
    tree.Built ∧ input.styles.get? 2 = some s ∧
      input.Declares 2 "background-color" (some "blue") ∧
      ColorText.read? "blue" = some (.color blue) ∧ input.Declares 2 "background" none ∧
      s.backgroundColor? = some (blue.withOpacity s.opacity) := by
  intro tree sheet input s blue
  have htree : tree.Built := (Tree.Built.empty.appendNew _ _).appendNew _ _
  have hs : input.styles.get? 2 = some s := by decide +kernel
  have he : input.tree.element? 2 = some ⟨"p", []⟩ := by decide
  have hcolor : input.Declares 2 "background-color" (some "blue") :=
    declares_of_cascaded he (by decide +kernel)
  have hnone : input.Declares 2 "background" none := declares_of_cascaded he (by decide +kernel)
  have hv : ColorText.read? "blue" = some (.color blue) := by decide +kernel
  obtain ⟨p, hp, hown, -⟩ := background_of_declares htree hs hcolor hv hnone
  obtain rfl : 1 = p := Option.some.inj ((show tree.parent? 2 = some 1 by decide).symm.trans hp)
  refine ⟨htree, hs, hcolor, hv, hnone, hown ?_⟩
  intro w hw
  have habove : (input.styles.styleOf 1).get? "background" = none := by decide +kernel
  rw [habove] at hw
  cases hw

/-- A `p` with a color of its own is painted in the `background` of the `div` around it. -/
theorem background_passed_over_own :
    let tree := ((Tree.empty.appendNew Tree.root
      (.element ⟨"div", [⟨"style", "background: red"⟩]⟩)).1.appendNew 1 (.element ⟨"p", []⟩)).1
    let sheet : Stylesheet :=
      ⟨[⟨"p", { tag := "p" }, Block.empty.set "background-color" "blue"⟩]⟩
    let input : StyleInput := { tree, sheet }
    let s := Style.ofPairs [("background", "red"), ("background-color", "blue")]
    let blue : Color := ⟨0, 0, 255, 255⟩
    tree.Built ∧ input.styles.get? 2 = some s ∧
      input.Declares 2 "background-color" (some "blue") ∧
      ColorText.read? "blue" = some (.color blue) ∧ input.Declares 2 "background" none ∧
      s.backgroundColor? ≠ some (blue.withOpacity s.opacity) := by
  intro tree sheet input s blue
  have htree : tree.Built := (Tree.Built.empty.appendNew _ _).appendNew _ _
  have hs : input.styles.get? 2 = some s := by decide +kernel
  have he : input.tree.element? 2 = some ⟨"p", []⟩ := by decide
  have hcolor : input.Declares 2 "background-color" (some "blue") :=
    declares_of_cascaded he (by decide +kernel)
  have hnone : input.Declares 2 "background" none := declares_of_cascaded he (by decide +kernel)
  have hv : ColorText.read? "blue" = some (.color blue) := by decide +kernel
  refine ⟨htree, hs, hcolor, hv, hnone, ?_⟩
  have hshort : (s.get? "background").filter (fun text => !Text.isAllBlank text.toList) =
      some "red" := by decide
  have hred : ColorText.read? "red" = some (.color ⟨255, 0, 0, 255⟩) := by decide +kernel
  simp only [Style.backgroundColor?, hshort, Option.some_or, Option.bind_some, hred]
  -- the opacity does not change the red channel
  intro heq
  have hchannel : (255 : UInt8) = 0 := congrArg Color.r (Option.some.inj heq)
  exact absurd hchannel (by decide)

end StyleInput

end BoxFlow
