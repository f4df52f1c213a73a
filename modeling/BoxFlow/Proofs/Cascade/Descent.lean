import BoxFlow.Cascade.Compute
import BoxFlow.Proofs.Dom.Links
import BoxFlow.Proofs.Style.Inheritance

/-!
# Inheritance down the tree

The styles of a tree are computed from the top, the style of a node from that of its parent. One
step keeps two things about an inherited property: a value above is followed by a value below, and
where the value above is no inheritance keyword, that below is none either
(`Style.passesOn_computed`). Rules, blank values and style attributes do not interfere, because the
inheritance pass fills every gap and the keywords of a style attribute are replaced after it.

A node with a style has been reached from the document through its ancestors, and through each with
the one style that this ancestor has (`StyleInput.Reached`). So what one step keeps holds between
any styled node and any element on the way up from it to the document (`StyleInput.styles_pass_on`).
These are all the elements above it, unless the document has been put below itself. Then the walk
up goes on behind the document, to elements from which no style has come down
(`StyleInput.color_not_passed_through_document`).
-/

set_option autoImplicit false

namespace BoxFlow

/-! ## One step down -/

namespace Style

variable {p : String} {above middle below s : Style}

/-- A style above another one passes a property on to it: a value is followed by a value, and one
that is no inheritance keyword by one that is none. -/
structure PassesOn (p : String) (above below : Style) : Prop where
  value : (above.get? p).isSome → (below.get? p).isSome
  noKeyword : ∀ v, above.get? p = some v → isInheritanceKeyword p v = false →
    ∀ w, below.get? p = some w → isInheritanceKeyword p w = false

theorem PassesOn.trans (h : PassesOn p above middle) (h' : PassesOn p middle below) :
    PassesOn p above below where
  value := fun hv => h'.value (h.value hv)
  noKeyword := by
    intro v hv hkeyword w hw
    obtain ⟨u, hu⟩ := Option.isSome_iff_exists.1 (h.value (by rw [hv]; rfl))
    exact h'.noKeyword u hu (h.noKeyword v hv hkeyword u hu) w hw

/-- Nothing is asked for where the style above has no value. -/
theorem PassesOn.of_get?_eq_none (h : above.get? p = none) : PassesOn p above below where
  value := by simp [h]
  noKeyword := by simp [h]

/-- The value from above itself is passed on. -/
theorem PassesOn.of_get?_eq {v : String} (h : above.get? p = some v) (h' : below.get? p = some v) :
    PassesOn p above below where
  value := by simp [h']
  noKeyword := by
    intro u hu hkeyword w hw
    obtain rfl : v = u := Option.some.inj (h.symm.trans hu)
    obtain rfl : v = w := Option.some.inj (h'.symm.trans hw)
    exact hkeyword

/-- A value that is no keyword is passed on from whatever is above. -/
theorem PassesOn.of_noKeyword {v : String} (h : below.get? p = some v)
    (hkeyword : isInheritanceKeyword p v = false) : PassesOn p above below where
  value := by simp [h]
  noKeyword := by
    intro _ _ _ w hw
    obtain rfl : v = w := Option.some.inj (h.symm.trans hw)
    exact hkeyword

/-- A value that does not make way for that of the parent is no keyword. -/
theorem not_keyword_of_not_takesParentValue {v : String} (h : takesParentValue p v = false) :
    isInheritanceKeyword p v = false := by
  rw [takesParentValue, Bool.or_eq_false_iff] at h
  exact h.2

theorem passesOn_inherit (hp : p ∈ inheritedProperties) (s above : Style) :
    PassesOn p above (s.inherit above) := by
  cases habove : above.get? p with
  | none => exact .of_get?_eq_none habove
  | some v =>
    have hvalue := get?_inherit s above p
    rw [habove, inheritedValue] at hvalue
    split at hvalue
    · exact .of_get?_eq habove hvalue
    · next hown =>
      -- the own value stays only if it does not make way
      have hstays : ¬ (s.get? p).all (takesParentValue p) = true := by
        intro hall
        exact hown ⟨hp, hall, rfl⟩
      cases hs : s.get? p with
      | none =>
        rw [hs] at hstays
        exact absurd rfl hstays
      | some own =>
        rw [hs] at hvalue hstays
        rw [Option.all_some, Bool.not_eq_true] at hstays
        exact .of_noKeyword hvalue (not_keyword_of_not_takesParentValue hstays)

/-- What has been passed on is not lost to a style attribute: each of its keywords is replaced. -/
theorem PassesOn.resolveInline_apply (hp : p ∈ inheritedProperties) (h : PassesOn p above s)
    (inline : Block) : PassesOn p above ((s.apply inline).resolveInline inline above) := by
  cases habove : above.get? p with
  | none => exact .of_get?_eq_none habove
  | some v =>
    have hvalue := get?_resolveInline (s.apply inline) inline above p
    rw [habove, get?_apply] at hvalue
    split at hvalue
    · exact .of_get?_eq habove hvalue
    · next hinline =>
      cases hown : inline.get? p with
      | none =>
        -- the attribute does not mention the property
        rw [hown, Option.none_or] at hvalue
        exact ⟨fun hsome => hvalue ▸ h.value hsome, hvalue ▸ h.noKeyword⟩
      | some own =>
        rw [hown, Option.some_or] at hvalue
        refine .of_noKeyword hvalue ?_
        by_cases hempty : own = ""
        · rw [hempty]
          exact isInheritanceKeyword_empty p
        · have hstays : takesParentValue p own = false := by
            rw [← Bool.not_eq_true]
            intro htakes
            exact hinline ⟨hp, by simp [hown, hempty, htakes], rfl⟩
          exact not_keyword_of_not_takesParentValue hstays

/-- Computing the style of a node passes every inherited property on to it. -/
theorem passesOn_computed (hp : p ∈ inheritedProperties) (sheet : Stylesheet) (subject : Subject)
    (above : Style) : PassesOn p above (sheet.computed subject above) := by
  rw [Stylesheet.computed]
  cases subject.tree.element? subject.id with
  | none => exact passesOn_inherit hp empty above
  | some e =>
    have hcascaded := passesOn_inherit hp (sheet.cascaded subject) above
    cases hattribute : e.attribute? "style" with
    | none => simpa only [hattribute] using hcascaded
    | some text => simpa only [hattribute] using hcascaded.resolveInline_apply hp (.ofInline text)

end Style

/-! ## Elements and texts -/

namespace Tree

variable {t : Tree} {n : NodeId}

/-- The nodes that may have a style: elements and texts. -/
def TakesStyle (t : Tree) (n : NodeId) : Prop := (t.element? n).isSome ∨ (t.text? n).isSome

theorem element?_eq_none_of_text? (h : (t.text? n).isSome) : t.element? n = none := by
  rw [text?] at h
  rw [element?]
  cases hkind : (t.get? n).map Node.kind with
  | none => rfl
  | some kind =>
    rw [hkind] at h
    cases kind with
    | text content => rfl
    | document => cases h
    | element e => cases h
    | comment content => cases h

/-- One node lies above another, and the walk up comes to it before it comes to the document. -/
inductive AboveUnderRoot (t : Tree) : NodeId → NodeId → Prop
  | parent {p x : NodeId} : t.parent? x = some p → p ≠ root → AboveUnderRoot t p x
  | up {a p x : NodeId} : t.parent? x = some p → p ≠ root → AboveUnderRoot t a p →
      AboveUnderRoot t a x

/-- A walk up that comes to a node below the document passes the document only if that is below
itself. -/
theorem Above.underRoot {a : NodeId} (h : t.Above a n) (hroot : ¬ t.Above root root)
    (ha : t.Above root a) (hne : a ≠ root) : t.AboveUnderRoot a n := by
  induction h with
  | parent hp => exact .parent hp hne
  | up hp habove ih =>
    refine .up hp ?_ ih
    rintro rfl
    exact hroot (ha.trans habove)

end Tree

theorem Stylesheet.computed_eq_inheritedOnly {s : Subject} (h : s.tree.element? s.id = none)
    (sheet : Stylesheet) (parent : Style) : sheet.computed s parent = .inheritedOnly parent := by
  simp only [computed, h]

/-! ## The styles of a tree -/

namespace StyleMap

variable {n : NodeId} {s : Style}

/-- A table of styles filled from a list holds what it held before or what the list says. -/
theorem mem_or_of_foldl {styles : List (NodeId × Style)} {table : Array (Option Style)}
    (h : (styles.foldl (fun table entry => table.setIfInBounds entry.1 (some entry.2))
      table)[n]?.join = some s) : (n, s) ∈ styles ∨ table[n]?.join = some s := by
  induction styles generalizing table with
  | nil => exact Or.inr h
  | cons entry styles ih =>
    rw [List.foldl_cons] at h
    rcases ih h with hmem | htable
    · exact Or.inl (List.mem_cons_of_mem entry hmem)
    · rw [Array.getElem?_setIfInBounds] at htable
      split at htable
      · next hn =>
        split at htable
        · obtain rfl : entry.2 = s := by simpa using htable
          subst hn
          exact Or.inl List.mem_cons_self
        · simp at htable
      · exact Or.inr htable

theorem mem_of_get?_ofList {size : ℕ} {styles : List (NodeId × Style)}
    (h : (ofList size styles).get? n = some s) : (n, s) ∈ styles := by
  rcases mem_or_of_foldl h with hmem | hempty
  · exact hmem
  · rw [Array.getElem?_replicate] at hempty
    split at hempty <;> simp at hempty

end StyleMap

namespace StyleInput

variable {input : StyleInput} {n a : NodeId} {s s' : Style}

/-- The nodes that are reached from the document through elements, each with its style. -/
inductive Reached (input : StyleInput) : NodeId → Style → Prop
  | top {c : NodeId} : c ∈ input.tree.children Tree.root →
      Reached input c (input.sheet.computed (input.subject c) .empty)
  | child {m c : NodeId} {above : Style} : Reached input m above → (input.tree.element? m).isSome →
      c ∈ input.tree.children m → Reached input c (input.sheet.computed (input.subject c) above)

/-- One level of the walk down: it gives a style to the node itself if that is an element or a text,
and goes on to the children of an element. -/
theorem mem_stylesWithin_succ {levels : ℕ} {above : Style} {c : NodeId} :
    (n, s) ∈ input.stylesWithin (levels + 1) above c ↔
      input.tree.TakesStyle c ∧
        ((n = c ∧ s = input.sheet.computed (input.subject c) above) ∨
          ((input.tree.element? c).isSome ∧ ∃ c' ∈ input.tree.children c,
            (n, s) ∈
              input.stylesWithin levels (input.sheet.computed (input.subject c) above) c')) := by
  rw [stylesWithin]
  split
  · next e hkind =>
    have helement : (input.tree.element? c).isSome := by
      rw [Tree.element?, hkind]
      rfl
    rw [List.mem_cons, Prod.mk.injEq, List.mem_flatMap]
    simp only [Tree.TakesStyle, helement, true_or, true_and]
  · next content hkind =>
    -- for a text, the style is what it would be for any node that is no element
    have htext : (input.tree.text? c).isSome := by
      rw [Tree.text?, hkind]
      rfl
    have hnone : input.tree.element? c = none := Tree.element?_eq_none_of_text? htext
    rw [Stylesheet.computed_eq_inheritedOnly hnone, List.mem_singleton, Prod.mk.injEq]
    simp [Tree.TakesStyle, htext, hnone]
  · next helement htext =>
    have hnone : ¬ input.tree.TakesStyle c := by
      rintro (h | h)
      · rw [Tree.element?] at h
        split at h
        · next e hkind => exact helement e hkind
        · cases h
      · rw [Tree.text?] at h
        split at h
        · next content hkind => exact htext content hkind
        · cases h
    simp [hnone]

/-- The styles below a node are those of nodes reached through it. -/
theorem reached_of_mem_stylesWithin {levels : ℕ} {above : Style} {c : NodeId}
    (hc : Reached input c (input.sheet.computed (input.subject c) above))
    (h : (n, s) ∈ input.stylesWithin levels above c) : Reached input n s := by
  induction levels generalizing above c with
  | zero => exact absurd h List.not_mem_nil
  | succ levels ih =>
    obtain ⟨-, ⟨rfl, rfl⟩ | ⟨helement, c', hc', hn⟩⟩ := mem_stylesWithin_succ.1 h
    · exact hc
    · exact ih (.child hc helement hc') hn

/-- A node with a style has been reached with it. -/
theorem reached_of_get?_styles (h : input.styles.get? n = some s) : Reached input n s := by
  obtain ⟨c, hc, hn⟩ := List.mem_flatMap.1 (StyleMap.mem_of_get?_ofList h)
  exact reached_of_mem_stylesWithin (.top hc) hn

namespace Reached

/-- Each node is reached through its parent only, so with one style. -/
theorem unique (hlinks : input.tree.Linked) (h : Reached input n s) (h' : Reached input n s') :
    s = s' := by
  induction h generalizing s' with
  | top hc =>
    rw [hlinks.mem_children_iff] at hc
    cases h' with
    | top hc' => rfl
    | child hm helement hc' =>
      rw [hlinks.mem_children_iff, hc] at hc'
      obtain rfl := Option.some.inj hc'
      simp [hlinks.element?_root] at helement
  | child hm helement hc ih =>
    rw [hlinks.mem_children_iff] at hc
    cases h' with
    | top hc' =>
      rw [hlinks.mem_children_iff, hc] at hc'
      obtain rfl := Option.some.inj hc'
      simp [hlinks.element?_root] at helement
    | child hm' helement' hc' =>
      rw [hlinks.mem_children_iff, hc] at hc'
      obtain rfl := Option.some.inj hc'
      rw [ih hm']

/-- What is reached lies below the document. -/
theorem below_root (hlinks : input.tree.Linked) (h : Reached input n s) :
    input.tree.Above Tree.root n := by
  induction h with
  | top hc => exact .parent ((hlinks.mem_children_iff _ _).1 hc)
  | child _ _ hc ih => exact .up ((hlinks.mem_children_iff _ _).1 hc) ih

/-- A node that is reached gets its style from every node on the way up to the document. -/
theorem passesOn {p : String} (hp : p ∈ inheritedProperties) (hlinks : input.tree.Linked)
    (hn : Reached input n s) (ha : Reached input a s') (habove : input.tree.AboveUnderRoot a n) :
    s'.PassesOn p s := by
  induction hn with
  | top hc =>
    -- nothing is met before the document
    have hparent := (hlinks.mem_children_iff _ _).1 hc
    cases habove with
    | parent hp' hne => exact absurd (Option.some.inj (hp'.symm.trans hparent)) hne
    | up hp' hne _ => exact absurd (Option.some.inj (hp'.symm.trans hparent)) hne
  | child hm _ hc ih =>
    have hparent := (hlinks.mem_children_iff _ _).1 hc
    have hstep := Style.passesOn_computed hp input.sheet
    cases habove with
    | parent hp' _ =>
      obtain rfl := Option.some.inj (hp'.symm.trans hparent)
      rw [ha.unique hlinks hm]
      exact hstep _ _
    | up hp' _ habove =>
      obtain rfl := Option.some.inj (hp'.symm.trans hparent)
      exact (ih habove).trans (hstep _ _)

end Reached

/-- Between two styled nodes of a tree, an element and one from which the walk up comes to that
element before it comes to the document, every inherited property is passed on: where the element
has a value, so has the node below, and where the value of the element is no inheritance keyword,
that of the node below is none. The tree may have been built in any way. If the document has not
been put below itself, this holds for every element above the node. -/
theorem styles_pass_on (htree : input.tree.Built) {p : String} (hp : p ∈ inheritedProperties)
    (hn : input.styles.get? n = some s) (ha : input.styles.get? a = some s')
    (helement : (input.tree.element? a).isSome) :
    (input.tree.AboveUnderRoot a n → s'.PassesOn p s) ∧
      (¬ input.tree.Above Tree.root Tree.root → input.tree.Above a n → s'.PassesOn p s) := by
  have hpass := (reached_of_get?_styles hn).passesOn hp htree.linked (reached_of_get?_styles ha)
  refine ⟨hpass, ?_⟩
  intro hroot habove
  have hbelow := (reached_of_get?_styles ha).below_root htree.linked
  refine hpass (habove.underRoot hroot hbelow ?_)
  rintro rfl
  rw [htree.linked.element?_root] at helement
  cases helement

/-- The color of a `div` goes through a `p` whose style attribute asks for it, to the text in it. -/
theorem color_passed_through_keyword :
    let tree := (((Tree.empty.appendNew Tree.root (.element ⟨"div", []⟩)).1.appendNew 1
      (.element ⟨"p", [⟨"style", "color: inherit; opacity: 0.5"⟩]⟩)).1.appendNew 2 (.text "a")).1
    let sheet : Stylesheet := ⟨[⟨"div", { tag := "div" }, Block.empty.set "color" "red"⟩]⟩
    let input : StyleInput := { tree, sheet }
    let above := Style.ofPairs [("color", "red")]
    let below := Style.ofPairs [("color", "red"), ("opacity", "0.5")]
    tree.Built ∧ "color" ∈ inheritedProperties ∧
      input.styles.get? 3 = some below ∧ input.styles.get? 1 = some above ∧
      (tree.element? 1).isSome ∧ tree.AboveUnderRoot 1 3 ∧ above.PassesOn "color" below := by
  intro tree sheet input above below
  have htree : tree.Built := (((Tree.Built.empty.appendNew _ _).appendNew _ _).appendNew _ _)
  have hp : "color" ∈ inheritedProperties := by decide
  have hn : input.styles.get? 3 = some below := by decide +kernel
  have ha : input.styles.get? 1 = some above := by decide +kernel
  have helement : (tree.element? 1).isSome := by decide
  have habove : tree.AboveUnderRoot 1 3 :=
    .up (p := 2) (by decide) (by decide) (.parent (by decide) (by decide))
  obtain ⟨hpass, -⟩ := styles_pass_on htree hp hn ha helement
  exact ⟨htree, hp, hn, ha, helement, habove, hpass habove⟩

/-- The document is attached to a `p` in a `div`, so that the `p` lies above the `div`. But styles
come down from the document, and the color of the `p` does not get to the `div`. -/
theorem color_not_passed_through_document :
    let tree := ((Tree.empty.appendNew Tree.root (.element ⟨"div", []⟩)).1.appendNew 1
      (.element ⟨"p", []⟩)).1.append 2 Tree.root
    let sheet : Stylesheet := ⟨[⟨"p", { tag := "p" }, Block.empty.set "color" "red"⟩]⟩
    let input : StyleInput := { tree, sheet }
    let above := Style.ofPairs [("color", "red")]
    tree.Built ∧ input.styles.get? 2 = some above ∧ input.styles.get? 1 = some .empty ∧
      (tree.element? 2).isSome ∧ tree.Above 2 1 ∧ "color" ∈ inheritedProperties ∧
      ¬ above.PassesOn "color" .empty := by
  intro tree sheet input above
  have htree : tree.Built := ((Tree.Built.empty.appendNew _ _).appendNew _ _).append _ _
  have ha : input.styles.get? 2 = some above := by decide +kernel
  have hn : input.styles.get? 1 = some .empty := by decide +kernel
  have habove : tree.Above 2 1 := .up (p := Tree.root) (by decide) (.parent (by decide))
  refine ⟨htree, ha, hn, by decide, habove, by decide, ?_⟩
  intro hpass
  have hvalue : (Style.empty.get? "color").isSome := hpass.value (by decide)
  rw [Style.get?_empty] at hvalue
  cases hvalue

end StyleInput

end BoxFlow
