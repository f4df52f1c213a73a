import BoxFlow.Proofs.Layout.Reading

/-!
# The text of list items

A list item draws its marker, then the text it starts with or, having none, the text its first
element starts with (`Page.itemText?`). In the first case its children flow without that text, and
where there is no text at all they flow as they are: either way all that is to be shown of the item
is drawn, once and in order. An item that borrows the text of its first element draws that text and
does not lay out its children, so whatever else is in the item is not drawn
(`Page.place_draws_item_text`).
-/

set_option autoImplicit false

namespace BoxFlow

namespace Command

/-- What the runs of a list of commands say. -/
def texts (commands : List Command) : List String := (runs commands).map TextRun.text

@[simp] theorem texts_nil : texts [] = [] := rfl

@[simp] theorem texts_append (xs ys : List Command) : texts (xs ++ ys) = texts xs ++ texts ys := by
  rw [texts, runs, List.filterMap_append, List.map_append]
  rfl

theorem ink_eq_flatMap_texts (commands : List Command) :
    ink commands = (texts commands).flatMap fun text => Text.ink text.toList := by
  rw [texts, List.flatMap_map]
  rfl

end Command

namespace Page

variable {page : Page} {id c first : NodeId} {text : List Char}

theorem texts_drawText (page : Page) (s : Style) (h : text ≠ []) (x y : Float32) :
    Command.texts (page.drawText s text x y).commands = [.ofList text] := by
  have hempty : text.isEmpty = false := by simpa using h
  simp only [drawText, hempty]
  rfl

theorem ne_nil_of_leadingText? (h : page.leadingText? id = some text) : text ≠ [] := by
  rw [leadingText?] at h
  split at h
  · cases h
  · simp only [Option.ite_none_left_eq_some, Option.some.injEq] at h
    obtain ⟨hempty, rfl⟩ := h
    simpa using hempty

/-! ## Markers -/

/-- What the marker of an item says: its number in an ordered list, unless the item is hidden or its
style turns markers off. A disc says nothing. -/
def markerText? (page : Page) (id : NodeId) : Option String :=
  if page.isHidden id ∨ Text.trimmed ((page.style id).value "list-style-type") = "none" then none
  else match page.tree.marker? id with
    | some (.decimal n) => some (.ofList ((toString n).toList ++ ['.']))
    | _ => none

theorem texts_drawMarker (hshown : page.isHidden id = false) (zone : Zone) :
    Command.texts (page.drawMarker (page.style id) zone (page.tree.marker? id)).commands =
      (page.markerText? id).toList := by
  simp only [drawMarker, markerText?, hshown, Bool.false_eq_true, false_or]
  split
  · rfl
  · cases page.tree.marker? id with
    | none => rfl
    | some marker =>
      cases marker with
      | disc => rfl
      | decimal n =>
        simp only [Draw.commands_bind, Draw.commands_pure, List.append_nil]
        exact texts_drawText page (page.style id) (by simp) zone.x zone.y

/-! ## What an item draws of itself -/

/-- The text of an item: its own, or that of its first element. -/
def itemText? (page : Page) (id : NodeId) : Option (List Char) :=
  (page.leadingText? id).or ((page.tree.elementChildren id).head?.bind page.leadingText?)

theorem commands_listItem (page : Page) (id : NodeId) (s : Style) (zone : Zone) :
    (page.listItem id s zone).commands =
      (page.drawMarker s zone (page.tree.marker? id)).commands ++
        (page.drawText s ((page.itemText? id).getD [])
          (zone.x + (s.fontSize + s.lengthOrZero "padding-left")) zone.y).commands := by
  simp only [listItem, itemText?, Draw.commands_bind, Draw.commands_require, List.nil_append]
  congr 1
  cases (page.leadingText? id).or
      ((page.tree.elementChildren id).head?.bind page.leadingText?) with
  | none => rfl
  | some text =>
    rw [Draw.commands_bind]
    exact List.append_nil _

theorem ne_nil_of_itemText? (h : page.itemText? id = some text) : text ≠ [] := by
  rw [itemText?, Option.or_eq_some_iff] at h
  rcases h with hown | ⟨-, hborrowed⟩
  · exact ne_nil_of_leadingText? hown
  · obtain ⟨first, -, hfirst⟩ := Option.bind_eq_some_iff.1 hborrowed
    exact ne_nil_of_leadingText? hfirst

theorem ink_itemText? (page : Page) (id : NodeId) :
    (((page.itemText? id).map String.ofList).toList.flatMap fun text => Text.ink text.toList) =
      Text.ink ((page.itemText? id).getD []) := by
  cases page.itemText? id with
  | none => rfl
  | some text =>
    show [String.ofList text].flatMap _ = _
    rw [List.flatMap_singleton, String.toList_ofList]
    rfl

theorem texts_listItem (hshown : page.isHidden id = false) (zone : Zone) :
    Command.texts (page.listItem id (page.style id) zone).commands =
      (page.markerText? id).toList ++ ((page.itemText? id).map String.ofList).toList := by
  rw [commands_listItem, Command.texts_append, texts_drawMarker hshown]
  apply congrArg ((page.markerText? id).toList ++ ·)
  cases htext : page.itemText? id with
  | none => rfl
  | some text => exact texts_drawText page _ (ne_nil_of_itemText? htext) _ _

/-- An item that borrows no text leaves to its flow what it has not drawn. -/
theorem ink_listItem (h : page.tree.Planted) (hborrows : ¬ page.BorrowsText id) (s : Style)
    (zone : Zone) :
    Text.ink ((page.itemText? id).getD []) ++
        page.restInk id (page.listItem id s zone).value =
      (page.tree.children id).flatMap page.shownInk := by
  rw [← ink_leadingText? h id, itemText?, listItem]
  cases hown : page.leadingText? id with
  | some text => rfl
  | none =>
    have hnone : (page.tree.elementChildren id).head?.bind page.leadingText? = none := by
      rw [← Option.not_isSome_iff_eq_none]
      exact fun hsome => hborrows ⟨hown, hsome⟩
    rw [hnone]
    rfl

/-! ## The whole item -/

/-- A list item whose subtree stays within the depth limit and has no further elements with contents
of their own; line breaks hold nothing. -/
structure IsPlainItem (page : Page) (id : NodeId) : Prop where
  item : page.tree.isTag id "li"
  shallow : ∀ n ∈ page.tree.subtree id, page.tree.depth n ≤ maxDepth
  plain : ∀ n ∈ page.tree.subtree id, n ≠ id → ∀ tag ∈ ["li", "table", "img"],
    ¬ page.tree.isTag n tag
  emptyBreak : ∀ n ∈ page.tree.subtree id, page.tree.isTag n "br" → page.tree.children n = []

instance (page : Page) (id : NodeId) : Decidable (page.IsPlainItem id) :=
  decidable_of_iff
    (page.tree.isTag id "li" ∧ (∀ n ∈ page.tree.subtree id, page.tree.depth n ≤ maxDepth) ∧
      (∀ n ∈ page.tree.subtree id, n ≠ id → ∀ tag ∈ ["li", "table", "img"],
        ¬ page.tree.isTag n tag) ∧
      ∀ n ∈ page.tree.subtree id, page.tree.isTag n "br" → page.tree.children n = [])
    ⟨fun h => ⟨h.1, h.2.1, h.2.2.1, h.2.2.2⟩,
      fun h => ⟨h.item, h.shallow, h.plain, h.emptyBreak⟩⟩

theorem IsPlainItem.child (h : page.tree.Planted) (hid : page.IsPlainItem id)
    (hc : c ∈ page.tree.children id) : page.FlowsPlainly c where
  shallow n hn := hid.shallow n (h.mem_subtree_of_child hc hn)
  plain n hn := by
    have hlt : id < n := Nat.lt_of_lt_of_le (h.lt_of_mem_children hc) (h.le_of_mem_subtree hn)
    exact hid.plain n (h.mem_subtree_of_child hc hn) (Nat.ne_of_gt hlt)
  emptyBreak n hn := hid.emptyBreak n (h.mem_subtree_of_child hc hn)

/-- An item that is shown draws its marker, its text and then what it has left to its flow. -/
theorem exists_texts_place_item (h : page.tree.Planted) (hid : page.IsPlainItem id)
    (hshown : page.isHidden id = false) (zone : Zone) (inline : Bool) :
    ∃ zone' rest,
      Command.texts (page.place (maxDepth + 1 - page.tree.depth id) id zone inline).commands =
        (page.markerText? id).toList ++
          (((page.itemText? id).map String.ofList).toList ++ Command.texts rest) ∧
      Command.ink rest = page.restInk id (page.listItem id (page.style id) zone').value ∧
      ((page.listItem id (page.style id) zone').value.children = none → rest = []) := by
  obtain ⟨e, he, htag⟩ := Tree.exists_element?_of_isTag hid.item
  have hdepth := hid.shallow id (h.self_mem_subtree id)
  -- the item takes one level, and the others are enough for its children
  obtain ⟨levels, hlevels⟩ : ∃ levels, maxDepth + 1 - page.tree.depth id = levels + 1 :=
    ⟨maxDepth - page.tree.depth id, by omega⟩
  have hplace : ∀ c ∈ page.tree.children id, ∀ zone inline,
      Command.ink (page.place levels c zone inline).commands = page.shownInk c := by
    intro c hc zone inline
    refine ink_place h (hid.child h hc) ?_ zone inline
    rw [h.ordered.depth_of_mem_children hc]
    omega
  have helement : page.place (levels + 1) id zone inline =
      page.shownElement (page.place levels) id e zone inline := by
    rw [place, Tree.kind_of_element? he]
    show page.element (page.place levels) id e zone inline = _
    rw [element, hshown]
    rfl
  have hcontent : page.content id e (page.style id) = page.listItem id (page.style id) := by
    funext zone
    rw [content, htag]
    rfl
  obtain ⟨zone', rest, hcommands, hrest⟩ := exists_commands_shownElement hplace e zone inline
  rw [hcontent] at hcommands hrest
  refine ⟨zone', rest, ?_, hrest⟩
  rw [hlevels, helement, hcommands, Command.texts_append, texts_listItem hshown, List.append_assoc]

/-- A hidden item draws nothing. -/
theorem commands_place_of_isHidden (hid : page.tree.isTag id "li")
    (hhidden : page.isHidden id = true) (hdepth : page.tree.depth id ≤ maxDepth) (zone : Zone)
    (inline : Bool) :
    (page.place (maxDepth + 1 - page.tree.depth id) id zone inline).commands = [] := by
  obtain ⟨e, he, -⟩ := Tree.exists_element?_of_isTag hid
  rw [Nat.succ_sub hdepth, place, Tree.kind_of_element? he]
  show (page.element _ id e zone inline).commands = []
  rw [element, hhidden]
  rfl

/-- A plain item draws its marker and then its texts. If it is hidden, or borrows no text, the ink
of these is that of the texts to be shown of it, none lost, repeated or moved. If it borrows the
text of an element that is shown, it draws this text and nothing else. -/
theorem place_draws_item_text {spec : Spec} (htree : page.tree = spec.toTree)
    (hid : page.IsPlainItem id) (zone : Zone) (inline : Bool) :
    ∃ texts,
      Command.texts (page.place (maxDepth + 1 - page.tree.depth id) id zone inline).commands =
        (page.markerText? id).toList ++ texts ∧
      (page.isHidden id = true ∨ ¬ page.BorrowsText id →
        (texts.flatMap fun text => Text.ink text.toList) =
          (page.shownTexts id).flatMap fun content => Text.ink content.toList) ∧
      ∀ first text, page.isHidden id = false → page.leadingText? id = none →
        (page.tree.elementChildren id).head? = some first → page.isHidden first = false →
        page.leadingText? first = some text → texts = [.ofList text] := by
  have h : page.tree.Planted := htree ▸ spec.planted_toTree
  obtain ⟨e, he, -⟩ := Tree.exists_element?_of_isTag hid.item
  have hshownInk := shownInk_element h (Tree.kind_of_element? he)
  cases hhidden : page.isHidden id with
  | true =>
    rw [hhidden, if_pos rfl] at hshownInk
    refine ⟨[], ?_, fun _ => hshownInk.symm, fun _ _ hshown => absurd hshown (by decide)⟩
    -- a hidden item has no marker either
    have hmarker : page.markerText? id = none := by simp [markerText?, hhidden]
    have hdepth := hid.shallow id (h.self_mem_subtree id)
    rw [commands_place_of_isHidden hid.item hhidden hdepth, hmarker]
    rfl
  | false =>
    rw [hhidden, if_neg Bool.false_ne_true] at hshownInk
    obtain ⟨zone', rest, htexts, hrest, hnone⟩ :=
      exists_texts_place_item h hid hhidden zone inline
    refine ⟨_, htexts, ?_, ?_⟩
    · -- its own text and what it leaves to the flow are all there is
      intro hor
      have hborrows := hor.resolve_left Bool.false_ne_true
      rw [List.flatMap_append, ← Command.ink_eq_flatMap_texts, hrest, ink_itemText?,
        ink_listItem h hborrows]
      exact hshownInk.symm
    · -- behind a borrowed text nothing flows
      intro first text _ hown hfirst _ hborrowed
      have htext : (page.tree.elementChildren id).head?.bind page.leadingText? = some text := by
        rw [hfirst, Option.bind_some, hborrowed]
      have hborrows : page.BorrowsText id := ⟨hown, Option.isSome_of_eq_some htext⟩
      rw [hnone (children_listItem_of_borrowsText hborrows _ _), itemText?, hown, htext]
      rfl

/-- In a list that starts at 3 the first item draws its texts but for the hidden one, and the second
one draws the text of its first element. -/
theorem numbered_items_draw_text :
    let spec : Spec := .element "ol" [("start", "3")] [
      .element "li" [] [.text " a\n", .element "b" [] [.text "hidden"],
        .element "p" [] [.text "b", .element "em" [] [.text "c d"]]],
      .element "li" [] [.element "b" [] [.text "one "]]]
    let page : Page :=
      { tree := spec.toTree, styles := .ofList 13 [(4, Style.ofPairs [("display", "none")])] }
    let texts := fun id => Command.texts
      (page.place (maxDepth + 1 - page.tree.depth id) id (.ofSize 0 0 500 300) false).commands
    (∃ shown, texts 2 = ["3."] ++ shown ∧
        (shown.flatMap fun text => Text.ink text.toList) = ['a', 'b', 'c', 'd']) ∧
      texts 10 = ["4.", "one"] := by
  intro spec page texts
  constructor
  · obtain ⟨shown, htexts, hink, -⟩ :=
      @place_draws_item_text page 2 spec rfl (by decide +kernel) (.ofSize 0 0 500 300) false
    have hmarker : page.markerText? 2 = some "3." := by decide +kernel
    have hborrows : ¬ page.BorrowsText 2 := fun hborrows =>
      absurd hborrows.1 (by decide +kernel)
    rw [hmarker] at htexts
    refine ⟨shown, htexts, (hink (Or.inr hborrows)).trans ?_⟩
    decide +kernel
  · obtain ⟨shown, htexts, -, hborrowed⟩ :=
      @place_draws_item_text page 10 spec rfl (by decide +kernel) (.ofSize 0 0 500 300) false
    have hmarker : page.markerText? 10 = some "4." := by decide +kernel
    have hshown := hborrowed 11 ['o', 'n', 'e'] (by decide +kernel) (by decide +kernel)
      (by decide +kernel) (by decide +kernel) (by decide +kernel)
    rw [hmarker, hshown] at htexts
    exact htexts

/-- What follows the first element of an item without a text of its own is lost. -/
theorem item_draws_first_element_only :
    let spec : Spec := .element "li" [] [.element "b" [] [.text "one"], .text " two"]
    let page : Page := { tree := spec.toTree }
    let commands :=
      (page.place (maxDepth + 1 - page.tree.depth 1) 1 (.ofSize 0 0 500 300) false).commands
    page.IsPlainItem 1 ∧ page.markerText? 1 = none ∧ Command.texts commands = ["one"] ∧
      page.shownTexts 1 = ["one", " two"] ∧ Command.ink commands ≠ page.shownInk 1 := by
  decide +kernel

end Page

end BoxFlow
