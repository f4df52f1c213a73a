import BoxFlow.Proofs.Layout.Reading

/-!
# What hidden elements conceal

A text below a hidden element has no influence on the layout of a document, with four exceptions
(`Page.document_withTree`). The element from which the document is laid out, and those above it,
are not asked whether they are hidden. A table does not ask its body, and a cell shows all text
below it. A list item that starts with no text takes that of its first element, hidden or not.

So a hidden element bars the way for the layout unless it is at or above the start, a body that a
table draws, or within a cell that a table draws (`Page.Bars`), and it conceals the texts below it
that it does not lend to a list item (`Page.Conceals`). The proof compares two pages with trees of
one shape whose texts differ where they are concealed. The layout only gets to nodes that no
element above them bars (`Page.IsOpen`), and what it reads there is the same in both.
-/

set_option autoImplicit false

namespace BoxFlow.Page

/-! ## Concealed texts -/

/-- Some table draws the node as its body. -/
def IsTableBody (page : Page) (body : NodeId) : Prop :=
  ∃ table, page.tree.isTag table "table" ∧ page.tableBody? table = some body

/-- Some table draws the node as a cell. -/
def IsTableCell (page : Page) (cell : NodeId) : Prop :=
  ∃ body row, page.IsTableBody body ∧ row ∈ page.rows body ∧ cell ∈ page.cells row

/-- The node is a hidden element at which the layout turns back. -/
structure Bars (page : Page) (id : NodeId) : Prop where
  hides : page.hides id
  ne_start : id ≠ page.start
  not_above_start : ¬ page.tree.Above id page.start
  not_tableBody : ¬ page.IsTableBody id
  not_in_cell : ∀ cell, page.IsTableCell cell → ¬ page.tree.Above cell id

/-- The node is the first element of a list item that starts with no text, and starts with the text
`n` itself. -/
def Lends (page : Page) (id n : NodeId) : Prop :=
  ∃ item, page.tree.isTag item "li" ∧ page.leadingText? item = none ∧
    (page.tree.elementChildren item).head? = some id ∧ page.tree.firstChild? id = some n

/-- The layout does not get past an element to what lies below it, nor is that lent. -/
structure Conceals (page : Page) (id n : NodeId) : Prop where
  above : page.tree.Above id n
  bars : page.Bars id
  not_lent : ¬ page.Lends id n

/-- The tree of a page and another one are equal but for the strings of concealed texts. -/
structure SameButConcealed (page : Page) (t' : Tree) : Prop where
  shape : page.tree.SameShape t'
  text?_eq : ∀ n, (∀ id, ¬ page.Conceals id n) → t'.text? n = page.tree.text? n

/-- No element above the node bars the way to it. -/
def IsOpen (page : Page) (n : NodeId) : Prop := ∀ id, page.tree.Above id n → ¬ page.Bars id

variable {page : Page} {t' : Tree} {id c n : NodeId}

theorem not_bars_of_isHidden_eq_false (h : page.isHidden id = false) : ¬ page.Bars id := by
  intro hbars
  have hhidden := (Bool.and_eq_true_iff.1 hbars.hides).2
  rw [h] at hhidden
  exact absurd hhidden Bool.false_ne_true

/-- The way to a child leads past its parent. -/
theorem IsOpen.child (hid : page.IsOpen id) (hbars : ¬ page.Bars id)
    (hc : page.tree.parent? c = some id) : page.IsOpen c := by
  intro a ha
  rcases ha.eq_or_above hc with rfl | ha
  · exact hbars
  · exact hid a ha

theorem isOpen_start (page : Page) : page.IsOpen page.start :=
  fun _ habove hbars => hbars.not_above_start habove

theorem SameButConcealed.text?_eq_of_isOpen (h : page.SameButConcealed t') (hn : page.IsOpen n) :
    t'.text? n = page.tree.text? n :=
  h.text?_eq n fun id hconceals => hn id hconceals.above hconceals.bars

/-! ## What an element reads -/

section Linked

variable (hlinks : page.tree.Linked)

include hlinks

theorem isOpen_child (hid : page.IsOpen id) (hbars : ¬ page.Bars id)
    (hc : c ∈ page.tree.children id) : page.IsOpen c :=
  hid.child hbars ((hlinks.mem_children_iff id c).1 hc)

/-- A paragraph turns back at hidden elements. -/
theorem isOpen_of_inParagraph (hid : page.IsOpen id) (hbars : ¬ page.Bars id)
    (hn : page.InParagraph id n) : page.IsOpen n := by
  induction hn with
  | child hn => exact isOpen_child hlinks hid hbars hn
  | deeper hc _ hshown _ ih =>
    exact ih (isOpen_child hlinks hid hbars hc) (not_bars_of_isHidden_eq_false hshown)

/-- What lies above a node below a cell is above the cell, the cell itself, or within it. -/
theorem above_cases_of_mem_subtreeWithin {limit : ℕ} {cell a : NodeId}
    (hn : n ∈ page.tree.subtreeWithin limit cell) (ha : page.tree.Above a n) :
    a = cell ∨ page.tree.Above a cell ∨ page.tree.Above cell a := by
  induction limit generalizing cell with
  | zero => exact absurd hn List.not_mem_nil
  | succ limit ih =>
    rw [Tree.subtreeWithin, List.mem_cons, List.mem_flatMap] at hn
    rcases hn with rfl | ⟨c, hc, hn⟩
    · exact Or.inr (Or.inl ha)
    · have hparent := (hlinks.mem_children_iff cell c).1 hc
      rcases ih hn with rfl | hac | hca
      · exact Or.inr (Or.inr (.parent hparent))
      · exact (hac.eq_or_above hparent).imp_right Or.inl
      · exact Or.inr (Or.inr ((Tree.Above.parent hparent).trans hca))

/-- The cells that a table draws are open, if the table is. -/
theorem isOpen_cell {table body row cell : NodeId} (htable : page.IsOpen table)
    (hbars : ¬ page.Bars table) (htag : page.tree.isTag table "table")
    (hbody : page.tableBody? table = some body) (hrow : row ∈ page.rows body)
    (hcell : cell ∈ page.cells row) : page.IsOpen cell ∧ ¬ page.Bars cell := by
  have hbodyOpen : page.IsOpen body := isOpen_child hlinks htable hbars
    (List.mem_of_find?_eq_some (Option.filter_eq_some_iff.1 hbody).1)
  have hbodyBars : ¬ page.Bars body := fun hbars => hbars.not_tableBody ⟨table, htag, hbody⟩
  obtain ⟨hrowChild, hrowShown⟩ := List.mem_filter.1 hrow
  have hrowOpen := isOpen_child hlinks hbodyOpen hbodyBars (List.mem_filter.1 hrowChild).1
  have hrowBars : ¬ page.Bars row :=
    not_bars_of_isHidden_eq_false (by simpa using (Bool.and_eq_true_iff.1 hrowShown).2)
  obtain ⟨hcellChild, hcellShown⟩ := List.mem_filter.1 hcell
  exact ⟨isOpen_child hlinks hrowOpen hrowBars (List.mem_filter.1 hcellChild).1,
    not_bars_of_isHidden_eq_false (by simpa using (Bool.and_eq_true_iff.1 hcellShown).2)⟩

/-- The texts that an open element reads are not concealed. -/
theorem text?_eq_of_reads (h : page.SameButConcealed t') (hid : page.IsOpen id)
    (hbars : ¬ page.Bars id) (hreads : page.Reads id n) : t'.text? n = page.tree.text? n := by
  cases hreads with
  | leading _ _ hn =>
    exact h.text?_eq_of_isOpen (isOpen_child hlinks hid hbars (List.mem_of_mem_head? hn))
  | @borrowed first _ htag hleading hfirst hn =>
    apply h.text?_eq
    intro a hconceals
    -- only `first` could conceal `n`, being its parent, but it lends it to the item
    have hchild : first ∈ page.tree.children id :=
      (List.mem_filter.1 (List.mem_of_mem_head? hfirst)).1
    have hparent := (hlinks.mem_children_iff first n).1 (List.mem_of_mem_head? hn)
    rcases hconceals.above.eq_or_above hparent with rfl | habove
    · exact hconceals.not_lent ⟨id, htag, hleading, hfirst, hn⟩
    · exact isOpen_child hlinks hid hbars hchild a habove hconceals.bars
  | paragraph _ hn => exact h.text?_eq_of_isOpen (isOpen_of_inParagraph hlinks hid hbars hn)
  | separator _ hchildren _ =>
    have hn : n ∈ page.tree.children id := by rw [hchildren]; simp
    exact h.text?_eq_of_isOpen (isOpen_child hlinks hid hbars hn)
  | @cell body row cell _ htag hbody hrow hcell hn =>
    obtain ⟨hopen, hcellBars⟩ := isOpen_cell hlinks hid hbars htag hbody hrow hcell
    apply h.text?_eq
    intro a hconceals
    -- the cell is not barred, nothing above it is, and within a cell nothing bars
    rcases above_cases_of_mem_subtreeWithin hlinks hn hconceals.above with rfl | habove | hwithin
    · exact hcellBars hconceals.bars
    · exact hopen a habove hconceals.bars
    · exact hconceals.bars.not_in_cell cell ⟨body, row, ⟨id, htag, hbody⟩, hrow, hcell⟩ hwithin

/-! ## The whole layout -/

omit hlinks in
/-- Neither the document nor an element that is shown bars anything. -/
theorem not_bars_of_letsFlow (hflow : page.LetsFlow id) : ¬ page.Bars id := by
  cases hflow with
  | document hkind =>
    intro hbars
    have helement := (Bool.and_eq_true_iff.1 hbars.hides).1
    rw [Tree.element?, hkind] at helement
    cases helement
  | element _ hshown _ _ => exact not_bars_of_isHidden_eq_false hshown

/-- From an open node a layout gets to open nodes only. -/
theorem isOpen_of_reaches {levels : ℕ} (hid : page.IsOpen id) (hn : page.Reaches levels id n) :
    page.IsOpen n := by
  induction hn with
  | self => exact hid
  | child hflow hc _ ih => exact ih (isOpen_child hlinks hid (not_bars_of_letsFlow hflow) hc)

end Linked

/-- Concealed texts have no influence on the layout of a document: with a tree that is equal but
for their strings, it has the same commands and the same warnings. -/
theorem document_withTree (htree : page.tree.Built) (h : page.SameButConcealed t')
    (size : CanvasSize) : (page.withTree t').document size = page.document size := by
  have hlinks := htree.linked
  have hopen : ∀ n, page.LaysOut n → page.IsOpen n := by
    rintro n ⟨c, hc, hn⟩
    have hchild := isOpen_child hlinks (isOpen_start page) (fun hbars => hbars.ne_start rfl) hc
    exact isOpen_of_reaches hlinks hchild hn
  apply document_withTree_of_reads h.shape
  rintro n (hn | ⟨id, hid, hshown, hreads⟩)
  · exact h.text?_eq_of_isOpen (hopen n hn)
  · exact text?_eq_of_reads hlinks h (hopen id hid) (not_bars_of_isHidden_eq_false hshown) hreads

/-- Of a body with a text and a hidden element, the text in the latter may change. -/
theorem document_hides_text :
    let tree (content : String) : Tree :=
      ((((Tree.empty.appendNew Tree.root (.element ⟨"body", []⟩)).1.appendNew 1
        (.text "seen")).1.appendNew 1 (.element ⟨"div", []⟩)).1.appendNew 3 (.text content)).1
    let page : Page :=
      { tree := tree "a", styles := .ofList 5 [(3, Style.ofPairs [("display", "none")])] }
    page.tree.Built ∧ page.SameButConcealed (tree "b") ∧ (tree "b").text? 4 = some "b" ∧
      (page.withTree (tree "b")).document {} = page.document {} := by
  intro tree page
  have htree : (tree "a").Built :=
    (((Tree.Built.empty.appendNew _ _).appendNew _ _).appendNew _ _).appendNew _ _
  have hnoTag : ∀ tag ∈ ["table", "li"], ∀ id, ¬ page.tree.isTag id tag := by
    intro tag hmem id htag
    have hlt : id < 5 := Tree.lt_size_of_isTag htag
    have hnone : ∀ tag ∈ ["table", "li"], ∀ id < 5, ¬ page.tree.isTag id tag := by decide
    exact hnone tag hmem id hlt htag
  have hnoBody : ∀ body, ¬ page.IsTableBody body := by
    rintro body ⟨table, htag, -⟩
    exact hnoTag "table" (by decide) table htag
  have hconceals : page.Conceals 3 4 := by
    refine ⟨.parent (by decide), ⟨by decide +kernel, by decide +kernel, ?_, hnoBody 3, ?_⟩, ?_⟩
    · intro habove
      rcases habove.eq_or_above (p := Tree.root) (by decide +kernel) with heq | habove
      · exact absurd heq (by decide)
      · obtain ⟨p, hp⟩ := habove.exists_parent
        exact absurd hp.symm (Option.some_ne_none p)
    · rintro cell ⟨body, -, hbody, -⟩
      exact absurd hbody (hnoBody body)
    · rintro ⟨item, htag, -⟩
      exact hnoTag "li" (by decide) item htag
  have h : page.SameButConcealed (tree "b") := by
    refine ⟨.of_map_eq (by decide +kernel), ?_⟩
    intro n hn
    by_cases hlt : n < 5
    · have hsame : ∀ n < 5, n ≠ 4 → (tree "b").text? n = page.tree.text? n := by decide
      refine hsame n hlt ?_
      rintro rfl
      exact hn 3 hconceals
    · have hnone : ∀ content, (tree content).text? n = none :=
        fun content => Tree.text?_eq_none (Nat.le_of_not_lt hlt)
      exact (hnone "b").trans (hnone "a").symm
  exact ⟨htree, h, by decide, document_withTree htree h {}⟩

/-- A hidden body does not conceal its texts: they are drawn. -/
theorem document_shows_text_of_hidden_body :
    let tree (content : String) := (Spec.element "body" [] [.text content]).toTree
    let page : Page :=
      { tree := tree "a", styles := .ofList 3 [(1, Style.ofPairs [("display", "none")])] }
    page.tree.SameShape (tree "b") ∧
      (∀ n, (∀ id, page.hides id → ¬ page.tree.Above id n) →
        (tree "b").text? n = page.tree.text? n) ∧
      ((page.withTree (tree "b")).document {}).commands ≠ (page.document {}).commands := by
  intro tree page
  refine ⟨.of_map_eq (by decide +kernel), ?_, ?_⟩
  · intro n hn
    by_cases hlt : n < 3
    · have hsame : ∀ n < 3, n ≠ 2 → (tree "b").text? n = page.tree.text? n := by decide +kernel
      refine hsame n hlt ?_
      rintro rfl
      exact hn 1 (by decide +kernel) (.parent (by decide +kernel))
    · have hnone : ∀ content, (tree content).text? n = none :=
        fun content => Tree.text?_eq_none (Nat.le_of_not_lt hlt)
      exact (hnone "b").trans (hnone "a").symm
  · intro heq
    have hink := congrArg Command.ink heq
    rw [ink_document (Spec.planted_toTree _) (by decide +kernel),
      ink_document (Spec.planted_toTree _) (by decide +kernel)] at hink
    exact absurd hink (by decide +kernel)

end BoxFlow.Page
