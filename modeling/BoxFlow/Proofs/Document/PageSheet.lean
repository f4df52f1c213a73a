import BoxFlow.Document.Basic
import BoxFlow.Proofs.Dom.Planting
import BoxFlow.Proofs.Stylesheet.Seams

/-!
# The sheet of a page

A page holds the texts of the style elements right inside its head (`Tree.styleTexts`), and its
sheet is read from all of them together, joined line by line. As long as the texts are sealed, each
counts as if it were read on its own; from the first text on that leaves something open, what is
left counts as one source (`Document.sheet_of_styleTexts`). Any texts are those of some page
(`Spec.styleTexts_pageOf`), so there is a page with an open text that spoils the one behind it.
-/

set_option autoImplicit false

namespace BoxFlow

/-- The texts of all style elements right inside the head. -/
def Tree.styleTexts (t : Tree) : List String :=
  match t.head? with
  | none => []
  | some head => ((t.elementChildren head).filter fun id => t.isTag id "style").map t.textContent

theorem Tree.pageRules_eq_joinWith (t : Tree) : t.pageRules = Text.joinWith "\n" t.styleTexts := by
  rw [pageRules, styleTexts]
  cases t.head? with
  | none => rfl
  | some head => rfl

/-! ## Pages with given texts -/

namespace Spec

/-- A style element. -/
def style (text : String) : Spec := .element "style" [] [.text text]

/-- A page with style elements in its head, and nothing else. -/
def pageOf (texts : List String) : Spec := .element "html" [] [.element "head" [] (texts.map style)]

end Spec

namespace Tree

variable {t : Tree} {n : ℕ}

theorem textContent_style {text : String} (h : t.HoldsFrom n (Spec.style text))
    (hsize : 2 ≤ t.size) : t.textContent n = text := by
  have hbelow : t.subtree n = [n, n + 1] := h.subtreeWithin_eq hsize
  obtain ⟨hkind, -, ⟨hkind', -⟩, -⟩ := h
  have hnone : t.text? n = none := by rw [text?, hkind]
  have hsome : t.text? (n + 1) = some text := by rw [text?, hkind']
  rw [textContent, hbelow, List.flatMap_cons, List.flatMap_singleton, hnone, hsome]
  exact String.ofList_toList

/-- A node of that tag is found at once. -/
theorem findTagWithin_of_tag {tag : String}
    (h : (t.tag? n).any (Text.sameIgnoringCase · tag) = true) (limit : ℕ) :
    t.findTagWithin tag (limit + 1) [n] = some n := by
  have hfind : [n].find? (fun id => (t.tag? id).any (Text.sameIgnoringCase · tag)) = some n :=
    List.find?_cons_of_pos h
  rw [findTagWithin, hfind]

/-- A search that does not find the tag goes on with the only child. -/
theorem findTagWithin_of_child {tag : String} {c : ℕ}
    (h : (t.tag? n).any (Text.sameIgnoringCase · tag) = false) (hchild : t.children n = [c])
    (limit : ℕ) : t.findTagWithin tag (limit + 1) [n] = t.findTagWithin tag limit [c] := by
  have hfind : [n].find? (fun id => (t.tag? id).any (Text.sameIgnoringCase · tag)) = none :=
    List.find?_cons_of_neg (by rw [h]; decide)
  have hbelow : [n].flatMap t.children = [c] := by rw [List.flatMap_singleton, hchild]
  rw [findTagWithin, hfind]
  simp only [hbelow]

/-- Style elements that follow each other have the texts that were given to them. -/
theorem map_textContent_styles {texts : List String}
    (h : t.HoldsAllFrom n (texts.map Spec.style)) (hsize : 2 ≤ t.size) :
    (((Spec.starts n (texts.map Spec.style)).filter fun id => (t.element? id).isSome).filter
      fun id => t.isTag id "style").map t.textContent = texts := by
  induction texts generalizing n with
  | nil => rfl
  | cons text texts ih =>
    obtain ⟨hfirst, hrest⟩ := h
    have helement : t.element? n = some (.ofWritten "style" []) := by rw [element?, hfirst.1]
    have hstyle : t.isTag n "style" := isTag_of_element? helement
    rw [List.map_cons, Spec.starts, List.filter_cons_of_pos (by rw [helement]; rfl),
      List.filter_cons_of_pos (p := fun id => t.isTag id "style") hstyle, List.map_cons,
      textContent_style hfirst hsize, ih hrest]

end Tree

namespace Spec

theorem head?_pageOf (texts : List String) : (pageOf texts).toTree.head? = some 2 := by
  have hroot : (pageOf texts).toTree.tag? Tree.root = none := by
    rw [Tree.tag?, Tree.element?, kind_toTree]
    rfl
  have hhtml : (pageOf texts).toTree.tag? 1 = some "html" := by
    rw [Tree.tag?, Tree.element?, kind_toTree]
    rfl
  have hhead : (pageOf texts).toTree.tag? 2 = some "head" := by
    rw [Tree.tag?, Tree.element?, kind_toTree]
    rfl
  have hbelow : (pageOf texts).toTree.children 1 = [2] := (pageOf texts).toTree_holdsFrom.2.2.1
  obtain ⟨limit, hsize⟩ : ∃ limit, (pageOf texts).toTree.size = limit + 3 := by
    refine ⟨sizeAll (texts.map style), ?_⟩
    rw [size_toTree, pageOf, size_element, sizeAll_cons, size_element, sizeAll_nil]
  -- the search goes down from the document to the page and on to the head, in three steps
  rw [Tree.head?, Tree.findTag?, hsize,
    Tree.findTagWithin_of_child (by rw [hroot]; rfl) (children_root_toTree _),
    Tree.findTagWithin_of_child (by rw [hhtml]; decide) hbelow,
    Tree.findTagWithin_of_tag (by rw [hhead]; decide)]

theorem styleTexts_pageOf (texts : List String) : (pageOf texts).toTree.styleTexts = texts := by
  obtain ⟨-, -, ⟨-, hchildren, hstyles⟩, -⟩ := (pageOf texts).toTree_holdsFrom.2
  have hsize : 2 ≤ (pageOf texts).toTree.size := by
    rw [size_toTree]
    exact Nat.succ_le_succ (pageOf texts).size_pos
  rw [Tree.styleTexts, head?_pageOf]
  simp only [Tree.elementChildren]
  rw [hchildren]
  exact Tree.map_textContent_styles hstyles hsize

end Spec

/-! ## Sheets of pages -/

namespace Document

open Source Stylesheet

/-- The sheet of a page, without the default rules and further sheets. -/
def pageSheet (t : Tree) (visited : List String) : Stylesheet :=
  (ofTree t { visited, useDefaults := false }).sheet

theorem pageSheet_eq_parse (t : Tree) (visited : List String) :
    pageSheet t visited = parse (Text.joinWith "\n" t.styleTexts) := by
  rw [← t.pageRules_eq_joinWith]
  exact empty_merge (Reachable.parse _).nodup_keys

/-- The style texts of a page that are sealed, with nothing but such texts in front of them, count
as if each were read on its own, and those behind them as one source. So the sheet is that of all
texts read on their own and merged in order if all but the last are sealed. Sealed texts are needed
for that: any other text is the first of two on some page the sheet of which is not that of the two
merged. -/
theorem sheet_of_styleTexts (visited : List String) :
    (∀ (t : Tree) (clean rest : List String), t.styleTexts = clean ++ rest →
        (∀ x ∈ clean, IsSealed x.toList) →
          pageSheet t visited = (parseAll clean).merge (parse (Text.joinWith "\n" rest))) ∧
      (∀ t : Tree, (∀ x ∈ t.styleTexts.dropLast, IsSealed x.toList) →
        pageSheet t visited = parseAll t.styleTexts) ∧
      ∀ x : String, ¬ IsSealed x.toList →
        ∃ (t : Tree) (y : String),
          t.styleTexts = [x, y] ∧ pageSheet t visited ≠ parseAll [x, y] := by
  refine ⟨?_, ?_, ?_⟩
  · intro t clean rest htexts hclean
    rw [pageSheet_eq_parse, htexts, parse_joinWith hclean]
  · intro t hsealed
    rw [pageSheet_eq_parse, parse_joinWith_of_dropLast hsealed]
  · intro x hopen
    obtain ⟨y, hy⟩ := exists_parse_line_ne hopen
    have htexts : (Spec.pageOf [x, y]).toTree.styleTexts = [x, y] := Spec.styleTexts_pageOf [x, y]
    refine ⟨(Spec.pageOf [x, y]).toTree, y, htexts, ?_⟩
    have hboth : parseAll [x, y] = (parse x).merge (parse y) := by
      rw [parseAll, List.foldl_cons, List.foldl_cons, List.foldl_nil,
        empty_merge (Reachable.parse x).nodup_keys]
    rw [pageSheet_eq_parse, htexts, joinWith_cons_cons, joinWith_singleton, hboth]
    exact hy

/-- A statement behind a rule is closed by its semicolon, so that the rule on the next line counts.
That line may leave a comment open, as long as it is the last one. -/
theorem sheet_of_styleTexts_open_last :
    let texts := ["p\x7bcolor:red\x7d @import a;", "b\x7bcolor:blue\x7d /* i\x7b\x7d"]
    let t := (Spec.pageOf texts).toTree
    t.styleTexts = texts ∧ (∀ x ∈ t.styleTexts.dropLast, IsSealed x.toList) ∧
      ¬ IsSealed "b\x7bcolor:blue\x7d /* i\x7b\x7d".toList ∧
      pageSheet t [] = parseAll texts ∧ ((pageSheet t []).get? "b").isSome := by
  intro texts t
  obtain ⟨-, hmerged, -⟩ := sheet_of_styleTexts []
  have htexts : t.styleTexts = texts := Spec.styleTexts_pageOf texts
  have hsealed : ∀ x ∈ t.styleTexts.dropLast, IsSealed x.toList := by
    rw [htexts]
    decide
  have hsheet : pageSheet t [] = parseAll texts := by rw [hmerged t hsealed, htexts]
  refine ⟨htexts, hsealed, by decide, hsheet, ?_⟩
  rw [hsheet]
  decide +kernel

/-- A comment or a block that a style element leaves open takes the rule of the next one away. -/
theorem sheet_ne_parseAll_of_open :
    let comment := (Spec.pageOf ["p\x7bcolor:red\x7d /* a", "b\x7bcolor:blue\x7d"]).toTree
    let block := (Spec.pageOf ["p\x7bcolor:red", "b\x7bcolor:blue\x7d"]).toTree
    pageSheet comment [] ≠ parseAll comment.styleTexts ∧
      pageSheet block [] ≠ parseAll block.styleTexts := by
  intro comment block
  rw [pageSheet_eq_parse, pageSheet_eq_parse, Spec.styleTexts_pageOf, Spec.styleTexts_pageOf]
  decide +kernel

end Document

end BoxFlow
