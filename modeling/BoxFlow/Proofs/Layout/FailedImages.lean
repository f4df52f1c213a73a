import BoxFlow.Proofs.Dom.History
import BoxFlow.Proofs.Layout.LineStarts
import BoxFlow.Proofs.Layout.Locality

/-!
# Images that cannot be shown

An image without a source, or whose source is refused, draws nothing, but it is still an element
that stands on a line of its own: it closes the line in front of it and takes up its margins. So the
cursor stays where it is only if no line is open and the margins do not move it
(`Page.failed_image_takes_margins`).

What comes behind is compared with a tree in which a comment stands in place of the image. Comments
are left out of the flow, and nothing else about the children changes, since none of them is above
the image. The children behind the image are laid out in the same places, if they are, because the
cursor is at the same place, and the greatest width reached so far does not count for this
(`FlowCursor.AtSamePlace`).
-/

set_option autoImplicit false

namespace BoxFlow

/-! ## A comment in place of a node -/

namespace Tree

variable {t : Tree} {c x : NodeId}

/-- The tree with a comment in place of a node, linked as the node was. -/
def withComment (t : Tree) (c : NodeId) (content : String) : Tree :=
  t.modify c fun n => { n with kind := .comment content }

section WithComment

variable (t : Tree) (c : NodeId) (content : String)

@[simp] theorem size_withComment : (t.withComment c content).size = t.size := Array.size_modify

theorem get?_withComment_of_ne (hx : x ≠ c) : (t.withComment c content).get? x = t.get? x := by
  rw [withComment, get?_modify, if_neg (Ne.symm hx)]

/-- The links of all nodes stay as they are. -/
theorem map_get?_withComment {α : Type} {part : Node → α}
    (h : ∀ (n : Node) (kind : NodeKind), part { n with kind } = part n) (x : NodeId) :
    ((t.withComment c content).get? x).map part = (t.get? x).map part :=
  map_get?_modify (fun n => h n _) t c x

@[simp] theorem children_withComment (x : NodeId) :
    (t.withComment c content).children x = t.children x := by
  rw [children, children, map_get?_withComment t c content fun _ _ => rfl]

@[simp] theorem parent?_withComment (x : NodeId) :
    (t.withComment c content).parent? x = t.parent? x := by
  rw [parent?, parent?, bind_eq_join, bind_eq_join,
    map_get?_withComment t c content fun _ _ => rfl]

end WithComment

variable (content : String)

theorem kind_withComment (hc : c < t.size) :
    ((t.withComment c content).get? c).map Node.kind = some (.comment content) := by
  rw [withComment, get?_modify, if_pos rfl, Option.map_map, get?, Array.getElem?_eq_getElem hc]
  rfl

theorem element?_withComment_self : (t.withComment c content).element? c = none := by
  rw [element?, withComment, get?_modify, if_pos rfl]
  cases t.get? c <;> rfl

theorem element?_withComment_of_ne (hx : x ≠ c) :
    (t.withComment c content).element? x = t.element? x := by
  rw [element?, element?, get?_withComment_of_ne t c content hx]

theorem text?_withComment {e : Element} (hc : t.element? c = some e) (x : NodeId) :
    (t.withComment c content).text? x = t.text? x := by
  by_cases hx : x = c
  · subst hx
    have hsize := lt_size_of_element? (Option.isSome_of_eq_some hc)
    rw [text?, text?, kind_withComment content hsize, kind_of_element? hc]
  · rw [text?, text?, get?_withComment_of_ne t c content hx]

theorem isComment_withComment (hc : c < t.size) (x : NodeId) :
    (t.withComment c content).isComment x = (x == c || t.isComment x) := by
  by_cases hx : x = c
  · subst hx
    rw [isComment, kind_withComment content hc, beq_self_eq_true, Bool.true_or]
  · rw [isComment, isComment, get?_withComment_of_ne t c content hx, beq_false_of_ne hx,
      Bool.false_or]

/-- Markers look at lists and their items only. -/
theorem marker?_withComment (hc : ∀ tag ∈ ["ul", "ol", "li"], t.isTag c tag = false)
    (x : NodeId) : (t.withComment c content).marker? x = t.marker? x := by
  rw [marker?, marker?, parent?_withComment]
  cases t.parent? x with
  | none => rfl
  | some list =>
    by_cases hlist : list = c
    · -- a node with a comment in its place was no list before
      subst hlist
      simp only [element?_withComment_self]
      cases he : t.element? list with
      | none => rfl
      | some e =>
        have hul : e.tag ≠ "ul" := by simpa [isTag, tag?, he] using hc "ul" (by decide)
        have hol : e.tag ≠ "ol" := by simpa [isTag, tag?, he] using hc "ol" (by decide)
        simp only [if_neg hul, if_neg hol]
    · have hitems : ((t.withComment c content).elementChildren list).filter
            ((t.withComment c content).isTag · "li") =
          (t.elementChildren list).filter (t.isTag · "li") := by
        rw [elementChildren, elementChildren, filter_isTag_filter_element?,
          filter_isTag_filter_element?, children_withComment]
        apply List.filter_congr
        intro y _
        by_cases hy : y = c
        · rw [hy, hc "li" (by decide), isTag, tag?, element?_withComment_self]
          rfl
        · rw [isTag, isTag, tag?, tag?, element?_withComment_of_ne content hy]
      simp only [element?_withComment_of_ne content hlist, hitems]

/-- Nothing changes at the nodes that are not above the comment. -/
theorem agreesOn_withComment (ht : t.Linked)
    (hc : ∀ tag ∈ ["ul", "ol", "li"], t.isTag c tag = false) :
    t.AgreesOn (t.withComment c content) fun x => x ≠ c ∧ ¬ t.Above x c where
  get?_eq hx := get?_withComment_of_ne t c content hx.1
  child := by
    rintro x y ⟨-, hx⟩ hy
    have habove : t.Above x y := .parent ((ht.mem_children_iff x y).1 hy)
    constructor
    · rintro rfl
      exact hx habove
    · exact fun hyc => hx (habove.trans hyc)
  marker?_eq _ := marker?_withComment content hc _
  size_eq := size_withComment t c content

end Tree

/-! ## Cursors at one place -/

namespace FlowCursor

/-- Two cursors differ in the greatest width reached at most, which no child is laid out by. -/
structure AtSamePlace (u v : FlowCursor) : Prop where
  x_eq : u.x = v.x
  y_eq : u.y = v.y
  lineHeight_eq : u.lineHeight = v.lineHeight

variable {u v : FlowCursor}

namespace AtSamePlace

theorem closeLine (h : u.AtSamePlace v) (left : Float32) :
    (u.closeLine left).AtSamePlace (v.closeLine left) := by
  rw [FlowCursor.closeLine, FlowCursor.closeLine, h.lineHeight_eq]
  split
  · exact ⟨rfl, by simp only [h.y_eq], rfl⟩
  · exact h

theorem advance (h : u.AtSamePlace v) (left : Float32) (inline : Bool) (used : Consumed) :
    (u.advance left inline used).AtSamePlace (v.advance left inline used) := by
  cases inline with
  | true => exact ⟨by simp [FlowCursor.advance, h.x_eq], h.y_eq,
      by simp [FlowCursor.advance, h.lineHeight_eq]⟩
  | false => exact ⟨h.x_eq, by simp [FlowCursor.advance, h.y_eq], h.lineHeight_eq⟩

end AtSamePlace

theorem closeLine_eq_self (h : ¬ 0 < u.lineHeight) (left : Float32) : u.closeLine left = u :=
  if_neg h

end FlowCursor

namespace Page

open FlowCursor (AtSamePlace)

variable {page : Page} {place : Placement} {zone : Zone} {parentInline : Bool}
  {u v cursor : FlowCursor} {c d : NodeId} {cs ds : List NodeId} {e : Element}

theorem flowStep_of_atSamePlace (h : u.AtSamePlace v) (c : NodeId) :
    page.flowStep zone parentInline u c = page.flowStep zone parentInline v c := by
  have hclosed := h.closeLine zone.x
  simp only [flowStep]
  split
  · rw [h.x_eq, h.y_eq]
  · rw [hclosed.x_eq, hclosed.y_eq]

theorem value_flow_singleton (cursor : FlowCursor) (c : NodeId) :
    (page.flow place zone parentInline cursor [c]).value =
      (if page.flowsInline c parentInline then cursor else cursor.closeLine zone.x).advance zone.x
        (page.flowsInline c parentInline)
        ((page.flowStep zone parentInline cursor c).draw place).value := rfl

theorem flow_singleton_of_atSamePlace (h : u.AtSamePlace v) (c : NodeId) :
    AtSamePlace (page.flow place zone parentInline u [c]).value
      (page.flow place zone parentInline v [c]).value := by
  rw [value_flow_singleton, value_flow_singleton, flowStep_of_atSamePlace h c]
  split
  · exact h.advance _ _ _
  · exact (h.closeLine zone.x).advance _ _ _

/-- Children are laid out in the same places from two cursors at one place. -/
theorem flowSteps_of_atSamePlace (h : u.AtSamePlace v) (cs : List NodeId) :
    page.flowSteps place zone parentInline u cs = page.flowSteps place zone parentInline v cs := by
  induction cs generalizing u v with
  | nil => rfl
  | cons c cs ih =>
    rw [flowSteps, flowSteps, flowStep_of_atSamePlace h c,
      ih (flow_singleton_of_atSamePlace h c)]

/-- In front of a child on a line of its own it makes no difference to close the line. -/
theorem flowSteps_closeLine (hblock : page.flowsInline c parentInline = false)
    (cursor : FlowCursor) (cs : List NodeId) :
    page.flowSteps place zone parentInline (cursor.closeLine zone.x) (c :: cs) =
      page.flowSteps place zone parentInline cursor (c :: cs) := by
  -- a line that has just been closed has no height, so that it is not closed again
  have hclosed : (cursor.closeLine zone.x).closeLine zone.x = cursor.closeLine zone.x :=
    FlowCursor.closeLine_eq_self (not_lineHeight_closeLine_pos cursor zone.x) zone.x
  have hstep : page.flowStep zone parentInline (cursor.closeLine zone.x) c =
      page.flowStep zone parentInline cursor c := by
    simp only [flowStep, hblock, hclosed, Bool.false_eq_true, if_false]
  rw [flowSteps, flowSteps, value_flow_singleton, value_flow_singleton, hstep]
  simp only [hblock, hclosed, Bool.false_eq_true, if_false]

/-- Where no line is open, a child is laid out at the cursor. -/
theorem zone_flowStep_of_closed (h : ¬ 0 < cursor.lineHeight) (c : NodeId) :
    (page.flowStep zone parentInline cursor c).zone =
      { zone with x := cursor.x, y := cursor.y } := by
  simp only [flowStep, FlowCursor.closeLine_eq_self h, ite_self]

/-- Moving down a cursor without an open line is noticed by the children behind it, if there are
some. -/
theorem flowSteps_moved_iff (h : ¬ 0 < cursor.lineHeight) {next : FlowCursor} {y : Float32}
    (hnext : next.AtSamePlace { cursor with y }) (c : NodeId) (cs : List NodeId) :
    page.flowSteps place zone parentInline next (c :: cs) =
        page.flowSteps place zone parentInline cursor (c :: cs) ↔ y = cursor.y := by
  rw [flowSteps_of_atSamePlace hnext]
  constructor
  · intro heq
    have hmoved : ¬ 0 < ({ cursor with y } : FlowCursor).lineHeight := h
    have hhead := congrArg FlowStep.zone (List.cons.inj heq).1
    rw [zone_flowStep_of_closed h, zone_flowStep_of_closed hmoved] at hhead
    exact congrArg Zone.y hhead
  · rintro rfl
    rfl

/-! ## Failed images -/

/-- An image that has no source, or whose source is refused. -/
structure IsFailedImage (page : Page) (c : NodeId) (e : Element) : Prop where
  element : page.tree.element? c = some e
  tag : e.tag = "img"
  failed : ∀ source ∈ source? e, ∃ err, (page.images source).result = .error err

theorem IsFailedImage.of_no_source (he : page.tree.element? c = some e) (htag : e.tag = "img")
    (hsource : source? e = none) : page.IsFailedImage c e := by
  refine ⟨he, htag, ?_⟩
  intro source hmem
  exact absurd (hsource.symm.trans hmem) (Option.some_ne_none source).symm

/-- The height that a failed image takes up: that of its margins, unless it is hidden or too
deep. -/
def failedHeight (page : Page) (levels : ℕ) (c : NodeId) : Float32 :=
  if levels = 0 ∨ page.isHidden c then 0
  else (page.style c).lengthOrZero "margin-top" + 0 + (page.style c).lengthOrZero "margin-bottom"

namespace IsFailedImage

variable (h : page.IsFailedImage c e)

include h

theorem isTag_eq {tag : String} (htag : tag ≠ "img") : page.tree.isTag c tag = false := by
  simp [Tree.isTag, Tree.tag?, h.element, h.tag, htag.symm]

/-- An image never stays within a line. -/
theorem flowsInline_eq (parentInline : Bool) : page.flowsInline c parentInline = false := by
  simp [flowsInline, Tree.kind_of_element? h.element, h.tag, inlineTags]

theorem picture_eq (zone : Zone) :
    (page.picture e zone).value = {} ∧ (page.picture e zone).commands = [] := by
  rw [picture]
  cases hsource : source? e with
  | none => exact ⟨rfl, rfl⟩
  | some source =>
    obtain ⟨err, herr⟩ := h.failed source hsource
    simp [herr, Draw.warn]

theorem place_succ (levels : ℕ) :
    page.place (levels + 1) c = page.element (page.place levels) c e := by
  funext zone inline
  rw [place, Tree.kind_of_element? h.element]

/-- Of a failed image only its margins are left. -/
theorem shownElement_eq (place : Placement) (zone : Zone) :
    (∀ inline, (page.shownElement place c e zone inline).commands = []) ∧
      (page.shownElement place c e zone false).value =
        { width := 0
          height := (page.style c).lengthOrZero "margin-top" + 0 +
            (page.style c).lengthOrZero "margin-bottom" } := by
  have hcontent : ∀ s zone, page.content c e s zone = page.picture e zone := by
    intro s zone
    rw [content, h.tag]
    rfl
  have hsum : (0 : Float32) + 0 = 0 := by decide +kernel
  simp only [shownElement, hcontent, Draw.commands_bind, Draw.value_bind, h.picture_eq, hsum,
    Draw.commands_pure, Draw.value_pure, List.append_nil, Bool.false_eq_true, if_false,
    implies_true, and_self]

theorem commands_place (levels : ℕ) (zone : Zone) (inline : Bool) :
    (page.place levels c zone inline).commands = [] := by
  cases levels with
  | zero => rfl
  | succ levels =>
    rw [h.place_succ, Page.element]
    split
    · rfl
    · exact (h.shownElement_eq _ zone).1 inline

theorem value_place (levels : ℕ) (zone : Zone) :
    (page.place levels c zone false).value =
      { width := 0, height := page.failedHeight levels c } := by
  cases levels with
  | zero => rfl
  | succ levels =>
    rw [h.place_succ, Page.element, failedHeight]
    cases hhidden : page.isHidden c with
    | true => rfl
    | false =>
      simp only [Bool.false_eq_true, or_false, if_false, Nat.succ_ne_zero]
      exact (h.shownElement_eq _ zone).2

/-- Behind a failed image the line is closed, and the cursor is as far below it as the margins
go. -/
theorem flow_singleton (levels : ℕ) (zone : Zone) (parentInline : Bool) (cursor : FlowCursor) :
    AtSamePlace (page.flow (page.place levels) zone parentInline cursor [c]).value
      { cursor.closeLine zone.x with
        y := (cursor.closeLine zone.x).y + page.failedHeight levels c } := by
  have hvalue : ∀ z, (page.place levels c z false).value =
      { width := 0, height := page.failedHeight levels c } := h.value_place levels
  rw [value_flow_singleton, FlowStep.draw]
  simp only [flowStep, h.flowsInline_eq, Bool.false_eq_true, if_false, hvalue]
  exact ⟨rfl, rfl, rfl⟩

theorem atSamePlace_flow_iff (levels : ℕ) (zone : Zone) (parentInline : Bool)
    (cursor : FlowCursor) :
    AtSamePlace (page.flow (page.place levels) zone parentInline cursor [c]).value cursor ↔
      ¬ 0 < cursor.lineHeight ∧ cursor.y + page.failedHeight levels c = cursor.y := by
  obtain ⟨hx, hy, hheight⟩ := h.flow_singleton levels zone parentInline cursor
  constructor
  · intro hsame
    -- an open line has a height, and a line that has just been closed has none
    have hflat : ¬ 0 < cursor.lineHeight := by
      rw [← hsame.lineHeight_eq, hheight]
      exact not_lineHeight_closeLine_pos cursor zone.x
    rw [FlowCursor.closeLine_eq_self hflat] at hy
    exact ⟨hflat, hy.symm.trans hsame.y_eq⟩
  · rintro ⟨hflat, hmargins⟩
    rw [FlowCursor.closeLine_eq_self hflat] at hx hy hheight
    exact ⟨hx, hy.trans hmargins, hheight⟩

end IsFailedImage

/-! ## The flow with a comment in place of the image -/

theorem flowingChildren_sublist (id : NodeId) (skipFirstText : Bool) :
    (page.flowingChildren id skipFirstText).Sublist (page.tree.children id) := by
  refine List.filter_sublist.trans ?_
  cases page.tree.children id with
  | nil => exact List.Sublist.refl _
  | cons first rest =>
    dsimp only
    split
    · exact List.sublist_cons_self first rest
    · exact List.Sublist.refl _

theorem flowSteps_withTree {t' : Tree} {S : NodeId → Prop} {place' : Placement}
    (h : page.tree.SameShapeOn t' S) (hcs : ∀ c ∈ cs, S c) (hplace : ∀ c ∈ cs, place' c = place c)
    (cursor : FlowCursor) :
    (page.withTree t').flowSteps place' zone parentInline cursor cs =
      page.flowSteps place zone parentInline cursor cs := by
  induction cs generalizing cursor with
  | nil => rfl
  | cons c cs ih =>
    obtain ⟨hc, hrest⟩ := List.forall_mem_cons.1 hcs
    obtain ⟨hfirst, hplace⟩ := List.forall_mem_cons.1 hplace
    have hstep : (page.withTree t').flowStep zone parentInline cursor c =
        page.flowStep zone parentInline cursor c := by
      simp only [flowStep, flowsInline_withTree h hc]
    have hflow : (page.withTree t').flow place' zone parentInline cursor [c] =
        page.flow place zone parentInline cursor [c] :=
      flow_withTree h (by simpa using hc) (by simpa using hfirst) zone parentInline cursor
    rw [flowSteps, flowSteps, hstep, hflow, ih hrest hplace]

/-- A comment is left out of the flow, and nothing else is. -/
theorem flowingChildren_withComment (hc : page.tree.element? c = some e) (content : String)
    (id : NodeId) (skipFirstText : Bool) :
    (page.withTree (page.tree.withComment c content)).flowingChildren id skipFirstText =
      (page.flowingChildren id skipFirstText).filter (· != c) := by
  have hsize := Tree.lt_size_of_element? (Option.isSome_of_eq_some hc)
  simp only [flowingChildren, tree_withTree, Tree.children_withComment,
    Tree.text?_withComment content hc, Tree.isComment_withComment content hsize, List.filter_filter,
    Bool.not_or]
  rfl

namespace IsFailedImage

variable {id : NodeId} {front back : List NodeId} {skipFirstText : Bool}

/-- With a comment in place of the image the other children are laid out as before, one after the
other. -/
theorem childSteps_withComment (h : page.IsFailedImage c e) (ht : page.tree.Built)
    (hloop : ¬ page.tree.Above id id)
    (hflow : page.flowingChildren id skipFirstText = front ++ c :: back) (content : String)
    (levels : ℕ) (zone : Zone) :
    let page' := page.withTree (page.tree.withComment c content)
    page'.childSteps (page'.place levels) id zone skipFirstText =
      page.flowSteps (page.place levels) zone (page.flowsInline id false)
        { x := zone.x, y := zone.y } (front ++ back) := by
  intro page'
  have hlinks := ht.linksAgree
  have hchild : ∀ d ∈ front ++ c :: back, page.tree.parent? d = some id := by
    intro d hd
    rw [← hflow] at hd
    exact (hlinks.linked.mem_children_iff id d).1 (mem_children_of_mem_flowingChildren hd)
  have hparent := hchild c (by simp)
  have hnodup : (front ++ c :: back).Nodup :=
    hflow ▸ (hlinks.nodup id).sublist (flowingChildren_sublist id skipFirstText)
  rw [List.nodup_middle, List.nodup_cons] at hnodup
  have hne : ∀ d ∈ front ++ back, d ≠ c := fun d hd heq => hnodup.1 (heq ▸ hd)
  have hid : id ≠ c := by
    rintro rfl
    exact hloop (.parent hparent)
  have hnoList : ∀ tag ∈ ["ul", "ol", "li"], page.tree.isTag c tag = false := by
    simp [h.isTag_eq]
  have hagree := Tree.agreesOn_withComment content hlinks.linked hnoList
  -- a sibling above the image would be above its own parent
  have hmem : ∀ d ∈ front ++ back, d ≠ c ∧ ¬ page.tree.Above d c := by
    intro d hd
    refine ⟨hne d hd, fun habove => ?_⟩
    have hd' : page.tree.parent? d = some id := hchild d (by
      rw [List.mem_append, List.mem_cons]
      exact (List.mem_append.1 hd).imp_right Or.inr)
    rcases habove.eq_or_above hparent with rfl | hup
    · exact hloop (.parent hd')
    · exact hloop ((Tree.Above.parent hd').trans hup)
  have hleft : page'.flowingChildren id skipFirstText = front ++ back := by
    rw [flowingChildren_withComment h.element, hflow, List.filter_append,
      List.filter_cons_of_neg (by simp), ← List.filter_append]
    exact List.filter_eq_self.2 fun d hd => bne_iff_ne.2 (hne d hd)
  have hinline : page'.flowsInline id false = page.flowsInline id false := by
    rw [flowsInline, flowsInline, tree_withTree, style_withTree,
      Tree.get?_withComment_of_ne _ _ _ hid]
  have hplace : ∀ d ∈ front ++ back, page'.place levels d = page.place levels d :=
    fun d hd => place_of_agreesOn hagree levels (hmem d hd)
  rw [childSteps, hleft, hinline]
  exact flowSteps_withTree hagree.sameShapeOn hmem hplace _

/-- The line in front of the image is closed anyway if no line is open or the next child stands on a
line of its own. Then the children behind it are laid out as without the image exactly if its
margins do not move them. -/
theorem flowSteps_behind_iff (h : page.IsFailedImage c e) (levels : ℕ) {cursor : FlowCursor}
    (hclosed : ¬ 0 < cursor.lineHeight ∨ page.flowsInline d parentInline = false)
    (rest : List NodeId) :
    page.flowSteps (page.place levels) zone parentInline
        (page.flow (page.place levels) zone parentInline cursor [c]).value (d :: rest) =
      page.flowSteps (page.place levels) zone parentInline cursor (d :: rest) ↔
    (cursor.closeLine zone.x).y + page.failedHeight levels c = (cursor.closeLine zone.x).y := by
  have hsame : page.flowSteps (page.place levels) zone parentInline (cursor.closeLine zone.x)
      (d :: rest) = page.flowSteps (page.place levels) zone parentInline cursor (d :: rest) := by
    rcases hclosed with hflat | hblock
    · rw [FlowCursor.closeLine_eq_self hflat]
    · exact flowSteps_closeLine hblock cursor rest
  -- the cursor behind the image is that of the closed line, moved down by the margins
  rw [← hsame]
  exact flowSteps_moved_iff (not_lineHeight_closeLine_pos cursor zone.x)
    (h.flow_singleton levels zone parentInline cursor) d rest

/-- Where a line is open, a child that would have gone on with it starts on a line of its own, below
the margins. -/
theorem zone_behind_open_line (h : page.IsFailedImage c e) (levels : ℕ) {cursor : FlowCursor}
    (hopen : 0 < cursor.lineHeight) (hinline : page.flowsInline d parentInline = true) :
    (page.flowStep zone parentInline
        (page.flow (page.place levels) zone parentInline cursor [c]).value d).zone =
      { zone with y := cursor.y + cursor.lineHeight + page.failedHeight levels c } ∧
    (page.flowStep zone parentInline cursor d).zone =
      { zone with x := cursor.x, y := cursor.y } := by
  have hclosed : cursor.closeLine zone.x =
      { cursor with x := zone.x, y := cursor.y + cursor.lineHeight, lineHeight := 0 } :=
    if_pos hopen
  have hflat : ¬ 0 < ({ cursor.closeLine zone.x with
      y := (cursor.closeLine zone.x).y + page.failedHeight levels c } : FlowCursor).lineHeight :=
    not_lineHeight_closeLine_pos cursor zone.x
  constructor
  · rw [flowStep_of_atSamePlace (h.flow_singleton levels zone parentInline cursor),
      zone_flowStep_of_closed hflat, hclosed]
  · simp only [flowStep, hinline, if_true]

end IsFailedImage

/-- An image that has no source, or whose source is refused, draws nothing, but closes the line and
takes up its margins: the cursor stays in its place exactly if no line is open and the margins do
not move it. With a comment in place of the image, the children behind it start from where the
cursor was in front of it. If no line is open there, or the next child stands on a line of its own,
they are laid out in the same places exactly if the margins do not move the cursor, and otherwise
the next child starts below the line instead of going on with it. -/
theorem failed_image_takes_margins {page : Page} {c : NodeId} {e : Element}
    (h : page.IsFailedImage c e) (levels : ℕ) (zone : Zone) :
    let place := page.place levels
    let space := page.failedHeight levels c
    (∀ z inline, (place c z inline).commands = []) ∧
    (∀ parentInline cursor,
      let closed := cursor.closeLine zone.x
      let next := (page.flow place zone parentInline cursor [c]).value
      next.AtSamePlace { closed with y := closed.y + space } ∧
        (next.AtSamePlace cursor ↔ ¬ 0 < cursor.lineHeight ∧ cursor.y + space = cursor.y)) ∧
    ∀ id skipFirstText front back content, page.tree.Built → ¬ page.tree.Above id id →
      page.flowingChildren id skipFirstText = front ++ c :: back →
      let parentInline := page.flowsInline id false
      let steps := page.flowSteps place zone parentInline
      let cursor := (page.flow place zone parentInline { x := zone.x, y := zone.y } front).value
      let closed := cursor.closeLine zone.x
      let next := (page.flow place zone parentInline cursor [c]).value
      let page' := page.withTree (page.tree.withComment c content)
      (∃ first image, image.child = c ∧
        page.childSteps place id zone skipFirstText = first ++ image :: steps next back ∧
        page'.childSteps (page'.place levels) id zone skipFirstText =
          first ++ steps cursor back) ∧
      ∀ d rest, back = d :: rest →
        (¬ 0 < cursor.lineHeight ∨ page.flowsInline d parentInline = false →
          (steps next back = steps cursor back ↔ closed.y + space = closed.y)) ∧
        (0 < cursor.lineHeight → page.flowsInline d parentInline = true →
          (page.flowStep zone parentInline next d).zone =
              { zone with y := cursor.y + cursor.lineHeight + space } ∧
            (page.flowStep zone parentInline cursor d).zone =
              { zone with x := cursor.x, y := cursor.y }) := by
  intro place space
  refine ⟨h.commands_place levels, ?_, ?_⟩
  · intro parentInline cursor
    exact ⟨h.flow_singleton levels zone parentInline cursor,
      h.atSamePlace_flow_iff levels zone parentInline cursor⟩
  · intro id skipFirstText front back content htree hloop hflow parentInline steps cursor closed
      next page'
    let first := steps { x := zone.x, y := zone.y } front
    refine ⟨⟨first, page.flowStep zone parentInline cursor c, rfl, ?_, ?_⟩, ?_⟩
    · rw [childSteps, hflow]
      exact flowSteps_append _ front (c :: back)
    · exact (h.childSteps_withComment htree hloop hflow content levels zone).trans
        (flowSteps_append _ front back)
    · rintro d rest rfl
      exact ⟨fun hclosed => h.flowSteps_behind_iff levels hclosed rest,
        fun hopen hinline => h.zone_behind_open_line levels hopen hinline⟩

/-- An image without margins in front of a block is not noticed. -/
theorem failed_image_takes_margins_of_none :
    let page : Page := { tree := Tree.after [.appendElement Tree.root "body" [],
      .appendElement 1 "img" [], .appendElement 1 "div" [], .appendText 3 "x"] }
    let zone : Zone := .ofSize 0 0 500 300
    let place := page.place 255
    let page' := page.withTree (page.tree.withComment 2 "")
    page.IsFailedImage 2 ⟨"img", []⟩ ∧ page.tree.Built ∧ ¬ page.tree.Above 1 1 ∧
      page.flowingChildren 1 false = [] ++ 2 :: [3] ∧
      ∃ first image behind, page.childSteps place 1 zone false = first ++ image :: behind ∧
        page'.childSteps (page'.place 255) 1 zone false = first ++ behind := by
  intro page zone place page'
  have h : page.IsFailedImage 2 ⟨"img", []⟩ := .of_no_source (by decide) rfl (by decide)
  have htree : page.tree.Built := Tree.built_after _
  have hloop : ¬ page.tree.Above 1 1 := by
    intro habove
    rcases habove.eq_or_above (p := Tree.root) (by decide) with heq | habove
    · exact absurd heq (by decide)
    · obtain ⟨p, hp⟩ := habove.exists_parent
      exact absurd hp.symm (Option.some_ne_none p)
  have hflow : page.flowingChildren 1 false = [] ++ 2 :: [3] := by decide
  obtain ⟨-, -, hflows⟩ := failed_image_takes_margins h 255 zone
  obtain ⟨⟨first, image, -, hsteps, hsteps'⟩, hbehind⟩ :=
    hflows 1 false [] [3] "" htree hloop hflow
  have hsame := ((hbehind 3 [] rfl).1 (Or.inl not_lt_zero32)).2 (by decide +kernel)
  rw [hsame] at hsteps
  exact ⟨h, htree, hloop, hflow, first, image, _, hsteps, hsteps'⟩

/-- The margins of a failed image move the text of the block behind it, and two bold texts on its
sides stand on two lines; with a comment in place of the image they do not. -/
theorem failed_image_moves_text :
    let tree (front : List Spec) (tag : String) : Tree := Spec.toTree <| .element "body" [] <|
      front ++ [.element "img" [] [], .element tag [] [.text "x"]]
    let margin := Style.ofPairs [("margin-top", "30px")]
    let spaced : Page := { tree := tree [] "div", styles := .ofList 5 [(2, margin)] }
    let bold : Page := { tree := tree [.element "b" [] [.text "x"]] "b" }
    let drawn (page : Page) := (page.document {}).commands.map Command.bounds
    spaced.IsFailedImage 2 ⟨"img", []⟩ ∧ bold.IsFailedImage 4 ⟨"img", []⟩ ∧
      drawn spaced = [⟨0, 0, 500, 300⟩, ⟨0, 30, 10, 19⟩] ∧
      drawn (spaced.withTree (spaced.tree.withComment 2 "")) =
        [⟨0, 0, 500, 300⟩, ⟨0, 0, 10, 19⟩] ∧
      drawn bold = [⟨0, 0, 500, 300⟩, ⟨0, 0, 19, 19⟩, ⟨0, 19, 10, 19⟩] ∧
      drawn (bold.withTree (bold.tree.withComment 4 "")) =
        [⟨0, 0, 500, 300⟩, ⟨0, 0, 19, 19⟩, ⟨19, 0, 10, 19⟩] := by
  intro tree margin spaced bold drawn
  refine ⟨.of_no_source (by decide) rfl (by decide), .of_no_source (by decide) rfl (by decide), ?_⟩
  decide +kernel

end Page

end BoxFlow
