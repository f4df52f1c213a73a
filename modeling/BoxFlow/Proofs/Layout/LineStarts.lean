import BoxFlow.Dom.Spec
import BoxFlow.Layout.Document
import BoxFlow.Proofs.Number.Order
import Mathlib.Data.List.DropRight

/-!
# Where the children of a node start

A child that does not stay within a line belongs at the left edge of its container. The flow closes
the line in front of it, but takes a line to be open by its height: children that move on the line
and give it no height are not noticed, and the child starts behind them.

The steps of a flow say where each child is laid out (`Page.flowSteps`); laying out the children is
carrying out these steps in order (`Page.commands_flow`). All children that stand on a line of their
own start at the left edge exactly if each line in front of one of them has a height or ends where
it began (`Page.blocks_start_left_iff`). Two facts about the cursor carry the proof: its line has a
height if one of the children in it has one (`Page.lineHeight_flow_pos_iff`), and as long as all
went well it stands where these children have moved it from the left edge (`Page.x_flow`).
-/

set_option autoImplicit false

namespace BoxFlow

/-- A child in the flow of its siblings: where it is laid out, and whether within a line. -/
structure FlowStep where
  child : NodeId
  zone : Zone
  inline : Bool

namespace FlowStep

/-- What the child draws in its place, and the space it uses up. -/
def draw (place : Placement) (step : FlowStep) : Draw Consumed :=
  place step.child step.zone step.inline

/-- The children in the line at the end of a flow: those behind the last child that stands on a line
of its own. -/
def lastLine (steps : List FlowStep) : List FlowStep := steps.rtakeWhile fun step => step.inline

/-- Some child gives the line a height. -/
def HasHeight (place : Placement) (line : List FlowStep) : Prop :=
  ∃ step ∈ line, 0 < (step.draw place).value.height

/-- Where the children of a line move the cursor to from its left end. -/
def lineEnd (place : Placement) (left : Float32) (line : List FlowStep) : Float32 :=
  line.foldl (fun x step => x + (step.draw place).value.width) left

end FlowStep

namespace Page

/-- Where a child is laid out from a cursor. -/
def flowStep (page : Page) (zone : Zone) (parentInline : Bool) (cursor : FlowCursor)
    (child : NodeId) : FlowStep :=
  let inline := page.flowsInline child parentInline
  let cursor := if inline then cursor else cursor.closeLine zone.x
  { child, zone := { zone with x := cursor.x, y := cursor.y }, inline }

/-- The steps in which children are laid out one after the other. -/
def flowSteps (page : Page) (place : Placement) (zone : Zone) (parentInline : Bool) :
    FlowCursor → List NodeId → List FlowStep
  | _, [] => []
  | cursor, child :: children =>
    page.flowStep zone parentInline cursor child ::
      page.flowSteps place zone parentInline
        (page.flow place zone parentInline cursor [child]).value children

/-- The steps in which the children of a node are laid out. -/
def childSteps (page : Page) (place : Placement) (id : NodeId) (zone : Zone)
    (skipFirstText : Bool) : List FlowStep :=
  page.flowSteps place zone (page.flowsInline id false) { x := zone.x, y := zone.y }
    (page.flowingChildren id skipFirstText)

open FlowStep

variable {page : Page} {place : Placement} {zone : Zone} {parentInline : Bool}
  {cursor : FlowCursor} {cs : List NodeId} {c : NodeId}

/-! ## Steps and cursors -/

/-- Carrying out the steps in order is laying out the children. -/
theorem commands_flow (cursor : FlowCursor) (cs : List NodeId) :
    (page.flow place zone parentInline cursor cs).commands =
      (page.flowSteps place zone parentInline cursor cs).flatMap fun step =>
        (step.draw place).commands := by
  induction cs generalizing cursor with
  | nil => rfl
  | cons c cs ih =>
    rw [flowSteps, List.flatMap_cons, ← ih]
    rfl

theorem map_child_flowSteps (cursor : FlowCursor) (cs : List NodeId) :
    (page.flowSteps place zone parentInline cursor cs).map FlowStep.child = cs := by
  induction cs generalizing cursor with
  | nil => rfl
  | cons c cs ih => exact congrArg (c :: ·) (ih _)

theorem inline_of_mem_flowSteps {step : FlowStep}
    (h : step ∈ page.flowSteps place zone parentInline cursor cs) :
    step.inline = page.flowsInline step.child parentInline := by
  induction cs generalizing cursor with
  | nil => exact absurd h List.not_mem_nil
  | cons c cs ih =>
    rcases List.mem_cons.1 h with rfl | h
    · rfl
    · exact ih h

theorem flowSteps_append (cursor : FlowCursor) (cs ds : List NodeId) :
    page.flowSteps place zone parentInline cursor (cs ++ ds) =
      page.flowSteps place zone parentInline cursor cs ++
        page.flowSteps place zone parentInline
          (page.flow place zone parentInline cursor cs).value ds := by
  induction cs generalizing cursor with
  | nil => rfl
  | cons c cs ih => exact congrArg (_ :: ·) (ih _)

theorem value_flow_append (cursor : FlowCursor) (cs ds : List NodeId) :
    (page.flow place zone parentInline cursor (cs ++ ds)).value =
      (page.flow place zone parentInline
        (page.flow place zone parentInline cursor cs).value ds).value := by
  induction cs generalizing cursor with
  | nil => rfl
  | cons c cs ih => exact ih _

/-- A step of a flow is made from where the cursor is behind the children in front. -/
theorem exists_of_flowSteps_eq {before after : List FlowStep} {step : FlowStep}
    (h : page.flowSteps place zone parentInline cursor cs = before ++ step :: after) :
    ∃ ds es, cs = ds ++ step.child :: es ∧
      before = page.flowSteps place zone parentInline cursor ds ∧
      step = page.flowStep zone parentInline
        (page.flow place zone parentInline cursor ds).value step.child := by
  have hcs : cs = before.map FlowStep.child ++ step.child :: after.map FlowStep.child := by
    have hmap := congrArg (List.map FlowStep.child) h
    rwa [map_child_flowSteps, List.map_append, List.map_cons] at hmap
  refine ⟨_, _, hcs, ?_⟩
  rw [hcs, flowSteps_append] at h
  obtain ⟨hbefore, hstep⟩ := List.append_inj h (by
    rw [← List.length_map FlowStep.child, map_child_flowSteps, List.length_map])
  exact ⟨hbefore.symm, (List.cons.inj hstep).1.symm⟩

/-! ## The cursor -/

theorem not_lt_zero32 : ¬ (0 : Float32) < 0 := by decide +kernel

/-- A line that is closed has no height, and one that has none need not be closed. -/
theorem not_lineHeight_closeLine_pos (cursor : FlowCursor) (left : Float32) :
    ¬ 0 < (cursor.closeLine left).lineHeight := by
  rw [FlowCursor.closeLine]
  split
  · exact not_lt_zero32
  · next hflat => exact hflat

/-- A child within a line raises it and moves the cursor on. -/
theorem flow_singleton_of_inline (place : Placement)
    (hinline : (page.flowStep zone parentInline cursor c).inline = true) :
    let used := ((page.flowStep zone parentInline cursor c).draw place).value
    let next := (page.flow place zone parentInline cursor [c]).value
    next.lineHeight = max32 cursor.lineHeight used.height ∧ next.x = cursor.x + used.width := by
  have hflows : page.flowsInline c parentInline = true := hinline
  simp [flow, flowStep, FlowStep.draw, FlowCursor.advance, hflows]

/-- A child on a line of its own closes the line and leaves the cursor where the child starts. -/
theorem flow_singleton_of_block (place : Placement)
    (hblock : (page.flowStep zone parentInline cursor c).inline = false) :
    let next := (page.flow place zone parentInline cursor [c]).value
    next.lineHeight = (cursor.closeLine zone.x).lineHeight ∧
      next.x = (page.flowStep zone parentInline cursor c).zone.x := by
  have hflows : page.flowsInline c parentInline = false := hblock
  simp [flow, flowStep, FlowCursor.advance, hflows]

/-- Where a child on a line of its own starts. -/
theorem x_flowStep_of_block (hblock : (page.flowStep zone parentInline cursor c).inline = false) :
    (page.flowStep zone parentInline cursor c).zone.x =
      if 0 < cursor.lineHeight then zone.x else cursor.x := by
  have hflows : page.flowsInline c parentInline = false := hblock
  have hx : (page.flowStep zone parentInline cursor c).zone.x = (cursor.closeLine zone.x).x := by
    simp [flowStep, hflows]
  rw [hx, FlowCursor.closeLine]
  split <;> rfl

theorem lastLine_concat_of_inline {steps : List FlowStep} {step : FlowStep}
    (h : step.inline = true) : lastLine (steps ++ [step]) = lastLine steps ++ [step] :=
  List.rtakeWhile_concat_pos _ _ _ h

theorem lastLine_concat_of_block {steps : List FlowStep} {step : FlowStep}
    (h : step.inline = false) : lastLine (steps ++ [step]) = [] :=
  List.rtakeWhile_concat_neg _ _ _ (by simp [h])

theorem flowSteps_concat (cursor : FlowCursor) (cs : List NodeId) (c : NodeId) :
    page.flowSteps place zone parentInline cursor (cs ++ [c]) =
      page.flowSteps place zone parentInline cursor cs ++
        [page.flowStep zone parentInline
          (page.flow place zone parentInline cursor cs).value c] :=
  flowSteps_append cursor cs [c]

/-- A cursor at the left edge, with no line open. -/
def leftCursor (zone : Zone) (y : Float32) : FlowCursor := { x := zone.x, y }

section FromTheLeft

variable (y : Float32)

/-- The line has a height if one of the children in it has one. -/
theorem lineHeight_flow_pos_iff (cs : List NodeId) :
    0 < (page.flow place zone parentInline (leftCursor zone y) cs).value.lineHeight ↔
      HasHeight place
        (lastLine (page.flowSteps place zone parentInline (leftCursor zone y) cs)) := by
  induction cs using List.reverseRecOn with
  | nil =>
    apply iff_of_false not_lt_zero32
    rintro ⟨step, hstep, -⟩
    exact absurd hstep List.not_mem_nil
  | append_singleton cs c ih =>
    rw [value_flow_append, flowSteps_concat]
    generalize (page.flow place zone parentInline (leftCursor zone y) cs).value = cursor at ih ⊢
    cases hinline : (page.flowStep zone parentInline cursor c).inline with
    | true =>
      rw [(flow_singleton_of_inline place hinline).1, lt_max32_iff, ih,
        lastLine_concat_of_inline hinline]
      simp [HasHeight, or_and_right, exists_or]
    | false =>
      rw [(flow_singleton_of_block place hinline).1, lastLine_concat_of_block hinline]
      apply iff_of_false (not_lineHeight_closeLine_pos cursor zone.x)
      rintro ⟨step, hstep, -⟩
      exact absurd hstep List.not_mem_nil

/-- If every child so far that stands on a line of its own has started at the left edge, the cursor
is where the children of the last line have moved it from there. -/
theorem x_flow (cs : List NodeId)
    (h : ∀ step ∈ page.flowSteps place zone parentInline (leftCursor zone y) cs,
      step.inline = false → step.zone.x = zone.x) :
    (page.flow place zone parentInline (leftCursor zone y) cs).value.x =
      lineEnd place zone.x
        (lastLine (page.flowSteps place zone parentInline (leftCursor zone y) cs)) := by
  induction cs using List.reverseRecOn with
  | nil => rfl
  | append_singleton cs c ih =>
    rw [flowSteps_concat] at h ⊢
    rw [value_flow_append]
    have hcs := ih fun step hstep => h step (List.mem_append_left _ hstep)
    have hlast := h _ (List.mem_append_right _ (List.mem_singleton_self _))
    generalize (page.flow place zone parentInline (leftCursor zone y) cs).value = cursor
      at hcs hlast ⊢
    cases hinline : (page.flowStep zone parentInline cursor c).inline with
    | true =>
      rw [(flow_singleton_of_inline place hinline).2, lastLine_concat_of_inline hinline, lineEnd,
        List.foldl_append, hcs]
      rfl
    | false =>
      rw [(flow_singleton_of_block place hinline).2, lastLine_concat_of_block hinline,
        hlast hinline]
      rfl

/-- Behind the children `cs` one that stands on a line of its own starts at the left edge if the
line in front of it has a height, and also if it ends at the left edge. -/
theorem x_flowStep_eq_left (hblock : ∀ step ∈
      page.flowSteps place zone parentInline (leftCursor zone y) cs,
      step.inline = false → step.zone.x = zone.x)
    (hc : page.flowsInline c parentInline = false) :
    (page.flowStep zone parentInline
        (page.flow place zone parentInline (leftCursor zone y) cs).value c).zone.x = zone.x ↔
      HasHeight place
          (lastLine (page.flowSteps place zone parentInline (leftCursor zone y) cs)) ∨
        lineEnd place zone.x
          (lastLine (page.flowSteps place zone parentInline (leftCursor zone y) cs)) = zone.x := by
  rw [x_flowStep_of_block hc, ← lineHeight_flow_pos_iff, ← x_flow y cs hblock]
  split
  · next hheight => exact iff_of_true rfl (Or.inl hheight)
  · next hflat => exact (or_iff_right hflat).symm

end FromTheLeft

/-! ## The left edge -/

/-- In front of every child that stands on a line of its own, the line has a height or ends where it
began. -/
def ClosesLines (place : Placement) (left : Float32) (steps : List FlowStep) : Prop :=
  ∀ before step after, steps = before ++ step :: after → step.inline = false →
    HasHeight place (lastLine before) ∨ lineEnd place left (lastLine before) = left

theorem flow_starts_left_iff (y : Float32) (cs : List NodeId) :
    (∀ step ∈ page.flowSteps place zone parentInline (leftCursor zone y) cs,
        step.inline = false → step.zone.x = zone.x) ↔
      ClosesLines place zone.x
        (page.flowSteps place zone parentInline (leftCursor zone y) cs) := by
  constructor
  · intro hleft before step after hsplit hblock
    obtain ⟨ds, es, rfl, rfl, hstep⟩ := exists_of_flowSteps_eq hsplit
    have hfront : ∀ s ∈ page.flowSteps place zone parentInline (leftCursor zone y) ds,
        s.inline = false → s.zone.x = zone.x := by
      intro s hs
      apply hleft s
      rw [hsplit]
      exact List.mem_append_left _ hs
    have hmem : step ∈ page.flowSteps place zone parentInline (leftCursor zone y)
        (ds ++ step.child :: es) := by
      rw [hsplit]
      exact List.mem_append_right _ List.mem_cons_self
    have hx := hleft step hmem hblock
    rw [hstep] at hx hblock
    exact (x_flowStep_eq_left y hfront hblock).1 hx
  · intro hcloses
    -- from the front on, one child after the other
    induction cs using List.reverseRecOn with
    | nil => exact fun step hstep => absurd hstep List.not_mem_nil
    | append_singleton cs c ih =>
      rw [flowSteps_concat] at hcloses ⊢
      have hfront := ih fun before step after hsplit => by
        apply hcloses before step (after ++ [_])
        rw [hsplit, List.append_assoc]
        rfl
      intro step hstep hblock
      rcases List.mem_append.1 hstep with hstep | hstep
      · exact hfront step hstep hblock
      · obtain rfl := List.mem_singleton.1 hstep
        exact (x_flowStep_eq_left y hfront hblock).2 (hcloses _ _ [] rfl hblock)

/-- Laying out the children of a node carries out one step for each of them, in order. Those that
stand on a line of their own all start at the left edge of the container exactly if each line in
front of one of them has a height or ends where it began: the layout does not close a line of
children that move the cursor on without a height. -/
theorem blocks_start_left_iff (page : Page) (place : Placement) (id : NodeId) (zone : Zone)
    (skipFirstText : Bool) :
    let steps := page.childSteps place id zone skipFirstText
    steps.map FlowStep.child = page.flowingChildren id skipFirstText ∧
      (∀ step ∈ steps, step.inline = page.flowsInline step.child (page.flowsInline id false)) ∧
      (page.flowChildren place id zone skipFirstText).commands =
        steps.flatMap (fun step => (place step.child step.zone step.inline).commands) ∧
      ((∀ step ∈ steps, step.inline = false → step.zone.x = zone.x) ↔
        ClosesLines place zone.x steps) := by
  refine ⟨map_child_flowSteps _ _, fun step hstep => inline_of_mem_flowSteps hstep, ?_, ?_⟩
  · rw [flowChildren, Draw.commands_bind, commands_flow]
    exact List.append_nil _
  · exact flow_starts_left_iff zone.y (page.flowingChildren id skipFirstText)

/-- A box within the line that is wide and flat is not noticed: the block behind it starts to the
right of it, and its text is drawn there. -/
theorem block_starts_behind_flat_box :
    let spec : Spec := .element "body" [] [.element "span" [] [], .element "div" [] [.text "x"]]
    let styles : StyleMap := .ofList 5 [(2, Style.ofPairs [("width", "50px"), ("height", "0")])]
    let page : Page := { tree := spec.toTree, styles }
    let zone : Zone := .ofSize 0 0 500 300
    (∃ step ∈ page.childSteps (page.place maxDepth) 1 zone false,
        step.inline = false ∧ step.zone.x ≠ zone.x) ∧
      (page.document {}).commands.map Command.bounds = [⟨0, 0, 500, 300⟩, ⟨50, 0, 10, 19⟩] := by
  decide +kernel

end Page

end BoxFlow
