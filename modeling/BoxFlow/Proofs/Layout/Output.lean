import BoxFlow.Layout.Output

/-!
# What is added to an output

Laying out onto an output (`Page.layoutOnto`) and laying out to a value agree
(`Page.adds_layoutOnto`): whatever there is on the output stays in front, what is added to it is
what the layout draws on its own, and no step depends on what was there. So laying out several nodes
in one pass draws one after the other what each of them draws alone
(`LayoutPass.layout_only_appends`).

The relation between a step of the program and what it adds (`Drawing.Adds`) passes through
sequences of steps, so each function of the layout is followed through by the shape of its body,
lists by induction, and nodes by induction on the levels.
-/

set_option autoImplicit false

namespace BoxFlow

namespace Drawing

variable {α β : Type}

/-! ## What a step adds -/

/-- Whatever there is on the output, the step leaves it in front, adds the commands and warnings of
`drawn`, and gives the value of `drawn`. -/
def Adds (step : Drawing α) (drawn : Draw α) : Prop :=
  ∀ out : Output, step.run out =
    (drawn.value, ⟨out.commands ++ drawn.commands, out.warnings ++ drawn.warnings⟩)

theorem Adds.pure (a : α) : (Pure.pure a : Drawing α).Adds (Pure.pure a) := by
  intro out
  show (a, out) = (a, ⟨out.commands ++ [], out.warnings ++ []⟩)
  rw [List.append_nil, List.append_nil]

/-- One step after the other adds what the one and then what the other adds. -/
theorem Adds.bind {step : Drawing α} {drawn : Draw α} {next : α → Drawing β} {rest : α → Draw β}
    (hstep : step.Adds drawn) (hnext : ∀ a, (next a).Adds (rest a)) :
    (step >>= next).Adds (drawn >>= rest) := by
  intro out
  show (next (step.run out).1).run (step.run out).2 = _
  rw [hstep out, hnext]
  show ((rest drawn.value).value, Output.mk _ _) = ((rest drawn.value).value, Output.mk _ _)
  rw [List.append_assoc, List.append_assoc]
  rfl

/-- A number that has to be in range adds nothing to the output. -/
theorem Adds.behind_require {step : Drawing α} {rest : Unit → Draw α} (h : step.Adds (rest ()))
    (inRange : Bool) (operation : Overflow) :
    step.Adds (Draw.require inRange operation >>= rest) := h

theorem run_forM_draw (commands : List Command) (out : Output) :
    (commands.forM draw).run out = ((), { out with commands := out.commands ++ commands }) := by
  induction commands generalizing out with
  | nil =>
    show ((), out) = _
    rw [List.append_nil]
  | cons command commands ih =>
    show (commands.forM draw).run { out with commands := out.commands ++ [command] } = _
    rw [ih, List.append_assoc]
    rfl

theorem run_forM_warn (warnings : List Warning) (out : Output) :
    (warnings.forM warn).run out = ((), { out with warnings := out.warnings ++ warnings }) := by
  induction warnings generalizing out with
  | nil =>
    show ((), out) = _
    rw [List.append_nil]
  | cons warning warnings ih =>
    show (warnings.forM warn).run { out with warnings := out.warnings ++ [warning] } = _
    rw [ih, List.append_assoc]
    rfl

theorem adds_draw (command : Command) : (draw command).Adds (Draw.draw [command]) := by
  intro out
  show ((), Output.mk _ out.warnings) = ((), Output.mk _ (out.warnings ++ []))
  rw [List.append_nil]
  rfl

theorem adds_warn (warning : Warning) : (warn warning).Adds (Draw.warn [warning]) := by
  intro out
  show ((), Output.mk out.commands _) = ((), Output.mk (out.commands ++ []) _)
  rw [List.append_nil]
  rfl

theorem adds_warnAll (warnings : List Warning) :
    (warnings.forM warn).Adds (Draw.warn warnings) := by
  intro out
  rw [run_forM_warn]
  show ((), Output.mk out.commands _) = ((), Output.mk (out.commands ++ []) _)
  rw [List.append_nil]
  rfl

/-- A piece adds itself. -/
theorem adds_emit (piece : Draw α) : (emit piece).Adds piece := by
  intro out
  show (piece.value, ((piece.commands.forM draw).run ((piece.warnings.forM warn).run out).2).2) = _
  rw [run_forM_warn, run_forM_draw]

end Drawing

open Drawing (adds_emit adds_draw adds_warn adds_warnAll)

namespace Page

variable (page : Page)

/-! ## Texts and boxes -/

theorem adds_drawLinesOnto (s : Style) (x y : Float32) (lines : List (List Char)) :
    (page.drawLinesOnto s x y lines).Adds (page.drawLines s x y lines) := by
  induction lines generalizing y with
  | nil => exact .pure y
  | cons line lines ih => exact (adds_emit _).bind fun _ => ih _

theorem adds_layoutTextOnto (id : NodeId) (content : String) (zone : Zone) (inline : Bool) :
    (page.layoutTextOnto id content zone inline).Adds
      (page.layoutText id content zone inline) := by
  rw [layoutTextOnto, layoutText]
  split
  · exact .pure _
  · split
    · exact adds_emit _
    · exact (page.adds_drawLinesOnto _ _ _ _).bind fun _ => .pure _

theorem adds_inlineBoxOnto (id : NodeId) (s : Style) (zone : Zone) :
    (page.inlineBoxOnto id s zone).Adds (page.inlineBox id s zone) :=
  (adds_emit _).bind fun _ => (adds_emit _).bind fun _ => .pure _

theorem adds_blockBoxOnto (id : NodeId) (s : Style) (zone : Zone) :
    (page.blockBoxOnto id s zone).Adds (page.blockBox id s zone) :=
  (adds_emit _).bind fun _ => (adds_emit _).bind fun _ => .pure _

theorem adds_paragraphOnto (id : NodeId) (s : Style) (zone : Zone) :
    (page.paragraphOnto id s zone).Adds (page.paragraph id s zone) :=
  (adds_emit _).bind fun _ => (page.adds_drawLinesOnto _ _ _ _).bind fun _ => .pure _

/-! ## Images -/

theorem adds_pictureOnto (e : Element) (zone : Zone) :
    (page.pictureOnto e zone).Adds (page.picture e zone) := by
  rw [pictureOnto, picture]
  cases source? e with
  | none => exact (adds_warn _).bind fun _ => .pure _
  | some source =>
    refine (adds_warnAll _).bind fun _ => ?_
    cases (page.images source).result with
    | error e => exact (adds_warn _).bind fun _ => .pure _
    | ok image => exact (adds_draw _).bind fun _ => .pure _

/-! ## List items -/

theorem adds_drawMarkerOnto (s : Style) (zone : Zone) (marker : Option Marker) :
    (page.drawMarkerOnto s zone marker).Adds (page.drawMarker s zone marker) := by
  unfold drawMarkerOnto drawMarker
  split
  · exact .pure ()
  · cases marker with
    | none => exact .pure ()
    | some marker =>
      cases marker with
      | disc => exact adds_draw _
      | decimal n => exact (adds_emit _).bind fun _ => .pure ()

theorem adds_listItemOnto (id : NodeId) (s : Style) (zone : Zone) :
    (page.listItemOnto id s zone).Adds (page.listItem id s zone) := by
  refine .behind_require ?_ _ _
  refine (page.adds_drawMarkerOnto _ _ _).bind fun _ => ?_
  dsimp only
  cases (page.leadingText? id).or
      ((page.tree.elementChildren id).head?.bind page.leadingText?) with
  | none => exact .pure _
  | some text => exact (adds_emit _).bind fun _ => .pure _

/-! ## Tables -/

theorem adds_drawCellOnto (cell : NodeId) (zone : Zone) :
    (page.drawCellOnto cell zone).Adds (page.drawCell cell zone) :=
  (adds_emit _).bind fun _ => (adds_emit _).bind fun _ => .pure _

theorem adds_drawCellsOnto (zone : Zone) (x tallest : Float32) (cells : List NodeId) :
    (page.drawCellsOnto zone x tallest cells).Adds (page.drawCells zone x tallest cells) := by
  induction cells generalizing x tallest with
  | nil => exact .pure tallest
  | cons cell cells ih => exact (page.adds_drawCellOnto cell _).bind fun _ => ih _ _

theorem adds_drawRowsOnto (zone : Zone) (y : Float32) (rows : List NodeId) :
    (page.drawRowsOnto zone y rows).Adds (page.drawRows zone y rows) := by
  induction rows generalizing y with
  | nil => exact .pure y
  | cons row rows ih => exact (page.adds_drawCellsOnto _ _ _ _).bind fun _ => ih _

theorem adds_tableOnto (id : NodeId) (zone : Zone) :
    (page.tableOnto id zone).Adds (page.table id zone) := by
  rw [tableOnto, table]
  cases page.tableBody? id with
  | none => exact (adds_warn _).bind fun _ => .pure _
  | some body => exact (page.adds_drawRowsOnto _ _ _).bind fun _ => .pure _

/-! ## Elements and their flow -/

theorem adds_contentOnto (id : NodeId) (e : Element) (s : Style) (zone : Zone) :
    (page.contentOnto id e s zone).Adds (page.content id e s zone) := by
  rw [contentOnto]
  split
  · next htag => rw [content, htag]; exact page.adds_paragraphOnto id s zone
  · next htag => rw [content, htag]; exact page.adds_pictureOnto e zone
  · next htag => rw [content, htag]; exact .pure _
  · next htag => rw [content, htag]; exact .pure _
  · next htag => rw [content, htag]; exact page.adds_listItemOnto id s zone
  · next htag => rw [content, htag]; exact page.adds_tableOnto id zone
  · simp only [content]
    split
    · exact page.adds_inlineBoxOnto id s zone
    · exact page.adds_blockBoxOnto id s zone

section Placement

variable {page} {place : Placement} {placeOnto : PlacementOnto}
  (hplace : ∀ id zone inline, (placeOnto id zone inline).Adds (place id zone inline))

include hplace

theorem adds_flowOnto (zone : Zone) (parentInline : Bool) (cursor : FlowCursor)
    (children : List NodeId) :
    (page.flowOnto placeOnto zone parentInline cursor children).Adds
      (page.flow place zone parentInline cursor children) := by
  induction children generalizing cursor with
  | nil => exact .pure cursor
  | cons child children ih => exact (hplace _ _ _).bind fun _ => ih _

theorem adds_flowChildrenOnto (id : NodeId) (zone : Zone) (skipFirstText : Bool) :
    (page.flowChildrenOnto placeOnto id zone skipFirstText).Adds
      (page.flowChildren place id zone skipFirstText) :=
  (adds_flowOnto hplace _ _ _ _).bind fun _ => .pure _

theorem adds_shownElementOnto (id : NodeId) (e : Element) (zone : Zone) (inline : Bool) :
    (page.shownElementOnto placeOnto id e zone inline).Adds
      (page.shownElement place id e zone inline) := by
  refine (page.adds_contentOnto id e _ _).bind fun content => ?_
  dsimp only
  cases content.children with
  | none => exact (Drawing.Adds.pure _).bind fun _ => .pure _
  | some flow =>
    exact (adds_flowChildrenOnto hplace id _ _).bind fun _ =>
      (Drawing.Adds.pure _).bind fun _ => .pure _

theorem adds_elementOnto (id : NodeId) (e : Element) (zone : Zone) (inline : Bool) :
    (page.elementOnto placeOnto id e zone inline).Adds
      (page.element place id e zone inline) := by
  rw [elementOnto, element]
  split
  · exact .pure _
  · exact adds_shownElementOnto hplace id e zone inline

end Placement

/-- What laying out a node adds to the output is what is drawn of the node on its own. The induction
is on the levels. -/
theorem adds_placeOnto (levels : Nat) (id : NodeId) (zone : Zone) (inline : Bool) :
    (page.placeOnto levels id zone inline).Adds (page.place levels id zone inline) := by
  induction levels generalizing id zone inline with
  | zero => exact (adds_warn _).bind fun _ => .pure _
  | succ levels ih =>
    rw [placeOnto, place]
    cases (page.tree.get? id).map Node.kind with
    | none => exact .pure _
    | some kind =>
      cases kind with
      | document => exact adds_flowChildrenOnto ih id zone false
      | element e => exact adds_elementOnto ih id e zone inline
      | text content => exact page.adds_layoutTextOnto id content zone inline
      | comment content => exact .pure _

theorem adds_layoutOnto (id : NodeId) (zone : Zone) :
    (page.layoutOnto id zone).Adds (page.layout id zone) :=
  page.adds_placeOnto _ id zone false

end Page

/-! ## Passes -/

namespace LayoutPass

variable (pass : LayoutPass)

/-- A pass does what the program does that draws onto its output. -/
theorem run_layoutOnto (id : NodeId) (zone : Zone) :
    (pass.page.layoutOnto id zone).run pass.output =
      ((pass.layout id zone).1, (pass.layout id zone).2.output) :=
  pass.page.adds_layoutOnto id zone pass.output

theorem commands_layout (id : NodeId) (zone : Zone) :
    (pass.layout id zone).2.commands =
      pass.commands ++ (pass.fresh.layout id zone).2.commands := by
  show _ = pass.commands ++ ([] ++ (pass.page.layout id zone).commands)
  rw [List.nil_append]
  rfl

/-- A run of a pass draws what its steps draw alone, and each uses up what it uses up alone. -/
theorem layoutAll_eq (steps : List (NodeId × Zone)) :
    (pass.layoutAll steps).1 = steps.map (fun step => (pass.fresh.layout step.1 step.2).1) ∧
      (pass.layoutAll steps).2.commands =
        pass.commands ++ steps.flatMap fun step =>
          (pass.fresh.layout step.1 step.2).2.commands := by
  induction steps generalizing pass with
  | nil => exact ⟨rfl, (List.append_nil _).symm⟩
  | cons step steps ih =>
    obtain ⟨hused, hcommands⟩ := ih (pass.layout step.1 step.2).2
    constructor
    · exact congrArg ((pass.layout step.1 step.2).1 :: ·) hused
    · rw [List.flatMap_cons, ← List.append_assoc, ← commands_layout]
      exact hcommands

/-- A pass only adds to what it has drawn, and never looks back. The program that draws onto its
output, command by command, leaves what is there in front, and adds what laying out the node draws
in a pass that has drawn nothing; the space that is used up is the same too. So a sequence of nodes
draws one after the other what each of them draws alone. -/
theorem layout_only_appends :
    (∀ id zone,
      (pass.page.layoutOnto id zone).run pass.output =
        ((pass.layout id zone).1, (pass.layout id zone).2.output) ∧
      pass.commands <+: (pass.layout id zone).2.commands ∧
      (pass.layout id zone).2.commands =
        pass.commands ++ (pass.fresh.layout id zone).2.commands ∧
      (pass.layout id zone).1 = (pass.fresh.layout id zone).1) ∧
    ∀ steps,
      (pass.layoutAll steps).1 = steps.map (fun step => (pass.fresh.layout step.1 step.2).1) ∧
      (pass.layoutAll steps).2.commands =
        pass.commands ++ steps.flatMap fun step =>
          (pass.fresh.layout step.1 step.2).2.commands := by
  refine ⟨fun id zone => ?_, pass.layoutAll_eq⟩
  exact ⟨pass.run_layoutOnto id zone, ⟨_, (pass.commands_layout id zone).symm⟩,
    pass.commands_layout id zone, rfl⟩

end LayoutPass

end BoxFlow
