import BoxFlow.Proofs.Paint.FarEdges

/-!
# Bounds of commands

Whatever a command paints on a canvas lies within its bounds, and the rest of the canvas stays as it
is (`Canvas.paint_changes_within_bounds`). Bounds are read with exact sums, as if coordinates had no
range. They are computed within that range: the box of a circle starts no earlier than the smallest
coordinate and is no larger than the largest extent, and a far edge is no later than the largest
coordinate. No pixel of a canvas is lost by this, because its columns and rows are coordinates from
zero on (`Command.spans_bounds_of_colorAt?`).
-/

set_option autoImplicit false

namespace BoxFlow

/-! ## Commands in range -/

namespace Command

/-- The numbers of a command are in range. The sizes of an image on the canvas are coordinates. -/
def InRange : Command → Prop
  | fillRect bounds _ => bounds.InRange
  | fillCircle centerX centerY radius _ =>
    IsCoordinate centerX ∧ IsCoordinate centerY ∧ (radius : Int) ≤ extentMax
  | drawText bounds _ => bounds.InRange
  | drawImage bounds _ =>
    bounds.InRange ∧ (bounds.width : Int) ≤ coordinateMax ∧ (bounds.height : Int) ≤ coordinateMax

variable {command : Command} {x y : ℕ}

theorem InRange.drawsInRange (h : command.InRange) : command.DrawsInRange := by
  cases command with
  | drawImage bounds image => exact h.1
  | fillRect bounds color => trivial
  | fillCircle centerX centerY radius color => trivial
  | drawText bounds run => trivial

/-! ## The box of a circle -/

section Circle

variable {center p : Int} {radius : ℕ}

theorem isCoordinate_circle_start (h : IsCoordinate center) :
    IsCoordinate (max coordinateMin (center - min (radius : Int) coordinateMax)) := by
  simp only [IsCoordinate, coordinateMin, coordinateMax] at h ⊢
  omega

theorem circle_side_le : ((min (2 * (radius : Int)) extentMax).toNat : Int) ≤ extentMax := by
  rw [extentMax]
  omega

/-- A coordinate from zero on that is closer to the center than the radius is lies within the side
of the box. A radius that is no coordinate leaves a side behind the start that reaches further than
any coordinate. -/
theorem within_circle_side (hcenter : IsCoordinate center) (hp : 0 ≤ p) (hmax : p < coordinateMax)
    (hnear : -radius ≤ p - center ∧ p - center < radius) :
    max coordinateMin (center - min (radius : Int) coordinateMax) ≤ p ∧
      p < max coordinateMin (center - min (radius : Int) coordinateMax) +
        ((min (2 * (radius : Int)) extentMax).toNat : Int) := by
  simp only [IsCoordinate, coordinateMin, coordinateMax, extentMax] at *
  omega

end Circle

/-! ## What lies within bounds -/

/-- Bounds are a rectangle in range, also where a circle leaves it. -/
theorem InRange.bounds (h : command.InRange) : command.bounds.InRange := by
  cases command with
  | fillRect bounds color => exact h
  | drawText bounds run => exact h
  | drawImage bounds image => exact h.1
  | fillCircle centerX centerY radius color =>
    exact ⟨isCoordinate_circle_start h.1, isCoordinate_circle_start h.2.1, circle_side_le,
      circle_side_le⟩

example : (fillCircle coordinateMin 0 4294967295 .black).bounds =
    ⟨-2147483648, -2147483647, 4294967295, 4294967295⟩ := by decide

/-- A command has colors only for the pixels within its bounds, of those that a canvas can have. -/
theorem spans_bounds_of_colorAt? (h : command.InRange) (hx : (x : Int) < coordinateMax)
    (hy : (y : Int) < coordinateMax) (hcolor : command.colorAt? x y ≠ none) :
    command.bounds.Spans x y := by
  cases command with
  | fillRect bounds color =>
    exact ((Rect.covers_iff_spans hx hy).1 (covers_of_colorAt? hcolor)).1
  | fillCircle centerX centerY radius color =>
    obtain ⟨hcenterX, hcenterY, -⟩ := h
    simp only [colorAt?, ne_eq, ite_eq_right_iff, reduceCtorEq, imp_false, not_not] at hcolor
    obtain ⟨hleft, hright, htop, hbottom, -⟩ := hcolor
    exact ⟨within_circle_side hcenterX (Int.natCast_nonneg x) hx ⟨hleft, hright⟩,
      within_circle_side hcenterY (Int.natCast_nonneg y) hy ⟨htop, hbottom⟩⟩
  | drawText bounds run => exact absurd rfl hcolor
  | drawImage bounds image =>
    obtain ⟨hbounds, hwidth, hheight⟩ := h
    obtain ⟨dx, dy, hdx, hdy, -⟩ := exists_offsets_of_colorAt? hcolor
    exact ⟨le_of_offsetWithin? hbounds.isCoordinate_x.2 hwidth (Int.natCast_nonneg x) hdx,
      le_of_offsetWithin? hbounds.isCoordinate_y.2 hheight (Int.natCast_nonneg y) hdy⟩

end Command

/-! ## What painting changes -/

namespace Canvas

/-- A canvas after another one differs from it at most in some pixels. -/
structure ChangesWithin (area : Int → Int → Prop) (before after : Canvas) : Prop where
  width_eq : after.width = before.width
  height_eq : after.height = before.height
  pixel?_eq : ∀ x y : ℕ, ¬ area x y → after.pixel? x y = before.pixel? x y

variable {area area' : Int → Int → Prop} {canvas before between after : Canvas} {command : Command}
  {commands : List Command}

theorem ChangesWithin.refl (area : Int → Int → Prop) (canvas : Canvas) :
    ChangesWithin area canvas canvas :=
  ⟨rfl, rfl, fun _ _ _ => rfl⟩

theorem ChangesWithin.trans (h : ChangesWithin area before between)
    (h' : ChangesWithin area between after) : ChangesWithin area before after :=
  ⟨h'.width_eq.trans h.width_eq, h'.height_eq.trans h.height_eq,
    fun x y hout => (h'.pixel?_eq x y hout).trans (h.pixel?_eq x y hout)⟩

theorem ChangesWithin.mono (h : ChangesWithin area before after)
    (harea : ∀ x y, area x y → area' x y) : ChangesWithin area' before after :=
  ⟨h.width_eq, h.height_eq, fun x y hout => h.pixel?_eq x y fun hin => hout (harea x y hin)⟩

theorem changesWithin_paint (hwidth : canvas.width < 2 ^ 31) (hheight : canvas.height < 2 ^ 31)
    (h : command.InRange) :
    ChangesWithin command.bounds.Spans canvas (canvas.paint command) := by
  obtain ⟨hwidthEq, hheightEq⟩ := canvas.sameSize_paint command
  refine ⟨hwidthEq, hheightEq, ?_⟩
  intro x y hout
  rw [pixel?_paint h.drawsInRange hwidth hheight]
  by_cases hin : x < canvas.width ∧ y < canvas.height
  · have hcolor : command.colorAt? x y = none := by
      by_contra hcolor
      refine hout (Command.spans_bounds_of_colorAt? h ?_ ?_ hcolor)
      · rw [coordinateMax]; omega
      · rw [coordinateMax]; omega
    rw [hcolor]
    exact Option.map_id'
  · rw [(pixel?_eq_none_iff canvas x y).2 hin]
    rfl

/-- A list of commands changes nothing outside the bounds of all of them. -/
theorem changesWithin_paintAll (hwidth : canvas.width < 2 ^ 31) (hheight : canvas.height < 2 ^ 31)
    (h : ∀ command ∈ commands, command.InRange) :
    ChangesWithin (fun x y => ∃ command ∈ commands, command.bounds.Spans x y) canvas
      (canvas.paintAll commands) := by
  induction commands generalizing canvas with
  | nil => exact .refl _ canvas
  | cons command commands ih =>
    obtain ⟨hcommand, hrest⟩ := List.forall_mem_cons.1 h
    have hfirst := changesWithin_paint hwidth hheight hcommand
    have hothers := ih (hfirst.width_eq ▸ hwidth) (hfirst.height_eq ▸ hheight) hrest
    refine (hfirst.mono ?_).trans (hothers.mono ?_)
    · intro x y hspans
      exact ⟨command, List.mem_cons_self, hspans⟩
    · rintro x y ⟨other, hmem, hspans⟩
      exact ⟨other, List.mem_cons_of_mem command hmem, hspans⟩

/-- The bounds of a command in range are a rectangle in range. Painting the command on a canvas
changes only pixels within them, read as exact sums, and keeps all others and the size. -/
theorem paint_changes_within_bounds (canvas : Canvas) (hwidth : canvas.width < 2 ^ 31)
    (hheight : canvas.height < 2 ^ 31) (command : Command) (hcommand : command.InRange) :
    command.bounds.InRange ∧
      (∀ x y : ℕ, (canvas.paint command).pixel? x y ≠ canvas.pixel? x y →
        (command.bounds.x ≤ x ∧ (x : Int) < command.bounds.x + command.bounds.width) ∧
          (command.bounds.y ≤ y ∧ (y : Int) < command.bounds.y + command.bounds.height)) ∧
      ChangesWithin command.bounds.Spans canvas (canvas.paint command) := by
  have hchanges := changesWithin_paint hwidth hheight hcommand
  refine ⟨hcommand.bounds, ?_, hchanges⟩
  intro x y hchanged
  by_contra hout
  exact hchanged (hchanges.pixel?_eq x y hout)

/-- A circle that is partly to the left of the canvas. -/
theorem paint_changes_within_bounds_of_circle :
    let circle : Command := .fillCircle (-1) 0 3 .black
    (blank 4 1).width < 2 ^ 31 ∧ (blank 4 1).height < 2 ^ 31 ∧ circle.InRange ∧
      circle.bounds = ⟨-4, -3, 6, 6⟩ ∧ ((blank 4 1).paint circle).pixel? 2 0 = some .white := by
  intro circle
  have hwidth : (blank 4 1).width < 2 ^ 31 := by decide
  have hheight : (blank 4 1).height < 2 ^ 31 := by decide
  have hrange : circle.InRange := ⟨⟨by decide, by decide⟩, ⟨by decide, by decide⟩, by decide⟩
  have hout : ¬ circle.bounds.Spans 2 0 := by decide
  obtain ⟨-, -, hchanges⟩ := paint_changes_within_bounds (blank 4 1) hwidth hheight circle hrange
  exact ⟨hwidth, hheight, hrange, rfl, hchanges.pixel?_eq 2 0 hout⟩

end Canvas

end BoxFlow
