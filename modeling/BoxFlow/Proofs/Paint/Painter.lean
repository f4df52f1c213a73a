import BoxFlow.Proofs.Paint.FarEdges

/-!
# The painter's algorithm

The picture of a list of commands can be told pixel by pixel: a pixel starts white and takes the
commands one after the other, where a command that does not cover the pixel leaves it as it is, and
one that covers it is blended over it once (`Canvas.picture_pixel?`). Which pixels a command covers
is said here with the exact sums of its coordinates and sizes (`Command.coverAt?`). While these are
moderate, no sum leaves the range of coordinates and no distance is taken modulo anything, so this
is also what is painted (`Command.colorAt?_eq_coverAt?`).
-/

set_option autoImplicit false

namespace BoxFlow

/-! ## Moderate commands -/

/-- No coordinate and no size of a rectangle exceeds the limit. -/
structure Rect.IsWithin (r : Rect) (limit : ℕ) : Prop where
  x_le : r.x.natAbs ≤ limit
  y_le : r.y.natAbs ≤ limit
  width_le : r.width ≤ limit
  height_le : r.height ≤ limit

instance (r : Rect) (limit : ℕ) : Decidable (r.IsWithin limit) :=
  decidable_of_iff
    (r.x.natAbs ≤ limit ∧ r.y.natAbs ≤ limit ∧ r.width ≤ limit ∧ r.height ≤ limit)
    ⟨fun h => ⟨h.1, h.2.1, h.2.2.1, h.2.2.2⟩,
      fun h => ⟨h.x_le, h.y_le, h.width_le, h.height_le⟩⟩

namespace Command

/-- No coordinate and no size of a command exceeds the limit. -/
def IsWithin (limit : ℕ) : Command → Prop
  | fillRect bounds _ => bounds.IsWithin limit
  | fillCircle centerX centerY radius _ =>
    centerX.natAbs ≤ limit ∧ centerY.natAbs ≤ limit ∧ radius ≤ limit
  | drawText bounds _ => bounds.IsWithin limit
  | drawImage bounds _ => bounds.IsWithin limit

/-- An image is drawn at its own size. -/
def KeepsSize : Command → Prop
  | drawImage bounds image => bounds.width = image.width ∧ bounds.height = image.height
  | _ => True

instance (limit : ℕ) : (command : Command) → Decidable (command.IsWithin limit)
  | fillRect bounds _ => inferInstanceAs (Decidable (bounds.IsWithin limit))
  | fillCircle centerX centerY radius _ =>
    inferInstanceAs
      (Decidable (centerX.natAbs ≤ limit ∧ centerY.natAbs ≤ limit ∧ radius ≤ limit))
  | drawText bounds _ => inferInstanceAs (Decidable (bounds.IsWithin limit))
  | drawImage bounds _ => inferInstanceAs (Decidable (bounds.IsWithin limit))

/-! ## What a command covers -/

/-- The color with which a command covers a pixel of the plane, by exact sums. -/
def coverAt? : Command → Int → Int → Option Color
  | fillRect bounds color, x, y =>
    if (bounds.x ≤ x ∧ x < bounds.x + bounds.width) ∧
        (bounds.y ≤ y ∧ y < bounds.y + bounds.height) then some color
    else none
  | fillCircle centerX centerY radius color, x, y =>
    if (-radius ≤ x - centerX ∧ x - centerX < radius) ∧
        (-radius ≤ y - centerY ∧ y - centerY < radius) ∧
        insideCircle radius (x - centerX) (y - centerY) then some color
    else none
  | drawImage bounds image, x, y =>
    if (bounds.x ≤ x ∧ x < bounds.x + bounds.width) ∧
        (bounds.y ≤ y ∧ y < bounds.y + bounds.height) then
      image.pixel? (x - bounds.x).toNat (y - bounds.y).toNat
    else none
  | drawText _ _, _, _ => none

/-- A pixel after a command: a command that does not cover it changes nothing, nor does a color of
alpha 0; one of alpha 255 replaces the pixel, any other one is mixed with it. -/
def blendAt (command : Command) (x y : Int) (lower : Color) : Color :=
  match command.coverAt? x y with
  | none => lower
  | some upper =>
    if upper.a = 0 then lower else if upper.a = 255 then upper else upper.mix lower

/-- An opaque pixel stays opaque. -/
theorem a_blendAt (command : Command) (x y : Int) {lower : Color} (h : lower.a = 255) :
    (command.blendAt x y lower).a = 255 := by
  rw [blendAt]
  split
  · exact h
  · split
    · exact h
    · split
      · next hopaque => exact hopaque
      · rfl

/-- So it does after any number of commands. -/
theorem a_foldl_blendAt (commands : List Command) (x y : Int) {lower : Color} (h : lower.a = 255) :
    (commands.foldl (fun lower command => command.blendAt x y lower) lower).a = 255 := by
  induction commands generalizing lower with
  | nil => exact h
  | cons command commands ih => exact ih (a_blendAt command x y h)

/-! ## What is painted -/

variable {command : Command} {limit : ℕ}

theorem DrawsInRange.of_isWithin (hlimit : (limit : Int) ≤ coordinateMax)
    (h : command.IsWithin limit) : command.DrawsInRange := by
  cases command with
  | drawImage bounds image =>
    have hwidth := h.width_le
    have hheight := h.height_le
    have hx := h.x_le
    have hy := h.y_le
    rw [coordinateMax] at hlimit
    constructor
    · rw [IsCoordinate, coordinateMin, coordinateMax]; omega
    · rw [IsCoordinate, coordinateMin, coordinateMax]; omega
    · rw [extentMax]; omega
    · rw [extentMax]; omega
  | fillRect bounds color => trivial
  | fillCircle centerX centerY radius color => trivial
  | drawText bounds run => trivial

/-- A distance within a moderate extent is the exact one. -/
theorem offsetWithin?_eq {start : Int} {extent : ℕ} (hlimit : limit ≤ 2 ^ 30)
    (hstart : start.natAbs ≤ limit) (hextent : extent ≤ limit) (x : ℕ) :
    offsetWithin? start extent x =
      if start ≤ x ∧ (x : Int) < start + extent then some (x - start).toNat else none := by
  rw [offsetWithin?, coordinateMax]
  by_cases hin : start ≤ x ∧ (x : Int) < start + extent
  · have hmod : ((x : Int) - start) % 4294967296 = x - start := by omega
    rw [if_pos hin, hmod, if_pos (by omega)]
  · rw [if_neg hin, if_neg (by omega)]

/-- A sample of a source of the same extent is taken where it is drawn. -/
theorem sampleAt_self {offset extent : ℕ} (h : offset < extent) :
    sampleAt offset extent extent = offset := by
  rw [sampleAt, Nat.mul_div_cancel _ (Nat.zero_lt_of_lt h)]
  omega

/-- What is painted at a pixel with moderate coordinates is what covers it by exact sums. -/
theorem colorAt?_eq_coverAt? (hlimit : limit ≤ 2 ^ 30) (h : command.IsWithin limit)
    (hsize : command.KeepsSize) {x y : ℕ} (hx : x ≤ limit) (hy : y ≤ limit) :
    command.colorAt? x y = command.coverAt? x y := by
  have hmax : (2 ^ 30 : Int) < coordinateMax := by decide
  cases command with
  | fillRect bounds color =>
    have hwidth := h.width_le
    have hheight := h.height_le
    have hcovers : bounds.covers x y ↔ bounds.Spans x y :=
      Rect.covers_iff_spans_of_exact (by omega) (by omega) (.inr (by omega)) (.inr (by omega))
    simp only [colorAt?, coverAt?, hcovers, Rect.Spans]
  | fillCircle centerX centerY radius color =>
    simp only [colorAt?, coverAt?, and_assoc]
  | drawText bounds run => rfl
  | drawImage bounds image =>
    have hcolumn := offsetWithin?_eq hlimit h.x_le h.width_le x
    have hrow := offsetWithin?_eq hlimit h.y_le h.height_le y
    simp only [colorAt?, coverAt?, Image.scaledPixel?, hcolumn, hrow]
    by_cases hinX : bounds.x ≤ x ∧ (x : Int) < bounds.x + bounds.width
    · by_cases hinY : bounds.y ≤ y ∧ (y : Int) < bounds.y + bounds.height
      · rw [if_pos hinX, if_pos hinY, if_pos ⟨hinX, hinY⟩, ← hsize.1, ← hsize.2]
        show image.pixel? (sampleAt _ _ _) (sampleAt _ _ _) = _
        rw [sampleAt_self (by omega), sampleAt_self (by omega)]
      · simp only [hinX, hinY, and_false, if_false]
        rfl
    · simp only [hinX, false_and, if_false]
      rfl

/-- So painting blends the command over the pixel. -/
theorem beneath_colorAt? (hlimit : limit ≤ 2 ^ 30) (h : command.IsWithin limit)
    (hsize : command.KeepsSize) {x y : ℕ} (hx : x ≤ limit) (hy : y ≤ limit) (lower : Color) :
    lower.beneath (command.colorAt? x y) = command.blendAt x y lower := by
  rw [colorAt?_eq_coverAt? hlimit h hsize hx hy, blendAt]
  cases command.coverAt? x y <;> rfl

end Command

namespace Canvas

variable {width height limit : ℕ} {commands : List Command}

theorem sameSize_paintAll (canvas : Canvas) (commands : List Command) :
    canvas.SameSize (canvas.paintAll commands) := by
  induction commands generalizing canvas with
  | nil => exact .refl canvas
  | cons command commands ih =>
    exact (canvas.sameSize_paint command).trans (ih (canvas.paint command))

/-- A pixel takes moderate commands one after the other. -/
theorem pixel?_paintAll (hlimit : limit ≤ 2 ^ 30)
    (hcommands : ∀ command ∈ commands, command.IsWithin limit ∧ command.KeepsSize)
    {canvas : Canvas} (hwidth : canvas.width ≤ limit) (hheight : canvas.height ≤ limit) {x y : ℕ}
    (hx : x ≤ limit) (hy : y ≤ limit) :
    (canvas.paintAll commands).pixel? x y =
      (canvas.pixel? x y).map fun lower =>
        commands.foldl (fun lower command => command.blendAt x y lower) lower := by
  have hmax : (limit : Int) ≤ coordinateMax := by
    rw [coordinateMax]
    omega
  induction commands generalizing canvas with
  | nil => exact Option.map_id'.symm
  | cons command commands ih =>
    obtain ⟨⟨hwithin, hsize⟩, hrest⟩ := List.forall_mem_cons.1 hcommands
    obtain ⟨hwidthEq, hheightEq⟩ := canvas.sameSize_paint command
    show ((canvas.paint command).paintAll commands).pixel? x y = _
    rw [ih hrest (hwidthEq ▸ hwidth) (hheightEq ▸ hheight),
      pixel?_paint (.of_isWithin hmax hwithin) (by omega) (by omega), Option.map_map]
    congr 1
    funext lower
    exact congrArg (commands.foldl _) (command.beneath_colorAt? hlimit hwithin hsize hx hy lower)

theorem pixel?_blank {x y : ℕ} (hx : x < width) (hy : y < height) :
    (blank width height).pixel? x y = some .white := by
  show (if x < width ∧ y < height then _ else none) = _
  rw [if_pos ⟨hx, hy⟩]
  exact Array.getElem?_replicate.trans (if_pos (place_lt hx hy))

/-- On a canvas of moderate size, with moderate commands and images drawn at their own size, each
pixel of the picture is white with the commands blended over it in order, and at every stage of the
painting every pixel is opaque. -/
theorem picture_pixel? (hwidth : width ≤ 2 ^ 30) (hheight : height ≤ 2 ^ 30)
    (hcommands : ∀ command ∈ commands, command.IsWithin (2 ^ 30) ∧ command.KeepsSize) :
    (∀ x y : ℕ, (picture width height commands).pixel? x y =
      if x < width ∧ y < height then
        some (commands.foldl (fun lower command => command.blendAt x y lower) .white)
      else none) ∧
    ∀ before, before <+: commands → ∀ (x y : ℕ) (color : Color),
      (picture width height before).pixel? x y = some color → color.a = 255 := by
  have hpixel : ∀ before, before <+: commands → ∀ x y : ℕ,
      (picture width height before).pixel? x y =
        if x < width ∧ y < height then
          some (before.foldl (fun lower command => command.blendAt x y lower) .white)
        else none := by
    intro before hbefore x y
    by_cases hin : x < width ∧ y < height
    · rw [if_pos hin, picture,
        pixel?_paintAll (Nat.le_refl _) (fun command hmem => hcommands command (hbefore.mem hmem))
          hwidth hheight (Nat.le_of_lt (Nat.lt_of_lt_of_le hin.1 hwidth))
          (Nat.le_of_lt (Nat.lt_of_lt_of_le hin.2 hheight)),
        pixel?_blank hin.1 hin.2]
      rfl
    · obtain ⟨hwidthEq, hheightEq⟩ := sameSize_paintAll (blank width height) before
      rw [if_neg hin, pixel?_eq_none_iff, picture, hwidthEq, hheightEq]
      exact hin
  refine ⟨hpixel commands (List.prefix_refl _), ?_⟩
  intro before hbefore x y color hcolor
  rw [hpixel before hbefore, Option.ite_none_right_eq_some, Option.some.injEq] at hcolor
  rw [← hcolor.2]
  exact Command.a_foldl_blendAt before x y rfl

/-- A translucent rectangle that is cut off at two edges, and an image of which one pixel covers it
and another is invisible. -/
theorem picture_pixel?_of_overlap :
    let half : Color := ⟨255, 0, 0, 128⟩
    let image : Image := ⟨2, 1, #[0, 0, 255, 255, 0, 255, 0, 0], rfl⟩
    let commands : List Command := [.fillRect ⟨-1, -1, 2, 3⟩ half, .drawImage ⟨0, 0, 2, 1⟩ image]
    (∀ command ∈ commands, command.IsWithin (2 ^ 30) ∧ command.KeepsSize) ∧
      (picture 2 2 commands).pixel? 0 0 = some ⟨0, 0, 255, 255⟩ ∧
      (picture 2 2 commands).pixel? 0 1 = some (half.mix .white) ∧
      (picture 2 2 commands).pixel? 1 0 = some .white := by
  intro half image commands
  have hcommands : ∀ command ∈ commands, command.IsWithin (2 ^ 30) ∧ command.KeepsSize := by
    intro command hmem
    simp only [commands, List.mem_cons, List.not_mem_nil, or_false] at hmem
    rcases hmem with rfl | rfl
    · exact ⟨by decide, trivial⟩
    · exact ⟨by decide, rfl, rfl⟩
  have hsize : 2 ≤ 2 ^ 30 := by decide
  obtain ⟨hpixel, -⟩ := picture_pixel? hsize hsize hcommands
  refine ⟨hcommands, (hpixel 0 0).trans ?_, (hpixel 0 1).trans ?_, (hpixel 1 0).trans ?_⟩
  · rfl
  · rfl
  · rfl

end Canvas

end BoxFlow
