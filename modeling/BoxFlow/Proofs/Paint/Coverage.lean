import BoxFlow.Proofs.Image.PixelBytes

/-!
# Which pixels a command paints

A command has a color for a pixel of the plane, or it leaves the pixel alone (`Command.colorAt?`).
The loops that paint it on a canvas come to each pixel in one round at most. For a rectangle, the
rounds are the pixels themselves, and for a circle they are the distances from its center. An image
is placed by sums that stop at the largest coordinate, which is not on the canvas, so there too the
pixel tells the round (`isRoundFor_offset`). So painting blends the color of the command over each
pixel once (`Canvas.pixel?_paint`).
-/

set_option autoImplicit false

namespace BoxFlow

/-- A number that 32 bits with a sign can hold. -/
def IsCoordinate (n : Int) : Prop := coordinateMin ≤ n ∧ n ≤ coordinateMax

/-- The lowest 32 bits of a coordinate are the coordinate. -/
theorem wrappedCoordinate_eq {n : Int} (h : IsCoordinate n) : wrappedCoordinate n = n := by
  simp only [IsCoordinate, coordinateMin, coordinateMax] at h
  exact Int.bmod_eq_of_le (by omega) (by omega)

theorem isCoordinate_of_lt {n : ℕ} (h : n < 2 ^ 31) : IsCoordinate n := by
  rw [IsCoordinate, coordinateMin, coordinateMax]
  omega

namespace Rect

/-- The coordinates of a rectangle fit 32 bits with a sign, and its sizes 32 bits without one. -/
structure InRange (r : Rect) : Prop where
  isCoordinate_x : IsCoordinate r.x
  isCoordinate_y : IsCoordinate r.y
  width_le : (r.width : Int) ≤ extentMax
  height_le : (r.height : Int) ≤ extentMax

/-- Whether a pixel lies between the edges. -/
def covers (r : Rect) (x y : Int) : Bool :=
  decide (r.x ≤ x) && decide (x < r.right) && (decide (r.y ≤ y) && decide (y < r.bottom))

end Rect

/-- How far a pixel lies behind the start of an extent, if within it. Distances count modulo
`2 ^ 32`, and the sum of start and distance stays in the range of coordinates. -/
def offsetWithin? (start : Int) (extent : ℕ) (x : Int) : Option ℕ :=
  let offset := ((x - start) % 4294967296).toNat
  if offset < extent ∧ x - start ≤ coordinateMax then some offset else none

/-- The pixel of a scaled image at a point of the plane. -/
def Image.scaledPixel? (image : Image) (bounds : Rect) (x y : Int) : Option Color := do
  let dx ← offsetWithin? bounds.x bounds.width x
  let dy ← offsetWithin? bounds.y bounds.height y
  image.pixel? (sampleAt dx bounds.width image.width) (sampleAt dy bounds.height image.height)

namespace Command

/-- The color that a command gives to a pixel of the plane. -/
def colorAt? : Command → Int → Int → Option Color
  | fillRect bounds color, x, y => if bounds.covers x y then some color else none
  | fillCircle centerX centerY radius color, x, y =>
    let dx := x - centerX
    let dy := y - centerY
    if -radius ≤ dx ∧ dx < radius ∧ -radius ≤ dy ∧ dy < radius ∧ insideCircle radius dx dy then
      some color
    else none
  | drawImage bounds image, x, y => image.scaledPixel? bounds x y
  | drawText _ _, _, _ => none

/-- An image is drawn to a destination that is in range. -/
def DrawsInRange : Command → Prop
  | drawImage bounds _ => bounds.InRange
  | _ => True

end Command

/-! ## Distances behind a start -/

section Offset

variable {start p : Int} {extent offset : ℕ}

theorem offsetWithin?_eq_some_iff :
    offsetWithin? start extent p = some offset ↔
      (p - start) % 4294967296 = offset ∧ offset < extent ∧ p - start ≤ coordinateMax := by
  rw [offsetWithin?, Option.ite_none_right_eq_some, Option.some.injEq]
  omega

/-- A number that counts within an extent is a coordinate, or one only after `2 ^ 32` is taken
away. -/
theorem wrappedCoordinate_of_le {d : Int} (h : 0 ≤ d) (hmax : d ≤ extentMax) :
    wrappedCoordinate d = if d ≤ coordinateMax then d else d - 4294967296 := by
  rw [extentMax] at hmax
  rw [wrappedCoordinate, coordinateMax, Int.bmod_def]
  omega

/-- Sums stop at the largest coordinate, and the pixel is in front of that. So the round that
reaches it is the one of its offset. -/
theorem isRoundFor_offset (hstart : IsCoordinate start) (hextent : (extent : Int) ≤ extentMax)
    (hp : 0 ≤ p) (hmax : p < coordinateMax) :
    IsRoundFor 0 extent (fun d => saturatedSum start (wrappedCoordinate d)) p
      ((offsetWithin? start extent p).map Nat.cast) := by
  intro d
  have hsum : 0 ≤ d ∧ d < extent → (saturatedSum start (wrappedCoordinate d) = p ↔
      (p - start) % 4294967296 = d ∧ p - start ≤ coordinateMax) := by
    rintro ⟨hd, hlt⟩
    rw [wrappedCoordinate_of_le hd (by omega)]
    simp only [IsCoordinate, saturatedSum, coordinateMin, coordinateMax, extentMax] at *
    omega
  simp only [Option.map_eq_some_iff, offsetWithin?_eq_some_iff]
  constructor
  · rintro ⟨hd, hplace⟩
    obtain ⟨hmod, hle⟩ := (hsum hd).1 hplace
    exact ⟨d.toNat, ⟨by omega, by omega, hle⟩, by omega⟩
  · rintro ⟨offset, ⟨hmod, hlt, hle⟩, rfl⟩
    have hd : 0 ≤ (offset : Int) ∧ (offset : Int) < extent := by omega
    exact ⟨hd, (hsum hd).2 ⟨hmod, hle⟩⟩

/-- Behind a start that is a coordinate, an extent that is one does not come round again. -/
theorem le_of_offsetWithin? (hstart : start ≤ coordinateMax)
    (hextent : (extent : Int) ≤ coordinateMax) (hp : 0 ≤ p)
    (h : offsetWithin? start extent p = some offset) : start ≤ p ∧ p < start + extent := by
  obtain ⟨hmod, hlt, hle⟩ := offsetWithin?_eq_some_iff.1 h
  rw [coordinateMax] at *
  omega

end Offset

/-! ## Colors of a command -/

namespace Command

variable {x y : Int}

theorem covers_of_colorAt? {bounds : Rect} {color : Color}
    (hcolor : (fillRect bounds color).colorAt? x y ≠ none) : bounds.covers x y := by
  by_contra hnot
  exact hcolor (if_neg hnot)

/-- An image has colors only for the pixels within both of its extents. -/
theorem exists_offsets_of_colorAt? {bounds : Rect} {image : Image}
    (hcolor : (drawImage bounds image).colorAt? x y ≠ none) :
    ∃ dx dy, offsetWithin? bounds.x bounds.width x = some dx ∧
      offsetWithin? bounds.y bounds.height y = some dy ∧
      image.pixel? (sampleAt dx bounds.width image.width)
        (sampleAt dy bounds.height image.height) ≠ none := by
  simp only [colorAt?, Image.scaledPixel?] at hcolor
  cases hdx : offsetWithin? bounds.x bounds.width x with
  | none => rw [hdx] at hcolor; exact absurd rfl hcolor
  | some dx =>
    cases hdy : offsetWithin? bounds.y bounds.height y with
    | none => rw [hdx, hdy] at hcolor; exact absurd rfl hcolor
    | some dy =>
      rw [hdx, hdy] at hcolor
      exact ⟨dx, dy, rfl, rfl, hcolor⟩

end Command

/-! ## The pixel form of the loops -/

namespace Canvas

variable {canvas : Canvas} {x y : ℕ} {width : ℕ}

/-- The columns of a rectangle on the canvas are the pixels themselves. -/
theorem isRoundFor_edges (hwidth : width < 2 ^ 31) (hx : x < width) (near far : Int) :
    IsRoundFor (max near 0) (min far (wrappedCoordinate width)) (fun column => column) x
      (if near ≤ x ∧ x < far then some (x : Int) else none) := by
  intro n
  beta_reduce
  rw [wrappedCoordinate_eq (isCoordinate_of_lt hwidth), Option.ite_none_right_eq_some,
    Option.some.injEq]
  omega

/-- The distances of a circle on the canvas are those between center and pixel. -/
theorem isRoundFor_distances (hwidth : width < 2 ^ 31) (hx : x < width) (center : Int)
    (radius : ℕ) :
    IsRoundFor (max (-(radius : Int)) (-center)) (min (radius : Int) (width - center))
      (fun d => wrappedCoordinate (center + d)) x
      (if -radius ≤ x - center ∧ x - center < radius then some (x - center) else none) := by
  intro d
  beta_reduce
  rw [Option.ite_none_right_eq_some, Option.some.injEq]
  constructor
  · rintro ⟨hd, hplace⟩
    have hcoordinate : IsCoordinate (center + d) := by
      rw [IsCoordinate, coordinateMin, coordinateMax]
      omega
    rw [wrappedCoordinate_eq hcoordinate] at hplace
    omega
  · rintro ⟨hnear, rfl⟩
    have hplace : center + (x - center) = (x : Int) := by omega
    rw [hplace, wrappedCoordinate_eq (isCoordinate_of_lt (Nat.lt_trans hx hwidth))]
    omega

/-- Rounds of both loops exist exactly if what they depend on holds. -/
theorem bind_ite_bind_ite {p q : Prop} [Decidable p] [Decidable q] (dx dy : Int)
    (colorFor : Int → Int → Option Color) :
    ((if p then some dx else none).bind fun dx => (if q then some dy else none).bind fun dy =>
      colorFor dx dy) = if p ∧ q then colorFor dx dy else none := by
  by_cases hp : p
  · by_cases hq : q
    · rw [if_pos hp, if_pos hq, if_pos ⟨hp, hq⟩]
      rfl
    · rw [if_pos hp, if_neg hq, if_neg (fun h => hq h.2)]
      rfl
  · rw [if_neg hp, if_neg (fun h : p ∧ q => hp h.1)]
    rfl

/-- Filling a rectangle paints each pixel between its edges once. -/
theorem pixel?_fillRect (hwidth : canvas.width < 2 ^ 31) (hheight : canvas.height < 2 ^ 31)
    (hx : x < canvas.width) (hy : y < canvas.height) (bounds : Rect) (color : Color) :
    (canvas.fillRect bounds color).pixel? x y =
      (canvas.pixel? x y).map (·.beneath ((Command.fillRect bounds color).colorAt? x y)) := by
  have hcolumn := isRoundFor_edges hwidth hx bounds.x bounds.right
  have hrow := isRoundFor_edges hheight hy bounds.y bounds.bottom
  refine (pixel?_loop_loop_of_rounds hcolumn hrow
    (fun canvas column row => pixel?_blend canvas column row color x y) canvas).trans ?_
  simp only [bind_ite_bind_ite, Command.colorAt?, Rect.covers, Bool.and_eq_true,
    decide_eq_true_eq]

/-- Filling a circle paints each pixel whose center is in it once. -/
theorem pixel?_fillCircle (hwidth : canvas.width < 2 ^ 31) (hheight : canvas.height < 2 ^ 31)
    (hx : x < canvas.width) (hy : y < canvas.height) (centerX centerY : Int) (radius : ℕ)
    (color : Color) :
    (canvas.fillCircle centerX centerY radius color).pixel? x y =
      (canvas.pixel? x y).map
        (·.beneath ((Command.fillCircle centerX centerY radius color).colorAt? x y)) := by
  have hcolumn := isRoundFor_distances hwidth hx centerX radius
  have hrow := isRoundFor_distances hheight hy centerY radius
  refine (pixel?_loop_loop_of_rounds hcolumn hrow
    (fun canvas dx dy => pixel?_ite_blend canvas (insideCircle radius dx dy) _ _ color x y)
    canvas).trans ?_
  simp only [bind_ite_bind_ite, Command.colorAt?, ← ite_and, and_assoc]

/-- Drawing an image paints each pixel at an offset behind the start of its destination once, with
the sample for that offset. -/
theorem pixel?_drawImage (hwidth : canvas.width < 2 ^ 31) (hheight : canvas.height < 2 ^ 31)
    (hx : x < canvas.width) (hy : y < canvas.height) {bounds : Rect} (hrange : bounds.InRange)
    (image : Image) :
    (canvas.drawImage bounds image).pixel? x y =
      (canvas.pixel? x y).map (·.beneath ((Command.drawImage bounds image).colorAt? x y)) := by
  have hcolumn := isRoundFor_offset hrange.isCoordinate_x hrange.width_le
    (Int.natCast_nonneg x) (by rw [coordinateMax]; omega)
  have hrow := isRoundFor_offset hrange.isCoordinate_y hrange.height_le
    (Int.natCast_nonneg y) (by rw [coordinateMax]; omega)
  rw [drawImage]
  split
  · next hnothing =>
    have hcolor : (Command.drawImage bounds image).colorAt? x y = none := by
      by_contra hcolor
      obtain ⟨dx, dy, hdx, hdy, hsample⟩ := Command.exists_offsets_of_colorAt? hcolor
      have hdx := (offsetWithin?_eq_some_iff.1 hdx).2.1
      have hdy := (offsetWithin?_eq_some_iff.1 hdy).2.1
      have hin := Image.isSome_pixel?_iff.1 (Option.isSome_iff_ne_none.2 hsample)
      simp only [Rect.isEmpty, Bool.or_eq_true, beq_iff_eq] at hnothing
      omega
    rw [hcolor]
    exact Option.map_id'.symm
  · refine (pixel?_loop_loop_of_rounds hcolumn hrow
      (fun canvas dx dy => pixel?_match_blend canvas
        (image.pixel? (sampleAt dx.toNat bounds.width image.width)
          (sampleAt dy.toNat bounds.height image.height)) _ _ x y) canvas).trans ?_
    simp only [Command.colorAt?, Image.scaledPixel?, Option.bind_map]
    rfl

theorem sameSize_paint (canvas : Canvas) (command : Command) :
    canvas.SameSize (canvas.paint command) := by
  cases command with
  | fillRect bounds color =>
    show canvas.SameSize (canvas.fillRect bounds color)
    exact sameSize_loop_loop (fun canvas x y => canvas.sameSize_blend x y color) canvas
  | fillCircle centerX centerY radius color =>
    show canvas.SameSize (canvas.fillCircle centerX centerY radius color)
    refine sameSize_loop_loop ?_ canvas
    intro canvas dx dy
    split
    · exact canvas.sameSize_blend _ _ _
    · exact .refl canvas
  | drawText bounds run => exact .refl canvas
  | drawImage bounds image =>
    show canvas.SameSize (canvas.drawImage bounds image)
    rw [drawImage]
    split
    · exact .refl canvas
    · refine sameSize_loop_loop ?_ canvas
      intro canvas dx dy
      split
      · exact .refl canvas
      · exact canvas.sameSize_blend _ _ _

/-- A command blends its color over every pixel of a canvas once, where it has one. -/
theorem pixel?_paint {command : Command} (hrange : command.DrawsInRange)
    (hwidth : canvas.width < 2 ^ 31) (hheight : canvas.height < 2 ^ 31) (x y : ℕ) :
    (canvas.paint command).pixel? x y =
      (canvas.pixel? x y).map (·.beneath (command.colorAt? x y)) := by
  by_cases hin : x < canvas.width ∧ y < canvas.height
  · obtain ⟨hx, hy⟩ := hin
    cases command with
    | fillRect bounds color => exact pixel?_fillRect hwidth hheight hx hy bounds color
    | fillCircle centerX centerY radius color =>
      exact pixel?_fillCircle hwidth hheight hx hy centerX centerY radius color
    | drawText bounds run => exact Option.map_id'.symm
    | drawImage bounds image => exact pixel?_drawImage hwidth hheight hx hy hrange image
  · obtain ⟨hwidthEq, hheightEq⟩ := canvas.sameSize_paint command
    rw [(pixel?_eq_none_iff canvas x y).2 hin, Option.map_none, pixel?_eq_none_iff, hwidthEq,
      hheightEq]
    exact hin

end Canvas

end BoxFlow
