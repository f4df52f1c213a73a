import BoxFlow.Proofs.Paint.Coverage
import Mathlib.Algebra.Group.Nat.Defs

/-!
# Far edges

The far edge of an extent is its start plus its size, up to the largest coordinate. The size itself
is cut down to that coordinate before it is added. This is the same as cutting down the sum alone,
unless the extent starts in front of zero and is larger than any coordinate: then it ends where only
so much of it as a coordinate can count would end (`Rect.farEdge_eq_iff`).

Filling a rectangle goes up to its far edges. So on a canvas whose sides are coordinates, the pixels
between the exact edges are painted, once each, but for those that lie the largest coordinate or
more behind the start (`Canvas.fill_paints_up_to_far_edges`).
-/

set_option autoImplicit false

namespace BoxFlow

namespace Rect

variable {start p : Int} {extent : ℕ}

/-- Whether a pixel lies in the rectangle, by exact sums. -/
def Spans (r : Rect) (x y : Int) : Prop :=
  (r.x ≤ x ∧ x < r.x + r.width) ∧ (r.y ≤ y ∧ y < r.y + r.height)

instance (r : Rect) (x y : Int) : Decidable (r.Spans x y) :=
  inferInstanceAs (Decidable (_ ∧ _))

theorem farEdge_eq_iff :
    farEdge start extent = min (start + extent) coordinateMax ↔
      0 ≤ start ∨ (extent : Int) ≤ coordinateMax := by
  rw [farEdge]
  omega

/-- Where the far edge is not that of the exact sum, it is too early. -/
theorem farEdge_of_oversized (hstart : start < 0) (hextent : coordinateMax < extent) :
    farEdge start extent = start + coordinateMax := by
  rw [farEdge]
  omega

/-- What lies in front of the far edge, of the places in front of the largest coordinate. -/
theorem lt_farEdge_iff_lt_sums (hp : p < coordinateMax) :
    p < farEdge start extent ↔ p < start + extent ∧ p < start + coordinateMax := by
  rw [farEdge]
  omega

theorem covers_iff_spans {r : Rect} {x y : Int} (hx : x < coordinateMax) (hy : y < coordinateMax) :
    r.covers x y ↔ r.Spans x y ∧ x < r.x + coordinateMax ∧ y < r.y + coordinateMax := by
  simp only [covers, Spans, right, bottom, Bool.and_eq_true, decide_eq_true_eq,
    lt_farEdge_iff_lt_sums hx, lt_farEdge_iff_lt_sums hy]
  tauto

/-- A rectangle with the right far edges covers what it spans. -/
theorem covers_iff_spans_of_exact {r : Rect} {x y : Int} (hx : x < coordinateMax)
    (hy : y < coordinateMax) (hcolumns : 0 ≤ r.x ∨ (r.width : Int) ≤ coordinateMax)
    (hrows : 0 ≤ r.y ∨ (r.height : Int) ≤ coordinateMax) : r.covers x y ↔ r.Spans x y := by
  rw [covers_iff_spans hx hy]
  refine and_iff_left_of_imp ?_
  rintro ⟨hcolumn, hrow⟩
  omega

end Rect

namespace Canvas

variable {canvas : Canvas} {r : Rect}

/-- Filling paints each pixel that the rectangle covers once. On a canvas whose sides are
coordinates it is enough to know what it covers in front of the largest coordinate. -/
theorem pixel?_paint_fillRect_of_covers_iff (hwidth : canvas.width < 2 ^ 31)
    (hheight : canvas.height < 2 ^ 31) {area : Int → Int → Prop} [∀ x y, Decidable (area x y)]
    (harea : ∀ x y : Int, x < coordinateMax → y < coordinateMax → (r.covers x y ↔ area x y))
    (color : Color) (x y : ℕ) :
    (canvas.paint (.fillRect r color)).pixel? x y =
      if area x y then (canvas.pixel? x y).map color.paintedOver else canvas.pixel? x y := by
  have hrange : (Command.fillRect r color).DrawsInRange := trivial
  rw [pixel?_paint hrange hwidth hheight, Command.colorAt?]
  by_cases hin : x < canvas.width ∧ y < canvas.height
  · have hx : (x : Int) < coordinateMax := by rw [coordinateMax]; omega
    have hy : (y : Int) < coordinateMax := by rw [coordinateMax]; omega
    simp only [harea x y hx hy]
    split
    · rfl
    · exact Option.map_id'
  · rw [(pixel?_eq_none_iff canvas x y).2 hin, Option.map_none, Option.map_none, ite_self]

/-- The far edges of a rectangle are the exact sums, up to the largest coordinate, exactly if no
extent starts in front of zero and is larger than any coordinate; the edge of such an extent is the
largest coordinate behind its start. Filling paints the pixels of a canvas between the exact edges
and in front of these, once each, and leaves the others as they are. So it paints those between the
exact edges whenever the far edges are right. -/
theorem fill_paints_up_to_far_edges (r : Rect) :
    ((r.right = min (r.x + r.width) coordinateMax ↔
        ¬ (r.x < 0 ∧ coordinateMax < r.width)) ∧
      (r.x < 0 ∧ coordinateMax < r.width → r.right = r.x + coordinateMax)) ∧
    ((r.bottom = min (r.y + r.height) coordinateMax ↔
        ¬ (r.y < 0 ∧ coordinateMax < r.height)) ∧
      (r.y < 0 ∧ coordinateMax < r.height → r.bottom = r.y + coordinateMax)) ∧
    ∀ (canvas : Canvas) (color : Color), canvas.width < 2 ^ 31 → canvas.height < 2 ^ 31 →
      (∀ x y : ℕ, (canvas.paint (.fillRect r color)).pixel? x y =
        if r.Spans x y ∧ x < r.x + coordinateMax ∧ y < r.y + coordinateMax then
          (canvas.pixel? x y).map color.paintedOver
        else canvas.pixel? x y) ∧
      (r.right = min (r.x + r.width) coordinateMax →
        r.bottom = min (r.y + r.height) coordinateMax →
        ∀ x y : ℕ, (canvas.paint (.fillRect r color)).pixel? x y =
          if r.Spans x y then (canvas.pixel? x y).map color.paintedOver
          else canvas.pixel? x y) := by
  have hright : r.right = min (r.x + r.width) coordinateMax ↔
      ¬ (r.x < 0 ∧ coordinateMax < r.width) := by
    rw [Rect.right, Rect.farEdge_eq_iff]
    omega
  have hbottom : r.bottom = min (r.y + r.height) coordinateMax ↔
      ¬ (r.y < 0 ∧ coordinateMax < r.height) := by
    rw [Rect.bottom, Rect.farEdge_eq_iff]
    omega
  refine ⟨⟨hright, fun h => Rect.farEdge_of_oversized h.1 h.2⟩,
    ⟨hbottom, fun h => Rect.farEdge_of_oversized h.1 h.2⟩, ?_⟩
  intro canvas color hwidth hheight
  refine ⟨fun x y => pixel?_paint_fillRect_of_covers_iff hwidth hheight
    (fun _ _ => Rect.covers_iff_spans) color x y, ?_⟩
  intro hexactRight hexactBottom x y
  rw [Rect.right, Rect.farEdge_eq_iff] at hexactRight
  rw [Rect.bottom, Rect.farEdge_eq_iff] at hexactBottom
  refine pixel?_paint_fillRect_of_covers_iff hwidth hheight ?_ color x y
  intro column row hcolumn hrow
  exact Rect.covers_iff_spans_of_exact hcolumn hrow hexactRight hexactBottom

/-- A rectangle that starts far in front of the canvas and spans all of it is cut off behind the
first column. -/
theorem fill_paints_up_to_far_edges_of_oversized :
    let r : Rect := ⟨-2147483646, 0, 4294967295, 1⟩
    let filled := (blank 2 1).paint (.fillRect r .black)
    (r.x < 0 ∧ coordinateMax < r.width) ∧ (blank 2 1).width < 2 ^ 31 ∧ (blank 2 1).height < 2 ^ 31 ∧
      r.right = 1 ∧ filled.pixel? 0 0 = some .black ∧ filled.pixel? 1 0 = some .white := by
  intro r filled
  have hoversized : r.x < 0 ∧ coordinateMax < r.width := by decide
  have hwidth : (blank 2 1).width < 2 ^ 31 := by decide
  have hheight : (blank 2 1).height < 2 ^ 31 := by decide
  obtain ⟨⟨-, hright⟩, -, hpaint⟩ := fill_paints_up_to_far_edges r
  obtain ⟨hpixel, -⟩ := hpaint (blank 2 1) .black hwidth hheight
  refine ⟨hoversized, hwidth, hheight, hright hoversized, (hpixel 0 0).trans ?_,
    (hpixel 1 0).trans ?_⟩
  · rw [if_pos (by decide)]
    rfl
  · rw [if_neg (by decide)]
    rfl

/-- A rectangle from the smallest coordinate on, as wide as can be, spans the canvas up to the
largest coordinate, but its right edge is in front of zero and nothing is painted. -/
theorem oversized_fill_paints_nothing :
    let r : Rect := ⟨coordinateMin, 0, 4294967295, 1⟩
    min (r.x + r.width) coordinateMax = 2147483647 ∧ r.right = -1 ∧ r.Spans 0 0 ∧
      ((blank 2 1).paint (.fillRect r .black)).pixel? 0 0 = some .white := by
  intro r
  have hwidth : (blank 2 1).width < 2 ^ 31 := by decide
  have hheight : (blank 2 1).height < 2 ^ 31 := by decide
  have hrange : (Command.fillRect r .black).DrawsInRange := trivial
  refine ⟨by decide, by decide, by decide, ?_⟩
  rw [pixel?_paint hrange hwidth hheight]
  rfl

end Canvas

end BoxFlow
