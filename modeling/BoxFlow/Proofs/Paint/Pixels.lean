import BoxFlow.Paint.Raster
import Mathlib.Data.List.Nodup
import Mathlib.Data.List.ProdSigma

/-!
# Painting as one pixel sees it

Painting goes through two loops, and each round of the inner one blends a color somewhere or does
nothing. One pixel sees of this only the colors that are blended over it, in the order of the rounds
(`Canvas.pixel?_loop_loop`). Where only one round of each loop reaches the pixel, this is one color
at most (`Canvas.pixel?_loop_loop_of_rounds`).
-/

set_option autoImplicit false

namespace BoxFlow

/-- A color after another one, if there is one, has been painted over it. -/
def Color.beneath (lower : Color) : Option Color → Color
  | none => lower
  | some upper => upper.paintedOver lower

theorem Color.paintedOver_of_invisible {color : Color} (h : color.a = 0) :
    color.paintedOver = id := by
  funext lower
  exact if_pos h

/-! ## Loops -/

/-- The numbers that a loop goes through, in order. -/
def span (low high : Int) : List Int := (List.range (high - low).toNat).map fun k => low + (k : ℕ)

theorem mem_span {low high n : Int} : n ∈ span low high ↔ low ≤ n ∧ n < high := by
  simp only [span, List.mem_map, List.mem_range]
  constructor
  · rintro ⟨k, hk, rfl⟩
    omega
  · rintro ⟨hlow, hhigh⟩
    exact ⟨(n - low).toNat, by omega, by omega⟩

theorem nodup_span (low high : Int) : (span low high).Nodup := by
  refine List.Nodup.map ?_ List.nodup_range
  intro k k' heq
  exact Int.ofNat.inj (Int.add_left_cancel heq)

section Loop

variable {σ : Type} {low high low' high' : Int} {step : σ → Int → σ} {step' : σ → Int → Int → σ}
  {state : σ}

theorem loop_eq_foldl (low high : Int) (step : σ → Int → σ) (state : σ) :
    loop low high step state = (span low high).foldl step state := by
  rw [loop, span, List.foldl_map]
  induction (high - low).toNat with
  | zero => rfl
  | succ n ih => rw [Nat.fold_succ, ih, List.range_succ, List.foldl_append]; rfl

/-- What each round keeps is kept by the loop. -/
theorem loop_keeps {P : σ → Prop} (hstep : ∀ state n, P state → P (step state n))
    (h : P state) : P (loop low high step state) := by
  rw [loop_eq_foldl]
  induction span low high generalizing state with
  | nil => exact h
  | cons n rest ih => exact ih (hstep state n h)

/-- The rounds of two loops, the second within the first: the numbers of both, in order. -/
theorem loop_loop_eq_foldl (state : σ) :
    loop low high (fun state y => loop low' high' (fun state x => step' state x y) state) state =
      (span low high ×ˢ span low' high').foldl (fun state cell => step' state cell.2 cell.1)
        state := by
  have hcells : span low high ×ˢ span low' high' =
      (span low high).flatMap fun y => (span low' high').map (Prod.mk y) := rfl
  simp only [loop_eq_foldl, hcells, List.foldl_flatMap, List.foldl_map]

end Loop

/-! ## One round of a loop -/

/-- Where only one element of a list has an image, the images are that one. -/
theorem filterMap_eq_toList {α β : Type} {l : List α} (hl : l.Nodup) {a? : Option α}
    (hmem : ∀ a, a? = some a → a ∈ l) {f : α → Option β} (hf : ∀ b ∈ l, a? ≠ some b → f b = none) :
    l.filterMap f = (a?.bind f).toList := by
  cases a? with
  | none => exact List.filterMap_eq_nil_iff.2 fun b hb => hf b hb (Option.some_ne_none b).symm
  | some a =>
    obtain ⟨front, back, rfl⟩ := List.append_of_mem (hmem a rfl)
    obtain ⟨-, hback, hfront⟩ := List.nodup_append.1 hl
    have hfront' : front.filterMap f = [] := by
      rw [List.filterMap_eq_nil_iff]
      intro b hb
      refine hf b (List.mem_append_left _ hb) ?_
      rintro ⟨rfl⟩
      exact hfront a hb a List.mem_cons_self rfl
    have hback' : back.filterMap f = [] := by
      rw [List.filterMap_eq_nil_iff]
      intro b hb
      refine hf b (List.mem_append_right _ (List.mem_cons_of_mem a hb)) ?_
      rintro ⟨rfl⟩
      exact (List.nodup_cons.1 hback).1 hb
    rw [List.filterMap_append, List.filterMap_cons, hfront', hback', Option.bind_some]
    cases f a <;> rfl

/-- The round of a loop, if there is one, that reaches a place, where each round reaches its own. -/
def IsRoundFor (low high : Int) (placeOf : Int → Int) (place : Int) (round? : Option Int) : Prop :=
  ∀ n, (low ≤ n ∧ n < high) ∧ placeOf n = place ↔ round? = some n

section Rounds

variable {low high low' high' x y : Int} {columnAt rowAt : Int → Int} {column? row? : Option Int}
  (hcolumn : IsRoundFor low' high' columnAt x column?) (hrow : IsRoundFor low high rowAt y row?)

include hcolumn hrow

theorem mem_rounds_iff (cell : Int × Int) :
    (column?.bind fun dx => row?.map fun dy => (dy, dx)) = some cell ↔
      cell ∈ span low high ×ˢ span low' high' ∧ columnAt cell.2 = x ∧ rowAt cell.1 = y := by
  obtain ⟨dy, dx⟩ := cell
  simp only [Option.bind_eq_some_iff, Option.map_eq_some_iff, Prod.mk.injEq, ← hcolumn _,
    ← hrow _]
  constructor
  · rintro ⟨_, ⟨hdx, hx⟩, _, ⟨hdy, hy⟩, rfl, rfl⟩
    exact ⟨List.mem_product.2 ⟨mem_span.2 hdy, mem_span.2 hdx⟩, hx, hy⟩
  · rintro ⟨hcell, hx, hy⟩
    obtain ⟨hdy, hdx⟩ := List.mem_product.1 hcell
    exact ⟨dx, ⟨mem_span.1 hdx, hx⟩, dy, ⟨mem_span.1 hdy, hy⟩, rfl, rfl⟩

/-- Of the rounds of two loops, at most one is at a column and a row. -/
theorem filterMap_rounds {α : Type} (valueFor : Int → Int → Option α) :
    ((span low high ×ˢ span low' high').filterMap fun cell =>
        if columnAt cell.2 = x ∧ rowAt cell.1 = y then valueFor cell.2 cell.1 else none) =
      (column?.bind fun dx => row?.bind fun dy => valueFor dx dy).toList := by
  have hreached := mem_rounds_iff hcolumn hrow
  have hnodup := (nodup_span low high).product (nodup_span low' high')
  refine (filterMap_eq_toList hnodup (fun cell h => ((hreached cell).1 h).1)
    (fun cell hcell hne => if_neg fun h => hne ((hreached cell).2 ⟨hcell, h⟩))).trans ?_
  cases hdx : column? with
  | none => rfl
  | some dx =>
    cases hdy : row? with
    | none => rfl
    | some dy =>
      have hplace : columnAt dx = x ∧ rowAt dy = y :=
        ⟨((hcolumn dx).2 hdx).2, ((hrow dy).2 hdy).2⟩
      exact congrArg Option.toList (if_pos hplace)

end Rounds

namespace Canvas

variable {canvas : Canvas} {x y : ℕ}

/-! ## One pixel blended -/

@[simp] theorem width_modify (canvas : Canvas) (x y : ℕ) (change : Color → Color) :
    (canvas.modify x y change).width = canvas.width := by
  rw [modify]
  split <;> rfl

@[simp] theorem height_modify (canvas : Canvas) (x y : ℕ) (change : Color → Color) :
    (canvas.modify x y change).height = canvas.height := by
  rw [modify]
  split <;> rfl

/-- Pixels of different columns or rows stand at different places. -/
theorem place_eq_iff {width x y x' y' : ℕ} (hx : x < width) (hx' : x' < width) :
    y * width + x = y' * width + x' ↔ x = x' ∧ y = y' := by
  constructor
  · intro heq
    have hcolumn := congrArg (· % width) heq
    simp only [Nat.mul_add_mod_self_right, Nat.mod_eq_of_lt hx, Nat.mod_eq_of_lt hx'] at hcolumn
    subst hcolumn
    exact ⟨rfl, Nat.eq_of_mul_eq_mul_right (Nat.zero_lt_of_lt hx) (Nat.add_right_cancel heq)⟩
  · rintro ⟨rfl, rfl⟩
    rfl

theorem place_lt {width height x y : ℕ} (hx : x < width) (hy : y < height) :
    y * width + x < width * height := by
  have hrow : (y + 1) * width ≤ height * width := Nat.mul_le_mul_right _ hy
  rw [Nat.add_mul, Nat.one_mul, Nat.mul_comm height] at hrow
  omega

/-- A change of one pixel changes no other. -/
theorem pixel?_modify (canvas : Canvas) (x' y' : ℕ) (change : Color → Color) (x y : ℕ) :
    (canvas.modify x' y' change).pixel? x y =
      if (y', x') = (y, x) then (canvas.pixel? x y).map change else canvas.pixel? x y := by
  rw [pixel?, pixel?, width_modify, height_modify, modify]
  by_cases hin : x < canvas.width ∧ y < canvas.height
  · rw [if_pos hin, if_pos hin]
    by_cases hin' : x' < canvas.width ∧ y' < canvas.height
    · rw [if_pos hin', Array.getElem?_modify]
      have hiff : y' * canvas.width + x' = y * canvas.width + x ↔ (y', x') = (y, x) := by
        rw [place_eq_iff hin'.1 hin.1, Prod.mk.injEq, and_comm]
      simp only [hiff]
    · have hne : (y', x') ≠ (y, x) := by
        rintro heq
        rw [Prod.mk.injEq] at heq
        exact hin' (heq.1 ▸ heq.2 ▸ hin)
      rw [if_neg hin', if_neg hne]
  · simp only [if_neg hin, Option.map_none, ite_self]

/-- There is a pixel exactly at the columns and rows of the canvas. -/
theorem pixel?_eq_none_iff (canvas : Canvas) (x y : ℕ) :
    canvas.pixel? x y = none ↔ ¬ (x < canvas.width ∧ y < canvas.height) := by
  rw [pixel?]
  by_cases hin : x < canvas.width ∧ y < canvas.height
  · have hplace : y * canvas.width + x < canvas.pixels.size :=
      canvas.size_eq ▸ place_lt hin.1 hin.2
    rw [if_pos hin, Array.getElem?_eq_none_iff]
    omega
  · rw [if_neg hin]
    exact iff_of_true rfl hin

/-- Blending reaches one pixel, if it is on the canvas. -/
theorem pixel?_blend (canvas : Canvas) (x' y' : Int) (color : Color) (x y : ℕ) :
    (canvas.blend x' y' color).pixel? x y =
      (canvas.pixel? x y).map (·.beneath (if x' = x ∧ y' = y then some color else none)) := by
  have hnone : (fun lower : Color => lower.beneath none) = id := rfl
  have hsome : (fun lower : Color => lower.beneath (some color)) = color.paintedOver := rfl
  rw [blend]
  split
  · next hskip =>
    split
    · next hreached =>
      -- a pixel is not in front of the canvas, so the color is why it is skipped
      have hinvisible : color.a = 0 := hskip.resolve_right (by omega)
      rw [hsome, Color.paintedOver_of_invisible hinvisible, Option.map_id, id]
    · rw [hnone, Option.map_id, id]
  · next hpaint =>
    rw [pixel?_modify]
    have hiff : (y'.toNat, x'.toNat) = (y, x) ↔ x' = x ∧ y' = y := by
      rw [Prod.mk.injEq]
      omega
    simp only [hiff]
    split
    · rw [hsome]
    · rw [hnone, Option.map_id, id]

/-- So it does where it depends on a condition. -/
theorem pixel?_ite_blend (canvas : Canvas) (condition : Prop) [Decidable condition] (x' y' : Int)
    (color : Color) (x y : ℕ) :
    (if condition then canvas.blend x' y' color else canvas).pixel? x y =
      (canvas.pixel? x y).map (·.beneath
        (if x' = x ∧ y' = y then (if condition then some color else none) else none)) := by
  split
  · exact pixel?_blend canvas x' y' color x y
  · rw [ite_self]
    exact Option.map_id'.symm

/-- So it does where there may be no color. -/
theorem pixel?_match_blend (canvas : Canvas) (color? : Option Color) (x' y' : Int) (x y : ℕ) :
    (match color? with
      | none => canvas
      | some color => canvas.blend x' y' color).pixel? x y =
      (canvas.pixel? x y).map (·.beneath (if x' = x ∧ y' = y then color? else none)) := by
  cases color? with
  | none =>
    rw [ite_self]
    exact Option.map_id'.symm
  | some color => exact pixel?_blend canvas x' y' color x y

/-- Two canvases of the same size. -/
def SameSize (canvas canvas' : Canvas) : Prop :=
  canvas'.width = canvas.width ∧ canvas'.height = canvas.height

theorem SameSize.refl (canvas : Canvas) : canvas.SameSize canvas := ⟨rfl, rfl⟩

theorem SameSize.trans {canvas between after : Canvas} (h : canvas.SameSize between)
    (h' : between.SameSize after) : canvas.SameSize after :=
  ⟨h'.1.trans h.1, h'.2.trans h.2⟩

theorem sameSize_blend (canvas : Canvas) (x y : Int) (color : Color) :
    canvas.SameSize (canvas.blend x y color) := by
  rw [blend]
  split
  · exact ⟨rfl, rfl⟩
  · exact ⟨width_modify _ _ _ _, height_modify _ _ _ _⟩

/-! ## Loops over pixels -/

section Rounds

variable {low high low' high' : Int} {step : Canvas → Int → Int → Canvas}
  {colorFor : Int → Int → Option Color}

theorem sameSize_loop_loop (hstep : ∀ (canvas : Canvas) (column row : Int),
      canvas.SameSize (step canvas column row)) (canvas : Canvas) :
    canvas.SameSize (loop low high (fun canvas row =>
      loop low' high' (fun canvas column => step canvas column row) canvas) canvas) := by
  refine loop_keeps ?_ (.refl canvas)
  intro state row hstate
  refine loop_keeps ?_ hstate
  intro state column hstate
  exact hstate.trans (hstep state column row)

/-- Where each round blends at most one color over a pixel, the loops blend over it the colors of
all rounds, in order. -/
theorem pixel?_loop_loop (hstep : ∀ (canvas : Canvas) (column row : Int),
      (step canvas column row).pixel? x y =
        (canvas.pixel? x y).map (·.beneath (colorFor column row))) (canvas : Canvas) :
    (loop low high (fun canvas row =>
        loop low' high' (fun canvas column => step canvas column row) canvas) canvas).pixel? x y =
      (canvas.pixel? x y).map fun lower =>
        ((span low high ×ˢ span low' high').filterMap fun cell => colorFor cell.2 cell.1).foldl
          (fun lower color => color.paintedOver lower) lower := by
  rw [loop_loop_eq_foldl]
  induction span low high ×ˢ span low' high' generalizing canvas with
  | nil => exact Option.map_id'.symm
  | cons cell cells ih =>
    rw [List.foldl_cons, ih, hstep, Option.map_map]
    congr 1
    funext lower
    simp only [List.filterMap_cons, Function.comp_apply]
    cases colorFor cell.2 cell.1 <;> rfl

/-- Where only one round of each loop reaches the pixel, it takes the color of these two, if they
have one. -/
theorem pixel?_loop_loop_of_rounds {columnAt rowAt : Int → Int} {column? row? : Option Int}
    (hcolumn : IsRoundFor low' high' columnAt x column?) (hrow : IsRoundFor low high rowAt y row?)
    (hstep : ∀ (canvas : Canvas) (dx dy : Int),
      (step canvas dx dy).pixel? x y = (canvas.pixel? x y).map
        (·.beneath (if columnAt dx = x ∧ rowAt dy = y then colorFor dx dy else none)))
    (canvas : Canvas) :
    (loop low high (fun canvas dy =>
        loop low' high' (fun canvas dx => step canvas dx dy) canvas) canvas).pixel? x y =
      (canvas.pixel? x y).map (·.beneath
        (column?.bind fun dx => row?.bind fun dy => colorFor dx dy)) := by
  rw [pixel?_loop_loop hstep, filterMap_rounds hcolumn hrow]
  cases column?.bind fun dx => row?.bind fun dy => colorFor dx dy <;> rfl

end Rounds

end Canvas

end BoxFlow
