import BoxFlow.Number.Rounding
import Mathlib.Data.Prod.Lex
import Mathlib.Order.Compare

/-!
# The order of floats

Every float but not-a-number has a rank, and two floats compare as their ranks do
(`compare_eq_rank`). Ranks are linearly ordered, so what holds of comparisons in a linear order
holds of floats that have a rank: a float above another one is not at most that one
(`not_le_of_lt32`), and the larger of two floats is above what one of them is above
(`lt_max32_iff`).
-/

set_option autoImplicit false

namespace BoxFlow

open Float.Model

/-- By the sign and whether it is infinite, then by exponent and mantissa; of two negative numbers
the one with the greater magnitude comes first. The two zeros have one rank. -/
def rank? : UnpackedFloat → Option (ℤ ×ₗ ℤ ×ₗ ℤ)
  | .notANumber => none
  | .infinity .negative => some (toLex (-2, toLex (0, 0)))
  | .finite .negative m e _ => some (toLex (-1, toLex (-e, -m)))
  | .zero _ => some (toLex (0, toLex (0, 0)))
  | .finite .positive m e _ => some (toLex (1, toLex (e, m)))
  | .infinity .positive => some (toLex (2, toLex (0, 0)))

/-- The rank of a float, which not-a-number does not have. -/
def rank32? (x : Float32) : Option (ℤ ×ₗ ℤ ×ₗ ℤ) := rank? x.toModel.unpack

theorem compare_neg_neg (a b : ℤ) : compare (-a) (-b) = (compare a b).swap := by
  have hanti : StrictAnti fun n : ℤ => -n := fun _ _ h => Int.neg_lt_neg h
  have hcmp := hanti.cmp_map_eq a b
  rwa [cmp_eq_compare, cmp_eq_compare, Std.OrientedOrd.eq_swap (a := b)] at hcmp

theorem compare_cast_cast (m n : ℕ) : compare (m : ℤ) (n : ℤ) = compare m n := by
  have hmono : StrictMono fun n : ℕ => (n : ℤ) := fun _ _ h => Int.ofNat_lt.2 h
  have hcmp := hmono.cmp_map_eq m n
  rwa [cmp_eq_compare, cmp_eq_compare] at hcmp

theorem compare_toLex_of_fst_eq (n a b c d : ℤ) :
    compare (toLex (n, toLex (a, b))) (toLex (n, toLex (c, d))) =
      (compare a c).then (compare b d) := by
  simp [Prod.Lex.compare_def, compareLex, compareOn]

/-- Two floats compare as their ranks do, and not at all if one of them has none. -/
theorem compare_eq_rank (a b : UnpackedFloat) :
    a.compare b = (rank? a).bind fun r => (rank? b).map fun s => compare r s := by
  rcases a with (_ | _) | _ | _ | ⟨(_ | _), m₁, e₁, _⟩
  all_goals rcases b with (_ | _) | _ | _ | ⟨(_ | _), m₂, e₂, _⟩
  -- only numbers of one sign are compared by exponent and mantissa
  case finite.negative.finite.negative =>
    have hrank := compare_toLex_of_fst_eq (-1) (-e₁) (-m₁) (-e₂) (-m₂)
    rw [compare_neg_neg, compare_neg_neg, compare_cast_cast, ← Ordering.swap_then] at hrank
    exact congrArg some hrank.symm
  case finite.positive.finite.positive =>
    have hrank := compare_toLex_of_fst_eq 1 e₁ m₁ e₂ m₂
    rw [compare_cast_cast] at hrank
    exact congrArg some hrank.symm
  all_goals rfl

variable {x y z : Float32}

theorem lt_iff_rank32 : x < y ↔ ∃ r ∈ rank32? x, ∃ s ∈ rank32? y, r < s := by
  show decide (x.toModel < y.toModel) = true ↔ _
  rw [decide_eq_true_iff]
  show (x.toModel.unpack.compare y.toModel.unpack == some .lt) = true ↔ _
  rw [compare_eq_rank, rank32?, rank32?]
  cases rank? x.toModel.unpack <;> cases rank? y.toModel.unpack <;> simp [compare_lt_iff_lt]

theorem le_iff_rank32 : x ≤ y ↔ ∃ r ∈ rank32? x, ∃ s ∈ rank32? y, r ≤ s := by
  have hle : ∀ r s : ℤ ×ₗ ℤ ×ₗ ℤ, (compare r s).isLE = true ↔ r ≤ s := by
    intro r s
    rw [Ordering.isLE_iff_ne_gt]
    exact compare_le_iff_le
  show decide (x.toModel ≤ y.toModel) = true ↔ _
  rw [decide_eq_true_iff]
  show (x.toModel.unpack.compare y.toModel.unpack).any (·.isLE) = true ↔ _
  rw [compare_eq_rank, rank32?, rank32?]
  cases rank? x.toModel.unpack <;> cases rank? y.toModel.unpack <;> simp [hle]

theorem isNaN_iff_rank32 : x.isNaN = true ↔ rank32? x = none := by
  show x.toModel.unpack.isNaN = true ↔ rank? x.toModel.unpack = none
  rcases x.toModel.unpack with (_ | _) | _ | _ | ⟨(_ | _), m, e, _⟩
  case notANumber => exact iff_of_true rfl rfl
  all_goals exact iff_of_false Bool.false_ne_true (Option.some_ne_none _)

theorem le_of_lt32 (h : x < y) : x ≤ y := by
  obtain ⟨r, hr, s, hs, hlt⟩ := lt_iff_rank32.1 h
  exact le_iff_rank32.2 ⟨r, hr, s, hs, hlt.le⟩

/-- A float above another one is not at most that one. -/
theorem not_le_of_lt32 (h : x < y) : ¬ y ≤ x := by
  obtain ⟨r, hr, s, hs, hlt⟩ := lt_iff_rank32.1 h
  intro hle
  obtain ⟨s', hs', r', hr', hle⟩ := le_iff_rank32.1 hle
  obtain rfl := Option.mem_unique hr hr'
  obtain rfl := Option.mem_unique hs hs'
  exact absurd hle (not_le_of_gt hlt)

theorem not_lt_of_isNaN (hx : x.isNaN = true) : ¬ z < x := by
  intro hlt
  obtain ⟨r, -, s, hs, -⟩ := lt_iff_rank32.1 hlt
  rw [isNaN_iff_rank32.1 hx] at hs
  cases hs

/-- What is above a float is above what the float is not below. -/
theorem lt_of_lt_of_not_lt32 (hx : x.isNaN ≠ true) (h : z < y) (hxy : ¬ x < y) : z < x := by
  obtain ⟨r, hr⟩ := Option.ne_none_iff_exists'.1 fun hnone => hx (isNaN_iff_rank32.2 hnone)
  obtain ⟨q, hq, s, hs, hlt⟩ := lt_iff_rank32.1 h
  have hle : s ≤ r := by
    by_contra hrs
    exact hxy (lt_iff_rank32.2 ⟨r, hr, s, hs, not_le.1 hrs⟩)
  exact lt_iff_rank32.2 ⟨q, hq, r, hr, lt_of_lt_of_le hlt hle⟩

/-- The larger of two floats is above what one of them is above. -/
theorem lt_max32_iff : z < max32 x y ↔ z < x ∨ z < y := by
  rw [max32]
  split
  · next hx => exact (or_iff_right (not_lt_of_isNaN hx)).symm
  · next hx =>
    split
    · next hy => exact (or_iff_left (not_lt_of_isNaN hy)).symm
    · next hy =>
      split
      · next hlt =>
        apply (or_iff_right_of_imp _).symm
        exact fun hz => lt_of_lt_of_not_lt32 hy hz fun hyx => not_le_of_lt32 hlt (le_of_lt32 hyx)
      · next hlt =>
        apply (or_iff_left_of_imp _).symm
        exact fun hz => lt_of_lt_of_not_lt32 hx hz hlt

end BoxFlow
