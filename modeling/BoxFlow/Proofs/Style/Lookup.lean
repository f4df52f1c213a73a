import BoxFlow.Style.Properties

/-!
# Looking properties up

A look-up after a change sees the new value under the changed name and the old values under all
others. Because the names of a block are distinct, applying a block to a style gives every property
the value that the block has for it, and leaves the rest as it was (`Style.get?_apply`).
-/

set_option autoImplicit false

namespace BoxFlow

namespace Block

variable {b : Block} {p : String}

/-- A property that no declaration names has no value. -/
theorem find?_eq_none_of_notMem {ds : List Declaration}
    (h : p ∉ ds.map Declaration.name) : ds.find? (fun d => d.name == p) = none := by
  rw [List.find?_eq_none]
  intro d hd heq
  exact h (beq_iff_eq.1 heq ▸ List.mem_map_of_mem hd)

/-- A look-up answers with the value of a declaration of that name. -/
theorem exists_mem_of_get? {v : String} (h : b.get? p = some v) :
    ∃ d ∈ b.declarations, d.name = p ∧ d.value = v := by
  rw [get?, Option.map_eq_some_iff] at h
  obtain ⟨d, hd, rfl⟩ := h
  exact ⟨d, List.mem_of_find?_eq_some hd, by simpa using List.find?_some hd, rfl⟩

end Block

namespace Style

variable {s : Style} {p : String}

@[simp] theorem get?_empty (p : String) : empty.get? p = none := rfl

/-- A property put among others is found under its own name, and hides none of the others. -/
theorem find?_setIn (name value p : String) (ps : List (String × String)) :
    (setIn name value ps).find? (fun q => q.1 == p) =
      if name = p then some (name, value) else ps.find? (fun q => q.1 == p) := by
  induction ps with
  | nil =>
    by_cases h : name = p <;> simp [setIn, h]
  | cons q qs ih =>
    rw [setIn]
    by_cases hq : q.1 = name
    · rw [if_pos hq]
      by_cases h : name = p
      · simp [h]
      · simp [hq, h]
    · rw [if_neg hq]
      by_cases hlt : name < q.1
      · rw [if_pos hlt]
        by_cases h : name = p <;> simp [h]
      · rw [if_neg hlt, List.find?_cons, List.find?_cons, ih]
        by_cases h : name = p
        · have hqp : (q.1 == p) = false := beq_false_of_ne (h ▸ hq)
          simp [h, hqp]
        · simp [h]

@[simp] theorem get?_set (s : Style) (name value p : String) :
    (s.set name value).get? p = if name = p then some value else s.get? p := by
  rw [get?, set, find?_setIn]
  by_cases h : name = p <;> simp [h, get?]

/-- Setting declarations in turn, when their names are distinct. -/
theorem get?_foldl_set {ds : List Declaration} (h : (ds.map Declaration.name).Nodup) (s : Style)
    (p : String) :
    (ds.foldl (fun s d => s.set d.name d.value) s).get? p =
      ((ds.find? fun d => d.name == p).map Declaration.value).or (s.get? p) := by
  induction ds generalizing s with
  | nil => rfl
  | cons d ds ih =>
    obtain ⟨hd, hds⟩ := List.nodup_cons.1 h
    rw [List.foldl_cons, ih hds, get?_set]
    by_cases hp : d.name = p
    · have hnone : ds.find? (fun d => d.name == p) = none :=
        Block.find?_eq_none_of_notMem (hp ▸ hd)
      simp [hp, hnone]
    · simp [hp]

/-- A property that the block declares takes the value it has there. -/
@[simp] theorem get?_apply (s : Style) (b : Block) (p : String) :
    (s.apply b).get? p = (b.get? p).or (s.get? p) :=
  get?_foldl_set b.distinct s p

theorem value_of_get?_eq_none (h : s.get? p = none) : s.value p = "" := by
  rw [value, h, Option.getD_none]

theorem value_of_get?_eq_some {v : String} (h : s.get? p = some v) : s.value p = v := by
  rw [value, h, Option.getD_some]

end Style

end BoxFlow
