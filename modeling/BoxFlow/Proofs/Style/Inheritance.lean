import BoxFlow.Cascade.Inherit
import BoxFlow.Proofs.Style.Lookup

/-!
# What inheritance does to one property

Inheritance and the keywords of a style attribute both walk over the inherited properties and take
some of them over from the parent. The walk decides about a property by its own value only, and
changes no other property on the way, so its effect on one property does not depend on the order
(`Style.get?_takeOverWhere`).
-/

set_option autoImplicit false

namespace BoxFlow

theorem inheritedProperties_nodup : inheritedProperties.Nodup := by decide

/-- The value of a property after inheritance: that of the parent if the property is inherited, the
own value is missing, blank or an inheritance keyword, and the parent has one. -/
def inheritedValue (p : String) (parent own : Option String) : Option String :=
  if p ∈ inheritedProperties ∧ own.all (takesParentValue p) ∧ parent.isSome then parent else own

/-- The value of a property after a style attribute that gives `inline` to it: an inheritance
keyword on an inherited property stands for the value of a parent that has one. -/
def inlineValue (p : String) (parent inline own : Option String) : Option String :=
  match inline with
  | none => own
  | some value =>
    if p ∈ inheritedProperties ∧ isInheritanceKeyword p value ∧ parent.isSome then parent
    else some value

@[simp] theorem inlineValue_none (p : String) (parent own : Option String) :
    inlineValue p parent none own = own := rfl

/-- An inheritance keyword is not the empty text. -/
theorem isInheritanceKeyword_empty (p : String) : isInheritanceKeyword p "" = false := by
  have h : Text.trimmed "" = "" := by decide
  simp [isInheritanceKeyword, h]

namespace Style

variable {s parent : Style} {p : String}

theorem get?_takeOver_self (s parent : Style) (p : String) :
    (s.takeOver parent p).get? p =
      if (parent.get? p).isSome then parent.get? p else s.get? p := by
  rw [takeOver]
  cases parent.get? p <;> simp

theorem get?_takeOver_of_ne (s parent : Style) {q : String} (h : q ≠ p) :
    (s.takeOver parent q).get? p = s.get? p := by
  rw [takeOver]
  cases parent.get? q <;> simp [h]

/-- A condition on a property that looks at nothing but its value. -/
def IsLocal (condition : Style → String → Bool) : Prop :=
  ∀ (s t : Style) (p : String), s.get? p = t.get? p → condition s p = condition t p

/-- Taking over some of a list of distinct properties, decided one after the other. -/
theorem get?_foldl_takeOver {condition : Style → String → Bool} (hlocal : IsLocal condition)
    (parent : Style) {ps : List String} (hps : ps.Nodup) (s : Style) (p : String) :
    (ps.foldl (fun s q => if condition s q then s.takeOver parent q else s) s).get? p =
      if p ∈ ps ∧ condition s p ∧ (parent.get? p).isSome then parent.get? p else s.get? p := by
  induction ps generalizing s with
  | nil => simp
  | cons q ps ih =>
    obtain ⟨hq, hps⟩ := List.nodup_cons.1 hps
    rw [List.foldl_cons, ih hps]
    by_cases hqp : q = p
    · -- the rest of the walk does not come back to `p`
      subst hqp
      rw [if_neg (fun h => hq h.1)]
      by_cases hc : condition s q
      · rw [if_pos hc, get?_takeOver_self]
        simp [hc]
      · simp [hc]
    · -- the first step leaves `p` alone, and so what the rest decides about it
      have hsame : (if condition s q then s.takeOver parent q else s).get? p = s.get? p := by
        split
        · exact get?_takeOver_of_ne s parent hqp
        · rfl
      rw [hlocal _ s p hsame, hsame]
      simp [Ne.symm hqp]

/-- The effect of taking over on one property. -/
theorem get?_takeOverWhere {condition : Style → String → Bool} (hlocal : IsLocal condition)
    (s parent : Style) (p : String) :
    (s.takeOverWhere parent condition).get? p =
      if p ∈ inheritedProperties ∧ condition s p ∧ (parent.get? p).isSome then parent.get? p
      else s.get? p :=
  get?_foldl_takeOver hlocal parent inheritedProperties_nodup s p

/-- A missing value makes way as a blank one does. -/
theorem takesParentValue_value (s : Style) (p : String) :
    takesParentValue p (s.value p) = (s.get? p).all (takesParentValue p) := by
  cases h : s.get? p with
  | none =>
    rw [value_of_get?_eq_none h]
    simp [takesParentValue, Text.isAllBlank]
  | some v => rw [value_of_get?_eq_some h, Option.all_some]

/-- The inheritance pass, property by property. -/
theorem get?_inherit (s parent : Style) (p : String) :
    (s.inherit parent).get? p = inheritedValue p (parent.get? p) (s.get? p) := by
  have hlocal : IsLocal fun s p => takesParentValue p (s.value p) := by
    intro s t p h
    simp only [value, h]
  rw [inherit, get?_takeOverWhere hlocal, takesParentValue_value, inheritedValue]

/-- A style that declares nothing has the inherited properties of the parent, and no others. -/
theorem get?_inheritedOnly (parent : Style) (p : String) :
    (inheritedOnly parent).get? p = if p ∈ inheritedProperties then parent.get? p else none := by
  rw [inheritedOnly, get?_inherit, get?_empty, inheritedValue]
  by_cases hp : p ∈ inheritedProperties
  · cases parent.get? p <;> simp [hp]
  · simp [hp]

/-- The keyword pass of a style attribute, property by property. -/
theorem get?_resolveInline (s : Style) (inline : Block) (parent : Style) (p : String) :
    (s.resolveInline inline parent).get? p =
      if p ∈ inheritedProperties ∧
          (inline.get? p).any (fun own => own != "" && takesParentValue p own) ∧
          (parent.get? p).isSome then
        parent.get? p
      else s.get? p :=
  get?_takeOverWhere (fun _ _ _ _ => rfl) s parent p

/-- A style attribute, property by property, when no value in it is blank without being empty. -/
theorem get?_resolveInline_apply (s : Style) {inline : Block} (parent : Style) {p : String}
    (hblank : ∀ v, inline.get? p = some v → Text.isAllBlank v.toList → v = "") :
    ((s.apply inline).resolveInline inline parent).get? p =
      inlineValue p (parent.get? p) (inline.get? p) (s.get? p) := by
  rw [get?_resolveInline, get?_apply]
  cases hv : inline.get? p with
  | none => simp
  | some v =>
    have hkeyword : (v != "" && takesParentValue p v) = isInheritanceKeyword p v := by
      by_cases hempty : v = ""
      · subst hempty
        simp [isInheritanceKeyword_empty]
      · have hfull : Text.isAllBlank v.toList = false :=
          Bool.eq_false_iff.2 fun h => hempty (hblank v hv h)
        simp [takesParentValue, hempty, hfull]
    simp [inlineValue, hkeyword]

end Style

end BoxFlow
