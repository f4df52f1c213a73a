import BoxFlow.Proofs.Stylesheet.KeyedList
import BoxFlow.Stylesheet.Basic

/-!
# Blocks and sheets as keyed lists

A block keeps one declaration for each property, a sheet one rule for each selector text, and both
put new entries as keyed lists do: a declaration takes the new value, a rule extends its block. So
extending a block by another, and merging a sheet into another, are associative
(`Block.extend_assoc`, `Stylesheet.rules_merge` with `Keyed.putAll_assoc`), and a property has the
value of the later block that declares it (`Block.get?_extend`).
-/

set_option autoImplicit false

namespace BoxFlow

/-! ## Blocks -/

/-- Declarations are told apart by their names, and the later value counts. -/
def Declaration.keyed : Keyed Declaration String where
  key := Declaration.name
  combine d e := { d with value := e.value }
  key_combine _ _ := rfl
  combine_assoc _ _ _ := rfl

namespace Block

variable {a b c : Block}

theorem setIn_eq_put (name value : String) (ds : List Declaration) :
    setIn name value ds = Declaration.keyed.put ⟨name, value⟩ ds := by
  induction ds with
  | nil => rfl
  | cons d ds ih =>
    rw [setIn]
    split
    · next h =>
      rw [Keyed.put_cons_of_eq h]
      simp [Declaration.keyed, h]
    · next h => rw [Keyed.put_cons_of_ne h, ih]

theorem declarations_set (b : Block) (name value : String) :
    (b.set name value).declarations = Declaration.keyed.put ⟨name, value⟩ b.declarations :=
  setIn_eq_put name value b.declarations

theorem ext_declarations (h : a.declarations = b.declarations) : a = b := by
  cases a
  cases b
  cases h
  rfl

theorem declarations_extend (a b : Block) :
    (a.extend b).declarations = Declaration.keyed.putAll a.declarations b.declarations := by
  rw [extend]
  generalize b.declarations = ds
  induction ds generalizing a with
  | nil => rfl
  | cons d ds ih => rw [List.foldl_cons, ih, declarations_set]; rfl

/-- The properties of a block are the keys of its declarations. -/
theorem nodup_keys (b : Block) : (Declaration.keyed.keys b.declarations).Nodup := b.distinct

theorem extend_assoc (a b c : Block) : (a.extend b).extend c = a.extend (b.extend c) := by
  apply ext_declarations
  simp only [declarations_extend]
  exact (Keyed.putAll_assoc b.nodup_keys _ _).symm

@[simp] theorem empty_extend (b : Block) : empty.extend b = b := by
  apply ext_declarations
  rw [declarations_extend]
  exact Keyed.putAll_eq_append b.nodup_keys

theorem get?_eq_find? (b : Block) (p : String) :
    b.get? p = (Declaration.keyed.find? p b.declarations).map Declaration.value := by
  rw [get?, Keyed.find?]
  congr 2

@[simp] theorem get?_set (b : Block) (name value p : String) :
    (b.set name value).get? p = if name = p then some value else b.get? p := by
  rw [get?_eq_find?, get?_eq_find?, declarations_set, Keyed.find?_put]
  by_cases h : name = p
  · rw [if_pos h, if_pos (show Declaration.keyed.key ⟨name, value⟩ = p from h)]
    cases Declaration.keyed.find? p b.declarations <;> rfl
  · rw [if_neg h, if_neg (show ¬ Declaration.keyed.key ⟨name, value⟩ = p from h)]

/-- A property has the value of the second block if that declares it, else that of the first. -/
theorem get?_extend (a b : Block) (p : String) :
    (a.extend b).get? p = (b.get? p).or (a.get? p) := by
  simp only [get?_eq_find?, declarations_extend, Keyed.find?_putAll b.nodup_keys]
  cases hb : Declaration.keyed.find? p b.declarations with
  | none => rfl
  | some d =>
    cases ha : Declaration.keyed.find? p a.declarations <;> rfl

end Block

/-! ## Sheets -/

/-- Rules are told apart by their selector texts, and the earlier one is extended. -/
def Rule.keyed : Keyed Rule String where
  key := Rule.text
  combine r r' := { r with declarations := r.declarations.extend r'.declarations }
  key_combine _ _ := rfl
  combine_assoc r r' r'' := by simp only [Block.extend_assoc]

namespace Stylesheet

theorem ext_rules {a b : Stylesheet} (h : a.rules = b.rules) : a = b := by
  cases a
  cases b
  cases h
  rfl

theorem rules_declare (sheet : Stylesheet) (text : String) (selector : Selector)
    (declarations : Block) :
    (sheet.declare text selector declarations).rules =
      Rule.keyed.put ⟨text, selector, declarations⟩ sheet.rules := by
  rw [declare]
  generalize sheet.rules = rules
  induction rules with
  | nil => simp [declareIn, Keyed.put]
  | cons r rules ih =>
    simp only at ih ⊢
    rw [declareIn]
    split
    · next h => rw [Keyed.put_cons_of_eq h]; rfl
    · next h => rw [Keyed.put_cons_of_ne h, ih]

theorem rules_merge (sheet other : Stylesheet) :
    (sheet.merge other).rules = Rule.keyed.putAll sheet.rules other.rules := by
  rw [merge]
  generalize other.rules = rules
  induction rules generalizing sheet with
  | nil => rfl
  | cons r rules ih => rw [List.foldl_cons, ih, rules_declare]; rfl

end Stylesheet

end BoxFlow
