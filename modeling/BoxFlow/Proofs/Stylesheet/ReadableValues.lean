import BoxFlow.Proofs.Stylesheet.InlineValues
import BoxFlow.Proofs.Stylesheet.Reachable

/-!
# Readable values

The values in a sheet are acceptable for their properties, and a shorthand with one longhand for
each side never stands without all four of them: it is declared only with a value whose tokens are
acceptable for the longhands (`Value.isValid_longhand`). Both hold of any look-up that prefers one
such block to another (`Readable.or`), so of everything that readings and merges lead to
(`Stylesheet.Reachable.readable`).
-/

set_option autoImplicit false

namespace BoxFlow

/-! ## Values of shorthands and of longhands -/

/-- Whether a value can be read as that part of a border. -/
def BorderPart.accepts : BorderPart → String → Bool
  | .width => Value.isBorderWidth
  | .style => Length.isBorderStyle
  | .color => Value.isColor

/-- The property for one part of the border on all sides. -/
def BorderPart.shared (part : BorderPart) : String := "border-" ++ part.name

namespace Value

theorem isValid_border (side : Side) (part : BorderPart) (v : String) :
    isValid (side.border part) v = part.accepts v := by
  cases side <;> cases part <;> rfl

theorem isValid_shared (part : BorderPart) (v : String) :
    isValid part.shared v = allTokens part.accepts v := by
  cases part <;> rfl

theorem isValid_margin (side : Side) (v : String) : isValid side.margin v = true := by
  cases side <;> rfl

theorem isValid_padding (side : Side) (v : String) : isValid side.padding v = true := by
  cases side <;> rfl

end Value

namespace Shorthand

variable {name : String} {longhand : Side → String}

/-- The shorthands with one longhand for each side: a part of the border, margin and padding. -/
theorem perSide_cases (h : ofName? name = some (perSide longhand)) :
    (∃ part : BorderPart, name = part.shared ∧ longhand = fun side => side.border part) ∨
      (name = "margin" ∧ longhand = Side.margin) ∨
      (name = "padding" ∧ longhand = Side.padding) := by
  unfold ofName? at h
  split at h <;> cases h
  · exact Or.inl ⟨.color, rfl, rfl⟩
  · exact Or.inl ⟨.style, rfl, rfl⟩
  · exact Or.inl ⟨.width, rfl, rfl⟩
  · exact Or.inr (Or.inl ⟨rfl, rfl⟩)
  · exact Or.inr (Or.inr ⟨rfl, rfl⟩)

theorem ofName?_shared (part : BorderPart) :
    ofName? part.shared = some (perSide fun side => side.border part) := by
  cases part <;> rfl

/-- The properties that belong to one side are no shorthands themselves. -/
theorem ofName?_border (side : Side) (part : BorderPart) : ofName? (side.border part) = none := by
  cases side <;> cases part <;> rfl

theorem ofName?_longhand (h : ofName? name = some (perSide longhand)) (side : Side) :
    ofName? (longhand side) = none := by
  rcases perSide_cases h with ⟨part, -, rfl⟩ | ⟨-, rfl⟩ | ⟨-, rfl⟩
  · exact ofName?_border side part
  · cases side <;> rfl
  · cases side <;> rfl

end Shorthand

/-- The tokens of an acceptable value of a shorthand are acceptable on every side. -/
theorem Value.isValid_longhand {name v t : String} {longhand : Side → String}
    (h : Shorthand.ofName? name = some (.perSide longhand)) (hv : isValid name v)
    (ht : t ∈ tokens v) (side : Side) : isValid (longhand side) t := by
  rcases Shorthand.perSide_cases h with ⟨part, rfl, rfl⟩ | ⟨-, rfl⟩ | ⟨-, rfl⟩
  · rw [isValid_shared, allTokens, Bool.and_eq_true] at hv
    rw [isValid_border]
    exact List.all_eq_true.1 hv.2 t ht
  · exact isValid_margin side t
  · exact isValid_padding side t

/-! ## Look-ups -/

/-- A look-up of properties that gives acceptable values only, and with a shorthand the longhands of
all four sides. -/
structure Readable (get? : String → Option String) : Prop where
  valid : ∀ p v, get? p = some v → Value.isValid p v
  sides : ∀ (p : String) (longhand : Side → String),
    Shorthand.ofName? p = some (.perSide longhand) → (get? p).isSome →
      ∀ side, (get? (longhand side)).isSome

namespace Readable

variable {f g : String → Option String}

theorem none : Readable fun _ => Option.none where
  valid := nofun
  sides := nofun

/-- A look-up that prefers one block to another keeps what both have. -/
theorem or (hf : Readable f) (hg : Readable g) : Readable fun p => (f p).or (g p) where
  valid := by
    intro p v h
    rcases Option.or_eq_some_iff.1 h with h | ⟨-, h⟩
    · exact hf.valid p v h
    · exact hg.valid p v h
  sides := by
    intro p longhand hname h side
    rw [Option.isSome_or, Bool.or_eq_true] at h ⊢
    exact h.imp (hf.sides p longhand hname · side) (hg.sides p longhand hname · side)

end Readable

namespace Block

variable {b : Block} {name value p v : String}

/-- What an acceptable declaration sets is acceptable. -/
theorem acceptable_settings (hvalid : Value.isValid name value) {pair : String × String}
    (hpair : pair ∈ settings name value) : acceptable pair := by
  unfold settings at hpair
  split at hpair
  · obtain rfl := List.mem_singleton.1 hpair
    exact hvalid
  · rcases List.mem_cons.1 hpair with rfl | hpair
    · exact hvalid
    · obtain ⟨side, -, hside⟩ := List.mem_flatMap.1 hpair
      exact List.of_mem_filter hside
  · split at hpair
    · rcases List.mem_cons.1 hpair with rfl | hpair
      · exact hvalid
      · exact List.of_mem_filter hpair
    · exact absurd hpair List.not_mem_nil

/-- Apart from the declared property itself, no shorthand is set. -/
theorem eq_of_mem_settings {pair : String × String} (hpair : pair ∈ settings name value)
    {shorthand : Shorthand} (h : Shorthand.ofName? pair.1 = some shorthand) :
    pair = (name, value) := by
  -- everything else that is set is a longhand of one side
  unfold settings at hpair
  split at hpair
  · exact List.mem_singleton.1 hpair
  · rcases List.mem_cons.1 hpair with heq | hpair
    · exact heq
    · obtain ⟨side, -, hside⟩ := List.mem_flatMap.1 hpair
      obtain ⟨token, -, rfl⟩ := List.mem_map.1 (List.mem_of_mem_filter hside)
      rw [Shorthand.ofName?_border] at h
      cases h
  · next hname =>
    split at hpair
    · rcases List.mem_cons.1 hpair with heq | hpair
      · exact heq
      · obtain ⟨side, -, rfl⟩ := List.mem_map.1 (List.mem_of_mem_filter hpair)
        rw [Shorthand.ofName?_longhand hname] at h
        cases h
    · exact absurd hpair List.not_mem_nil

/-- With a shorthand the longhands of all four sides are set. -/
theorem sides_settings {longhand : Side → String}
    (h : Shorthand.ofName? p = some (.perSide longhand)) (hvalid : Value.isValid name value)
    (hpair : (p, v) ∈ settings name value) (side : Side) :
    ∃ v', (longhand side, v') ∈ settings name value := by
  obtain ⟨rfl, rfl⟩ := Prod.mk.inj (eq_of_mem_settings hpair h)
  rw [settings, h] at hpair ⊢
  cases hvalues : Sides.ofList? (Value.tokens v) with
  | none =>
    -- with no or too many values, nothing is set
    rw [hvalues] at hpair
    exact absurd hpair List.not_mem_nil
  | some values =>
    have hvalue : Value.isValid (longhand side) (values.get side) :=
      Value.isValid_longhand h hvalid (Sides.get_mem_of_ofList? hvalues side) side
    have hside : side ∈ Side.all := by cases side <;> decide
    refine ⟨values.get side, List.mem_cons_of_mem _ (List.mem_filter.2 ⟨?_, hvalue⟩)⟩
    exact List.mem_map.2 ⟨side, hside, rfl⟩

theorem mem_of_get?_setAll {pairs : List (String × String)}
    (h : (empty.setAll pairs).get? p = some v) : (p, v) ∈ pairs := by
  have hnone : empty.get? p = none := rfl
  rw [get?_setAll, hnone, Option.or_none, Option.map_eq_some_iff] at h
  obtain ⟨pair, hpair, rfl⟩ := h
  have heq := List.find?_some hpair
  rw [decide_eq_true_eq] at heq
  exact heq ▸ List.mem_reverse.1 (List.mem_of_find?_eq_some hpair)

theorem isSome_get?_setAll {pairs : List (String × String)} (h : (p, v) ∈ pairs) :
    ((empty.setAll pairs).get? p).isSome := by
  have hnone : empty.get? p = none := rfl
  rw [get?_setAll, hnone, Option.or_none, Option.isSome_map, List.find?_isSome]
  exact ⟨(p, v), List.mem_reverse.2 h, decide_eq_true rfl⟩

/-- The declarations of a rule body are readable. -/
theorem readable_bodySettings (body : List Char) :
    Readable (empty.setAll (bodySettings body)).get? where
  valid := by
    intro p v h
    obtain ⟨d, hd, hpair⟩ := List.mem_flatMap.1 (mem_of_get?_setAll h)
    exact acceptable_settings (List.mem_filter.1 hd).2 hpair
  sides := by
    intro p longhand hname h side
    obtain ⟨v, hv⟩ := Option.isSome_iff_exists.1 h
    obtain ⟨d, hd, hpair⟩ := List.mem_flatMap.1 (mem_of_get?_setAll hv)
    obtain ⟨v', hv'⟩ := sides_settings hname (List.mem_filter.1 hd).2 hpair side
    exact isSome_get?_setAll (List.mem_flatMap.2 ⟨d, hd, hv'⟩)

end Block

/-! ## Sheets -/

namespace Stylesheet

variable {sheet : Stylesheet}

/-- The block of every rule is readable. -/
theorem Reachable.readable (h : sheet.Reachable) :
    ∀ r ∈ sheet.rules, Readable r.declarations.get? := by
  refine h.forall_rules (P := fun r => Readable r.declarations.get?) ?_ ?_
  · intro r r' hr hr'
    have hget : (Rule.keyed.combine r r').declarations.get? = fun p =>
        (r'.declarations.get? p).or (r.declarations.get? p) :=
      funext (Block.get?_extend r.declarations r'.declarations)
    exact hget ▸ hr'.or hr
  · intro source w hw
    obtain ⟨block, _, -, -, -, hsettings⟩ := exists_block_of_mem_writtenRules hw
    rw [WrittenRule.toRule, hsettings]
    exact Block.readable_bodySettings block.body

end Stylesheet

end BoxFlow
