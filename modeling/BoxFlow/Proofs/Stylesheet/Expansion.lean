import BoxFlow.Proofs.Stylesheet.ReadableValues

/-!
# What a declaration sets

A declaration sets its own property, and a shorthand also some of its longhands. With one longhand
for each side, the tokens of the value are shared out to the sides (`Value.tokenFor?`), and each
longhand takes its token if the token is acceptable for it (`Block.SetsSides`); a value without
tokens or with more than four sets nothing at all. A border sets the width, the style and the color
of every side that it covers, each to the last acceptable token of this sort (`Block.SetsBorders`).
Nothing else changes, and new properties come behind the others, in the order in which they are
first set (`Block.declare_expands`).
-/

set_option autoImplicit false

namespace BoxFlow

/-! ## Shorthands -/

namespace Shorthand

variable {name : String} {longhand : Side → String} {sides : List Side}

/-- The properties with one longhand for each side, and these longhands. -/
inductive IsPerSide : String → (Side → String) → Prop
  | border (part : BorderPart) :
      IsPerSide ("border-" ++ part.name) fun side => "border-" ++ side.name ++ "-" ++ part.name
  | margin : IsPerSide "margin" fun side => "margin-" ++ side.name
  | padding : IsPerSide "padding" fun side => "padding-" ++ side.name

/-- The borders, and the sides that they cover. -/
inductive IsBorder : String → List Side → Prop
  | all : IsBorder "border" [.top, .right, .bottom, .left]
  | one (side : Side) : IsBorder ("border-" ++ side.name) [side]

theorem ofName?_eq_perSide_iff :
    ofName? name = some (perSide longhand) ↔ IsPerSide name longhand := by
  constructor
  · intro h
    rcases perSide_cases h with ⟨part, rfl, rfl⟩ | ⟨rfl, rfl⟩ | ⟨rfl, rfl⟩
    · exact .border part
    · exact .margin
    · exact .padding
  · intro h
    cases h with
    | border part => exact ofName?_shared part
    | margin => rfl
    | padding => rfl

theorem ofName?_eq_border_iff : ofName? name = some (border sides) ↔ IsBorder name sides := by
  constructor
  · intro h
    unfold ofName? at h
    split at h <;> cases h
    · exact .all
    · exact .one .top
    · exact .one .right
    · exact .one .bottom
    · exact .one .left
  · intro h
    cases h with
    | all => rfl
    | one side => cases side <;> rfl

theorem ofName?_eq_none (hsides : ∀ longhand, ¬ IsPerSide name longhand)
    (hborder : ∀ sides, ¬ IsBorder name sides) : ofName? name = none := by
  cases h : ofName? name with
  | none => rfl
  | some shorthand =>
    cases shorthand with
    | border sides => exact absurd (ofName?_eq_border_iff.1 h) (hborder sides)
    | perSide longhand => exact absurd (ofName?_eq_perSide_iff.1 h) (hsides longhand)

theorem IsPerSide.ne_longhand (h : IsPerSide name longhand) (side : Side) :
    name ≠ longhand side := by
  have hname := ofName?_eq_perSide_iff.2 h
  intro heq
  have hnone := ofName?_longhand hname side
  rw [← heq, hname] at hnone
  cases hnone

theorem IsPerSide.longhand_inj (h : IsPerSide name longhand) {side side' : Side} :
    longhand side = longhand side' ↔ side = side' := by
  constructor
  · cases h with
    | border part => cases part <;> cases side <;> cases side' <;> decide
    | margin => cases side <;> cases side' <;> decide
    | padding => cases side <;> cases side' <;> decide
  · exact congrArg longhand

theorem IsBorder.ne_longhand (h : IsBorder name sides) (side : Side) (part : BorderPart) :
    name ≠ side.border part := by
  intro heq
  have hnone := ofName?_border side part
  rw [← heq, ofName?_eq_border_iff.2 h] at hnone
  cases hnone

theorem IsBorder.nodup (h : IsBorder name sides) : sides.Nodup := by
  cases h with
  | all => decide
  | one side => exact List.nodup_singleton side

end Shorthand

theorem Side.border_inj {side side' : Side} {part part' : BorderPart} :
    side.border part = side'.border part' ↔ side = side' ∧ part = part' := by
  constructor
  · cases side <;> cases side' <;> cases part <;> cases part' <;> decide
  · rintro ⟨rfl, rfl⟩
    rfl

/-- If only one entry of a list leads to anything, that is all there is. -/
theorem flatMap_eq_of_unique {α β : Type} {xs : List α} {x : α} {f : α → List β} (h : xs.Nodup)
    (hx : x ∈ xs) (hf : ∀ y, y ≠ x → f y = []) : xs.flatMap f = f x := by
  obtain ⟨before, behind, rfl⟩ := List.append_of_mem hx
  have hnone : ∀ ys : List α, x ∉ ys → ys.flatMap f = [] := by
    intro ys hys
    rw [List.flatMap_eq_nil_iff]
    intro y hy
    exact hf y fun heq => hys (heq ▸ hy)
  obtain ⟨hbefore, hbehind⟩ : x ∉ before ∧ x ∉ behind := by
    rw [List.nodup_middle, List.nodup_cons, List.mem_append, not_or] at h
    exact h.1
  rw [List.flatMap_append, List.flatMap_cons, hnone _ hbefore, hnone _ hbehind, List.nil_append,
    List.append_nil]

/-! ## Tokens for the sides -/

/-- The token for a side, out of one to four: a missing one for the left is that for the right, a
missing one for the bottom or for the right that for the top. -/
def Value.tokenFor? {α : Type} (tokens : List α) : Side → Option α
  | .top => tokens[0]?
  | .right => tokens[1]?.or tokens[0]?
  | .bottom => tokens[2]?.or tokens[0]?
  | .left => tokens[3]?.or (tokens[1]?.or tokens[0]?)

theorem Sides.exists_ofList? {α : Type} {tokens : List α} (hne : 1 ≤ tokens.length)
    (hle : tokens.length ≤ 4) :
    ∃ values, ofList? tokens = some values ∧
      ∀ side, Value.tokenFor? tokens side = some (values.get side) := by
  match tokens with
  | [] => exact absurd hne (Nat.not_succ_le_zero 0)
  | [_] => exact ⟨_, rfl, fun side => by cases side <;> rfl⟩
  | [_, _] => exact ⟨_, rfl, fun side => by cases side <;> rfl⟩
  | [_, _, _] => exact ⟨_, rfl, fun side => by cases side <;> rfl⟩
  | [_, _, _, _] => exact ⟨_, rfl, fun side => by cases side <;> rfl⟩
  | _ :: _ :: _ :: _ :: _ :: rest =>
    simp only [List.length_cons] at hle
    omega

theorem Sides.ofList?_eq_none {α : Type} {tokens : List α}
    (h : ¬ (1 ≤ tokens.length ∧ tokens.length ≤ 4)) : ofList? tokens = none := by
  match tokens with
  | [] => rfl
  | [_] => exact absurd ⟨by simp, by simp⟩ h
  | [_, _] => exact absurd ⟨by simp, by simp⟩ h
  | [_, _, _] => exact absurd ⟨by simp, by simp⟩ h
  | [_, _, _, _] => exact absurd ⟨by simp, by simp⟩ h
  | _ :: _ :: _ :: _ :: _ :: _ => rfl

/-! ## Settings in turn -/

namespace Block

variable {b : Block} {name value p : String} {longhand : Side → String} {sides : List Side}

/-- The declared properties, in first-declared order. -/
def names (b : Block) : List String := b.declarations.map Declaration.name

theorem declarations_setAll (b : Block) (pairs : List (String × String)) :
    (b.setAll pairs).declarations = Declaration.keyed.putAll b.declarations
      (pairs.map fun pair => ⟨pair.1, pair.2⟩) := by
  induction pairs generalizing b with
  | nil => rfl
  | cons pair pairs ih =>
    show ((b.set pair.1 pair.2).setAll pairs).declarations = _
    rw [ih, declarations_set]
    rfl

/-- New properties come behind those there are, in the order in which they are first set. -/
theorem names_setAll (b : Block) (pairs : List (String × String)) :
    (b.setAll pairs).names = (b.names ++ pairs.map Prod.fst).eraseDups := by
  have hkeys := Keyed.keys_putAll b.nodup_keys
    (pairs.map fun pair => (⟨pair.1, pair.2⟩ : Declaration))
  rw [← declarations_setAll, Keyed.keys, Keyed.keys, Keyed.keys, List.map_map] at hkeys
  exact hkeys

/-- The last value set for a property counts, or else the one that it had. -/
theorem get?_setAll_eq (b : Block) (pairs : List (String × String)) (p : String) :
    (b.setAll pairs).get? p =
      ((pairs.filter fun pair => pair.1 = p).getLast?.map Prod.snd).or (b.get? p) := by
  rw [get?_setAll, List.getLast?_filter]

theorem get?_setAll_of_ne {pairs : List (String × String)} (h : ∀ pair ∈ pairs, pair.1 ≠ p) :
    (b.setAll pairs).get? p = b.get? p := by
  have hnone : pairs.filter (fun pair => pair.1 = p) = [] := by
    rw [List.filter_eq_nil_iff]
    intro pair hpair hp
    exact h pair hpair (of_decide_eq_true hp)
  rw [get?_setAll_eq, hnone]
  rfl

/-- A first setting stays if no later one is of its property. -/
theorem get?_setAll_cons_self {pairs : List (String × String)} (h : ∀ pair ∈ pairs, pair.1 ≠ name) :
    (b.setAll ((name, value) :: pairs)).get? name = some value := by
  show ((b.set name value).setAll pairs).get? name = _
  rw [get?_setAll_of_ne h, get?_set, if_pos rfl]

/-- A first setting makes no difference to another property. -/
theorem get?_setAll_cons_of_ne (h : p ≠ name) (pairs : List (String × String)) :
    (b.setAll ((name, value) :: pairs)).get? p = (b.setAll pairs).get? p := by
  rw [get?_setAll_eq, get?_setAll_eq, List.filter_cons_of_neg (by simpa using Ne.symm h)]

theorem names_set (b : Block) (name value : String) :
    (b.set name value).names = (b.names ++ [name]).eraseDups :=
  b.names_setAll [(name, value)]

/-! ## One longhand for each side -/

/-- One block is another with a shorthand set: it has the value, the longhand of each side has the
token for this side if that is acceptable, and everything else is as it was. -/
structure SetsSides (b : Block) (name value : String) (longhand : Side → String) (after : Block) :
    Prop where
  shorthand : after.get? name = some value
  sides : ∀ side, after.get? (longhand side) =
    ((Value.tokenFor? (Value.tokens value) side).filter (Value.isValid (longhand side))).or
      (b.get? (longhand side))
  others : ∀ p, p ≠ name → (∀ side, p ≠ longhand side) → after.get? p = b.get? p
  names : after.names = (b.names ++ name :: (Side.all.filter fun side =>
    (Value.tokenFor? (Value.tokens value) side).any (Value.isValid (longhand side))).map
      longhand).eraseDups

/-- What is set for a shorthand and for the longhands of the sides. -/
theorem settings_of_isPerSide (h : Shorthand.IsPerSide name longhand) {values : Sides String}
    (hvalues : Sides.ofList? (Value.tokens value) = some values) :
    settings name value = (name, value) ::
      (Side.all.filter fun side => Value.isValid (longhand side) (values.get side)).map
        fun side => (longhand side, values.get side) := by
  rw [settings, Shorthand.ofName?_eq_perSide_iff.2 h]
  simp only [hvalues, List.filter_map]
  rfl

theorem setsSides_declare (h : Shorthand.IsPerSide name longhand)
    (hne : 1 ≤ (Value.tokens value).length) (hle : (Value.tokens value).length ≤ 4) :
    SetsSides b name value longhand (b.declare name value) := by
  obtain ⟨values, hvalues, htoken⟩ := Sides.exists_ofList? hne hle
  rw [declare_eq_setAll, settings_of_isPerSide h hvalues]
  constructor
  case shorthand =>
    apply get?_setAll_cons_self
    intro pair hpair
    obtain ⟨side, -, rfl⟩ := List.mem_map.1 hpair
    exact (h.ne_longhand side).symm
  case sides =>
    intro side
    rw [get?_setAll_cons_of_ne (h.ne_longhand side).symm, get?_setAll_eq, List.filter_map, htoken]
    congr 1
    have hone : ∀ q : Side → Bool, (Side.all.filter q).filter (fun s => s = side) =
        if q side then [side] else [] := by
      intro q
      cases side <;> cases hq : q _ <;> simp [Side.all, hq]
    simp only [Function.comp_def, h.longhand_inj, hone, Option.filter]
    split <;> rfl
  case others =>
    intro p hp hsides
    rw [get?_setAll_cons_of_ne hp]
    apply get?_setAll_of_ne
    intro pair hpair
    obtain ⟨side, -, rfl⟩ := List.mem_map.1 hpair
    exact (hsides side).symm
  case names =>
    rw [names_setAll, List.map_cons, List.map_map]
    simp only [htoken, Option.any_some]
    rfl

/-! ## Borders -/

/-- One block is another with a border set: it has the value, every part of the border on a side
that is covered has the last token of this sort that is acceptable, if there is one, and everything
else is as it was. -/
structure SetsBorders (b : Block) (name value : String) (sides : List Side) (after : Block) :
    Prop where
  shorthand : after.get? name = some value
  parts : ∀ side ∈ sides, ∀ part, after.get? (side.border part) =
    ((Value.tokens value).filter fun token => BorderPart.ofToken token = part ∧
      Value.isValid (side.border part) token).getLast?.or (b.get? (side.border part))
  others : ∀ p, p ≠ name → (∀ side ∈ sides, ∀ part, p ≠ side.border part) →
    after.get? p = b.get? p
  names : after.names = (b.names ++ name :: sides.flatMap fun side =>
    ((Value.tokens value).filter fun token =>
      Value.isValid (side.border (BorderPart.ofToken token)) token).map
        fun token => side.border (BorderPart.ofToken token)).eraseDups

/-- What is set for a border and for its parts on the sides that it covers. -/
theorem settings_of_isBorder (h : Shorthand.IsBorder name sides) (value : String) :
    settings name value = (name, value) :: sides.flatMap fun side =>
      ((Value.tokens value).filter fun token =>
        Value.isValid (side.border (BorderPart.ofToken token)) token).map
          fun token => (side.border (BorderPart.ofToken token), token) := by
  rw [settings, Shorthand.ofName?_eq_border_iff.2 h]
  simp only [List.filter_map]
  rfl

theorem setsBorders_declare (h : Shorthand.IsBorder name sides) (b : Block) (value : String) :
    SetsBorders b name value sides (b.declare name value) := by
  have hlonghand : ∀ pair ∈ sides.flatMap fun side => ((Value.tokens value).filter fun token =>
      Value.isValid (side.border (BorderPart.ofToken token)) token).map
        fun token => (side.border (BorderPart.ofToken token), token),
      ∃ side ∈ sides, ∃ part, pair.1 = side.border part := by
    intro pair hpair
    obtain ⟨side, hside, hpair⟩ := List.mem_flatMap.1 hpair
    obtain ⟨token, -, rfl⟩ := List.mem_map.1 hpair
    exact ⟨side, hside, BorderPart.ofToken token, rfl⟩
  rw [declare_eq_setAll, settings_of_isBorder h]
  constructor
  case shorthand =>
    apply get?_setAll_cons_self
    intro pair hpair
    obtain ⟨side, -, part, heq⟩ := hlonghand pair hpair
    exact heq ▸ (h.ne_longhand side part).symm
  case parts =>
    intro side hside part
    rw [get?_setAll_cons_of_ne (h.ne_longhand side part).symm, get?_setAll_eq, List.filter_flatMap]
    simp only [List.filter_map, Function.comp_def, Side.border_inj]
    -- what is set on the other sides is no part of the border on this one
    rw [flatMap_eq_of_unique h.nodup hside]
    · congr 1
      have hsame : ∀ token, (decide (side = side ∧ BorderPart.ofToken token = part) &&
          Value.isValid (side.border (BorderPart.ofToken token)) token) =
            decide (BorderPart.ofToken token = part ∧ Value.isValid (side.border part) token) := by
        intro token
        by_cases hpart : BorderPart.ofToken token = part
        · simp [hpart]
        · simp [hpart]
      rw [List.getLast?_map, Option.map_map, List.filter_filter, List.filter_congr fun token _ =>
        hsame token]
      exact Option.map_id'
    · intro side' hne
      simp [hne]
  case others =>
    intro p hp hparts
    rw [get?_setAll_cons_of_ne hp]
    apply get?_setAll_of_ne
    intro pair hpair
    obtain ⟨side, hside, part, heq⟩ := hlonghand pair hpair
    exact heq ▸ (hparts side hside part).symm
  case names =>
    rw [names_setAll, List.map_cons, List.map_flatMap]
    simp only [List.map_map, Function.comp_def]

/-! ## Declarations -/

/-- Declaring a property with one longhand for each side and a value of one to four tokens sets it
and shares out the tokens; with no token or with more than four the block stays as it is. Declaring
a border sets it and its parts on the sides that it covers. Any other property is set by itself. -/
theorem declare_expands (b : Block) (name value : String) :
    (∀ longhand, Shorthand.IsPerSide name longhand →
      if 1 ≤ (Value.tokens value).length ∧ (Value.tokens value).length ≤ 4 then
        SetsSides b name value longhand (b.declare name value)
      else b.declare name value = b) ∧
    (∀ sides, Shorthand.IsBorder name sides →
      SetsBorders b name value sides (b.declare name value)) ∧
    ((∀ longhand, ¬ Shorthand.IsPerSide name longhand) →
      (∀ sides, ¬ Shorthand.IsBorder name sides) →
        (b.declare name value).get? name = some value ∧
        (∀ p, p ≠ name → (b.declare name value).get? p = b.get? p) ∧
        (b.declare name value).names = (b.names ++ [name]).eraseDups) := by
  refine ⟨?_, ?_, ?_⟩
  · intro longhand h
    split
    · next hcount => exact setsSides_declare h hcount.1 hcount.2
    · next hcount =>
      rw [declare, Shorthand.ofName?_eq_perSide_iff.2 h]
      simp only [Sides.ofList?_eq_none hcount]
  · intro sides h
    exact setsBorders_declare h b value
  · intro hsides hborder
    have hset : b.declare name value = b.set name value := by
      rw [declare, Shorthand.ofName?_eq_none hsides hborder]
    rw [hset]
    refine ⟨?_, ?_, names_set b name value⟩
    · rw [get?_set, if_pos rfl]
    · intro p hp
      rw [get?_set, if_neg (Ne.symm hp)]

/-- Two tokens for a margin, a border with two widths and a token that is no color, and a property
that is no shorthand. -/
theorem declare_expands_margin_border_color :
    let b := ofPairs [("margin-left", "9px"), ("border-top-color", "red")]
    let margin := b.declare "margin" "1px 2px"
    let border := b.declare "border-top" "thin nonsense thick dotted"
    let color := b.declare "color" "blue"
    Shorthand.IsPerSide "margin" Side.margin ∧ Shorthand.IsBorder "border-top" [.top] ∧
      (∀ longhand, ¬ Shorthand.IsPerSide "color" longhand) ∧
      (∀ sides, ¬ Shorthand.IsBorder "color" sides) ∧
      margin.get? "margin-left" = some "2px" ∧ margin.get? "margin-bottom" = some "1px" ∧
      margin.get? "border-top-color" = some "red" ∧
      margin.names = ["margin-left", "border-top-color", "margin", "margin-top", "margin-right",
        "margin-bottom"] ∧
      border.get? "border-top-width" = some "thick" ∧
      border.get? "border-top-color" = some "red" ∧
      border.names = ["margin-left", "border-top-color", "border-top", "border-top-width",
        "border-top-style"] ∧
      color.get? "margin-left" = some "9px" := by
  intro b margin border color
  have hmargin : Shorthand.IsPerSide "margin" Side.margin := .margin
  have hborder : Shorthand.IsBorder "border-top" [.top] := .one .top
  have hname : Shorthand.ofName? "color" = none := rfl
  have hsides : ∀ longhand, ¬ Shorthand.IsPerSide "color" longhand := by
    intro longhand h
    rw [← Shorthand.ofName?_eq_perSide_iff, hname] at h
    cases h
  have hborders : ∀ sides, ¬ Shorthand.IsBorder "color" sides := by
    intro sides h
    rw [← Shorthand.ofName?_eq_border_iff, hname] at h
    cases h
  have hset := (declare_expands b "margin" "1px 2px").1 _ hmargin
  rw [if_pos (by decide)] at hset
  have hset' := (declare_expands b "border-top" "thin nonsense thick dotted").2.1 _ hborder
  obtain ⟨-, hothers, -⟩ := (declare_expands b "color" "blue").2.2 hsides hborders
  have hother : ∀ side : Side, "border-top-color" ≠ side.margin := by
    intro side
    cases side <;> decide
  refine ⟨hmargin, hborder, hsides, hborders, (hset.sides .left).trans ?_,
    (hset.sides .bottom).trans ?_, (hset.others _ (by decide) hother).trans ?_,
    hset.names.trans ?_, (hset'.parts .top List.mem_cons_self .width).trans ?_,
    (hset'.parts .top List.mem_cons_self .color).trans ?_, hset'.names.trans ?_,
    (hothers _ (by decide)).trans ?_⟩
  all_goals decide +kernel

end Block

end BoxFlow
