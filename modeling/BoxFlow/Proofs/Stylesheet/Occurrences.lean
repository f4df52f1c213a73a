import BoxFlow.Proofs.Stylesheet.Merging
import BoxFlow.Stylesheet.Parse

/-!
# Occurrences of declarations in the sources

The sources of a sheet, read one after the other, hold a sequence of written rules: one for each
selector of each block whose selectors can be read. Each written rule sets properties in turn, the
longhands of a shorthand after the shorthand. An occurrence is one such setting (`occurrences`).

The sheet keeps one rule for each selector text. Its rules are the written ones put in turn
(`rules_parseAll`), and what the rule for a text declares for a property is the value of the last
occurrence with this text and this property (`get?_rules_parseAll`), wherever in the sources the
text comes up.
-/

set_option autoImplicit false

namespace BoxFlow

/-! ## Blocks by what is set in turn -/

namespace Block

variable {α : Type}

/-- Sets properties in turn. -/
def setAll (b : Block) (pairs : List (String × String)) : Block :=
  pairs.foldl (fun b pair => b.set pair.1 pair.2) b

/-- Whether the value of a pair is acceptable for its property. -/
def acceptable (pair : String × String) : Bool := Value.isValid pair.1 pair.2

/-- What declaring a property sets, in turn: the property itself, and those of its longhands for
which the value is acceptable. -/
def settings (name value : String) : List (String × String) :=
  match Shorthand.ofName? name with
  | none => [(name, value)]
  | some (.border sides) =>
    (name, value) :: sides.flatMap fun side =>
      ((Value.tokens value).map fun token =>
        (side.border (BorderPart.ofToken token), token)).filter acceptable
  | some (.perSide longhand) =>
    match Sides.ofList? (Value.tokens value) with
    | some values =>
      (name, value) ::
        (Side.all.map fun side => (longhand side, values.get side)).filter acceptable
    | none => []

/-- What the acceptable declarations of a rule body set, in turn. -/
def bodySettings (body : List Char) : List (String × String) :=
  ((Source.declarations body).filter acceptable).flatMap fun pair => settings pair.1 pair.2

theorem setAll_append (b : Block) (pairs pairs' : List (String × String)) :
    b.setAll (pairs ++ pairs') = (b.setAll pairs).setAll pairs' :=
  List.foldl_append

theorem foldl_setAll (f : α → List (String × String)) (xs : List α) (b : Block) :
    xs.foldl (fun b x => b.setAll (f x)) b = b.setAll (xs.flatMap f) := by
  induction xs generalizing b with
  | nil => rfl
  | cons x xs ih => rw [List.foldl_cons, ih, List.flatMap_cons, setAll_append]

theorem foldl_setIfValid (f : α → String × String) (xs : List α) (b : Block) :
    xs.foldl (fun b x => b.setIfValid (f x).1 (f x).2) b =
      b.setAll ((xs.map f).filter acceptable) := by
  induction xs generalizing b with
  | nil => rfl
  | cons x xs ih =>
    rw [List.foldl_cons, ih, List.map_cons, List.filter_cons, setIfValid, acceptable]
    split <;> rfl

theorem declare_eq_setAll (b : Block) (name value : String) :
    b.declare name value = b.setAll (settings name value) := by
  rw [declare, settings]
  cases Shorthand.ofName? name with
  | none => rfl
  | some shorthand =>
    cases shorthand with
    | border sides =>
      have hside : ∀ (b : Block) (side : Side), b.setBorder side (Value.tokens value) =
          b.setAll (((Value.tokens value).map fun token =>
            (side.border (BorderPart.ofToken token), token)).filter acceptable) :=
        fun b side => foldl_setIfValid (fun token =>
          (side.border (BorderPart.ofToken token), token)) _ b
      simp only [hside, foldl_setAll]
      rfl
    | perSide longhand =>
      cases Sides.ofList? (Value.tokens value) with
      | none => rfl
      | some values =>
        exact foldl_setIfValid (fun side => (longhand side, values.get side)) Side.all _

theorem ofBody_eq_setAll (body : List Char) : ofBody body = empty.setAll (bodySettings body) := by
  rw [ofBody, bodySettings]
  generalize empty = b
  induction Source.declarations body generalizing b with
  | nil => rfl
  | cons pair pairs ih =>
    rw [List.foldl_cons, ih, List.filter_cons, acceptable]
    show (if Value.isValid pair.1 pair.2 then b.declare pair.1 pair.2 else b).setAll _ = _
    by_cases h : Value.isValid pair.1 pair.2
    · rw [if_pos h, if_pos h, List.flatMap_cons, setAll_append, declare_eq_setAll]
    · rw [if_neg h, if_neg h]

/-- The last pair of a property decides about it. -/
theorem get?_setAll (b : Block) (pairs : List (String × String)) (p : String) :
    (b.setAll pairs).get? p =
      ((pairs.reverse.find? fun pair => pair.1 = p).map Prod.snd).or (b.get? p) := by
  induction pairs using List.reverseRecOn with
  | nil => rfl
  | append_singleton pairs pair ih =>
    rw [setAll_append, List.reverse_append, List.reverse_singleton, List.singleton_append,
      List.find?_cons]
    show ((b.setAll pairs).set pair.1 pair.2).get? p = _
    rw [get?_set, ih]
    by_cases h : pair.1 = p
    · simp [h]
    · simp [h]

end Block

/-! ## What the sources hold -/

/-- A selector with what a block sets under it. -/
structure WrittenRule where
  text : String
  selector : Selector
  settings : List (String × String)
deriving DecidableEq, Repr

/-- A value set for a property under a selector. -/
structure Occurrence where
  text : String
  selector : Selector
  name : String
  value : String
deriving DecidableEq, Repr

namespace WrittenRule

/-- The rule of a sheet that holds this and nothing else. -/
def toRule (w : WrittenRule) : Rule := ⟨w.text, w.selector, Block.empty.setAll w.settings⟩

/-- What a written rule sets, in turn. -/
def occurrences (w : WrittenRule) : List Occurrence :=
  w.settings.map fun pair => ⟨w.text, w.selector, pair.1, pair.2⟩

end WrittenRule

/-- The rules written in a block, one for each of its selectors, if these can be read. -/
def Source.RawBlock.writtenRules (block : Source.RawBlock) : List WrittenRule :=
  match Selector.parseGroup block.group with
  | .error _ => []
  | .ok selectors => selectors.map fun pair => ⟨pair.1, pair.2, Block.bodySettings block.body⟩

/-- The rules written in a list of sources, in order. -/
def writtenRules (sources : List String) : List WrittenRule :=
  sources.flatMap fun source =>
    (Source.outline source.toList).blocks.flatMap Source.RawBlock.writtenRules

/-- The occurrences of declarations in a list of sources, in order. -/
def occurrences (sources : List String) : List Occurrence :=
  (writtenRules sources).flatMap WrittenRule.occurrences

/-- The selector texts of the rules written in a list of sources, in order. -/
def writtenTexts (sources : List String) : List String :=
  (writtenRules sources).map WrittenRule.text

theorem keys_map_toRule (ws : List WrittenRule) :
    Rule.keyed.keys (ws.map WrittenRule.toRule) = ws.map WrittenRule.text :=
  List.map_map

theorem mem_occurrences {sources : List String} {o : Occurrence} :
    o ∈ occurrences sources ↔ ∃ w ∈ writtenRules sources, o ∈ w.occurrences :=
  List.mem_flatMap

theorem WrittenRule.eq_of_mem_occurrences {w : WrittenRule} {o : Occurrence}
    (h : o ∈ w.occurrences) : o.text = w.text ∧ o.selector = w.selector := by
  obtain ⟨pair, -, rfl⟩ := List.mem_map.1 h
  exact ⟨rfl, rfl⟩

/-! ## The rules of a sheet -/

namespace Stylesheet

theorem rules_addBlock (sheet : Stylesheet) (block : Source.RawBlock) :
    (sheet.addBlock block).rules =
      Rule.keyed.putAll sheet.rules (block.writtenRules.map WrittenRule.toRule) := by
  rw [addBlock, Source.RawBlock.writtenRules]
  cases Selector.parseGroup block.group with
  | error e => rfl
  | ok selectors =>
    simp only [Block.ofBody_eq_setAll]
    induction selectors generalizing sheet with
    | nil => rfl
    | cons pair selectors ih => rw [List.foldl_cons, ih, rules_declare]; rfl

theorem rules_parse (source : String) :
    (parse source).rules =
      Rule.keyed.putAll [] ((writtenRules [source]).map WrittenRule.toRule) := by
  have hblocks : ∀ (blocks : List Source.RawBlock) (sheet : Stylesheet),
      (blocks.foldl addBlock sheet).rules =
        Rule.keyed.putAll sheet.rules
          ((blocks.flatMap Source.RawBlock.writtenRules).map WrittenRule.toRule) := by
    intro blocks
    induction blocks with
    | nil => exact fun _ => rfl
    | cons block blocks ih =>
      intro sheet
      rw [List.foldl_cons, ih, rules_addBlock, List.flatMap_cons, List.map_append,
        Keyed.putAll_append]
  rw [parse, hblocks, writtenRules, List.flatMap_singleton]
  rfl

/-- Instead of the sheet of a source, its written rules may be put one by one. -/
theorem rules_merge_parse (sheet : Stylesheet) (source : String) :
    (sheet.merge (parse source)).rules =
      Rule.keyed.putAll sheet.rules ((writtenRules [source]).map WrittenRule.toRule) := by
  have hnil : (Rule.keyed.keys []).Nodup := List.nodup_nil
  rw [rules_merge, rules_parse, Keyed.putAll_assoc hnil]
  rfl

/-- The rules of the sheet of several sources are the written ones, put in turn. -/
theorem rules_parseAll (sources : List String) :
    (parseAll sources).rules =
      Rule.keyed.putAll [] ((writtenRules sources).map WrittenRule.toRule) := by
  induction sources using List.reverseRecOn with
  | nil => rfl
  | append_singleton sources source ih =>
    have hlast : parseAll (sources ++ [source]) = (parseAll sources).merge (parse source) :=
      List.foldl_append
    have hwritten : writtenRules (sources ++ [source]) =
        writtenRules sources ++ writtenRules [source] := List.flatMap_append
    rw [hlast, rules_merge_parse, ih, hwritten, List.map_append, Keyed.putAll_append]

/-! ## What a rule declares -/

variable {sources : List String} {t p : String} {r : Rule} {o : Occurrence}

/-- The last of some occurrences with a selector text and a property. -/
def lastOccurrence? (t p : String) (os : List Occurrence) : Option Occurrence :=
  os.reverse.find? fun o => o.text = t ∧ o.name = p

theorem eq_of_lastOccurrence? {os : List Occurrence} (h : lastOccurrence? t p os = some o) :
    o.text = t ∧ o.name = p := by
  have hfound := List.find?_some h
  exact of_decide_eq_true hfound

theorem lastOccurrence?_append (t p : String) (os os' : List Occurrence) :
    lastOccurrence? t p (os ++ os') = (lastOccurrence? t p os').or (lastOccurrence? t p os) := by
  rw [lastOccurrence?, List.reverse_append, List.find?_append]
  rfl

/-- Of the occurrences in one written rule, the last with a property is what its block declares. -/
theorem value_lastOccurrence?_occurrences (w : WrittenRule) (t p : String) :
    (lastOccurrence? t p w.occurrences).map Occurrence.value =
      if w.text = t then w.toRule.declarations.get? p else none := by
  rw [lastOccurrence?, WrittenRule.occurrences, ← List.map_reverse, List.find?_map,
    WrittenRule.toRule, Block.get?_setAll]
  by_cases h : w.text = t
  · have hnone : Block.empty.get? p = none := rfl
    simp only [h, if_true, Option.map_map, hnone, Option.or_none, Function.comp_def, true_and]
  · simp [h, Function.comp_def]

/-- The rule for a text declares for a property what the last occurrence with both says. -/
theorem get?_putAll_toRule (ws : List WrittenRule) (t p : String) :
    (Rule.keyed.find? t (Rule.keyed.putAll [] (ws.map WrittenRule.toRule))).bind
        (fun r => r.declarations.get? p) =
      (lastOccurrence? t p (ws.flatMap WrittenRule.occurrences)).map Occurrence.value := by
  induction ws using List.reverseRecOn with
  | nil => rfl
  | append_singleton ws w ih =>
    have hone : [w].flatMap WrittenRule.occurrences = w.occurrences := List.flatMap_singleton _ _
    rw [List.map_append, List.map_singleton, Keyed.putAll_concat, Keyed.find?_put,
      List.flatMap_append, hone, lastOccurrence?_append, Option.map_or,
      value_lastOccurrence?_occurrences, ← ih]
    by_cases h : w.text = t
    · rw [if_pos h, if_pos (show Rule.keyed.key w.toRule = t from h)]
      cases Rule.keyed.find? t (Rule.keyed.putAll [] (ws.map WrittenRule.toRule)) with
      | none => simp
      | some r => exact Block.get?_extend r.declarations w.toRule.declarations p
    · rw [if_neg h, if_neg (show ¬ Rule.keyed.key w.toRule = t from h)]
      rfl

theorem nodup_texts (sources : List String) :
    (Rule.keyed.keys (parseAll sources).rules).Nodup := by
  have hnil : (Rule.keyed.keys []).Nodup := List.nodup_nil
  rw [rules_parseAll]
  exact Keyed.nodup_keys_putAll hnil _

/-- A rule of a sheet declares for a property what the last occurrence with its text says. -/
theorem get?_rules_parseAll (hr : r ∈ (parseAll sources).rules) (p : String) :
    r.declarations.get? p =
      (lastOccurrence? r.text p (occurrences sources)).map Occurrence.value := by
  have hfind : Rule.keyed.find? r.text (parseAll sources).rules = some r :=
    Keyed.find?_of_mem (nodup_texts sources) hr
  rw [occurrences, ← get?_putAll_toRule, ← rules_parseAll, hfind, Option.bind_some]

/-- Every occurrence has its text among the rules of the sheet. -/
theorem exists_rule_of_mem_occurrences (ho : o ∈ occurrences sources) :
    ∃ r ∈ (parseAll sources).rules, r.text = o.text := by
  obtain ⟨w, hw, how⟩ := mem_occurrences.1 ho
  have hkey : o.text ∈ Rule.keyed.keys (parseAll sources).rules := by
    rw [rules_parseAll, Keyed.mem_keys_putAll, keys_map_toRule,
      (WrittenRule.eq_of_mem_occurrences how).1]
    exact Or.inr (List.mem_map_of_mem hw)
  exact List.mem_map.1 hkey

/-! ## Texts and their selectors -/

theorem map_eq_of_mapM {α β ε : Type} {f : α → Except ε β} {xs : List α} {ys : List β}
    (h : xs.mapM f = .ok ys) : xs.map f = ys.map .ok := by
  induction xs generalizing ys with
  | nil =>
    obtain rfl : [] = ys := Except.ok.inj h
    rfl
  | cons x xs ih =>
    rw [List.mapM_cons] at h
    cases hx : f x with
    | error e =>
      rw [hx] at h
      cases h
    | ok y =>
      cases hrest : xs.mapM f with
      | error e =>
        rw [hx, hrest] at h
        cases h
      | ok ys' =>
        rw [hx, hrest] at h
        obtain rfl : y :: ys' = ys := Except.ok.inj h
        rw [List.map_cons, List.map_cons, hx, ih hrest]

/-- What is read of the pieces of a group, if they can all be read. -/
theorem map_parse_of_parseGroup {group : List Char} {selectors : List (String × Selector)}
    (h : Selector.parseGroup group = .ok selectors) :
    (Source.groupPieces group).map (fun piece =>
      (Selector.parse piece).map fun selector => (String.ofList piece, selector)) =
        selectors.map .ok :=
  map_eq_of_mapM h

theorem parse_of_read {piece : List Char} {pair : String × Selector}
    (h : ((Selector.parse piece).map fun selector => (String.ofList piece, selector)) = .ok pair) :
    pair.1 = String.ofList piece ∧ Selector.parse piece = .ok pair.2 := by
  cases hselector : Selector.parse piece with
  | error e =>
    rw [hselector] at h
    cases h
  | ok selector =>
    rw [hselector] at h
    obtain rfl : (String.ofList piece, selector) = pair := Except.ok.inj h
    exact ⟨rfl, rfl⟩

theorem exists_piece_of_mem_parseGroup {group : List Char} {selectors : List (String × Selector)}
    (h : Selector.parseGroup group = .ok selectors) {pair : String × Selector}
    (hpair : pair ∈ selectors) :
    ∃ piece ∈ Source.groupPieces group,
      pair.1 = String.ofList piece ∧ Selector.parse piece = .ok pair.2 := by
  have hmem : (.ok pair : Except SelectorError _) ∈ selectors.map .ok := List.mem_map_of_mem hpair
  rw [← map_parse_of_parseGroup h] at hmem
  obtain ⟨piece, hpiece, hread⟩ := List.mem_map.1 hmem
  exact ⟨piece, hpiece, parse_of_read hread⟩

/-- Every piece of a group that can be read is read. -/
theorem exists_mem_parseGroup {group : List Char} {selectors : List (String × Selector)}
    (h : Selector.parseGroup group = .ok selectors) {piece : List Char}
    (hpiece : piece ∈ Source.groupPieces group) :
    ∃ pair ∈ selectors, pair.1 = String.ofList piece ∧ Selector.parse piece = .ok pair.2 := by
  have hmem := List.mem_map_of_mem (f := fun piece =>
    (Selector.parse piece).map fun selector => (String.ofList piece, selector)) hpiece
  rw [map_parse_of_parseGroup h] at hmem
  obtain ⟨pair, hpair, hread⟩ := List.mem_map.1 hmem
  exact ⟨pair, hpair, parse_of_read hread.symm⟩

/-- A written rule comes from a piece of the selector group of a block, and from the body. -/
theorem exists_block_of_mem_writtenRules {w : WrittenRule} (hw : w ∈ writtenRules sources) :
    ∃ (block : Source.RawBlock) (piece : List Char), piece ∈ Source.groupPieces block.group ∧
      w.text = String.ofList piece ∧ Selector.parse piece = .ok w.selector ∧
      w.settings = Block.bodySettings block.body := by
  obtain ⟨source, -, hw⟩ := List.mem_flatMap.1 hw
  obtain ⟨block, -, hw⟩ := List.mem_flatMap.1 hw
  rw [Source.RawBlock.writtenRules] at hw
  split at hw
  · exact absurd hw List.not_mem_nil
  · next selectors hgroup =>
    obtain ⟨pair, hpair, rfl⟩ := List.mem_map.1 hw
    obtain ⟨piece, hpiece, htext, hread⟩ := exists_piece_of_mem_parseGroup hgroup hpair
    exact ⟨block, piece, hpiece, htext, hread, rfl⟩

/-- The selector of a written rule is what its text reads as. -/
theorem parse_writtenRules {w : WrittenRule} (hw : w ∈ writtenRules sources) :
    Selector.parse w.text.toList = .ok w.selector := by
  obtain ⟨_, piece, -, htext, hread, -⟩ := exists_block_of_mem_writtenRules hw
  rw [htext, String.toList_ofList, hread]

theorem parse_occurrences (ho : o ∈ occurrences sources) :
    Selector.parse o.text.toList = .ok o.selector := by
  obtain ⟨w, hw, how⟩ := mem_occurrences.1 ho
  rw [(WrittenRule.eq_of_mem_occurrences how).1, (WrittenRule.eq_of_mem_occurrences how).2]
  exact parse_writtenRules hw

theorem parse_rules (hr : r ∈ (parseAll sources).rules) :
    Selector.parse r.text.toList = .ok r.selector := by
  rw [rules_parseAll] at hr
  refine Keyed.forall_mem_putAll (K := Rule.keyed)
    (P := fun r => Selector.parse r.text.toList = .ok r.selector) (fun _ _ h _ => h) ?_ ?_ r hr
  · exact List.forall_mem_nil _
  · intro r hr
    obtain ⟨w, hw, rfl⟩ := List.mem_map.1 hr
    exact parse_writtenRules hw

/-- An occurrence and a rule with one text have one selector. -/
theorem selector_eq (hr : r ∈ (parseAll sources).rules) (ho : o ∈ occurrences sources)
    (h : r.text = o.text) : r.selector = o.selector := by
  have hparse := parse_rules hr
  rw [h, parse_occurrences ho] at hparse
  exact (Except.ok.inj hparse).symm

end Stylesheet

end BoxFlow
