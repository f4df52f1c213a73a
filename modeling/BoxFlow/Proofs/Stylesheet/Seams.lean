import BoxFlow.Proofs.Selector.Reading
import BoxFlow.Proofs.Stylesheet.Concatenation
import BoxFlow.Proofs.Stylesheet.MergeLaws

/-!
# Sources joined line by line

What a source leaves open reaches into the source behind it. A source is sealed if it leaves nothing
open: its comments and blocks are closed, and only blanks stand behind its last block, or behind the
last semicolon after that (`Source.IsSealed`).

The source behind a sealed one and a line break is read as if it stood alone
(`Stylesheet.writtenRules_append_line`). Behind any other source there is one that is misread: its
rule is lost in the open comment or block, or the selector of the rule is read together with the
text in front of it (`Stylesheet.exists_parse_line_ne`). So a source is sealed exactly if the sheet
of it and any other one on the lines behind it is their sheets merged (`Stylesheet.isSealed_iff`).
-/

set_option autoImplicit false

namespace BoxFlow

namespace Source

variable {cs ds : List Char}

/-! ## Where a source ends -/

namespace Place

/-- The place behind one more character. -/
def read : Place → Char → Place
  | .between introduction, c =>
    if c = '\x7b' then .within introduction [] 0 else .between (c :: introduction)
  | .within introduction body depth, c =>
    if c = '\x7d' then
      match depth with
      | 0 => .between []
      | depth + 1 => .within introduction (c :: body) depth
    else .within introduction (c :: body) (if c = '\x7b' then depth + 1 else depth)

/-- The place behind a text. -/
def after (place : Place) (cs : List Char) : Place := cs.foldl read place

/-- Whether a block that opens here has no selector but what is still to come. -/
def isFree : Place → Bool
  | .between introduction => Text.isAllBlank (Text.afterLast ';' introduction.reverse)
  | .within .. => false

end Place

theorem blocks_outlineFrom_nil (place : Place) : (outlineFrom place []).blocks = [] := by
  cases place <;> rfl

/-- Blocks that are closed stay as they are, and reading goes on at the place behind them. -/
theorem blocks_outlineFrom_append (place : Place) (cs ds : List Char) :
    (outlineFrom place (cs ++ ds)).blocks =
      (outlineFrom place cs).blocks ++ (outlineFrom (place.after cs) ds).blocks := by
  -- along the first text; what each character does to the place is the case split of `read`
  induction cs generalizing place with
  | nil =>
    rw [blocks_outlineFrom_nil]
    rfl
  | cons c cs ih =>
    have hafter : place.after (c :: cs) = (place.read c).after cs := rfl
    rw [hafter, List.cons_append]
    cases place with
    | between introduction =>
      rw [outlineFrom, outlineFrom, Place.read]
      split <;> exact ih _
    | within introduction body depth =>
      cases depth with
      | zero =>
        rw [outlineFrom, outlineFrom, Place.read]
        split
        · -- the only character that adds a block
          simp only [ih, List.cons_append]
        · exact ih _
      | succ depth =>
        rw [outlineFrom, outlineFrom, Place.read]
        split <;> exact ih _

/-- The place behind a source. -/
def endPlace (source : List Char) : Place := (Place.between []).after (withoutComments source)

/-- A source that leaves nothing open: its comments and blocks are closed, and only blanks stand
behind the last block, or behind the last semicolon after it. -/
structure IsSealed (source : List Char) : Prop where
  comments_closed : endsInComment false source = false
  place_free : (endPlace source).isFree = true

instance (source : List Char) : Decidable (IsSealed source) :=
  decidable_of_iff (endsInComment false source = false ∧ (endPlace source).isFree = true)
    ⟨fun h => ⟨h.1, h.2⟩, fun h => ⟨h.comments_closed, h.place_free⟩⟩

theorem exists_between_of_isFree {place : Place} (h : place.isFree) :
    ∃ introduction, place = .between introduction ∧
      Text.isAllBlank (Text.afterLast ';' introduction.reverse) := by
  cases place with
  | between introduction => exact ⟨introduction, rfl, h⟩
  | within introduction body depth => exact absurd h Bool.false_ne_true

/-- A comment that is open swallows a text that does not close it. -/
theorem uncommentedFrom_true_eq_nil (h : '*' ∉ ds) : uncommentedFrom true ds = [] := by
  induction ds with
  | nil => rfl
  | cons c ds ih =>
    rw [List.mem_cons, not_or] at h
    rw [uncommentedFrom.eq_5 _ _ fun _ hc => absurd hc.symm h.1, ih h.2]

/-- A text without stars has no comments. -/
theorem withoutComments_eq_self (h : '*' ∉ ds) : withoutComments ds = ds := by
  rw [withoutComments]
  induction ds with
  | nil => rfl
  | cons c ds ih =>
    rw [List.mem_cons, not_or] at h
    have hopens : ∀ es, c = '/' → ds = '*' :: es → False := by
      rintro es - rfl
      exact h.2 List.mem_cons_self
    rw [uncommentedFrom.eq_3 _ _ hopens, ih h.2]

/-- The blocks of a source with another one on the next line. -/
theorem blocks_outline_line (cs ds : List Char) :
    (outline (cs ++ '\n' :: ds)).blocks = (outline cs).blocks ++ (outlineFrom (endPlace cs)
      (uncommentedFrom (endsInComment false cs) ('\n' :: ds))).blocks := by
  rw [outline, withoutComments, uncommentedFrom_append_cons (by decide) (by decide),
    blocks_outlineFrom_append]
  rfl

/-! ## Groups -/

theorem groupPiecesFrom_of_notMem (h : ',' ∉ ds) (depth : ℕ) (current : List Char) :
    groupPiecesFrom depth current ds = [current.reverse ++ ds] := by
  induction ds generalizing depth current with
  | nil => rw [groupPiecesFrom, List.append_nil]
  | cons c ds ih =>
    rw [List.mem_cons, not_or] at h
    have hc : ¬ (decide (c = ',') && depth == 0) = true := by simp [Ne.symm h.1]
    rw [groupPiecesFrom, if_neg hc, ih h.2, List.reverse_cons, List.append_assoc,
      List.singleton_append]

/-- The first piece of a group is settled at its comma. Without one it goes on in what follows. -/
theorem groupPiecesFrom_append (depth : ℕ) (current cs : List Char) :
    (∃ first, ∀ ds, ∃ rest, groupPiecesFrom depth current (cs ++ ds) = first :: rest) ∨
      ∀ ds, ',' ∉ ds →
        groupPiecesFrom depth current (cs ++ ds) = [current.reverse ++ cs ++ ds] := by
  -- only the depth and the piece so far change before the first comma, so both are general
  induction cs generalizing depth current with
  | nil =>
    refine .inr ?_
    intro ds hds
    rw [List.append_nil]
    exact groupPiecesFrom_of_notMem hds depth current
  | cons c cs ih =>
    by_cases hc : (decide (c = ',') && depth == 0) = true
    · refine .inl ⟨current.reverse, ?_⟩
      intro ds
      exact ⟨_, by rw [List.cons_append, groupPiecesFrom, if_pos hc]⟩
    · have hnext : ∀ ds, groupPiecesFrom depth current (c :: cs ++ ds) =
          groupPiecesFrom (if c = '(' then depth + 1 else if c = ')' then depth - 1 else depth)
            (c :: current) (cs ++ ds) := by
        intro ds
        rw [List.cons_append, groupPiecesFrom, if_neg hc]
      simp only [hnext]
      rcases ih _ (c :: current) with hfirst | hall
      · exact .inl hfirst
      · refine .inr ?_
        intro ds hds
        rw [hall ds hds, List.reverse_cons, List.append_assoc current.reverse,
          List.singleton_append]

end Source

namespace Stylesheet

open Source

variable {x y : String}

/-! ## Sealed sources -/

theorem toList_line (x y : String) : (x ++ "\n" ++ y).toList = x.toList ++ '\n' :: y.toList := by
  rw [String.toList_append, String.toList_append, List.append_assoc]
  rfl

/-- What is written in a source with another one on the next line. -/
theorem writtenRules_line (x y : String) :
    writtenRules [x ++ "\n" ++ y] = writtenRules [x] ++
      (outlineFrom (endPlace x.toList) (uncommentedFrom (endsInComment false x.toList)
        ('\n' :: y.toList))).blocks.flatMap RawBlock.writtenRules := by
  simp only [writtenRules, List.flatMap_singleton, toList_line, blocks_outline_line,
    List.flatMap_append]

theorem writtenRules_append_line (h : IsSealed x.toList) (y : String) :
    writtenRules [x ++ "\n" ++ y] = writtenRules [x] ++ writtenRules [y] := by
  obtain ⟨introduction, hplace, hblank⟩ := exists_between_of_isFree h.place_free
  -- what is left behind the last semicolon, and the line break, do not count for the next selector
  have hfront : Text.isAllBlank (Text.afterLast ';' ('\n' :: introduction).reverse) := by
    rw [List.reverse_cons, Text.afterLast_append_of_notMem (by decide), Text.isAllBlank,
      List.all_append, ← Text.isAllBlank, hblank]
    rfl
  have hskip := flatMap_blocks_between (writtenRules_front hfront) [] (withoutComments y.toList)
  rw [List.reverse_reverse, List.nil_append] at hskip
  have hread : uncommentedFrom false ('\n' :: y.toList) = '\n' :: withoutComments y.toList := by
    rw [uncommentedFrom.eq_3 _ _ fun _ hc => absurd hc (by decide)]
    rfl
  rw [writtenRules_line, h.comments_closed, hplace, hread, outlineFrom, if_neg (by decide), hskip]
  simp only [writtenRules, List.flatMap_singleton, outline]

/-! ## What a source declares -/

/-- What the sheet of a source declares is said by the last occurrence in it. -/
theorem value?_parse (source t p : String) :
    (parse source).value? t p =
      (lastOccurrence? t p (occurrences [source])).map Occurrence.value := by
  rw [value?, get?_eq_find?, rules_parse, Option.bind_map, occurrences, ← get?_putAll_toRule]
  rfl

/-- More rules written behind those of a source may declare another value. -/
theorem value?_parse_of_written {ws : List WrittenRule}
    (h : writtenRules [y] = writtenRules [x] ++ ws) (t p : String) :
    (parse y).value? t p =
      ((lastOccurrence? t p (ws.flatMap WrittenRule.occurrences)).map Occurrence.value).or
        ((parse x).value? t p) := by
  rw [value?_parse, value?_parse, occurrences, h, List.flatMap_append, lastOccurrence?_append,
    Option.map_or, occurrences]

/-- The rules that declare one value of one property under some selectors. -/
def uniformRules (selectors : List (String × Selector)) (p v : String) : List WrittenRule :=
  selectors.map fun pair => ⟨pair.1, pair.2, [(p, v)]⟩

theorem mem_occurrences_uniformRules {selectors : List (String × Selector)} {p v : String}
    {o : Occurrence} (ho : o ∈ (uniformRules selectors p v).flatMap WrittenRule.occurrences) :
    o.text ∈ selectors.map Prod.fst ∧ o.value = v := by
  obtain ⟨w, hw, how⟩ := List.mem_flatMap.1 ho
  obtain ⟨pair, hpair, rfl⟩ := List.mem_map.1 hw
  rw [List.mem_singleton.1 how]
  exact ⟨List.mem_map_of_mem hpair, rfl⟩

/-- What they declare, they declare under just these selectors. -/
theorem lastOccurrence?_uniformRules (selectors : List (String × Selector)) (t p v : String) :
    (lastOccurrence? t p ((uniformRules selectors p v).flatMap WrittenRule.occurrences)).map
      Occurrence.value = if t ∈ selectors.map Prod.fst then some v else none := by
  cases hlast : lastOccurrence? t p
      ((uniformRules selectors p v).flatMap WrittenRule.occurrences) with
  | some o =>
    -- all occurrences have one value, so it does not matter which one was last
    have ho := List.mem_reverse.1 (List.mem_of_find?_eq_some hlast)
    obtain ⟨hmem, hvalue⟩ := mem_occurrences_uniformRules ho
    rw [(eq_of_lastOccurrence? hlast).1] at hmem
    rw [if_pos hmem, Option.map_some, hvalue]
  | none =>
    rw [Option.map_none, if_neg]
    intro hmem
    obtain ⟨pair, hpair, rfl⟩ := List.mem_map.1 hmem
    have ho : ⟨pair.1, pair.2, p, v⟩ ∈
        (uniformRules selectors p v).flatMap WrittenRule.occurrences :=
      List.mem_flatMap.2 ⟨_, List.mem_map_of_mem hpair, List.mem_singleton.2 rfl⟩
    have hnot := List.find?_eq_none.1 hlast _ (List.mem_reverse.2 ho)
    exact hnot (decide_eq_true ⟨rfl, rfl⟩)

/-! ## Sources that leave something open -/

/-- No selector goes over a line break. -/
theorem parse_ne_ok_of_mem {text : List Char} (h : '\n' ∈ text) (selector : Selector) :
    Selector.parse text ≠ .ok selector := by
  intro hread
  have hwritten := (Selector.parse_eq_ok_iff.1 hread).2
  exact absurd (hwritten.isForbidden_of_mem h) (by decide)

/-- A rule that gives a color to the elements of a tag. -/
def colorRule (tag : Char) (color : String) : String :=
  .ofList (tag :: '\x7b' :: ("color:" ++ color).toList ++ ['\x7d'])

/-- A tag on the line below a text of which more than blanks is left is in a group with that. -/
theorem trim_afterLast_line {front : List Char} {tag : Char} (htag : tag ∈ ['p', 'b'])
    (hfront : ¬ Text.isAllBlank (Text.afterLast ';' front)) :
    Text.trim (Text.afterLast ';' (front ++ ['\n', tag])) =
      Text.trimStart (Text.afterLast ';' front) ++ ['\n', tag] := by
  have hsep : ';' ∉ ['\n', tag] := by rcases List.mem_pair.1 htag with rfl | rfl <;> decide
  have hink : Text.isBlank tag = false := by rcases List.mem_pair.1 htag with rfl | rfl <;> rfl
  have hend := Text.trimEnd_concat hink (Text.trimStart (Text.afterLast ';' front) ++ ['\n'])
  rw [List.append_assoc, List.singleton_append] at hend
  rw [Text.afterLast_append_of_notMem hsep, Text.trim, Text.trimStart_append_of_not hfront, hend]

/-- Of two tags, there is one that is not the only selector of the group in which it stands on the
line below a text of which more than blanks is left. -/
theorem exists_tag_parseGroup {front : List Char}
    (hfront : ¬ Text.isAllBlank (Text.afterLast ';' front)) :
    ∃ tag ∈ ['p', 'b'], ∀ selectors,
      Selector.parseGroup (Text.trim (Text.afterLast ';' (front ++ ['\n', tag]))) = .ok selectors →
        ∃ pair ∈ selectors, pair.1 ≠ String.ofList [tag] := by
  rcases groupPiecesFrom_append 0 [] (Text.trimStart (Text.afterLast ';' front)) with
    ⟨first, hfirst⟩ | hall
  · -- the first selector does not depend on the tag, so one of the tags is another one
    obtain ⟨tag, htag, hne⟩ : ∃ tag ∈ ['p', 'b'], Text.trim first ≠ [tag] := by
      by_cases hp : Text.trim first = ['p']
      · exact ⟨'b', by decide, by rw [hp]; decide⟩
      · exact ⟨'p', by decide, hp⟩
    refine ⟨tag, htag, ?_⟩
    intro selectors hread
    rw [trim_afterLast_line htag hfront] at hread
    obtain ⟨rest, hpieces⟩ := hfirst ['\n', tag]
    have hmem : Text.trim first ∈
        groupPieces (Text.trimStart (Text.afterLast ';' front) ++ ['\n', tag]) := by
      rw [groupPieces, hpieces]
      exact List.mem_cons_self
    obtain ⟨pair, hpair, htext, -⟩ := exists_mem_parseGroup hread hmem
    refine ⟨pair, hpair, ?_⟩
    rw [htext]
    exact fun heq => hne (String.ofList_injective heq)
  · -- the group is a single selector, and that would go over the line break
    refine ⟨'p', by decide, ?_⟩
    intro selectors hread
    have hline := trim_afterLast_line (show 'p' ∈ ['p', 'b'] by decide) hfront
    have htrim := Text.trim_trim (Text.afterLast ';' (front ++ ['\n', 'p']))
    rw [hline] at hread htrim
    have hmem : Text.trimStart (Text.afterLast ';' front) ++ ['\n', 'p'] ∈
        groupPieces (Text.trimStart (Text.afterLast ';' front) ++ ['\n', 'p']) := by
      rw [groupPieces, hall _ (by decide), List.map_singleton, List.reverse_nil, List.nil_append,
        htrim]
      exact List.mem_singleton.2 rfl
    obtain ⟨pair, -, -, hparse⟩ := exists_mem_parseGroup hread hmem
    exact absurd hparse (parse_ne_ok_of_mem (List.mem_append_right _ List.mem_cons_self) pair.2)

variable {tag : Char} {color : String}

theorem star_notMem_colorRule (htag : tag ∈ ['p', 'b']) (hcolor : color ∈ ["red", "blue"]) :
    '*' ∉ '\n' :: (colorRule tag color).toList := by
  rcases List.mem_pair.1 htag with rfl | rfl <;>
    rcases List.mem_pair.1 hcolor with rfl | rfl <;> decide

theorem balanced_colorRule (hcolor : color ∈ ["red", "blue"]) :
    Balanced ("color:" ++ color).toList := by
  rcases List.mem_pair.1 hcolor with rfl | rfl <;> exact .of_notMem (by decide) (by decide)

theorem bodySettings_colorRule (hcolor : color ∈ ["red", "blue"]) :
    Block.bodySettings ("color:" ++ color).toList = [("color", color)] := by
  rcases List.mem_pair.1 hcolor with rfl | rfl <;> decide

theorem writtenRules_colorRule (htag : tag ∈ ['p', 'b']) (hcolor : color ∈ ["red", "blue"]) :
    writtenRules [colorRule tag color] =
      uniformRules [(String.ofList [tag], { tag := String.ofList [tag] })] "color" color := by
  rcases List.mem_pair.1 htag with rfl | rfl <;>
    rcases List.mem_pair.1 hcolor with rfl | rfl <;> decide

theorem toList_colorRule_line (tag : Char) (color : String) :
    '\n' :: (colorRule tag color).toList =
      ['\n', tag] ++ '\x7b' :: ("color:" ++ color).toList ++ ['\x7d'] := by
  rw [colorRule, String.toList_ofList]
  rfl

/-- Within a block, the rule is a part of that. -/
theorem blocks_within_colorRule (htag : tag ∈ ['p', 'b']) (hcolor : color ∈ ["red", "blue"])
    (introduction body : List Char) (depth : ℕ) :
    (outlineFrom (.within introduction body depth)
      ('\n' :: (colorRule tag color).toList)).blocks = [] := by
  have hbrace : tag ≠ '\x7b' ∧ tag ≠ '\x7d' := by
    rcases List.mem_pair.1 htag with rfl | rfl <;> decide
  have hbalanced : Balanced ('\n' :: (colorRule tag color).toList) := by
    rw [toList_colorRule_line]
    exact .char (by decide) (by decide) (.char hbrace.1 hbrace.2
      (.block (balanced_colorRule hcolor) .nil))
  have hread := outlineFrom_balanced hbalanced introduction body depth []
  rw [List.append_nil] at hread
  rw [hread, blocks_outlineFrom_nil]

/-- Between blocks, the rule is a block, and what stands in front of it is a part of its
introduction. -/
theorem blocks_between_colorRule (htag : tag ∈ ['p', 'b']) (hcolor : color ∈ ["red", "blue"])
    (introduction : List Char) :
    (outlineFrom (.between introduction) ('\n' :: (colorRule tag color).toList)).blocks =
      [⟨introduction.reverse ++ ['\n', tag], ("color:" ++ color).toList⟩] := by
  have hopen : '\x7b' ∉ ['\n', tag] := by rcases List.mem_pair.1 htag with rfl | rfl <;> decide
  rw [toList_colorRule_line, List.append_assoc, outlineFrom_introduction hopen, List.cons_append,
    outlineFrom, if_pos rfl, outlineFrom_balanced (balanced_colorRule hcolor), outlineFrom,
    if_pos rfl, outlineFrom]
  simp only [List.append_nil, List.reverse_append, List.reverse_reverse]

/-- On the line behind a source, the rules for a tag are read under some selectors, whatever color
they give, but not under the tag alone. -/
structure Misreads (x : String) (tag : Char) (selectors : List (String × Selector)) : Prop where
  tag_mem : tag ∈ ['p', 'b']
  others : selectors = [] ∨ ∃ pair ∈ selectors, pair.1 ≠ String.ofList [tag]
  written : ∀ color ∈ ["red", "blue"], writtenRules [x ++ "\n" ++ colorRule tag color] =
    writtenRules [x] ++ uniformRules selectors "color" color

/-- An open comment takes the rule in. -/
theorem misreads_of_comment (h : endsInComment false x.toList = true) : Misreads x 'p' [] := by
  refine ⟨by decide, .inl rfl, ?_⟩
  intro color hcolor
  rw [writtenRules_line, h, uncommentedFrom_true_eq_nil (star_notMem_colorRule (by decide) hcolor),
    blocks_outlineFrom_nil]
  rfl

/-- Behind closed comments, the rule is read on from where the source ends. -/
theorem writtenRules_colorRule_line (h : endsInComment false x.toList = false)
    (htag : tag ∈ ['p', 'b']) (hcolor : color ∈ ["red", "blue"]) :
    writtenRules [x ++ "\n" ++ colorRule tag color] = writtenRules [x] ++
      (outlineFrom (endPlace x.toList) ('\n' :: (colorRule tag color).toList)).blocks.flatMap
        RawBlock.writtenRules := by
  have hread : uncommentedFrom false ('\n' :: (colorRule tag color).toList) =
      '\n' :: (colorRule tag color).toList :=
    withoutComments_eq_self (star_notMem_colorRule htag hcolor)
  rw [writtenRules_line, h, hread]

/-- An open block takes the rule in. -/
theorem misreads_of_within (h : endsInComment false x.toList = false)
    {introduction body : List Char} {depth : ℕ}
    (hplace : endPlace x.toList = .within introduction body depth) : Misreads x 'p' [] := by
  refine ⟨by decide, .inl rfl, ?_⟩
  intro color hcolor
  rw [writtenRules_colorRule_line h (by decide) hcolor, hplace,
    blocks_within_colorRule (by decide) hcolor]
  rfl

/-- What stands open between blocks is read together with the tag of the rule. -/
theorem exists_misreads_of_between (h : endsInComment false x.toList = false)
    {introduction : List Char} (hplace : endPlace x.toList = .between introduction)
    (hfront : ¬ Text.isAllBlank (Text.afterLast ';' introduction.reverse)) :
    ∃ tag selectors, Misreads x tag selectors := by
  obtain ⟨tag, htag, hother⟩ := exists_tag_parseGroup hfront
  have hwritten : ∀ color ∈ ["red", "blue"], writtenRules [x ++ "\n" ++ colorRule tag color] =
      writtenRules [x] ++ RawBlock.writtenRules
        ⟨introduction.reverse ++ ['\n', tag], ("color:" ++ color).toList⟩ := by
    intro color hcolor
    rw [writtenRules_colorRule_line h htag hcolor, hplace, blocks_between_colorRule htag hcolor,
      List.flatMap_singleton]
  -- the group is the same for all colors, so it is read in the same way
  cases hgroup : Selector.parseGroup
      (Text.trim (Text.afterLast ';' (introduction.reverse ++ ['\n', tag]))) with
  | error e =>
    refine ⟨tag, [], htag, .inl rfl, ?_⟩
    intro color hcolor
    rw [hwritten color hcolor, RawBlock.writtenRules, RawBlock.group, hgroup]
    rfl
  | ok selectors =>
    refine ⟨tag, selectors, htag, .inr (hother selectors hgroup), ?_⟩
    intro color hcolor
    rw [hwritten color hcolor, RawBlock.writtenRules, RawBlock.group, hgroup]
    simp only [bodySettings_colorRule hcolor]
    rfl

theorem exists_misreads (h : ¬ IsSealed x.toList) : ∃ tag selectors, Misreads x tag selectors := by
  cases hcomment : endsInComment false x.toList with
  | true => exact ⟨'p', [], misreads_of_comment hcomment⟩
  | false =>
    cases hplace : endPlace x.toList with
    | within introduction body depth => exact ⟨'p', [], misreads_of_within hcomment hplace⟩
    | between introduction =>
      refine exists_misreads_of_between hcomment hplace ?_
      intro hblank
      refine h ⟨hcomment, ?_⟩
      rw [hplace]
      exact hblank

/-- Behind a source that is not sealed, there is one that is not read as if it stood alone. -/
theorem exists_parse_line_ne (h : ¬ IsSealed x.toList) :
    ∃ y, parse (x ++ "\n" ++ y) ≠ (parse x).merge (parse y) := by
  obtain ⟨tag, selectors, htag, hselectors, hwritten⟩ := exists_misreads h
  -- a selector under which the rule counts on its own or behind the source, but not in both cases
  obtain ⟨t, ht⟩ : ∃ t, t ∈ selectors.map Prod.fst ↔ t ≠ String.ofList [tag] := by
    rcases hselectors with rfl | ⟨pair, hpair, hne⟩
    · exact ⟨String.ofList [tag], iff_of_false List.not_mem_nil (not_not.2 rfl)⟩
    · exact ⟨pair.1, iff_of_true (List.mem_map_of_mem hpair) hne⟩
  -- one of two colors is not what the source in front declares under this selector
  obtain ⟨color, hcolor, hne⟩ :
      ∃ color ∈ ["red", "blue"], (parse x).value? t "color" ≠ some color := by
    by_cases hred : (parse x).value? t "color" = some "red"
    · exact ⟨"blue", by decide, by rw [hred]; decide⟩
    · exact ⟨"red", by decide, hred⟩
  refine ⟨colorRule tag color, ?_⟩
  intro heq
  have hjoined := value?_parse_of_written (hwritten color hcolor) t "color"
  have hmerged := value?_merge (Reachable.parse (colorRule tag color)).nodup_keys (parse x) t
    "color"
  rw [value?_parse, occurrences, writtenRules_colorRule htag hcolor, lastOccurrence?_uniformRules,
    ← heq, hjoined, lastOccurrence?_uniformRules] at hmerged
  have hown : t ∈ List.map Prod.fst [(String.ofList [tag],
      ({ tag := String.ofList [tag] } : Selector))] ↔ t = String.ofList [tag] := List.mem_singleton
  by_cases htext : t = String.ofList [tag]
  · rw [if_neg (fun hmem => ht.1 hmem htext), if_pos (hown.2 htext)] at hmerged
    exact hne hmerged
  · rw [if_pos (ht.2 htext), if_neg (fun hmem => htext (hown.1 hmem))] at hmerged
    exact hne hmerged.symm

theorem parse_append_line (h : IsSealed x.toList) (y : String) :
    parse (x ++ "\n" ++ y) = (parse x).merge (parse y) := by
  apply ext_rules
  rw [rules_merge_parse, rules_parse, writtenRules_append_line h, List.map_append,
    Keyed.putAll_append, rules_parse]

/-- A source is sealed exactly if whatever stands on the lines behind it is read as if it stood
alone. -/
theorem isSealed_iff (x : String) :
    IsSealed x.toList ↔ ∀ y, parse (x ++ "\n" ++ y) = (parse x).merge (parse y) := by
  constructor
  · exact parse_append_line
  · intro hread
    by_contra hopen
    obtain ⟨y, hy⟩ := exists_parse_line_ne hopen
    exact hy (hread y)

/-! ## Lists of sources -/

theorem joinWith_cons_cons (sep x y : String) (ys : List String) :
    Text.joinWith sep (x :: y :: ys) = x ++ sep ++ Text.joinWith sep (y :: ys) := by
  rw [Text.joinWith, Text.joinWith, List.map_cons, List.map_cons, List.intercalate_cons_cons,
    String.ofList_append, String.ofList_append, String.ofList_toList, String.ofList_toList]

theorem joinWith_singleton (sep x : String) : Text.joinWith sep [x] = x := by
  rw [Text.joinWith, List.map_singleton, List.intercalate_singleton, String.ofList_toList]

/-- Sealed sources in front of others are read as if each stood alone. -/
theorem writtenRules_joinWith {clean : List String} (h : ∀ x ∈ clean, IsSealed x.toList)
    (rest : List String) :
    writtenRules [Text.joinWith "\n" (clean ++ rest)] =
      writtenRules clean ++ writtenRules [Text.joinWith "\n" rest] := by
  induction clean with
  | nil => rfl
  | cons x clean ih =>
    obtain ⟨hx, hclean⟩ := List.forall_mem_cons.1 h
    have hcons : writtenRules (x :: clean) = writtenRules [x] ++ writtenRules clean := by
      rw [writtenRules, List.flatMap_cons, writtenRules, List.flatMap_singleton, writtenRules]
    rw [hcons, List.append_assoc, ← ih hclean, List.cons_append]
    cases clean ++ rest with
    | nil =>
      have hnone : writtenRules [Text.joinWith "\n" []] = [] := rfl
      rw [joinWith_singleton, hnone, List.append_nil]
    | cons y ys => rw [joinWith_cons_cons, writtenRules_append_line hx]

/-- The sheet of sealed sources and others behind them is that of the sealed ones, each read on its
own, with that of the others merged into it. -/
theorem parse_joinWith {clean : List String} (h : ∀ x ∈ clean, IsSealed x.toList)
    (rest : List String) :
    parse (Text.joinWith "\n" (clean ++ rest)) =
      (parseAll clean).merge (parse (Text.joinWith "\n" rest)) := by
  apply ext_rules
  rw [rules_merge_parse, rules_parseAll, rules_parse, writtenRules_joinWith h, List.map_append,
    Keyed.putAll_append]

/-- The last of several sources may be left open. -/
theorem parse_joinWith_of_dropLast {texts : List String}
    (h : ∀ x ∈ texts.dropLast, IsSealed x.toList) :
    parse (Text.joinWith "\n" texts) = parseAll texts := by
  rcases List.eq_nil_or_concat texts with rfl | ⟨clean, last, rfl⟩
  · rfl
  · rw [List.concat_eq_append, List.dropLast_concat] at h
    have hlast : parseAll (clean ++ [last]) = (parseAll clean).merge (parse last) :=
      List.foldl_append
    rw [List.concat_eq_append, parse_joinWith h, joinWith_singleton, hlast]

end Stylesheet

end BoxFlow
