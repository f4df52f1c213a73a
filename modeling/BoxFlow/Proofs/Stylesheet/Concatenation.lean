import BoxFlow.Proofs.Stylesheet.Occurrences
import BoxFlow.Proofs.Text.Trimming

/-!
# One source behind another

A source is complete if its comments are closed and what is left without them is a sequence of
closed blocks with nothing but blanks behind the last one (`Source.IsComplete`). Whatever follows a
complete source is read as if it stood alone: no comment and no block reaches over the seam, and the
blanks at its end vanish when the next selector group is trimmed.

So a complete source and one behind it hold the written rules of the first and then those of the
second (`Stylesheet.writtenRules_append`), and the sheet of both is that of the first with that of
the second merged into it (`Stylesheet.parse_append`).
-/

set_option autoImplicit false

namespace BoxFlow

namespace Source

variable {cs ds inner introduction body blanks : List Char} {inComment : Bool} {depth : ℕ}

/-! ## Complete sources -/

/-- Whether a source ends inside a comment, read on from inside one when `inComment` holds. -/
def endsInComment : Bool → List Char → Bool
  | inComment, [] => inComment
  | false, '/' :: '*' :: cs => endsInComment true cs
  | false, _ :: cs => endsInComment false cs
  | true, '*' :: '/' :: cs => endsInComment false cs
  | true, _ :: cs => endsInComment true cs

/-- A text in which every brace has its partner. -/
inductive Balanced : List Char → Prop
  | nil : Balanced []
  | char {c : Char} {cs : List Char} : c ≠ '\x7b' → c ≠ '\x7d' → Balanced cs →
      Balanced (c :: cs)
  | block {inner cs : List Char} : Balanced inner → Balanced cs →
      Balanced ('\x7b' :: inner ++ '\x7d' :: cs)

/-- Blocks in balanced braces, each behind the text that introduces it, and blanks behind the last
one. -/
inductive ClosedBlocks : List Char → Prop
  | blanks {cs : List Char} : Text.isAllBlank cs → ClosedBlocks cs
  | block {introduction body cs : List Char} : '\x7b' ∉ introduction → Balanced body →
      ClosedBlocks cs → ClosedBlocks (introduction ++ '\x7b' :: body ++ '\x7d' :: cs)

/-- A source that closes all its comments and all its blocks, with only blanks behind the last
block. -/
structure IsComplete (source : List Char) : Prop where
  comments_closed : endsInComment false source = false
  blocks_closed : ClosedBlocks (withoutComments source)

/-- A text without braces is balanced. -/
theorem Balanced.of_notMem (hopen : '\x7b' ∉ cs) (hclose : '\x7d' ∉ cs) : Balanced cs := by
  induction cs with
  | nil => exact .nil
  | cons c cs ih =>
    rw [List.mem_cons, not_or] at hopen hclose
    exact .char (Ne.symm hopen.1) (Ne.symm hclose.1) (ih hopen.2 hclose.2)

theorem ClosedBlocks.getLast?_ne_slash (h : ClosedBlocks cs) : cs.getLast? ≠ some '/' := by
  induction h with
  | blanks hblank =>
    intro hlast
    exact Text.notMem_of_isAllBlank hblank (by decide) (List.mem_of_getLast? hlast)
  | @block introduction body cs _ _ _ ih =>
    rw [List.getLast?_append, List.getLast?_cons]
    cases hcs : cs.getLast? with
    | none => simp
    | some c => simpa [hcs] using ih

/-! ## Comments -/

/-- A source with another one behind it is read in two parts, the second from inside a comment if
the first one ends there, unless the last character of the first and the first one of the second
open or close a comment together. -/
theorem uncommentedFrom_append_of_seam (inComment : Bool) (cs ds : List Char)
    (hopens : endsInComment inComment cs = false →
      (uncommentedFrom inComment cs).getLast? = some '/' → ds.head? ≠ some '*')
    (hcloses : endsInComment inComment cs = true → ds.head? ≠ some '/') :
    uncommentedFrom inComment (cs ++ ds) =
      uncommentedFrom inComment cs ++ uncommentedFrom (endsInComment inComment cs) ds := by
  fun_induction uncommentedFrom inComment cs with
  | case1 inComment => rw [endsInComment, List.nil_append, List.nil_append]
  | case2 cs ih =>
    rw [endsInComment] at hopens hcloses
    rw [List.cons_append, List.cons_append, uncommentedFrom, endsInComment]
    exact ih hopens hcloses
  | case3 c cs hc ih =>
    rw [endsInComment.eq_3 _ _ hc] at hopens hcloses
    -- the character does not open a comment with what follows either
    have hseam : ∀ es, c = '/' → cs ++ ds = '*' :: es → False := by
      rintro es rfl hstar
      cases cs with
      | nil => exact hopens rfl rfl (congrArg List.head? hstar)
      | cons d cs =>
        obtain ⟨rfl, -⟩ := List.cons.inj hstar
        exact hc cs rfl rfl
    have hopens' : endsInComment false cs = false →
        (uncommentedFrom false cs).getLast? = some '/' → ds.head? ≠ some '*' := by
      intro hclosed hslash
      apply hopens hclosed
      rw [List.getLast?_cons, hslash, Option.getD_some]
    rw [List.cons_append, uncommentedFrom.eq_3 _ _ hseam, endsInComment.eq_3 _ _ hc,
      ih hopens' hcloses, List.cons_append]
  | case4 cs ih =>
    rw [endsInComment] at hopens hcloses
    rw [List.cons_append, List.cons_append, uncommentedFrom, endsInComment]
    exact ih hopens hcloses
  | case5 c cs hc ih =>
    rw [endsInComment.eq_5 _ _ hc] at hopens hcloses
    -- a star at the end of the source would leave the comment open
    have hseam : ∀ es, c = '*' → cs ++ ds = '/' :: es → False := by
      rintro es rfl hslash
      cases cs with
      | nil => exact hcloses rfl (congrArg List.head? hslash)
      | cons d cs =>
        obtain ⟨rfl, -⟩ := List.cons.inj hslash
        exact hc cs rfl rfl
    rw [List.cons_append, uncommentedFrom.eq_5 _ _ hseam, endsInComment.eq_5 _ _ hc]
    exact ih hopens hcloses

/-- Comments that are closed do not reach into what follows. A slash at the end is left out here,
because with a star behind it it would open a comment. -/
theorem uncommentedFrom_append (hclosed : endsInComment inComment cs = false)
    (hlast : (uncommentedFrom inComment cs).getLast? ≠ some '/') (ds : List Char) :
    uncommentedFrom inComment (cs ++ ds) =
      uncommentedFrom inComment cs ++ uncommentedFrom false ds := by
  have hread := uncommentedFrom_append_of_seam inComment cs ds (fun _ h => absurd h hlast)
    (fun h => absurd (hclosed.symm.trans h) (by decide))
  rwa [hclosed] at hread

/-- A character that neither starts nor ends a mark of a comment may stand at a seam. -/
theorem uncommentedFrom_append_cons {c : Char} (hstar : c ≠ '*') (hslash : c ≠ '/')
    (inComment : Bool) (cs ds : List Char) :
    uncommentedFrom inComment (cs ++ c :: ds) = uncommentedFrom inComment cs ++
      uncommentedFrom (endsInComment inComment cs) (c :: ds) :=
  uncommentedFrom_append_of_seam inComment cs (c :: ds)
    (fun _ _ h => hstar (Option.some.inj h)) (fun _ h => hslash (Option.some.inj h))

/-- Only what stands in a source is left of it without its comments. -/
theorem uncommentedFrom_sublist (inComment : Bool) (cs : List Char) :
    (uncommentedFrom inComment cs).Sublist cs := by
  fun_induction uncommentedFrom inComment cs with
  | case1 => exact List.Sublist.refl _
  | case2 cs ih => exact (ih.cons _).cons _
  | case3 c cs _ ih => exact ih.cons_cons c
  | case4 cs ih => exact (ih.cons _).cons _
  | case5 c cs _ ih => exact ih.cons c

theorem withoutComments_append (h : IsComplete cs) (ds : List Char) :
    withoutComments (cs ++ ds) = withoutComments cs ++ withoutComments ds :=
  uncommentedFrom_append h.comments_closed h.blocks_closed.getLast?_ne_slash ds

/-! ## Blocks -/

theorem outlineFrom_within_char {c : Char} (hopen : c ≠ '\x7b') (hclose : c ≠ '\x7d')
    (introduction body : List Char) (depth : ℕ) (cs : List Char) :
    outlineFrom (.within introduction body depth) (c :: cs) =
      outlineFrom (.within introduction (c :: body) depth) cs := by
  cases depth with
  | zero => rw [outlineFrom, if_neg hclose, if_neg hopen]
  | succ depth => rw [outlineFrom, if_neg hclose, if_neg hopen]

/-- An opening brace inside a block goes one level deeper. -/
theorem outlineFrom_within_open (introduction body : List Char) (depth : ℕ) (cs : List Char) :
    outlineFrom (.within introduction body depth) ('\x7b' :: cs) =
      outlineFrom (.within introduction ('\x7b' :: body) (depth + 1)) cs := by
  have hclose : ('\x7b' : Char) ≠ '\x7d' := by decide
  cases depth with
  | zero => rw [outlineFrom, if_neg hclose, if_pos rfl]
  | succ depth => rw [outlineFrom, if_neg hclose, if_pos rfl]

/-- A balanced text inside a block is read as a part of its body. -/
theorem outlineFrom_balanced (h : Balanced inner) (introduction body : List Char) (depth : ℕ)
    (cs : List Char) :
    outlineFrom (.within introduction body depth) (inner ++ cs) =
      outlineFrom (.within introduction (inner.reverse ++ body) depth) cs := by
  induction h generalizing body depth cs with
  | nil => rfl
  | @char c inner hopen hclose _ ih =>
    rw [List.cons_append, outlineFrom_within_char hopen hclose, ih, List.reverse_cons,
      List.append_assoc, List.singleton_append]
  | @block inner rest _ _ ih ih' =>
    -- the partner of the opening brace is met one level deeper, and brings the level back
    rw [List.append_assoc, List.cons_append, outlineFrom_within_open, ih, List.cons_append,
      outlineFrom, if_pos rfl, ih']
    simp only [List.reverse_append, List.reverse_cons, List.append_assoc, List.nil_append,
      List.cons_append]

/-- What stands in front of an opening brace introduces the block. -/
theorem outlineFrom_introduction (h : '\x7b' ∉ introduction) (before cs : List Char) :
    outlineFrom (.between before) (introduction ++ cs) =
      outlineFrom (.between (introduction.reverse ++ before)) cs := by
  induction introduction generalizing before with
  | nil => rfl
  | cons c introduction ih =>
    rw [List.mem_cons, not_or] at h
    rw [List.cons_append, outlineFrom, if_neg (Ne.symm h.1), ih h.2, List.reverse_cons,
      List.append_assoc, List.singleton_append]

/-- A closed block is read, and then what stands behind it. -/
theorem blocks_outlineFrom_block (hintroduction : '\x7b' ∉ introduction) (hbody : Balanced body)
    (cs : List Char) :
    (outlineFrom (.between []) (introduction ++ '\x7b' :: body ++ '\x7d' :: cs)).blocks =
      ⟨introduction, body⟩ :: (outlineFrom (.between []) cs).blocks := by
  rw [List.append_assoc, List.cons_append, outlineFrom_introduction hintroduction, outlineFrom,
    if_pos rfl, outlineFrom_balanced hbody, outlineFrom, if_pos rfl]
  simp only [List.append_nil, List.reverse_reverse]

/-- Blanks are no block. -/
theorem blocks_outlineFrom_blanks (h : Text.isAllBlank blanks) :
    (outlineFrom (.between []) blanks).blocks = [] := by
  have hopen : '\x7b' ∉ blanks := Text.notMem_of_isAllBlank h (by decide)
  have hread := outlineFrom_introduction hopen [] []
  rw [List.append_nil, List.append_nil] at hread
  rw [hread, outlineFrom]

/-- What is read from the blocks of a source does not change with a text in front of it that makes
no difference in front of an introduction. -/
theorem flatMap_blocks_within {α : Type} {f : RawBlock → List α} {front : List Char}
    (hf : ∀ introduction body, f ⟨front ++ introduction, body⟩ = f ⟨introduction, body⟩)
    (before body : List Char) (depth : ℕ) (cs : List Char) :
    (outlineFrom (.within (before ++ front.reverse) body depth) cs).blocks.flatMap f =
      (outlineFrom (.within before body depth) cs).blocks.flatMap f := by
  induction cs generalizing body depth with
  | nil => rfl
  | cons c cs ih =>
    by_cases hopen : c = '\x7b'
    · subst hopen
      rw [outlineFrom_within_open, outlineFrom_within_open]
      exact ih _ _
    · by_cases hclose : c = '\x7d'
      · subst hclose
        cases depth with
        | zero =>
          -- the block ends, and the next introduction starts anew
          rw [outlineFrom, if_pos rfl, outlineFrom, if_pos rfl]
          simp only [List.flatMap_cons, List.reverse_append, List.reverse_reverse, hf]
        | succ depth =>
          rw [outlineFrom, if_pos rfl, outlineFrom, if_pos rfl]
          exact ih _ _
      · rw [outlineFrom_within_char hopen hclose, outlineFrom_within_char hopen hclose]
        exact ih _ _

theorem flatMap_blocks_between {α : Type} {f : RawBlock → List α} {front : List Char}
    (hf : ∀ introduction body, f ⟨front ++ introduction, body⟩ = f ⟨introduction, body⟩)
    (before cs : List Char) :
    (outlineFrom (.between (before ++ front.reverse)) cs).blocks.flatMap f =
      (outlineFrom (.between before) cs).blocks.flatMap f := by
  induction cs generalizing before with
  | nil => rfl
  | cons c cs ih =>
    by_cases hopen : c = '\x7b'
    · rw [outlineFrom, if_pos hopen, outlineFrom, if_pos hopen]
      exact flatMap_blocks_within hf before [] 0 cs
    · rw [outlineFrom, if_neg hopen, outlineFrom, if_neg hopen]
      exact ih (c :: before)

end Source

namespace Stylesheet

open Source

/-- A text with only blanks behind its last semicolon does not change what a block is read for when
it stands in front of the introduction. -/
theorem writtenRules_front {front : List Char} (h : Text.isAllBlank (Text.afterLast ';' front))
    (introduction body : List Char) :
    RawBlock.writtenRules ⟨front ++ introduction, body⟩ =
      RawBlock.writtenRules ⟨introduction, body⟩ := by
  have hgroup : RawBlock.group ⟨front ++ introduction, body⟩ =
      RawBlock.group ⟨introduction, body⟩ :=
    Text.trim_afterLast_append h introduction
  rw [RawBlock.writtenRules, RawBlock.writtenRules, hgroup]

/-- Closed blocks and what stands behind them are read apart. -/
theorem flatMap_writtenRules_append {cs : List Char} (h : ClosedBlocks cs) (ds : List Char) :
    (outlineFrom (.between []) (cs ++ ds)).blocks.flatMap RawBlock.writtenRules =
      (outlineFrom (.between []) cs).blocks.flatMap RawBlock.writtenRules ++
        (outlineFrom (.between []) ds).blocks.flatMap RawBlock.writtenRules := by
  induction h with
  | @blanks cs hblank =>
    -- the blanks are taken for the start of the next introduction
    have hopen : '\x7b' ∉ cs := Text.notMem_of_isAllBlank hblank (by decide)
    have hskip := flatMap_blocks_between
      (writtenRules_front (Text.isAllBlank_afterLast hblank)) [] ds
    rw [outlineFrom_introduction hopen, blocks_outlineFrom_blanks hblank, List.flatMap_nil,
      List.nil_append, List.append_nil]
    exact hskip
  | @block introduction body cs hintroduction hbody _ ih =>
    rw [List.append_assoc, List.cons_append, blocks_outlineFrom_block hintroduction hbody,
      blocks_outlineFrom_block hintroduction hbody, List.flatMap_cons, List.flatMap_cons, ih,
      List.append_assoc]

theorem writtenRules_append {x : String} (h : IsComplete x.toList) (y : String) :
    writtenRules [x ++ y] = writtenRules [x] ++ writtenRules [y] := by
  simp only [writtenRules, List.flatMap_singleton, outline, String.toList_append,
    withoutComments_append h]
  exact flatMap_writtenRules_append h.blocks_closed _

/-- A single block whose selectors cannot be read holds no rule. -/
theorem writtenRules_eq_nil {x : String} {introduction body blanks : List Char} {e : SelectorError}
    (hx : withoutComments x.toList = introduction ++ '\x7b' :: body ++ '\x7d' :: blanks)
    (hintroduction : '\x7b' ∉ introduction) (hbody : Balanced body)
    (hblanks : Text.isAllBlank blanks)
    (hgroup : Selector.parseGroup (RawBlock.group ⟨introduction, body⟩) = .error e) :
    writtenRules [x] = [] := by
  rw [writtenRules, List.flatMap_singleton, outline, hx,
    blocks_outlineFrom_block hintroduction hbody, blocks_outlineFrom_blanks hblanks,
    List.flatMap_singleton, RawBlock.writtenRules, hgroup]

/-- The sheet of a complete source with another one behind it is that of the first with that of the
second merged into it. If the complete source is a single block whose selector group cannot be read,
it adds nothing, and the other source is read as if it stood alone. -/
theorem parse_append {x : String} (hx : IsComplete x.toList) (y : String) :
    parse (x ++ y) = (parse x).merge (parse y) ∧
      ∀ (introduction body blanks : List Char) (e : SelectorError),
        withoutComments x.toList = introduction ++ '\x7b' :: body ++ '\x7d' :: blanks →
        '\x7b' ∉ introduction → Balanced body → Text.isAllBlank blanks →
        Selector.parseGroup (RawBlock.group ⟨introduction, body⟩) = .error e →
        parse x = empty ∧ parse (x ++ y) = parse y := by
  have hboth : (parse (x ++ y)).rules = Rule.keyed.putAll (parse x).rules
      ((writtenRules [y]).map WrittenRule.toRule) := by
    rw [rules_parse, writtenRules_append hx, List.map_append, Keyed.putAll_append, rules_parse]
  refine ⟨ext_rules ?_, ?_⟩
  · rw [hboth, rules_merge_parse]
  · intro introduction body blanks e hblock hintroduction hbody hblanks hgroup
    have hnone := writtenRules_eq_nil hblock hintroduction hbody hblanks hgroup
    have hempty : parse x = empty := by
      apply ext_rules
      rw [rules_parse, hnone]
      rfl
    refine ⟨hempty, ext_rules ?_⟩
    rw [hboth, hempty, rules_parse]
    rfl

/-- A rule with a comment behind it, and a block whose selectors cannot be read, each in front of a
rule that declares another value. -/
theorem parse_append_rule_and_group :
    let rule := "p \x7b color: red \x7d /* \x7b */ "
    let skipped := "@media a \x7b p \x7b color: lime \x7d\x7d"
    let y := "p \x7b color: blue \x7d"
    IsComplete rule.toList ∧ IsComplete skipped.toList ∧
      parse (rule ++ y) = (parse rule).merge (parse y) ∧ parse (skipped ++ y) = parse y := by
  intro rule skipped y
  have hrule : withoutComments rule.toList =
      "p ".toList ++ '\x7b' :: " color: red ".toList ++ '\x7d' :: "  ".toList := by decide
  have hskipped : withoutComments skipped.toList =
      "@media a ".toList ++ '\x7b' :: " p \x7b color: lime \x7d".toList ++ '\x7d' :: [] := by decide
  have hbraces : Balanced ('\x7b' :: " color: lime ".toList ++ '\x7d' :: []) :=
    .block (.of_notMem (by decide) (by decide)) .nil
  have hinner : Balanced (" p \x7b color: lime \x7d".toList) :=
    .char (by decide) (by decide) (.char (by decide) (by decide) (.char (by decide) (by decide)
      hbraces))
  have hcomplete : IsComplete rule.toList :=
    ⟨by decide, hrule ▸ .block (by decide) (.of_notMem (by decide) (by decide))
      (.blanks (by decide))⟩
  have hcomplete' : IsComplete skipped.toList :=
    ⟨by decide, hskipped ▸ .block (by decide) hinner (.blanks (by decide))⟩
  have hgroup : Selector.parseGroup
      (RawBlock.group ⟨"@media a ".toList, " p \x7b color: lime \x7d".toList⟩) =
        .error (.unsupportedCombinator .descendant) := rfl
  exact ⟨hcomplete, hcomplete', (parse_append hcomplete y).1,
    ((parse_append hcomplete' y).2 _ _ [] _ hskipped (by decide) hinner (by decide) hgroup).2⟩

end Stylesheet

end BoxFlow
