import BoxFlow.Proofs.Selector.Nesting
import BoxFlow.Proofs.Stylesheet.RuleText

/-!
# Rules with several selectors

The selectors of a rule are joined with commas, and may have commas of their own in brackets or
parentheses (`Source.IsMember`). A group is cut by counting parentheses, and brackets do not count.
So the comma in `[a="x,y"]` cuts, and the one behind `[a="("]` does not. Where the count is right
about all commas (`Source.CutsBetween`), the pieces are the members (`Source.groupPieces_joined`).

Where it is wrong, some piece is no selector, if all members close what they open
(`Source.cutsBetween_of_isSelector`): the piece in front of a comma in a member leaves something
open, and a piece that goes on behind a member has a blank outside. So the rule of such a group adds
nothing to the sheet, while a group that is cut between its members has one rule for each of them
(`Stylesheet.parse_groupRule`).
-/

set_option autoImplicit false

namespace BoxFlow

namespace Source

open Nesting

variable {cs ds front back m m' : List Char} {ms : List (List Char)} {depth : ℕ}

/-! ## Where a group is cut -/

/-- A text whose commas are in parentheses goes into one piece with what follows. -/
theorem groupPiecesFrom_append_of_hides (h : parens.hides ',' depth cs = true)
    (current ds : List Char) :
    groupPiecesFrom depth current (cs ++ ds) =
      groupPiecesFrom (parens.after depth cs) (cs.reverse ++ current) ds := by
  induction cs generalizing depth current with
  | nil => rfl
  | cons c cs ih =>
    rw [hides, Bool.and_eq_true] at h
    have hc : ¬ (decide (c = ',') && depth == 0) = true := by
      simpa [parens, not_or, imp_iff_not_or] using h.1
    rw [List.cons_append, groupPiecesFrom, if_neg hc, List.reverse_cons, List.append_assoc,
      List.singleton_append]
    exact ih h.2 (c :: current)

/-- Where the parentheses are closed, a comma ends the piece. -/
theorem groupPiecesFrom_append_comma (h : parens.hides ',' 0 cs = true)
    (hclosed : parens.after 0 cs = 0) (ds : List Char) :
    groupPiecesFrom 0 [] (cs ++ ',' :: ds) = cs :: groupPiecesFrom 0 [] ds := by
  have hcuts : groupPiecesFrom 0 cs.reverse (',' :: ds) =
      cs.reverse.reverse :: groupPiecesFrom 0 [] ds := rfl
  rw [groupPiecesFrom_append_of_hides h, hclosed, List.append_nil, hcuts, List.reverse_reverse]

/-- The first piece starts with what was read of it before. -/
theorem exists_groupPiecesFrom (depth : ℕ) (current cs : List Char) :
    ∃ more rest, groupPiecesFrom depth current cs = (current.reverse ++ more) :: rest := by
  induction cs generalizing depth current with
  | nil => exact ⟨[], [], by rw [groupPiecesFrom, List.append_nil]⟩
  | cons c cs ih =>
    rw [groupPiecesFrom]
    split
    · exact ⟨[], _, by rw [List.append_nil]⟩
    · obtain ⟨more, rest, hmore⟩ := ih (if c = '(' then depth + 1 else if c = ')' then depth - 1
        else depth) (c :: current)
      refine ⟨c :: more, rest, ?_⟩
      rw [hmore, List.reverse_cons, List.append_assoc, List.singleton_append]

/-! ## Blanks around a group -/

theorem isFlat_of_isAllBlank (h : Text.isAllBlank cs) : IsFlat cs := by
  have hnone : ['[', ']', '(', ')'].all (!Text.isBlank ·) = true := rfl
  intro c hc hmem
  have hc' := List.all_eq_true.1 hnone c hmem
  rw [Text.isBlank_of_mem h hc] at hc'
  exact Bool.false_ne_true hc'

theorem map_trim_groupPiecesFrom_front (h : Text.isAllBlank front) (depth : ℕ)
    (current cs : List Char) :
    (groupPiecesFrom depth (current ++ front.reverse) cs).map Text.trim =
      (groupPiecesFrom depth current cs).map Text.trim := by
  have hpiece : ∀ current : List Char,
      Text.trim (current ++ front.reverse).reverse = Text.trim current.reverse := by
    intro current
    rw [List.reverse_append, List.reverse_reverse, Text.trim_append h]
  induction cs generalizing depth current with
  | nil => rw [groupPiecesFrom, groupPiecesFrom, List.map_singleton, List.map_singleton, hpiece]
  | cons c cs ih =>
    rw [groupPiecesFrom, groupPiecesFrom]
    split
    · rw [List.map_cons, List.map_cons, hpiece]
    · exact ih _ (c :: current)

theorem groupPieces_append_front (h : Text.isAllBlank front) (cs : List Char) :
    groupPieces (front ++ cs) = groupPieces cs := by
  have hcomma : parens.hides ',' 0 front = true :=
    hides_of_notMem (Text.notMem_of_isAllBlank h (by decide)) 0
  rw [groupPieces, groupPiecesFrom_append_of_hides hcomma,
    (isFlat_of_isAllBlank h).after_parens, List.append_nil]
  exact map_trim_groupPiecesFrom_front h 0 [] cs

theorem groupPieces_append_back (h : Text.isAllBlank back) (cs : List Char) :
    groupPieces (cs ++ back) = groupPieces cs := by
  have hcomma : ',' ∉ back := Text.notMem_of_isAllBlank h (by decide)
  unfold groupPieces
  generalize 0 = depth
  generalize ([] : List Char) = current
  induction cs generalizing depth current with
  | nil =>
    rw [List.nil_append, groupPiecesFrom_of_notMem hcomma, groupPiecesFrom, List.map_singleton,
      List.map_singleton, Text.trim_append_of_blanks h]
  | cons c cs ih =>
    rw [List.cons_append, groupPiecesFrom, groupPiecesFrom]
    split
    · rw [List.map_cons, List.map_cons, ih]
    · exact ih _ _

/-- Trimming a group does not change what its pieces are. -/
theorem groupPieces_trim (cs : List Char) : groupPieces (Text.trim cs) = groupPieces cs := by
  obtain ⟨front, back, hfront, hback, hcs⟩ := Text.exists_trim_eq cs
  conv => rhs; rw [hcs]
  rw [groupPieces_append_back hback, groupPieces_append_front hfront]

/-! ## Groups of members -/

/-- The members of a group, joined with commas. -/
def joined (ms : List (List Char)) : List Char := [',', ' '].intercalate ms

theorem joined_singleton (m : List Char) : joined [m] = m := List.intercalate_singleton

theorem joined_cons_cons (m m' : List Char) (ms : List (List Char)) :
    joined (m :: m' :: ms) = m ++ ',' :: ' ' :: joined (m' :: ms) := by
  rw [joined, List.intercalate_cons_cons, List.append_assoc]
  rfl

/-- Whether counting parentheses finds every comma in a member in parentheses, and none of those
between the members. -/
def CutsBetween (ms : List (List Char)) : Prop :=
  (∀ m ∈ ms, parens.hides ',' 0 m = true) ∧ ∀ m ∈ ms.dropLast, parens.after 0 m = 0

instance (ms : List (List Char)) : Decidable (CutsBetween ms) :=
  have : Decidable (∀ m ∈ ms, parens.hides ',' 0 m = true) :=
    List.decidableBAll (parens.hides ',' 0 · = true) ms
  have : Decidable (∀ m ∈ ms.dropLast, parens.after 0 m = 0) :=
    List.decidableBAll (parens.after 0 · = 0) ms.dropLast
  inferInstanceAs (Decidable (_ ∧ _))

theorem cutsBetween_singleton : CutsBetween [m] ↔ parens.hides ',' 0 m = true := by
  simp [CutsBetween]

theorem cutsBetween_cons_cons :
    CutsBetween (m :: m' :: ms) ↔
      parens.hides ',' 0 m = true ∧ parens.after 0 m = 0 ∧ CutsBetween (m' :: ms) := by
  simp only [CutsBetween, List.dropLast_cons_cons, List.forall_mem_cons]
  tauto

/-- Where the parentheses are closed, the first member is the first piece. -/
theorem groupPieces_joined_cons (hm : Text.trim m = m) (hcommas : parens.hides ',' 0 m = true)
    (hclosed : parens.after 0 m = 0) :
    groupPieces (joined (m :: m' :: ms)) = m :: groupPieces (joined (m' :: ms)) := by
  have hskip : groupPieces (' ' :: joined (m' :: ms)) = groupPieces (joined (m' :: ms)) :=
    groupPieces_append_front Text.isAllBlank_space _
  rw [joined_cons_cons, groupPieces, groupPiecesFrom_append_comma hcommas hclosed, List.map_cons,
    hm, ← groupPieces, hskip]

theorem groupPieces_joined (hne : ms ≠ []) (hms : ∀ m ∈ ms, Text.trim m = m)
    (hcuts : CutsBetween ms) : groupPieces (joined ms) = ms := by
  induction ms with
  | nil => exact absurd rfl hne
  | cons m ms ih =>
    obtain ⟨hm, hms⟩ := List.forall_mem_cons.1 hms
    cases ms with
    | nil =>
      have hread := groupPiecesFrom_append_of_hides (cutsBetween_singleton.1 hcuts) [] []
      rw [List.append_nil, List.append_nil, groupPiecesFrom, List.reverse_reverse] at hread
      rw [joined_singleton, groupPieces, hread, List.map_singleton, hm]
    | cons m' ms =>
      -- behind the first member the group is that of the other ones
      obtain ⟨hcommas, hclosed, hrest⟩ := cutsBetween_cons_cons.1 hcuts
      rw [groupPieces_joined_cons hm hcommas hclosed, ih (List.cons_ne_nil _ _) hms hrest]

/-! ## Groups of selectors -/

/-- A text that may stand in a group: its commas are nested, it is trimmed, and it has neither
comments nor the characters at which a source is cut into groups. -/
structure IsMember (m : List Char) : Prop where
  trimmed : Text.trim m = m
  commas_nested : scopes.hides ',' .outside m = true
  no_mark : ∀ c ∈ m, c ∉ ['\x7b', '\x7d', ';']
  no_comment : opensComment m = false

instance (m : List Char) : Decidable (IsMember m) :=
  have : Decidable (∀ c ∈ m, c ∉ ['\x7b', '\x7d', ';']) :=
    List.decidableBAll (· ∉ ['\x7b', '\x7d', ';']) m
  decidable_of_iff (Text.trim m = m ∧ scopes.hides ',' .outside m = true ∧
      (∀ c ∈ m, c ∉ ['\x7b', '\x7d', ';']) ∧ opensComment m = false)
    ⟨fun h => ⟨h.1, h.2.1, h.2.2.1, h.2.2.2⟩,
      fun h => ⟨h.trimmed, h.commas_nested, h.no_mark, h.no_comment⟩⟩

/-- A text that closes all brackets and parentheses that it opens. -/
def IsClosed (m : List Char) : Prop := scopes.after .outside m = .outside

instance (m : List Char) : Decidable (IsClosed m) := inferInstanceAs (Decidable (_ = _))

/-- A text that is read as a selector. -/
def IsSelector (m : List Char) : Prop := ∃ selector, Selector.parse m = .ok selector

instance (m : List Char) : Decidable (IsSelector m) :=
  match h : Selector.parse m with
  | .ok selector => .isTrue ⟨selector, h⟩
  | .error e => .isFalse fun ⟨selector, hread⟩ => by
    rw [h] at hread
    cases hread

theorem IsSelector.ne_nil (h : IsSelector m) : m ≠ [] := by
  obtain ⟨selector, hread⟩ := h
  exact (Selector.parse_eq_ok_iff.1 hread).1

theorem IsSelector.isClosed (h : IsSelector m) : IsClosed m := by
  obtain ⟨selector, hread⟩ := h
  exact (Selector.parse_eq_ok_iff.1 hread).2.after_scopes

theorem IsSelector.hides_blank (h : IsSelector m) : scopes.hides ' ' .outside m = true := by
  obtain ⟨selector, hread⟩ := h
  exact (Selector.parse_eq_ok_iff.1 hread).2.hides_blank_scopes

theorem after_scopes_trim (scope : Scope) (cs : List Char) :
    scopes.after scope (Text.trim cs) = scopes.after scope cs := by
  obtain ⟨front, back, hfront, hback, hcs⟩ := Text.exists_trim_eq cs
  conv => rhs; rw [hcs]
  rw [after_append, after_append, (isFlat_of_isAllBlank hfront).after_scopes,
    (isFlat_of_isAllBlank hback).after_scopes]

/-- If the first piece of a group is a selector, it does not end inside a member. -/
theorem hides_parens_of_isSelector {rest : List Char} (hm : IsMember m)
    (hread : ∀ piece ∈ groupPieces (m ++ rest), IsSelector piece) :
    parens.hides ',' 0 m = true := by
  by_contra hcut
  rw [Bool.not_eq_true] at hcut
  obtain ⟨front, back, rfl, hfront, htop⟩ := exists_of_not_hides hcut
  have hdepth : parens.after 0 front = 0 := beq_iff_eq.1 htop
  have hpiece : Text.trim front ∈ groupPieces (front ++ ',' :: back ++ rest) := by
    rw [List.append_assoc, List.cons_append, groupPieces,
      groupPiecesFrom_append_comma hfront hdepth, List.map_cons]
    exact List.mem_cons_self
  -- the comma is nested, so the piece in front of it leaves something open
  have hopen := isTop_of_hides hm.commas_nested
  rw [← after_scopes_trim, (hread _ hpiece).isClosed] at hopen
  cases hopen

/-- What is joined does not start with a blank, unless it is a single member without a text. -/
theorem exists_joined_eq (hm : IsMember m) (hlast : (m :: ms).getLast? ≠ some []) :
    ∃ c rest, joined (m :: ms) = c :: rest ∧ Text.isBlank c = false := by
  cases m with
  | nil =>
    cases ms with
    | nil => exact absurd rfl hlast
    | cons m' ms => exact ⟨',', ' ' :: joined (m' :: ms), joined_cons_cons _ _ _, rfl⟩
  | cons c cs =>
    have hc : Text.isBlank c = false := Text.isBlank_head_of_trim hm.trimmed
    cases ms with
    | nil => exact ⟨c, cs, joined_singleton _, hc⟩
    | cons m' ms => exact ⟨c, _, by rw [joined_cons_cons, List.cons_append], hc⟩

theorem IsMember.trimStart_append (hm : IsMember m) (hne : m ≠ []) (cs : List Char) :
    Text.trimStart (m ++ cs) = m ++ cs := by
  have hnot : ¬ Text.isAllBlank m := by
    intro hblank
    rw [← hm.trimmed] at hblank
    exact hne (hm.trimmed.symm.trans (Text.trim_eq_nil_of_isAllBlank hblank))
  have hstart : Text.trimStart m = m := by
    have htrim := Text.trimStart_trim m
    rwa [hm.trimmed] at htrim
  rw [Text.trimStart_append_of_not hnot, hstart]

/-- Where parentheses are open behind a member, a piece goes on into what follows. -/
theorem exists_mem_groupPieces {c : Char} (hm : IsMember m) (hne : m ≠ [])
    (hcommas : parens.hides ',' 0 m = true) (hdepth : parens.after 0 m ≠ 0)
    (hc : Text.isBlank c = false) (rest : List Char) :
    ∃ es, m ++ ',' :: ' ' :: c :: es ∈ groupPieces (m ++ ',' :: ' ' :: c :: rest) := by
  -- the comma and the two characters behind it are read into the first piece
  have hnext : parens.hides ',' 0 (m ++ [',', ' ', c]) = true := by
    have htop : parens.isTop (parens.after 0 m) = false := beq_false_of_ne hdepth
    have hcomma : parens.read (parens.after 0 m) ',' = parens.after 0 m := rfl
    have hblank : parens.read (parens.after 0 m) ' ' = parens.after 0 m := rfl
    rw [hides_append, hcommas]
    simp [hides, htop, hcomma, hblank]
  have happend : ∀ xs, m ++ ',' :: ' ' :: c :: xs = m ++ [',', ' ', c] ++ xs := by
    intro xs
    rw [List.append_assoc]
    rfl
  obtain ⟨more, pieces, hpieces⟩ :=
    exists_groupPiecesFrom (parens.after 0 (m ++ [',', ' ', c])) (m ++ [',', ' ', c]).reverse rest
  -- trimming the piece does not get as far as these characters
  obtain ⟨es, hes⟩ := Text.exists_trim_append_cons hc (m ++ [',', ' ']) more
  rw [hm.trimStart_append hne, List.append_assoc, List.append_assoc] at hes
  refine ⟨es, ?_⟩
  rw [happend rest, groupPieces, groupPiecesFrom_append_of_hides hnext, List.append_nil, hpieces,
    List.reverse_reverse, List.map_cons, ← happend more]
  exact List.mem_cons.2 (.inl hes.symm)

/-- If the first piece of a group is a selector, it does not go on behind a member. -/
theorem after_parens_of_isSelector (hm : IsMember m) (hclosed : IsClosed m) (hm' : IsMember m')
    (hlast : (m' :: ms).getLast? ≠ some []) (hcommas : parens.hides ',' 0 m = true)
    (hread : ∀ piece ∈ groupPieces (joined (m :: m' :: ms)), IsSelector piece) :
    parens.after 0 m = 0 := by
  by_contra hdepth
  have hne : m ≠ [] := by
    rintro rfl
    exact hdepth rfl
  obtain ⟨c, rest, hrest, hc⟩ := exists_joined_eq hm' hlast
  obtain ⟨es, hpiece⟩ := exists_mem_groupPieces hm hne hcommas hdepth hc rest
  rw [← hrest, ← joined_cons_cons] at hpiece
  -- the blank behind the comma is outside
  have hblank := (hread _ hpiece).hides_blank
  rw [← List.singleton_append, ← List.append_assoc] at hblank
  have hopen := isTop_of_hides hblank
  have hcomma : scopes.after .outside [','] = .outside := rfl
  rw [after_append, show scopes.after .outside m = .outside from hclosed, hcomma] at hopen
  cases hopen

/-- If every piece of a group is a selector, it is cut between its members, as long as these close
what they open. Whatever the last one leaves open is left open in the last piece. -/
theorem cutsBetween_of_isSelector (hms : ∀ m ∈ ms, IsMember m)
    (hclosed : ∀ m ∈ ms.dropLast, IsClosed m) (hlast : ms.getLast? ≠ some [])
    (hread : ∀ piece ∈ groupPieces (joined ms), IsSelector piece) : CutsBetween ms := by
  induction ms with
  | nil => exact ⟨List.forall_mem_nil _, List.forall_mem_nil _⟩
  | cons m ms ih =>
    obtain ⟨hm, hms⟩ := List.forall_mem_cons.1 hms
    cases ms with
    | nil =>
      rw [cutsBetween_singleton]
      rw [joined_singleton, ← List.append_nil m] at hread
      exact hides_parens_of_isSelector hm hread
    | cons m' ms =>
      rw [List.dropLast_cons_cons] at hclosed
      rw [List.getLast?_cons_cons] at hlast
      obtain ⟨hm_closed, hms_closed⟩ := List.forall_mem_cons.1 hclosed
      have hcommas : parens.hides ',' 0 m = true := by
        rw [joined_cons_cons] at hread
        exact hides_parens_of_isSelector hm hread
      have hdepth : parens.after 0 m = 0 :=
        after_parens_of_isSelector hm hm_closed (hms m' List.mem_cons_self) hlast hcommas hread
      -- so the first member is the first piece, and the other pieces are those of the rest
      rw [groupPieces_joined_cons hm.trimmed hcommas hdepth] at hread
      exact cutsBetween_cons_cons.2
        ⟨hcommas, hdepth, ih hms hms_closed hlast (List.forall_mem_cons.1 hread).2⟩

/-! ## The source of a rule -/

/-- A text that may stand between the braces of a rule: it has neither braces nor comments. -/
structure IsBody (body : List Char) : Prop where
  no_brace : ∀ c ∈ body, c ∉ ['\x7b', '\x7d']
  no_comment : opensComment body = false

instance (body : List Char) : Decidable (IsBody body) :=
  have : Decidable (∀ c ∈ body, c ∉ ['\x7b', '\x7d']) :=
    List.decidableBAll (· ∉ ['\x7b', '\x7d']) body
  decidable_of_iff ((∀ c ∈ body, c ∉ ['\x7b', '\x7d']) ∧ opensComment body = false)
    ⟨fun h => ⟨h.1, h.2⟩, fun h => ⟨h.no_brace, h.no_comment⟩⟩

theorem notMem_joined {c : Char} (hcomma : c ≠ ',') (hblank : c ≠ ' ') (h : ∀ m ∈ ms, c ∉ m) :
    c ∉ joined ms := by
  induction ms with
  | nil => exact List.not_mem_nil
  | cons m ms ih =>
    obtain ⟨hm, hms⟩ := List.forall_mem_cons.1 h
    cases ms with
    | nil =>
      rw [joined_singleton]
      exact hm
    | cons m' ms =>
      rw [joined_cons_cons, List.mem_append, List.mem_cons, List.mem_cons]
      rintro (hmem | hmem | hmem | hmem)
      · exact hm hmem
      · exact hcomma hmem
      · exact hblank hmem
      · exact ih hms hmem

theorem opensComment_joined (hms : ∀ m ∈ ms, IsMember m) : opensComment (joined ms) = false := by
  induction ms with
  | nil => rfl
  | cons m ms ih =>
    obtain ⟨hm, hms⟩ := List.forall_mem_cons.1 hms
    cases ms with
    | nil =>
      rw [joined_singleton]
      exact hm.no_comment
    | cons m' ms =>
      rw [joined_cons_cons, opensComment_append_cons (by decide), opensComment_cons (by decide),
        opensComment_cons (by decide), hm.no_comment, ih hms]
      rfl

/-- The introduction of a rule has none of the characters that cut a source. -/
theorem notMem_introduction (hms : ∀ m ∈ ms, IsMember m) {c : Char}
    (hc : c ∈ ['\x7b', '\x7d', ';']) : c ∉ joined ms ++ [' '] := by
  have hcomma : c ≠ ',' := ne_of_mem_of_not_mem hc (by decide)
  have hblank : c ≠ ' ' := ne_of_mem_of_not_mem hc (by decide)
  rw [List.mem_append, List.mem_singleton, not_or]
  exact ⟨notMem_joined hcomma hblank fun m hm hmem => (hms m hm).no_mark c hmem hc, hblank⟩

/-- The rule of a group and a body is a block in which the group stands with a blank behind it, and
the body between blanks. -/
theorem blocks_outline_group (hms : ∀ m ∈ ms, IsMember m) {body : List Char} (hbody : IsBody body) :
    (outline (joined ms ++ [' '] ++ '\x7b' :: (' ' :: body ++ [' ']) ++ ['\x7d'])).blocks =
      [⟨joined ms ++ [' '], ' ' :: body ++ [' ']⟩] := by
  have hbrace : ∀ c ∈ ['\x7b', '\x7d'], c ∉ ' ' :: body ++ [' '] := by
    intro c hc
    have hblank : c ≠ ' ' := ne_of_mem_of_not_mem hc (by decide)
    rw [List.mem_append, List.mem_cons, List.mem_singleton, not_or, not_or]
    exact ⟨⟨hblank, fun hmem => hbody.no_brace c hmem hc⟩, hblank⟩
  have hbalanced : Balanced (' ' :: body ++ [' ']) :=
    .of_notMem (hbrace _ (by decide)) (hbrace _ (by decide))
  have hgroup : opensComment (joined ms ++ [' ']) = false := by
    rw [opensComment_append_cons (by decide), opensComment_joined hms]
    rfl
  have hcomment : opensComment (' ' :: body ++ [' ']) = false := by
    rw [opensComment_append_cons (by decide), opensComment_cons (by decide), hbody.no_comment]
    rfl
  exact blocks_outline_single (notMem_introduction hms (by decide)) hbalanced hgroup hcomment

/-- The selectors of a group are read from its pieces. -/
theorem groupPieces_group (hms : ∀ m ∈ ms, IsMember m) (body : List Char) :
    groupPieces (RawBlock.group ⟨joined ms ++ [' '], body⟩) = groupPieces (joined ms) := by
  rw [RawBlock.group, Text.afterLast_of_notMem (notMem_introduction hms (by decide)),
    groupPieces_trim, groupPieces_append_back Text.isAllBlank_space]

end Source

namespace Stylesheet

open Source

/-! ## Reading groups -/

/-- A group is read if all its pieces are selectors. -/
theorem exists_parseGroup {group : List Char}
    (h : ∀ piece ∈ groupPieces group, IsSelector piece) :
    ∃ selectors, Selector.parseGroup group = .ok selectors := by
  rw [Selector.parseGroup]
  generalize groupPieces group = pieces at h ⊢
  induction pieces with
  | nil => exact ⟨[], rfl⟩
  | cons piece pieces ih =>
    obtain ⟨⟨selector, hread⟩, hpieces⟩ := List.forall_mem_cons.1 h
    obtain ⟨selectors, hselectors⟩ := ih hpieces
    refine ⟨(String.ofList piece, selector) :: selectors, ?_⟩
    rw [List.mapM_cons, hread, hselectors]
    rfl

/-- The texts of a group that is read are its pieces. -/
theorem map_fst_of_parseGroup {group : List Char} {selectors : List (String × Selector)}
    (h : Selector.parseGroup group = .ok selectors) :
    selectors.map Prod.fst = (groupPieces group).map String.ofList := by
  have hread := map_parse_of_parseGroup h
  generalize groupPieces group = pieces at hread
  clear h
  induction pieces generalizing selectors with
  | nil =>
    obtain rfl : selectors = [] := List.map_eq_nil_iff.1 hread.symm
    rfl
  | cons piece pieces ih =>
    cases selectors with
    | nil => cases hread
    | cons pair selectors =>
      obtain ⟨hpair, hrest⟩ := List.cons.inj hread
      rw [List.map_cons, List.map_cons, ih hrest, (parse_of_read hpair).1]

/-- A block with a piece in its group that is no selector adds nothing to any sheet. -/
theorem addBlock_eq_self {block : RawBlock} {piece : List Char}
    (hpiece : piece ∈ groupPieces block.group) (hnot : ¬ IsSelector piece) (sheet : Stylesheet) :
    sheet.addBlock block = sheet := by
  rw [addBlock]
  cases hread : Selector.parseGroup block.group with
  | error e => rfl
  | ok selectors =>
    obtain ⟨pair, -, -, hselector⟩ := exists_mem_parseGroup hread hpiece
    exact absurd ⟨pair.2, hselector⟩ hnot

/-! ## Rules of groups -/

/-- A rule for a group of selectors. -/
def groupRule (members : List String) (body : String) : String :=
  Text.joinWith ", " members ++ " \x7b " ++ body ++ " \x7d"

variable {members : List String} {body : String}

theorem toList_groupRule (members : List String) (body : String) :
    (groupRule members body).toList = joined (members.map String.toList) ++ [' '] ++
      '\x7b' :: (' ' :: body.toList ++ [' ']) ++ ['\x7d'] := by
  have hsep : ", ".toList = [',', ' '] := rfl
  rw [groupRule, String.toList_append, String.toList_append, String.toList_append, Text.joinWith,
    String.toList_ofList, hsep, ← joined]
  simp

/-- The block of a rule, as it is read. -/
def groupBlock (members : List String) (body : String) : RawBlock :=
  ⟨joined (members.map String.toList) ++ [' '], ' ' :: body.toList ++ [' ']⟩

theorem parse_groupRule_eq_addBlock (hmembers : ∀ m ∈ members, IsMember m.toList)
    (hbody : IsBody body.toList) :
    parse (groupRule members body) = empty.addBlock (groupBlock members body) := by
  have hms : ∀ m ∈ members.map String.toList, IsMember m := List.forall_mem_map.2 hmembers
  rw [parse, toList_groupRule, blocks_outline_group hms hbody]
  rfl

theorem ofBody_groupBlock (members : List String) (body : String) :
    Block.ofBody (groupBlock members body).body = Block.ofBody body.toList := by
  rw [Block.ofBody, groupBlock, declarations_concat_blank, declarations_cons_blank, ← Block.ofBody]

/-- If a block is read, the sheet of it has one rule for each text, which declares what the body
does. -/
theorem rules_addBlock_empty {block : RawBlock} {selectors : List (String × Selector)}
    (h : Selector.parseGroup block.group = .ok selectors) :
    (empty.addBlock block).texts = ((groupPieces block.group).map String.ofList).eraseDups ∧
      ∀ r ∈ (empty.addBlock block).rules,
        Selector.parse r.text.toList = .ok r.selector ∧
          r.declarations = Block.ofBody block.body := by
  have hwritten : block.writtenRules =
      selectors.map fun pair => ⟨pair.1, pair.2, Block.bodySettings block.body⟩ := by
    rw [RawBlock.writtenRules, h]
  rw [texts, rules_addBlock]
  refine ⟨?_, ?_⟩
  · have hnil : (Rule.keyed.keys []).Nodup := List.nodup_nil
    have htexts : block.writtenRules.map WrittenRule.text = selectors.map Prod.fst := by
      rw [hwritten, List.map_map]
      rfl
    have hkeys := Keyed.keys_putAll hnil (block.writtenRules.map WrittenRule.toRule)
    rw [keys_map_toRule, htexts, map_fst_of_parseGroup h] at hkeys
    exact hkeys
  · refine Keyed.forall_mem_putAll (K := Rule.keyed) ?_ (List.forall_mem_nil _) ?_
    · -- a text that comes again declares the same again
      rintro x y ⟨hx, hx'⟩ ⟨-, hy'⟩
      refine ⟨hx, ?_⟩
      show x.declarations.extend y.declarations = _
      rw [hx', hy', Block.extend_self]
    · intro r hr
      obtain ⟨w, hw, rfl⟩ := List.mem_map.1 hr
      rw [hwritten] at hw
      obtain ⟨pair, hpair, rfl⟩ := List.mem_map.1 hw
      obtain ⟨piece, -, htext, hread⟩ := exists_piece_of_mem_parseGroup h hpair
      refine ⟨?_, (Block.ofBody_eq_setAll block.body).symm⟩
      show Selector.parse pair.1.toList = .ok pair.2
      rw [htext, String.toList_ofList, hread]

/-- Counting parentheses is right about members whose attribute tests have neither commas nor
parentheses. -/
theorem cutsBetween_of_attributeTest {ms : List (List Char)} (hms : ∀ m ∈ ms, IsMember m)
    (h : ∀ m ∈ ms, ∃ selector, Selector.parse m = .ok selector ∧
      ∀ raw ∈ selector.attributeTest, ∀ c ∈ raw.toList, c ∉ [',', '(', ')']) :
    CutsBetween ms := by
  have heach : ∀ m ∈ ms, parens.hides ',' 0 m = true ∧ parens.after 0 m = 0 := by
    intro m hm
    obtain ⟨selector, hread, htest⟩ := h m hm
    have hnone : ∀ c ∈ selector.attributeText, c ∉ [',', '(', ')'] := by
      rw [Compound.attributeText]
      cases hraw : selector.attributeTest with
      | none => exact List.forall_mem_nil _
      | some raw => exact htest raw hraw
    have hread' : ∀ c ∈ selector.attributeText, parens.read 0 c = 0 := by
      intro c hc
      have hne := hnone c hc
      simp only [List.mem_cons, List.not_mem_nil, or_false, not_or] at hne
      exact parens_read hne.2.1 hne.2.2 0
    obtain ⟨hafter, hhides⟩ :=
      (Selector.parse_eq_ok_iff.1 hread).2.parens_eq (hms m hm).commas_nested
    rw [hafter, hhides, Nesting.after_eq_self hread',
      Nesting.hides_of_notMem fun hmem => hnone _ hmem List.mem_cons_self]
    exact ⟨rfl, rfl⟩
  refine ⟨fun m hm => (heach m hm).1, ?_⟩
  intro m hm
  exact (heach m ((List.dropLast_sublist ms).mem hm)).2

/-- A rule for a group of members. Whether the group is cut between them can be told by counting the
parentheses in them (`CutsBetween`). If it is, and they all are selectors, the sheet has one rule
for each of them, with the declarations of the body; if one of them is not, the sheet is empty. If
the group is not cut between them, the sheet is empty too, whatever they are, as long as all but the
last close what they open, and the last is not empty. Selectors are like that. The group is cut
between selectors whose attribute tests have neither commas nor parentheses. -/
theorem parse_groupRule (hne : members ≠ []) (hmembers : ∀ m ∈ members, IsMember m.toList)
    (hbody : IsBody body.toList) :
    let ms := members.map String.toList
    let sheet := parse (groupRule members body)
    (CutsBetween ms → (∀ m ∈ ms, IsSelector m) →
        sheet.texts = members.eraseDups ∧ ∀ r ∈ sheet.rules,
          Selector.parse r.text.toList = .ok r.selector ∧
            r.declarations = Block.ofBody body.toList) ∧
      (CutsBetween ms → (∃ m ∈ ms, ¬ IsSelector m) → sheet = empty) ∧
      (¬ CutsBetween ms → (∀ m ∈ ms.dropLast, IsClosed m) → ms.getLast? ≠ some [] →
        sheet = empty) ∧
      (∀ m ∈ ms, IsSelector m → IsClosed m ∧ m ≠ []) ∧
      ((∀ m ∈ ms, ∃ selector, Selector.parse m = .ok selector ∧
          ∀ raw ∈ selector.attributeTest, ∀ c ∈ raw.toList, c ∉ [',', '(', ')']) →
        CutsBetween ms) := by
  intro ms sheet
  have hms : ∀ m ∈ ms, IsMember m := List.forall_mem_map.2 hmembers
  have hsheet : sheet = empty.addBlock (groupBlock members body) :=
    parse_groupRule_eq_addBlock hmembers hbody
  have hpieces : groupPieces (groupBlock members body).group = groupPieces (joined ms) :=
    groupPieces_group hms _
  have hcut : CutsBetween ms → groupPieces (joined ms) = ms := fun hcuts =>
    groupPieces_joined (List.map_eq_nil_iff.not.2 hne) (fun m hm => (hms m hm).trimmed) hcuts
  -- in each case the pieces of the group decide, and a single one that is no selector is enough
  refine ⟨?_, ?_, ?_, fun m _ h => ⟨h.isClosed, h.ne_nil⟩, cutsBetween_of_attributeTest hms⟩
  · intro hcuts hselectors
    obtain ⟨selectors, hread⟩ : ∃ selectors,
        Selector.parseGroup (groupBlock members body).group = .ok selectors := by
      apply exists_parseGroup
      rwa [hpieces, hcut hcuts]
    obtain ⟨htexts, hrules⟩ := rules_addBlock_empty hread
    have hmap : ms.map String.ofList = members := by
      simp [ms]
    rw [hpieces, hcut hcuts, hmap] at htexts
    rw [hsheet]
    refine ⟨htexts, ?_⟩
    rwa [ofBody_groupBlock] at hrules
  · rintro hcuts ⟨m, hm, hnot⟩
    rw [hsheet]
    refine addBlock_eq_self ?_ hnot empty
    rwa [hpieces, hcut hcuts]
  · intro hcuts hclosed hlast
    obtain ⟨piece, hpiece, hnot⟩ : ∃ piece ∈ groupPieces (joined ms), ¬ IsSelector piece := by
      by_contra hall
      refine hcuts (cutsBetween_of_isSelector hms hclosed hlast ?_)
      intro piece hpiece
      by_contra hnot
      exact hall ⟨piece, hpiece, hnot⟩
    rw [hsheet]
    refine addBlock_eq_self ?_ hnot empty
    rwa [hpieces]

/-- A selector with a comma in its argument, between two that are the same. -/
theorem parse_groupRule_with_argument :
    let members := ["a", "p:not(.x,y)[t=z]", "a"]
    (∀ m ∈ members, IsMember m.toList) ∧ IsBody "color: red".toList ∧
      CutsBetween (members.map String.toList) ∧
      (parse (groupRule members "color: red")).texts = ["a", "p:not(.x,y)[t=z]"] ∧
      parse (groupRule ["a", "p q"] "color: red") = empty ∧
      parse (groupRule ["[t=(]", "a"] "color: red") = empty := by
  intro members
  have hmembers : ∀ m ∈ members, IsMember m.toList := by decide
  have hbody : IsBody "color: red".toList := by decide
  have hcuts : CutsBetween (members.map String.toList) := by decide
  obtain ⟨hread, -⟩ := parse_groupRule (by decide) hmembers hbody
  obtain ⟨-, hnone, -⟩ := parse_groupRule (show ["a", "p q"] ≠ [] by decide) (by decide) hbody
  obtain ⟨-, -, hlost, -⟩ := parse_groupRule (show ["[t=(]", "a"] ≠ [] by decide) (by decide) hbody
  exact ⟨hmembers, hbody, hcuts, (hread hcuts (by decide)).1, hnone (by decide) (by decide),
    hlost (by decide) (by decide) (by decide)⟩

/-- A comma in an attribute test is taken for the end of the selector, and its rule is lost. One
behind a parenthesis in an attribute test is not, so the rule of a group with a member that is
missing is read as one of a class with a comma. -/
theorem groupRule_miscut :
    (IsMember "[title=\"a,b\"]".toList ∧ IsSelector "[title=\"a,b\"]".toList ∧
      parse "[title=\"a,b\"] \x7b color: red \x7d" = empty) ∧
    (IsMember "[t=(].c".toList ∧ IsMember [] ∧ ¬ IsSelector [] ∧
      (parse "[t=(].c,  \x7b color: red \x7d").texts = ["[t=(].c,"]) := by
  refine ⟨⟨by decide, by decide, ?_⟩, by decide, by decide, by decide, ?_⟩
  · decide +kernel
  · decide +kernel

end Stylesheet

end BoxFlow
