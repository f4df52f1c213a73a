import BoxFlow.Proofs.Stylesheet.Seams

/-!
# The text of a single rule

A text that opens no comment is read as it stands (`Source.withoutComments_of_not_opensComment`). If
it is an introduction without an opening brace and a body without braces, in braces, it holds just
this block (`Source.blocks_outline_single`). Blanks next to the braces make no difference to what
the body declares (`Source.declarations_cons_blank`, `Source.declarations_concat_blank`).
-/

set_option autoImplicit false

namespace BoxFlow

namespace Source

variable {cs ds introduction body : List Char}

/-! ## Texts without comments -/

/-- Whether a comment is opened somewhere in a text. -/
def opensComment (cs : List Char) : Bool := Text.occursIn ['/', '*'] cs

theorem opensComment_cons {c : Char} (hc : c ≠ '/') (cs : List Char) :
    opensComment (c :: cs) = opensComment cs := by
  simp [opensComment, Text.occursIn, Ne.symm hc]

/-- A character other than a star may stand at a seam. -/
theorem opensComment_append_cons {c : Char} (hc : c ≠ '*') (cs ds : List Char) :
    opensComment (cs ++ c :: ds) = (opensComment cs || opensComment (c :: ds)) := by
  induction cs with
  | nil => rfl
  | cons d cs ih =>
    -- the two characters of a mark are not on different sides of the seam
    have hmark : ['/', '*'].isPrefixOf (d :: (cs ++ c :: ds)) =
        ['/', '*'].isPrefixOf (d :: cs) := by
      cases cs with
      | nil => simp [List.isPrefixOf, Ne.symm hc]
      | cons e es => rfl
    rw [List.cons_append, opensComment, Text.occursIn, hmark, ← opensComment, ih, ← Bool.or_assoc]
    rfl

theorem withoutComments_of_not_opensComment (h : opensComment cs = false) :
    withoutComments cs = cs := by
  rw [withoutComments]
  induction cs with
  | nil => rfl
  | cons c cs ih =>
    rw [opensComment, Text.occursIn, Bool.or_eq_false_iff] at h
    have hmark : ∀ ds, c = '/' → cs = '*' :: ds → False := by
      rintro ds rfl rfl
      exact absurd h.1 (by simp)
    rw [uncommentedFrom.eq_3 _ _ hmark, ih h.2]

/-- A source that is a single rule holds a single block. -/
theorem blocks_outline_single (hopen : '\x7b' ∉ introduction) (hbody : Balanced body)
    (hintroduction : opensComment introduction = false) (hcomment : opensComment body = false) :
    (outline (introduction ++ '\x7b' :: body ++ ['\x7d'])).blocks = [⟨introduction, body⟩] := by
  have hread : opensComment (introduction ++ '\x7b' :: body ++ ['\x7d']) = false := by
    rw [opensComment_append_cons (by decide), opensComment_append_cons (by decide),
      opensComment_cons (by decide), hintroduction, hcomment]
    rfl
  rw [outline, withoutComments_of_not_opensComment hread, blocks_outlineFrom_block hopen hbody]
  rfl

/-! ## Blanks around a body -/

/-- The name in front of a separator starts with the first character. -/
theorem cutAt?_cons {sep c : Char} (hc : c ≠ sep) (cs : List Char) :
    Text.cutAt? sep (c :: cs) = (Text.cutAt? sep cs).map fun cut => (c :: cut.1, cut.2) := by
  have hgoes : (c != sep) = true := bne_iff_ne.2 hc
  simp only [Text.cutAt?, List.dropWhile_cons, List.takeWhile_cons, hgoes, if_true]
  cases cs.dropWhile (· != sep) <;> rfl

theorem cutAt?_concat {sep c : Char} (hc : c ≠ sep) (cs : List Char) :
    Text.cutAt? sep (cs ++ [c]) = (Text.cutAt? sep cs).map fun cut => (cut.1, cut.2 ++ [c]) := by
  induction cs with
  | nil => exact cutAt?_cons hc []
  | cons d cs ih =>
    by_cases hd : d = sep
    · subst hd
      simp [Text.cutAt?]
    · rw [List.cons_append, cutAt?_cons hd, ih, cutAt?_cons hd, Option.map_map, Option.map_map]
      rfl

theorem declaration?_cons_blank (cs : List Char) : declaration? (' ' :: cs) = declaration? cs := by
  have hname : ∀ name, Text.trim (' ' :: name) = Text.trim name :=
    Text.trim_append Text.isAllBlank_space
  rw [declaration?, declaration?, cutAt?_cons (by decide)]
  cases Text.cutAt? ':' cs with
  | none => rfl
  | some cut => simp only [Option.map_some, hname]

theorem declaration?_concat_blank (cs : List Char) :
    declaration? (cs ++ [' ']) = declaration? cs := by
  have hvalue : ∀ value, Text.trim (value ++ [' ']) = Text.trim value :=
    Text.trim_append_of_blanks Text.isAllBlank_space
  rw [declaration?, declaration?, cutAt?_concat (by decide)]
  cases Text.cutAt? ':' cs with
  | none => rfl
  | some cut => simp only [Option.map_some, hvalue]

theorem declarations_cons_blank (cs : List Char) : declarations (' ' :: cs) = declarations cs := by
  obtain ⟨first, rest, hcut⟩ := List.exists_cons_of_ne_nil (List.splitOnP_ne_nil (· == ';') cs)
  rw [declarations, declarations, Text.pieces, Text.pieces, List.splitOnP_cons_eq_if_modifyHead,
    if_neg (by decide), hcut, List.modifyHead_cons, List.filterMap_cons, List.filterMap_cons,
    declaration?_cons_blank]

/-- What is added at the end of a text is added to its last piece. -/
theorem exists_pieces_concat {sep c : Char} (hc : c ≠ sep) (cs : List Char) :
    ∃ front last, Text.pieces sep cs = front ++ [last] ∧
      Text.pieces sep (cs ++ [c]) = front ++ [last ++ [c]] := by
  induction cs with
  | nil =>
    refine ⟨[], [], rfl, ?_⟩
    simp [Text.pieces, List.splitOnP_cons_eq_if_modifyHead, hc]
  | cons d cs ih =>
    obtain ⟨front, last, hcs, hconcat⟩ := ih
    rw [Text.pieces] at hcs hconcat
    rw [Text.pieces, Text.pieces, List.cons_append, List.splitOnP_cons_eq_if_modifyHead,
      List.splitOnP_cons_eq_if_modifyHead, hcs, hconcat]
    split
    · exact ⟨[] :: front, last, rfl, rfl⟩
    · -- the first character goes into the first piece, which may be the last one
      cases front with
      | nil => exact ⟨[], d :: last, rfl, rfl⟩
      | cons first front => exact ⟨(d :: first) :: front, last, rfl, rfl⟩

theorem declarations_concat_blank (cs : List Char) :
    declarations (cs ++ [' ']) = declarations cs := by
  obtain ⟨front, last, hcs, hconcat⟩ := exists_pieces_concat (show ' ' ≠ ';' by decide) cs
  rw [declarations, declarations, hcs, hconcat, List.filterMap_append, List.filterMap_append,
    List.filterMap_cons, List.filterMap_cons, declaration?_concat_blank]

end Source

end BoxFlow
