import BoxFlow.Proofs.Selector.AttributeText
import BoxFlow.Proofs.Text.Normal
import BoxFlow.Proofs.Text.Words
import BoxFlow.Stylesheet.Source

/-!
# Declarations as they are written

Names and values are written in pieces with semicolons between them (`Source.LaysOut`). A piece has
a name, a colon and a value with blanks around each of them, or it declares nothing: it is without a
colon, or has only blanks in front of the first. This can be done with any names that are trimmed,
not empty, and without colons and semicolons, and with any values that are trimmed and without
semicolons (`Source.IsWritable`).

The declarations of a text are the pairs that it lays out (`Source.declarations_iff`). So they are
read in order however they are laid out, and in every text names are trimmed and not empty, and
values are trimmed (`Source.declarations_of_layout`).
-/

set_option autoImplicit false

namespace BoxFlow

namespace Source

open Text (isAllBlank trim trimmed)

variable {piece body : List Char} {pieces : List (List Char)} {pair : String × String}
  {pairs : List (String × String)}

/-! ## What a piece declares -/

/-- A name and a value that can be written with a colon between them and semicolons around them. -/
structure IsWritable (pair : String × String) : Prop where
  name_trimmed : trimmed pair.1 = pair.1
  name_ne_empty : pair.1 ≠ ""
  colon_notMem_name : ':' ∉ pair.1.toList
  semicolon_notMem_name : ';' ∉ pair.1.toList
  value_trimmed : trimmed pair.2 = pair.2
  semicolon_notMem_value : ';' ∉ pair.2.toList

/-- A name, a colon and a value, with blanks around each of them. -/
def Spells (piece : List Char) (pair : String × String) : Prop :=
  ∃ a b c d, isAllBlank a ∧ isAllBlank b ∧ isAllBlank c ∧ isAllBlank d ∧
    piece = a ++ pair.1.toList ++ b ++ ':' :: (c ++ pair.2.toList ++ d)

/-- A text without a colon, or with only blanks in front of the first one. -/
def IsBare (piece : List Char) : Prop :=
  ':' ∉ piece ∨ ∃ front back, isAllBlank front ∧ piece = front ++ ':' :: back

/-- The pieces of a body give pairs in turn, with pieces that declare nothing between them. -/
inductive LaysOut : List (List Char) → List (String × String) → Prop
  | nil : LaysOut [] []
  | bare {piece : List Char} {pieces : List (List Char)} {pairs : List (String × String)} :
      IsBare piece → ';' ∉ piece → LaysOut pieces pairs → LaysOut (piece :: pieces) pairs
  | pair {piece : List Char} {pieces : List (List Char)} {pair : String × String}
      {pairs : List (String × String)} :
      Spells piece pair → LaysOut pieces pairs → LaysOut (piece :: pieces) (pair :: pairs)

instance (pair : String × String) : Decidable (IsWritable pair) :=
  decidable_of_iff (trimmed pair.1 = pair.1 ∧ pair.1 ≠ "" ∧ ':' ∉ pair.1.toList ∧
      ';' ∉ pair.1.toList ∧ trimmed pair.2 = pair.2 ∧ ';' ∉ pair.2.toList)
    ⟨fun h => ⟨h.1, h.2.1, h.2.2.1, h.2.2.2.1, h.2.2.2.2.1, h.2.2.2.2.2⟩,
      fun h => ⟨h.name_trimmed, h.name_ne_empty, h.colon_notMem_name, h.semicolon_notMem_name,
        h.value_trimmed, h.semicolon_notMem_value⟩⟩

theorem declaration?_eq_some_iff :
    declaration? piece = some pair ↔
      ∃ front back, piece = front ++ ':' :: back ∧ ':' ∉ front ∧ trim front ≠ [] ∧
        pair = (.ofList (trim front), .ofList (trim back)) := by
  rw [declaration?]
  cases hcut : Text.cutAt? ':' piece with
  | none =>
    have hcolon := Text.cutAt?_eq_none_iff.1 hcut
    refine iff_of_false (Option.some_ne_none pair).symm ?_
    rintro ⟨front, back, rfl, -⟩
    exact hcolon (by simp)
  | some cut =>
    obtain ⟨front, back⟩ := cut
    obtain ⟨rfl, hfront⟩ := Text.cutAt?_eq_some_iff.1 hcut
    simp only [Option.ite_none_left_eq_some, Option.some.injEq, List.isEmpty_iff]
    constructor
    · rintro ⟨hne, rfl⟩
      exact ⟨front, back, rfl, hfront, hne, rfl⟩
    · rintro ⟨front', back', heq, hfront', hne, rfl⟩
      obtain ⟨rfl, rfl⟩ := Text.first_unique hfront hfront' heq
      exact ⟨hne, rfl⟩

theorem declaration?_eq_none_iff : declaration? piece = none ↔ IsBare piece := by
  rw [declaration?]
  cases hcut : Text.cutAt? ':' piece with
  | none => exact iff_of_true rfl (.inl (Text.cutAt?_eq_none_iff.1 hcut))
  | some cut =>
    obtain ⟨front, back⟩ := cut
    obtain ⟨rfl, hfront⟩ := Text.cutAt?_eq_some_iff.1 hcut
    simp only [ite_eq_left_iff, reduceCtorEq, imp_false, not_not, List.isEmpty_iff,
      Text.trim_eq_nil_iff]
    constructor
    · intro hblank
      exact .inr ⟨front, back, hblank, rfl⟩
    · rintro (hcolon | ⟨front', back', hblank, heq⟩)
      · exact absurd (by simp) hcolon
      · -- the colon behind the blanks is the first one
        have hfront' : ':' ∉ front' := Text.notMem_of_isAllBlank hblank (by decide)
        obtain ⟨rfl, -⟩ := Text.first_unique hfront hfront' heq
        exact hblank

/-- A pair is read from a piece if the piece spells it. -/
theorem declaration?_of_spells (hpair : IsWritable pair) (h : Spells piece pair) :
    declaration? piece = some pair := by
  obtain ⟨a, b, c, d, ha, hb, hc, hd, rfl⟩ := h
  have htrim : ∀ {s : String} {front back : List Char}, trimmed s = s → isAllBlank front →
      isAllBlank back → trim (front ++ s.toList ++ back) = s.toList := by
    intro s front back hs hfront hback
    rw [Text.trim_append_of_blanks hback, Text.trim_append hfront, Text.trim_toList hs]
  refine declaration?_eq_some_iff.2 ⟨_, _, rfl, ?_, ?_, ?_⟩
  · -- the colon between name and value is the first one
    have hblank : ∀ {cs : List Char}, isAllBlank cs → ':' ∉ cs :=
      fun hcs => Text.notMem_of_isAllBlank hcs (by decide)
    rw [List.mem_append, List.mem_append, not_or, not_or]
    exact ⟨⟨hblank ha, hpair.colon_notMem_name⟩, hblank hb⟩
  · rw [htrim hpair.name_trimmed ha hb]
    exact fun hnil => hpair.name_ne_empty (String.toList_injective hnil)
  · rw [htrim hpair.name_trimmed ha hb, htrim hpair.value_trimmed hc hd, String.ofList_toList,
      String.ofList_toList]

/-- What is read from a piece is spelled there. -/
theorem spells_of_declaration? (h : declaration? piece = some pair) : Spells piece pair := by
  obtain ⟨front, back, rfl, -, -, rfl⟩ := declaration?_eq_some_iff.1 h
  obtain ⟨a, b, ha, hb, hfront⟩ := Text.exists_trim_eq front
  obtain ⟨c, d, hc, hd, hback⟩ := Text.exists_trim_eq back
  refine ⟨a, b, c, d, ha, hb, hc, hd, ?_⟩
  rw [String.toList_ofList, String.toList_ofList, ← hfront, ← hback]

theorem isWritable_of_declaration? (hpiece : ';' ∉ piece) (h : declaration? piece = some pair) :
    IsWritable pair := by
  obtain ⟨front, back, rfl, hcolon, hne, rfl⟩ := declaration?_eq_some_iff.1 h
  rw [List.mem_append, List.mem_cons, not_or, not_or] at hpiece
  have htrimmed : ∀ cs : List Char, trimmed (.ofList (trim cs)) = .ofList (trim cs) := by
    intro cs
    rw [trimmed, String.toList_ofList, Text.trim_trim]
  -- trimming brings in no characters, so it brings in no colon and no semicolon
  have hfree : ∀ {c : Char} {cs : List Char}, c ∉ cs → c ∉ (String.ofList (trim cs)).toList := by
    intro c cs hcs hmem
    rw [String.toList_ofList] at hmem
    exact hcs (Text.trim_subset cs hmem)
  refine ⟨htrimmed front, ?_, hfree hcolon, hfree hpiece.1, htrimmed back, hfree hpiece.2.2⟩
  intro hempty
  have hlist := congrArg String.toList hempty
  rw [String.toList_ofList] at hlist
  exact hne hlist

/-! ## What a body declares -/

theorem Spells.semicolon_notMem (h : Spells piece pair) (hpair : IsWritable pair) :
    ';' ∉ piece := by
  obtain ⟨a, b, c, d, ha, hb, hc, hd, rfl⟩ := h
  have hblank : ∀ {cs : List Char}, isAllBlank cs → ';' ∉ cs :=
    fun hcs => Text.notMem_of_isAllBlank hcs (by decide)
  simp [hblank ha, hblank hb, hblank hc, hblank hd, hpair.semicolon_notMem_name,
    hpair.semicolon_notMem_value]

theorem LaysOut.semicolon_notMem (h : LaysOut pieces pairs)
    (hpairs : ∀ pair ∈ pairs, IsWritable pair) : ∀ piece ∈ pieces, ';' ∉ piece := by
  induction h with
  | nil => exact List.forall_mem_nil _
  | bare _ hpiece _ ih => exact List.forall_mem_cons.2 ⟨hpiece, ih hpairs⟩
  | pair hspells _ ih =>
    obtain ⟨hpair, hpairs⟩ := List.forall_mem_cons.1 hpairs
    exact List.forall_mem_cons.2 ⟨hspells.semicolon_notMem hpair, ih hpairs⟩

/-- The pairs that pieces lay out are read from them one by one. -/
theorem LaysOut.filterMap_eq (h : LaysOut pieces pairs) (hpairs : ∀ pair ∈ pairs, IsWritable pair) :
    pieces.filterMap declaration? = pairs := by
  induction h with
  | nil => rfl
  | bare hbare _ _ ih =>
    rw [List.filterMap_cons_none (declaration?_eq_none_iff.2 hbare), ih hpairs]
  | pair hspells _ ih =>
    obtain ⟨hpair, hpairs⟩ := List.forall_mem_cons.1 hpairs
    rw [List.filterMap_cons_some (declaration?_of_spells hpair hspells), ih hpairs]

/-- Pieces lay out what is read from them. -/
theorem laysOut_filterMap (h : ∀ piece ∈ pieces, ';' ∉ piece) :
    LaysOut pieces (pieces.filterMap declaration?) := by
  induction pieces with
  | nil => exact .nil
  | cons piece pieces ih =>
    obtain ⟨hpiece, hpieces⟩ := List.forall_mem_cons.1 h
    cases hread : declaration? piece with
    | none =>
      rw [List.filterMap_cons_none hread]
      exact .bare (declaration?_eq_none_iff.1 hread) hpiece (ih hpieces)
    | some pair =>
      rw [List.filterMap_cons_some hread]
      exact .pair (spells_of_declaration? hread) (ih hpieces)

/-- The declarations of a body are the pairs that it lays out. -/
theorem declarations_iff :
    declarations body = pairs ↔
      (∀ pair ∈ pairs, IsWritable pair) ∧
        ∃ pieces, LaysOut pieces pairs ∧ [';'].intercalate pieces = body := by
  constructor
  · rintro rfl
    -- the body consists of its pieces, and no semicolon stands in any of them
    obtain ⟨hjoin, hfree⟩ := (Text.pieces_eq_iff (List.splitOnP_ne_nil _ _)).1
      (rfl : Text.pieces ';' body = _)
    refine ⟨?_, Text.pieces ';' body, laysOut_filterMap hfree, hjoin⟩
    intro pair hpair
    obtain ⟨piece, hpiece, hread⟩ := List.mem_filterMap.1 hpair
    exact isWritable_of_declaration? (hfree piece hpiece) hread
  · rintro ⟨hpairs, pieces, hlays, rfl⟩
    by_cases hne : pieces = []
    -- the text of no pieces is the empty text, which is cut into an empty piece
    · subst hne
      cases hlays
      rfl
    · have hpieces : Text.pieces ';' ([';'].intercalate pieces) = pieces :=
        (Text.pieces_eq_iff hne).2 ⟨rfl, hlays.semicolon_notMem hpairs⟩
      rw [declarations, hpieces, hlays.filterMap_eq hpairs]

/-- Pairs that can be written are read in order from every text that lays them out. In every text,
the names that are read are trimmed and not empty, and the values are trimmed. -/
theorem declarations_of_layout :
    (∀ (pairs : List (String × String)) (pieces : List (List Char)),
        (∀ pair ∈ pairs, IsWritable pair) → LaysOut pieces pairs →
          declarations ([';'].intercalate pieces) = pairs) ∧
      ∀ (body : List Char), ∀ pair ∈ declarations body,
        trimmed pair.1 = pair.1 ∧ pair.1 ≠ "" ∧ trimmed pair.2 = pair.2 := by
  refine ⟨?_, ?_⟩
  · intro pairs pieces hpairs hlays
    exact declarations_iff.2 ⟨hpairs, pieces, hlays, rfl⟩
  · intro body pair hpair
    have hwritable := (declarations_iff.1 (rfl : declarations body = _)).1 pair hpair
    exact ⟨hwritable.name_trimmed, hwritable.name_ne_empty, hwritable.value_trimmed⟩

/-- Blanks, empty pieces, one without a colon and one without a name around two declarations, one of
which has a colon in its value. -/
theorem declarations_of_untidy_layout :
    let pairs := [("color", "red"), ("background", "url(a:b)")]
    let pieces := [" color : red ", "", " :x", " bare", " background:\turl(a:b)"].map String.toList
    (∀ pair ∈ pairs, IsWritable pair) ∧ LaysOut pieces pairs ∧
      declarations ([';'].intercalate pieces) = pairs ∧
      ("background", "url(a:b)") ∈ declarations ([';'].intercalate pieces) ∧
      trimmed "background" = "background" ∧ "background" ≠ "" ∧
      trimmed "url(a:b)" = "url(a:b)" := by
  intro pairs pieces
  have hpairs : ∀ pair ∈ pairs, IsWritable pair := by decide
  have hcolor : Spells " color : red ".toList ("color", "red") :=
    ⟨[' '], [' '], [' '], [' '], rfl, rfl, rfl, rfl, rfl⟩
  have hbackground : Spells " background:\turl(a:b)".toList ("background", "url(a:b)") :=
    ⟨[' '], [], ['\t'], [], rfl, rfl, rfl, rfl, rfl⟩
  have hnameless : IsBare " :x".toList := .inr ⟨[' '], ['x'], rfl, rfl⟩
  have hlays : LaysOut pieces pairs := by
    refine .pair hcolor (.bare (.inl ?_) ?_ (.bare hnameless ?_ (.bare (.inl ?_) ?_
      (.pair hbackground .nil))))
    all_goals decide
  have hread := declarations_of_layout.1 pairs pieces hpairs hlays
  have hmem : ("background", "url(a:b)") ∈ declarations ([';'].intercalate pieces) := by
    rw [hread]
    exact List.mem_cons_of_mem _ List.mem_cons_self
  have htrimmed := declarations_of_layout.2 _ ("background", "url(a:b)") hmem
  exact ⟨hpairs, hlays, hread, hmem, htrimmed⟩

end Source

end BoxFlow
