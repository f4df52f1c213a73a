import BoxFlow.Proofs.Selector.Reading
import Mathlib.Data.List.Perm.Basic

/-!
# Printed selectors

A selector is printed head first, then ids, classes, the attribute test and the pseudo-classes,
whatever the order of its parts was. The grammar allows the parts in any order, and each part keeps
its text, so the printed text says the same (`Compound.IsValid.written_print`) and is a
rearrangement of the text that was read (`Compound.print_perm`). Hence a printed argument is
again an argument, and a printed selector is read as itself (`Selector.parse_print`).
-/

set_option autoImplicit false

namespace BoxFlow

namespace Compound

variable {α : Type} {argument : List Char → α → Prop} {printArgument : α → List Char}
variable {text piece : List Char} {s s' : Compound α}

/-! ## What a selector is made of -/

/-- The components of a selector, each fit for being written where it belongs. -/
structure IsValid (argument : List Char → α → Prop) (printArgument : α → List Char)
    (s : Compound α) : Prop where
  head : s.universal = true → s.tag = ""
  tag : s.tag ≠ "" → IsIdentifier s.tag.toList
  ids : ∀ id ∈ s.ids, IsIdentifier id.toList
  classes : ∀ name ∈ s.classes, IsIdentifier name.toList
  attributeTest : ∀ raw ∈ s.attributeTest, IsAttributeText raw.toList
  arguments : ∀ kind a, .functional kind a ∈ s.pseudoClasses →
    IsArgumentText (printArgument a) ∧ argument (printArgument a) a

/-- Printed arguments are again arguments, with the same meaning. -/
def PrintsArguments (argument : List Char → α → Prop) (printArgument : α → List Char) : Prop :=
  ∀ raw a, IsArgumentText raw → argument raw a →
    IsArgumentText (printArgument a) ∧ argument (printArgument a) a

theorem IsValid.of_adds (hprint : PrintsArguments argument printArgument)
    (hs : IsValid argument printArgument s) (hadds : Adds argument s piece s') :
    IsValid argument printArgument s' := by
  cases hadds with
  | id hname =>
    refine { hs with ids := ?_ }
    intro id hid
    rcases List.mem_append.1 hid with hid | hid
    · exact hs.ids id hid
    · rw [List.mem_singleton.1 hid, String.toList_ofList]
      exact hname
  | className hname =>
    refine { hs with classes := ?_ }
    intro name hmem
    rcases List.mem_append.1 hmem with hmem | hmem
    · exact hs.classes name hmem
    · rw [List.mem_singleton.1 hmem, String.toList_ofList]
      exact hname
  | attributeTest _ hraw =>
    refine { hs with attributeTest := ?_ }
    intro raw hmem
    rw [← Option.some.inj hmem, String.toList_ofList]
    exact hraw
  | plain kind =>
    refine { hs with arguments := ?_ }
    intro kind' a hmem
    rcases List.mem_append.1 hmem with hmem | hmem
    · exact hs.arguments kind' a hmem
    · simp at hmem
  | @functional kind raw a hraw ha =>
    refine { hs with arguments := ?_ }
    intro kind' a' hmem
    rcases List.mem_append.1 hmem with hmem | hmem
    · exact hs.arguments kind' a' hmem
    · obtain ⟨rfl, rfl⟩ : kind' = kind ∧ a' = a := by simpa using hmem
      exact hprint raw a' hraw ha

/-- A selector of the grammar is valid. -/
theorem IsValid.of_written (hprint : PrintsArguments argument printArgument)
    (hs : Written argument text s) : IsValid argument printArgument s := by
  induction hs with
  | blank => constructor <;> simp
  | star => constructor <;> simp
  | tag hname => constructor <;> simp [hname]
  | part _ hadds ih => exact ih.of_adds hprint hadds

/-! ## Printing in the grammar -/

/-- Pieces that add to a list one after the other add all of it. -/
theorem Written.append_pieces {β : Type} {all : List β} (add : List β → Compound α)
    (pieceOf : β → List Char) (hs : Written argument text (add []))
    (hadds : ∀ xs, ∀ x ∈ all, Adds argument (add xs) (pieceOf x) (add (xs ++ [x]))) :
    Written argument (text ++ all.flatMap pieceOf) (add all) := by
  -- the invariant: `xs` is added already, and `ys` is still to come
  suffices h : ∀ ys xs t, (∀ y ∈ ys, y ∈ all) → Written argument t (add xs) →
      Written argument (t ++ ys.flatMap pieceOf) (add (xs ++ ys)) from
    h all [] text (fun _ => id) hs
  intro ys
  induction ys with
  | nil =>
    intro xs t _ ht
    simpa using ht
  | cons y ys ih =>
    intro xs t hys ht
    have hpart : Written argument (t ++ pieceOf y) (add (xs ++ [y])) :=
      .part ht (hadds xs y (hys y List.mem_cons_self))
    have hrest := ih (xs ++ [y]) (t ++ pieceOf y)
      (fun z hz => hys z (List.mem_cons_of_mem y hz)) hpart
    simpa using hrest

theorem IsValid.written_head (hs : IsValid argument printArgument s) :
    Written argument (printWith printArgument { universal := s.universal, tag := s.tag })
      { universal := s.universal, tag := s.tag } := by
  by_cases htag : s.tag = ""
  · cases huniversal : s.universal <;> simp only [htag]
    · exact .blank
    · exact .star
  · have huniversal : s.universal = false := by
      rw [← Bool.not_eq_true]
      intro h
      exact htag (hs.head h)
    have htagged : Written argument s.tag.toList { tag := .ofList s.tag.toList } :=
      .tag (hs.tag htag)
    rw [String.ofList_toList] at htagged
    simpa [printWith, huniversal] using htagged

/-- The printed text of a valid selector says what the selector is. -/
theorem IsValid.written_print (hs : IsValid argument printArgument s) :
    Written argument (printWith printArgument s) s := by
  -- one sort of parts after the other, in the order in which they are printed
  have hhead := hs.written_head
  have hids : Written argument
      (printWith printArgument { universal := s.universal, tag := s.tag, ids := s.ids })
      { universal := s.universal, tag := s.tag, ids := s.ids } := by
    have hpieces := hhead.append_pieces
      (fun ids => { universal := s.universal, tag := s.tag, ids := ids })
      (fun id => '#' :: id.toList) fun xs id (hid : id ∈ s.ids) => by
        simpa using Adds.id (hs.ids id hid)
    simpa [printWith] using hpieces
  have hclasses : Written argument
      (printWith printArgument
        { universal := s.universal, tag := s.tag, ids := s.ids, classes := s.classes })
      { universal := s.universal, tag := s.tag, ids := s.ids, classes := s.classes } := by
    have hpieces := hids.append_pieces
      (fun classes =>
        { universal := s.universal, tag := s.tag, ids := s.ids, classes := classes })
      (fun name => '.' :: name.toList) fun xs name (hname : name ∈ s.classes) => by
        simpa using Adds.className (hs.classes name hname)
    simpa [printWith] using hpieces
  have htest : Written argument (printWith printArgument { s with pseudoClasses := [] })
      { s with pseudoClasses := [] } := by
    cases hraw : s.attributeTest with
    | none => simpa [printWith, hraw] using hclasses
    | some raw =>
      have hpart := hclasses.part (.attributeTest rfl (hs.attributeTest raw hraw))
      simpa [printWith, hraw] using hpart
  have hpieces := htest.append_pieces
    (fun pseudoClasses => { s with pseudoClasses := pseudoClasses })
    (PseudoClass.print printArgument) fun xs pseudo (hmem : pseudo ∈ s.pseudoClasses) => by
      cases pseudo with
      | plain kind => exact .plain kind
      | functional kind a =>
        obtain ⟨hraw, ha⟩ := hs.arguments kind a hmem
        exact .functional kind hraw ha
  simpa [printWith] using hpieces

/-! ## Printing rearranges -/

/-- The characters of a printed selector are those of the text that was read. -/
theorem print_perm (hprint : ∀ raw a, argument raw a → (printArgument a).Perm raw)
    (hs : Written argument text s) : (printWith printArgument s).Perm text := by
  induction hs with
  | blank => rfl
  | star => rfl
  | tag hname => simp [printWith]
  | part _ hadds ih =>
    -- the new piece is printed somewhere in the middle, so the occurrences of each character
    -- are counted
    rw [List.perm_iff_count] at ih ⊢
    intro ch
    have hcount := ih ch
    rw [List.count_append, ← hcount]
    cases hadds with
    | id hname =>
      simp only [printWith, List.flatMap_append, List.flatMap_singleton, String.toList_ofList,
        List.count_append]
      omega
    | className hname =>
      simp only [printWith, List.flatMap_append, List.flatMap_singleton, String.toList_ofList,
        List.count_append]
      omega
    | attributeTest hnone hraw =>
      simp only [printWith, hnone, String.toList_ofList, List.count_append, List.count_nil]
      omega
    | plain kind =>
      simp only [printWith, List.flatMap_append, List.flatMap_singleton, PseudoClass.print,
        List.count_append]
      omega
    | functional kind hraw ha =>
      have harg := (hprint _ _ ha).count_eq ch
      simp only [printWith, List.flatMap_append, List.flatMap_singleton, PseudoClass.print,
        List.count_append, List.cons_append, List.count_cons, harg]
      omega

/-- Printing keeps a selector inside the grammar. -/
theorem written_print (hprint : PrintsArguments argument printArgument)
    (hs : Written argument text s) : Written argument (printWith printArgument s) s :=
  (IsValid.of_written hprint hs).written_print

end Compound

/-! ## Selectors and their arguments -/

theorem PlainSelector.written_print {text : List Char} {s : PlainSelector}
    (hs : PlainSelector.Written text s) : PlainSelector.Written s.print s :=
  Compound.written_print (fun _ a => nomatch a) hs

theorem PlainSelector.print_perm {text : List Char} {s : PlainSelector}
    (hs : PlainSelector.Written text s) : s.print.Perm text :=
  Compound.print_perm (fun _ a => nomatch a) hs

/-- A printed argument is an argument: it has the characters of one. -/
theorem Selector.printsArguments :
    Compound.PrintsArguments Selector.Argument PlainSelector.print := by
  rintro raw a hraw ⟨hne, ha⟩
  have hperm : a.print.Perm raw := PlainSelector.print_perm ha
  refine ⟨?_, ?_, PlainSelector.written_print ha⟩
  · intro ch hch
    exact hraw ch (hperm.mem_iff.1 hch)
  · intro hnil
    rw [hnil] at hperm
    exact hne hperm.nil_eq.symm

/-- Printing rearranges the text of a selector. -/
theorem Selector.print_perm {text : List Char} {s : Selector} (hs : Selector.Written text s) :
    s.print.Perm text :=
  Compound.print_perm (fun _ _ ha => PlainSelector.print_perm ha.2) hs

/-- A selector that was read is printed as a text that is read as the same selector. -/
theorem Selector.parse_print {text : List Char} {s : Selector} (h : Selector.parse text = .ok s) :
    Selector.parse s.print = .ok s := by
  obtain ⟨hne, hs⟩ := Selector.parse_eq_ok_iff.1 h
  rw [Selector.parse_eq_ok_iff]
  constructor
  · intro hnil
    have hperm : s.print.Perm text := Selector.print_perm hs
    rw [hnil] at hperm
    exact hne hperm.nil_eq.symm
  · exact Compound.written_print Selector.printsArguments hs

/-- Parts out of order come back in order, and are read as before. -/
theorem Selector.parse_print_reordered :
    Selector.parse ".b[x]:not(:root.c)#a".toList = .ok
        { ids := ["a"], classes := ["b"], attributeTest := some "x",
          pseudoClasses :=
            [.functional .negation { classes := ["c"], pseudoClasses := [.plain .root] }] } ∧
      Selector.parse "#a.b[x]:not(.c:root)".toList = .ok
        { ids := ["a"], classes := ["b"], attributeTest := some "x",
          pseudoClasses :=
            [.functional .negation { classes := ["c"], pseudoClasses := [.plain .root] }] } := by
  have hread : Selector.parse ".b[x]:not(:root.c)#a".toList = .ok
      { ids := ["a"], classes := ["b"], attributeTest := some "x",
        pseudoClasses :=
          [.functional .negation { classes := ["c"], pseudoClasses := [.plain .root] }] } := by
    decide
  exact ⟨hread, Selector.parse_print hread⟩

end BoxFlow
