import BoxFlow.Selector.Parse

/-!
# The grammar of selectors

The text of a compound selector is an optional head, a star or a tag, followed by any number of
parts. `Adds` lists the parts with what each adds to a selector, and `Compound.Written` puts a head
and parts together, from left to right. Every part starts with a character that no identifier
contains, so an identifier is always followed by such a character or by the end of the text: it is
a maximal run.

The grammar is stated over any language of arguments. A selector without arguments has an empty
one, and the arguments of a selector are the texts of selectors without arguments.
-/

set_option autoImplicit false

namespace BoxFlow

/-- The characters that stand for something other than themselves, or for nothing at all. -/
def reservedChars : List Char :=
  ['*', '#', '.', '[', ']', ':', '(', ')', '>', '+', '~', '|', ' ', '\n', '\r', '\t']

/-- The characters that parts start with. -/
def partChars : List Char := ['#', '.', '[', ':']

theorem mem_reservedChars_of_mem_partChars {c : Char} (h : c ∈ partChars) :
    c ∈ reservedChars := by
  have hall : partChars.all (reservedChars.contains ·) = true := rfl
  exact List.contains_iff_mem.1 (List.all_eq_true.1 hall c h)

/-- A non-empty run of characters that are not reserved, without an ASCII digit in front. -/
def IsIdentifier (name : List Char) : Prop :=
  name ≠ [] ∧ (∀ c ∈ name, c ∉ reservedChars) ∧ ∀ c ∈ name.head?, c.isDigit = false

instance (name : List Char) : Decidable (IsIdentifier name) :=
  have : Decidable (∀ c ∈ name, c ∉ reservedChars) := List.decidableBAll (· ∉ reservedChars) name
  have : Decidable (∀ c ∈ name.head?, c.isDigit = false) := Option.decidableForallMem name.head?
  inferInstanceAs (Decidable (_ ∧ _ ∧ _))

/-- What may stand between the brackets of an attribute test. -/
def IsAttributeText (raw : List Char) : Prop :=
  (∀ c ∈ raw, c ∉ [']', '\n', '\r', '\t']) ∧ ¬ Text.isAllBlank raw

/-- What may stand between the parentheses of a pseudo-class. -/
def IsArgumentText (raw : List Char) : Prop :=
  ∀ c ∈ raw, c ∉ ['(', ')', '\n', '\r', '\t']

instance (raw : List Char) : Decidable (IsArgumentText raw) :=
  List.decidableBAll (· ∉ ['(', ')', '\n', '\r', '\t']) raw

namespace Compound

variable {α : Type}

/-- One part of a selector and what it adds: an id, a class, the only attribute test, or a
pseudo-class. -/
inductive Adds (argument : List Char → α → Prop) (s : Compound α) :
    List Char → Compound α → Prop
  | id {name : List Char} : IsIdentifier name →
      Adds argument s ('#' :: name) { s with ids := s.ids ++ [.ofList name] }
  | className {name : List Char} : IsIdentifier name →
      Adds argument s ('.' :: name) { s with classes := s.classes ++ [.ofList name] }
  | attributeTest {raw : List Char} : s.attributeTest = none → IsAttributeText raw →
      Adds argument s ('[' :: raw ++ [']']) { s with attributeTest := some (.ofList raw) }
  | plain (kind : PlainPseudo) :
      Adds argument s (':' :: kind.name.toList)
        { s with pseudoClasses := s.pseudoClasses ++ [.plain kind] }
  | functional (kind : FunctionalPseudo) {raw : List Char} {a : α} :
      IsArgumentText raw → argument raw a →
      Adds argument s (':' :: kind.name.toList ++ '(' :: raw ++ [')'])
        { s with pseudoClasses := s.pseudoClasses ++ [.functional kind a] }

/-- `Written argument text s`: the text is a head, or none, and parts, and `s` is what they say. -/
inductive Written (argument : List Char → α → Prop) : List Char → Compound α → Prop
  | blank : Written argument [] {}
  | star : Written argument ['*'] { universal := true }
  | tag {name : List Char} : IsIdentifier name → Written argument name { tag := .ofList name }
  | part {text piece : List Char} {s s' : Compound α} :
      Written argument text s → Adds argument s piece s' → Written argument (text ++ piece) s'

end Compound

/-- The texts of selectors without arguments. -/
def PlainSelector.Written : List Char → PlainSelector → Prop :=
  Compound.Written fun _ _ => False

/-- The arguments of functional pseudo-classes. -/
def Selector.Argument (raw : List Char) (a : PlainSelector) : Prop :=
  raw ≠ [] ∧ PlainSelector.Written raw a

/-- The texts of selectors. -/
def Selector.Written : List Char → Selector → Prop :=
  Compound.Written Selector.Argument

/-! ## Characters -/

/-- The character of a punctuation token. -/
def TokenKind.char? : TokenKind → Option Char
  | identifier => none
  | star => some '*'
  | hash => some '#'
  | dot => some '.'
  | openBracket => some '['
  | closeBracket => some ']'
  | colon => some ':'
  | openParen => some '('
  | closeParen => some ')'
  | descendant => some ' '
  | child => some '>'
  | nextSibling => some '+'
  | laterSibling => some '~'
  | namespaceBar => some '|'

theorem TokenKind.char?_of_ofChar? {c : Char} {kind : TokenKind} (h : ofChar? c = some kind) :
    kind.char? = some c := by
  unfold ofChar? at h
  split at h <;> simp only [Option.some.injEq, reduceCtorEq] at h <;> subst h <;> rfl

theorem Token.isForbidden_iff {c : Char} : isForbidden c = true ↔ c ∈ ['\n', '\r', '\t'] := by
  simp [isForbidden, or_assoc]

/-- The characters of identifiers are those that are not reserved. -/
theorem Token.isNameChar_iff {c : Char} : isNameChar c = true ↔ c ∉ reservedChars := by
  unfold isNameChar TokenKind.ofChar?
  split <;> simp_all [reservedChars, isForbidden, and_assoc]

/-- No character of an identifier is forbidden. -/
theorem IsIdentifier.isForbidden_of_mem {name : List Char} (h : IsIdentifier name) {c : Char}
    (hc : c ∈ name) : Token.isForbidden c = false := by
  rw [← Bool.not_eq_true, Token.isForbidden_iff]
  intro hmem
  have hall : ['\n', '\r', '\t'].all (reservedChars.contains ·) = true := rfl
  exact h.2.1 c hc (List.contains_iff_mem.1 (List.all_eq_true.1 hall c hmem))

/-! ## Names of pseudo-classes -/

namespace PseudoName

/-- A character of a name. -/
def isTextChar (c : Char) : Bool := c.isLower || c == '-'

theorem notMem_reservedChars {c : Char} (h : isTextChar c = true) : c ∉ reservedChars := by
  intro hmem
  have hall : reservedChars.all (!isTextChar ·) = true := rfl
  have hc := List.all_eq_true.1 hall c hmem
  rw [h] at hc
  exact Bool.false_ne_true hc

theorem isIdentifier_text (name : PseudoName) : IsIdentifier name.text.toList := by
  have hne : name.text.toList ≠ [] := by rcases name with kind | kind <;> cases kind <;> decide
  have hall : name.text.toList.all isTextChar = true := by
    rcases name with kind | kind <;> cases kind <;> rfl
  have hfirst : name.text.toList.head?.any Char.isDigit = false := by
    rcases name with kind | kind <;> cases kind <;> rfl
  refine ⟨hne, ?_, ?_⟩
  · intro c hc
    exact notMem_reservedChars (List.all_eq_true.1 hall c hc)
  · intro c hc
    rw [Option.mem_def.1 hc] at hfirst
    exact hfirst

theorem ofText?_text (name : PseudoName) : ofText? name.text = some name := by
  rcases name with kind | kind <;> cases kind <;> decide

theorem text_of_ofText? {written : String} {name : PseudoName}
    (h : ofText? written = some name) : name.text = written := by
  unfold ofText? at h
  split at h
  · next kind hfind =>
    obtain rfl : plain kind = name := by simpa using h
    simpa [text] using List.find?_some hfind
  · obtain ⟨kind, hfind, rfl⟩ := Option.map_eq_some_iff.1 h
    simpa [text] using List.find?_some hfind

end PseudoName

/-! ## Parts and texts -/

namespace Compound

variable {α : Type} {argument : List Char → α → Prop} {text piece : List Char} {s s' : Compound α}

/-- Every part starts with a character that tells its sort. -/
theorem Adds.exists_cons (h : Adds argument s piece s') :
    ∃ c cs, piece = c :: cs ∧ c ∈ partChars := by
  cases h <;> exact ⟨_, _, rfl, by decide⟩

theorem Adds.mem_partChars (h : Adds argument s piece s') {c : Char} {cs rest : List Char}
    (hsplit : c :: cs = piece ++ rest) : c ∈ partChars := by
  obtain ⟨d, ds, rfl, hd⟩ := h.exists_cons
  obtain ⟨rfl, -⟩ := List.cons.inj hsplit
  exact hd

theorem Adds.ne_nil (h : Adds argument s piece s') : piece ≠ [] := by
  obtain ⟨c, cs, rfl, -⟩ := h.exists_cons
  exact List.cons_ne_nil c cs

/-- No part changes the head. -/
theorem Adds.head_eq (h : Adds argument s piece s') :
    s'.universal = s.universal ∧ s'.tag = s.tag := by
  cases h <;> exact ⟨rfl, rfl⟩

/-- What a part adds does not depend on the tag. -/
theorem Adds.withTag (h : Adds argument s piece s') (tag : String) :
    Adds argument { s with tag := tag } piece { s' with tag := tag } := by
  cases h with
  | id hname => exact .id hname
  | className hname => exact .className hname
  | attributeTest hnone hraw => exact .attributeTest hnone hraw
  | plain kind => exact .plain kind
  | functional kind hraw ha => exact .functional kind hraw ha

/-- Nothing written asks for nothing. -/
theorem Written.eq_empty (h : Written argument [] s) : s = {} := by
  generalize htext : ([] : List Char) = text at h
  cases h with
  | blank => rfl
  | star => simp at htext
  | tag hname => exact absurd htext.symm hname.1
  | part _ hadds => exact absurd (List.append_eq_nil_iff.1 htext.symm).2 hadds.ne_nil

/-- No part has a forbidden character. -/
theorem Adds.isForbidden_of_mem (h : Adds argument s piece s') {c : Char} (hc : c ∈ piece) :
    Token.isForbidden c = false := by
  cases h with
  | id hname =>
    rcases List.mem_cons.1 hc with rfl | hc
    · rfl
    · exact hname.isForbidden_of_mem hc
  | className hname =>
    rcases List.mem_cons.1 hc with rfl | hc
    · rfl
    · exact hname.isForbidden_of_mem hc
  | @attributeTest raw hnone hraw =>
    rw [List.mem_append, List.mem_cons, List.mem_singleton] at hc
    rcases hc with (rfl | hc) | rfl
    · rfl
    · rw [← Bool.not_eq_true, Token.isForbidden_iff]
      exact fun hmem => hraw.1 c hc (List.mem_cons_of_mem _ hmem)
    · rfl
  | plain kind =>
    rcases List.mem_cons.1 hc with rfl | hc
    · rfl
    · exact (PseudoName.isIdentifier_text (.plain kind)).isForbidden_of_mem hc
  | @functional kind raw a hraw ha =>
    rw [List.mem_append, List.mem_append, List.mem_cons, List.mem_cons, List.mem_singleton] at hc
    rcases hc with ((rfl | hc) | (rfl | hc)) | rfl
    · rfl
    · exact (PseudoName.isIdentifier_text (.functional kind)).isForbidden_of_mem hc
    · rfl
    · rw [← Bool.not_eq_true, Token.isForbidden_iff]
      exact fun hmem => hraw c hc (List.mem_cons_of_mem _ (List.mem_cons_of_mem _ hmem))
    · rfl

/-- No text of the grammar has a forbidden character. -/
theorem Written.isForbidden_of_mem (h : Written argument text s) {c : Char} (hc : c ∈ text) :
    Token.isForbidden c = false := by
  induction h with
  | blank => exact absurd hc List.not_mem_nil
  | star =>
    rw [List.mem_singleton.1 hc]
    rfl
  | tag hname => exact hname.isForbidden_of_mem hc
  | part _ hadds ih =>
    rcases List.mem_append.1 hc with hc | hc
    · exact ih hc
    · exact hadds.isForbidden_of_mem hc

end Compound

end BoxFlow
