import BoxFlow.Proofs.Selector.Grammar
import Mathlib.Data.Nat.Notation

/-!
# What is nested in a selector

Whether a character of a text is nested in something can be told by reading from the left and
keeping track of what is open (`Nesting`). There are two ways to do so. In the first one (`scopes`),
a text is outside, between the brackets of an attribute test, where everything up to the closing
bracket is raw, or within parentheses. This is how selectors are read: outside again at its end
(`Compound.Written.after_scopes`), a selector has no blank outside
(`Compound.Written.hides_blank_scopes`).

The second way (`parens`) counts parentheses and knows nothing of brackets. Where the commas of
a selector are nested in the first way, whether they are in the second one too, and whether the
count comes out even, depends on the text of the attribute test alone
(`Compound.Written.parens_eq`).
-/

set_option autoImplicit false

namespace BoxFlow

/-- A way to keep track of what is open in a text, and whether nothing is. -/
structure Nesting (σ : Type) where
  read : σ → Char → σ
  isTop : σ → Bool

namespace Nesting

variable {σ : Type} (N : Nesting σ)

/-- What is open behind a text. -/
def after (state : σ) (cs : List Char) : σ := cs.foldl N.read state

/-- Whether something is open wherever a character occurs in a text. -/
def hides (c : Char) : σ → List Char → Bool
  | _, [] => true
  | state, d :: cs => !(d == c && N.isTop state) && hides c (N.read state d) cs

variable {N} {state : σ} {c d : Char} {cs ds : List Char}

theorem after_append (state : σ) (cs ds : List Char) :
    N.after state (cs ++ ds) = N.after (N.after state cs) ds :=
  List.foldl_append

theorem after_cons (state : σ) (c : Char) (cs : List Char) :
    N.after state (c :: cs) = N.after (N.read state c) cs :=
  rfl

theorem hides_append (c : Char) (state : σ) (cs ds : List Char) :
    N.hides c state (cs ++ ds) = (N.hides c state cs && N.hides c (N.after state cs) ds) := by
  induction cs generalizing state with
  | nil => rfl
  | cons d cs ih => rw [List.cons_append, hides, hides, ih, after_cons, Bool.and_assoc]

theorem hides_cons_of_ne (h : d ≠ c) (state : σ) (cs : List Char) :
    N.hides c state (d :: cs) = N.hides c (N.read state d) cs := by
  simp [hides, h]

theorem hides_of_notMem (h : c ∉ cs) (state : σ) : N.hides c state cs = true := by
  induction cs generalizing state with
  | nil => rfl
  | cons d cs ih =>
    rw [List.mem_cons, not_or] at h
    rw [hides_cons_of_ne (Ne.symm h.1), ih h.2]

/-- A text that opens and closes nothing does not change what is open. -/
theorem after_eq_self (h : ∀ d ∈ cs, N.read state d = state) : N.after state cs = state := by
  induction cs with
  | nil => rfl
  | cons d cs ih =>
    obtain ⟨hd, hcs⟩ := List.forall_mem_cons.1 h
    rw [after_cons, hd, ih hcs]

/-- In a text that closes nothing, all characters are nested in what is open in front of it. -/
theorem hides_of_not_isTop (h : ∀ d ∈ cs, N.read state d = state) (hstate : N.isTop state = false)
    (c : Char) : N.hides c state cs = true := by
  induction cs with
  | nil => rfl
  | cons d cs ih =>
    obtain ⟨hd, hcs⟩ := List.forall_mem_cons.1 h
    rw [hides, hstate, hd, ih hcs, Bool.and_false]
    rfl

/-- Between an opening character and the one that closes it, everything is nested. -/
theorem enclosed {inner : σ} {opening closing : Char} (hopen : N.read state opening = inner)
    (hinner : N.isTop inner = false) (h : ∀ d ∈ cs, N.read inner d = inner) :
    N.after state (opening :: cs ++ [closing]) = N.read inner closing ∧
      ∀ c ≠ opening, N.hides c state (opening :: cs ++ [closing]) = true := by
  have hafter : N.after state (opening :: cs) = inner := by
    rw [after_cons, hopen, after_eq_self h]
  refine ⟨by rw [after_append, hafter]; rfl, ?_⟩
  intro c hc
  rw [hides_append, hides_cons_of_ne (Ne.symm hc), hopen, hides_of_not_isTop h hinner, hafter,
    hides, hinner, Bool.and_false]
  rfl

/-- In a text that opens nothing, no character is nested unless something was open. -/
theorem notMem_of_hides (h : ∀ d ∈ cs, N.read state d = state) (hstate : N.isTop state = true)
    (hides : N.hides c state cs = true) : c ∉ cs := by
  induction cs with
  | nil => exact List.not_mem_nil
  | cons d cs ih =>
    obtain ⟨hd, hcs⟩ := List.forall_mem_cons.1 h
    rw [Nesting.hides, hstate, hd, Bool.and_true, Bool.and_eq_true] at hides
    rw [List.mem_cons, not_or]
    refine ⟨?_, ih hcs hides.2⟩
    rintro rfl
    simp at hides

/-- A character that is not nested everywhere has a first occurrence that is not. -/
theorem exists_of_not_hides (h : N.hides c state cs = false) :
    ∃ front back, cs = front ++ c :: back ∧ N.hides c state front = true ∧
      N.isTop (N.after state front) = true := by
  induction cs generalizing state with
  | nil => exact absurd h (by simp [hides])
  | cons d cs ih =>
    -- either it is the first character, or it is nested so far
    by_cases hd : (d == c && N.isTop state) = true
    · rw [Bool.and_eq_true, beq_iff_eq] at hd
      obtain ⟨rfl, htop⟩ := hd
      exact ⟨[], cs, rfl, rfl, htop⟩
    · rw [Bool.not_eq_true] at hd
      rw [hides, hd, Bool.not_false, Bool.true_and] at h
      obtain ⟨front, back, rfl, hfront, htop⟩ := ih h
      refine ⟨d :: front, back, rfl, ?_, htop⟩
      rw [hides, hd, hfront]
      rfl

/-- Where a character occurs with nothing open, it is not nested. -/
theorem isTop_of_hides (h : N.hides c state (cs ++ c :: ds) = true) :
    N.isTop (N.after state cs) = false := by
  rw [hides_append, hides, Bool.and_eq_true, Bool.and_eq_true] at h
  simpa using h.2.1

end Nesting

/-! ## Brackets and parentheses -/

/-- Where in the text of a selector a character stands. Within parentheses, the number of those
inside them that are open counts. -/
inductive Scope where
  | outside
  | brackets
  | parentheses (inner : ℕ)
deriving DecidableEq, Repr

/-- Brackets and parentheses. Inside of the one kind, the other one has no meaning. -/
def scopes : Nesting Scope where
  isTop scope := scope == .outside
  read
    | .outside, c =>
      if c = '[' then .brackets else if c = '(' then .parentheses 0 else .outside
    | .brackets, c => if c = ']' then .outside else .brackets
    | .parentheses inner, c =>
      if c = '(' then .parentheses (inner + 1)
      else if c = ')' then
        match inner with
        | 0 => .outside
        | inner + 1 => .parentheses inner
      else .parentheses inner

/-- The number of parentheses that are open. A closing one without a partner changes nothing. -/
def parens : Nesting ℕ where
  isTop depth := depth == 0
  read depth c := if c = '(' then depth + 1 else if c = ')' then depth - 1 else depth

theorem scopes_read_outside {c : Char} (hbracket : c ≠ '[') (hparen : c ≠ '(') :
    scopes.read .outside c = .outside := by
  simp [scopes, hbracket, hparen]

theorem scopes_read_brackets {c : Char} (h : c ≠ ']') : scopes.read .brackets c = .brackets := by
  simp [scopes, h]

theorem scopes_read_parentheses {c : Char} (hopen : c ≠ '(') (hclose : c ≠ ')') (inner : ℕ) :
    scopes.read (.parentheses inner) c = .parentheses inner := by
  simp [scopes, hopen, hclose]

theorem parens_read {c : Char} (hopen : c ≠ '(') (hclose : c ≠ ')') (depth : ℕ) :
    parens.read depth c = depth := by
  simp [parens, hopen, hclose]

/-- A text without brackets and parentheses. -/
def IsFlat (cs : List Char) : Prop := ∀ c ∈ cs, c ∉ ['[', ']', '(', ')']

namespace IsFlat

variable {cs : List Char} (h : IsFlat cs)
include h

theorem read_scopes (scope : Scope) : ∀ c ∈ cs, scopes.read scope c = scope := by
  intro c hc
  have hne := h c hc
  simp only [List.mem_cons, List.not_mem_nil, or_false, not_or] at hne
  obtain ⟨hbracket, hbracket', hparen, hparen'⟩ := hne
  cases scope with
  | outside => exact scopes_read_outside hbracket hparen
  | brackets => exact scopes_read_brackets hbracket'
  | parentheses inner => exact scopes_read_parentheses hparen hparen' inner

theorem read_parens (depth : ℕ) : ∀ c ∈ cs, parens.read depth c = depth := by
  intro c hc
  have hne := h c hc
  simp only [List.mem_cons, List.not_mem_nil, or_false, not_or] at hne
  exact parens_read hne.2.2.1 hne.2.2.2 depth

theorem after_scopes (scope : Scope) : scopes.after scope cs = scope :=
  Nesting.after_eq_self (h.read_scopes scope)

theorem after_parens (depth : ℕ) : parens.after depth cs = depth :=
  Nesting.after_eq_self (h.read_parens depth)

/-- Outside, and in a text that opens nothing, nested commas are no commas at all. -/
theorem notMem_of_hides {c : Char} (hnested : scopes.hides c .outside cs = true) : c ∉ cs :=
  Nesting.notMem_of_hides (h.read_scopes .outside) rfl hnested

end IsFlat

/-! ## Parts of selectors -/

/-- A flat text without a blank. -/
structure IsRun (cs : List Char) : Prop where
  flat : IsFlat cs
  no_blank : ' ' ∉ cs

theorem IsIdentifier.isRun {name : List Char} (h : IsIdentifier name) : IsRun name := by
  have hreserved : ∀ cs : List Char, cs.all (reservedChars.contains ·) = true →
      ∀ c ∈ name, c ∉ cs := fun cs hall c hc hmem =>
    h.2.1 c hc (List.contains_iff_mem.1 (List.all_eq_true.1 hall c hmem))
  exact ⟨hreserved ['[', ']', '(', ')'] rfl,
    fun hmem => hreserved [' '] rfl _ hmem List.mem_cons_self⟩

theorem IsRun.cons {c : Char} {cs : List Char} (hc : c ∉ ['[', ']', '(', ')', ' '])
    (h : IsRun cs) : IsRun (c :: cs) := by
  refine ⟨List.forall_mem_cons.2 ⟨fun hmem => hc ?_, h.flat⟩, ?_⟩
  · exact List.mem_append_left [' '] hmem
  · rw [List.mem_cons, not_or]
    exact ⟨fun heq => hc (heq ▸ by decide), h.no_blank⟩

namespace Compound

variable {α : Type} {argument : List Char → α → Prop} {text piece : List Char} {s s' : Compound α}

/-- The text between the brackets of a selector, if there are any. -/
def attributeText (s : Compound α) : List Char := (s.attributeTest.map String.toList).getD []

/-- What the text of a part may look like, and whether the part is an attribute test. -/
inductive Shape (old new : List Char) : List Char → Prop
  | run {piece : List Char} : IsRun piece → new = old → Shape old new piece
  | brackets {raw : List Char} : ']' ∉ raw → old = [] → new = raw →
      Shape old new ('[' :: raw ++ [']'])
  | functional {front raw : List Char} : IsRun front → '(' ∉ raw → ')' ∉ raw → new = old →
      Shape old new (front ++ '(' :: raw ++ [')'])

theorem Adds.shape (h : Adds argument s piece s') :
    Shape s.attributeText s'.attributeText piece := by
  cases h with
  | id hname => exact .run (hname.isRun.cons (by decide)) rfl
  | className hname => exact .run (hname.isRun.cons (by decide)) rfl
  | @attributeTest raw hnone hraw =>
    have hclose : ']' ∉ raw := fun hmem => hraw.1 _ hmem (by decide)
    refine .brackets hclose ?_ ?_
    · rw [attributeText, hnone]
      rfl
    · simp [attributeText]
  | plain kind =>
    have hname : IsIdentifier kind.name.toList := PseudoName.isIdentifier_text (.plain kind)
    exact .run (hname.isRun.cons (by decide)) rfl
  | @functional kind raw a hraw ha =>
    have hname : IsIdentifier kind.name.toList := PseudoName.isIdentifier_text (.functional kind)
    exact .functional (hname.isRun.cons (by decide)) (fun hmem => hraw _ hmem (by decide))
      (fun hmem => hraw _ hmem (by decide)) rfl

section

open Nesting

variable {raw : List Char}

theorem scopes_brackets (h : ']' ∉ raw) :
    scopes.after .outside ('[' :: raw ++ [']']) = .outside ∧
      ∀ c ≠ '[', scopes.hides c .outside ('[' :: raw ++ [']']) = true :=
  enclosed rfl rfl fun _ hc => scopes_read_brackets (ne_of_mem_of_not_mem hc h)

theorem scopes_parentheses (hopen : '(' ∉ raw) (hclose : ')' ∉ raw) :
    scopes.after .outside ('(' :: raw ++ [')']) = .outside ∧
      ∀ c ≠ '(', scopes.hides c .outside ('(' :: raw ++ [')']) = true :=
  enclosed rfl rfl fun _ hc => scopes_read_parentheses (ne_of_mem_of_not_mem hc hopen)
    (ne_of_mem_of_not_mem hc hclose) 0

theorem parens_parentheses (hopen : '(' ∉ raw) (hclose : ')' ∉ raw) (depth : ℕ) :
    parens.after depth ('(' :: raw ++ [')']) = depth ∧
      ∀ c ≠ '(', parens.hides c depth ('(' :: raw ++ [')']) = true := by
  have hinner : parens.read depth '(' = depth + 1 := rfl
  exact enclosed hinner rfl fun _ hc => parens_read (ne_of_mem_of_not_mem hc hopen)
    (ne_of_mem_of_not_mem hc hclose) (depth + 1)

end

namespace Shape

open Nesting

variable {old new : List Char}

/-- A part closes everything that it opens. -/
theorem after_scopes (h : Shape old new piece) : scopes.after .outside piece = .outside := by
  cases h with
  | run hrun => exact hrun.flat.after_scopes .outside
  | brackets hclose => exact (scopes_brackets hclose).1
  | functional hfront hopen hclose =>
    rw [List.append_assoc, after_append, hfront.flat.after_scopes]
    exact (scopes_parentheses hopen hclose).1

theorem hides_blank (h : Shape old new piece) : scopes.hides ' ' .outside piece = true := by
  cases h with
  | run hrun => exact hides_of_notMem hrun.no_blank _
  | brackets hclose => exact (scopes_brackets hclose).2 _ (by decide)
  | functional hfront hopen hclose =>
    rw [List.append_assoc, hides_append, hides_of_notMem hfront.no_blank, hfront.flat.after_scopes,
      Bool.true_and]
    exact (scopes_parentheses hopen hclose).2 _ (by decide)

/-- If the commas of a part are nested, counting parentheses sees only those of an attribute
test. -/
theorem parens_eq (h : Shape old new piece) (hcommas : scopes.hides ',' .outside piece = true) :
    parens.after (parens.after 0 old) piece = parens.after 0 new ∧
      (parens.hides ',' 0 old && parens.hides ',' (parens.after 0 old) piece) =
        parens.hides ',' 0 new := by
  cases h with
  | run hrun hnew =>
    have hcomma : ',' ∉ piece := hrun.flat.notMem_of_hides hcommas
    subst hnew
    exact ⟨hrun.flat.after_parens _, by rw [hides_of_notMem hcomma, Bool.and_true]⟩
  | @brackets raw hclose hold hnew =>
    subst hold hnew
    -- brackets do not count, so what is between them is read at the same depth
    have hopen : parens.read 0 '[' = 0 := rfl
    have hshut : parens.hides ',' (parens.after 0 ('[' :: new)) [']'] = true :=
      hides_of_notMem (by decide) _
    refine ⟨?_, ?_⟩
    · rw [after_append]
      exact parens_read (by decide) (by decide) _
    · show parens.hides ',' 0 ('[' :: new ++ [']']) = _
      rw [hides_append, hshut, Bool.and_true, hides_cons_of_ne (by decide), hopen]
  | @functional front raw hfront hopen hclose hnew =>
    -- the argument is read one level deeper, where no comma counts, and the level is closed again
    rw [List.append_assoc, hides_append, Bool.and_eq_true] at hcommas
    have hcomma : ',' ∉ front := hfront.flat.notMem_of_hides hcommas.1
    obtain ⟨hafter, hhides⟩ := parens_parentheses hopen hclose (parens.after 0 old)
    subst hnew
    rw [List.append_assoc, after_append, hides_append, hfront.flat.after_parens,
      hides_of_notMem hcomma, hhides _ (by decide), Bool.and_true, Bool.and_true]
    exact ⟨hafter, rfl⟩

end Shape

/-! ## Selectors -/

variable (h : Written argument text s)
include h

/-- A selector closes everything that it opens. -/
theorem Written.after_scopes : scopes.after .outside text = .outside := by
  induction h with
  | blank => rfl
  | star => rfl
  | tag hname => exact hname.isRun.flat.after_scopes .outside
  | part _ hadds ih => rw [Nesting.after_append, ih, hadds.shape.after_scopes]

/-- A selector has no blank outside of its brackets and parentheses. -/
theorem Written.hides_blank_scopes : scopes.hides ' ' .outside text = true := by
  induction h with
  | blank => rfl
  | star => rfl
  | tag hname => exact Nesting.hides_of_notMem hname.isRun.no_blank _
  | part hs hadds ih =>
    rw [Nesting.hides_append, ih, hs.after_scopes, hadds.shape.hides_blank, Bool.and_true]

/-- If the commas of a selector are nested, counting parentheses sees only those of the attribute
test. -/
theorem Written.parens_eq (hcommas : scopes.hides ',' .outside text = true) :
    parens.after 0 text = parens.after 0 s.attributeText ∧
      parens.hides ',' 0 text = parens.hides ',' 0 s.attributeText := by
  -- along the derivation: each part changes the count as it changes the text of the attribute test
  induction h with
  | blank => exact ⟨rfl, rfl⟩
  | star => exact ⟨rfl, rfl⟩
  | @tag name hname =>
    have hcomma : ',' ∉ name := hname.isRun.flat.notMem_of_hides hcommas
    exact ⟨hname.isRun.flat.after_parens 0, Nesting.hides_of_notMem hcomma 0⟩
  | part hs hadds ih =>
    rw [Nesting.hides_append, hs.after_scopes, Bool.and_eq_true] at hcommas
    obtain ⟨hafter, hhides⟩ := ih hcommas.1
    rw [Nesting.after_append, Nesting.hides_append, hafter, hhides]
    exact hadds.shape.parens_eq hcommas.2

end Compound

end BoxFlow
