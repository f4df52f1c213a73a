import BoxFlow.Proofs.Text.Normal
import BoxFlow.Proofs.Text.Trimming
import BoxFlow.Proofs.Text.Words
import Mathlib.Data.List.Infix

/-!
# What normalizing keeps

Normalizing a text changes its blanks only (`Text.normalize_keeps_text`). What it gives is normal,
and a normal text stays as it is, so normalizing twice does no more than normalizing once.

Carriage returns have no influence but at the very start of a text: there a line break behind them
is written as a space, while a line break that starts the text is left out. That is made up for by
trimming, so a text has the same trimmed result as without its carriage returns.

Where each carriage return belongs to a line break, no two words are joined either. The induction
carries along what has been written behind the last blank. A blank is left out only where nothing
has been written behind the last one.
-/

set_option autoImplicit false

namespace BoxFlow.Text

variable {cs written : List Char} {c : Char} {atStart afterBreak : Bool} {previous : Option Char}

/-- Every carriage return stands directly in front of a line break. -/
def ReturnsEndLines (cs : List Char) : Prop :=
  ∀ rest, '\r' :: rest <:+ cs → rest.head? = some '\n'

instance (cs : List Char) : Decidable (ReturnsEndLines cs) :=
  decidable_of_iff (∀ s ∈ cs.tails, s.head? = some '\r' → s.tail.head? = some '\n') <| by
    constructor
    · intro h rest hrest
      exact h ('\r' :: rest) ((List.mem_tails _ _).2 hrest) rfl
    · intro h s hs hhead
      obtain ⟨rest, rfl⟩ := List.head?_eq_some_iff.1 hhead
      exact h rest ((List.mem_tails _ _).1 hs)

theorem ReturnsEndLines.tail (h : ReturnsEndLines (c :: cs)) : ReturnsEndLines cs :=
  fun rest hrest => h rest (hrest.trans (List.suffix_cons c cs))

/-! ## Normalizing twice -/

theorem normalizeFrom_of_isNormal (h : IsNormal cs) :
    normalizeFrom atStart previous false cs = cs := by
  induction cs generalizing atStart previous with
  | nil => rfl
  | cons c cs ih =>
    obtain ⟨⟨hbreak, hreturn, hnbsp⟩, hcs⟩ := List.forall_mem_cons.1 h
    rw [normalizeFrom, if_neg hbreak, if_neg (by simpa using hreturn), if_neg hnbsp, ih hcs]

theorem normalize_of_isNormal (h : IsNormal cs) : normalize cs = cs :=
  normalizeFrom_of_isNormal h

/-! ## Carriage returns -/

/-- Behind the start of a text carriage returns make no difference. -/
theorem normalizeFrom_filter_return (previous : Option Char) (afterBreak : Bool)
    (cs : List Char) :
    normalizeFrom false previous afterBreak (cs.filter (· != '\r')) =
      normalizeFrom false previous afterBreak cs := by
  induction cs generalizing previous afterBreak with
  | nil => rfl
  | cons c cs ih =>
    by_cases hreturn : c = '\r'
    · rw [hreturn, List.filter_cons_of_neg (by decide), ih]
      rfl
    · rw [List.filter_cons_of_pos (by simpa using hreturn), normalizeFrom, normalizeFrom]
      simp only [ih]

theorem trim_cons_space (cs : List Char) : trim (' ' :: cs) = trim cs := by
  have hspace : isAllBlank [' '] := by decide
  exact trim_append hspace cs

/-- Within the blanks that a line break takes along, it makes no difference whether a space has been
written for it. -/
theorem trim_normalizeFrom_space (cs : List Char) :
    trim (normalizeFrom false (some ' ') true cs) = trim (normalizeFrom false none true cs) := by
  induction cs with
  | nil => rfl
  | cons c cs ih =>
    rw [normalizeFrom, normalizeFrom]
    split
    · exact (trim_cons_space _).symm
    · split
      · exact ih
      · next hkept =>
        split
        · next hnbsp =>
          -- a no-break space is a blank, so the line break takes it along
          rw [hnbsp] at hkept
          exact absurd (by decide) hkept
        · rfl

/-- Nor does it make a difference whether a line break starts the text. -/
theorem trim_normalizeFrom_start (cs : List Char) :
    trim (normalizeFrom false none false cs) = trim (normalizeFrom true none false cs) := by
  cases cs with
  | nil => rfl
  | cons c cs =>
    rw [normalizeFrom, normalizeFrom]
    split
    · exact (trim_cons_space _).trans (trim_normalizeFrom_space cs)
    · rfl

theorem trim_normalize_filter_return (cs : List Char) :
    trim (normalize (cs.filter (· != '\r'))) = trim (normalize cs) := by
  rw [normalize, normalize, ← trim_normalizeFrom_start, normalizeFrom_filter_return,
    trim_normalizeFrom_start]

/-! ## Words -/

/-- Blanks cut in the same way, and what comes behind them starts anew. -/
theorem words_append_blank {b d : Char} {rest : List Char} (hb : isBlank b = true)
    (hd : isBlank d = true) (hrest : words isBlank rest = words isBlank cs) :
    words isBlank (written ++ b :: rest) = words isBlank (written ++ d :: cs) := by
  rw [words_append_cons hb, words_append_cons hd, hrest]

/-- What has been written behind the last blank becomes the same word as in the text. -/
theorem words_append_normalizeFrom (hcs : ReturnsEndLines cs)
    (h : written = [] ∨ WithinWord atStart previous afterBreak) :
    words isBlank (written ++ normalizeFrom atStart previous afterBreak cs) =
      words isBlank (written ++ cs) := by
  have hspace : isBlank ' ' = true := by decide
  induction cs generalizing written atStart previous afterBreak with
  | nil => rfl
  | cons c cs ih =>
    -- behind a blank nothing has been written, and the rest is normalized for itself
    have hanew : ∀ previous afterBreak,
        words isBlank (normalizeFrom false previous afterBreak cs) = words isBlank cs := by
      intro previous afterBreak
      have hnothing : ([] : List Char) = [] ∨ WithinWord false previous afterBreak := Or.inl rfl
      exact ih hcs.tail hnothing
    rcases normalizeFrom_cons_cases atStart previous afterBreak c cs with
      ⟨rfl, heq⟩ | ⟨hblank, hout, previous', afterBreak', heq⟩ | ⟨hblank, _, _, heq⟩ | ⟨-, heq⟩
    all_goals rw [heq]
    · -- the line break behind the carriage return cuts instead of it
      obtain ⟨rest, rfl⟩ := List.head?_eq_some_iff.1 (hcs cs (List.suffix_refl _))
      rw [ih hcs.tail (h.imp_right fun hword => ⟨rfl, hword.between, hword.solid⟩)]
      exact words_append_blank (by decide) (by decide) (words_cons (by decide) rest).symm
    · rw [h.resolve_right hout, List.nil_append, List.nil_append, words_cons hblank]
      exact hanew previous' afterBreak'
    · exact words_append_blank hspace hblank (hanew _ _)
    · cases hblank : isBlank c with
      | true => exact words_append_blank hblank hblank (hanew _ _)
      | false =>
        -- the word goes on with `c`
        have hword : written ++ [c] = [] ∨ WithinWord false (some c) false :=
          Or.inr ⟨rfl, rfl, c, rfl, hblank⟩
        have hgoes := ih hcs.tail hword
        rwa [List.append_assoc, List.append_assoc] at hgoes

theorem words_normalize (h : ReturnsEndLines cs) :
    words isBlank (normalize cs) = words isBlank cs := by
  have hnothing : ([] : List Char) = [] ∨ WithinWord true none false := Or.inl rfl
  exact words_append_normalizeFrom h hnothing

/-! ## Whole texts -/

/-- Normalizing changes blanks only. What it gives holds no line break, carriage return or no-break
space, has the characters of the text that are not blank, in their order, and stays as it is when it
is normalized again. Trimmed, it is what the text gives without its carriage returns. And if each
carriage return stands in front of a line break, it has the same words as the text. -/
theorem normalize_keeps_text (cs : List Char) :
    (∀ c ∈ normalize cs, c ≠ '\n' ∧ c ≠ '\r' ∧ c ≠ noBreakSpace) ∧
      (normalize cs).filter (fun c => !isBlank c) = cs.filter (fun c => !isBlank c) ∧
      normalize (normalize cs) = normalize cs ∧
      trim (normalize cs) = trim (normalize (cs.filter (· != '\r'))) ∧
      (ReturnsEndLines cs → words isBlank (normalize cs) = words isBlank cs) := by
  have hnormal := isNormal_normalize cs
  exact ⟨hnormal, ink_normalizeFrom true none false cs, normalize_of_isNormal hnormal,
    (trim_normalize_filter_return cs).symm, words_normalize⟩

/-- The lines of this text end with a carriage return and a line break, and none of its words is
joined with another. -/
theorem normalize_keeps_words_of_lines :
    let text := " a\r\n\r\n\tb\u00a0c\r\n".toList
    ReturnsEndLines text ∧ normalize text = " a b c ".toList ∧
      words isBlank " a b c ".toList = words isBlank text := by
  intro text
  have hnormalize : normalize text = " a b c ".toList := by decide +kernel
  have hreturns : ReturnsEndLines text := by decide +kernel
  obtain ⟨-, -, -, -, hwords⟩ := normalize_keeps_text text
  rw [hnormalize] at hwords
  exact ⟨hreturns, hnormalize, hwords hreturns⟩

end BoxFlow.Text
