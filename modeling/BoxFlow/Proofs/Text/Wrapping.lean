import BoxFlow.Proofs.Number.Order
import BoxFlow.Proofs.Text.Trimming
import BoxFlow.Proofs.Text.Words

/-!
# Breaking a text into lines

Breaking a text into lines loses no word and adds none: the words of the lines, one line after the
other, are the words of the text (`Text.spaced_wrapWith`). It is greedy. Where the width is
positive, a line fits unless it is a single word (`Text.fits_or_isWord_of_mem_wrapWith`), and no
line has room for the first word of the next one (`Text.isChain_wrapWith`).
`Text.wrap_lossless_greedy` puts these together, for any measure.

What a line can do is decided while it is filled: the line so far goes on with the next word, or it
is finished and the word starts the next one. So each property is one of `fillLines`, by induction
on the words to come.
-/

set_option autoImplicit false

namespace BoxFlow.Text

/-- The words of a text between its spaces. -/
abbrev spaced (cs : List Char) : List (List Char) := words (· == ' ') cs

/-- The line measures no more than the width, but for the tolerance. -/
def Fits (metrics : FontMetrics) (width size : Float32) (line : List Char) : Prop :=
  metrics.textWidth (.ofList line) size ≤ width + wrapTolerance

instance (metrics : FontMetrics) (width size : Float32) (line : List Char) :
    Decidable (Fits metrics width size line) :=
  inferInstanceAs (Decidable (metrics.textWidth (.ofList line) size ≤ width + wrapTolerance))

variable {fits : List Char → Bool} {line word text : List Char} {ws : List (List Char)}

theorem spaced_append (cs ds : List Char) : spaced (cs ++ ' ' :: ds) = spaced cs ++ spaced ds :=
  words_append_cons (by decide) cs ds

theorem spaced_of_isWord (h : IsWord (· == ' ') word) : spaced word = [word] := h.words_eq

/-! ## Filling lines -/

theorem ne_nil_of_mem_fillLines (hline : line ≠ []) (hws : ∀ w ∈ ws, w ≠ []) :
    ∀ l ∈ fillLines fits line ws, l ≠ [] := by
  induction ws generalizing line with
  | nil => exact List.forall_mem_singleton.2 hline
  | cons word ws ih =>
    obtain ⟨hword, hws⟩ := List.forall_mem_cons.1 hws
    rw [fillLines]
    split
    · exact ih (List.append_ne_nil_of_left_ne_nil hline _) hws
    · exact List.forall_mem_cons.2 ⟨hline, ih hword hws⟩

/-- The lines hold the words of the line they start from, and then the words to come. -/
theorem spaced_fillLines (hws : ∀ w ∈ ws, IsWord (· == ' ') w) :
    (fillLines fits line ws).flatMap spaced = spaced line ++ ws := by
  induction ws generalizing line with
  | nil => rw [fillLines, List.flatMap_singleton, List.append_nil]
  | cons word ws ih =>
    obtain ⟨hword, hws⟩ := List.forall_mem_cons.1 hws
    rw [fillLines]
    split
    · rw [ih hws, spaced_append, spaced_of_isWord hword, List.append_assoc]
      rfl
    · rw [List.flatMap_cons, ih hws, spaced_of_isWord hword]
      rfl

/-- A line that has grown fits, and one that has not is the word it started with. -/
theorem fits_or_isWord_of_mem_fillLines (hline : fits line = true ∨ IsWord (· == ' ') line)
    (hws : ∀ w ∈ ws, IsWord (· == ' ') w) :
    ∀ l ∈ fillLines fits line ws, fits l = true ∨ IsWord (· == ' ') l := by
  induction ws generalizing line with
  | nil => exact List.forall_mem_singleton.2 hline
  | cons word ws ih =>
    obtain ⟨hword, hws⟩ := List.forall_mem_cons.1 hws
    rw [fillLines]
    split
    · next hfits => exact ih (Or.inl hfits) hws
    · exact List.forall_mem_cons.2 ⟨hline, ih (Or.inr hword) hws⟩

/-- The first line goes on from the line that is there. -/
theorem exists_fillLines_eq_cons (fits : List Char → Bool) (line : List Char)
    (ws : List (List Char)) :
    ∃ first rest more, fillLines fits line ws = first :: rest ∧
      spaced first = spaced line ++ more := by
  induction ws generalizing line with
  | nil => exact ⟨line, [], [], rfl, (List.append_nil _).symm⟩
  | cons word ws ih =>
    rw [fillLines]
    split
    · obtain ⟨first, rest, more, heq, hfirst⟩ := ih (line ++ ' ' :: word)
      refine ⟨first, rest, spaced word ++ more, heq, ?_⟩
      rw [hfirst, spaced_append, List.append_assoc]
    · exact ⟨line, _, [], rfl, (List.append_nil _).symm⟩

/-- A line ends only where it does not fit with the word that starts the next one. -/
theorem isChain_fillLines (hws : ∀ w ∈ ws, IsWord (· == ' ') w) :
    (fillLines fits line ws).IsChain fun l next =>
      ∃ word rest, spaced next = word :: rest ∧ ¬ fits (l ++ ' ' :: word) = true := by
  induction ws generalizing line with
  | nil => exact .singleton line
  | cons word ws ih =>
    obtain ⟨hword, hws⟩ := List.forall_mem_cons.1 hws
    rw [fillLines]
    split
    · exact ih hws
    · next hfull =>
      obtain ⟨first, rest, more, heq, hfirst⟩ := exists_fillLines_eq_cons fits word ws
      have hchain : (fillLines fits word ws).IsChain _ := ih hws
      rw [heq] at hchain ⊢
      rw [spaced_of_isWord hword] at hfirst
      exact .cons_cons ⟨word, more, hfirst, hfull⟩ hchain

/-! ## Whole texts -/

/-- A trimmed text that is not empty has words. -/
theorem spaced_trim_ne_nil (h : trim text ≠ []) : spaced (trim text) ≠ [] := by
  obtain ⟨c, hc, hsolid⟩ : ∃ c ∈ trim text, ¬ isBlank c = true := by
    by_contra hall
    push Not at hall
    exact h (trim_eq_nil_of_isAllBlank (List.all_eq_true.2 hall))
  apply words_ne_nil hc
  rw [beq_eq_false_iff_ne]
  rintro rfl
  exact hsolid (by decide)

/-- What breaking a text comes to: an empty text has no lines, a text that need not be broken or
fits is one line, and any other is filled up word by word. -/
theorem wrapWith_cases (fits : List Char → Bool) (bounded : Bool) (text : List Char) :
    (trim text = [] ∧ wrapWith fits bounded text = []) ∨
      (trim text ≠ [] ∧ (bounded = false ∨ fits (trim text) = true) ∧
        wrapWith fits bounded text = [trim text]) ∨
      ∃ word ws, (∀ w ∈ word :: ws, IsWord (· == ' ') w) ∧ spaced (trim text) = word :: ws ∧
        wrapWith fits bounded text = fillLines fits word ws := by
  rw [wrapWith]
  split
  · next hempty => exact Or.inl ⟨List.isEmpty_iff.1 hempty, rfl⟩
  · next hne =>
    rw [List.isEmpty_iff] at hne
    right
    split
    · next hone =>
      left
      refine ⟨hne, ?_, rfl⟩
      cases bounded with
      | false => exact Or.inl rfl
      | true => exact Or.inr hone
    · right
      split
      · next hnone => exact absurd hnone (spaced_trim_ne_nil hne)
      · next word ws hcut =>
        refine ⟨word, ws, ?_, hcut, rfl⟩
        rw [← hcut]
        exact fun w hw => isWord_of_mem_words hw

section WholeText

variable {bounded : Bool}

theorem ne_nil_of_mem_wrapWith : ∀ line ∈ wrapWith fits bounded text, line ≠ [] := by
  rcases wrapWith_cases fits bounded text with ⟨-, heq⟩ | ⟨hne, -, heq⟩ | ⟨word, ws, hws, -, heq⟩
  · rw [heq]
    exact List.forall_mem_nil _
  · rw [heq]
    exact List.forall_mem_singleton.2 hne
  · rw [heq]
    obtain ⟨hword, hws⟩ := List.forall_mem_cons.1 hws
    exact ne_nil_of_mem_fillLines hword.1 fun w hw => (hws w hw).1

theorem spaced_wrapWith : (wrapWith fits bounded text).flatMap spaced = spaced (trim text) := by
  rcases wrapWith_cases fits bounded text with
    ⟨hnil, heq⟩ | ⟨-, -, heq⟩ | ⟨word, ws, hws, hcut, heq⟩
  · rw [heq, hnil]
    rfl
  · rw [heq, List.flatMap_singleton]
  · obtain ⟨hword, hws⟩ := List.forall_mem_cons.1 hws
    rw [heq, hcut, spaced_fillLines hws, spaced_of_isWord hword]
    rfl

theorem wrapWith_eq_nil_iff : wrapWith fits bounded text = [] ↔ trim text = [] := by
  rcases wrapWith_cases fits bounded text with
    ⟨hnil, heq⟩ | ⟨hne, -, heq⟩ | ⟨word, ws, -, hcut, heq⟩
  · exact iff_of_true heq hnil
  · apply iff_of_false _ hne
    rw [heq]
    exact List.cons_ne_nil _ _
  · obtain ⟨first, rest, -, hfirst, -⟩ := exists_fillLines_eq_cons fits word ws
    apply iff_of_false
    · rw [heq, hfirst]
      exact List.cons_ne_nil first rest
    · intro hnil
      rw [hnil, spaced, words_nil] at hcut
      cases hcut

theorem fits_or_isWord_of_mem_wrapWith :
    ∀ line ∈ wrapWith fits true text, fits line = true ∨ IsWord (· == ' ') line := by
  rcases wrapWith_cases fits true text with ⟨-, heq⟩ | ⟨-, hone, heq⟩ | ⟨word, ws, hws, -, heq⟩
  · rw [heq]
    exact List.forall_mem_nil _
  · rw [heq]
    exact List.forall_mem_singleton.2 (Or.inl (hone.resolve_left (by decide)))
  · rw [heq]
    obtain ⟨hword, hws⟩ := List.forall_mem_cons.1 hws
    exact fits_or_isWord_of_mem_fillLines (Or.inr hword) hws

theorem isChain_wrapWith :
    (wrapWith fits bounded text).IsChain fun line next =>
      ∃ word rest, spaced next = word :: rest ∧ ¬ fits (line ++ ' ' :: word) = true := by
  rcases wrapWith_cases fits bounded text with ⟨-, heq⟩ | ⟨-, -, heq⟩ | ⟨word, ws, hws, -, heq⟩
  · rw [heq]
    exact .nil
  · rw [heq]
    exact .singleton _
  · rw [heq]
    exact isChain_fillLines (List.forall_mem_cons.1 hws).2

end WholeText

/-! ## Breaking at a width -/

/-- Breaking a text into lines of a width loses nothing and is greedy, whatever the measure. No line
is empty, the words of the lines are those of the trimmed text in their order, and there are no
lines only if there is no text. If the width is positive, every line fits or is a single word, and
no line fits with the first word of the next one. -/
theorem wrap_lossless_greedy (metrics : FontMetrics) (width size : Float32) (text : List Char) :
    (∀ line ∈ wrap metrics width size text, line ≠ []) ∧
      (wrap metrics width size text).flatMap spaced = spaced (trim text) ∧
      (wrap metrics width size text = [] ↔ trim text = []) ∧
      (0 < width →
        (∀ line ∈ wrap metrics width size text,
          Fits metrics width size line ∨ IsWord (· == ' ') line) ∧
        (wrap metrics width size text).IsChain fun line next =>
          ∃ word rest, spaced next = word :: rest ∧
            ¬ Fits metrics width size (line ++ ' ' :: word)) := by
  refine ⟨ne_nil_of_mem_wrapWith, spaced_wrapWith, wrapWith_eq_nil_iff, ?_⟩
  intro hwidth
  have hbounded : (!decide (width ≤ 0)) = true := by
    rw [decide_eq_false (not_le_of_lt32 hwidth)]
    rfl
  rw [wrap, hbounded]
  constructor
  · intro line hline
    apply (fits_or_isWord_of_mem_wrapWith line hline).imp_left
    exact fun hfits => of_decide_eq_true hfits
  · apply isChain_wrapWith.imp
    rintro line next ⟨word, rest, hnext, hfull⟩
    exact ⟨word, rest, hnext, fun hfits => hfull (decide_eq_true hfits)⟩

/-- Of three words only the first two fit on a line, and the line has no room for the third. -/
theorem wrap_three_words :
    let lines := ["aa bb".toList, "cc".toList]
    (0 : Float32) < 31 ∧ wrap .approximate 31 10 " aa bb cc\n".toList = lines ∧
      (∀ line ∈ lines, Fits .approximate 31 10 line ∨ IsWord (· == ' ') line) ∧
      lines.IsChain fun line next =>
        ∃ word rest, spaced next = word :: rest ∧
          ¬ Fits .approximate 31 10 (line ++ ' ' :: word) := by
  intro lines
  have hwidth : (0 : Float32) < 31 := by decide +kernel
  have hlines : wrap .approximate 31 10 " aa bb cc\n".toList = lines := by decide +kernel
  obtain ⟨-, -, -, hgreedy⟩ := wrap_lossless_greedy .approximate 31 10 " aa bb cc\n".toList
  rw [hlines] at hgreedy
  exact ⟨hwidth, hlines, hgreedy hwidth⟩

end BoxFlow.Text
