import BoxFlow.Layout.Lines

/-!
# The ink of a text

What remains of a text when its blank characters are left out is its ink. Normalizing, trimming,
cutting at spaces and breaking into lines only add and remove blank characters, so each of them
keeps the ink, in its order (`Text.ink_visible`, `Text.ink_wrap`).
-/

set_option autoImplicit false

namespace BoxFlow.Text

variable {cs : List Char} {c : Char}

/-- The characters of a text that are not blank. -/
def ink (cs : List Char) : List Char := cs.filter fun c => !isBlank c

@[simp] theorem ink_nil : ink [] = [] := rfl

@[simp] theorem ink_append (cs ds : List Char) : ink (cs ++ ds) = ink cs ++ ink ds :=
  List.filter_append cs ds

theorem ink_cons_blank (h : isBlank c = true) (cs : List Char) : ink (c :: cs) = ink cs :=
  List.filter_cons_of_neg (by simp [h])

theorem ink_cons_solid (h : isBlank c = false) (cs : List Char) : ink (c :: cs) = c :: ink cs :=
  List.filter_cons_of_pos (by rw [h]; rfl)

theorem ink_cons_congr {ds : List Char} (c : Char) (h : ink cs = ink ds) :
    ink (c :: cs) = ink (c :: ds) := by
  rw [← List.singleton_append, ink_append, h, ← ink_append, List.singleton_append]

theorem ink_reverse (cs : List Char) : ink cs.reverse = (ink cs).reverse :=
  List.filter_reverse

theorem ink_flatMap {α : Type} (f : α → List Char) (xs : List α) :
    ink (xs.flatMap f) = xs.flatMap fun x => ink (f x) :=
  List.filter_flatMap

@[simp] theorem ink_space : ink [' '] = [] := by decide

/-! ## Normalizing and trimming -/

/-- Normalizing goes on right behind a character that is no blank, so that no line break takes
blanks along. -/
structure WithinWord (atStart : Bool) (previous : Option Char) (afterBreak : Bool) : Prop where
  started : atStart = false
  between : afterBreak = false
  solid : ∃ p, previous = some p ∧ isBlank p = false

/-- Within a word no blank is left out for a blank in front of it. -/
theorem WithinWord.previous_ne {atStart afterBreak : Bool} {previous : Option Char}
    (h : WithinWord atStart previous afterBreak) (hc : isBlank c = true) :
    (previous == some c) = false := by
  obtain ⟨p, hprevious, hsolid⟩ := h.solid
  rw [hprevious, beq_eq_false_iff_ne, ne_eq, Option.some.injEq]
  rintro rfl
  exact Bool.false_ne_true (hsolid.symm.trans hc)

/-- What normalizing does with a character: a carriage return is left out, another blank is left out
if it does not stand right behind a word, a blank becomes a space, or the character stays. -/
theorem normalizeFrom_cons_cases (atStart : Bool) (previous : Option Char) (afterBreak : Bool)
    (c : Char) (cs : List Char) :
    (c = '\r' ∧ normalizeFrom atStart previous afterBreak (c :: cs) =
        normalizeFrom false previous afterBreak cs) ∨
      (isBlank c = true ∧ ¬ WithinWord atStart previous afterBreak ∧ ∃ previous' afterBreak',
        normalizeFrom atStart previous afterBreak (c :: cs) =
          normalizeFrom false previous' afterBreak' cs) ∨
      (isBlank c = true ∧ ∃ previous' afterBreak',
        normalizeFrom atStart previous afterBreak (c :: cs) =
          ' ' :: normalizeFrom false previous' afterBreak' cs) ∨
      ((c ≠ '\n' ∧ c ≠ '\r' ∧ c ≠ noBreakSpace) ∧
        normalizeFrom atStart previous afterBreak (c :: cs) =
          c :: normalizeFrom false (some c) false cs) := by
  have hspace : isBlank ' ' = true := by decide
  have hnbsp : isBlank noBreakSpace = true := by decide
  rw [normalizeFrom]
  by_cases hbreak : c = '\n'
  · have hblank : isBlank c = true := by rw [hbreak]; decide
    rw [if_pos hbreak]
    split
    · next hsilent =>
      refine Or.inr (Or.inl ⟨hblank, fun hword => ?_, _, _, rfl⟩)
      simp [hword.started, hword.previous_ne hspace, hword.previous_ne hnbsp] at hsilent
    · exact Or.inr (Or.inr (Or.inl ⟨hblank, _, _, rfl⟩))
  rw [if_neg hbreak]
  by_cases hreturn : c = '\r'
  · refine Or.inl ⟨hreturn, if_pos ?_⟩
    rw [decide_eq_true hreturn, Bool.true_or]
  rw [decide_eq_false hreturn, Bool.false_or]
  split
  · next htaken =>
    obtain ⟨hafter, hblank⟩ := Bool.and_eq_true_iff.1 htaken
    refine Or.inr (Or.inl ⟨hblank, fun hword => ?_, _, _, rfl⟩)
    exact Bool.false_ne_true (hword.between.symm.trans hafter)
  by_cases heq : c = noBreakSpace
  · have hblank : isBlank c = true := heq ▸ hnbsp
    rw [if_pos heq]
    split
    · next hsilent =>
      refine Or.inr (Or.inl ⟨hblank, fun hword => ?_, _, _, rfl⟩)
      exact Bool.false_ne_true ((hword.previous_ne hnbsp).symm.trans hsilent)
    · exact Or.inr (Or.inr (Or.inl ⟨hblank, _, _, rfl⟩))
  exact Or.inr (Or.inr (Or.inr ⟨⟨hbreak, hreturn, heq⟩, if_neg heq⟩))

theorem ink_normalizeFrom (atStart : Bool) (previous : Option Char) (afterBreak : Bool)
    (cs : List Char) : ink (normalizeFrom atStart previous afterBreak cs) = ink cs := by
  induction cs generalizing atStart previous afterBreak with
  | nil => rfl
  | cons c cs ih =>
    -- every character that is left out is blank, and what may stand for it is a space
    rcases normalizeFrom_cons_cases atStart previous afterBreak c cs with
      ⟨rfl, heq⟩ | ⟨hblank, -, _, _, heq⟩ | ⟨hblank, _, _, heq⟩ | ⟨-, heq⟩
    · rw [heq, ih, ink_cons_blank (by decide)]
    · rw [heq, ih, ink_cons_blank hblank]
    · rw [heq, ink_cons_blank (by decide), ih, ink_cons_blank hblank]
    · rw [heq]
      exact ink_cons_congr c (ih _ _ _)

theorem ink_trimStart (cs : List Char) : ink (trimStart cs) = ink cs := by
  induction cs with
  | nil => rfl
  | cons c cs ih =>
    rw [trimStart, List.dropWhile_cons]
    split
    · next hblank => rw [ink_cons_blank hblank]; exact ih
    · rfl

theorem ink_trimEnd (cs : List Char) : ink (trimEnd cs) = ink cs := by
  have hstart := ink_trimStart cs.reverse
  rw [trimStart, ink_reverse] at hstart
  rw [trimEnd, ink_reverse, hstart, List.reverse_reverse]

theorem ink_trim (cs : List Char) : ink (trim cs) = ink cs := by
  rw [trim, ink_trimEnd, ink_trimStart]

@[simp] theorem ink_visible (cs : List Char) : ink (visible cs) = ink cs := by
  rw [visible, ink_trim, normalize, ink_normalizeFrom]

/-! ## Cutting and breaking into lines -/

theorem flatten_splitOnP {α : Type} (p : α → Bool) (xs : List α) :
    (xs.splitOnP p).flatten = xs.filter fun x => !p x := by
  induction xs with
  | nil => rfl
  | cons x xs ih =>
    rw [List.splitOnP_cons_eq_if_modifyHead, List.filter_cons, ← ih]
    cases hx : p x with
    | true => rfl
    | false =>
      obtain ⟨first, rest, hsplit⟩ := List.exists_cons_of_ne_nil (List.splitOnP_ne_nil p xs)
      simp [hsplit]

/-- Words cut at blank characters have the ink of the text. -/
theorem ink_words {isSep : Char → Bool} (h : ∀ c, isSep c = true → isBlank c = true)
    (cs : List Char) : (words isSep cs).flatMap ink = ink cs := by
  have hkeep : ∀ c, (!isBlank c && !isSep c) = !isBlank c := by
    intro c
    cases hsep : isSep c with
    | false => exact Bool.and_true _
    | true => rw [h c hsep]; rfl
  calc (words isSep cs).flatMap ink
      = ink (words isSep cs).flatten := List.filter_flatten.symm
    _ = ink (cs.splitOnP isSep).flatten := congrArg ink List.flatten_filter_not_isEmpty
    _ = ink (cs.filter fun c => !isSep c) := congrArg ink (flatten_splitOnP isSep cs)
    _ = ink cs := by rw [ink, List.filter_filter]; simp only [hkeep]; rfl

theorem ink_fillLines (fits : List Char → Bool) (line : List Char) (ws : List (List Char)) :
    (fillLines fits line ws).flatMap ink = ink line ++ ws.flatMap ink := by
  have hspace : isBlank ' ' = true := by decide
  induction ws generalizing line with
  | nil => rfl
  | cons word ws ih =>
    rw [fillLines, List.flatMap_cons]
    split
    · rw [ih, ink_append, ink_cons_blank hspace, List.append_assoc]
    · rw [List.flatMap_cons, ih]

theorem ink_wrapWith (fits : List Char → Bool) (bounded : Bool) (text : List Char) :
    (wrapWith fits bounded text).flatMap ink = ink text := by
  rw [wrapWith, ← ink_trim text]
  generalize trim text = text
  have hwords : (words (· == ' ') text).flatMap ink = ink text := by
    apply ink_words
    intro c hc
    rw [eq_of_beq hc]
    decide
  split
  · next hempty => rw [List.isEmpty_iff.1 hempty]; rfl
  · split
    · exact List.flatMap_singleton ink text
    · cases hcut : words (· == ' ') text with
      | nil => rw [← hwords, hcut]
      | cons word ws => rw [← hwords, hcut]; exact ink_fillLines fits word ws

@[simp] theorem ink_wrap (metrics : FontMetrics) (width size : Float32) (text : List Char) :
    (wrap metrics width size text).flatMap ink = ink text :=
  ink_wrapWith _ _ text

end BoxFlow.Text
