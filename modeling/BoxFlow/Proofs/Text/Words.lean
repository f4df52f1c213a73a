import BoxFlow.Proofs.Text.Ink

/-!
# The words of a text

The words of a text are the maximal runs between its separators: none of them is empty, none holds a
separator (`Text.isWord_of_mem_words`). A separator cuts the words in front of it from the words
behind it (`Text.words_append_cons`), and a text that is a word is its own only word
(`Text.IsWord.words_eq`). So a word is one of those of a text exactly if it stands there with a
separator or an end on each side (`Text.IsWord.mem_words_iff`).

Where empty ones count, a text is cut into just those pieces that hold no separator and that it
consists of, with the separator between them (`Text.pieces_eq_iff`).
-/

set_option autoImplicit false

namespace BoxFlow.Text

/-- A text that is not empty and holds no separator. -/
def IsWord (isSep : Char → Bool) (w : List Char) : Prop := w ≠ [] ∧ ∀ c ∈ w, isSep c = false

variable {isSep : Char → Bool} {cs w : List Char} {c : Char}

@[simp] theorem words_nil : words isSep [] = [] := by
  rw [words, List.splitOnP_nil]
  rfl

theorem words_append_cons (hc : isSep c = true) (cs ds : List Char) :
    words isSep (cs ++ c :: ds) = words isSep cs ++ words isSep ds := by
  rw [words, List.splitOnP_append_cons cs ds hc, List.filter_append]
  rfl

/-- A separator in front belongs to no word. -/
theorem words_cons (hc : isSep c = true) (ds : List Char) :
    words isSep (c :: ds) = words isSep ds := by
  have hcut := words_append_cons hc [] ds
  rwa [List.nil_append, words_nil, List.nil_append] at hcut

theorem IsWord.words_eq (h : IsWord isSep w) : words isSep w = [w] := by
  rw [words, List.splitOnP_eq_singleton h.2]
  apply List.filter_cons_of_pos
  simp [h.1]

theorem isSep_eq_false_of_mem_splitOnP (hw : w ∈ cs.splitOnP isSep) (hc : c ∈ w) :
    isSep c = false := by
  induction cs generalizing w with
  | nil =>
    rw [List.splitOnP_nil, List.mem_singleton] at hw
    rw [hw] at hc
    cases hc
  | cons d cs ih =>
    rw [List.splitOnP_cons_eq_if_modifyHead] at hw
    split at hw
    · rcases List.mem_cons.1 hw with rfl | hw
      · cases hc
      · exact ih hw hc
    · next hd =>
      -- `d` goes in front of the first piece, and the other pieces stay
      obtain ⟨first, rest, hcut⟩ := List.exists_cons_of_ne_nil (List.splitOnP_ne_nil isSep cs)
      rw [hcut] at ih hw
      rcases List.mem_cons.1 hw with rfl | hw
      · rcases List.mem_cons.1 hc with rfl | hc
        · exact Bool.eq_false_iff.2 hd
        · exact ih List.mem_cons_self hc
      · exact ih (List.mem_cons_of_mem first hw) hc

theorem pieces_eq_iff {sep : Char} {parts : List (List Char)} (hne : parts ≠ []) :
    pieces sep cs = parts ↔ [sep].intercalate parts = cs ∧ ∀ part ∈ parts, sep ∉ part := by
  constructor
  · rintro rfl
    refine ⟨List.intercalate_splitOn sep, ?_⟩
    intro part hpart hmem
    exact absurd (isSep_eq_false_of_mem_splitOnP hpart hmem) (by simp)
  · rintro ⟨rfl, hfree⟩
    exact List.splitOn_intercalate sep hfree hne

theorem isWord_of_mem_words (hw : w ∈ words isSep cs) : IsWord isSep w := by
  obtain ⟨hpiece, hne⟩ := List.mem_filter.1 hw
  refine ⟨?_, fun c hc => isSep_eq_false_of_mem_splitOnP hpiece hc⟩
  rintro rfl
  exact absurd hne (by decide)

/-- A character that is no separator belongs to some word. -/
theorem words_ne_nil (hc : c ∈ cs) (hsep : isSep c = false) : words isSep cs ≠ [] := by
  have hkept : c ∈ (cs.splitOnP isSep).flatten := by
    rw [flatten_splitOnP]
    exact List.mem_filter.2 ⟨hc, by rw [hsep]; rfl⟩
  obtain ⟨piece, hpiece, hmem⟩ := List.mem_flatten.1 hkept
  have hword : piece ∈ words isSep cs := by
    apply List.mem_filter.2
    exact ⟨hpiece, by simp [List.ne_nil_of_mem hmem]⟩
  exact List.ne_nil_of_mem hword

/-! ## Words as they stand in a text -/

/-- A text stands in another one with a separator, or an end of that text, on each side. -/
def StandsAlone (isSep : Char → Bool) (w cs : List Char) : Prop :=
  ∃ front back, cs = front ++ w ++ back ∧ (∀ c ∈ front.getLast?, isSep c = true) ∧
    ∀ c ∈ back.head?, isSep c = true

theorem StandsAlone.mono {isSep' : Char → Bool}
    (h : ∀ c ∈ cs, isSep c = true → isSep' c = true) (halone : StandsAlone isSep w cs) :
    StandsAlone isSep' w cs := by
  obtain ⟨front, back, rfl, hfront, hback⟩ := halone
  refine ⟨front, back, rfl, ?_, ?_⟩
  · intro c hc
    have hmem : c ∈ front := List.mem_of_getLast? hc
    exact h c (by simp [hmem]) (hfront c hc)
  · intro c hc
    have hmem : c ∈ back := List.mem_of_head? hc
    exact h c (by simp [hmem]) (hback c hc)

theorem mem_splitOnP_of_standsAlone (hw : ∀ c ∈ w, isSep c = false)
    (h : StandsAlone isSep w cs) : w ∈ cs.splitOnP isSep := by
  obtain ⟨front, back, rfl, hfront, hback⟩ := h
  have hpiece : w ∈ (w ++ back).splitOnP isSep := by
    cases back with
    | nil =>
      rw [List.append_nil, List.splitOnP_eq_singleton hw]
      exact List.mem_singleton_self w
    | cons c back =>
      rw [List.splitOnP_append_cons w back (hback c rfl), List.splitOnP_eq_singleton hw]
      exact List.mem_cons_self
  rcases List.eq_nil_or_concat front with rfl | ⟨front, c, rfl⟩
  · exact hpiece
  · rw [List.concat_eq_append] at hfront ⊢
    rw [List.append_assoc, List.append_assoc, List.singleton_append,
      List.splitOnP_append_cons front _ (hfront c List.getLast?_concat)]
    exact List.mem_append_right _ hpiece

/-- The first piece ends at the first separator, and the other pieces are those of the rest. -/
theorem standsAlone_of_mem_splitOnP (hw : w ∈ cs.splitOnP isSep) : StandsAlone isSep w cs := by
  induction hlength : cs.length using Nat.strongRecOn generalizing cs with
  | _ n ih =>
    subst hlength
    cases hfind : cs.find? isSep with
    | none =>
      have hfree : ∀ c ∈ cs, isSep c = false := by simpa using hfind
      rw [List.splitOnP_eq_singleton hfree, List.mem_singleton] at hw
      subst hw
      exact ⟨[], [], by simp, by simp, by simp⟩
    | some s =>
      obtain ⟨hs, first, rest, rfl, hfirst⟩ := List.find?_eq_some_iff_append.1 hfind
      have hfree : ∀ c ∈ first, isSep c = false := by simpa using hfirst
      rw [List.splitOnP_append_cons first rest hs, List.splitOnP_eq_singleton hfree,
        List.singleton_append, List.mem_cons] at hw
      rcases hw with rfl | hw
      · exact ⟨[], s :: rest, rfl, by simp, by simpa using hs⟩
      · obtain ⟨front, back, rfl, hfront, hback⟩ := ih rest.length (by simp; omega) hw rfl
        refine ⟨first ++ s :: front, back, by simp, ?_, hback⟩
        intro c hc
        cases front with
        | nil =>
          obtain rfl : s = c := by simpa using hc
          exact hs
        | cons d front =>
          have hlast : (first ++ s :: d :: front).getLast? = (d :: front).getLast? := by
            simp [List.getLast?_append, List.getLast?_cons]
          exact hfront c (hlast ▸ hc)

theorem IsWord.mem_splitOnP_iff (h : IsWord isSep w) :
    w ∈ cs.splitOnP isSep ↔ StandsAlone isSep w cs :=
  ⟨standsAlone_of_mem_splitOnP, mem_splitOnP_of_standsAlone h.2⟩

theorem IsWord.mem_words_iff (h : IsWord isSep w) :
    w ∈ words isSep cs ↔ StandsAlone isSep w cs := by
  rw [← h.mem_splitOnP_iff, words, List.mem_filter]
  simp [h.1]

end BoxFlow.Text
