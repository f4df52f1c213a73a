import BoxFlow.Proofs.Text.Ink

/-!
# Normal texts

A text is normal if it holds none of the characters that normalizing takes out or writes anew: line
breaks, carriage returns and no-break spaces. What normalizing gives is normal
(`Text.isNormal_normalize`). Trimming, cutting and breaking into lines bring in no characters but
spaces, so they keep a text normal (`Text.isNormal_visible`, `Text.isNormal_wrap`).
-/

set_option autoImplicit false

namespace BoxFlow.Text

/-- A text without line breaks, carriage returns and no-break spaces. -/
def IsNormal (cs : List Char) : Prop := ∀ c ∈ cs, c ≠ '\n' ∧ c ≠ '\r' ∧ c ≠ noBreakSpace

instance (cs : List Char) : Decidable (IsNormal cs) :=
  List.decidableBAll _ cs

variable {cs ds : List Char} {c : Char}

theorem isNormal_nil : IsNormal [] := fun _ hc => absurd hc List.not_mem_nil

theorem IsNormal.of_subset (h : IsNormal ds) (hsub : cs ⊆ ds) : IsNormal cs :=
  fun c hc => h c (hsub hc)

theorem IsNormal.append (hcs : IsNormal cs) (hds : IsNormal ds) : IsNormal (cs ++ ds) :=
  List.forall_mem_append.2 ⟨hcs, hds⟩

theorem IsNormal.cons (hc : c ≠ '\n' ∧ c ≠ '\r' ∧ c ≠ noBreakSpace) (hcs : IsNormal cs) :
    IsNormal (c :: cs) :=
  List.forall_mem_cons.2 ⟨hc, hcs⟩

theorem isNormal_space : IsNormal [' '] := by decide

/-! ## Normalizing and trimming -/

theorem isNormal_normalizeFrom (atStart : Bool) (previous : Option Char) (afterBreak : Bool)
    (cs : List Char) : IsNormal (normalizeFrom atStart previous afterBreak cs) := by
  have hspace : ' ' ≠ '\n' ∧ ' ' ≠ '\r' ∧ ' ' ≠ noBreakSpace := by decide
  induction cs generalizing atStart previous afterBreak with
  | nil => exact isNormal_nil
  | cons c cs ih =>
    rcases normalizeFrom_cons_cases atStart previous afterBreak c cs with
      ⟨-, heq⟩ | ⟨-, -, _, _, heq⟩ | ⟨-, _, _, heq⟩ | ⟨hc, heq⟩
    all_goals rw [heq]
    · exact ih _ _ _
    · exact ih _ _ _
    · exact .cons hspace (ih _ _ _)
    · exact .cons hc (ih _ _ _)

theorem isNormal_normalize (cs : List Char) : IsNormal (normalize cs) :=
  isNormal_normalizeFrom _ _ _ cs

theorem trim_subset (cs : List Char) : trim cs ⊆ cs := by
  intro c hc
  have hend : c ∈ trimStart cs := by
    rw [trim, trimEnd, List.mem_reverse] at hc
    exact List.mem_reverse.1 ((List.dropWhile_sublist _).subset hc)
  exact (List.dropWhile_sublist _).subset hend

theorem isNormal_visible (cs : List Char) : IsNormal (visible cs) :=
  (isNormal_normalize cs).of_subset (trim_subset _)

/-! ## Breaking into lines -/

/-- A word holds only characters of the text it is cut from. -/
theorem subset_of_mem_words {isSep : Char → Bool} {word : List Char}
    (h : word ∈ words isSep cs) : word ⊆ cs := by
  intro c hc
  have hpiece : c ∈ (cs.splitOnP isSep).flatten :=
    List.mem_flatten.2 ⟨word, (List.mem_filter.1 h).1, hc⟩
  rw [flatten_splitOnP] at hpiece
  exact (List.mem_filter.1 hpiece).1

theorem isNormal_fillLines (fits : List Char → Bool) {line : List Char} {ws : List (List Char)}
    (hline : IsNormal line) (hws : ∀ word ∈ ws, IsNormal word) :
    ∀ l ∈ fillLines fits line ws, IsNormal l := by
  induction ws generalizing line with
  | nil => exact List.forall_mem_singleton.2 hline
  | cons word ws ih =>
    obtain ⟨hword, hrest⟩ := List.forall_mem_cons.1 hws
    rw [fillLines]
    split
    · exact ih (hline.append (isNormal_space.append hword)) hrest
    · exact List.forall_mem_cons.2 ⟨hline, ih hword hrest⟩

theorem isNormal_wrapWith (fits : List Char → Bool) (bounded : Bool) (h : IsNormal cs) :
    ∀ line ∈ wrapWith fits bounded cs, IsNormal line := by
  have htrim : IsNormal (trim cs) := h.of_subset (trim_subset cs)
  have hwords : ∀ word ∈ words (· == ' ') (trim cs), IsNormal word :=
    fun word hword => htrim.of_subset (subset_of_mem_words hword)
  rw [wrapWith]
  split
  · exact fun line hline => absurd hline List.not_mem_nil
  · split
    · exact List.forall_mem_singleton.2 htrim
    · split
      · exact fun line hline => absurd hline List.not_mem_nil
      · next word ws hcut =>
        rw [hcut] at hwords
        obtain ⟨hword, hrest⟩ := List.forall_mem_cons.1 hwords
        exact isNormal_fillLines fits hword hrest

theorem isNormal_wrap (metrics : FontMetrics) (width size : Float32) (h : IsNormal cs) :
    ∀ line ∈ wrap metrics width size cs, IsNormal line :=
  isNormal_wrapWith _ _ h

/-! ## Numbers -/

theorem isNormal_of_isDigit (h : ∀ c ∈ cs, c.isDigit) : IsNormal cs := by
  intro c hc
  refine ⟨?_, ?_, ?_⟩
  all_goals
    rintro rfl
    exact absurd (h _ hc) (by decide)

/-- A number is written in digits, perhaps behind a minus sign. -/
theorem isNormal_toString (n : Int) : IsNormal (toString n).toList := by
  have hdigits : ∀ m : Nat, IsNormal m.repr.toList := by
    intro m
    apply isNormal_of_isDigit
    intro c hc
    rw [Nat.toList_repr] at hc
    exact Nat.isDigit_of_mem_toDigits (by decide) (by decide) hc
  cases n with
  | ofNat m => exact hdigits m
  | negSucc m =>
    show IsNormal ("-" ++ m.succ.repr).toList
    rw [String.toList_append]
    exact IsNormal.append (by decide) (hdigits m.succ)

end BoxFlow.Text
