import BoxFlow.Proofs.Selector.Nesting
import BoxFlow.Proofs.Text.Trimming
import BoxFlow.Stylesheet.ValueTokens

/-!
# A value and its tokens

A value consists of tokens with blanks around them (`Value.Decomposition`). Between two tokens
stands at least one blank, no token has a blank outside its own parentheses, and each one but the
last closes all parentheses that it opens. There is one way to cut a value like this at blanks
outside parentheses, and its tokens are those that are read (`Value.tokens_decompose`). The tokens
with single spaces between them are such a value too, and they are read from it again.

Behind a token that leaves a parenthesis open, nothing stands outside: it goes on to the end of the
value, and the blanks there belong to it.
-/

set_option autoImplicit false

namespace BoxFlow.Value

open Nesting

variable {cs ds t current gap : List Char} {c : Char} {depth : ℕ}

/-! ## Tokens -/

/-- Every blank of a text stands in parentheses, of which `depth` are open in front of the text. -/
def BlanksNested (depth : ℕ) (cs : List Char) : Prop :=
  ∀ c, Text.isBlank c = true → parens.hides c depth cs = true

/-- A text that is not empty and whose blanks all stand in its own parentheses. -/
structure IsToken (t : List Char) : Prop where
  ne_nil : t ≠ []
  blanks_nested : BlanksNested 0 t

/-- A text that closes all parentheses that it opens. -/
def IsClosed (t : List Char) : Prop := parens.after 0 t = 0

theorem blanksNested_nil (depth : ℕ) : BlanksNested depth [] := fun _ _ => rfl

theorem blanksNested_cons :
    BlanksNested depth (c :: cs) ↔
      ¬ (Text.isBlank c && depth == 0) = true ∧ BlanksNested (depthAfter depth c) cs := by
  -- of all blanks, only the first character itself can stand in the first place
  have hfirst : ¬ (Text.isBlank c && depth == 0) = true ↔
      ∀ d, Text.isBlank d = true → (!(c == d && parens.isTop depth)) = true := by
    simp only [Bool.not_eq_true', Bool.and_eq_false_iff, beq_eq_false_iff_ne, parens]
    constructor
    · intro h d hd
      by_cases hcd : c = d
      · exact .inr (by simpa [hcd, hd] using h)
      · exact .inl hcd
    · intro h hends
      rw [Bool.and_eq_true, beq_iff_eq] at hends
      exact (h c hends.1).elim (absurd rfl) (absurd hends.2)
  rw [hfirst]
  simp only [BlanksNested, hides, Bool.and_eq_true, imp_and, forall_and]
  rfl

theorem blanksNested_append :
    BlanksNested depth (cs ++ ds) ↔
      BlanksNested depth cs ∧ BlanksNested (parens.after depth cs) ds := by
  simp only [BlanksNested, hides_append, Bool.and_eq_true, imp_and, forall_and]

/-- The first character of a token has no parentheses in front of it, so it is not blank. -/
theorem IsToken.exists_cons (h : IsToken t) : ∃ c cs, t = c :: cs ∧ Text.isBlank c = false := by
  obtain ⟨hne, hnested⟩ := h
  cases t with
  | nil => exact absurd rfl hne
  | cons c t => exact ⟨c, t, rfl, by simpa using (blanksNested_cons.1 hnested).1⟩

theorem IsToken.trimStart_append (h : IsToken t) (cs : List Char) :
    Text.trimStart (t ++ cs) = t ++ cs := by
  obtain ⟨c, t, rfl, hc⟩ := h.exists_cons
  exact List.dropWhile_cons_of_neg (by rw [hc]; decide)

/-! ## Reading tokens -/

/-- A text whose blanks are nested goes into one token with what follows. -/
theorem tokensFrom_append_of_blanksNested (h : BlanksNested depth t) (current cs : List Char) :
    tokensFrom depth current (t ++ cs) =
      tokensFrom (parens.after depth t) (t.reverse ++ current) cs := by
  induction t generalizing depth current with
  | nil => rfl
  | cons c t ih =>
    obtain ⟨hc, ht⟩ := blanksNested_cons.1 h
    rw [List.cons_append, tokensFrom, if_neg hc, List.reverse_cons, List.append_assoc,
      List.singleton_append]
    exact ih ht (c :: current)

theorem tokensFrom_append_of_blanks (h : Text.isAllBlank gap) (cs : List Char) :
    tokensFrom 0 [] (gap ++ cs) = tokensFrom 0 [] cs := by
  induction gap with
  | nil => rfl
  | cons c gap ih =>
    rw [Text.isAllBlank, List.all_cons, Bool.and_eq_true] at h
    rw [List.cons_append, tokensFrom, if_pos (by rw [h.1]; rfl), if_pos (by rfl)]
    exact ih h.2

/-- A token may go on to the end of the value. -/
theorem IsToken.tokensFrom_eq (h : IsToken t) : tokensFrom 0 [] t = [t] := by
  have hne : ¬ (t.reverse ++ []).isEmpty = true := by simpa using h.ne_nil
  have hread := tokensFrom_append_of_blanksNested h.blanks_nested [] []
  rwa [List.append_nil, tokensFrom, if_neg hne, List.append_nil, List.reverse_reverse] at hread

/-- Where all parentheses are closed, a blank ends the token. -/
theorem IsToken.tokensFrom_append_cons (h : IsToken t) (hclosed : IsClosed t)
    (hc : Text.isBlank c = true) (cs : List Char) :
    tokensFrom 0 [] (t ++ c :: cs) = t :: tokensFrom 0 [] cs := by
  have hne : ¬ (t.reverse ++ []).isEmpty = true := by simpa using h.ne_nil
  rw [tokensFrom_append_of_blanksNested h.blanks_nested, hclosed, tokensFrom,
    if_pos (by rw [hc]; rfl), if_neg hne, List.append_nil, List.reverse_reverse]

/-- Tokens with a space between neighbours are read one by one. -/
theorem tokensFrom_intercalate {ts : List (List Char)} (hts : ∀ t ∈ ts, IsToken t)
    (hclosed : ∀ t ∈ ts.dropLast, IsClosed t) : tokensFrom 0 [] ([' '].intercalate ts) = ts := by
  induction ts with
  | nil => rfl
  | cons t ts ih =>
    obtain ⟨ht, hts⟩ := List.forall_mem_cons.1 hts
    cases ts with
    | nil => rw [List.intercalate_singleton, ht.tokensFrom_eq]
    | cons t' ts =>
      rw [List.dropLast_cons_cons] at hclosed
      obtain ⟨htc, hclosed⟩ := List.forall_mem_cons.1 hclosed
      rw [List.intercalate_cons_cons, List.append_assoc, List.singleton_append,
        ht.tokensFrom_append_cons htc rfl, ih hts hclosed]

/-! ## Decompositions -/

/-- A token with the blanks behind it. -/
@[ext]
structure SpacedToken where
  token : List Char
  gap : List Char
  isToken : IsToken token
  gap_blank : Text.isAllBlank gap

/-- The part of a text from a token up to the next one. -/
def SpacedToken.text (item : SpacedToken) : List Char := item.token ++ item.gap

/-- A text cut into tokens: blanks, and then each token with the blanks behind it. -/
@[ext]
structure Decomposition where
  lead : List Char
  items : List SpacedToken
  lead_blank : Text.isAllBlank lead
  gap_ne_nil : ∀ item ∈ items.dropLast, item.gap ≠ []
  isClosed : ∀ item ∈ items.dropLast, IsClosed item.token

/-- What holds of all items but the last one. -/
theorem forall_mem_dropLast_cons {α : Type} {p : α → Prop} {x : α} {xs : List α} :
    (∀ y ∈ (x :: xs).dropLast, p y) ↔ (xs ≠ [] → p x) ∧ ∀ y ∈ xs.dropLast, p y := by
  cases xs with
  | nil => simp
  | cons x' xs => simp [List.dropLast_cons_cons]

namespace Decomposition

/-- The text that is cut. -/
def text (d : Decomposition) : List Char := d.lead ++ d.items.flatMap SpacedToken.text

def tokens (d : Decomposition) : List (List Char) := d.items.map SpacedToken.token

/-- Whether all blanks around the tokens stand outside parentheses, those at the end included. -/
def IsTopLevel (d : Decomposition) : Prop :=
  ∀ item ∈ d.items, item.gap ≠ [] → IsClosed item.token

/-! ### Building them from the end -/

/-- The empty text. -/
def empty : Decomposition where
  lead := []
  items := []
  lead_blank := rfl
  gap_ne_nil := List.forall_mem_nil _
  isClosed := List.forall_mem_nil _

/-- A single token up to the end. -/
def single (ht : IsToken t) : Decomposition where
  lead := []
  items := [⟨t, [], ht, rfl⟩]
  lead_blank := rfl
  gap_ne_nil := List.forall_mem_nil _
  isClosed := List.forall_mem_nil _

variable {d d' : Decomposition}

theorem isAllBlank_cons_lead (d : Decomposition) (hc : Text.isBlank c = true) :
    Text.isAllBlank (c :: d.lead) := by
  rw [Text.isAllBlank, List.all_cons, hc]
  exact d.lead_blank

/-- With a blank in front. -/
def addBlank (d : Decomposition) (hc : Text.isBlank c = true) : Decomposition :=
  { d with
    lead := c :: d.lead
    lead_blank := d.isAllBlank_cons_lead hc }

/-- With a token in front that ends at a blank. -/
def addToken (d : Decomposition) (ht : IsToken t) (hclosed : IsClosed t)
    (hc : Text.isBlank c = true) : Decomposition where
  lead := []
  items := ⟨t, c :: d.lead, ht, d.isAllBlank_cons_lead hc⟩ :: d.items
  lead_blank := rfl
  gap_ne_nil := forall_mem_dropLast_cons.2 ⟨fun _ => List.cons_ne_nil _ _, d.gap_ne_nil⟩
  isClosed := forall_mem_dropLast_cons.2 ⟨fun _ => hclosed, d.isClosed⟩

theorem text_single (ht : IsToken t) : (single ht).text = t :=
  (List.append_nil _).trans (List.append_nil t)

theorem text_addToken (ht : IsToken t) (hclosed : IsClosed t) (hc : Text.isBlank c = true) :
    (d.addToken ht hclosed hc).text = t ++ c :: d.text := by
  rw [text, addToken, List.nil_append, List.flatMap_cons, SpacedToken.text, List.append_assoc]
  rfl

theorem isTopLevel_single (ht : IsToken t) : (single ht).IsTopLevel :=
  List.forall_mem_singleton.2 fun hne => absurd rfl hne

theorem isTopLevel_addToken (ht : IsToken t) (hclosed : IsClosed t) (hc : Text.isBlank c = true)
    (h : d.IsTopLevel) : (d.addToken ht hclosed hc).IsTopLevel :=
  List.forall_mem_cons.2 ⟨fun _ => hclosed, h⟩

end Decomposition

/-- What was read of a token and the text that follows are cut into the tokens that are read. -/
theorem exists_decomposition_from (hnested : BlanksNested 0 current.reverse)
    (hdepth : parens.after 0 current.reverse = depth) (cs : List Char) :
    ∃ d : Decomposition, d.text = current.reverse ++ cs ∧ d.IsTopLevel ∧
      d.tokens = tokensFrom depth current cs := by
  -- by induction on what is left to read, whatever was read of the token so far
  induction cs generalizing depth current with
  | nil =>
    cases current with
    | nil => exact ⟨.empty, rfl, List.forall_mem_nil _, rfl⟩
    | cons c current =>
      have ht : IsToken (c :: current).reverse := ⟨by simp, hnested⟩
      refine ⟨.single ht, ?_, Decomposition.isTopLevel_single ht, rfl⟩
      rw [Decomposition.text_single, List.append_nil]
  | cons c cs ih =>
    rw [tokensFrom]
    by_cases hends : (Text.isBlank c && depth == 0) = true
    · -- what follows is outside again, and the blank stands in front of it
      rw [if_pos hends]
      rw [Bool.and_eq_true, beq_iff_eq] at hends
      obtain ⟨hc, rfl⟩ := hends
      obtain ⟨d, htext, htop, htokens⟩ := @ih [] 0 (blanksNested_nil 0) rfl
      cases current with
      | nil => exact ⟨d.addBlank hc, congrArg (c :: ·) htext, htop, htokens⟩
      | cons c' current =>
        have ht : IsToken (c' :: current).reverse := ⟨by simp, hnested⟩
        have hclosed : IsClosed (c' :: current).reverse := hdepth
        refine ⟨d.addToken ht hclosed hc, ?_, Decomposition.isTopLevel_addToken ht hclosed hc htop,
          congrArg ((c' :: current).reverse :: ·) htokens⟩
        rw [Decomposition.text_addToken, htext]
        rfl
    · -- the character belongs to the token
      rw [if_neg hends]
      have hnested' : BlanksNested 0 (c :: current).reverse := by
        rw [List.reverse_cons, blanksNested_append, hdepth]
        exact ⟨hnested, blanksNested_cons.2 ⟨hends, blanksNested_nil _⟩⟩
      have hdepth' : parens.after 0 (c :: current).reverse = depthAfter depth c := by
        rw [List.reverse_cons, after_append, hdepth]
        rfl
      obtain ⟨d, htext, hd⟩ := ih hnested' hdepth'
      refine ⟨d, ?_, hd⟩
      rw [htext, List.reverse_cons, List.append_assoc, List.singleton_append]

/-- Every value is cut into the tokens that are read, outside parentheses only. -/
theorem exists_decomposition (value : String) :
    ∃ d : Decomposition, d.text = value.toList ∧ d.IsTopLevel ∧
      d.tokens.map String.ofList = tokens value := by
  obtain ⟨d, htext, htop, htokens⟩ :=
    @exists_decomposition_from [] 0 (blanksNested_nil 0) rfl value.toList
  exact ⟨d, htext, htop, congrArg _ htokens⟩

theorem isToken_of_mem_tokens {value token : String} (h : token ∈ tokens value) :
    IsToken token.toList := by
  obtain ⟨d, -, -, htokens⟩ := exists_decomposition value
  rw [← htokens] at h
  obtain ⟨t, ht, rfl⟩ := List.mem_map.1 h
  obtain ⟨item, -, rfl⟩ := List.mem_map.1 ht
  rw [String.toList_ofList]
  exact item.isToken

namespace Decomposition

variable {d d' : Decomposition} {items items' : List SpacedToken}

/-! ### Reading them -/

theorem tokensFrom_items (hne : ∀ item ∈ items.dropLast, item.gap ≠ [])
    (htop : ∀ item ∈ items, item.gap ≠ [] → IsClosed item.token) :
    tokensFrom 0 [] (items.flatMap SpacedToken.text) = items.map SpacedToken.token := by
  induction items with
  | nil => rfl
  | cons item items ih =>
    obtain ⟨hne, hnes⟩ := forall_mem_dropLast_cons.1 hne
    obtain ⟨htop, htops⟩ := List.forall_mem_cons.1 htop
    rw [List.flatMap_cons, SpacedToken.text, List.map_cons, List.append_assoc]
    cases hgap : item.gap with
    | nil =>
      -- only the last token has no blank behind it
      obtain rfl : items = [] := by
        by_contra hitems
        exact hne hitems hgap
      rw [List.flatMap_nil, List.append_nil, List.append_nil, item.isToken.tokensFrom_eq,
        List.map_nil]
    | cons c gap =>
      have hclosed : IsClosed item.token := htop (by simp [hgap])
      have hblank := item.gap_blank
      rw [hgap, Text.isAllBlank, List.all_cons, Bool.and_eq_true] at hblank
      rw [List.cons_append, item.isToken.tokensFrom_append_cons hclosed hblank.1,
        tokensFrom_append_of_blanks hblank.2, ih hnes htops]

/-- What is cut outside parentheses only is read as it is cut. -/
theorem IsTopLevel.tokensFrom_text (h : d.IsTopLevel) : tokensFrom 0 [] d.text = d.tokens := by
  rw [text, tokensFrom_append_of_blanks d.lead_blank, tokensFrom_items d.gap_ne_nil h, tokens]

/-! ### There is only one -/

/-- A text that is empty or starts with a token starts with no blank. -/
theorem trimStart_items (items : List SpacedToken) :
    Text.trimStart (items.flatMap SpacedToken.text) = items.flatMap SpacedToken.text := by
  cases items with
  | nil => rfl
  | cons item items =>
    rw [List.flatMap_cons, SpacedToken.text, List.append_assoc]
    exact item.isToken.trimStart_append _

/-- So blanks in front of tokens can be told from them. -/
theorem gap_unique {gap gap' : List Char} (hgap : Text.isAllBlank gap)
    (hgap' : Text.isAllBlank gap')
    (h : gap ++ items.flatMap SpacedToken.text = gap' ++ items'.flatMap SpacedToken.text) :
    gap = gap' ∧ items.flatMap SpacedToken.text = items'.flatMap SpacedToken.text := by
  have hrest : items.flatMap SpacedToken.text = items'.flatMap SpacedToken.text := by
    have hstart := congrArg Text.trimStart h
    rwa [Text.trimStart_append hgap, Text.trimStart_append hgap', trimStart_items,
      trimStart_items] at hstart
  rw [hrest] at h
  exact ⟨List.append_cancel_right h, hrest⟩

theorem items_unique (htokens : items.map SpacedToken.token = items'.map SpacedToken.token)
    (htext : items.flatMap SpacedToken.text = items'.flatMap SpacedToken.text) :
    items = items' := by
  induction items generalizing items' with
  | nil => exact (List.map_eq_nil_iff.1 htokens.symm).symm
  | cons item items ih =>
    cases items' with
    | nil => cases htokens
    | cons item' items' =>
      obtain ⟨htoken, htokens⟩ := List.cons.inj htokens
      rw [List.flatMap_cons, List.flatMap_cons, SpacedToken.text, SpacedToken.text,
        List.append_assoc, List.append_assoc, htoken] at htext
      -- behind the first token, which both share, each text goes on with the blanks of its own item
      obtain ⟨hgap, htext⟩ :=
        gap_unique item.gap_blank item'.gap_blank (List.append_cancel_left htext)
      rw [SpacedToken.ext htoken hgap, ih htokens htext]

theorem IsTopLevel.unique (h : d.IsTopLevel) (h' : d'.IsTopLevel) (htext : d.text = d'.text) :
    d = d' := by
  -- both have the tokens that are read, and what is left between these are the blanks
  have htokens : d.tokens = d'.tokens := by
    rw [← h.tokensFrom_text, ← h'.tokensFrom_text, htext]
  obtain ⟨hlead, hitems⟩ := gap_unique d.lead_blank d'.lead_blank htext
  exact Decomposition.ext hlead (items_unique htokens hitems)

end Decomposition

/-- A value is cut into its tokens at blanks outside parentheses, and this is the only way to do so.
Joined with single spaces, the tokens are read again. -/
theorem tokens_decompose (value : String) :
    (∃ d : Decomposition, d.text = value.toList ∧ d.IsTopLevel ∧
        d.tokens.map String.ofList = tokens value ∧
        ∀ d' : Decomposition, d'.text = value.toList → d'.IsTopLevel → d' = d) ∧
      tokens (Text.joinWith " " (tokens value)) = tokens value := by
  obtain ⟨d, htext, htop, hread⟩ := exists_decomposition value
  refine ⟨⟨d, htext, htop, hread, ?_⟩, ?_⟩
  · intro d' htext' htop'
    exact htop'.unique htop (htext'.trans htext.symm)
  · -- joined anew, the tokens are what they were, and each but the last is still closed
    have hts : ∀ t ∈ d.tokens, IsToken t := List.forall_mem_map.2 fun item _ => item.isToken
    have hclosed : ∀ t ∈ d.tokens.dropLast, IsClosed t := by
      rw [Decomposition.tokens, ← List.map_dropLast]
      exact List.forall_mem_map.2 d.isClosed
    have hlists : (tokens value).map String.toList = d.tokens := by
      rw [← hread, List.map_map]
      exact List.map_id'' (fun _ => String.toList_ofList) _
    rw [tokens, Text.joinWith, String.toList_ofList, hlists]
    exact (congrArg _ (tokensFrom_intercalate hts hclosed)).trans hread

example : tokens " url(a b)  1px (c " = ["url(a b)", "1px", "(c "] := by decide

end BoxFlow.Value
