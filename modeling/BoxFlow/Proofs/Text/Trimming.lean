import BoxFlow.Text.Cut
import Mathlib.Data.List.DropRight

/-!
# Trimming

Trimming drops the blanks at both ends of a text and nothing else, so it does nothing a second time
(`Text.trim_trim`), and blanks put in front of a text or behind it make no difference to it
(`Text.trim_append`, `Text.trim_append_of_blanks`). What is left of a text behind its last separator
does not change either with a text in front that has only blanks behind its own last separator
(`Text.trim_afterLast_append`).
-/

set_option autoImplicit false

namespace BoxFlow.Text

variable {cs ds : List Char} {c : Char}

/-- A blank text holds only blanks. -/
theorem isBlank_of_mem (h : isAllBlank cs) (hc : c ∈ cs) : isBlank c = true :=
  List.all_eq_true.1 h c hc

theorem isAllBlank_space : isAllBlank [' '] = true := rfl

theorem notMem_of_isAllBlank (h : isAllBlank cs) (hc : isBlank c = false) : c ∉ cs := by
  intro hmem
  exact absurd (hc.symm.trans (isBlank_of_mem h hmem)) (by decide)

theorem trimStart_append (h : isAllBlank cs) (ds : List Char) :
    trimStart (cs ++ ds) = trimStart ds :=
  List.dropWhile_append_of_pos fun _ hc => isBlank_of_mem h hc

theorem trim_append (h : isAllBlank cs) (ds : List Char) : trim (cs ++ ds) = trim ds := by
  rw [trim, trimStart_append h, trim]

theorem trimStart_append_of_not (h : ¬ isAllBlank cs) (ds : List Char) :
    trimStart (cs ++ ds) = trimStart cs ++ ds := by
  have hne : ¬ (cs.dropWhile isBlank).isEmpty := by
    rw [List.isEmpty_iff, List.dropWhile_eq_nil_iff]
    exact fun hall => h (List.all_eq_true.2 hall)
  rw [trimStart, List.dropWhile_append, if_neg hne, trimStart]

theorem trimEnd_concat (hc : isBlank c = false) (cs : List Char) :
    trimEnd (cs ++ [c]) = cs ++ [c] := by
  rw [trimEnd, List.reverse_append, List.reverse_singleton, List.singleton_append,
    List.dropWhile_cons_of_neg (by rw [hc]; decide), List.reverse_cons, List.reverse_reverse]

theorem trimStart_eq_nil (h : isAllBlank cs) : trimStart cs = [] :=
  List.dropWhile_eq_nil_iff.2 fun _ => isBlank_of_mem h

theorem trimEnd_append (h : isAllBlank ds) (cs : List Char) :
    trimEnd (cs ++ ds) = trimEnd cs := by
  have hblank : ∀ c ∈ ds.reverse, isBlank c = true :=
    fun c hc => isBlank_of_mem h (List.mem_reverse.1 hc)
  rw [trimEnd, List.reverse_append, List.dropWhile_append_of_pos hblank, trimEnd]

/-- Blanks behind a text make no difference to it either. -/
theorem trim_append_of_blanks (h : isAllBlank ds) (cs : List Char) : trim (cs ++ ds) = trim cs := by
  by_cases hcs : isAllBlank cs
  · rw [trim, trim, trimStart_append hcs, trimStart_eq_nil h, trimStart_eq_nil hcs]
  · rw [trim, trimStart_append_of_not hcs, trimEnd_append h, trim]

/-- Only blanks are dropped, at both ends. -/
theorem exists_trim_eq (cs : List Char) :
    ∃ front back, isAllBlank front ∧ isAllBlank back ∧ cs = front ++ trim cs ++ back := by
  refine ⟨cs.takeWhile isBlank, (trimStart cs).rtakeWhile isBlank, List.all_takeWhile, ?_, ?_⟩
  · refine List.all_eq_true.2 ?_
    intro c hc
    exact List.mem_rtakeWhile_imp hc
  · have hend : trim cs ++ (trimStart cs).rtakeWhile isBlank = trimStart cs :=
      List.rdropWhile_append_rtakeWhile
    rw [List.append_assoc, hend]
    exact List.takeWhile_append_dropWhile.symm

/-- What stands in front of a character that is not blank is trimmed at its start only. -/
theorem exists_trim_append_cons (hc : isBlank c = false) (cs ds : List Char) :
    ∃ es, trim (cs ++ c :: ds) = trimStart cs ++ c :: es := by
  have hstart : trimStart (cs ++ c :: ds) = trimStart cs ++ c :: ds := by
    by_cases hcs : isAllBlank cs
    · rw [trimStart_append hcs, trimStart_eq_nil hcs, trimStart,
        List.dropWhile_cons_of_neg (by rw [hc]; decide), List.nil_append]
    · exact trimStart_append_of_not hcs _
  rw [trim, hstart]
  clear hstart
  induction ds using List.reverseRecOn with
  | nil => exact ⟨[], trimEnd_concat hc _⟩
  | append_singleton ds d ih =>
    have hsplit : trimStart cs ++ c :: (ds ++ [d]) = trimStart cs ++ c :: ds ++ [d] :=
      (List.append_assoc (trimStart cs) (c :: ds) [d]).symm
    rw [hsplit]
    cases hd : isBlank d with
    | true =>
      rw [trimEnd_append (by simp [isAllBlank, hd])]
      exact ih
    | false => exact ⟨ds ++ [d], by rw [trimEnd_concat hd, hsplit]⟩

theorem trim_eq_self_of_no_blank (h : ∀ c ∈ cs, isBlank c = false) : trim cs = cs := by
  have hstart : trimStart cs = cs := by
    cases cs with
    | nil => rfl
    | cons c cs => exact List.dropWhile_cons_of_neg (by rw [h c List.mem_cons_self]; decide)
  rw [trim, hstart]
  rcases List.eq_nil_or_concat cs with rfl | ⟨front, c, rfl⟩
  · rfl
  · rw [List.concat_eq_append] at h ⊢
    exact trimEnd_concat (h c (List.mem_append_right front (List.mem_singleton_self c))) front

/-! ## Behind the last separator -/

theorem afterLast_append_of_mem {sep : Char} (h : sep ∈ ds) (cs : List Char) :
    afterLast sep (cs ++ ds) = afterLast sep ds := by
  have hstops : (ds.reverse.takeWhile (· != sep)).length ≠ ds.reverse.length := by
    intro hlength
    have hall := (List.takeWhile_prefix _).eq_of_length hlength
    rw [List.takeWhile_eq_self_iff] at hall
    exact bne_iff_ne.1 (hall sep (List.mem_reverse.2 h)) rfl
  rw [afterLast, List.reverse_append, List.takeWhile_append, if_neg hstops, afterLast]

theorem afterLast_append_of_notMem {sep : Char} (h : sep ∉ ds) (cs : List Char) :
    afterLast sep (cs ++ ds) = afterLast sep cs ++ ds := by
  have hgoes : ∀ c ∈ ds.reverse, (c != sep) = true := by
    intro c hc
    rw [bne_iff_ne]
    rintro rfl
    exact h (List.mem_reverse.1 hc)
  rw [afterLast, List.reverse_append, List.takeWhile_append_of_pos hgoes, List.reverse_append,
    List.reverse_reverse, afterLast]

theorem afterLast_of_notMem {sep : Char} (h : sep ∉ ds) : afterLast sep ds = ds :=
  afterLast_append_of_notMem h []

theorem isAllBlank_afterLast {sep : Char} (h : isAllBlank cs) : isAllBlank (afterLast sep cs) := by
  refine List.all_eq_true.2 ?_
  intro c hc
  have htaken := (List.takeWhile_subset _ : _ ⊆ cs.reverse) (List.mem_reverse.1 hc)
  exact isBlank_of_mem h (List.mem_reverse.1 htaken)

/-- What stands behind the last separator of a text, trimmed, does not change with a text in
front that has only blanks behind its own last separator. -/
theorem trim_afterLast_append {sep : Char} (h : isAllBlank (afterLast sep cs)) (ds : List Char) :
    trim (afterLast sep (cs ++ ds)) = trim (afterLast sep ds) := by
  by_cases hsep : sep ∈ ds
  · rw [afterLast_append_of_mem hsep]
  · rw [afterLast_append_of_notMem hsep, trim_append h, afterLast_of_notMem hsep]

/-! ## Trimming twice -/

/-- A trimmed text is blank only if it is empty. -/
theorem trim_eq_nil_of_isAllBlank (h : isAllBlank (trim cs)) : trim cs = [] := by
  by_contra hne
  have hlast : ¬ isBlank ((trim cs).getLast hne) = true :=
    List.rdropWhile_last_not isBlank (trimStart cs) hne
  exact hlast (isBlank_of_mem h (List.getLast_mem hne))

/-- A trimmed text does not start with a blank. -/
theorem trimStart_trim (cs : List Char) : trimStart (trim cs) = trim cs := by
  obtain ⟨rest, hrest⟩ := List.rdropWhile_prefix isBlank (trimStart cs)
  have hsplit : trim cs ++ rest = trimStart cs := hrest
  cases htrim : trim cs with
  | nil => rfl
  | cons c tail =>
    have hc : isBlank c = false := by
      have hhead := List.head?_dropWhile_not isBlank cs
      have hstart : cs.dropWhile isBlank = c :: (tail ++ rest) := by
        rw [htrim] at hsplit
        exact hsplit.symm
      simpa [hstart] using hhead
    exact List.dropWhile_cons_of_neg (by simp [hc])

/-- A trimmed text starts with a character that is not blank, unless it is empty. -/
theorem isBlank_head_of_trim (h : trim (c :: cs) = c :: cs) : isBlank c = false := by
  have hstart : (c :: cs).dropWhile isBlank = c :: cs := by
    have htrim := trimStart_trim (c :: cs)
    rwa [h] at htrim
  have hhead := List.head?_dropWhile_not isBlank (c :: cs)
  simpa [hstart] using hhead

theorem trim_trim (cs : List Char) : trim (trim cs) = trim cs := by
  have hend : trimEnd (trim cs) = trim cs := List.rdropWhile_idempotent isBlank (trimStart cs)
  rw [trim, trimStart_trim, hend]

@[simp] theorem trimmed_trimmed (s : String) : trimmed (trimmed s) = trimmed s := by
  rw [trimmed, trimmed, String.toList_ofList, trim_trim]

theorem trim_toList {s : String} (h : trimmed s = s) : trim s.toList = s.toList := by
  conv => rhs; rw [← h, trimmed, String.toList_ofList]

end BoxFlow.Text
