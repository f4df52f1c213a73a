import BoxFlow.Proofs.Cascade.Matching
import BoxFlow.Proofs.Selector.AttributeText
import BoxFlow.Proofs.Text.Words

/-!
# Two ways to ask for a class

A class can be asked for by its name behind a dot, or by a test of the class attribute for one word.
Both look for the name as a word of the same text, but they do not cut it in the same places: the
first at every ASCII blank, the second at spaces only. So the second asks for more, and the two come
apart exactly where the name stands between ASCII blanks and nowhere between spaces
(`Selector.class_selectors_agree_iff`). Where the only blanks of the attribute are spaces, however
many of them, the two agree.
-/

set_option autoImplicit false

namespace BoxFlow

/-! ## Class names -/

/-- An ASCII letter or digit, a hyphen or an underscore. -/
def isClassChar (c : Char) : Bool := c.isAlphanum || c == '-' || c == '_'

/-- A name of such characters that does not start with a digit. -/
structure IsClassName (name : List Char) : Prop where
  nonempty : name ≠ []
  chars : ∀ c ∈ name, isClassChar c = true
  first : ∀ c ∈ name.head?, c.isDigit = false

/-- The characters that mean something in a selector or in an attribute test, or separate words. -/
def separatingChars : List Char := reservedChars ++ ['\x0c', '"', '\'', '=']

theorem notMem_separatingChars {c : Char} (h : isClassChar c = true) : c ∉ separatingChars := by
  intro hmem
  have hall : separatingChars.all (!isClassChar ·) = true := rfl
  have hc := List.all_eq_true.1 hall c hmem
  rw [h] at hc
  exact Bool.false_ne_true hc

theorem isBlank_of_isClassChar {c : Char} (h : isClassChar c = true) : Text.isBlank c = false := by
  delta isClassChar Char.isAlphanum Char.isAlpha Char.isUpper Char.isLower Char.isDigit at h
  simp only [Bool.or_eq_true, Bool.and_eq_true, beq_iff_eq, decide_eq_true_eq,
    UInt32.le_iff_toNat_le, ge_iff_le] at h
  -- the two classes of characters as ranges of code points
  change ((((65 ≤ c.toNat ∧ c.toNat ≤ 90) ∨ (97 ≤ c.toNat ∧ c.toNat ≤ 122)) ∨
    (48 ≤ c.toNat ∧ c.toNat ≤ 57)) ∨ c = '-') ∨ c = '_' at h
  rcases h with (hrange | rfl) | rfl
  · simp [Text.isBlank]
    omega
  · decide
  · decide

namespace IsClassName

variable {name : List Char}

theorem isIdentifier (h : IsClassName name) : IsIdentifier name := by
  refine ⟨h.nonempty, ?_, h.first⟩
  intro c hc hmem
  exact notMem_separatingChars (h.chars c hc) (List.mem_append_left _ hmem)

theorem isAllBlank_eq (h : IsClassName name) : Text.isAllBlank name = false := by
  obtain ⟨c, rest, rfl⟩ := List.exists_cons_of_ne_nil h.nonempty
  have hc := isBlank_of_isClassChar (h.chars c List.mem_cons_self)
  simp [Text.isAllBlank, hc]

theorem isWord (h : IsClassName name) {isSep : Char → Bool}
    (hsep : ∀ c, isSep c = true → c ∈ separatingChars) : Text.IsWord isSep name := by
  refine ⟨h.nonempty, ?_⟩
  intro c hc
  rw [Bool.eq_false_iff]
  intro hc'
  exact notMem_separatingChars (h.chars c hc) (hsep c hc')

/-- The name stands by itself for a value: it is trimmed, and there are no quotes to take off. -/
theorem unquote_trim (h : IsClassName name) :
    AttributeTest.unquote (Text.trim name) = name := by
  rw [Text.trim_eq_self_of_no_blank fun c hc => isBlank_of_isClassChar (h.chars c hc)]
  obtain ⟨c, rest, rfl⟩ := List.exists_cons_of_ne_nil h.nonempty
  have hc := notMem_separatingChars (h.chars c List.mem_cons_self)
  have hdouble : c ≠ '"' := fun heq => hc (heq ▸ by decide)
  have hsingle : c ≠ '\'' := fun heq => hc (heq ▸ by decide)
  simp [AttributeTest.unquote, AttributeTest.between?, hdouble, hsingle]

/-! ## The two selectors -/

theorem parse_behind_dot (h : IsClassName name) :
    Selector.parse ('.' :: name) = .ok { classes := [.ofList name] } := by
  rw [Selector.parse_eq_ok_iff]
  exact ⟨List.cons_ne_nil _ _, .part .blank (.className h.isIdentifier)⟩

theorem isAttributeText (h : IsClassName name) : IsAttributeText ("class~=".toList ++ name) := by
  constructor
  · intro c hc hmem
    rcases List.mem_append.1 hc with hc | hc
    · have hall : "class~=".toList.all (fun d => !([']', '\n', '\r', '\t'].contains d)) = true :=
        rfl
      have hfree := List.all_eq_true.1 hall c hc
      rw [List.contains_iff_mem.2 hmem] at hfree
      exact Bool.false_ne_true hfree
    · have hall : [']', '\n', '\r', '\t'].all (separatingChars.contains ·) = true := rfl
      exact notMem_separatingChars (h.chars c hc)
        (List.contains_iff_mem.1 (List.all_eq_true.1 hall c hmem))
  · simp [Text.isAllBlank, Text.isBlank]

theorem parse_in_brackets (h : IsClassName name) :
    Selector.parse ('[' :: ("class~=".toList ++ name) ++ [']']) =
      .ok { attributeTest := some (.ofList ("class~=".toList ++ name)) } := by
  have hadds : Compound.Adds Selector.Argument {} ('[' :: ("class~=".toList ++ name) ++ [']'])
      { attributeTest := some (.ofList ("class~=".toList ++ name)) } :=
    .attributeTest rfl h.isAttributeText
  have hwritten := Compound.Written.part .blank hadds
  rw [Selector.parse_eq_ok_iff]
  exact ⟨List.cons_ne_nil _ _, hwritten⟩

theorem compile_includes (h : IsClassName name) :
    AttributeTest.compile (.ofList ("class~=".toList ++ name)) =
      .ok ⟨"class", .includes, .ofList name⟩ := by
  have hcut : (String.ofList ("class~=".toList ++ name)).toList =
      "class~".toList ++ '=' :: name := by
    rw [String.toList_ofList]
    rfl
  rw [AttributeTest.compile_of_first (by decide) hcut, if_neg, h.unquote_trim]
  · rfl
  · rw [h.isAllBlank_eq]
    decide

end IsClassName

namespace Selector

variable {s : Subject} {e : Element}

theorem specificity_className_pos_iff (he : s.tree.element? s.id = some e) (name : String) :
    0 < Selector.specificity { classes := [name] } s ↔ name ∈ e.classes := by
  rw [← List.contains_iff_mem, ← Element.hasClass]
  cases hname : e.hasClass name <;>
    simp [specificity, Compound.scoreWith, Compound.namesHold, Compound.attributeHolds,
      Compound.weight, he, hname, noMatch]

theorem specificity_attributeTest_pos_iff (he : s.tree.element? s.id = some e) (raw : String) :
    0 < Selector.specificity { attributeTest := some raw } s ↔ e.Passes raw := by
  have hpasses : Compound.attributeHolds ({ attributeTest := some raw } : Selector) e = true ↔
      e.Passes raw := by
    rw [Compound.attributeHolds_iff]
    simp
  rw [← hpasses]
  cases htest : Compound.attributeHolds ({ attributeTest := some raw } : Selector) e <;>
    simp [specificity, Compound.scoreWith, Compound.namesHold, Compound.weight, he, htest, noMatch]

end Selector

namespace IsClassName

variable {name : List Char} {s : Subject} {e : Element}

theorem isSep_mem_separatingChars {c : Char} (hc : Text.isAsciiBlank c = true) :
    c ∈ separatingChars := by
  simp only [Text.isAsciiBlank, Bool.or_eq_true, beq_iff_eq] at hc
  rcases hc with (((rfl | rfl) | rfl) | rfl) | rfl <;> decide

theorem mem_classes_iff (h : IsClassName name) (e : Element) :
    .ofList name ∈ e.classes ↔
      Text.StandsAlone Text.isAsciiBlank name (e.attributeText "class").toList := by
  rw [← (h.isWord fun _ => isSep_mem_separatingChars).mem_words_iff, Element.classes,
    List.mem_map_of_injective fun _ _ => String.ofList_inj.1]

/-- An empty attribute holds no name, so that it is refused from the start makes no difference. -/
theorem passes_includes_iff (h : IsClassName name) (e : Element) :
    e.Passes (.ofList ("class~=".toList ++ name)) ↔
      Text.StandsAlone (· == ' ') name (e.attributeText "class").toList := by
  have hword : Text.IsWord (· == ' ') name := by
    apply h.isWord
    intro c hc
    rw [beq_iff_eq.1 hc]
    decide
  have hne : name ∈ (e.attributeText "class").toList.splitOnP (· == ' ') →
      e.attributeText "class" ≠ "" := by
    intro hmem hempty
    rw [hempty, String.toList_empty, List.splitOnP_nil, List.mem_singleton] at hmem
    exact h.nonempty hmem
  rw [← hword.mem_splitOnP_iff, Element.Passes, h.compile_includes]
  simp only [Except.ok.injEq, exists_eq_left', AttributeTest.holds, AttributeTest.accepts,
    Bool.and_eq_true, bne_iff_ne, String.toList_ofList, Text.pieces, List.contains_iff_mem]
  exact and_iff_right_of_imp hne

end IsClassName

namespace Selector

open Text (StandsAlone isAsciiBlank)

/-- Behind a dot a class name matches the elements whose class attribute holds it between ASCII
blanks, and in a test for one word those that hold it between spaces. So what the test matches is
matched behind the dot. The two agree on an element unless its attribute holds the name between
ASCII blanks only, and they always agree where the attribute has no blanks but spaces. -/
theorem class_selectors_agree_iff {name : List Char} (hname : IsClassName name) :
    ∃ c₁ c₂, Selector.parse ('.' :: name) = .ok c₁ ∧
      Selector.parse ('[' :: ("class~=".toList ++ name) ++ [']']) = .ok c₂ ∧
      ∀ (s : Subject) (e : Element), s.tree.element? s.id = some e →
        let text := (e.attributeText "class").toList
        (0 < c₁.specificity s ↔ StandsAlone isAsciiBlank name text) ∧
        (0 < c₂.specificity s ↔ StandsAlone (· == ' ') name text) ∧
        (0 < c₂.specificity s → 0 < c₁.specificity s) ∧
        ((0 < c₁.specificity s ↔ 0 < c₂.specificity s) ↔
          (StandsAlone isAsciiBlank name text → StandsAlone (· == ' ') name text)) ∧
        ((∀ c ∈ text, isAsciiBlank c = true → c = ' ') →
          (0 < c₁.specificity s ↔ 0 < c₂.specificity s)) := by
  refine ⟨_, _, hname.parse_behind_dot, hname.parse_in_brackets, ?_⟩
  intro s e he text
  have hdot := (specificity_className_pos_iff he (.ofList name)).trans (hname.mem_classes_iff e)
  have htest := (specificity_attributeTest_pos_iff he _).trans (hname.passes_includes_iff e)
  have hspace : StandsAlone (· == ' ') name text → StandsAlone isAsciiBlank name text :=
    Text.StandsAlone.mono fun c _ hc => by rw [beq_iff_eq.1 hc]; rfl
  refine ⟨hdot, htest, ?_, ?_, ?_⟩
  · rw [hdot, htest]
    exact hspace
  · rw [hdot, htest]
    exact ⟨Iff.mp, fun honly => ⟨honly, hspace⟩⟩
  · intro honly
    rw [hdot, htest]
    refine ⟨Text.StandsAlone.mono fun c hc hblank => ?_, hspace⟩
    exact beq_iff_eq.2 (honly c hc hblank)

/-- A paragraph with a class attribute, at the top of a tree. -/
def paragraphOfClass (text : String) : Subject :=
  ⟨(Tree.empty.appendNew Tree.root (.element { tag := "p", attributes := [⟨"class", text⟩] })).1, 1,
    {}⟩

theorem isClassName_a : IsClassName ['a'] := by
  refine ⟨by decide, List.forall_mem_singleton.2 (by decide), ?_⟩
  intro c hc
  obtain rfl : 'a' = c := Option.some.inj hc
  decide

/-- Between spaces, however many, a name is found in both ways. -/
theorem class_selectors_agree_on_spaces :
    IsClassName ['a'] ∧
      0 < Selector.specificity { classes := ["a"] } (paragraphOfClass "  b a ") ∧
      0 < Selector.specificity { attributeTest := some "class~=a" }
        (paragraphOfClass "  b a ") := by
  have hname := isClassName_a
  obtain ⟨c₁, c₂, hdot, htest, hscores⟩ := class_selectors_agree_iff hname
  obtain rfl : { classes := ["a"] } = c₁ := Except.ok.inj (hname.parse_behind_dot.symm.trans hdot)
  obtain rfl : { attributeTest := some "class~=a" } = c₂ :=
    Except.ok.inj (hname.parse_in_brackets.symm.trans htest)
  obtain ⟨-, htest, hdot, -⟩ := hscores (paragraphOfClass "  b a ")
    { tag := "p", attributes := [⟨"class", "  b a "⟩] } (by decide)
  have hpos := htest.2 ⟨"  b ".toList, " ".toList, by decide, by simp, by simp⟩
  exact ⟨hname, hdot hpos, hpos⟩

/-- A tab separates the names of classes, but not the words that an attribute is tested for. -/
theorem class_selectors_differ_at_tab :
    IsClassName ['a'] ∧
      Selector.parse ".a".toList = .ok { classes := ["a"] } ∧
      Selector.parse "[class~=a]".toList = .ok { attributeTest := some "class~=a" } ∧
      0 < Selector.specificity { classes := ["a"] } (paragraphOfClass "a\tb") ∧
      ¬ 0 < Selector.specificity { attributeTest := some "class~=a" } (paragraphOfClass "a\tb") :=
  ⟨isClassName_a, by decide, by decide, by decide, by decide⟩

end Selector

end BoxFlow
