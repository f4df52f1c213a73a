import BoxFlow.Proofs.Text.Trimming
import BoxFlow.Selector.Attribute

/-!
# The text of an attribute test

An attribute test is written as a name, the character of its operator, an equals sign and a value in
double quotes, with blanks around the name, in front of the equals sign and around the quoted value.
Reading gives the test back whatever the value holds (`AttributeTest.compile_undoes_writing`): the
name ends in front of the operator, since neither it nor the operator holds an equals sign, and of
the quotes only the outermost pair is taken off.

A text is refused if the part of it that names the attribute is blank (`AttributeTest.namePart`), or
if only blanks follow its first equals sign. In front of that sign the last character is an operator
whenever it can be one, so that a name which ends in such a character has to be followed by another.
-/

set_option autoImplicit false

namespace BoxFlow

namespace Text

variable {sep : Char} {cs ds front back : List Char}

/-! ## The first separator -/

theorem cutAt?_eq_none_iff : cutAt? sep cs = none ↔ sep ∉ cs := by
  have hall : cs.dropWhile (· != sep) = [] ↔ sep ∉ cs := by
    rw [List.dropWhile_eq_nil_iff]
    refine ⟨fun h hmem => absurd (h sep hmem) (by simp), fun h c hc => ?_⟩
    rw [bne_iff_ne]
    rintro rfl
    exact h hc
  rw [← hall, cutAt?]
  cases cs.dropWhile (· != sep) <;> simp

theorem cutAt?_append_cons (h : sep ∉ front) (back : List Char) :
    cutAt? sep (front ++ sep :: back) = some (front, back) := by
  have hgoes : ∀ c ∈ front, (c != sep) = true := by
    intro c hc
    rw [bne_iff_ne]
    rintro rfl
    exact h hc
  rw [cutAt?, List.dropWhile_append_of_pos hgoes, List.takeWhile_append_of_pos hgoes,
    List.dropWhile_cons_of_neg (by simp), List.takeWhile_cons_of_neg (by simp), List.append_nil]

theorem cutAt?_eq_some_iff :
    cutAt? sep cs = some (front, back) ↔ cs = front ++ sep :: back ∧ sep ∉ front := by
  constructor
  · intro h
    have hmem : sep ∈ cs := by
      by_contra hno
      rw [cutAt?_eq_none_iff.2 hno] at h
      cases h
    obtain ⟨front', back', rfl, hfront⟩ := List.eq_append_cons_of_mem hmem
    rw [cutAt?_append_cons hfront] at h
    obtain ⟨rfl, rfl⟩ := Prod.mk.inj (Option.some.inj h)
    exact ⟨rfl, hfront⟩
  · rintro ⟨rfl, hfront⟩
    exact cutAt?_append_cons hfront back

/-- What stands in front of a separator and behind it, if it is the first one. -/
theorem first_unique {front' back' : List Char} (h : sep ∉ front) (h' : sep ∉ front')
    (heq : front ++ sep :: back = front' ++ sep :: back') : front = front' ∧ back = back' := by
  have hcut := cutAt?_append_cons h back
  rw [heq, cutAt?_append_cons h' back'] at hcut
  obtain ⟨rfl, rfl⟩ := Prod.mk.inj (Option.some.inj hcut)
  exact ⟨rfl, rfl⟩

/-! ## Trimming a delimited text -/

theorem trim_eq_nil_iff : trim cs = [] ↔ isAllBlank cs := by
  constructor
  · intro h
    obtain ⟨front, back, hfront, hback, heq⟩ := exists_trim_eq cs
    rw [h, List.append_nil] at heq
    rw [heq, isAllBlank, List.all_append]
    exact Bool.and_eq_true_iff.2 ⟨hfront, hback⟩
  · intro h
    rw [trim, trimStart_eq_nil h]
    rfl

/-- A trimmed text ends with a character that is not blank, unless it is empty. -/
theorem isBlank_getLast_of_trim (h : trim cs = cs) (hne : cs ≠ []) :
    isBlank (cs.getLast hne) = false := by
  have hlast := List.rdropWhile_last_not isBlank (trimStart cs)
  have hcs : (trimStart cs).rdropWhile isBlank = cs := h
  simp only [hcs] at hlast
  exact Bool.eq_false_iff.2 (hlast hne)

theorem trimEnd_append_of_trim (h : trim cs = cs) (hne : cs ≠ []) (front : List Char) :
    trimEnd (front ++ cs) = front ++ cs := by
  rw [← List.dropLast_append_getLast hne, ← List.append_assoc,
    trimEnd_concat (isBlank_getLast_of_trim h hne)]

/-- Delimiters that are not blank keep what is between them as it is. -/
theorem trim_delimited {c d : Char} (hc : isBlank c = false) (hd : isBlank d = false)
    (cs : List Char) : trim (c :: cs ++ [d]) = c :: cs ++ [d] := by
  have hstart : trimStart (c :: cs ++ [d]) = c :: cs ++ [d] :=
    List.dropWhile_cons_of_neg (by rw [hc]; decide)
  rw [trim, hstart, trimEnd_concat hd]

end Text

/-! ## Operators in front of the equals sign -/

namespace AttributeOperator

/-- What is written for an operator in front of the equals sign: nothing for plain equality, and
nothing if only existence is asked for, when there is no equals sign. -/
def symbol : AttributeOperator → String
  | .exists | equals => ""
  | contains => "*"
  | startsWith => "^"
  | endsWith => "$"
  | dashMatch => "|"
  | includes => "~"

/-- The characters that stand for an operator. -/
def symbols : List Char := ['*', '^', '$', '|', '~']

variable {op : AttributeOperator} {c : Char}

theorem ofChar?_eq_none_iff : ofChar? c = none ↔ c ∉ symbols := by
  unfold ofChar? symbols
  split <;> simp_all

theorem isBlank_of_mem_symbols (hc : c ∈ symbols) : Text.isBlank c = false := by
  have hall : symbols.all (!Text.isBlank ·) = true := rfl
  simpa using List.all_eq_true.1 hall c hc

theorem equals_notMem_symbol (op : AttributeOperator) : '=' ∉ op.symbol.toList := by
  cases op <;> decide

theorem symbol_eq_nil_or (hop : op ≠ .exists) :
    op = equals ∨ ∃ c ∈ symbols, op.symbol.toList = [c] ∧ ofChar? c = some op := by
  cases op with
  | «exists» => exact absurd rfl hop
  | equals => exact .inl rfl
  | contains => exact .inr ⟨'*', by decide, rfl, rfl⟩
  | startsWith => exact .inr ⟨'^', by decide, rfl, rfl⟩
  | endsWith => exact .inr ⟨'$', by decide, rfl, rfl⟩
  | dashMatch => exact .inr ⟨'|', by decide, rfl, rfl⟩
  | includes => exact .inr ⟨'~', by decide, rfl, rfl⟩

end AttributeOperator

namespace AttributeTest

open AttributeOperator (symbols)

/-- A text without the operator character at its end, if there is one. -/
def lessOperator (cs : List Char) : List Char :=
  if cs.getLast?.any symbols.contains then cs.dropLast else cs

/-- The part of a text that names the attribute: all of it if it holds no equals sign, and otherwise
what stands in front of the first one, trimmed at its end and without an operator character
there. -/
def namePart (cs : List Char) : List Char :=
  match Text.cutAt? '=' cs with
  | none => cs
  | some (front, _) => lessOperator (Text.trimEnd front)

theorem splitOperator_fst (cs : List Char) : (splitOperator cs).1 = lessOperator cs := by
  rw [splitOperator, lessOperator]
  cases hlast : cs.getLast? with
  | none => simp
  | some c =>
    cases hop : AttributeOperator.ofChar? c with
    | none =>
      have hc := AttributeOperator.ofChar?_eq_none_iff.1 hop
      simp [hop, hc]
    | some op =>
      have hc : c ∈ symbols := by
        by_contra hnot
        rw [AttributeOperator.ofChar?_eq_none_iff.2 hnot] at hop
        exact Option.some_ne_none op hop.symm
      simp [hop, hc]

variable {fragment : String} {front back : List Char}

/-! ## Reading -/

theorem compile_of_notMem (h : '=' ∉ fragment.toList) :
    compile fragment =
      if Text.isAllBlank fragment.toList then .error (.invalidAttribute fragment)
      else .ok ⟨Text.trimmed fragment, .exists, ""⟩ := by
  rw [compile, Text.cutAt?_eq_none_iff.2 h]
  simp only [List.isEmpty_iff, Text.trim_eq_nil_iff]
  rfl

theorem compile_of_first (h : '=' ∉ front) (hcut : fragment.toList = front ++ '=' :: back) :
    compile fragment =
      if Text.isAllBlank (lessOperator (Text.trimEnd front)) ∨ Text.isAllBlank back then
        .error (.invalidAttribute fragment)
      else
        .ok ⟨.ofList (Text.trim (lessOperator (Text.trimEnd front))),
          (splitOperator (Text.trimEnd front)).2, .ofList (unquote (Text.trim back))⟩ := by
  rw [compile, hcut, Text.cutAt?_append_cons h]
  simp only [splitOperator_fst, Bool.or_eq_true, List.isEmpty_iff, Text.trim_eq_nil_iff]

theorem refused_eq_error_iff {P : Prop} [Decidable P] {cause err : SelectorError}
    {test : AttributeTest} :
    (if P then Except.error cause else .ok test) = .error err ↔ err = cause ∧ P := by
  by_cases h : P
  · rw [if_pos h, Except.error.injEq, eq_comm]
    exact (and_iff_left h).symm
  · rw [if_neg h]
    exact iff_of_false (fun heq => nomatch heq) fun hboth => h hboth.2

/-- A text is refused for one cause only, when the name or what follows the first equals sign is
blank. -/
theorem compile_eq_error_iff (err : SelectorError) :
    compile fragment = .error err ↔ err = .invalidAttribute fragment ∧
      (Text.isAllBlank (namePart fragment.toList) ∨
        ∃ front back, fragment.toList = front ++ '=' :: back ∧ '=' ∉ front ∧
          Text.isAllBlank back) := by
  by_cases hmem : '=' ∈ fragment.toList
  · obtain ⟨front, back, hcut, hfront⟩ := List.eq_append_cons_of_mem hmem
    have hname : namePart fragment.toList = lessOperator (Text.trimEnd front) := by
      rw [namePart, hcut, Text.cutAt?_append_cons hfront]
    -- there is one first equals sign only, so what follows it is `back` in every such split
    have hvalue : (∃ front back, fragment.toList = front ++ '=' :: back ∧ '=' ∉ front ∧
        Text.isAllBlank back) ↔ Text.isAllBlank back := by
      constructor
      · rintro ⟨front', back', hcut', hfront', hblank⟩
        rwa [(Text.first_unique hfront hfront' (hcut.symm.trans hcut')).2]
      · intro hblank
        exact ⟨front, back, hcut, hfront, hblank⟩
    rw [compile_of_first hfront hcut, hname, hvalue, refused_eq_error_iff]
  · have hname : namePart fragment.toList = fragment.toList := by
      rw [namePart, Text.cutAt?_eq_none_iff.2 hmem]
    have hvalue : ¬ ∃ front back, fragment.toList = front ++ '=' :: back ∧ '=' ∉ front ∧
        Text.isAllBlank back := by
      rintro ⟨front, back, hcut, -⟩
      exact hmem (hcut ▸ List.mem_append_right front List.mem_cons_self)
    rw [compile_of_notMem hmem, hname, or_iff_left hvalue, refused_eq_error_iff]

/-! ## Writing -/

/-- A name that can be written in front of every operator. -/
structure IsName (name : String) : Prop where
  trimmed : Text.trim name.toList = name.toList
  nonempty : name.toList ≠ []
  no_equals : '=' ∉ name.toList
  no_operator : ∀ c ∈ name.toList.getLast?, c ∉ symbols

theorem unquote_double (cs : List Char) : unquote ('"' :: cs ++ ['"']) = cs := by
  simp [unquote, between?]

/-- What is read in front of the equals sign when a name and an operator are written there. -/
theorem splitOperator_written {name : String} (hname : IsName name) {op : AttributeOperator}
    (hop : op ≠ .exists) (front : List Char) {ws ws' : List Char} (hws : Text.isAllBlank ws)
    (hws' : Text.isAllBlank ws') :
    ∃ blanks, Text.isAllBlank blanks ∧
      splitOperator (Text.trimEnd (front ++ name.toList ++ ws ++ op.symbol.toList ++ ws')) =
        (front ++ name.toList ++ blanks, op) := by
  rw [Text.trimEnd_append hws']
  obtain rfl | ⟨c, hc, hsymbol, hread⟩ := AttributeOperator.symbol_eq_nil_or hop
  · -- nothing is written for equality, and the name does not end in an operator
    have hlast : (front ++ name.toList).getLast?.bind AttributeOperator.ofChar? = none := by
      rw [List.getLast?_append_of_ne_nil front hname.nonempty, Option.bind_eq_none_iff]
      intro c hc
      rw [AttributeOperator.ofChar?_eq_none_iff]
      exact hname.no_operator c hc
    refine ⟨[], rfl, ?_⟩
    show splitOperator (Text.trimEnd (front ++ name.toList ++ ws ++ [])) = _
    rw [List.append_nil, Text.trimEnd_append hws,
      Text.trimEnd_append_of_trim hname.trimmed hname.nonempty, splitOperator, hlast,
      List.append_nil]
  · have hblank := AttributeOperator.isBlank_of_mem_symbols hc
    refine ⟨ws, hws, ?_⟩
    rw [hsymbol, Text.trimEnd_concat hblank, splitOperator, List.getLast?_concat, Option.bind_some,
      hread, List.dropLast_concat]

/-- Reading an attribute test undoes writing it, for every value and every operator that takes one,
whatever blanks stand around the name, in front of the equals sign and around the quoted value. And
a text is refused exactly if the name is blank or only blanks follow the first equals sign. -/
theorem compile_undoes_writing :
    (∀ (name value : String) (op : AttributeOperator) (ws₁ ws₂ ws₃ ws₄ ws₅ : String),
      IsName name → op ≠ .exists →
      (∀ ws ∈ [ws₁, ws₂, ws₃, ws₄, ws₅], Text.isAllBlank ws.toList) →
      compile (ws₁ ++ name ++ ws₂ ++ op.symbol ++ ws₃ ++ "=" ++ ws₄ ++
        "\"" ++ value ++ "\"" ++ ws₅) = .ok ⟨name, op, value⟩) ∧
    ∀ (fragment : String) (err : SelectorError),
      compile fragment = .error err ↔ err = .invalidAttribute fragment ∧
        (Text.isAllBlank (namePart fragment.toList) ∨
          ∃ front back, fragment.toList = front ++ '=' :: back ∧ '=' ∉ front ∧
            Text.isAllBlank back) := by
  refine ⟨?_, fun fragment => compile_eq_error_iff⟩
  intro name value op ws₁ ws₂ ws₃ ws₄ ws₅ hname hop hblank
  obtain ⟨h₁, h₂, h₃, h₄, h₅⟩ : Text.isAllBlank ws₁.toList ∧ Text.isAllBlank ws₂.toList ∧
      Text.isAllBlank ws₃.toList ∧ Text.isAllBlank ws₄.toList ∧ Text.isAllBlank ws₅.toList := by
    simpa using hblank
  have hfree : ∀ ws : List Char, Text.isAllBlank ws → '=' ∉ ws :=
    fun ws hws => Text.notMem_of_isAllBlank hws (by decide)
  let front := ws₁.toList ++ name.toList ++ ws₂.toList ++ op.symbol.toList ++ ws₃.toList
  let back := ws₄.toList ++ ('"' :: value.toList ++ ['"'] ++ ws₅.toList)
  -- the equals sign that is written behind the operator is the first one
  have hfront : '=' ∉ front := by
    simp only [front, List.mem_append, not_or]
    exact ⟨⟨⟨⟨hfree _ h₁, hname.no_equals⟩, hfree _ h₂⟩, op.equals_notMem_symbol⟩, hfree _ h₃⟩
  have hcut : (ws₁ ++ name ++ ws₂ ++ op.symbol ++ ws₃ ++ "=" ++ ws₄ ++ "\"" ++ value ++ "\"" ++
      ws₅).toList = front ++ '=' :: back := by
    simp [front, back, String.toList_append]
  obtain ⟨blanks, hblanks, hsplit⟩ := splitOperator_written hname hop ws₁.toList h₂ h₃
  have hread : lessOperator (Text.trimEnd front) = ws₁.toList ++ name.toList ++ blanks := by
    rw [← splitOperator_fst, hsplit]
  have htrim : Text.trim (ws₁.toList ++ name.toList ++ blanks) = name.toList := by
    rw [Text.trim_append_of_blanks hblanks, Text.trim_append h₁, hname.trimmed]
  have hvalue : Text.trim back = '"' :: value.toList ++ ['"'] := by
    rw [Text.trim_append h₄, Text.trim_append_of_blanks h₅,
      Text.trim_delimited (by decide) (by decide)]
  have hfilled : ¬ (Text.isAllBlank (lessOperator (Text.trimEnd front)) ∨
      Text.isAllBlank back) := by
    rw [hread, ← Text.trim_eq_nil_iff, ← Text.trim_eq_nil_iff, htrim, hvalue, not_or]
    exact ⟨hname.nonempty, List.cons_ne_nil _ _⟩
  rw [compile_of_first hfront hcut, if_neg hfilled, hread, htrim, hvalue, hsplit, unquote_double,
    String.ofList_toList, String.ofList_toList]

/-- The name, the operator and a value that holds an equals sign and quotes are read back; without a
name in front of the operator the text is refused. -/
theorem compile_undoes_writing_suffix :
    compile " data-x \t $ = \"a=\"'b\" " = .ok ⟨"data-x", .endsWith, "a=\"'b"⟩ ∧
      compile "$=\"b\"" = .error (.invalidAttribute "$=\"b\"") := by
  obtain ⟨hwrite, hrefuse⟩ := compile_undoes_writing
  have hname : IsName "data-x" := by
    refine ⟨by decide, by decide, by decide, ?_⟩
    intro c hc
    obtain rfl : 'x' = c := Option.some.inj hc
    decide
  constructor
  · exact hwrite "data-x" "a=\"'b" .endsWith " " " \t " " " " " " " hname (by decide) (by decide)
  · exact (hrefuse _ _).2 ⟨rfl, .inl (by decide)⟩

end AttributeTest

end BoxFlow
