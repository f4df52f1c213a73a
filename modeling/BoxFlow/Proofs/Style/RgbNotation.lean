import BoxFlow.Proofs.Selector.AttributeText
import BoxFlow.Proofs.Style.HexNotation
import BoxFlow.Proofs.Text.Ink
import BoxFlow.Proofs.Text.Numerals
import BoxFlow.Proofs.Text.Words

/-!
# Whole numbers in the notation of red, green and blue

A call `rgb(a,b,c)` without percent signs stands for the color of three whole numbers, each of them
moved into a byte (`ColorText.IsRgb`). As the notation is described, an argument is a numeral with
blanks around it, and its number may be of any size (`ColorText.ReadsTrimmed`). What is read differs
from this at both ends: blanks are left out before the text is cut, so that they may also stand
within a numeral, and the numbers have to fit in 64 bits before they are moved
(`ColorText.ReadsCompact`). Which calls the two agree on is `ColorText.rgb_read_iff`.

Leaving out the blanks first makes no difference to where the text is cut (`Text.map_ink_pieces`),
and since neither a comma nor a parenthesis stands in a numeral, a text is such a call in one way
only (`ColorText.rgbCall_unique`).
-/

set_option autoImplicit false

namespace BoxFlow

namespace Text

variable {cs ds a b d : List Char} {sep c : Char}

/-! ## Lower case -/

theorem toNat_lt_of_isAlpha (h : c.isAlpha) : c.toNat < 128 := by
  delta Char.isAlpha Char.isUpper Char.isLower at h
  simp only [Bool.or_eq_true, Bool.and_eq_true, decide_eq_true_eq, Bool.decide_and, ge_iff_le,
    UInt32.le_iff_toNat_le] at h
  have hbound : c.val.toNat ≤ 'z'.val.toNat := by
    rcases h with h | h
    · exact h.2.trans (by decide)
    · exact h.2
  exact Nat.lt_of_le_of_lt hbound (by decide)

theorem isBlank_of_isAlpha (h : c.isAlpha) : isBlank c = false := by
  have htable : ∀ n < 128, (Char.ofNat n).isAlpha → isBlank (Char.ofNat n) = false := by
    decide
  obtain ⟨n, hn, rfl⟩ := exists_ascii (toNat_lt_of_isAlpha h)
  exact htable n hn h

/-- Only letters change in lower case, and they stay letters. -/
theorem toLower_cases (c : Char) : c.toLower = c ∨ c.isAlpha ∧ c.toLower.isAlpha := by
  by_cases hletter : c.isAlpha
  · have htable : ∀ n < 128, (Char.ofNat n).isAlpha → (Char.ofNat n).toLower.isAlpha := by
      decide
    obtain ⟨n, hn, rfl⟩ := exists_ascii (toNat_lt_of_isAlpha hletter)
    exact Or.inr ⟨hletter, htable n hn hletter⟩
  · left
    delta Char.toLower
    rw [dif_neg]
    intro hupper
    exact hletter (Bool.or_eq_true_iff.2 (.inl (decide_eq_true hupper)))

/-- Letters apart, a character comes from itself only. -/
theorem toLower_eq_iff (hletter : c.isAlpha = false) {d : Char} : d.toLower = c ↔ d = c := by
  rcases toLower_cases d with hd | ⟨hd, hd'⟩
  · rw [hd]
  · refine iff_of_false ?_ ?_
    · rintro rfl
      exact Bool.false_ne_true (hletter.symm.trans hd')
    · rintro rfl
      exact Bool.false_ne_true (hletter.symm.trans hd)

theorem isBlank_toLower (c : Char) : isBlank c.toLower = isBlank c := by
  rcases toLower_cases c with hc | ⟨hc, hc'⟩
  · rw [hc]
  · rw [isBlank_of_isAlpha hc, isBlank_of_isAlpha hc']

theorem mem_map_toLower_iff (hletter : c.isAlpha = false) : c ∈ cs.map Char.toLower ↔ c ∈ cs := by
  simp only [List.mem_map, toLower_eq_iff hletter, exists_eq_right]

theorem ink_map_toLower (cs : List Char) :
    ink (cs.map Char.toLower) = (ink cs).map Char.toLower := by
  rw [ink, ink, List.filter_map]
  simp only [Function.comp_def, isBlank_toLower]

theorem trim_map_toLower (cs : List Char) :
    trim (cs.map Char.toLower) = (trim cs).map Char.toLower := by
  have hblank : isBlank ∘ Char.toLower = isBlank := funext isBlank_toLower
  rw [trim, trimEnd, trimStart, trim, trimEnd, trimStart, List.dropWhile_map, hblank,
    ← List.map_reverse, List.dropWhile_map, hblank, ← List.map_reverse]

theorem isBlank_of_isNumeral {n : ℤ} (h : IsNumeral cs n) (hc : c ∈ cs) : isBlank c = false := by
  rcases h.mem_cases hc with hdigit | rfl | rfl
  · refine isBlank_of_isHexDigit ?_
    rw [isHexDigit, hdigit]
    rfl
  · decide
  · decide

/-! ## Pieces -/

/-- Leaving out the blanks does not change where a text is cut. -/
theorem map_ink_pieces (hsep : isBlank sep = false) (cs : List Char) :
    (pieces sep cs).map ink = pieces sep (ink cs) := by
  induction cs with
  | nil => rfl
  | cons c cs ih =>
    obtain ⟨first, rest, hcut⟩ := List.exists_cons_of_ne_nil (List.splitOnP_ne_nil (· == sep) cs)
    rw [pieces] at ih
    rw [pieces, List.splitOnP_cons_eq_if_modifyHead]
    by_cases hc : c = sep
    · rw [hc, if_pos BEq.rfl, List.map_cons, ih, ink_cons_solid hsep, pieces, pieces,
        List.splitOnP_cons_eq_if_modifyHead, if_pos BEq.rfl, ink_nil]
    -- the character goes in front of the first piece, unless it is blank
    · have hgoes : ¬ (c == sep) = true := by simpa using hc
      rw [hcut, List.map_cons] at ih
      rw [hcut, if_neg hgoes, List.modifyHead_cons, List.map_cons]
      cases hblank : isBlank c with
      | true => rw [ink_cons_blank hblank, ink_cons_blank hblank, ih]
      | false =>
        rw [ink_cons_solid hblank, ink_cons_solid hblank, pieces,
          List.splitOnP_cons_eq_if_modifyHead, if_neg hgoes, ← pieces, ← ih, List.modifyHead_cons]

/-- Three pieces are what stands in front of, between and behind two separators. -/
theorem pieces_eq_three_iff :
    pieces sep cs = [a, b, d] ↔
      cs = a ++ sep :: (b ++ sep :: d) ∧ sep ∉ a ∧ sep ∉ b ∧ sep ∉ d := by
  have hjoin : [sep].intercalate [a, b, d] = a ++ sep :: (b ++ sep :: d) := by simp
  rw [pieces_eq_iff (List.cons_ne_nil _ _), hjoin, @eq_comm _ _ cs]
  simp

end Text

/-- The names of colors are words. -/
theorem Color.named?_eq_none {cs : List Char} (h : '(' ∈ cs) : named? (.ofList cs) = none := by
  have hnames : ∀ entry ∈ namedColors, '(' ∉ entry.1.toList := by
    decide +kernel
  have hkey : '(' ∈ (Text.lowercase (.ofList cs)).toList := by
    rw [Text.lowercase, String.toList_ofList, String.toList_ofList,
      Text.mem_map_toLower_iff (by decide)]
    exact h
  have htransparent : Text.lowercase (.ofList cs) ≠ "transparent" := by
    intro heq
    rw [heq] at hkey
    exact absurd hkey (by decide)
  have hfind : namedColors.find? (fun entry => entry.1 == Text.lowercase (.ofList cs)) = none := by
    refine List.find?_eq_none.2 ?_
    intro entry hentry heq
    rw [← eq_of_beq heq] at hkey
    exact hnames entry hentry hkey
  rw [named?]
  simp only [if_neg htransparent, hfind, Option.map_none]

namespace ColorText

open Text (ink trim isInt64 IsNumeral)

variable {value : String} {cs rest : List Char} {color : Color}

/-! ## What the notation says -/

/-- The text that counts: without the blanks around it and in lower case. -/
def lowered (value : String) : List Char := (trim value.toList).map Char.toLower

/-- The notation with its three arguments. -/
def rgbCall (a b c : List Char) : List Char :=
  "rgb(".toList ++ (a ++ ',' :: (b ++ ',' :: c) ++ [')'])

/-- The byte nearest to a whole number. -/
def clampedByte (n : ℤ) : UInt8 := .ofNat (max 0 (min 255 n)).toNat

/-- The color of three whole numbers. -/
def rgbOf (x y z : ℤ) : Color := ⟨clampedByte x, clampedByte y, clampedByte z, 255⟩

/-- A text stands for a color, where arguments stand for numbers as given. -/
def IsRgb (reads : List Char → ℤ → Prop) (text : List Char) (color : Color) : Prop :=
  ∃ a b c x y z, text = rgbCall a b c ∧ reads a x ∧ reads b y ∧ reads c z ∧ color = rgbOf x y z

/-- An argument is a numeral with blanks around it. -/
def ReadsTrimmed (a : List Char) (n : ℤ) : Prop := IsNumeral (trim a) n

/-- An argument is a numeral with blanks anywhere, and its number fits in 64 bits. -/
def ReadsCompact (a : List Char) (n : ℤ) : Prop := IsNumeral (ink a) n ∧ isInt64 n

/-! ## What is read -/

theorem functional?_rgb_iff (h : cs.map Char.toLower = "rgb(".toList ++ rest) :
    functional? cs = some color ↔
      ∃ body, ink rest = body ++ [')'] ∧
        function? "rgb".toList (Text.pieces ',' body) = some color := by
  have hcompact : (cs.filter fun c => !Text.isBlank c).map Char.toLower =
      "rgb(".toList ++ ink rest := by
    show (ink cs).map Char.toLower = _
    rw [← Text.ink_map_toLower, h, Text.ink_append]
    rfl
  have hcut : ∀ body, Text.cutAt? '(' ("rgb(".toList ++ body) = some ("rgb".toList, body) :=
    Text.cutAt?_append_cons (by decide : '(' ∉ "rgb".toList)
  rw [functional?, hcompact]
  constructor
  · intro hread
    obtain ⟨call, hcall, hread⟩ := Option.bind_eq_some_iff.1 hread
    rw [List.isSuffixOf?_eq_some_iff_append_eq] at hcall
    rcases List.eq_nil_or_concat (ink rest) with hnil | ⟨body, last, hbody⟩
    -- the parenthesis that opens the call does not close it
    · have hlast := congrArg List.getLast? hcall
      rw [hnil, List.append_nil, List.getLast?_concat] at hlast
      exact absurd hlast (by decide)
    · rw [List.concat_eq_append] at hbody
      rw [hbody, ← List.append_assoc] at hcall
      obtain ⟨rfl, hlast⟩ := List.append_inj' hcall rfl
      rw [hcut] at hread
      exact ⟨body, by rw [hbody, ← hlast], hread⟩
  · rintro ⟨body, hbody, hread⟩
    have hsuffix : [')'].isSuffixOf? ("rgb(".toList ++ ink rest) =
        some ("rgb(".toList ++ body) := by
      rw [List.isSuffixOf?_eq_some_iff_append_eq, hbody, List.append_assoc]
    exact Option.bind_eq_some_iff.2 ⟨_, hsuffix, Option.bind_eq_some_iff.2 ⟨_, hcut body, hread⟩⟩

/-- A call is neither a keyword nor a hexadecimal notation nor a name. -/
theorem read?_eq_functional? (h : lowered value = "rgb(".toList ++ rest) :
    read? value = (functional? (trim value.toList)).map .color := by
  have hparen : '(' ∈ trim value.toList := by
    rw [← Text.mem_map_toLower_iff (by decide), ← lowered, h]
    exact List.mem_append_left rest (by decide)
  have hhash : ¬ (trim value.toList).head? = some '#' := by
    intro hhead
    have hmapped := congrArg List.head? h
    rw [lowered, List.head?_map, hhead] at hmapped
    exact absurd hmapped (by simp)
  rw [read?, isInheritKeyword_eq_false hparen (by decide), if_neg Bool.false_ne_true, concrete?,
    if_neg hhash, Color.named?_eq_none hparen]

theorem function?_rgb_iff {arguments : List (List Char)} :
    function? "rgb".toList arguments = some color ↔
      ∃ x y z, arguments = [x, y, z] ∧ rgb? x y z = some color := by
  constructor
  · intro h
    unfold function? at h
    split at h
    · next x y z => exact ⟨x, y, z, rfl, h⟩
    · exact absurd h (by simp)
    · exact absurd h (by simp)
  · rintro ⟨x, y, z, rfl, h⟩
    exact h

/-- Without percent signs, each channel is a whole number that fits in 64 bits. -/
theorem rgb?_eq_some_iff {x y z : List Char} (h : ∀ cs ∈ [x, y, z], '%' ∉ cs) :
    rgb? x y z = some color ↔
      ∃ l m n, Text.readInt64? x = some l ∧ Text.readInt64? y = some m ∧
        Text.readInt64? z = some n ∧ color = rgbOf l m n := by
  have hnone : [x, y, z].filter (fun cs => cs.getLast? == some '%') = [] := by
    refine List.filter_eq_nil_iff.2 ?_
    intro cs hcs hlast
    exact h cs hcs (List.mem_of_getLast? (eq_of_beq hlast))
  have hread : rgb? x y z = (Text.readInt64? x).bind fun l => (Text.readInt64? y).bind fun m =>
      (Text.readInt64? z).bind fun n => some (rgbOf l m n) := by
    simp only [rgb?, hnone, List.length_nil, OfNat.zero_ne_ofNat, if_false, true_or, if_true]
    unfold wholeChannel?
    cases Text.readInt64? x
    · rfl
    cases Text.readInt64? y
    · rfl
    cases Text.readInt64? z
    · rfl
    · rfl
  rw [hread]
  simp only [Option.bind_eq_some_iff, Option.some.injEq, exists_and_left, @eq_comm _ _ color]

theorem trim_lowered (value : String) : trim (lowered value) = lowered value := by
  rw [lowered, Text.trim_map_toLower, Text.trim_trim]

/-- No blank stands behind a call, so where its ink ends with a parenthesis the call does. -/
theorem exists_closed {body : List Char} (hcall : lowered value = "rgb(".toList ++ rest)
    (hbody : ink rest = body ++ [')']) : ∃ args, rest = args ++ [')'] ∧ ink args = body := by
  rcases List.eq_nil_or_concat rest with rfl | ⟨args, last, rfl⟩
  · exact absurd hbody (by simp)
  · have hne : lowered value ≠ [] := by
      rw [hcall]
      exact List.append_ne_nil_of_left_ne_nil (by decide) _
    have hsolid : Text.isBlank last = false := by
      have hlast := Text.isBlank_getLast_of_trim (trim_lowered value) hne
      simpa [hcall] using hlast
    rw [List.concat_eq_append] at hbody ⊢
    rw [Text.ink_append, Text.ink_cons_solid hsolid, Text.ink_nil] at hbody
    obtain ⟨hargs, hlast⟩ := List.append_inj' hbody rfl
    exact ⟨args, by rw [hlast], hargs⟩

theorem notMem_lowered {c : Char} (hletter : c.isAlpha = false) (h : c ∉ value.toList) :
    c ∉ lowered value := by
  obtain ⟨front, back, -, -, heq⟩ := Text.exists_trim_eq value.toList
  rw [lowered, Text.mem_map_toLower_iff hletter]
  intro hmem
  rw [heq] at h
  exact h (List.mem_append_left back (List.mem_append_right front hmem))

/-- A numeral holds no comma, also with blanks in between. -/
theorem comma_notMem {a : List Char} {n : ℤ} (h : IsNumeral (ink a) n) : ',' ∉ a := by
  intro hmem
  have hink : ',' ∈ ink a := List.mem_filter.2 ⟨hmem, by decide⟩
  exact absurd (h.mem_cases hink) (by decide)

/-- Without percent signs, a call stands for a color where it is read as one: arguments are numerals
with blanks anywhere, and their numbers fit in 64 bits. -/
theorem read?_rgb_iff (hcall : lowered value = "rgb(".toList ++ rest)
    (hpercent : '%' ∉ value.toList) :
    read? value = some (.color color) ↔ IsRgb ReadsCompact (lowered value) color := by
  have hfree : ∀ a b c : List Char, rest = a ++ ',' :: (b ++ ',' :: c) ++ [')'] →
      ∀ cs ∈ [ink a, ink b, ink c], '%' ∉ cs := by
    intro a b c hrest
    have hlowered := notMem_lowered (by decide) hpercent
    rw [hcall, hrest] at hlowered
    simp only [List.mem_append, List.mem_cons, not_or] at hlowered
    simp only [List.forall_mem_cons, ink, List.mem_filter]
    simp [hlowered]
  rw [read?_eq_functional? hcall, Option.map_eq_some_iff]
  simp only [ColorText.color.injEq, exists_eq_right, functional?_rgb_iff hcall, function?_rgb_iff]
  constructor
  · rintro ⟨body, hbody, x, y, z, hpieces, hread⟩
    obtain ⟨args, hrest, rfl⟩ := exists_closed hcall hbody
    rw [← Text.map_ink_pieces (by decide)] at hpieces
    simp only [List.map_eq_cons_iff, List.map_eq_nil_iff] at hpieces
    obtain ⟨a, _, hcut, rfl, b, _, rfl, rfl, c, _, rfl, rfl, rfl⟩ := hpieces
    obtain ⟨rfl, -⟩ := Text.pieces_eq_three_iff.1 hcut
    obtain ⟨l, m, n, hl, hm, hn, rfl⟩ := (rgb?_eq_some_iff (hfree a b c hrest)).1 hread
    exact ⟨a, b, c, l, m, n, by rw [hcall, hrest]; rfl, Text.readInt64?_eq_some_iff.1 hl,
      Text.readInt64?_eq_some_iff.1 hm, Text.readInt64?_eq_some_iff.1 hn, rfl⟩
  · rintro ⟨a, b, c, x, y, z, htext, ha, hb, hc, rfl⟩
    have hrest : rest = a ++ ',' :: (b ++ ',' :: c) ++ [')'] :=
      List.append_cancel_left (hcall.symm.trans htext)
    refine ⟨ink (a ++ ',' :: (b ++ ',' :: c)), ?_, ink a, ink b, ink c, ?_, ?_⟩
    · rw [hrest, Text.ink_append _ [')']]
      rfl
    · have hcut := Text.pieces_eq_three_iff.2
        ⟨rfl, comma_notMem ha.1, comma_notMem hb.1, comma_notMem hc.1⟩
      rw [← Text.map_ink_pieces (by decide), hcut]
      rfl
    · exact (rgb?_eq_some_iff (hfree a b c hrest)).2 ⟨x, y, z, Text.readInt64?_eq_some_iff.2 ha,
        Text.readInt64?_eq_some_iff.2 hb, Text.readInt64?_eq_some_iff.2 hc, rfl⟩

/-! ## Numerals with blanks around them only -/

/-- No blank stands in a numeral. -/
theorem readsTrimmed_iff {a : List Char} {n : ℤ} :
    ReadsTrimmed a n ↔ IsNumeral (ink a) n ∧ trim a = ink a := by
  constructor
  · intro h
    have hsolid : ink (trim a) = trim a := by
      refine List.filter_eq_self.2 ?_
      intro c hc
      rw [Text.isBlank_of_isNumeral h hc]
      rfl
    rw [Text.ink_trim] at hsolid
    exact ⟨by rw [hsolid]; exact h, hsolid.symm⟩
  · rintro ⟨h, htrim⟩
    rw [ReadsTrimmed, htrim]
    exact h

/-- A text is a call in one way only. -/
theorem rgbCall_unique {a b c a' b' c' : List Char} {x y z x' y' z' : ℤ}
    (h : rgbCall a b c = rgbCall a' b' c') (ha : IsNumeral (ink a) x) (hb : IsNumeral (ink b) y)
    (hc : IsNumeral (ink c) z) (ha' : IsNumeral (ink a') x') (hb' : IsNumeral (ink b') y')
    (hc' : IsNumeral (ink c') z') :
    (a = a' ∧ b = b' ∧ c = c') ∧ x = x' ∧ y = y' ∧ z = z' := by
  have hargs : a ++ ',' :: (b ++ ',' :: c) = a' ++ ',' :: (b' ++ ',' :: c') :=
    List.append_cancel_right (List.append_cancel_left h)
  obtain ⟨rfl, hbc⟩ := Text.first_unique (comma_notMem ha) (comma_notMem ha') hargs
  obtain ⟨rfl, rfl⟩ := Text.first_unique (comma_notMem hb) (comma_notMem hb') hbc
  exact ⟨⟨rfl, rfl, rfl⟩, ha.unique ha', hb.unique hb', hc.unique hc'⟩

/-- A call whose arguments are numerals up to blanks stands for the color of their numbers if its
arguments count as these numbers. -/
theorem isRgb_rgbOf_iff {reads p : List Char → ℤ → Prop} {text a b c : List Char} {x y z : ℤ}
    (hreads : ∀ a n, reads a n ↔ IsNumeral (ink a) n ∧ p a n) (htext : text = rgbCall a b c)
    (ha : IsNumeral (ink a) x) (hb : IsNumeral (ink b) y) (hc : IsNumeral (ink c) z) :
    IsRgb reads text (rgbOf x y z) ↔ p a x ∧ p b y ∧ p c z := by
  constructor
  · rintro ⟨a', b', c', x', y', z', htext', ha', hb', hc', -⟩
    obtain ⟨ha', hpa⟩ := (hreads a' x').1 ha'
    obtain ⟨hb', hpb⟩ := (hreads b' y').1 hb'
    obtain ⟨hc', hpc⟩ := (hreads c' z').1 hc'
    obtain ⟨⟨rfl, rfl, rfl⟩, rfl, rfl, rfl⟩ :=
      rgbCall_unique (htext.symm.trans htext') ha hb hc ha' hb' hc'
    exact ⟨hpa, hpb, hpc⟩
  · rintro ⟨hpa, hpb, hpc⟩
    exact ⟨a, b, c, x, y, z, htext, (hreads a x).2 ⟨ha, hpa⟩, (hreads b y).2 ⟨hb, hpb⟩,
      (hreads c z).2 ⟨hc, hpc⟩, rfl⟩

/-- Without percent signs, a call stands for a color where its arguments are numerals with blanks
anywhere and their numbers fit in 64 bits. That numerals have blanks only around them and any
number counts comes to the same just for those texts whose numbers all fit if and only if no blank
stands within a numeral. -/
theorem rgb_read_iff {value : String} {rest : List Char}
    (hcall : lowered value = "rgb(".toList ++ rest) (hpercent : '%' ∉ value.toList) :
    (∀ color, read? value = some (.color color) ↔ IsRgb ReadsCompact (lowered value) color) ∧
      ((∀ color, read? value = some (.color color) ↔ IsRgb ReadsTrimmed (lowered value) color) ↔
        ∀ a b c x y z, lowered value = rgbCall a b c →
          IsNumeral (ink a) x → IsNumeral (ink b) y → IsNumeral (ink c) z →
            ((isInt64 x ∧ isInt64 y ∧ isInt64 z) ↔
              (trim a = ink a ∧ trim b = ink b ∧ trim c = ink c))) := by
  refine ⟨fun color => read?_rgb_iff hcall hpercent, ?_⟩
  simp only [read?_rgb_iff hcall hpercent]
  constructor
  · intro h a b c x y z htext ha hb hc
    have hcompact := isRgb_rgbOf_iff (fun a n => Iff.rfl (a := ReadsCompact a n)) htext ha hb hc
    have htrimmed := isRgb_rgbOf_iff (fun a n => readsTrimmed_iff) htext ha hb hc
    rw [← hcompact, ← htrimmed]
    exact h (rgbOf x y z)
  · intro h color
    constructor
    · rintro ⟨a, b, c, x, y, z, htext, ⟨ha, hx⟩, ⟨hb, hy⟩, ⟨hc, hz⟩, rfl⟩
      obtain ⟨hta, htb, htc⟩ := (h a b c x y z htext ha hb hc).1 ⟨hx, hy, hz⟩
      exact ⟨a, b, c, x, y, z, htext, readsTrimmed_iff.2 ⟨ha, hta⟩, readsTrimmed_iff.2 ⟨hb, htb⟩,
        readsTrimmed_iff.2 ⟨hc, htc⟩, rfl⟩
    · rintro ⟨a, b, c, x, y, z, htext, ha, hb, hc, rfl⟩
      obtain ⟨ha, hta⟩ := readsTrimmed_iff.1 ha
      obtain ⟨hb, htb⟩ := readsTrimmed_iff.1 hb
      obtain ⟨hc, htc⟩ := readsTrimmed_iff.1 hc
      obtain ⟨hx, hy, hz⟩ := (h a b c x y z htext ha hb hc).2 ⟨hta, htb, htc⟩
      exact ⟨a, b, c, x, y, z, htext, ⟨ha, hx⟩, ⟨hb, hy⟩, ⟨hc, hz⟩, rfl⟩

/-- A call with blanks behind its commas, where both readings give one color. -/
theorem rgb_read_spaced :
    lowered " RGB(1, 2,300)" = "rgb(".toList ++ "1, 2,300)".toList ∧
      read? " RGB(1, 2,300)" = some (.color ⟨1, 2, 255, 255⟩) := by
  have hcall : lowered " RGB(1, 2,300)" = "rgb(".toList ++ "1, 2,300)".toList := by decide
  refine ⟨hcall, ((rgb_read_iff hcall (by decide)).1 _).2 ?_⟩
  refine ⟨['1'], [' ', '2'], ['3', '0', '0'], 1, 2, 300, by decide, ?_, ?_, ?_, by decide⟩
  all_goals exact Text.readInt64?_eq_some_iff.1 (by decide)

/-- A blank within a numeral is overlooked, and a number that does not fit is refused. -/
theorem rgb_blank_within_and_number_too_large :
    (read? "rgb(1 2,3,4)" = some (.color ⟨12, 3, 4, 255⟩) ∧
        ¬ ∃ color, IsRgb ReadsTrimmed (lowered "rgb(1 2,3,4)") color) ∧
      read? "rgb(9223372036854775808,0,0)" = none ∧
        IsRgb ReadsTrimmed (lowered "rgb(9223372036854775808,0,0)") ⟨255, 0, 0, 255⟩ := by
  have htwelve : IsNumeral (ink ['1', ' ', '2']) 12 := Text.readSigned?_eq_some_iff.1 (by decide)
  have hthree : IsNumeral (ink ['3']) 3 := Text.readSigned?_eq_some_iff.1 (by decide)
  have hfour : IsNumeral (ink ['4']) 4 := Text.readSigned?_eq_some_iff.1 (by decide)
  have hcall : lowered "rgb(1 2,3,4)" = rgbCall ['1', ' ', '2'] ['3'] ['4'] := by decide
  refine ⟨⟨?_, ?_⟩, ?_, ?_⟩
  · refine (read?_rgb_iff hcall (by decide)).2 ?_
    exact ⟨_, _, _, 12, 3, 4, hcall, ⟨htwelve, by decide⟩, ⟨hthree, by decide⟩,
      ⟨hfour, by decide⟩, by decide⟩
  · rintro ⟨color, a, b, c, x, y, z, htext, ha, hb, hc, -⟩
    obtain ⟨ha, htrim⟩ := readsTrimmed_iff.1 ha
    obtain ⟨⟨rfl, -⟩, -⟩ := rgbCall_unique (hcall.symm.trans htext) htwelve hthree hfour ha
      (readsTrimmed_iff.1 hb).1 (readsTrimmed_iff.1 hc).1
    exact absurd htrim (by decide)
  · decide +kernel
  · have hzero : ReadsTrimmed ['0'] 0 := Text.readSigned?_eq_some_iff.1 (by decide)
    have hlarge : ReadsTrimmed "9223372036854775808".toList 9223372036854775808 :=
      Text.readSigned?_eq_some_iff.1 (by decide)
    exact ⟨_, _, _, _, _, _, by decide, hlarge, hzero, hzero, by decide⟩

end ColorText

end BoxFlow
