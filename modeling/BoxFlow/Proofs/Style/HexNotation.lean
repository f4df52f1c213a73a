import BoxFlow.Proofs.Text.Trimming
import BoxFlow.Style.ColorText

/-!
# Hexadecimal notation of colors

A hexadecimal notation is three, four, six or eight hexadecimal digits, with or without a hash in
front (`Color.IsHexNotation`). Every one of them stands for eight digits, two for each channel
(`Color.longForm`): those of a short one are doubled, and alpha is covering where it is left out.
Reading accepts nothing else, and gives the color that has these eight digits in base sixteen; what
is written for a color is read back as that color (`Color.hex_reads_exactly`).

Reading goes by the values of the digits. A digit and its value determine each other up to case
(`Text.exists_hexValue?`), and a byte is made of two digits and falls apart into them again
(`Color.digitPair_byteOf`, `Color.byteOf_div_mod`).
-/

set_option autoImplicit false

namespace BoxFlow

namespace Text

variable {c : Char} {cs : List Char} {vs : List ℕ}

/-- Whether a character is an ASCII hexadecimal digit, of either case. -/
def isHexDigit (c : Char) : Bool :=
  c.isDigit || ('a' ≤ c && c ≤ 'f') || ('A' ≤ c && c ≤ 'F')

theorem hexValue?_eq_none (h : isHexDigit c = false) : hexValue? c = none := by
  simp only [isHexDigit, Bool.or_eq_false_iff] at h
  obtain ⟨⟨hdigit, hlower⟩, hupper⟩ := h
  rw [hexValue?, hdigit, hlower, hupper]
  rfl

theorem toNat_lt_of_isHexDigit (h : isHexDigit c) : c.toNat < 128 := by
  simp only [isHexDigit, Char.isDigit, Bool.or_eq_true, Bool.and_eq_true, decide_eq_true_eq,
    Char.le_def, ge_iff_le, UInt32.le_iff_toNat_le] at h
  have hbound : c.val.toNat ≤ 'f'.val.toNat := by
    rcases h with (h | h) | h
    · exact h.2.trans (by decide)
    · exact h.2
    · exact h.2.trans (by decide)
  exact Nat.lt_of_le_of_lt hbound (by decide)

theorem exists_ascii (h : c.toNat < 128) : ∃ n < 128, Char.ofNat n = c :=
  ⟨c.toNat, h, Char.ofNat_toNat c⟩

theorem isBlank_of_isHexDigit (h : isHexDigit c) : isBlank c = false := by
  have htable : ∀ n < 128, isHexDigit (Char.ofNat n) → isBlank (Char.ofNat n) = false := by
    decide
  obtain ⟨n, hn, rfl⟩ := exists_ascii (toNat_lt_of_isHexDigit h)
  exact htable n hn h

/-- A hexadecimal digit has a value below sixteen, whose digit it is in lower case. -/
theorem exists_hexValue? (h : isHexDigit c) :
    ∃ v < 16, hexValue? c = some v ∧ v.digitChar = c.toLower := by
  have htable : ∀ n < 128, isHexDigit (Char.ofNat n) →
      ∃ v < 16, hexValue? (Char.ofNat n) = some v ∧ v.digitChar = (Char.ofNat n).toLower := by
    decide
  obtain ⟨n, hn, rfl⟩ := exists_ascii (toNat_lt_of_isHexDigit h)
  exact htable n hn h

/-- The digit of a value has that value. -/
theorem hexValue?_digitChar : ∀ v < 16, hexValue? v.digitChar = some v := by
  decide

/-- Digits have values, one for each. -/
theorem exists_mapM_hexValue? (h : ∀ c ∈ cs, isHexDigit c) :
    ∃ vs, cs.mapM hexValue? = some vs ∧ (∀ v ∈ vs, v < 16) ∧
      vs.map Nat.digitChar = cs.map Char.toLower := by
  induction cs with
  | nil => exact ⟨[], rfl, List.forall_mem_nil _, rfl⟩
  | cons c cs ih =>
    obtain ⟨v, hv, hvalue, hdigit⟩ := exists_hexValue? (h c List.mem_cons_self)
    obtain ⟨vs, hvs, hbound, hdigits⟩ := ih fun d hd => h d (List.mem_cons_of_mem c hd)
    refine ⟨v :: vs, ?_, List.forall_mem_cons.2 ⟨hv, hbound⟩, ?_⟩
    · rw [List.mapM_cons, hvalue, hvs]
      rfl
    · rw [List.map_cons, List.map_cons, hdigit, hdigits]

/-- Only digits have values. -/
theorem isHexDigit_of_mapM (h : cs.mapM hexValue? = some vs) : ∀ c ∈ cs, isHexDigit c := by
  induction cs generalizing vs with
  | nil => exact List.forall_mem_nil _
  | cons c cs ih =>
    rw [List.mapM_cons] at h
    obtain ⟨v, hv, h⟩ := Option.bind_eq_some_iff.1 h
    obtain ⟨vs', hvs, -⟩ := Option.bind_eq_some_iff.1 h
    refine List.forall_mem_cons.2 ⟨?_, ih hvs⟩
    by_contra hno
    rw [hexValue?_eq_none (Bool.eq_false_iff.2 hno)] at hv
    cases hv

theorem mapM_hexValue?_digitChar (h : ∀ v ∈ vs, v < 16) :
    (vs.map Nat.digitChar).mapM hexValue? = some vs := by
  induction vs with
  | nil => rfl
  | cons v vs ih =>
    obtain ⟨hv, hvs⟩ := List.forall_mem_cons.1 h
    rw [List.map_cons, List.mapM_cons, hexValue?_digitChar v hv, ih hvs]
    rfl

end Text

/-- The keywords are words: a text with another character than letters is none of them. -/
theorem ColorText.isInheritKeyword_eq_false {cs : List Char} {c : Char} (hc : c ∈ cs)
    (hletter : c.isAlpha = false) : isInheritKeyword (.ofList cs) = false := by
  have hletters : ["inherit", "currentColor", "currentcolor"].all
      (fun keyword => keyword.toList.all Char.isAlpha) = true := by
    decide
  by_contra hkeyword
  rw [Bool.not_eq_false] at hkeyword
  have hmem : String.ofList cs ∈ ["inherit", "currentColor", "currentcolor"] := by
    simpa [isInheritKeyword, or_assoc] using hkeyword
  have hword := List.all_eq_true.1 hletters _ hmem
  rw [String.toList_ofList] at hword
  exact Bool.false_ne_true (hletter.symm.trans (List.all_eq_true.1 hword c hc))

namespace Color

open Text (isHexDigit hexValue?)

variable {c : Color} {cs digits : List Char} {vs : List ℕ}

/-! ## Two digits for each channel -/

/-- A byte in base sixteen. -/
def digitPair (n : UInt8) : List Char := [(n.toNat / 16).digitChar, (n.toNat % 16).digitChar]

/-- All eight digits of a color. -/
def allDigits (c : Color) : List Char := [c.r, c.g, c.b, c.a].flatMap digitPair

/-- A byte is made of two digits. -/
theorem digitPair_byteOf {high low : ℕ} (hhigh : high < 16) (hlow : low < 16) :
    digitPair (byteOf high low) = [high.digitChar, low.digitChar] := by
  have hn : (byteOf high low).toNat = 16 * high + low :=
    UInt8.toNat_ofNat_of_lt' (show 16 * high + low < 256 by omega)
  have hdiv : (16 * high + low) / 16 = high := by omega
  have hmod : (16 * high + low) % 16 = low := by omega
  rw [digitPair, hn, hdiv, hmod]

theorem digitPair_covering : digitPair 255 = ['f', 'f'] := rfl

theorem byteOf_div_mod (n : UInt8) : byteOf (n.toNat / 16) (n.toNat % 16) = n := by
  rw [byteOf, Nat.div_add_mod, UInt8.ofNat_toNat]

/-- What is written for a byte is its two digits. -/
theorem byteDigits_eq (n : UInt8) : byteDigits n = digitPair n := by
  have htable : ∀ m < 256, Text.hexDigits 2 m = [(m / 16).digitChar, (m % 16).digitChar] := by
    decide +kernel
  exact htable n.toNat n.toNat_lt

/-- The two values of which a byte is made. -/
def nibbles (n : UInt8) : List ℕ := [n.toNat / 16, n.toNat % 16]

theorem nibbles_lt (n : UInt8) : ∀ v ∈ nibbles n, v < 16 := by
  have hn : n.toNat < 256 := n.toNat_lt
  simp only [nibbles, List.forall_mem_cons]
  exact ⟨by omega, by omega, List.forall_mem_nil _⟩

/-! ## The notations -/

/-- The eight digits that three, four, six or eight stand for. -/
def longForm (digits : List Char) : List Char :=
  let pairs := if digits.length ≤ 4 then digits.flatMap fun d => [d, d] else digits
  if pairs.length ≤ 6 then pairs ++ ['f', 'f'] else pairs

/-- A text is a hexadecimal notation with the given digits, behind a hash or on their own. -/
structure IsHexNotation (digits cs : List Char) : Prop where
  hash : cs = digits ∨ cs = '#' :: digits
  digit : ∀ d ∈ digits, isHexDigit d
  count : digits.length ∈ [3, 4, 6, 8]

/-- Behind the hash, if there is one, come the digits. -/
theorem IsHexNotation.dropLeading_eq (h : IsHexNotation digits cs) :
    Text.dropLeading '#' cs = digits := by
  obtain ⟨hhash | hhash, hdigit, -⟩ := h
  · rw [hhash]
    cases digits with
    | nil => rfl
    | cons d digits =>
      have hd : d ≠ '#' := by
        rintro rfl
        exact absurd (hdigit '#' List.mem_cons_self) (by decide)
      rw [Text.dropLeading, if_neg hd]
  · rw [hhash]
    rfl

theorem IsHexNotation.isBlank_eq_false {e : Char} (h : IsHexNotation digits cs) (he : e ∈ cs) :
    Text.isBlank e = false := by
  rcases h.hash with hhash | hhash
  · exact Text.isBlank_of_isHexDigit (h.digit e (hhash ▸ he))
  · rw [hhash] at he
    rcases List.mem_cons.1 he with rfl | he
    · decide
    · exact Text.isBlank_of_isHexDigit (h.digit e he)

theorem eq_or_eq_cons_dropLeading (cs : List Char) :
    cs = Text.dropLeading '#' cs ∨ cs = '#' :: Text.dropLeading '#' cs := by
  cases cs with
  | nil => exact Or.inl rfl
  | cons c cs =>
    rw [Text.dropLeading]
    split
    · next hc => exact Or.inr (by rw [hc])
    · exact Or.inl rfl

/-- There is a color for three, four, six or eight values and for no other number of them. -/
theorem isSome_ofHexDigits? : (ofHexDigits? vs).isSome ↔ vs.length ∈ [3, 4, 6, 8] := by
  unfold ofHexDigits?
  split
  case h_5 hthree hfour hsix height =>
    -- values that fit none of the patterns have none of their lengths
    refine iff_of_false Bool.false_ne_true ?_
    simp only [List.mem_cons, List.not_mem_nil, or_false, not_or]
    refine ⟨fun h => ?_, fun h => ?_, fun h => ?_, fun h => ?_⟩
    · match vs, h with
      | [r, g, b], _ => exact hthree r g b rfl
    · match vs, h with
      | [r, g, b, a], _ => exact hfour r g b a rfl
    · match vs, h with
      | [r, r', g, g', b, b'], _ => exact hsix r r' g g' b b' rfl
    · match vs, h with
      | [r, r', g, g', b, b', a, a'], _ => exact height r r' g g' b b' a a' rfl
  all_goals simp

/-- The eight digits of the color are the long form of those given. -/
theorem allDigits_of_ofHexDigits? (hbound : ∀ v ∈ vs, v < 16) (h : ofHexDigits? vs = some c) :
    c.allDigits = longForm (vs.map Nat.digitChar) := by
  unfold ofHexDigits? at h
  split at h
  case h_5 => cases h
  all_goals
    obtain rfl := Option.some.inj h
    simp only [List.forall_mem_cons] at hbound
    simp [allDigits, longForm, digitPair_byteOf, digitPair_covering, hbound]

/-! ## Reading and writing -/

/-- As many values are read as there are digits. -/
theorem length_eq_of_mapM (h : cs.mapM hexValue? = some vs) : vs.length = cs.length := by
  obtain ⟨vs', hvs, -, hdigits⟩ := Text.exists_mapM_hexValue? (Text.isHexDigit_of_mapM h)
  obtain rfl : vs' = vs := Option.some.inj (hvs.symm.trans h)
  simpa using congrArg List.length hdigits

theorem isSome_ofHex? : (ofHex? cs).isSome ↔ ∃ digits, IsHexNotation digits cs := by
  constructor
  · intro h
    obtain ⟨c, hc⟩ := Option.isSome_iff_exists.1 h
    obtain ⟨vs, hvs, hread⟩ := Option.bind_eq_some_iff.1 hc
    refine ⟨Text.dropLeading '#' cs, eq_or_eq_cons_dropLeading cs, Text.isHexDigit_of_mapM hvs, ?_⟩
    rw [← length_eq_of_mapM hvs]
    exact isSome_ofHexDigits?.1 (Option.isSome_of_eq_some hread)
  · rintro ⟨digits, h⟩
    obtain ⟨vs, hvs, -, -⟩ := Text.exists_mapM_hexValue? h.digit
    rw [ofHex?, h.dropLeading_eq, hvs]
    refine isSome_ofHexDigits?.2 ?_
    rw [length_eq_of_mapM hvs]
    exact h.count

/-- The color of a notation has the long form of its digits, in lower case. -/
theorem allDigits_of_ofHex? (h : IsHexNotation digits cs) (hread : ofHex? cs = some c) :
    c.allDigits = longForm (digits.map Char.toLower) := by
  obtain ⟨vs, hvs, hbound, hdigits⟩ := Text.exists_mapM_hexValue? h.digit
  rw [ofHex?, h.dropLeading_eq, hvs] at hread
  rw [← hdigits]
  exact allDigits_of_ofHexDigits? hbound hread

/-- What is read of bytes that are written with two digits each goes by the values of these. -/
theorem ofHex?_bytes (ns : List UInt8) :
    ofHex? ('#' :: ns.flatMap digitPair) = ofHexDigits? (ns.flatMap nibbles) := by
  have hbound : ∀ v ∈ ns.flatMap nibbles, v < 16 := by
    intro v hv
    obtain ⟨n, -, hv⟩ := List.mem_flatMap.1 hv
    exact nibbles_lt n v hv
  have hdigits : ns.flatMap digitPair = (ns.flatMap nibbles).map Nat.digitChar := by
    rw [List.map_flatMap]
    rfl
  rw [hdigits, ofHex?, Text.dropLeading, if_pos rfl, Text.mapM_hexValue?_digitChar hbound]
  rfl

theorem ofHex?_covering (r g b : UInt8) :
    ofHex? ('#' :: [r, g, b].flatMap digitPair) = some ⟨r, g, b, 255⟩ := by
  rw [ofHex?_bytes]
  simp only [List.flatMap_cons, List.flatMap_nil, nibbles, List.cons_append, List.nil_append,
    ofHexDigits?, byteOf_div_mod]

/-- All eight digits of a color, behind a hash, are read as that color. -/
theorem ofHex?_allDigits (c : Color) : ofHex? ('#' :: c.allDigits) = some c := by
  rw [allDigits, ofHex?_bytes]
  simp only [List.flatMap_cons, List.flatMap_nil, nibbles, List.cons_append, List.nil_append,
    ofHexDigits?, byteOf_div_mod]

theorem allDigits_injective : Function.Injective allDigits := by
  intro c d h
  refine Option.some.inj ?_
  rw [← ofHex?_allDigits c, h, ofHex?_allDigits d]

/-- What is written for a color has the two digits of each channel, but not those of a covering
alpha. -/
theorem toHex_eq (c : Color) :
    c.toHex = '#' :: (if c.a = 255 then [c.r, c.g, c.b] else [c.r, c.g, c.b, c.a]).flatMap
      digitPair := by
  rw [toHex, byteDigits_eq, byteDigits_eq, byteDigits_eq, byteDigits_eq]
  split
  · rfl
  · rfl

theorem ofHex?_toHex (c : Color) : ofHex? c.toHex = some c := by
  rw [toHex_eq]
  split
  · next halpha => rw [ofHex?_covering, ← halpha]
  · exact ofHex?_allDigits c

/-- Of a notation with a hash, the value of a property reads just that. -/
theorem read?_eq_ofHex? (h : IsHexNotation digits ('#' :: cs)) :
    ColorText.read? (.ofList ('#' :: cs)) = (ofHex? ('#' :: cs)).map .color := by
  have htrim : Text.trim ('#' :: cs) = '#' :: cs :=
    Text.trim_eq_self_of_no_blank fun c hc => h.isBlank_eq_false hc
  have hkeyword : ColorText.isInheritKeyword (.ofList ('#' :: cs)) = false :=
    ColorText.isInheritKeyword_eq_false List.mem_cons_self (by decide)
  rw [ColorText.read?, String.toList_ofList, htrim, hkeyword, if_neg Bool.false_ne_true,
    ColorText.concrete?, List.head?_cons, if_pos rfl]

/-- A text is read if and only if it is a hexadecimal notation, and the color then has the long form
of its digits for its own; what is written for a color is read back as that color. -/
theorem hex_reads_exactly :
    (∀ cs, (ofHex? cs).isSome ↔ ∃ digits, IsHexNotation digits cs) ∧
      (∀ digits cs, IsHexNotation digits cs → ∀ c,
        ofHex? cs = some c ↔ c.allDigits = longForm (digits.map Char.toLower)) ∧
      ∀ c : Color, ofHex? c.toHex = some c ∧
        ColorText.read? (.ofList c.toHex) = some (.color c) := by
  refine ⟨fun cs => isSome_ofHex?, fun digits cs h c => ?_, fun c => ⟨ofHex?_toHex c, ?_⟩⟩
  · refine ⟨allDigits_of_ofHex? h, fun hdigits => ?_⟩
    -- some color is read, and its eight digits are those of `c`
    obtain ⟨d, hd⟩ := Option.isSome_iff_exists.1 (isSome_ofHex?.2 ⟨digits, h⟩)
    rw [hd, allDigits_injective (hdigits.trans (allDigits_of_ofHex? h hd).symm)]
  · obtain ⟨digits, h⟩ := isSome_ofHex?.1 (Option.isSome_of_eq_some (ofHex?_toHex c))
    have hread := ofHex?_toHex c
    rw [toHex_eq] at h hread ⊢
    rw [read?_eq_ofHex? h, hread]
    rfl

/-- A short notation with alpha, in letters of both cases. -/
example : ofHex? "#0Fa8".toList = some ⟨0, 255, 170, 136⟩ := by
  decide

end Color

end BoxFlow
