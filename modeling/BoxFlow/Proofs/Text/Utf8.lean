import BoxFlow.Selector.Cursor
import Mathlib.Data.List.TakeWhile

/-!
# Bytes of texts

A text in UTF-8 is a list of bytes: one for an ASCII character, which is its number, and for any
other character several, all of them outside ASCII. So nothing ASCII is found within a longer
character, and going over the bytes up to an ASCII character is going over the characters
(`Text.takeWhile_utf8`).

A number of bytes cuts a text in two if it is a boundary between characters (`Text.cutAtByte?`), and
two of them cut out what is between (`Text.slice?`).
-/

set_option autoImplicit false

namespace BoxFlow

@[simp] theorem Cursor.byteLength_append (front back : List Char) :
    byteLength (front ++ back) = byteLength front + byteLength back := by
  induction front with
  | nil => rw [List.nil_append, byteLength, Nat.zero_add]
  | cons ch front ih => rw [List.cons_append, byteLength, byteLength, ih, Nat.add_assoc]

open Cursor (byteLength)

namespace Text

variable {c : Char} {b : UInt8} {n : ℕ} {text front back part rest : List Char}

/-! ## Bytes of a text -/

/-- The UTF-8 form of a text. -/
def utf8 (text : List Char) : List UInt8 := text.flatMap String.utf8EncodeChar

/-- The character whose number a byte is. -/
def charOfByte (b : UInt8) : Char := Char.ofNat b.toNat

theorem utf8_append (front back : List Char) : utf8 (front ++ back) = utf8 front ++ utf8 back :=
  List.flatMap_append

theorem utf8_cons (c : Char) (text : List Char) :
    utf8 (c :: text) = String.utf8EncodeChar c ++ utf8 text := rfl

@[simp] theorem length_utf8 (text : List Char) : (utf8 text).length = byteLength text := by
  induction text with
  | nil => rfl
  | cons c text ih =>
    rw [utf8_cons, List.length_append, String.length_utf8EncodeChar, ih, byteLength]

theorem toNat_charOfByte (b : UInt8) : (charOfByte b).toNat = b.toNat := by
  have hvalid : b.toNat.isValidChar := .inl (Nat.lt_trans b.toNat_lt (by decide))
  rw [charOfByte, Char.ofNat, dif_pos hvalid]
  rfl

/-- An ASCII character is a byte. -/
theorem utf8EncodeChar_of_ascii (h : c.toNat < 128) :
    ∃ b, String.utf8EncodeChar c = [b] ∧ charOfByte b = c := by
  have hbyte : c.toNat < UInt8.size := Nat.lt_trans h (by decide)
  refine ⟨.ofNat c.toNat, if_pos (Nat.le_of_lt_succ h), ?_⟩
  rw [charOfByte, UInt8.toNat_ofNat_of_lt' hbyte, Char.ofNat_toNat]

theorem byteLength_of_ascii (h : c.toNat < 128) : byteLength [c] = 1 := by
  obtain ⟨b, hencode, -⟩ := utf8EncodeChar_of_ascii h
  rw [← length_utf8, utf8_cons, hencode]
  rfl

/-- Any other character consists of bytes outside ASCII. -/
theorem le_of_mem_utf8EncodeChar (h : 128 ≤ c.toNat) (hb : b ∈ String.utf8EncodeChar c) :
    128 ≤ b.toNat := by
  have hbyte : ∀ n, 128 ≤ n % 256 → 128 ≤ (UInt8.ofNat n).toNat := by
    intro n hn
    rwa [UInt8.toNat_ofNat']
  rw [Char.toNat] at h
  -- the four lengths of a character
  simp only [String.utf8EncodeChar] at hb
  split at hb
  · omega
  · split at hb
    · simp only [List.mem_cons, List.not_mem_nil, or_false] at hb
      rcases hb with rfl | rfl <;> exact hbyte _ (by omega)
    · split at hb
      · simp only [List.mem_cons, List.not_mem_nil, or_false] at hb
        rcases hb with rfl | rfl | rfl <;> exact hbyte _ (by omega)
      · simp only [List.mem_cons, List.not_mem_nil, or_false] at hb
        rcases hb with rfl | rfl | rfl | rfl <;> exact hbyte _ (by omega)

/-- The first byte of a character is the character itself or stands outside ASCII as it does. -/
theorem exists_utf8_cons (c : Char) (text : List Char) :
    ∃ b bytes, utf8 (c :: text) = b :: bytes ∧
      (charOfByte b = c ∨ 128 ≤ c.toNat ∧ 128 ≤ (charOfByte b).toNat) := by
  by_cases hascii : c.toNat < 128
  · obtain ⟨b, hencode, hchar⟩ := utf8EncodeChar_of_ascii hascii
    exact ⟨b, utf8 text, by rw [utf8_cons, hencode]; rfl, .inl hchar⟩
  · have hwide := Nat.le_of_not_lt hascii
    obtain ⟨b, bytes, hencode⟩ := List.exists_cons_of_ne_nil (String.utf8EncodeChar_ne_nil (c := c))
    refine ⟨b, bytes ++ utf8 text, by rw [utf8_cons, hencode]; rfl, .inr ⟨hwide, ?_⟩⟩
    rw [toNat_charOfByte]
    exact le_of_mem_utf8EncodeChar hwide (hencode ▸ List.mem_cons_self)

/-! ## Going over bytes -/

section Walk

variable {p : Char → Bool}

/-- Going over the bytes of a text stops where going over its characters does, if it only stops at
ASCII. -/
theorem takeWhile_utf8 (hp : ∀ c : Char, 128 ≤ c.toNat → p c) (text : List Char) :
    (utf8 text).takeWhile (fun b => p (charOfByte b)) = utf8 (text.takeWhile p) ∧
      (utf8 text).dropWhile (fun b => p (charOfByte b)) = utf8 (text.dropWhile p) := by
  induction text with
  | nil => exact ⟨rfl, rfl⟩
  | cons c text ih =>
    obtain ⟨htake, hdrop⟩ := ih
    by_cases hgoes : p c
    · have hbytes : ∀ b ∈ String.utf8EncodeChar c, p (charOfByte b) := by
        intro b hb
        by_cases hascii : c.toNat < 128
        · obtain ⟨b', hencode, hchar⟩ := utf8EncodeChar_of_ascii hascii
          rw [hencode, List.mem_singleton] at hb
          rwa [hb, hchar]
        · refine hp _ ?_
          rw [toNat_charOfByte]
          exact le_of_mem_utf8EncodeChar (Nat.le_of_not_lt hascii) hb
      rw [utf8_cons, List.takeWhile_append_of_pos hbytes, List.dropWhile_append_of_pos hbytes,
        htake, hdrop, List.takeWhile_cons_of_pos hgoes, List.dropWhile_cons_of_pos hgoes]
      exact ⟨rfl, rfl⟩
    · obtain ⟨b, bytes, hutf8, hchar | ⟨hwide, -⟩⟩ := exists_utf8_cons c text
      · have hstops : ¬ p (charOfByte b) := hchar ▸ hgoes
        rw [hutf8, List.takeWhile_cons_of_neg (p := fun b => p (charOfByte b)) hstops,
          List.dropWhile_cons_of_neg (p := fun b => p (charOfByte b)) hstops,
          List.takeWhile_cons_of_neg hgoes, List.dropWhile_cons_of_neg hgoes, hutf8]
        exact ⟨rfl, rfl⟩
      · exact absurd (hp c hwide) hgoes

end Walk

/-! ## Cutting a text at bytes -/

/-- The text in front of a number of bytes and the text behind them. There is none inside a
character or behind the end. -/
def cutAtByte? : ℕ → List Char → Option (List Char × List Char)
  | 0, text => some ([], text)
  | _ + 1, [] => none
  | n + 1, c :: text =>
    if c.utf8Size ≤ n + 1 then
      (cutAtByte? (n + 1 - c.utf8Size) text).map fun (front, back) => (c :: front, back)
    else none

theorem cutAtByte?_append (front back : List Char) :
    cutAtByte? (byteLength front) (front ++ back) = some (front, back) := by
  induction front with
  | nil => rw [List.nil_append, byteLength, cutAtByte?]
  | cons c front ih =>
    obtain ⟨n, hn⟩ : ∃ n, byteLength (c :: front) = n + 1 :=
      Nat.exists_eq_succ_of_ne_zero (Nat.ne_of_gt (Nat.add_pos_left c.utf8Size_pos _))
    have hrest : n + 1 - c.utf8Size = byteLength front := by
      rw [← hn, byteLength, Nat.add_sub_cancel_left]
    have hle : c.utf8Size ≤ n + 1 := by
      rw [← hn, byteLength]
      omega
    rw [hn, List.cons_append, cutAtByte?, if_pos hle, hrest, ih]
    rfl

theorem eq_append_of_cutAtByte? (h : cutAtByte? n text = some (front, back)) :
    text = front ++ back ∧ byteLength front = n := by
  induction text generalizing n front with
  | nil =>
    cases n with
    | zero => cases h; exact ⟨rfl, rfl⟩
    | succ n => cases h
  | cons c text ih =>
    cases n with
    | zero => cases h; exact ⟨rfl, rfl⟩
    | succ n =>
      rw [cutAtByte?] at h
      split at h
      · obtain ⟨⟨front', back'⟩, hcut, hpair⟩ := Option.map_eq_some_iff.1 h
        cases hpair
        obtain ⟨rfl, hfront⟩ := ih hcut
        refine ⟨rfl, ?_⟩
        rw [byteLength, hfront]
        omega
      · cases h

/-- A text is cut between characters only, and every place between them is where it can be cut. -/
theorem cutAtByte?_eq_some_iff :
    cutAtByte? n text = some (front, back) ↔ text = front ++ back ∧ byteLength front = n := by
  refine ⟨eq_append_of_cutAtByte?, ?_⟩
  rintro ⟨rfl, rfl⟩
  exact cutAtByte?_append front back

/-- The part of a text between two numbers of bytes. There is none unless the first is not beyond
the second and both are boundaries between characters. -/
def slice? (text : List Char) (start stop : ℕ) : Option (List Char) :=
  if start ≤ stop then
    (cutAtByte? start text).bind fun cut => (cutAtByte? (stop - start) cut.2).map Prod.fst
  else none

theorem slice?_eq_some_iff {start stop : ℕ} :
    slice? text start stop = some part ↔
      ∃ front back, text = front ++ (part ++ back) ∧ byteLength front = start ∧
        start + byteLength part = stop := by
  rw [slice?]
  constructor
  · intro h
    split at h
    · next hle =>
      obtain ⟨⟨front, behind⟩, hcut, h⟩ := Option.bind_eq_some_iff.1 h
      obtain ⟨⟨part', back⟩, hcut', hpair⟩ := Option.map_eq_some_iff.1 h
      cases hpair
      obtain ⟨rfl, hstart⟩ := cutAtByte?_eq_some_iff.1 hcut
      obtain ⟨hbehind, hlength⟩ := cutAtByte?_eq_some_iff.1 hcut'
      refine ⟨front, back, congrArg (front ++ ·) hbehind, hstart, ?_⟩
      rw [hlength]
      omega
    · cases h
  · rintro ⟨front, back, rfl, rfl, rfl⟩
    rw [if_pos (Nat.le_add_right _ _), cutAtByte?_append, Nat.add_sub_cancel_left, Option.bind_some,
      cutAtByte?_append]
    rfl

/-- A number of bytes that a front part of the text has. -/
def IsBoundary (text : List Char) (n : ℕ) : Prop :=
  ∃ front back, text = front ++ back ∧ byteLength front = n

end Text

end BoxFlow
