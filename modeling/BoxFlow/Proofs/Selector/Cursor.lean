import BoxFlow.Proofs.Selector.Grammar
import Mathlib.Data.List.TakeWhile

/-!
# What a cursor reads

Each operation of a cursor, seen through the text in front of it: what stands there when the
operation succeeds, and conversely that the operation succeeds on such a text. Position and last
token only matter to messages, so nothing is said about them.
-/

set_option autoImplicit false

namespace BoxFlow

/-- The text does not go on with a character of an identifier. -/
def EndsName (rest : List Char) : Prop :=
  ∀ c, rest.head? = some c → Token.isNameChar c = false

theorem endsName_nil : EndsName [] := by
  intro c h
  simp at h

theorem endsName_cons {c : Char} {rest : List Char} (h : c ∈ reservedChars) :
    EndsName (c :: rest) := by
  intro d hd
  obtain rfl : c = d := by simpa using hd
  rw [← Bool.not_eq_true, Token.isNameChar_iff]
  exact not_not.2 h

namespace Token

/-- A character that forms a token on its own is not forbidden. -/
theorem isForbidden_of_ofChar? {c : Char} {kind : TokenKind}
    (h : TokenKind.ofChar? c = some kind) : isForbidden c = false := by
  rw [← Bool.not_eq_true, isForbidden_iff]
  intro hmem
  simp only [List.mem_cons, List.not_mem_nil, or_false] at hmem
  rcases hmem with rfl | rfl | rfl <;> simp [TokenKind.ofChar?] at h

theorem isNameChar_of_mem {name : List Char} (h : IsIdentifier name) {c : Char} (hc : c ∈ name) :
    isNameChar c = true :=
  isNameChar_iff.2 (h.2.1 c hc)

end Token

/-- Where going over a text stops. -/
theorem split_of_dropWhile {p : Char → Bool} {text rest : List Char} {ch : Char}
    (h : text.dropWhile p = ch :: rest) :
    text = text.takeWhile p ++ ch :: rest ∧ p ch = false := by
  have hhead := List.head?_dropWhile_not p text
  have hsplit := (List.takeWhile_append_dropWhile (p := p) (l := text)).symm
  rw [h] at hhead hsplit
  exact ⟨hsplit, hhead⟩

theorem takeWhile_name {name rest : List Char} (h : IsIdentifier name) (hrest : EndsName rest) :
    (name ++ rest).takeWhile Token.isNameChar = name ∧
      (name ++ rest).dropWhile Token.isNameChar = rest := by
  have hall : ∀ c ∈ name, Token.isNameChar c = true := by
    intro c hc
    exact Token.isNameChar_of_mem h hc
  rw [List.takeWhile_append_of_pos hall, List.dropWhile_append_of_pos hall]
  cases rest with
  | nil => simp
  | cons c cs => simp [hrest c rfl]

namespace Cursor

variable {c c' : Cursor} {token : Token} {kind : TokenKind} {rest name raw : List Char}

/-! ## Tokens -/

/-- What a token that was read looks like, and where the cursor stands after it. -/
theorem next_eq_some (h : c.next = (.ok (some token), c')) :
    c.rest = token.raw ++ c'.rest ∧
      (token.kind = .identifier ∧ IsIdentifier token.raw ∨
        ∃ ch, token.raw = [ch] ∧ token.kind.char? = some ch) := by
  unfold next at h
  split at h
  · simp at h
  · next ch rest hrest =>
    split at h
    · simp at h
    · next hforbidden =>
      split at h
      · next kind hkind =>
        simp only [accept, Prod.mk.injEq, Except.ok.injEq, Option.some.injEq] at h
        obtain ⟨rfl, rfl⟩ := h
        exact ⟨hrest, Or.inr ⟨ch, rfl, TokenKind.char?_of_ofChar? hkind⟩⟩
      · next hkind =>
        split at h
        · simp at h
        · next hdigit =>
          simp only [accept, Prod.mk.injEq, Except.ok.injEq, Option.some.injEq] at h
          obtain ⟨rfl, rfl⟩ := h
          have hch : Token.isNameChar ch = true := by
            simp [Token.isNameChar, hkind, hforbidden]
          refine ⟨List.takeWhile_append_dropWhile.symm, Or.inl ⟨rfl, ?_, ?_, ?_⟩⟩
          · simp [hrest, hch]
          · intro d hd
            exact Token.isNameChar_iff.1 (List.mem_takeWhile_imp hd)
          · intro d hd
            obtain rfl : ch = d := by simpa [hrest, hch] using hd
            simpa using hdigit

/-- What a punctuation token that was read stood for. -/
theorem rest_of_next {ch : Char} (h : c.next = (.ok (some token), c'))
    (hchar : token.kind.char? = some ch) : c.rest = ch :: c'.rest := by
  obtain ⟨hrest, ⟨hid, -⟩ | ⟨d, hd, hdchar⟩⟩ := next_eq_some h
  · rw [hid] at hchar
    simp [TokenKind.char?] at hchar
  · obtain rfl : d = ch := by simpa [hchar] using hdchar.symm
    rw [hrest, hd, List.singleton_append]

/-- Nothing is read at the end only. -/
theorem rest_of_next_eq_none (h : c.next = (.ok none, c')) : c.rest = [] := by
  unfold next at h
  split at h
  · next hrest => exact hrest
  · split at h
    · simp at h
    · split at h
      · simp [accept] at h
      · split at h <;> simp [accept] at h

/-- A punctuation character is read as a token. -/
theorem next_punctuation {ch : Char} (hrest : c.rest = ch :: rest)
    (hkind : TokenKind.ofChar? ch = some kind) :
    ∃ c', c'.rest = rest ∧ c.next = (.ok (some ⟨kind, [ch]⟩), c') := by
  refine ⟨(c.accept kind [ch] rest).2, rfl, ?_⟩
  simp [next, hrest, Token.isForbidden_of_ofChar? hkind, hkind, accept]

/-- An identifier is read up to its end. -/
theorem next_identifier (hrest : c.rest = name ++ rest) (hname : IsIdentifier name)
    (hend : EndsName rest) :
    ∃ c', c'.rest = rest ∧ c.next = (.ok (some ⟨.identifier, name⟩), c') := by
  obtain ⟨htake, hdrop⟩ := takeWhile_name hname hend
  refine ⟨(c.accept .identifier name rest).2, rfl, ?_⟩
  obtain ⟨ch, name', rfl⟩ := List.exists_cons_of_ne_nil hname.1
  have hch : Token.isNameChar ch = true := Token.isNameChar_of_mem hname List.mem_cons_self
  simp only [Token.isNameChar, Bool.and_eq_true, Bool.not_eq_true', Option.isNone_iff_eq_none]
    at hch
  have hdigit : ch.isDigit = false := hname.2.2 ch rfl
  rw [List.cons_append] at hrest htake hdrop
  simp [next, hrest, hch, hdigit, accept, htake, hdrop]

theorem next_of_expect (h : c.expect kind = (.ok token, c')) :
    c.next = (.ok (some token), c') ∧ token.kind = kind := by
  unfold expect at h
  split at h
  · simp at h
  · simp at h
  · next hnext =>
    split at h
    · next hkind =>
      simp only [Prod.mk.injEq, Except.ok.injEq] at h
      obtain ⟨rfl, rfl⟩ := h
      exact ⟨hnext, hkind⟩
    · simp at h

theorem expect_of_next (h : c.next = (.ok (some token), c')) :
    c.expect token.kind = (.ok token, c') := by
  simp [expect, h]

/-- An identifier that was asked for. -/
theorem expect_identifier_eq (h : c.expect .identifier = (.ok token, c')) :
    c.rest = token.raw ++ c'.rest ∧ IsIdentifier token.raw := by
  obtain ⟨hnext, hkind⟩ := next_of_expect h
  obtain ⟨hrest, ⟨-, hname⟩ | ⟨ch, -, hch⟩⟩ := next_eq_some hnext
  · exact ⟨hrest, hname⟩
  · simp [hkind, TokenKind.char?] at hch

theorem expect_identifier (hrest : c.rest = name ++ rest) (hname : IsIdentifier name)
    (hend : EndsName rest) :
    ∃ c', c'.rest = rest ∧ c.expect .identifier = (.ok ⟨.identifier, name⟩, c') := by
  obtain ⟨c', hc', hnext⟩ := next_identifier hrest hname hend
  exact ⟨c', hc', expect_of_next hnext⟩

/-! ## Raw text -/

/-- Raw text ends at the first stop character and holds nothing forbidden. -/
theorem readRaw_eq_some {stop : Char} (h : c.readRaw stop = (.ok (some raw), c')) :
    c.rest = raw ++ stop :: c'.rest ∧ ∀ ch ∈ raw, ch ∉ [stop, '\n', '\r', '\t'] := by
  unfold readRaw at h
  simp only at h
  split at h
  · simp at h
  · next ch rest hdrop =>
    split at h
    · simp at h
    · next hforbidden =>
      simp only [Prod.mk.injEq, Except.ok.injEq, Option.some.injEq] at h
      obtain ⟨rfl, rfl⟩ := h
      obtain ⟨hsplit, hends⟩ := split_of_dropWhile hdrop
      have hstop : ch = stop := by simpa [hforbidden] using hends
      refine ⟨?_, ?_⟩
      · rwa [hstop] at hsplit
      · intro d hd
        have hd' := List.mem_takeWhile_imp hd
        simp only [Bool.and_eq_true, Bool.not_eq_true', bne_iff_ne, ne_eq] at hd'
        rw [List.mem_cons, not_or, ← Token.isForbidden_iff]
        exact ⟨hd'.2, by simp [hd'.1]⟩

theorem readRaw_of_rest {stop : Char} (hrest : c.rest = raw ++ stop :: rest)
    (hstop : Token.isForbidden stop = false)
    (hraw : ∀ ch ∈ raw, ch ∉ [stop, '\n', '\r', '\t']) :
    ∃ c', c'.rest = rest ∧ c.readRaw stop = (.ok (some raw), c') := by
  have hall : ∀ ch ∈ raw, (!Token.isForbidden ch && ch != stop) = true := by
    intro ch hch
    have hmem := hraw ch hch
    rw [List.mem_cons, not_or, ← Token.isForbidden_iff] at hmem
    simp [hmem.1, hmem.2]
  have htake : c.rest.takeWhile (fun ch => !Token.isForbidden ch && ch != stop) = raw := by
    rw [hrest, List.takeWhile_append_of_pos hall]
    simp
  have hdrop : c.rest.dropWhile (fun ch => !Token.isForbidden ch && ch != stop) =
      stop :: rest := by
    rw [hrest, List.dropWhile_append_of_pos hall]
    simp
  unfold readRaw
  simp only [htake, hdrop, hstop]
  exact ⟨_, rfl, rfl⟩

end Cursor

end BoxFlow
