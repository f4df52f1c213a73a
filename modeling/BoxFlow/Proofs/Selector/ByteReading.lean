import BoxFlow.Proofs.Selector.Progress

/-!
# Reading byte by byte

The position of a cursor counts bytes of the text's UTF-8 form. A `ByteReader` has only the bytes
and a position in them. It looks at one byte at a time, and what it has found it cuts out of the
text, which fails unless both ends are boundaries between characters.

Every byte at which the reader stops is ASCII, and a character outside ASCII has no such byte. So it
gets as far in the bytes as a cursor gets in the characters, each of its calls comes to what the
cursor's call comes to (`ByteReader.perform_ofCursor`), and no cut fails. This and what cursors pass
over says that a text is read without loss, whatever calls are made in whatever order
(`Cursor.calls_read_losslessly`).
-/

set_option autoImplicit false

namespace BoxFlow

open Cursor (byteLength)

/-! ## Characters outside ASCII -/

theorem TokenKind.toNat_lt_of_char? {kind : TokenKind} {c : Char} (h : kind.char? = some c) :
    c.toNat < 128 := by
  cases kind <;> cases h <;> decide

theorem TokenKind.ofChar?_of_wide {c : Char} (h : 128 ≤ c.toNat) : TokenKind.ofChar? c = none := by
  cases hkind : TokenKind.ofChar? c with
  | none => rfl
  | some kind => exact absurd (toNat_lt_of_char? (char?_of_ofChar? hkind)) (Nat.not_lt_of_le h)

theorem Token.isForbidden_of_wide {c : Char} (h : 128 ≤ c.toNat) : isForbidden c = false := by
  rw [← Bool.not_eq_true, isForbidden_iff]
  intro hmem
  have hascii : c.toNat < 128 := by
    simp only [List.mem_cons, List.not_mem_nil, or_false] at hmem
    rcases hmem with rfl | rfl | rfl <;> decide
  exact absurd hascii (Nat.not_lt_of_le h)

theorem Token.isNameChar_of_wide {c : Char} (h : 128 ≤ c.toNat) : isNameChar c := by
  rw [isNameChar, TokenKind.ofChar?_of_wide h, isForbidden_of_wide h]
  rfl

theorem Token.isDigit_of_wide {c : Char} (h : 128 ≤ c.toNat) : c.isDigit = false := by
  rw [← Bool.not_eq_true]
  intro hdigit
  simp only [Char.isDigit, Bool.and_eq_true, decide_eq_true_eq, UInt32.le_iff_toNat_le] at hdigit
  exact absurd (hdigit.2.trans (by decide)) (Nat.not_le_of_lt h)

/-! ## The reader -/

/-- The character at which raw text ends is a byte. -/
def Call.IsAscii : Call → Prop
  | .readRaw stop => stop.toNat < 128
  | _ => True

/-- A position in the bytes of a text, and the token read last. -/
structure ByteReader where
  text : List Char
  position : ℕ
  last : Option Token

namespace ByteReader

open Text (charOfByte slice? utf8)

/-- The reader in front of the first byte of a text. -/
def start (text : List Char) : ByteReader := ⟨text, 0, none⟩

/-- The bytes from the position on. -/
def ahead (r : ByteReader) : List UInt8 := (utf8 r.text).drop r.position

/-- Cuts out the next bytes as a token and moves past it. -/
def accept (r : ByteReader) (kind : TokenKind) (count : ℕ) :
    Option (Except SelectorError (Option Token) × ByteReader) :=
  (slice? r.text r.position (r.position + count)).map fun raw =>
    (.ok (some ⟨kind, raw⟩), ⟨r.text, r.position + count, some ⟨kind, raw⟩⟩)

/-- Reads the next token by its first byte. The bytes of an identifier go on up to the first one
that cannot be part of a name. -/
def next (r : ByteReader) : Option (Except SelectorError (Option Token) × ByteReader) :=
  match r.ahead with
  | [] => some (.ok none, r)
  | first :: _ =>
    let ch := charOfByte first
    if Token.isForbidden ch then some (.error (.invalidCharacter r.position ch), r)
    else match TokenKind.ofChar? ch with
      | some kind => r.accept kind 1
      | none =>
        if ch.isDigit then some (.error (.invalidCharacter r.position ch), r)
        else r.accept .identifier
          (r.ahead.takeWhile fun b => Token.isNameChar (charOfByte b)).length

/-- Text of the token read last, empty at the start. -/
def lastText (r : ByteReader) : String :=
  (r.last.map fun token => String.ofList token.raw).getD ""

/-- Reads a token of the given kind. -/
def expect (r : ByteReader) (kind : TokenKind) :
    Option (Except SelectorError Token × ByteReader) :=
  match r.next with
  | none => none
  | some (.error e, after) => some (.error e, after)
  | some (.ok none, after) => some (.error (.unexpectedEnd kind r.lastText), after)
  | some (.ok (some token), after) =>
    if token.kind = kind then some (.ok token, after)
    else some (.error (.unexpectedToken kind token.kind r.lastText), after)

/-- Reads raw text up to the first byte that is `stop`, and cuts out both. -/
def readRaw (r : ByteReader) (stop : Char) :
    Option (Except SelectorError (Option (List Char)) × ByteReader) :=
  let goesOn (ch : Char) : Bool := !Token.isForbidden ch && ch != stop
  let position := r.position + (r.ahead.takeWhile fun b => goesOn (charOfByte b)).length
  match r.ahead.dropWhile fun b => goesOn (charOfByte b) with
  | [] => some (.ok none, { r with position := position })
  | b :: _ =>
    let ch := charOfByte b
    if Token.isForbidden ch then
      some (.error (.invalidCharacter position ch), { r with position := position })
    else do
      let raw ← slice? r.text r.position position
      let stopText ← slice? r.text position (position + 1)
      let kind := (TokenKind.ofChar? ch).getD .identifier
      return (.ok (some raw), ⟨r.text, position + 1, some ⟨kind, stopText⟩⟩)

/-- Makes a call; `none` if a cut fails. -/
def perform (r : ByteReader) :
    Call → Option (Except SelectorError (Option Reading) × ByteReader)
  | .next => r.next.map fun (result, after) => (result.map (Option.map .token), after)
  | .expect kind =>
    (r.expect kind).map fun (result, after) =>
      (result.map fun token => some (.token token), after)
  | .readRaw stop =>
    (r.readRaw stop).map fun (result, after) =>
      (result.map (Option.map (Reading.raw · stop)), after)

/-- Makes calls one after the other, with what they find in order; `none` if a cut fails. -/
def run (r : ByteReader) :
    List Call → Option (List (Except SelectorError (Option Reading)) × ByteReader)
  | [] => some ([], r)
  | call :: calls => do
    let (result, after) ← r.perform call
    let (results, last) ← after.run calls
    return (result :: results, last)

/-! ## The reader and the cursor -/

/-- The reader at the place of a cursor. -/
def ofCursor (text : List Char) (c : Cursor) : ByteReader := ⟨text, c.position, c.last⟩

variable {text raw rest : List Char} {c : Cursor} {call : Call}

@[simp] theorem text_ofCursor (text : List Char) (c : Cursor) : (ofCursor text c).text = text := rfl

@[simp] theorem position_ofCursor (text : List Char) (c : Cursor) :
    (ofCursor text c).position = c.position := rfl

theorem ahead_ofCursor (h : c.StandsIn text) : (ofCursor text c).ahead = utf8 c.rest := by
  obtain ⟨front, rfl, hfront⟩ := h
  rw [ahead, ofCursor, Text.utf8_append, ← hfront, ← Text.length_utf8, List.drop_left]

/-- A part of the text in front of the cursor can be cut out. -/
theorem slice?_of_rest (h : c.StandsIn text) (hrest : c.rest = raw ++ rest) :
    slice? text c.position (c.position + byteLength raw) = some raw := by
  obtain ⟨front, htext, hfront⟩ := h
  exact Text.slice?_eq_some_iff.2 ⟨front, rest, hrest ▸ htext, hfront, rfl⟩

theorem accept_ofCursor (h : c.StandsIn text) (hrest : c.rest = raw ++ rest) (kind : TokenKind) :
    (ofCursor text c).accept kind (byteLength raw) =
      some (.ok (some (c.accept kind raw rest).1), ofCursor text (c.accept kind raw rest).2) := by
  rw [accept]
  show (slice? text c.position (c.position + byteLength raw)).map _ = _
  rw [slice?_of_rest h hrest]
  rfl

/-- The bytes of an identifier are those of its characters. -/
theorem acceptName_ofCursor (h : c.StandsIn text) :
    (ofCursor text c).accept .identifier
        ((utf8 c.rest).takeWhile fun b => Token.isNameChar (charOfByte b)).length =
      some (.ok (some (c.accept .identifier (c.rest.takeWhile Token.isNameChar)
          (c.rest.dropWhile Token.isNameChar)).1),
        ofCursor text (c.accept .identifier (c.rest.takeWhile Token.isNameChar)
          (c.rest.dropWhile Token.isNameChar)).2) := by
  rw [(Text.takeWhile_utf8 (fun _ => Token.isNameChar_of_wide) c.rest).1, Text.length_utf8]
  exact accept_ofCursor h List.takeWhile_append_dropWhile.symm .identifier

theorem next_ofCursor (h : c.StandsIn text) :
    (ofCursor text c).next = some (c.next.1, ofCursor text c.next.2) := by
  have hahead := ahead_ofCursor h
  have hname := acceptName_ofCursor h
  cases hrest : c.rest with
  | nil =>
    rw [hrest] at hahead
    rw [next, hahead, Cursor.next, hrest]
    rfl
  | cons ch rest =>
    obtain ⟨b, bytes, hutf8, hclass⟩ := Text.exists_utf8_cons ch rest
    rw [hrest, hutf8] at hahead hname
    rw [next, hahead, Cursor.next, hrest]
    obtain hchar | ⟨hwide, hwide'⟩ := hclass
    · simp only [hchar]
      by_cases hforbidden : Token.isForbidden ch
      · simp only [if_pos hforbidden]
        rfl
      · simp only [if_neg hforbidden]
        cases hkind : TokenKind.ofChar? ch with
        | some kind =>
          have hascii := TokenKind.toNat_lt_of_char? (TokenKind.char?_of_ofChar? hkind)
          have hfirst : c.rest = [ch] ++ rest := hrest
          have hsingle := accept_ofCursor h hfirst kind
          rwa [Text.byteLength_of_ascii hascii] at hsingle
        | none =>
          by_cases hdigit : ch.isDigit
          · simp only [if_pos hdigit]
            rfl
          · simp only [if_neg hdigit]
            exact hname
    · -- the first byte of a longer character starts an identifier, as the character does
      simp only [Token.isForbidden_of_wide hwide, Token.isForbidden_of_wide hwide',
        TokenKind.ofChar?_of_wide hwide, TokenKind.ofChar?_of_wide hwide',
        Token.isDigit_of_wide hwide, Token.isDigit_of_wide hwide', Bool.false_eq_true, if_false]
      exact hname

theorem expect_ofCursor (h : c.StandsIn text) (kind : TokenKind) :
    (ofCursor text c).expect kind =
      some ((c.expect kind).1, ofCursor text (c.expect kind).2) := by
  rw [expect, next_ofCursor h, Cursor.expect]
  obtain ⟨-, hnext⟩ | ⟨ch, rest, -, hnext⟩ | ⟨token, after, hnext, -, -⟩ := c.next_cases
  · rw [hnext]
    rfl
  · rw [hnext]
  · rw [hnext]
    simp only
    split <;> rfl

theorem readRaw_ofCursor (h : c.StandsIn text) {stop : Char} (hstop : stop.toNat < 128) :
    (ofCursor text c).readRaw stop =
      some ((c.readRaw stop).1, ofCursor text (c.readRaw stop).2) := by
  have hgoes : ∀ ch : Char, 128 ≤ ch.toNat → (!Token.isForbidden ch && ch != stop) = true := by
    intro ch hwide
    have hne : ch ≠ stop := by
      rintro rfl
      omega
    rw [Token.isForbidden_of_wide hwide, bne_iff_ne.2 hne]
    rfl
  obtain ⟨htake, hdrop⟩ := Text.takeWhile_utf8 hgoes c.rest
  rw [readRaw, Cursor.readRaw]
  simp only [ahead_ofCursor h, htake, hdrop, Text.length_utf8]
  cases hrest : c.rest.dropWhile (fun ch => !Token.isForbidden ch && ch != stop) with
  | nil => rfl
  | cons ch rest =>
    obtain ⟨hsplit, hends⟩ := split_of_dropWhile hrest
    have hascii : ch.toNat < 128 := by
      by_contra hwide
      rw [hgoes ch (Nat.le_of_not_lt hwide)] at hends
      cases hends
    obtain ⟨b, hencode, hchar⟩ := Text.utf8EncodeChar_of_ascii hascii
    rw [Text.utf8_cons, hencode]
    simp only [List.singleton_append, hchar]
    by_cases hforbidden : Token.isForbidden ch
    · simp only [if_pos hforbidden]
      rfl
    · -- raw text and the character behind it are cut out one after the other
      have hraw := slice?_of_rest h hsplit
      have hpasses : c.Passes (c.rest.takeWhile fun ch => !Token.isForbidden ch && ch != stop)
          { c with
            position := c.position + byteLength
              (c.rest.takeWhile fun ch => !Token.isForbidden ch && ch != stop)
            rest := ch :: rest } := ⟨hsplit, rfl⟩
      have hfirst : ch :: rest = [ch] ++ rest := rfl
      have hstopText := slice?_of_rest (h.of_passes hpasses) hfirst
      have hsize : ch.utf8Size = 1 := Text.byteLength_of_ascii hascii
      rw [Text.byteLength_of_ascii hascii] at hstopText
      simp only [if_neg hforbidden, text_ofCursor, position_ofCursor, hraw, hstopText, hsize,
        Option.bind_eq_bind, Option.bind_some]
      rfl

/-- What a reader does on a call is what the cursor at its place does, and no cut fails. -/
theorem perform_ofCursor (h : c.StandsIn text) (hcall : call.IsAscii) :
    (ofCursor text c).perform call =
      some ((c.perform call).1, ofCursor text (c.perform call).2) := by
  cases call with
  | next =>
    rw [perform, next_ofCursor h]
    rfl
  | expect kind =>
    rw [perform, expect_ofCursor h]
    rfl
  | readRaw stop =>
    rw [perform, readRaw_ofCursor h hcall]
    rfl

theorem run_ofCursor (h : c.StandsIn text) {calls : List Call}
    (hcalls : ∀ call ∈ calls, call.IsAscii) :
    (ofCursor text c).run calls = some ((c.run calls).1, ofCursor text (c.run calls).2) := by
  induction calls generalizing c with
  | nil => rfl
  | cons call calls ih =>
    obtain ⟨hcall, hrest⟩ := List.forall_mem_cons.1 hcalls
    rw [run, perform_ofCursor h hcall]
    show (run _ calls).bind _ = _
    rw [ih (h.perform call) hrest]
    rfl

end ByteReader

/-! ## Reading without loss -/

namespace Cursor

variable {text : List Char} {c : Cursor}

/-- A call to a cursor in a text moves it on, to a boundary between characters at most at the end of
the text. What the call finds is what is between the two positions, and where it asks for the next
token and fails, the cursor has not moved. -/
structure IsSafeCall (text : List Char) (before : Cursor) (call : Call)
    (result : Except SelectorError (Option Reading)) (after : Cursor) : Prop where
  position_le : before.position ≤ after.position
  position_le_length : after.position ≤ byteLength text
  isBoundary : Text.IsBoundary text after.position
  slice?_eq : ∀ reading, result = .ok (some reading) →
    Text.slice? text before.position after.position = some reading.consumed
  eq_of_error : ∀ e, call = .next → result = .error e → after = before

theorem StandsIn.isSafeCall (h : c.StandsIn text) (call : Call) :
    IsSafeCall text c call (c.perform call).1 (c.perform call).2 := by
  obtain ⟨read, hpasses, hread⟩ := c.perform_passes call
  obtain ⟨front, htext, hfront⟩ := h.of_passes hpasses
  refine ⟨?_, ?_, ⟨front, (c.perform call).2.rest, htext, hfront⟩, ?_, ?_⟩
  · rw [hpasses.position_eq]
    exact Nat.le_add_right _ _
  · rw [htext, byteLength_append, hfront]
    exact Nat.le_add_right _ _
  · intro reading hreading
    rw [← hread reading hreading, hpasses.position_eq]
    exact ByteReader.slice?_of_rest h hpasses.rest_eq
  · rintro e rfl herror
    exact perform_next_error herror

/-- Whatever calls are made to a reader of the bytes of a text, in whatever order and after whatever
errors, no cut fails, and each of them finds what the cursor finds and leaves the reader where it
leaves the cursor. Every call is safe. Asking for tokens until there are none gives tokens that make
up the text, or else the text up to a character that is refused, at the position in front of it.
That asking for the next token fails in place is particular to this call: the other two also fail
behind what they have read. -/
theorem calls_read_losslessly :
    (∀ (text : List Char) (calls : List Call), (∀ call ∈ calls, call.IsAscii) →
      (ByteReader.start text).run calls =
        some (((start text).run calls).1, .ofCursor text ((start text).run calls).2) ∧
      ∀ call : Call, call.IsAscii →
        IsSafeCall text ((start text).run calls).2 call
          (((start text).run calls).2.perform call).1
          (((start text).run calls).2.perform call).2) ∧
    (∀ text : List Char,
      ((start text).tokens.2 = none ∧ (start text).tokens.1.flatMap Token.raw = text) ∨
      ∃ front ch back, text = front ++ ch :: back ∧
        (start text).tokens.1.flatMap Token.raw = front ∧
        (start text).tokens.2 = some (.invalidCharacter (byteLength front) ch)) ∧
    (∃ text kind e after, (start text).expect kind = (.error e, after) ∧ 0 < after.position) ∧
    ∃ text stop e after, (start text).readRaw stop = (.error e, after) ∧ 0 < after.position := by
  refine ⟨?_, ?_, ?_, ?_⟩
  · intro text calls hcalls
    refine ⟨ByteReader.run_ofCursor (standsIn_start text) hcalls, ?_⟩
    intro call _
    exact ((standsIn_start text).run calls).isSafeCall call
  · intro text
    obtain ⟨hend, hall⟩ | ⟨ch, back, hall, hend⟩ := (start text).tokens_cases
    · exact .inl ⟨hend, hall.symm⟩
    · refine .inr ⟨_, ch, back, hall, rfl, ?_⟩
      rw [hend]
      exact congrArg (fun n => some (SelectorError.invalidCharacter n ch)) (Nat.zero_add _)
  · exact ⟨['#', '.'], .dot, _, _, rfl, by decide⟩
  · exact ⟨['a', '\n'], ']', _, _, rfl, by decide⟩

/-- A letter of two bytes, a required token that is not there, and a digit that starts no name. -/
theorem calls_read_losslessly_of_digit :
    let calls : List Call := [.expect .hash, .next]
    (∀ call ∈ calls, call.IsAscii) ∧ Call.next.IsAscii ∧
      ((start ['é', '.', '1']).run calls).2.position = 3 ∧
      (((start ['é', '.', '1']).run calls).2.perform .next).2 =
        ((start ['é', '.', '1']).run calls).2 := by
  intro calls
  have hcalls : ∀ call ∈ calls, call.IsAscii := by
    intro call hmem
    simp only [calls, List.mem_cons, List.not_mem_nil, or_false] at hmem
    rcases hmem with rfl | rfl <;> trivial
  obtain ⟨-, hsafe⟩ := calls_read_losslessly.1 ['é', '.', '1'] calls hcalls
  refine ⟨hcalls, trivial, ?_, (hsafe .next trivial).eq_of_error _ rfl rfl⟩
  decide

end Cursor

end BoxFlow
