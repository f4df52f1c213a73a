import BoxFlow.Proofs.Selector.Parts
import BoxFlow.Proofs.Text.Utf8

/-!
# Cursors move over a text

A call to a cursor passes over a part of the text in front of it and adds the bytes of that part to
the position (`Cursor.Passes`). Where the call finds something, the part is what it finds, together
with the character that ends it (`Cursor.perform_passes`). So a cursor that has started at the front
of a text stands behind a front part of it after any calls, whether they have failed or not
(`Cursor.StandsIn.run`).

Asking for the next token again and again comes to an end, since every token takes a character. The
tokens make up the text, up to the character that is refused if there is one
(`Cursor.tokens_cases`).
-/

set_option autoImplicit false

namespace BoxFlow

namespace Cursor

variable {c after : Cursor} {kind : TokenKind} {raw rest : List Char}

/-! ## Passing over a part of the text -/

/-- The second cursor stands behind a part of the text that begins at the first one. -/
structure Passes (before : Cursor) (read : List Char) (after : Cursor) : Prop where
  rest_eq : before.rest = read ++ after.rest
  position_eq : after.position = before.position + byteLength read

theorem Passes.refl (c : Cursor) : c.Passes [] c := ⟨rfl, rfl⟩

theorem passes_accept (h : c.rest = raw ++ rest) : c.Passes raw (c.accept kind raw rest).2 :=
  ⟨h, rfl⟩

/-- Reading the next token has three outcomes, and only a token moves the cursor. -/
theorem next_cases (c : Cursor) :
    (c.rest = [] ∧ c.next = (.ok none, c)) ∨
    (∃ ch rest, c.rest = ch :: rest ∧ c.next = (.error (.invalidCharacter c.position ch), c)) ∨
    ∃ token after, c.next = (.ok (some token), after) ∧ token.raw ≠ [] ∧
      c.Passes token.raw after := by
  cases hrest : c.rest with
  | nil => exact .inl ⟨rfl, by rw [next, hrest]⟩
  | cons ch rest =>
    by_cases hforbidden : Token.isForbidden ch
    · exact .inr (.inl ⟨ch, rest, rfl, by simp [next, hrest, hforbidden]⟩)
    · cases hkind : TokenKind.ofChar? ch with
      | some kind =>
        refine .inr (.inr ⟨⟨kind, [ch]⟩, (c.accept kind [ch] rest).2, ?_, List.cons_ne_nil _ _,
          passes_accept hrest⟩)
        simp [next, hrest, hforbidden, hkind, accept]
      | none =>
        by_cases hdigit : ch.isDigit
        · exact .inr (.inl ⟨ch, rest, rfl, by simp [next, hrest, hforbidden, hkind, hdigit]⟩)
        · have hname : Token.isNameChar ch := by simp [Token.isNameChar, hkind, hforbidden]
          refine .inr (.inr ⟨⟨.identifier, c.rest.takeWhile Token.isNameChar⟩,
            (c.accept .identifier (c.rest.takeWhile Token.isNameChar)
              (c.rest.dropWhile Token.isNameChar)).2, ?_, ?_,
            passes_accept List.takeWhile_append_dropWhile.symm⟩)
          · simp [next, hrest, hforbidden, hkind, hdigit, accept]
          · simp [hrest, hname]

/-- A required token is read like any other one, whether it is accepted or not. -/
theorem snd_expect (c : Cursor) (kind : TokenKind) : (c.expect kind).2 = c.next.2 := by
  rw [expect]
  split
  · next heq => rw [heq]
  · next heq => rw [heq]
  · next heq =>
    rw [heq]
    split <;> rfl

/-- Reading raw text passes over the text and the character that ends it, or else over everything
in front of the place where it gives up. -/
theorem readRaw_cases (c : Cursor) (stop : Char) :
    (∃ raw after, c.readRaw stop = (.ok (some raw), after) ∧ c.Passes (raw ++ [stop]) after) ∨
    ∃ read after, (c.readRaw stop = (.ok none, after) ∨
      ∃ e, c.readRaw stop = (.error e, after)) ∧ c.Passes read after := by
  cases hdrop : c.rest.dropWhile (fun ch => !Token.isForbidden ch && ch != stop) with
  | nil =>
    refine .inr ⟨_, _, .inl (by simp only [readRaw, hdrop]; rfl), ?_, rfl⟩
    have hsplit := (List.takeWhile_append_dropWhile
      (p := fun ch => !Token.isForbidden ch && ch != stop) (l := c.rest)).symm
    rwa [hdrop] at hsplit
  | cons ch rest =>
    obtain ⟨hsplit, hends⟩ := split_of_dropWhile hdrop
    by_cases hforbidden : Token.isForbidden ch
    · refine .inr ⟨_, _, .inr ⟨_, by simp only [readRaw, hdrop, if_pos hforbidden]; rfl⟩, hsplit,
        rfl⟩
    · obtain rfl : ch = stop := by simpa [hforbidden] using hends
      refine .inl ⟨_, _, by simp only [readRaw, hdrop, if_neg hforbidden]; rfl, ?_, ?_⟩
      · rw [List.append_assoc]
        exact hsplit
      · rw [byteLength_append, ← Nat.add_assoc]
        rfl

end Cursor

/-! ## Calls -/

/-- A request to read on. -/
inductive Call where
  | next
  | expect (kind : TokenKind)
  | readRaw (stop : Char)
deriving DecidableEq, Repr

/-- What a call finds: a token, or raw text with the character behind it. -/
inductive Reading where
  | token (token : Token)
  | raw (text : List Char) (stop : Char)
deriving DecidableEq, Repr

namespace Reading

/-- The part of the text that was read. -/
def consumed : Reading → List Char
  | token t => t.raw
  | raw text stop => text ++ [stop]

end Reading

namespace Cursor

variable {c before after : Cursor} {read text : List Char} {call : Call}

/-- Makes a call: what it finds, `none` at the end of the text, and the cursor after it. -/
def perform (c : Cursor) : Call → Except SelectorError (Option Reading) × Cursor
  | .next => (c.next.1.map (Option.map .token), c.next.2)
  | .expect kind => ((c.expect kind).1.map fun token => some (.token token), (c.expect kind).2)
  | .readRaw stop => ((c.readRaw stop).1.map (Option.map (Reading.raw · stop)), (c.readRaw stop).2)

/-- Reading a token passes over it, and over nothing if there is none. -/
theorem next_passes (c : Cursor) :
    ∃ read, c.Passes read c.next.2 ∧
      ∀ token, c.next.1 = .ok (some token) → read = token.raw := by
  obtain ⟨-, hnext⟩ | ⟨ch, rest, -, hnext⟩ | ⟨token, after, hnext, -, hpasses⟩ := c.next_cases
  · rw [hnext]
    exact ⟨[], .refl c, by simp⟩
  · rw [hnext]
    exact ⟨[], .refl c, by simp⟩
  · rw [hnext]
    refine ⟨token.raw, hpasses, ?_⟩
    intro token' h
    cases h
    rfl

/-- Every call passes over a part of the text, and what it finds is that part. -/
theorem perform_passes (c : Cursor) (call : Call) :
    ∃ read, c.Passes read (c.perform call).2 ∧
      ∀ reading, (c.perform call).1 = .ok (some reading) → read = reading.consumed := by
  cases call with
  | next =>
    obtain ⟨read, hpasses, hread⟩ := c.next_passes
    refine ⟨read, hpasses, ?_⟩
    intro reading h
    obtain ⟨found, hfound, hreading⟩ := exists_ok_of_map_eq_ok h
    obtain ⟨token, rfl, rfl⟩ := Option.map_eq_some_iff.1 hreading
    exact hread token hfound
  | expect kind =>
    obtain ⟨read, hpasses, hread⟩ := c.next_passes
    refine ⟨read, (c.snd_expect kind).symm ▸ hpasses, ?_⟩
    intro reading h
    obtain ⟨token, hfound, hreading⟩ := exists_ok_of_map_eq_ok h
    cases hreading
    obtain ⟨hnext, -⟩ := next_of_expect (Prod.ext hfound rfl)
    exact hread token (congrArg Prod.fst hnext)
  | readRaw stop =>
    obtain ⟨raw, after, hread, hpasses⟩ | ⟨read, after, hread, hpasses⟩ := c.readRaw_cases stop
    · rw [perform, hread]
      refine ⟨raw ++ [stop], hpasses, ?_⟩
      intro reading h
      cases h
      rfl
    · obtain hread | ⟨e, hread⟩ := hread
      · rw [perform, hread]
        exact ⟨read, hpasses, by simp [Except.map]⟩
      · rw [perform, hread]
        exact ⟨read, hpasses, by simp [Except.map]⟩

/-- Asking for the next token fails in place. -/
theorem perform_next_error {e : SelectorError} (h : (c.perform .next).1 = .error e) :
    (c.perform .next).2 = c := by
  obtain ⟨-, hnext⟩ | ⟨ch, rest, -, hnext⟩ | ⟨token, after, hnext, -, -⟩ := c.next_cases
  · rw [perform, hnext]
  · rw [perform, hnext]
  · rw [perform, hnext] at h
    cases h

/-- Makes calls one after the other, with what they find in order. -/
def run (c : Cursor) : List Call → List (Except SelectorError (Option Reading)) × Cursor
  | [] => ([], c)
  | call :: calls =>
    ((c.perform call).1 :: ((c.perform call).2.run calls).1, ((c.perform call).2.run calls).2)

/-- The cursor stands behind a front part of the text, and its position counts the bytes of that
part. -/
def StandsIn (text : List Char) (c : Cursor) : Prop :=
  ∃ front, text = front ++ c.rest ∧ byteLength front = c.position

theorem standsIn_start (text : List Char) : StandsIn text (start text) := ⟨[], rfl, rfl⟩

theorem StandsIn.of_passes (h : StandsIn text before) (hpasses : before.Passes read after) :
    StandsIn text after := by
  obtain ⟨front, htext, hfront⟩ := h
  refine ⟨front ++ read, ?_, ?_⟩
  · rw [htext, hpasses.rest_eq, List.append_assoc]
  · rw [byteLength_append, hfront, hpasses.position_eq]

theorem StandsIn.perform (h : StandsIn text c) (call : Call) :
    StandsIn text (c.perform call).2 := by
  obtain ⟨read, hpasses, -⟩ := c.perform_passes call
  exact h.of_passes hpasses

/-- A cursor stands in its text after any calls. -/
theorem StandsIn.run (h : StandsIn text c) (calls : List Call) :
    StandsIn text (c.run calls).2 := by
  induction calls generalizing c with
  | nil => exact h
  | cons call calls ih => exact ih (h.perform call)

/-! ## All tokens of a text -/

theorem length_rest_lt {token : Token} (h : c.next = (.ok (some token), after)) :
    after.rest.length < c.rest.length := by
  obtain ⟨-, hnext⟩ | ⟨ch, rest, -, hnext⟩ | ⟨token', after', hnext, hraw, hpasses⟩ :=
    c.next_cases
  · rw [hnext] at h
    cases h
  · rw [hnext] at h
    cases h
  · rw [hnext] at h
    cases h
    rw [hpasses.rest_eq, List.length_append]
    have hpos := List.length_pos_iff.2 hraw
    omega

/-- The tokens from a cursor on, and the error that ends them if there is one. -/
def tokens (c : Cursor) : List Token × Option SelectorError :=
  match _ : c.next with
  | (.error e, _) => ([], some e)
  | (.ok none, _) => ([], none)
  | (.ok (some token), after) => (token :: after.tokens.1, after.tokens.2)
termination_by c.rest.length
decreasing_by all_goals exact length_rest_lt ‹_›

theorem tokens_eq (c : Cursor) :
    c.tokens = match c.next with
      | (.error e, _) => ([], some e)
      | (.ok none, _) => ([], none)
      | (.ok (some token), after) => (token :: after.tokens.1, after.tokens.2) := by
  rw [tokens]
  split <;> simp_all

/-- The tokens make up the text in front of the cursor, or the text up to a character that is
refused, at the position where it stands. -/
theorem tokens_cases (c : Cursor) :
    (c.tokens.2 = none ∧ c.rest = c.tokens.1.flatMap Token.raw) ∨
    ∃ ch rest, c.rest = c.tokens.1.flatMap Token.raw ++ ch :: rest ∧
      c.tokens.2 =
        some (.invalidCharacter (c.position + byteLength (c.tokens.1.flatMap Token.raw)) ch) := by
  induction hlength : c.rest.length using Nat.strongRecOn generalizing c with
  | _ n ih =>
    rw [tokens_eq]
    obtain ⟨hrest, hnext⟩ | ⟨ch, rest, hrest, hnext⟩ | ⟨token, after, hnext, -, hpasses⟩ :=
      c.next_cases
    · rw [hnext]
      exact .inl ⟨rfl, hrest⟩
    · rw [hnext]
      exact .inr ⟨ch, rest, hrest, rfl⟩
    · rw [hnext, List.flatMap_cons]
      obtain ⟨hend, hall⟩ | ⟨ch, rest, hall, hend⟩ :=
        ih _ (hlength ▸ length_rest_lt hnext) after rfl
      · exact .inl ⟨hend, by rw [hpasses.rest_eq, ← hall]⟩
      · refine .inr ⟨ch, rest, ?_, ?_⟩
        · rw [hpasses.rest_eq, hall, List.append_assoc]
        · rw [hend, hpasses.position_eq, byteLength_append, Nat.add_assoc]

end Cursor

end BoxFlow
