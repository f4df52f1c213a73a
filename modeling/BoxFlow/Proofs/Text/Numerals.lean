import BoxFlow.Text.Numeral
import Mathlib.Data.Nat.Digits.Defs

/-!
# Numerals and their values

A numeral is an optional sign in front of ASCII digits (`Text.IsNumeral`), and it stands for a whole
number of any size. Reading accepts just the numerals and gives that number
(`Text.readSigned?_eq_some_iff`); where the number has to fit in 64 bits, a longer numeral is
refused though it is one (`Text.readInt64?_eq_some_iff`).
-/

set_option autoImplicit false

namespace BoxFlow.Text

variable {cs ds : List Char} {n : ℤ} {c : Char}

/-- One or more ASCII digits. -/
def IsDigits (cs : List Char) : Prop := cs ≠ [] ∧ ∀ c ∈ cs, c.isDigit

/-- The number that digits stand for in base ten, the most significant digit first. -/
def decimalValue (ds : List Char) : ℕ :=
  Nat.ofDigits 10 (ds.reverse.map fun d => d.toNat - '0'.toNat)

/-- A text that stands for a whole number: digits with or without a sign in front. -/
inductive IsNumeral : List Char → ℤ → Prop
  | unsigned {ds : List Char} : IsDigits ds → IsNumeral ds (decimalValue ds)
  | plus {ds : List Char} : IsDigits ds → IsNumeral ('+' :: ds) (decimalValue ds)
  | minus {ds : List Char} : IsDigits ds → IsNumeral ('-' :: ds) (-decimalValue ds)

theorem digitsValue_eq (ds : List Char) : digitsValue ds = decimalValue ds := by
  rw [decimalValue, Nat.ofDigits_eq_foldr, List.foldr_map, List.foldr_reverse, digitsValue]
  simp only [Nat.cast_id, Nat.add_comm]

theorem readDigits?_eq_some_iff {n : ℕ} :
    readDigits? cs = some n ↔ IsDigits cs ∧ n = decimalValue cs := by
  rw [readDigits?, digitsValue_eq]
  by_cases h : IsDigits cs
  · obtain ⟨hne, hdigits⟩ := h
    have hcond : ¬ (cs.isEmpty || !cs.all Char.isDigit) = true := by
      simpa [hne] using hdigits
    rw [if_neg hcond, Option.some.injEq, @eq_comm _ _ n]
    constructor
    · intro hn
      exact ⟨⟨hne, hdigits⟩, hn⟩
    · exact And.right
  · have hcond : (cs.isEmpty || !cs.all Char.isDigit) = true := by
      by_contra hno
      exact h (by simpa [IsDigits] using hno)
    rw [if_pos hcond]
    exact ⟨fun hn => absurd hn.symm (Option.some_ne_none n), fun hn => absurd hn.1 h⟩

/-- A sign is no digit, so no numeral with a sign is also one without. -/
theorem not_isDigits_cons (h : c.isDigit = false) (ds : List Char) : ¬ IsDigits (c :: ds) :=
  fun hdigits => absurd (hdigits.2 c List.mem_cons_self) (by rw [h]; decide)

/-- The digits behind a sign, and what becomes of their number. -/
theorem map_readDigits?_eq_some_iff {signed : ℤ → ℤ} :
    Option.map signed (do let m ← readDigits? cs; pure (m : ℤ)) = some n ↔
      IsDigits cs ∧ n = signed (decimalValue cs) := by
  cases hread : readDigits? cs with
  | none =>
    have hno : ¬ IsDigits cs := fun hdigits =>
      Option.some_ne_none _ ((readDigits?_eq_some_iff.2 ⟨hdigits, rfl⟩).symm.trans hread)
    exact ⟨fun h => absurd h.symm (Option.some_ne_none n), fun h => absurd h.1 hno⟩
  | some m =>
    obtain ⟨hdigits, rfl⟩ := readDigits?_eq_some_iff.1 hread
    show some (signed (decimalValue cs)) = some n ↔ _
    rw [Option.some.injEq, eq_comm, and_iff_right hdigits]

theorem readSigned?_eq_some_iff : readSigned? cs = some n ↔ IsNumeral cs n := by
  constructor
  · intro h
    unfold readSigned? at h
    split at h
    all_goals
      obtain ⟨hdigits, rfl⟩ := map_readDigits?_eq_some_iff.1 h
    · exact .minus hdigits
    · exact .plus hdigits
    · exact .unsigned hdigits
  · intro h
    cases h with
    | plus hdigits => exact map_readDigits?_eq_some_iff.2 ⟨hdigits, rfl⟩
    | minus hdigits => exact map_readDigits?_eq_some_iff.2 ⟨hdigits, rfl⟩
    | unsigned hdigits =>
      unfold readSigned?
      split
      · exact absurd hdigits (not_isDigits_cons (by decide) _)
      · exact absurd hdigits (not_isDigits_cons (by decide) _)
      · exact map_readDigits?_eq_some_iff.2 ⟨hdigits, rfl⟩

/-- Reading refuses a numeral if its number does not fit, and nothing else. -/
theorem readInt64?_eq_some_iff : readInt64? cs = some n ↔ IsNumeral cs n ∧ isInt64 n := by
  rw [readInt64?, readWithin?, Option.filter_eq_some_iff, readSigned?_eq_some_iff]
  rfl

/-- A text stands for one number at most. -/
theorem IsNumeral.unique {m : ℤ} (hm : IsNumeral cs m) (hn : IsNumeral cs n) : m = n :=
  Option.some.inj ((readSigned?_eq_some_iff.2 hm).symm.trans (readSigned?_eq_some_iff.2 hn))

/-- A numeral consists of digits and signs. -/
theorem IsNumeral.mem_cases (h : IsNumeral cs n) (hc : c ∈ cs) :
    c.isDigit ∨ c = '+' ∨ c = '-' := by
  cases h with
  | unsigned hdigits => exact Or.inl (hdigits.2 c hc)
  | plus hdigits =>
    rcases List.mem_cons.1 hc with rfl | hc
    · exact Or.inr (Or.inl rfl)
    · exact Or.inl (hdigits.2 c hc)
  | minus hdigits =>
    rcases List.mem_cons.1 hc with rfl | hc
    · exact Or.inr (Or.inr rfl)
    · exact Or.inl (hdigits.2 c hc)

end BoxFlow.Text
