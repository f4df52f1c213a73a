import BoxFlow.Proofs.Cascade.BoundedScore
import BoxFlow.Proofs.Cascade.ComputedStyle
import BoxFlow.Selector.Parse
import Mathlib.Data.List.InsertIdx

/-!
# Outranked rules

A rule that scores less than another one has no say in what the other declares: it may be put into
a sheet at any place, and each property that the other rule declares keeps its computed value
(`Stylesheet.get?_computed_insertIdx`).

Scores are sums, in which an id counts for a hundred. So a selector with more ids outranks one with
fewer as long as what else the latter asks for does not make up for the ids
(`Selector.more_ids_outrank`). Eleven classes do (`Selector.classes_outrank_id`).
-/

set_option autoImplicit false

namespace BoxFlow

/-! ## Weights -/

namespace Compound

variable {α : Type}

/-- What the parts of a selector weigh, ids apart. -/
def detail (c : Compound α) : ℕ :=
  (if c.universal then 2 else 0) + (if c.tag = "" then 0 else 2) + 10 * c.classes.length +
    (if c.attributeTest.isSome then 10 else 0) + c.pseudoClasses.length

theorem weight_eq_detail (c : Compound α) : c.weight = 100 * c.ids.length + c.detail - 1 := by
  rw [weight, detail]
  split <;> split <;> split <;> omega

/-- A score that counts as a match is the weight. -/
theorem scoreWith_eq_weight {functionHolds : FunctionalPseudo → α → Bool} {c : Compound α}
    {s : Subject} (h : 0 < c.scoreWith functionHolds s) :
    c.scoreWith functionHolds s = c.weight := by
  have hmatch : c.scoreWith functionHolds s ≠ noMatch := by
    intro hno
    rw [hno] at h
    exact absurd h (by decide)
  unfold scoreWith at hmatch ⊢
  split
  · next helement => simp [helement] at hmatch
  · next e helement =>
    rw [if_pos]
    by_contra hfails
    simp [helement, hfails] at hmatch

end Compound

/-! ## A rule put into a sheet -/

variable {rules : List Rule} {s : Subject} {p : String} {a b r : Rule} {v : Option String}

/-- A winner remains one when a rule below it is put in somewhere. -/
theorem IsWinner.insertIdx {j : ℕ} (h : IsWinner rules s p j r)
    (hb : (b.against s).key < (r.against s).key) (i : ℕ) :
    IsWinner (rules.insertIdx i b) s p (if j < i then j else j + 1) r where
  at_position := by
    rw [List.getElem?_insertIdx]
    by_cases hj : j < i
    · rw [if_pos hj, if_pos hj]
      exact h.at_position
    · rw [if_neg hj, if_neg (by omega), if_neg (by omega)]
      exact h.at_position
  competes := h.competes
  greatest := by
    intro k r' hk hr'
    rw [List.getElem?_insertIdx] at hk
    rw [Rule.rank_le_rank_iff]
    -- in front of the place positions are the same, and behind it they are one more
    split at hk
    · next hlt =>
      refine (Rule.rank_le_rank_iff.1 (h.greatest k r' hk hr')).imp_right ?_
      rintro ⟨hkey, hle⟩
      exact ⟨hkey, by split <;> omega⟩
    · split at hk
      · split at hk
        · obtain rfl : b = r' := Option.some.inj hk
          exact Or.inl hb
        · cases hk
      · refine (Rule.rank_le_rank_iff.1 (h.greatest _ r' hk hr')).imp_right ?_
        rintro ⟨hkey, hle⟩
        exact ⟨hkey, by split <;> omega⟩

/-- A competing rule is not above the winner. -/
theorem IsWinner.key_le {j : ℕ} (h : IsWinner rules s p j r) (ha : a ∈ rules)
    (hcompetes : a.Competes s p) : (a.against s).key ≤ (r.against s).key := by
  obtain ⟨k, hk⟩ := List.mem_iff_getElem?.1 ha
  rcases Rule.rank_le_rank_iff.1 (h.greatest k a hk hcompetes) with hlt | ⟨heq, -⟩
  · exact hlt.le
  · exact heq.le

/-- A rule below one that competes for a property has no say in it. -/
theorem Gives.insertIdx (h : Gives rules s p v) (ha : a ∈ rules) (hcompetes : a.Competes s p)
    (hb : (b.against s).key < (a.against s).key) (i : ℕ) : Gives (rules.insertIdx i b) s p v := by
  cases h with
  | nothing hnone => exact absurd hcompetes (hnone a ha)
  | winner hwinner =>
    exact .winner (hwinner.insertIdx (hb.trans_le (hwinner.key_le ha hcompetes)) i)

namespace Stylesheet

/-- A rule that scores less than one of a sheet may be put into the sheet at any place: what the
other rule declares has the same computed value as without it. -/
theorem get?_computed_insertIdx (ha : a ∈ rules) (hcompetes : a.Competes s p)
    (hb : b.selector.specificity s < a.selector.specificity s) (i : ℕ) (parent : Style) :
    (computed ⟨rules.insertIdx i b⟩ s parent).get? p = (computed ⟨rules⟩ s parent).get? p := by
  have hkey : (b.against s).key < (a.against s).key := Prod.Lex.toLex_lt_toLex.2 (Or.inl hb)
  have hcascaded : (cascaded ⟨rules.insertIdx i b⟩ s).get? p = (cascaded ⟨rules⟩ s).get? p :=
    (gives_cascaded _ s p).unique ((gives_cascaded ⟨rules⟩ s p).insertIdx ha hcompetes hkey i)
  cases he : s.tree.element? s.id with
  | none => simp only [computed, he]
  | some e => rw [get?_computed _ he, get?_computed _ he, hcascaded]

/-- A rule of which the score can be counted makes no styling fail. -/
theorem overflow?_insertIdx (hb : (b.selector.specificity32? s).isSome) (rules : List Rule)
    (i : ℕ) : overflow? ⟨rules.insertIdx i b⟩ s = overflow? ⟨rules⟩ s := by
  have hall : (rules.insertIdx i b).all (fun rule => (rule.selector.specificity32? s).isSome) =
      rules.all fun rule => (rule.selector.specificity32? s).isSome := by
    by_cases hi : i ≤ rules.length
    · rw [(List.perm_insertIdx b rules hi).all_eq, List.all_cons, hb, Bool.true_and]
    · rw [List.insertIdx_of_length_lt (Nat.lt_of_not_le hi)]
  rw [overflow?, overflow?, hall]

end Stylesheet

/-! ## Ids against other parts -/

namespace Selector

/-- Selectors have a score in 32 bits if their parts, and those of their arguments, do not weigh too
much. Of two selectors that match a node with such scores, the first with more ids, the first scores
more exactly if the other parts of the second do not weigh a hundred more than its own for each id
that it has more. Then a rule with the second selector may be put into a sheet at any place: styling
fails neither more nor less than without it, and what a rule with the first one declares keeps its
computed value. -/
theorem more_ids_outrank (s : Subject) :
    (∀ c : Selector, c.Fits → ∃ m, c.specificity32? s = some m) ∧
    ∀ (c d : Selector) (m n : Int), c.specificity32? s = some m → d.specificity32? s = some n →
      0 < m → 0 < n → d.ids.length < c.ids.length →
      (n < m ↔ d.detail < c.detail + 100 * (c.ids.length - d.ids.length)) ∧
      (n < m →
        ∀ (rules : List Rule) (a b : Rule), a ∈ rules → a.selector = c → b.selector = d →
          ∀ (p : String), (a.declarations.get? p).isSome → ∀ (i : ℕ) (parent : Style),
            Stylesheet.overflow? ⟨rules.insertIdx i b⟩ s = Stylesheet.overflow? ⟨rules⟩ s ∧
            (Stylesheet.computed ⟨rules.insertIdx i b⟩ s parent).get? p =
              (Stylesheet.computed ⟨rules⟩ s parent).get? p) := by
  refine ⟨fun c hfits => ⟨_, specificity32?_eq hfits s⟩, ?_⟩
  intro c d m n hm hn hc hd hids
  have hcscore : c.specificity s = m := specificity_of_32 hm
  have hdscore : d.specificity s = n := specificity_of_32 hn
  rw [← hcscore] at hc
  rw [← hdscore] at hd
  constructor
  · have hcweight : c.specificity s = c.weight := Compound.scoreWith_eq_weight hc
    have hdweight : d.specificity s = d.weight := Compound.scoreWith_eq_weight hd
    rw [← hcscore, ← hdscore, hcweight, hdweight, Compound.weight_eq_detail,
      Compound.weight_eq_detail]
    omega
  · rintro hlt rules a b ha rfl rfl p hp i parent
    rw [← hcscore, ← hdscore] at hlt
    exact ⟨Stylesheet.overflow?_insertIdx (Option.isSome_of_eq_some hn) rules i,
      Stylesheet.get?_computed_insertIdx ha ⟨hc, hp⟩ hlt i parent⟩

/-- An id outranks a tag with a class, and its rule decides in whatever order the two are given. -/
theorem more_ids_outrank_class :
    let tree := (Tree.empty.appendNew Tree.root
      (.element ⟨"p", [⟨"id", "x"⟩, ⟨"class", "y"⟩]⟩)).1
    let s : Subject := ⟨tree, 1, {}⟩
    let c : Selector := { ids := ["x"] }
    let d : Selector := { tag := "p", classes := ["y"] }
    let a : Rule := ⟨"#x", c, Block.empty.set "color" "red"⟩
    let b : Rule := ⟨"p.y", d, Block.empty.set "color" "blue"⟩
    c.specificity32? s = some 99 ∧ d.specificity32? s = some 11 ∧ d.ids.length < c.ids.length ∧
      ∀ i parent, Stylesheet.overflow? ⟨[a].insertIdx i b⟩ s = Stylesheet.overflow? ⟨[a]⟩ s ∧
        (Stylesheet.computed ⟨[a].insertIdx i b⟩ s parent).get? "color" =
          (Stylesheet.computed ⟨[a]⟩ s parent).get? "color" := by
  intro tree s c d a b
  have hc : c.specificity32? s = some 99 := by decide +kernel
  have hd : d.specificity32? s = some 11 := by decide +kernel
  have hids : d.ids.length < c.ids.length := by decide
  obtain ⟨hiff, hsame⟩ := (more_ids_outrank s).2 c d 99 11 hc hd (by decide) (by decide) hids
  have hlt : (11 : Int) < 99 := hiff.2 (by decide)
  exact ⟨hc, hd, hids, hsame hlt [a] a b List.mem_cons_self rfl rfl "color" (by decide)⟩

/-- Eleven classes outrank an id. -/
theorem classes_outrank_id :
    let tree := (Tree.empty.appendNew Tree.root
      (.element ⟨"p", [⟨"id", "x"⟩, ⟨"class", "y"⟩]⟩)).1
    let s : Subject := ⟨tree, 1, {}⟩
    let c : Selector := { ids := ["x"] }
    let d : Selector := { classes := List.replicate 11 "y" }
    let a : Rule := ⟨"#x", c, Block.empty.set "color" "red"⟩
    let b : Rule := ⟨".y.y.y.y.y.y.y.y.y.y.y", d, Block.empty.set "color" "blue"⟩
    Selector.parse "#x".toList = .ok c ∧
      Selector.parse ".y.y.y.y.y.y.y.y.y.y.y".toList = .ok d ∧
      c.specificity32? s = some 99 ∧ d.specificity32? s = some 109 ∧
      d.ids.length < c.ids.length ∧
      (Stylesheet.computed ⟨[b, a]⟩ s .empty).get? "color" = some "blue" := by
  intro tree s c d a b
  have he : s.tree.element? s.id = some ⟨"p", [⟨"id", "x"⟩, ⟨"class", "y"⟩]⟩ := by decide
  have hgives : Gives [b, a] s "color" (some "blue") := by
    apply Gives.winner (IsWinner.head ⟨by decide +kernel, by decide⟩ ?_)
    intro r hr _
    obtain rfl := List.mem_singleton.1 hr
    decide +kernel
  have hblue : (Stylesheet.computed ⟨[b, a]⟩ s .empty).get? "color" = some "blue" := by
    rw [Stylesheet.get?_computed _ he, (Stylesheet.gives_cascaded ⟨[b, a]⟩ s _).unique hgives]
    decide +kernel
  exact ⟨by decide, by decide, by decide +kernel, by decide +kernel, by decide, hblue⟩

end Selector

end BoxFlow
