import BoxFlow.Proofs.Stylesheet.Reachable

/-!
# Sheets with an index

A sheet can keep a table that tells where the rule of a selector text stands. Reading and merging
then go by the table and never search through the rules: a text in the table has its rule extended
at the position found there, and any other text first gets an empty rule at the end and an entry in
the table (`IndexedSheet.entry`).

The table is in step with the rules if it holds the position of every rule under its text, and
nothing else (`IndexedSheet.InStep`). Every declaration keeps it in step and does to the rules what
it does to those of a sheet without a table (`IndexedSheet.InStep.declare`,
`IndexedSheet.rules_declare`), so any reading and merging does (`IndexedSheet.Follows.agrees`).
-/

set_option autoImplicit false

namespace BoxFlow

/-- Rules in first-seen order, with a table of their positions by selector text. -/
structure IndexedSheet where
  rules : List Rule := []
  index : Std.HashMap String ℕ := ∅

namespace IndexedSheet

/-- The position of the rule for a selector text. A text that is not in the table gets an empty rule
at the end. -/
def entry (sheet : IndexedSheet) (text : String) (selector : Selector) : IndexedSheet × ℕ :=
  match sheet.index[text]? with
  | some i => (sheet, i)
  | none =>
    (⟨sheet.rules ++ [⟨text, selector, .empty⟩], sheet.index.insert text sheet.rules.length⟩,
      sheet.rules.length)

/-- What is declared under a selector text. -/
def get? (sheet : IndexedSheet) (text : String) : Option Block :=
  sheet.index[text]?.bind fun i => sheet.rules[i]?.map Rule.declarations

/-- Declares a block under a selector. -/
def declare (sheet : IndexedSheet) (text : String) (selector : Selector) (declarations : Block) :
    IndexedSheet :=
  let (sheet, i) := sheet.entry text selector
  { sheet with
    rules := sheet.rules.modify i fun r =>
      { r with declarations := r.declarations.extend declarations } }

/-- Declares everything that another sheet declares, in its order. -/
def merge (sheet other : IndexedSheet) : IndexedSheet :=
  other.rules.foldl (fun sheet r => sheet.declare r.text r.selector r.declarations) sheet

/-- Adds the rules of one block. -/
def addBlock (sheet : IndexedSheet) (block : Source.RawBlock) : IndexedSheet :=
  match Selector.parseGroup block.group with
  | .error _ => sheet
  | .ok selectors =>
    let declarations := Block.ofBody block.body
    selectors.foldl (fun sheet (text, selector) => sheet.declare text selector declarations) sheet

/-- The sheet that a source describes. -/
def parse (source : String) : IndexedSheet :=
  (Source.outline source.toList).blocks.foldl addBlock {}

/-- The table gives a text the position of the rule with that text, and no position to any other. -/
def InStep (sheet : IndexedSheet) : Prop :=
  ∀ (t : String) (i : ℕ), sheet.index[t]? = some i ↔ sheet.rules[i]?.map Rule.text = some t

/-- A sheet with a table that came about by the same readings and merges as one without. -/
inductive Follows : IndexedSheet → Stylesheet → Prop
  | parse (source : String) : Follows (.parse source) (.parse source)
  | merge {k l : IndexedSheet} {a b : Stylesheet} : Follows k a → Follows l b →
      Follows (k.merge l) (a.merge b)

variable {sheet k l : IndexedSheet} {a b : Stylesheet} {text : String} {r : Rule}

/-! ## One declaration -/

theorem InStep.empty : InStep {} := by
  intro t i
  simp

/-- No text has two positions, so no two rules have one text. -/
theorem InStep.nodup_keys (h : sheet.InStep) : (Rule.keyed.keys sheet.rules).Nodup := by
  rw [Keyed.keys, List.nodup_iff_getElem?_ne_getElem?]
  -- of two rules with one text, the table could give the position of one only
  intro i j hij hj heq
  rw [List.getElem?_map, List.getElem?_map] at heq
  obtain ⟨t, ht⟩ : ∃ t, sheet.rules[j]?.map Rule.text = some t := by
    rw [List.length_map] at hj
    exact ⟨_, by rw [List.getElem?_eq_getElem hj]; rfl⟩
  have hi : sheet.index[t]? = some i := (h t i).2 (heq.trans ht)
  rw [(h t j).2 ht] at hi
  exact absurd (Option.some.inj hi) (Nat.ne_of_gt hij)

theorem InStep.text_mem_keys_iff (h : sheet.InStep) :
    text ∈ Rule.keyed.keys sheet.rules ↔ (sheet.index[text]?).isSome := by
  rw [List.mem_iff_getElem?, Option.isSome_iff_exists]
  apply exists_congr
  intro i
  rw [Keyed.keys, List.getElem?_map]
  exact (h text i).symm

/-- A rule of a new text may be added at the end, if the table tells its position. -/
theorem InStep.push (h : sheet.InStep) (hnone : sheet.index[r.text]? = none) :
    InStep ⟨sheet.rules ++ [r], sheet.index.insert r.text sheet.rules.length⟩ := by
  intro t i
  have hlast : (sheet.rules ++ [r])[i]?.map Rule.text = some t ↔
      sheet.rules[i]?.map Rule.text = some t ∨ (i = sheet.rules.length ∧ r.text = t) := by
    grind
  rw [Std.HashMap.getElem?_insert, hlast, ← h t i]
  -- the text of the new rule had no position, and any other text keeps its own
  by_cases ht : r.text = t
  · rw [if_pos (beq_iff_eq.2 ht), ← ht, hnone, Option.some.injEq]
    exact ⟨fun hi => Or.inr ⟨hi.symm, rfl⟩, fun hi => (hi.resolve_left nofun).1.symm⟩
  · rw [if_neg (mt beq_iff_eq.1 ht)]
    exact ⟨Or.inl, fun hi => hi.resolve_right fun hi => ht hi.2⟩

/-- Looking up the entry of a text may add an empty rule for it. That makes no difference to a rule
put for the text afterwards. -/
theorem entry_spec (h : sheet.InStep) (text : String) (selector : Selector) :
    (sheet.entry text selector).1.InStep ∧
      (sheet.entry text selector).1.index[text]? = some (sheet.entry text selector).2 ∧
      ∀ declarations, Rule.keyed.put ⟨text, selector, declarations⟩ sheet.rules =
        Rule.keyed.put ⟨text, selector, declarations⟩ (sheet.entry text selector).1.rules := by
  cases hindex : sheet.index[text]? with
  | some i =>
    rw [entry, hindex]
    exact ⟨h, hindex, fun _ => rfl⟩
  | none =>
    rw [entry, hindex]
    refine ⟨h.push hindex, Std.HashMap.getElem?_insert_self, ?_⟩
    -- the empty rule and the one that is put for the same text come to the latter
    intro declarations
    have hnew : Rule.keyed.key ⟨text, selector, .empty⟩ ∉ Rule.keyed.keys sheet.rules := by
      intro hmem
      have hsome := h.text_mem_keys_iff.1 hmem
      rw [show Rule.keyed.key ⟨text, selector, .empty⟩ = text from rfl, hindex] at hsome
      cases hsome
    have hcombine : Rule.keyed.combine ⟨text, selector, .empty⟩ ⟨text, selector, declarations⟩ =
        ⟨text, selector, declarations⟩ :=
      congrArg (Rule.mk text selector) (Block.empty_extend declarations)
    show _ = Rule.keyed.put _ (sheet.rules ++ [⟨text, selector, .empty⟩])
    have hsame : Rule.keyed.key ⟨text, selector, .empty⟩ =
        Rule.keyed.key ⟨text, selector, declarations⟩ := rfl
    rw [← Keyed.put_of_notMem hnew, Keyed.put_put hsame, hcombine]

/-- A declaration does the same to the rules whether or not there is a table. -/
theorem rules_declare (h : sheet.InStep) (text : String) (selector : Selector)
    (declarations : Block) :
    (sheet.declare text selector declarations).rules =
      Rule.keyed.put ⟨text, selector, declarations⟩ sheet.rules := by
  obtain ⟨hentry, hindex, hput⟩ := entry_spec h text selector
  obtain ⟨r, hr, htext⟩ := Option.map_eq_some_iff.1 ((hentry _ _).1 hindex)
  have hkey : Rule.keyed.key r = Rule.keyed.key ⟨text, selector, declarations⟩ := htext
  rw [hput, Keyed.put_eq_modify hentry.nodup_keys hr hkey]
  rfl

theorem InStep.declare (h : sheet.InStep) (text : String) (selector : Selector)
    (declarations : Block) : (sheet.declare text selector declarations).InStep := by
  obtain ⟨hentry, -, -⟩ := entry_spec h text selector
  intro t i
  -- extending a rule leaves its text alone
  have htext : ∀ (rules : List Rule) (j : ℕ), (rules.modify j fun r =>
      { r with declarations := r.declarations.extend declarations }).map Rule.text =
        rules.map Rule.text := by
    intro rules j
    apply List.ext_getElem?
    intro i
    rw [List.getElem?_map, List.getElem?_modify, List.getElem?_map]
    cases rules[i]? with
    | none => rfl
    | some r =>
      show some (if j = i then _ else r).text = some r.text
      split <;> rfl
  rw [← List.getElem?_map]
  show _ ↔ ((sheet.entry text selector).1.rules.modify _ _ |>.map Rule.text)[i]? = some t
  rw [htext, List.getElem?_map]
  exact hentry t i

/-! ## Reading and merging -/

/-- Being in step, with the rules of a sheet without a table. -/
structure Agrees (k : IndexedSheet) (a : Stylesheet) : Prop where
  inStep : k.InStep
  rules_eq : k.rules = a.rules

/-- The table tells the positions that a search through the rules finds. -/
theorem Agrees.index?_eq (h : Agrees k a) (t : String) : a.index? t = k.index[t]? := by
  apply Option.ext
  intro i
  rw [Stylesheet.index?, List.findIdx?_eq_some_iff_getElem, h.inStep t i, h.rules_eq]
  constructor
  · rintro ⟨hi, htext, -⟩
    rw [List.getElem?_eq_getElem hi]
    exact congrArg some (beq_iff_eq.1 htext)
  · intro hi
    obtain ⟨r, hr, htext⟩ := Option.map_eq_some_iff.1 hi
    obtain ⟨hlt, hget⟩ := List.getElem?_eq_some_iff.1 hr
    refine ⟨hlt, beq_iff_eq.2 (hget ▸ htext), ?_⟩
    -- an earlier rule with this text would have the same position in the table
    intro j hji htext'
    have hj : a.rules[j]?.map Rule.text = some t := by
      rw [List.getElem?_eq_getElem (hji.trans hlt)]
      exact congrArg some (beq_iff_eq.1 htext')
    rw [← h.rules_eq] at hi hj
    have hsame := ((h.inStep t i).2 hi).symm.trans ((h.inStep t j).2 hj)
    exact absurd (Option.some.inj hsame) (Nat.ne_of_gt hji)

/-- Looking a text up by the table gives what a search for it gives. -/
theorem Agrees.get?_eq (h : Agrees k a) (t : String) : k.get? t = a.get? t := by
  rw [IndexedSheet.get?, ← h.index?_eq, Stylesheet.get?, Stylesheet.index?, h.rules_eq,
    List.find?_eq_bind_findIdx?_getElem?]
  cases List.findIdx? (fun r : Rule => r.text == t) a.rules <;> rfl

theorem Agrees.empty : Agrees {} .empty := ⟨.empty, rfl⟩

theorem Agrees.declare (h : Agrees k a) (text : String) (selector : Selector)
    (declarations : Block) :
    Agrees (k.declare text selector declarations) (a.declare text selector declarations) where
  inStep := h.inStep.declare text selector declarations
  rules_eq := by
    rw [rules_declare h.inStep, h.rules_eq, Stylesheet.rules_declare]

theorem Agrees.merge (hk : Agrees k a) (hl : Agrees l b) : Agrees (k.merge l) (a.merge b) := by
  rw [IndexedSheet.merge, Stylesheet.merge, hl.rules_eq]
  generalize b.rules = rules
  induction rules generalizing k a with
  | nil => exact hk
  | cons r rules ih => exact ih (hk.declare _ _ _)

theorem Agrees.addBlock (h : Agrees k a) (block : Source.RawBlock) :
    Agrees (k.addBlock block) (a.addBlock block) := by
  rw [IndexedSheet.addBlock, Stylesheet.addBlock]
  cases Selector.parseGroup block.group with
  | error e => exact h
  | ok selectors =>
    simp only
    induction selectors generalizing k a with
    | nil => exact h
    | cons pair selectors ih => exact ih (h.declare _ _ _)

theorem Agrees.parse (source : String) : Agrees (.parse source) (.parse source) := by
  have hblocks : ∀ (blocks : List Source.RawBlock) (k : IndexedSheet) (a : Stylesheet),
      Agrees k a → Agrees (blocks.foldl IndexedSheet.addBlock k)
        (blocks.foldl Stylesheet.addBlock a) := by
    intro blocks
    induction blocks with
    | nil => exact fun _ _ h => h
    | cons block blocks ih => exact fun k a h => ih _ _ (h.addBlock block)
  exact hblocks _ _ _ .empty

namespace Follows

/-- Any reading and merging keeps the table in step, and leads to the same rules as without. -/
theorem agrees (h : Follows k a) : Agrees k a := by
  induction h with
  | parse source => exact .parse source
  | merge _ _ iha ihb => exact iha.merge ihb

theorem reachable (h : Follows k a) : a.Reachable := by
  induction h with
  | parse source => exact .parse source
  | merge _ _ iha ihb => exact .merge iha ihb

end Follows

/-- A table can be kept along on any way to a sheet. -/
theorem reachable_iff_exists_follows : a.Reachable ↔ ∃ k, Follows k a := by
  refine ⟨fun h => ?_, fun ⟨_, h⟩ => h.reachable⟩
  induction h with
  | parse source => exact ⟨_, .parse source⟩
  | merge _ _ iha ihb =>
    obtain ⟨k, hk⟩ := iha
    obtain ⟨l, hl⟩ := ihb
    exact ⟨_, .merge hk hl⟩

end IndexedSheet

end BoxFlow
