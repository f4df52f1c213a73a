import BoxFlow.Proofs.Stylesheet.Decomposition
import BoxFlow.Proofs.Stylesheet.WrittenDeclarations
import BoxFlow.Stylesheet.Parse

/-!
# The values of a style attribute

Values are trimmed when a declaration is read, and a token of a value starts with a character that
is not blank. So no value that a style attribute declares is blank without being empty, whether it
was written out or came from a shorthand (`Block.ofInline_solid`).
-/

set_option autoImplicit false

namespace BoxFlow

namespace Value

/-- A value that is not blank unless it is empty. -/
def IsSolid (value : String) : Prop := Text.isAllBlank value.toList → value = ""

theorem isSolid_of_trimmed {value : String} (h : Text.trimmed value = value) : IsSolid value := by
  intro hblank
  rw [← h, Text.trimmed, String.toList_ofList] at hblank
  rw [← h, Text.trimmed, Text.trim_eq_nil_of_isAllBlank hblank]

theorem isSolid_of_mem {value : String} {c : Char} (hc : c ∈ value.toList)
    (hblank : Text.isBlank c = false) : IsSolid value := by
  intro h
  have hc' := List.all_eq_true.1 h c hc
  simp [hblank] at hc'

theorem isSolid_of_mem_tokens {value t : String} (h : t ∈ tokens value) : IsSolid t := by
  obtain ⟨c, cs, ht, hblank⟩ := (isToken_of_mem_tokens h).exists_cons
  exact isSolid_of_mem (by rw [ht]; exact List.mem_cons_self) hblank

end Value

/-- The value shared out to a side is one of those given. -/
theorem Sides.get_mem_of_ofList? {α : Type} {values : List α} {sides : Sides α}
    (h : Sides.ofList? values = some sides) (side : Side) : sides.get side ∈ values := by
  unfold Sides.ofList? at h
  split at h <;> simp only [Option.some.injEq, reduceCtorEq] at h <;> subst h <;>
    cases side <;> simp [Sides.get]

namespace Block

/-- Every value in a block has a property. -/
def AllValues (P : String → Prop) (b : Block) : Prop :=
  ∀ d ∈ b.declarations, P d.value

namespace AllValues

variable {P : String → Prop} {b : Block}

theorem empty : AllValues P Block.empty := by
  intro d hd
  exact absurd hd List.not_mem_nil

theorem mem_setIn {name value : String} {ds : List Declaration} {d : Declaration}
    (h : d ∈ setIn name value ds) : d = ⟨name, value⟩ ∨ d ∈ ds := by
  induction ds with
  | nil => exact Or.inl (List.mem_singleton.1 h)
  | cons e ds ih =>
    rw [setIn] at h
    split at h
    · rcases List.mem_cons.1 h with h | h
      · exact Or.inl h
      · exact Or.inr (List.mem_cons_of_mem e h)
    · rcases List.mem_cons.1 h with rfl | h
      · exact Or.inr List.mem_cons_self
      · exact (ih h).imp_right (List.mem_cons_of_mem e)

theorem set (hb : AllValues P b) (name : String) {value : String} (hv : P value) :
    AllValues P (b.set name value) := by
  intro d hd
  rcases mem_setIn hd with rfl | hd
  · exact hv
  · exact hb d hd

theorem setIfValid (hb : AllValues P b) (name : String) {value : String} (hv : P value) :
    AllValues P (b.setIfValid name value) := by
  rw [Block.setIfValid]
  split
  · exact hb.set name hv
  · exact hb

theorem setBorder (hb : AllValues P b) (side : Side) {tokens : List String}
    (ht : ∀ t ∈ tokens, P t) : AllValues P (b.setBorder side tokens) :=
  List.foldlRecOn tokens _ hb fun _ hb t hmem => hb.setIfValid _ (ht t hmem)

theorem setSides (hb : AllValues P b) (longhand : Side → String) {values : Sides String}
    (hv : ∀ side, P (values.get side)) : AllValues P (b.setSides longhand values) :=
  List.foldlRecOn Side.all _ hb fun _ hb side _ => hb.setIfValid _ (hv side)

/-- A declaration adds its own value and tokens of it. -/
theorem declare (hb : AllValues P b) (name : String) {value : String} (hv : P value)
    (ht : ∀ t ∈ Value.tokens value, P t) : AllValues P (b.declare name value) := by
  rw [Block.declare]
  split
  · exact hb.set name hv
  · exact List.foldlRecOn _ _ (hb.set name hv) fun _ hb side _ => hb.setBorder side ht
  · split
    · next hsides =>
      exact (hb.set name hv).setSides _ fun side => ht _ (Sides.get_mem_of_ofList? hsides side)
    · exact hb

end AllValues

/-- No value of a style attribute is blank without being empty. -/
theorem ofInline_solid (text : String) : AllValues Value.IsSolid (ofInline text) := by
  rw [ofInline]
  refine List.foldlRecOn _ _ AllValues.empty ?_
  intro b hb pair hpair
  have hwritable := (Source.declarations_iff.1 rfl).1 pair hpair
  have hv : Value.IsSolid pair.2 := Value.isSolid_of_trimmed hwritable.value_trimmed
  exact hb.declare pair.1 hv fun t ht => Value.isSolid_of_mem_tokens ht

end Block

end BoxFlow
