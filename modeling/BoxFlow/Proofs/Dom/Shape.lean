import BoxFlow.Dom.Spec
import BoxFlow.Proofs.Dom.Links

/-!
# Trees of one shape

Two trees have one shape if they are equal but for the strings of their texts (`Tree.SameShape`).
Everything about a tree that does not look into its texts is then the same in both: links, elements,
walks and the body. What is asked of a node and those below it is the same if only these have one
shape (`Tree.SameShapeOn`). Growing two trees of one shape in the same way keeps it, so descriptions
of one shape give trees of one shape (`Spec.sameShape_toTree`).
-/

set_option autoImplicit false

namespace BoxFlow

/-- A kind of node without the string of a text. -/
def NodeKind.skeleton : NodeKind → NodeKind
  | .text _ => .text ""
  | kind => kind

/-- A node without the string of a text. -/
def Node.skeleton (n : Node) : Node := { n with kind := n.kind.skeleton }

theorem NodeKind.skeleton_skeleton (kind : NodeKind) : kind.skeleton.skeleton = kind.skeleton := by
  cases kind <;> rfl

theorem NodeKind.eq_or_texts_of_skeleton_eq {kind kind' : NodeKind}
    (h : kind.skeleton = kind'.skeleton) :
    kind = kind' ∨ ∃ content content', kind = .text content ∧ kind' = .text content' := by
  cases kind <;> cases kind' <;> simp_all [skeleton]

namespace Tree

variable {t t' : Tree} {id : NodeId}

/-! ## One node -/

/-- A node is equal in both trees but for the string of a text. -/
def SameShapeAt (t t' : Tree) (id : NodeId) : Prop :=
  (t'.get? id).map Node.skeleton = (t.get? id).map Node.skeleton

namespace SameShapeAt

/-- A part of a node that does not look into texts is the same in both trees. -/
theorem map_get? {α : Type} (h : t.SameShapeAt t' id) (part : Node → α)
    (hpart : ∀ n : Node, part n.skeleton = part n) :
    (t'.get? id).map part = (t.get? id).map part := by
  have hskeleton : part = part ∘ Node.skeleton := funext fun n => (hpart n).symm
  rw [hskeleton, ← Option.map_map, ← Option.map_map, h]

/-- A node has one kind in both trees, or is a text in both. -/
theorem kind_cases (h : t.SameShapeAt t' id) :
    (t'.get? id).map Node.kind = (t.get? id).map Node.kind ∨
      ∃ content content', (t.get? id).map Node.kind = some (.text content) ∧
        (t'.get? id).map Node.kind = some (.text content') := by
  have hkind := h.map_get? (fun n => n.kind.skeleton) fun n => n.kind.skeleton_skeleton
  cases hn : t.get? id with
  | none =>
    rw [hn, Option.map_none, Option.map_eq_none_iff] at hkind
    exact Or.inl (by rw [hkind])
  | some n =>
    rw [hn, Option.map_some, Option.map_eq_some_iff] at hkind
    obtain ⟨n', hn', hskeleton⟩ := hkind
    rw [hn']
    rcases NodeKind.eq_or_texts_of_skeleton_eq hskeleton with heq | ⟨content', content, hn', hn⟩
    · exact Or.inl (congrArg some heq)
    · exact Or.inr ⟨content, content', congrArg some hn, congrArg some hn'⟩

theorem parent?_eq (h : t.SameShapeAt t' id) : t'.parent? id = t.parent? id := by
  rw [parent?, parent?, bind_eq_join, bind_eq_join, h.map_get? Node.parent fun _ => rfl]

theorem children_eq (h : t.SameShapeAt t' id) : t'.children id = t.children id := by
  rw [children, children, h.map_get? Node.children fun _ => rfl]

theorem firstChild?_eq (h : t.SameShapeAt t' id) : t'.firstChild? id = t.firstChild? id := by
  rw [firstChild?, firstChild?, h.children_eq]

theorem next?_eq (h : t.SameShapeAt t' id) : t'.next? id = t.next? id := by
  rw [next?, next?, bind_eq_join, bind_eq_join, h.map_get? Node.next fun _ => rfl]

theorem element?_eq (h : t.SameShapeAt t' id) : t'.element? id = t.element? id := by
  rw [element?, element?]
  rcases h.kind_cases with heq | ⟨content, content', hkind, hkind'⟩
  · rw [heq]
  · rw [hkind, hkind']

theorem tag?_eq (h : t.SameShapeAt t' id) : t'.tag? id = t.tag? id := by
  rw [tag?, tag?, h.element?_eq]

theorem isTag_eq (h : t.SameShapeAt t' id) (tag : String) : t'.isTag id tag = t.isTag id tag := by
  rw [isTag, isTag, h.tag?_eq]

theorem isComment_eq (h : t.SameShapeAt t' id) : t'.isComment id = t.isComment id := by
  rw [isComment, isComment]
  rcases h.kind_cases with heq | ⟨content, content', hkind, hkind'⟩
  · rw [heq]
  · rw [hkind, hkind']

theorem isSome_text?_eq (h : t.SameShapeAt t' id) :
    (t'.text? id).isSome = (t.text? id).isSome := by
  rw [text?, text?]
  rcases h.kind_cases with heq | ⟨content, content', hkind, hkind'⟩
  · rw [heq]
  · rw [hkind, hkind']
    rfl

/-- Where the text of a node is the same, its kind is. -/
theorem kind_eq (h : t.SameShapeAt t' id) (htext : t'.text? id = t.text? id) :
    (t'.get? id).map Node.kind = (t.get? id).map Node.kind := by
  rcases h.kind_cases with heq | ⟨content, content', hkind, hkind'⟩
  · exact heq
  · rw [text?, text?, hkind, hkind'] at htext
    rw [hkind, hkind', Option.some.inj htext]

end SameShapeAt

/-! ## Some nodes and all below them -/

/-- Some nodes are equal in both trees but for the strings of texts, and so are all nodes below
them. -/
structure SameShapeOn (t t' : Tree) (S : NodeId → Prop) : Prop where
  atNode : ∀ {x : NodeId}, S x → t.SameShapeAt t' x
  child : ∀ {x c : NodeId}, S x → c ∈ t.children x → S c
  size_eq : t'.size = t.size

namespace SameShapeOn

variable {S : NodeId → Prop} {x c : NodeId} (h : t.SameShapeOn t' S)

include h

theorem of_elementChild (hx : S x) (hc : c ∈ t.elementChildren x) : S c :=
  h.child hx (List.mem_of_mem_filter hc)

theorem elementChildren_eq (hx : S x) : t'.elementChildren x = t.elementChildren x := by
  rw [elementChildren, elementChildren, (h.atNode hx).children_eq]
  apply List.filter_congr
  intro c hc
  rw [(h.atNode (h.child hx hc)).element?_eq]

theorem subtree_eq (hx : S x) : t'.subtree x = t.subtree x := by
  rw [subtree, subtree, h.size_eq]
  generalize t.size = limit
  induction limit generalizing x with
  | zero => rfl
  | succ limit ih =>
    rw [subtreeWithin, subtreeWithin, (h.atNode hx).children_eq]
    exact congrArg (x :: ·) (List.flatMap_congr fun c hc => ih (h.child hx hc))

end SameShapeOn

/-! ## Whole trees -/

/-- The trees are equal but for the strings of texts. -/
def SameShape (t t' : Tree) : Prop :=
  ∀ id : NodeId, (t'.get? id).map Node.skeleton = (t.get? id).map Node.skeleton

namespace SameShape

theorem of_map_eq (h : t'.nodes.map Node.skeleton = t.nodes.map Node.skeleton) :
    t.SameShape t' := by
  intro id
  rw [get?, get?, ← Array.getElem?_map, ← Array.getElem?_map, h]

theorem atNode (h : t.SameShape t') (id : NodeId) : t.SameShapeAt t' id := h id

theorem size_eq (h : t.SameShape t') : t'.size = t.size := by
  have hnone : ∀ id, t'.size ≤ id ↔ t.size ≤ id := by
    intro id
    have hget : t'.get? id = none ↔ t.get? id = none := by
      rw [← Option.map_eq_none_iff (f := Node.skeleton), h id, Option.map_eq_none_iff]
    rwa [get?, get?, Array.getElem?_eq_none_iff, Array.getElem?_eq_none_iff] at hget
  exact Nat.le_antisymm ((hnone t.size).2 (Nat.le_refl _)) ((hnone t'.size).1 (Nat.le_refl _))

/-- Trees of one shape have it at all nodes. -/
theorem on (h : t.SameShape t') : t.SameShapeOn t' fun _ => True where
  atNode _ := h.atNode _
  child _ _ := trivial
  size_eq := h.size_eq

theorem ancestors_eq (h : t.SameShape t') (id : NodeId) : t'.ancestors id = t.ancestors id := by
  rw [ancestors, ancestors, h.size_eq]
  generalize t.size = limit
  induction limit generalizing id with
  | zero => rfl
  | succ limit ih =>
    rw [ancestorsWithin, ancestorsWithin, (h.atNode id).parent?_eq]
    cases t.parent? id with
    | none => rfl
    | some p => exact congrArg (p :: ·) (ih p)

theorem depth_eq (h : t.SameShape t') (id : NodeId) : t'.depth id = t.depth id := by
  rw [depth, depth, h.ancestors_eq]

theorem body?_eq (h : t.SameShape t') : t'.body? = t.body? := by
  have htag : ∀ id, t'.tag? id = t.tag? id := fun id => (h.atNode id).tag?_eq
  have hchildren : t'.children = t.children := funext fun id => (h.atNode id).children_eq
  rw [body?, body?, findTag?, findTag?, h.size_eq]
  generalize [root] = level
  generalize t.size = limit
  induction limit generalizing level with
  | zero => rfl
  | succ limit ih => simp only [findTagWithin, htag, hchildren, ih]

/-! ## Growing in the same way -/

theorem refl (t : Tree) : t.SameShape t := fun _ => rfl

theorem modify (h : t.SameShape t') (id : NodeId) (change : Node → Node)
    (hchange : ∀ n, (change n).skeleton = change n.skeleton) :
    (t.modify id change).SameShape (t'.modify id change) := by
  intro x
  rw [get?_modify, get?_modify]
  split
  · have hcomm : Node.skeleton ∘ change = change ∘ Node.skeleton := funext hchange
    rw [Option.map_map, Option.map_map, hcomm, ← Option.map_map, ← Option.map_map, h x]
  · exact h x

theorem alloc (h : t.SameShape t') {kind kind' : NodeKind}
    (hkind : kind'.skeleton = kind.skeleton) :
    (t.alloc kind).1.SameShape (t'.alloc kind').1 := by
  intro x
  rw [get?_alloc, get?_alloc, h.size_eq]
  split
  · rw [Option.map_some, Option.map_some, Node.skeleton, Node.skeleton, hkind]
  · exact h x

theorem append (h : t.SameShape t') (p c : NodeId) :
    (t.append p c).SameShape (t'.append p c) := by
  have hcan : t'.canAppend p c = t.canAppend p c := by
    rw [canAppend, canAppend, h.size_eq, (h.atNode c).parent?_eq]
  rw [Tree.append, Tree.append, hcan, (h.atNode p).children_eq]
  split
  · -- the links of the parent, of the child and, if there is one, of the sibling before it
    cases (t.children p).getLast? with
    | none =>
      refine modify (modify h p _ ?_) c _ ?_
      all_goals exact fun _ => rfl
    | some l =>
      refine modify (modify (modify h p _ ?_) c _ ?_) l _ ?_
      all_goals exact fun _ => rfl
  · exact h

theorem appendNew (h : t.SameShape t') (p : NodeId) {kind kind' : NodeKind}
    (hkind : kind'.skeleton = kind.skeleton) :
    (t.appendNew p kind).1.SameShape (t'.appendNew p kind').1 := by
  show ((t.alloc kind).1.append p t.size).SameShape ((t'.alloc kind').1.append p t'.size)
  rw [h.size_eq]
  exact (h.alloc hkind).append p t.size

end SameShape

end Tree

namespace Spec

mutual

/-- A description without the strings of texts. -/
def skeleton : Spec → Spec
  | .text _ => .text ""
  | .comment content => .comment content
  | .element tag attributes children => .element tag attributes (skeletonAll children)

/-- Descriptions without the strings of texts. -/
def skeletonAll : List Spec → List Spec
  | [] => []
  | spec :: specs => skeleton spec :: skeletonAll specs

end

mutual

theorem sameShape_plant {t t' : Tree} (p : NodeId) (h : t.SameShape t') :
    ∀ {spec spec' : Spec}, spec'.skeleton = spec.skeleton →
      (plant t p spec).SameShape (plant t' p spec')
  | .text _, .text _, _ => h.appendNew p rfl
  | .comment _, .comment _, heq => by
    obtain rfl := Spec.comment.inj heq
    exact h.appendNew p rfl
  | .element tag attributes children, .element tag' attributes' children', heq => by
    obtain ⟨rfl, rfl, hchildren⟩ := Spec.element.inj heq
    let kind := NodeKind.element (.ofWritten tag' attributes')
    show (plantAll (t.appendNew p kind).1 t.size children).SameShape
      (plantAll (t'.appendNew p kind).1 t'.size children')
    rw [h.size_eq]
    exact sameShape_plantAll t.size (h.appendNew p rfl) hchildren

theorem sameShape_plantAll {t t' : Tree} (p : NodeId) (h : t.SameShape t') :
    ∀ {specs specs' : List Spec}, skeletonAll specs' = skeletonAll specs →
      (plantAll t p specs).SameShape (plantAll t' p specs')
  | [], [], _ => h
  | _ :: _, _ :: _, heq => by
    obtain ⟨hfirst, hrest⟩ := List.cons.inj heq
    exact sameShape_plantAll p (sameShape_plant p h hfirst) hrest

end

/-- Descriptions that are equal but for the strings of texts give trees that are. -/
theorem sameShape_toTree {spec spec' : Spec} (h : spec'.skeleton = spec.skeleton) :
    spec.toTree.SameShape spec'.toTree :=
  sameShape_plant Tree.root (.refl .empty) h

end Spec

end BoxFlow
