import BoxFlow.Image.Store
import Mathlib.Data.List.Induction

/-!
# Loading images while files change

A store is asked for images one after the other, and whoever asks may find other files each time. It
can be told from what was asked and answered before what a store answers, without looking into it:
a source that is remote is refused; a source that leads to a way for which an image was returned
before gets this image again, whatever is in the file now; and for any other source the file decides
that is there now. The reason is that a store holds for every way what was returned for it, and
nothing else (`ImageStore.Holds`), and every load keeps this (`ImageStore.Holds.load`), so it holds
after any number of loads (`ImageStore.holds_after`).
-/

set_option autoImplicit false

namespace BoxFlow.ImageStore

/-- What a load comes to. -/
abbrev Outcome := Except ImageError StoredImage

/-- A load of a source, with the files as they are at that moment. -/
structure Load where
  files : FileReader
  source : String

namespace Load

/-- The path that the source names below a folder. -/
def path (folder? : Option String) (l : Load) : String :=
  pathOf { folder? } (Text.trimmed l.source)

/-- The way on which the source is found below a folder. A remote source has none. -/
def way? (folder? : Option String) (l : Load) : Option Way :=
  if ImageSource.isRemote (Text.trimmed l.source) then none else some (Path.way (l.path folder?))

end Load

variable {decode? : Bytes → Option Image} {folder? : Option String} {store : ImageStore} {l : Load}
  {way : Way} {stored : StoredImage} {earlier : List (Load × Outcome)} {outcome : Outcome}

/-! ## The images of a store -/

theorem findFrom_concat (way key : Way) (image : Image) (n : ℕ) (images : List (Way × Image)) :
    findFrom way n (images ++ [(key, image)]) = (findFrom way n images).or
      (if key = way then some ⟨n + images.length, image⟩ else none) := by
  induction images generalizing n with
  | nil => rfl
  | cons entry images ih =>
    rw [List.cons_append, findFrom, findFrom, ih]
    split
    · rfl
    · rw [List.length_cons, Nat.add_right_comm, Nat.add_assoc]

theorem find?_concat (store : ImageStore) (way key : Way) (image : Image) :
    find? { store with images := store.images ++ [(key, image)] } way = (store.find? way).or
      (if key = way then some ⟨store.images.length, image⟩ else none) := by
  have hfind := findFrom_concat way key image 0 store.images
  rwa [Nat.zero_add] at hfind

/-- Images are numbered in the order of loading. -/
theorem number_lt_of_findFrom {n : ℕ} {images : List (Way × Image)}
    (h : findFrom way n images = some stored) : stored.number < n + images.length := by
  induction images generalizing n with
  | nil => cases h
  | cons entry images ih =>
    rw [findFrom] at h
    rw [List.length_cons]
    split at h
    · obtain rfl := Option.some.inj h
      show n < n + (images.length + 1)
      omega
    · have hlt := ih h
      omega

theorem number_lt_of_find? (h : store.find? way = some stored) :
    stored.number < store.images.length := by
  have hlt := number_lt_of_findFrom h
  rwa [Nat.zero_add] at hlt

/-! ## One load -/

/-- What a store answers to a load. -/
@[irreducible] def answer (decode? : Bytes → Option Image) (store : ImageStore) (l : Load) :
    Outcome :=
  (store.load l.files decode? l.source).1

/-- What a load leaves of a store. -/
@[irreducible] def next (decode? : Bytes → Option Image) (store : ImageStore) (l : Load) :
    ImageStore :=
  (store.load l.files decode? l.source).2

/-- The ways in which a load ends: the source is remote; an image is stored for its way; the file
cannot be read or decoded; or its image is stored and returned. -/
inductive Ends (decode? : Bytes → Option Image) (store : ImageStore) (l : Load) :
    Outcome → ImageStore → Prop
  | remote : l.way? store.folder? = none →
      Ends decode? store l (.error (.unsupported (Text.trimmed l.source))) store
  | found {way : Way} {stored : StoredImage} : l.way? store.folder? = some way →
      store.find? way = some stored → Ends decode? store l (.ok stored) store
  | failed {way : Way} {e : ImageError} : l.way? store.folder? = some way →
      store.find? way = none → fetch l.files decode? (l.path store.folder?) = .error e →
        Ends decode? store l (.error e) store
  | loaded {way : Way} {image : Image} : l.way? store.folder? = some way →
      store.find? way = none → fetch l.files decode? (l.path store.folder?) = .ok image →
        Ends decode? store l (.ok ⟨store.images.length, image⟩)
          { store with images := store.images ++ [(way, image)] }

theorem ends (decode? : Bytes → Option Image) (store : ImageStore) (l : Load) :
    Ends decode? store l (store.answer decode? l) (store.next decode? l) := by
  have hpath : store.pathOf (Text.trimmed l.source) = l.path store.folder? := rfl
  unfold answer next load
  simp only [hpath]
  by_cases hremote : ImageSource.isRemote (Text.trimmed l.source)
  · rw [if_pos hremote]
    exact .remote (if_pos hremote)
  · have hway : l.way? store.folder? = some (Path.way (l.path store.folder?)) := if_neg hremote
    rw [if_neg hremote]
    split
    · next stored hfound => exact .found hway hfound
    · next hnone =>
      split
      · next e hfetch => exact .failed hway hnone hfetch
      · next image hfetch => exact .loaded hway hnone hfetch

/-! ## Many loads -/

/-- Loads with what was answered to them, and the store that they left. -/
structure History where
  store : ImageStore
  loads : List (Load × Outcome) := []

/-- The history with one more load. -/
def History.load (decode? : Bytes → Option Image) (h : History) (l : Load) : History :=
  ⟨h.store.next decode? l, h.loads ++ [(l, h.store.answer decode? l)]⟩

/-- The history of some loads, from a store for sources below a folder that has no image yet. -/
def after (decode? : Bytes → Option Image) (folder? : Option String) (ls : List Load) : History :=
  ls.foldl (History.load decode?) { store := { folder? } }

/-- The image was returned for this way. -/
def Returned (folder? : Option String) (earlier : List (Load × Outcome)) (way : Way)
    (stored : StoredImage) : Prop :=
  ∃ l, (l, .ok stored) ∈ earlier ∧ l.way? folder? = some way

theorem returned_concat : Returned folder? (earlier ++ [(l, outcome)]) way stored ↔
    Returned folder? earlier way stored ∨ outcome = .ok stored ∧ l.way? folder? = some way := by
  constructor
  · rintro ⟨l', hl', hway⟩
    rcases List.mem_append.1 hl' with hl' | hl'
    · exact Or.inl ⟨l', hl', hway⟩
    · obtain ⟨rfl, rfl⟩ := Prod.mk.inj (List.mem_singleton.1 hl')
      exact Or.inr ⟨rfl, hway⟩
  · rintro (⟨l', hl', hway⟩ | ⟨rfl, hway⟩)
    · exact ⟨l', List.mem_append_left _ hl', hway⟩
    · exact ⟨l, List.mem_append_right _ (List.mem_singleton_self _), hway⟩

/-- A store for a folder that holds for every way the image returned for it, and nothing else. -/
structure Holds (folder? : Option String) (store : ImageStore) (earlier : List (Load × Outcome)) :
    Prop where
  folder_eq : store.folder? = folder?
  find?_iff : ∀ way stored, store.find? way = some stored ↔ Returned folder? earlier way stored

namespace Holds

/-- An image that is stored may be returned once more, and what is no image makes no difference. -/
theorem concat (h : Holds folder? store earlier)
    (houtcome : ∀ way stored, outcome = .ok stored → l.way? folder? = some way →
      store.find? way = some stored) : Holds folder? store (earlier ++ [(l, outcome)]) where
  folder_eq := h.folder_eq
  find?_iff := by
    intro way stored
    rw [returned_concat, ← h.find?_iff]
    constructor
    · exact Or.inl
    · rintro (hfound | ⟨hok, hway⟩)
      · exact hfound
      · exact houtcome way stored hok hway

/-- Every load keeps a store in step with what was returned. -/
theorem load (h : Holds folder? store earlier) (decode? : Bytes → Option Image) (l : Load) :
    Holds folder? (store.next decode? l) (earlier ++ [(l, store.answer decode? l)]) := by
  have hends := ends decode? store l
  generalize store.answer decode? l = outcome at hends ⊢
  generalize store.next decode? l = after at hends ⊢
  obtain rfl := h.folder_eq
  cases hends with
  | remote hway => exact h.concat nofun
  | @found way stored hway hfound =>
    apply h.concat
    intro way' stored' hok hway'
    obtain rfl := Except.ok.inj hok
    obtain rfl := Option.some.inj (hway.symm.trans hway')
    exact hfound
  | failed hway hnone hfetch => exact h.concat nofun
  | @loaded way image hway hnone hfetch =>
    refine ⟨rfl, ?_⟩
    intro way' stored'
    rw [find?_concat, returned_concat, ← h.find?_iff, Except.ok.injEq, hway, Option.some.injEq]
    by_cases hsame : way = way'
    · subst hsame
      simp [hnone]
    · simp [hsame]

end Holds

theorem after_concat (decode? : Bytes → Option Image) (folder? : Option String) (ls : List Load)
    (l : Load) :
    after decode? folder? (ls ++ [l]) = (after decode? folder? ls).load decode? l :=
  List.foldl_append

theorem returned_after {ls : List Load}
    (h : (after decode? folder? ls).store.answer decode? l = .ok stored)
    (hway : l.way? folder? = some way) :
    Returned folder? (after decode? folder? (ls ++ [l])).loads way stored := by
  rw [after_concat]
  exact returned_concat.2 (Or.inr ⟨h, hway⟩)

/-- A store holds what was returned, after any loads. -/
theorem holds_after (decode? : Bytes → Option Image) (folder? : Option String) (ls : List Load) :
    Holds folder? (after decode? folder? ls).store (after decode? folder? ls).loads := by
  induction ls using List.reverseRecOn with
  | nil =>
    refine ⟨rfl, ?_⟩
    intro way stored
    show none = some stored ↔ Returned folder? [] way stored
    simp [Returned]
  | append_singleton ls l ih =>
    rw [after_concat]
    exact ih.load decode? l

/-! ## Answers -/

/-- A load was answered with what the file holds at this moment: with an error if it cannot be read
or decoded, and else with what it decodes to. -/
structure ReadAnew (decode? : Bytes → Option Image) (files : FileReader) (path : String)
    (outcome : Outcome) : Prop where
  unreadable : files path = none → outcome = .error (.unreadable path)
  undecodable : ∀ bytes, files path = some bytes → decode? bytes = none →
    outcome = .error (.undecodable path)
  decoded : ∀ bytes image, files path = some bytes → decode? bytes = some image →
    ∃ stored, outcome = .ok stored ∧ stored.image = image

theorem readAnew_of_error {files : FileReader} {path : String} {e : ImageError}
    (h : fetch files decode? path = .error e) : ReadAnew decode? files path (.error e) := by
  constructor
  case unreadable =>
    intro hfile
    simp only [fetch, hfile] at h
    rw [Except.error.inj h]
  case undecodable =>
    intro bytes hfile hbytes
    simp only [fetch, hfile, hbytes] at h
    rw [Except.error.inj h]
  case decoded =>
    intro bytes image hfile hbytes
    simp only [fetch, hfile, hbytes] at h
    cases h

theorem readAnew_of_ok {files : FileReader} {path : String} {image : Image} (n : ℕ)
    (h : fetch files decode? path = .ok image) : ReadAnew decode? files path (.ok ⟨n, image⟩) := by
  constructor
  case unreadable =>
    intro hfile
    simp only [fetch, hfile] at h
    cases h
  case undecodable =>
    intro bytes hfile hbytes
    simp only [fetch, hfile, hbytes] at h
    cases h
  case decoded =>
    intro bytes image' hfile hbytes
    simp only [fetch, hfile, hbytes, Except.ok.injEq] at h
    exact ⟨⟨n, image⟩, rfl, h.symm⟩

theorem answer_of_found (hway : l.way? store.folder? = some way)
    (hfound : store.find? way = some stored) : store.answer decode? l = .ok stored := by
  have hends := ends decode? store l
  generalize store.answer decode? l = outcome at hends ⊢
  generalize store.next decode? l = after at hends
  cases hends with
  | remote hnone =>
    rw [hway] at hnone
    cases hnone
  | found hway' hfound' =>
    obtain rfl := Option.some.inj (hway.symm.trans hway')
    rw [Option.some.inj (hfound.symm.trans hfound')]
  | failed hway' hnone _ =>
    obtain rfl := Option.some.inj (hway.symm.trans hway')
    rw [hfound] at hnone
    cases hnone
  | loaded hway' hnone _ =>
    obtain rfl := Option.some.inj (hway.symm.trans hway')
    rw [hfound] at hnone
    cases hnone

/-- Without a stored image for its way, a load reads the file, and an image it returns is new. -/
theorem answer_of_not_found (hway : l.way? store.folder? = some way)
    (hnone : store.find? way = none) :
    ReadAnew decode? l.files (l.path store.folder?) (store.answer decode? l) ∧
      ∀ stored, store.answer decode? l = .ok stored → stored.number = store.images.length := by
  have hends := ends decode? store l
  generalize store.answer decode? l = outcome at hends ⊢
  generalize store.next decode? l = after at hends
  cases hends with
  | remote hremote =>
    rw [hway] at hremote
    cases hremote
  | found hway' hfound =>
    obtain rfl := Option.some.inj (hway.symm.trans hway')
    rw [hnone] at hfound
    cases hfound
  | failed _ _ hfetch => exact ⟨readAnew_of_error hfetch, nofun⟩
  | loaded _ _ hfetch =>
    refine ⟨readAnew_of_ok _ hfetch, ?_⟩
    intro stored hok
    obtain rfl := Except.ok.inj hok
    rfl

/-- Only a load that returns an image changes a store. -/
theorem next_of_error {e : ImageError} (h : store.answer decode? l = .error e) :
    store.next decode? l = store := by
  have hends := ends decode? store l
  rw [h] at hends
  generalize store.next decode? l = after at hends ⊢
  cases hends <;> rfl

theorem answer_of_remote (h : ImageSource.isRemote (Text.trimmed l.source)) :
    store.answer decode? l = .error (.unsupported (Text.trimmed l.source)) := by
  rw [answer, load]
  simp only [h, if_true]

/-- A store is asked for an image after any other loads, with the files as they are now.
A remote source is refused, and a load that fails leaves the store as it is. If an image was
returned before for the way of the source, the same image is returned now. If not, the answer is
what the file holds now, and an image that is returned is another one than all those before. So
what failed is read again the next time. -/
theorem loads_transparent (decode? : Bytes → Option Image) (folder? : Option String)
    (ls : List Load) (l : Load) :
    let h := after decode? folder? ls
    let outcome := h.store.answer decode? l
    let next := h.store.next decode? l
    (ImageSource.isRemote (Text.trimmed l.source) →
      outcome = .error (.unsupported (Text.trimmed l.source)) ∧ next = h.store) ∧
    (∀ way stored, l.way? folder? = some way → Returned folder? h.loads way stored →
      outcome = .ok stored) ∧
    (∀ way, l.way? folder? = some way → (∀ stored, ¬ Returned folder? h.loads way stored) →
      ReadAnew decode? l.files (l.path folder?) outcome ∧
      ∀ stored way' stored', outcome = .ok stored → Returned folder? h.loads way' stored' →
        stored'.number ≠ stored.number) ∧
    (∀ e, outcome = .error e → next = h.store ∧ ∀ way l', l.way? folder? = some way →
      l'.way? folder? = some way →
        ReadAnew decode? l'.files (l'.path folder?) (next.answer decode? l')) := by
  intro h outcome next
  obtain ⟨hfolder, hfind⟩ := holds_after decode? folder? ls
  have hway : ∀ {l : Load} {way : Way}, l.way? folder? = some way →
      l.way? h.store.folder? = some way := by
    intro l way hway
    rwa [hfolder]
  have hanew : ∀ {way : Way} (l : Load), l.way? folder? = some way → h.store.find? way = none →
      ReadAnew decode? l.files (l.path folder?) (h.store.answer decode? l) := by
    intro way l hl hnone
    have hread : ReadAnew decode? l.files (l.path h.store.folder?) (h.store.answer decode? l) :=
      (answer_of_not_found (hway hl) hnone).1
    rwa [hfolder] at hread
  refine ⟨?_, ?_, ?_, ?_⟩
  · intro hremote
    exact ⟨answer_of_remote hremote, next_of_error (answer_of_remote hremote)⟩
  · intro way stored hl hreturned
    exact answer_of_found (hway hl) ((hfind way stored).2 hreturned)
  · intro way hl hfirst
    have hnone : h.store.find? way = none := by
      rw [Option.eq_none_iff_forall_ne_some]
      intro stored hfound
      exact hfirst stored ((hfind way stored).1 hfound)
    refine ⟨hanew l hl hnone, ?_⟩
    intro stored way' stored' hok hreturned
    have hnumber := (answer_of_not_found (hway hl) hnone).2 stored hok
    rw [hnumber]
    exact Nat.ne_of_lt (number_lt_of_find? ((hfind way' stored').2 hreturned))
  · intro e herror
    have hsame : next = h.store := next_of_error herror
    refine ⟨hsame, ?_⟩
    intro way l' hl hl'
    rw [hsame]
    refine hanew l' hl' ?_
    -- with an image stored for its way, the load would have returned it
    cases hfound : h.store.find? way with
    | none => rfl
    | some stored =>
      have hok : outcome = .ok stored := answer_of_found (hway hl) hfound
      rw [herror] at hok
      cases hok

/-- A file that is missing at first, is then loaded and is missing again, under two names. -/
theorem loads_transparent_of_dot :
    let dot : Bytes := #[80, 54, 10, 49, 10, 49, 10, 50, 53, 53, 10, 1, 2, 3]
    let way : Way := ⟨false, ["pics", "dot.ppm"]⟩
    let missing : Load := ⟨fun _ => none, "dot.ppm"⟩
    let present : Load := ⟨fun _ => some dot, "dot.ppm"⟩
    let later : Load := ⟨fun _ => none, " ./dot.ppm?v=2#top "⟩
    let remote : Load := ⟨fun _ => some dot, "HTTP://a/dot.ppm"⟩
    let h := after Pixmap.decode? (some "pics") [missing, present]
    (missing.way? (some "pics") = some way ∧ later.way? (some "pics") = some way) ∧
      ImageSource.isRemote (Text.trimmed remote.source) ∧
      ∃ stored, stored.image.bytes = #[1, 2, 3, 255] ∧ Returned (some "pics") h.loads way stored ∧
        h.store.answer Pixmap.decode? later = .ok stored ∧
        h.store.answer Pixmap.decode? remote =
          .error (.unsupported (Text.trimmed remote.source)) := by
  intro dot way missing present later remote h
  have hmissing : missing.way? (some "pics") = some way := by decide +kernel
  have hlater : later.way? (some "pics") = some way := by decide +kernel
  have hremote : ImageSource.isRemote (Text.trimmed remote.source) := by decide +kernel
  have hnone : ∀ stored, ¬ Returned (some "pics") [] way stored := by
    rintro stored ⟨l, hl, -⟩
    exact absurd hl List.not_mem_nil
  obtain ⟨-, -, hfirst, hfailed⟩ := loads_transparent Pixmap.decode? (some "pics") [] missing
  have hread := (hfirst way hmissing hnone).1.unreadable rfl
  obtain ⟨stored, hok, himage⟩ := ((hfailed _ hread).2 way present hmissing hmissing).decoded dot
    ⟨1, 1, #[1, 2, 3, 255], rfl⟩ rfl (by decide +kernel)
  have hstore : (after Pixmap.decode? (some "pics") [missing]).store =
      (after Pixmap.decode? (some "pics") []).store.next Pixmap.decode? missing := by
    rw [← List.nil_append [missing], after_concat, History.load]
  have hreturned : Returned (some "pics") h.loads way stored := by
    rw [← hstore] at hok
    exact returned_after hok hmissing
  obtain ⟨-, hagain, -⟩ := loads_transparent Pixmap.decode? (some "pics") [missing, present] later
  obtain ⟨hrefused, -⟩ := loads_transparent Pixmap.decode? (some "pics") [missing, present] remote
  have hbytes : stored.image.bytes = #[1, 2, 3, 255] := by rw [himage]
  exact ⟨⟨hmissing, hlater⟩, hremote, stored, hbytes, hreturned,
    hagain way stored hlater hreturned, (hrefused hremote).1⟩

end BoxFlow.ImageStore
