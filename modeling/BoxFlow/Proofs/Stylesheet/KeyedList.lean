import Mathlib.Data.List.Induction
import Mathlib.Data.List.Nodup
import Mathlib.Tactic.Tauto

/-!
# Lists with one entry for each key

Both the declarations of a block and the rules of a sheet are lists in which an entry of a known key
changes the one that is there, in its place, and any other entry is added at the end. What changing
means is left open here (`Keyed.combine`); it has to be associative and to keep the key.

Putting a list of entries into another in turn is then associative (`Keyed.putAll_assoc`), because
an entry whose key is taken can be put before or after entries of other keys
(`Keyed.put_putAll_comm`). Keys stay distinct, and they stand in the order of their first
occurrences (`Keyed.pairwise_keys_putAll`). What putting a list of distinct keys comes to can be
said at once: every entry there was is combined with the new one of its key, and the entries of new
keys are added at the end (`Keyed.putAll_eq_map_append`).
-/

set_option autoImplicit false

namespace BoxFlow

/-- Entries with a key, and what becomes of an entry when another one of its key is put. -/
structure Keyed (α κ : Type) where
  key : α → κ
  combine : α → α → α
  key_combine : ∀ x y, key (combine x y) = key x
  combine_assoc : ∀ x y z, combine (combine x y) z = combine x (combine y z)

namespace Keyed

variable {α κ : Type} [DecidableEq κ] (K : Keyed α κ)

/-- The keys of a list of entries. -/
def keys (xs : List α) : List κ := xs.map K.key

/-- Puts an entry: it changes the first one of its key, or is added at the end. -/
def put (y : α) : List α → List α
  | [] => [y]
  | x :: xs => if K.key x = K.key y then K.combine x y :: xs else x :: put y xs

/-- Puts the entries of the second list in turn. -/
def putAll (xs ys : List α) : List α := ys.foldl (fun xs y => K.put y xs) xs

/-- The entry of a key. -/
def find? (k : κ) (xs : List α) : Option α := xs.find? fun x => K.key x = k

variable {K} {x y z : α} {xs ys zs : List α} {k : κ}

theorem put_cons_of_eq (h : K.key x = K.key y) : K.put y (x :: xs) = K.combine x y :: xs :=
  if_pos h

theorem put_cons_of_ne (h : K.key x ≠ K.key y) : K.put y (x :: xs) = x :: K.put y xs :=
  if_neg h

theorem putAll_append (xs ys zs : List α) :
    K.putAll xs (ys ++ zs) = K.putAll (K.putAll xs ys) zs :=
  List.foldl_append

theorem putAll_concat (xs ys : List α) (z : α) :
    K.putAll xs (ys ++ [z]) = K.put z (K.putAll xs ys) :=
  putAll_append xs ys [z]

theorem forall_mem_put {P : α → Prop} (hcombine : ∀ x y, P x → P y → P (K.combine x y))
    (hxs : ∀ x ∈ xs, P x) (hy : P y) : ∀ x ∈ K.put y xs, P x := by
  induction xs with
  | nil => exact List.forall_mem_singleton.2 hy
  | cons x xs ih =>
    obtain ⟨hx, hxs⟩ := List.forall_mem_cons.1 hxs
    rw [put]
    split
    · exact List.forall_mem_cons.2 ⟨hcombine x y hx hy, hxs⟩
    · exact List.forall_mem_cons.2 ⟨hx, ih hxs⟩

/-- What combining keeps and all entries put have, every entry of the outcome has. -/
theorem forall_mem_putAll {P : α → Prop} (hcombine : ∀ x y, P x → P y → P (K.combine x y))
    (hxs : ∀ x ∈ xs, P x) (hys : ∀ y ∈ ys, P y) : ∀ x ∈ K.putAll xs ys, P x :=
  List.foldlRecOn ys _ (motive := fun xs => ∀ x ∈ xs, P x) hxs fun _ hxs y hy =>
    forall_mem_put hcombine hxs (hys y hy)

/-! ## Keys -/

/-- Putting an entry leaves the keys alone or adds the key of the entry at the end. -/
theorem keys_put (y : α) (xs : List α) :
    K.keys (K.put y xs) = if K.key y ∈ K.keys xs then K.keys xs else K.keys xs ++ [K.key y] := by
  induction xs with
  | nil => simp [put, keys]
  | cons x xs ih =>
    by_cases h : K.key x = K.key y
    · rw [put_cons_of_eq h]
      simp [keys, h, K.key_combine]
    · have hmem : K.key y ∈ K.keys (x :: xs) ↔ K.key y ∈ K.keys xs := by
        simp [keys, Ne.symm h]
      rw [put_cons_of_ne h, keys, List.map_cons, ← keys, ih]
      by_cases hy : K.key y ∈ K.keys xs
      · rw [if_pos hy, if_pos (hmem.2 hy)]
        rfl
      · rw [if_neg hy, if_neg (fun h => hy (hmem.1 h))]
        rfl

theorem mem_keys_put : k ∈ K.keys (K.put y xs) ↔ k = K.key y ∨ k ∈ K.keys xs := by
  rw [keys_put]
  split
  · next h => exact ⟨Or.inr, fun hk => hk.elim (fun heq => heq ▸ h) id⟩
  · rw [List.mem_append, List.mem_singleton]
    exact or_comm

theorem nodup_keys_put (h : (K.keys xs).Nodup) : (K.keys (K.put y xs)).Nodup := by
  rw [keys_put]
  split
  · exact h
  · next hy =>
    rw [← List.concat_eq_append]
    exact h.concat hy

theorem nodup_keys_putAll (h : (K.keys xs).Nodup) (ys : List α) :
    (K.keys (K.putAll xs ys)).Nodup :=
  List.foldlRecOn ys _ (motive := fun xs => (K.keys xs).Nodup) h fun _ hxs _ _ =>
    nodup_keys_put hxs

theorem mem_keys_putAll : k ∈ K.keys (K.putAll xs ys) ↔ k ∈ K.keys xs ∨ k ∈ K.keys ys := by
  induction ys using List.reverseRecOn with
  | nil => simp [putAll, keys]
  | append_singleton ys y ih =>
    rw [putAll_concat, mem_keys_put, ih]
    simp only [keys, List.map_append, List.map_cons, List.map_nil, List.mem_append,
      List.mem_singleton]
    tauto

/-- The keys stand in the order in which the entries first came with them. -/
theorem pairwise_keys_putAll (ys : List α) :
    (K.keys (K.putAll [] ys)).Pairwise fun k k' =>
      (K.keys ys).idxOf k < (K.keys ys).idxOf k' := by
  induction ys using List.reverseRecOn with
  | nil => exact List.Pairwise.nil
  | append_singleton ys y ih =>
    have hkeys : K.keys (ys ++ [y]) = K.keys ys ++ [K.key y] := List.map_append
    have hmem : ∀ k ∈ K.keys (K.putAll [] ys), k ∈ K.keys ys := by
      intro k hk
      exact (mem_keys_putAll.1 hk).resolve_left List.not_mem_nil
    -- positions of keys that were there before do not change
    have hold : (K.keys (K.putAll [] ys)).Pairwise fun k k' =>
        (K.keys ys ++ [K.key y]).idxOf k < (K.keys ys ++ [K.key y]).idxOf k' := by
      refine ih.imp_of_mem ?_
      intro k k' hk hk' hlt
      rwa [List.idxOf_append_of_mem (hmem k hk), List.idxOf_append_of_mem (hmem k' hk')]
    rw [putAll_concat, keys_put, hkeys]
    split
    · exact hold
    · next hy =>
      refine List.pairwise_append.2 ⟨hold, List.pairwise_singleton _ _, ?_⟩
      intro k hk k' hk'
      rw [List.mem_singleton.1 hk', List.idxOf_append_of_mem (hmem k hk),
        List.idxOf_append_of_notMem fun hin => hy (mem_keys_putAll.2 (Or.inr hin))]
      exact Nat.lt_of_lt_of_le (List.idxOf_lt_length_of_mem (hmem k hk)) (Nat.le_add_right _ _)

theorem eraseDups_of_nodup {ks : List κ} (h : ks.Nodup) : ks.eraseDups = ks := by
  induction ks with
  | nil => rfl
  | cons k ks ih =>
    obtain ⟨hk, hks⟩ := List.nodup_cons.1 h
    have hfilter : ks.filter (fun k' => !k' == k) = ks := by
      rw [List.filter_eq_self]
      intro k' hk'
      have hne : k' ≠ k := fun heq => hk (heq ▸ hk')
      simp [hne]
    rw [List.eraseDups_cons, hfilter, ih hks]

/-- The keys of the entries put, without repetitions, stand behind those there were. -/
theorem keys_putAll (h : (K.keys xs).Nodup) (ys : List α) :
    K.keys (K.putAll xs ys) = (K.keys xs ++ K.keys ys).eraseDups := by
  induction ys using List.reverseRecOn with
  | nil =>
    have hnil : K.keys ([] : List α) = [] := rfl
    rw [hnil, List.append_nil]
    exact (eraseDups_of_nodup h).symm
  | append_singleton ys y ih =>
    have hkeys : K.keys (ys ++ [y]) = K.keys ys ++ [K.key y] := List.map_append
    have hmem : K.key y ∈ K.keys (K.putAll xs ys) ↔ K.key y ∈ K.keys xs ++ K.keys ys := by
      rw [mem_keys_putAll, List.mem_append]
    rw [putAll_concat, keys_put, hkeys, ← List.append_assoc, List.eraseDups_append, ← ih,
      List.removeAll]
    by_cases hy : K.key y ∈ K.keys xs ++ K.keys ys
    · rw [if_pos (hmem.2 hy), List.filter_cons_of_neg (by simpa [or_iff_not_imp_left] using hy)]
      exact (List.append_nil _).symm
    · rw [if_neg fun hk => hy (hmem.1 hk), List.filter_cons_of_pos (by simpa using hy)]
      rfl

/-! ## Looking entries up -/

theorem find?_put (y : α) (xs : List α) (k : κ) :
    K.find? k (K.put y xs) =
      if K.key y = k then some (((K.find? k xs).map fun x => K.combine x y).getD y)
      else K.find? k xs := by
  induction xs with
  | nil => by_cases h : K.key y = k <;> simp [put, find?, h]
  | cons x xs ih =>
    by_cases hxy : K.key x = K.key y
    · rw [put_cons_of_eq hxy]
      by_cases h : K.key y = k
      · simp [find?, K.key_combine, hxy, h]
      · simp [find?, K.key_combine, hxy, h]
    · rw [put_cons_of_ne hxy]
      by_cases hx : K.key x = k
      · have hy : K.key y ≠ k := fun hy => hxy (hx.trans hy.symm)
        simp [find?, hx, hy]
      · have hcons : ∀ l : List α, K.find? k (x :: l) = K.find? k l := by
          intro l
          simp [find?, hx]
        rw [hcons, hcons, ih]

/-- Among distinct keys, every entry is the one of its key. -/
theorem find?_of_mem (h : (K.keys xs).Nodup) (hx : x ∈ xs) : K.find? (K.key x) xs = some x := by
  induction xs with
  | nil => exact absurd hx List.not_mem_nil
  | cons y ys ih =>
    obtain ⟨hy, hys⟩ := List.nodup_cons.1 h
    rcases List.mem_cons.1 hx with rfl | hx
    · simp [find?]
    · have hne : K.key y ≠ K.key x := by
        intro heq
        exact hy (heq ▸ List.mem_map_of_mem hx)
      rw [← ih hys hx]
      simp [find?, hne]

theorem find?_eq_none (h : k ∉ K.keys xs) : K.find? k xs = none := by
  rw [find?, List.find?_eq_none]
  intro x hx heq
  rw [decide_eq_true_eq] at heq
  exact h (heq ▸ List.mem_map_of_mem hx)

/-- After putting entries of distinct keys, the entry of a key is that put for it, combined with the
one that was there, or else the one that was there. -/
theorem find?_putAll (h : (K.keys ys).Nodup) (xs : List α) (k : κ) :
    K.find? k (K.putAll xs ys) =
      match K.find? k ys with
      | some y => some (((K.find? k xs).map fun x => K.combine x y).getD y)
      | none => K.find? k xs := by
  induction ys generalizing xs with
  | nil => rfl
  | cons y ys ih =>
    obtain ⟨hy, hys⟩ := List.nodup_cons.1 h
    show K.find? k (K.putAll (K.put y xs) ys) = _
    rw [ih hys, find?_put]
    by_cases hk : K.key y = k
    · have hnone : K.find? k ys = none := find?_eq_none (hk ▸ hy)
      have hsome : K.find? k (y :: ys) = some y := by simp [find?, hk]
      rw [hnone, hsome, if_pos hk]
    · have hcons : K.find? k (y :: ys) = K.find? k ys := by simp [find?, hk]
      rw [hcons, if_neg hk]

/-! ## Order of putting -/

theorem put_of_notMem (h : K.key y ∉ K.keys xs) : K.put y xs = xs ++ [y] := by
  induction xs with
  | nil => rfl
  | cons x xs ih =>
    have hne : K.key x ≠ K.key y := fun heq => h (heq ▸ List.mem_cons_self)
    rw [put_cons_of_ne hne, ih fun hmem => h (List.mem_cons_of_mem _ hmem)]
    rfl

/-- Two entries of one key may be combined first. -/
theorem put_put (h : K.key y = K.key z) (xs : List α) :
    K.put z (K.put y xs) = K.put (K.combine y z) xs := by
  induction xs with
  | nil => exact put_cons_of_eq h
  | cons x xs ih =>
    have hkey : K.key (K.combine y z) = K.key y := K.key_combine y z
    by_cases hx : K.key x = K.key y
    · rw [put_cons_of_eq hx, put_cons_of_eq (hx.trans hkey.symm),
        put_cons_of_eq (((K.key_combine x y).trans hx).trans h), K.combine_assoc]
    · rw [put_cons_of_ne hx, put_cons_of_ne fun hz => hx (hz.trans h.symm),
        put_cons_of_ne fun hyz => hx (hyz.trans hkey), ih]

/-- An entry whose key is taken may be put before one of another key. -/
theorem put_comm (h : K.key y ≠ K.key z) (hz : K.key z ∈ K.keys xs) :
    K.put z (K.put y xs) = K.put y (K.put z xs) := by
  induction xs with
  | nil => exact absurd hz List.not_mem_nil
  | cons x xs ih =>
    -- the first entry is that of `z`, that of `y` or neither; with `z` missing, both might be added
    -- at the end, in different orders
    by_cases hxz : K.key x = K.key z
    · have hxy : K.key x ≠ K.key y := fun hxy => h (hxy.symm.trans hxz)
      have hcombine : K.key (K.combine x z) ≠ K.key y := by rwa [K.key_combine]
      rw [put_cons_of_ne hxy, put_cons_of_eq hxz, put_cons_of_eq hxz, put_cons_of_ne hcombine]
    · have hz' : K.key z ∈ K.keys xs := (List.mem_cons.1 hz).resolve_left (Ne.symm hxz)
      by_cases hxy : K.key x = K.key y
      · have hcombine : K.key (K.combine x y) ≠ K.key z := by rwa [K.key_combine]
        rw [put_cons_of_eq hxy, put_cons_of_ne hxz, put_cons_of_ne hcombine, put_cons_of_eq hxy]
      · rw [put_cons_of_ne hxy, put_cons_of_ne hxz, put_cons_of_ne hxz, put_cons_of_ne hxy, ih hz']

/-- An entry whose key is taken may be put before a list of entries of other keys. -/
theorem put_putAll_comm (hz : K.key z ∈ K.keys xs) (hys : K.key z ∉ K.keys ys) :
    K.put z (K.putAll xs ys) = K.putAll (K.put z xs) ys := by
  induction ys generalizing xs with
  | nil => rfl
  | cons y ys ih =>
    have hne : K.key y ≠ K.key z := fun heq => hys (heq ▸ List.mem_cons_self)
    have hrest : K.key z ∉ K.keys ys := fun hmem => hys (List.mem_cons_of_mem _ hmem)
    show K.put z (K.putAll (K.put y xs) ys) = K.putAll (K.put y (K.put z xs)) ys
    rw [ih (mem_keys_put.2 (Or.inr hz)) hrest, put_comm hne hz]

/-- A list of distinct keys into which an entry is put can be put without it, and the entry last. -/
theorem putAll_put (h : (K.keys ys).Nodup) (xs : List α) (z : α) :
    K.putAll xs (K.put z ys) = K.put z (K.putAll xs ys) := by
  induction ys generalizing xs with
  | nil => rfl
  | cons y ys ih =>
    obtain ⟨hy, hys⟩ := List.nodup_cons.1 h
    by_cases hyz : K.key y = K.key z
    · -- after `y` its key is taken, so `z` may come at once or after the others
      rw [put_cons_of_eq hyz]
      show K.putAll (K.put (K.combine y z) xs) ys = K.put z (K.putAll (K.put y xs) ys)
      have htaken : K.key z ∈ K.keys (K.put y xs) := mem_keys_put.2 (Or.inl hyz.symm)
      rw [put_putAll_comm htaken (hyz ▸ hy), put_put hyz]
    · rw [put_cons_of_ne hyz]
      exact ih hys (K.put y xs)

/-- Putting lists of entries in turn is associative. -/
theorem putAll_assoc (h : (K.keys ys).Nodup) (xs zs : List α) :
    K.putAll xs (K.putAll ys zs) = K.putAll (K.putAll xs ys) zs := by
  induction zs using List.reverseRecOn with
  | nil => rfl
  | append_singleton zs z ih =>
    rw [putAll_concat, putAll_concat, putAll_put (nodup_keys_putAll h zs), ih]

/-- Entries of new and distinct keys are added at the end. -/
theorem putAll_eq_append (h : (K.keys (xs ++ ys)).Nodup) : K.putAll xs ys = xs ++ ys := by
  induction ys using List.reverseRecOn with
  | nil => simp [putAll]
  | append_singleton ys y ih =>
    rw [← List.append_assoc, keys, List.map_append, ← keys] at h
    obtain ⟨hold, -, hnew⟩ := List.nodup_append.1 h
    have hy : K.key y ∉ K.keys (xs ++ ys) := by
      intro hmem
      exact hnew _ hmem _ List.mem_cons_self rfl
    rw [putAll_concat, ih hold, put_of_notMem hy, List.append_assoc]

/-! ## The outcome in one piece -/

/-- Among distinct keys, the entry that is changed can be told by its position. -/
theorem put_eq_modify {i : ℕ} (h : (K.keys xs).Nodup) (hx : xs[i]? = some x)
    (hkey : K.key x = K.key y) : K.put y xs = xs.modify i fun x => K.combine x y := by
  induction xs generalizing i with
  | nil => exact absurd hx (by simp)
  | cons z zs ih =>
    obtain ⟨hz, hzs⟩ := List.nodup_cons.1 h
    cases i with
    | zero =>
      obtain rfl : z = x := Option.some.inj hx
      rw [put_cons_of_eq hkey, List.modify_zero_cons]
    | succ i =>
      have hmem : x ∈ zs := List.mem_of_getElem? hx
      have hne : K.key z ≠ K.key y := by
        intro heq
        exact hz (heq.trans hkey.symm ▸ List.mem_map_of_mem hmem)
      rw [put_cons_of_ne hne, List.modify_succ_cons, ih hzs hx]

theorem put_eq_map (h : (K.keys xs).Nodup) (hy : K.key y ∈ K.keys xs) :
    K.put y xs = xs.map fun x => if K.key x = K.key y then K.combine x y else x := by
  induction xs with
  | nil => exact absurd hy List.not_mem_nil
  | cons x xs ih =>
    obtain ⟨hx, hxs⟩ := List.nodup_cons.1 h
    by_cases hxy : K.key x = K.key y
    · -- no other entry has this key
      have hrest : ∀ z ∈ xs, (if K.key z = K.key y then K.combine z y else z) = z := by
        intro z hz
        apply if_neg
        intro hzy
        exact hx (hxy.trans hzy.symm ▸ List.mem_map_of_mem hz)
      rw [put_cons_of_eq hxy, List.map_cons, if_pos hxy, List.map_congr_left hrest, List.map_id']
    · rw [put_cons_of_ne hxy, List.map_cons, if_neg hxy,
        ih hxs ((List.mem_cons.1 hy).resolve_left (Ne.symm hxy))]

/-- An entry combined with that of its key in a list, if there is one. -/
def combineWith (K : Keyed α κ) (ys : List α) (x : α) : α :=
  ((K.find? (K.key x) ys).map fun y => K.combine x y).getD x

theorem combineWith_of_notMem (h : K.key x ∉ K.keys ys) : K.combineWith ys x = x := by
  rw [combineWith, find?_eq_none h, Option.map_none, Option.getD_none]

theorem combineWith_cons_of_ne (h : K.key x ≠ K.key y) :
    K.combineWith (y :: ys) x = K.combineWith ys x := by
  simp [combineWith, find?, Ne.symm h]

theorem combineWith_cons_of_eq (h : K.key x = K.key y) :
    K.combineWith (y :: ys) x = K.combine x y := by
  simp [combineWith, find?, h]

/-- Putting a list of distinct keys changes the entries there were, and adds those of new keys. -/
theorem putAll_eq_map_append (hxs : (K.keys xs).Nodup) (hys : (K.keys ys).Nodup) :
    K.putAll xs ys = xs.map (K.combineWith ys) ++ ys.filter fun y => K.key y ∉ K.keys xs := by
  induction ys generalizing xs with
  | nil =>
    have hmap : ∀ x ∈ xs, K.combineWith [] x = x := by
      intro x _
      exact combineWith_of_notMem List.not_mem_nil
    rw [List.map_congr_left hmap, List.map_id', List.filter_nil, List.append_nil]
    rfl
  | cons y ys ih =>
    obtain ⟨hy, hys⟩ := List.nodup_cons.1 hys
    show K.putAll (K.put y xs) ys = _
    rw [ih (nodup_keys_put hxs) hys, keys_put]
    by_cases hmem : K.key y ∈ K.keys xs
    · -- the entry changes one that was there
      have hmap : ∀ x ∈ xs, (K.combineWith ys ∘ fun x =>
          if K.key x = K.key y then K.combine x y else x) x = K.combineWith (y :: ys) x := by
        intro x _
        rw [Function.comp_apply]
        split
        · next h =>
          have hkey : K.key (K.combine x y) ∉ K.keys ys := by rwa [K.key_combine, h]
          rw [combineWith_of_notMem hkey, combineWith_cons_of_eq h]
        · next h => rw [combineWith_cons_of_ne h]
      rw [if_pos hmem, put_eq_map hxs hmem, List.map_map, List.map_congr_left hmap,
        List.filter_cons_of_neg (by simpa using hmem)]
    · -- the entry is added, and no later one has its key
      have hmap : ∀ x ∈ xs, K.combineWith ys x = K.combineWith (y :: ys) x := by
        intro x hx
        rw [combineWith_cons_of_ne fun h => hmem (h ▸ List.mem_map_of_mem hx)]
      have hfilter : ∀ z ∈ ys, decide (K.key z ∉ K.keys xs ++ [K.key y]) =
          decide (K.key z ∉ K.keys xs) := by
        intro z hz
        have hne : K.key z ≠ K.key y := fun h => hy (h ▸ List.mem_map_of_mem hz)
        simp [hne]
      rw [if_neg hmem, put_of_notMem hmem, List.map_append, List.map_singleton,
        combineWith_of_notMem hy, List.map_congr_left hmap, List.filter_congr hfilter,
        List.filter_cons_of_pos (by simpa using hmem), List.append_assoc, List.singleton_append]

/-- Putting a list into itself changes nothing, if combining an entry with itself does not. -/
theorem putAll_self (hxs : (K.keys xs).Nodup) (hself : ∀ x ∈ xs, K.combine x x = x) :
    K.putAll xs xs = xs := by
  have hmap : ∀ x ∈ xs, K.combineWith xs x = x := by
    intro x hx
    rw [combineWith, find?_of_mem hxs hx, Option.map_some, Option.getD_some, hself x hx]
  have hnone : xs.filter (fun x => K.key x ∉ K.keys xs) = [] := by
    rw [List.filter_eq_nil_iff]
    intro x hx hnew
    exact of_decide_eq_true hnew (List.mem_map_of_mem hx)
  rw [putAll_eq_map_append hxs hxs, List.map_congr_left hmap, hnone, List.map_id', List.append_nil]

end Keyed

end BoxFlow
