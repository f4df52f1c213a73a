import BoxFlow.Proofs.Paint.Pixels
import Mathlib.Algebra.Group.Nat.Defs

/-!
# The bytes of pixels

The pixels of an image share out its bytes: a pixel reads four bytes in a row, and every byte is
read by exactly one pixel, which division by four and by the width finds again
(`Image.mem_places_iff`, `Image.exists_places_iff`). An image made from bytes keeps them as they
are, so its pixels read all of them.

Bytes are refused when their number does not fit the sides, and that number is counted in 64 bits.
Sides of 32 bits can ask for more than can be counted. No such bytes exist, and still they are not
refused: making the image fails (`Image.create_reads_all_bytes`).
-/

set_option autoImplicit false

namespace BoxFlow.Image

variable {image : Image} {x y x' y' i : ℕ}

/-! ## Places of bytes -/

/-- The places of the bytes that a pixel reads. -/
def places (image : Image) (x y : ℕ) : List ℕ := List.range' (4 * (y * image.width + x)) 4

/-- A byte tells the pixel that reads it. -/
theorem mem_places_iff : i ∈ image.places x y ↔ i / 4 = y * image.width + x := by
  rw [places, List.mem_range'_1]
  omega

/-- Different pixels read different bytes. -/
theorem disjoint_places (hx : x < image.width) (hx' : x' < image.width) (hne : (x, y) ≠ (x', y')) :
    (image.places x y).Disjoint (image.places x' y') := by
  intro i hmem hmem'
  rw [mem_places_iff] at hmem hmem'
  rw [hmem, Canvas.place_eq_iff hx hx'] at hmem'
  exact hne (Prod.ext hmem'.1 hmem'.2)

/-- The pixels of the image read its bytes and no others. -/
theorem exists_places_iff :
    (∃ x y, (x < image.width ∧ y < image.height) ∧ i ∈ image.places x y) ↔
      i < image.bytes.size := by
  rw [image.size_eq]
  constructor
  · rintro ⟨x, y, ⟨hx, hy⟩, hmem⟩
    have hplace := Canvas.place_lt hx hy
    rw [← mem_places_iff.1 hmem] at hplace
    omega
  · intro hi
    have hplace : i / 4 < image.height * image.width := by
      rw [Nat.mul_comm image.height]
      omega
    have hwidth : 0 < image.width := Nat.pos_of_mul_pos_left (Nat.zero_lt_of_lt hplace)
    refine ⟨i / 4 % image.width, i / 4 / image.width,
      ⟨Nat.mod_lt _ hwidth, Nat.div_lt_of_lt_mul ?_⟩, mem_places_iff.2 ?_⟩
    · rwa [Nat.mul_comm]
    · rw [Nat.mul_comm, Nat.div_add_mod]

/-- There is a pixel within the sides only, and it is made of the bytes at its places. -/
theorem pixel?_eq_some_iff {color : Color} :
    image.pixel? x y = some color ↔ (x < image.width ∧ y < image.height) ∧
      (image.places x y).map (image.bytes[·]?) =
        [some color.r, some color.g, some color.b, some color.a] := by
  rw [pixel?]
  split
  · next hin =>
    have hlast : 4 * (y * image.width + x) + 3 < image.bytes.size := by
      have hsize := image.size_eq
      have hplace := Canvas.place_lt hin.1 hin.2
      omega
    have hbytes : (image.places x y).map (image.bytes[·]?) =
        [some image.bytes[4 * (y * image.width + x)],
          some image.bytes[4 * (y * image.width + x) + 1],
          some image.bytes[4 * (y * image.width + x) + 2],
          some image.bytes[4 * (y * image.width + x) + 3]] := by
      simp only [← Array.getElem?_eq_getElem]
      rfl
    rw [hbytes, and_iff_right hin]
    cases color
    simp
  · next hout => exact iff_of_false (by simp) fun h => hout h.1

theorem isSome_pixel?_iff : (image.pixel? x y).isSome ↔ x < image.width ∧ y < image.height := by
  rw [pixel?]
  split
  · next hin => exact iff_of_true rfl hin
  · next hout => exact iff_of_false Bool.false_ne_true hout

/-! ## Images made from bytes -/

variable {width height : UInt32} {bytes : Array UInt8}

theorem ofBytes?_eq_some_iff {width height : ℕ} :
    ofBytes? width height bytes = some image ↔
      image.width = width ∧ image.height = height ∧ image.bytes = bytes := by
  rw [ofBytes?]
  split
  · next hsize =>
    rw [Option.some.injEq]
    constructor
    · rintro rfl
      exact ⟨rfl, rfl, rfl⟩
    · obtain ⟨w, h, b, hb⟩ := image
      rintro ⟨rfl, rfl, rfl⟩
      rfl
  · next hsize =>
    refine iff_of_false (by simp) ?_
    rintro ⟨rfl, rfl, rfl⟩
    exact hsize image.size_eq

theorem ofBytes?_eq_none_iff {width height : ℕ} :
    ofBytes? width height bytes = none ↔ bytes.size ≠ width * height * 4 := by
  rw [ofBytes?]
  split
  · next hsize => exact iff_of_false (Option.some_ne_none _) fun hne => hne hsize
  · next hsize => exact iff_of_true rfl hsize

/-- What becomes of bytes is one of three things. -/
theorem create_cases (width height : UInt32) (bytes : Array UInt8) :
    (2 ^ 64 ≤ width.toNat * height.toNat * 4 ∧
      create width height bytes = .error .multiplication) ∨
    (width.toNat * height.toNat * 4 < 2 ^ 64 ∧
      create width height bytes = .ok (ofBytes? width.toNat height.toNat bytes)) := by
  have hbound : UInt64.size = 2 ^ 64 := rfl
  rw [create, hbound]
  split
  · next hfits => exact .inr ⟨hfits, rfl⟩
  · next hlarge => exact .inl ⟨Nat.le_of_not_lt hlarge, rfl⟩

/-- The image has these sides, and its pixels share out these bytes. -/
structure ReadsAll (image : Image) (width height : ℕ) (bytes : Array UInt8) : Prop where
  /-- There are as many bytes as the pixels need, so all places of bytes have 64 bits. -/
  size_eq : bytes.size = width * height * 4
  size_lt : bytes.size < 2 ^ 64
  width_eq : image.width = width
  height_eq : image.height = height
  isSome_iff : ∀ x y, (image.pixel? x y).isSome ↔ x < width ∧ y < height
  bytes_eq : ∀ x y color, image.pixel? x y = some color →
    (List.range' (4 * (y * width + x)) 4).map (bytes[·]?) =
      [some color.r, some color.g, some color.b, some color.a]
  disjoint : ∀ x y x' y', x < width → x' < width → (x, y) ≠ (x', y') →
    (image.places x y).Disjoint (image.places x' y')
  covered_iff : ∀ i, (∃ x y, (x < width ∧ y < height) ∧ i ∈ image.places x y) ↔ i < bytes.size

theorem readsAll_of_ofBytes? {width height : ℕ} (hlt : width * height * 4 < 2 ^ 64)
    (h : ofBytes? width height bytes = some image) : image.ReadsAll width height bytes := by
  obtain ⟨rfl, rfl, rfl⟩ := ofBytes?_eq_some_iff.1 h
  exact
    { size_eq := image.size_eq
      size_lt := image.size_eq ▸ hlt
      width_eq := rfl
      height_eq := rfl
      isSome_iff := fun x y => isSome_pixel?_iff
      bytes_eq := fun x y color hcolor => (pixel?_eq_some_iff.1 hcolor).2
      disjoint := fun x y x' y' hx hx' hne => disjoint_places hx hx' hne
      covered_iff := fun i => exists_places_iff }

/-- Bytes make an image exactly if their number fits the sides, and are refused exactly if it does
not, as long as that number can be counted in 64 bits; otherwise making the image fails. An image
that was made reads every one of the bytes with exactly one of its pixels. -/
theorem create_reads_all_bytes (width height : UInt32) (bytes : Array UInt8) :
    ((∃ image, create width height bytes = .ok (some image)) ↔
      width.toNat * height.toNat * 4 < 2 ^ 64 ∧ bytes.size = width.toNat * height.toNat * 4) ∧
    (create width height bytes = .ok none ↔
      width.toNat * height.toNat * 4 < 2 ^ 64 ∧ bytes.size ≠ width.toNat * height.toNat * 4) ∧
    (create width height bytes = .error .multiplication ↔
      2 ^ 64 ≤ width.toNat * height.toNat * 4) ∧
    ∀ image, create width height bytes = .ok (some image) →
      image.ReadsAll width.toNat height.toNat bytes := by
  obtain ⟨hlarge, hcreate⟩ | ⟨hfits, hcreate⟩ := create_cases width height bytes
  · have hnot := Nat.not_lt_of_le hlarge
    rw [hcreate]
    refine ⟨iff_of_false ?_ (mt And.left hnot), iff_of_false (by simp) (mt And.left hnot),
      iff_of_true rfl hlarge, ?_⟩
    · rintro ⟨image, h⟩
      cases h
    · intro image h
      cases h
  · have hmade : ∀ image, create width height bytes = .ok (some image) ↔
        ofBytes? width.toNat height.toNat bytes = some image := by
      intro image
      rw [hcreate, Except.ok.injEq]
    refine ⟨?_, ?_, ?_, ?_⟩
    · rw [exists_congr hmade, and_iff_right hfits, ← Option.ne_none_iff_exists', ne_eq,
        ofBytes?_eq_none_iff, not_not]
    · rw [hcreate, Except.ok.injEq, ofBytes?_eq_none_iff, and_iff_right hfits]
    · rw [hcreate]
      exact iff_of_false (by simp) (Nat.not_le_of_lt hfits)
    · intro image h
      exact readsAll_of_ofBytes? hfits ((hmade image).1 h)

/-- Two pixels beside each other. -/
theorem create_reads_all_bytes_of_two :
    let image : Image := ⟨2, 1, #[0, 0, 0, 0, 1, 2, 3, 4], rfl⟩
    create 2 1 #[0, 0, 0, 0, 1, 2, 3, 4] = .ok (some image) ∧
      image.ReadsAll 2 1 #[0, 0, 0, 0, 1, 2, 3, 4] ∧ image.pixel? 1 0 = some ⟨1, 2, 3, 4⟩ := by
  intro image
  have hcreate : create 2 1 #[0, 0, 0, 0, 1, 2, 3, 4] = .ok (some image) := rfl
  exact ⟨hcreate, (create_reads_all_bytes 2 1 _).2.2.2 image hcreate, rfl⟩

/-- No bytes at all are not refused for an image of `2 ^ 31` by `2 ^ 31` pixels. -/
theorem create_of_largest_sides :
    (#[] : Array UInt8).size ≠ (2147483648 : UInt32).toNat * (2147483648 : UInt32).toNat * 4 ∧
      create 2147483648 2147483648 #[] ≠ .ok none := by
  decide

end BoxFlow.Image
