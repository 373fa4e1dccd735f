import Mathlib.Data.List.Basic

/-!
# Writing at an offset

What a file holds after bytes are written at an offset.  A write past the end
fills the gap with the default value, and a write of nothing does not extend the
file.  A file is copied from a source by writing slices of the source at their
own offsets; the module says what part of the source the file then agrees with,
also when several copies of one source are under way.
-/

namespace IdoProject
namespace Storage

variable {Byte : Type u}

/-- Content after the bytes are written at the offset. -/
def writeAt [Inhabited Byte] (content : List Byte) (offset : Nat) :
    List Byte → List Byte
  | [] => content
  | bytes =>
      content.take offset ++
        List.replicate (offset - content.length) default ++ bytes ++
          content.drop (offset + bytes.length)

/-- The part of a source that starts at the offset. -/
def slice (source : List Byte) (offset count : Nat) : List Byte :=
  (source.drop offset).take count

section Laws

variable {content source bytes : List Byte}
variable {offset index count copied : Nat}

@[simp] theorem slice_zero :
    slice source offset 0 = [] := List.take_zero

theorem length_slice
    (within : offset + count ≤ source.length) :
    (slice source offset count).length = count := by
  simp only [slice, List.length_take, List.length_drop]
  omega

theorem getElem?_slice
    (inside : index < count) :
    (slice source offset count)[index]? = source[offset + index]? := by
  rw [slice, List.getElem?_take_of_lt inside, List.getElem?_drop]

section Write

variable [Inhabited Byte]

@[simp] theorem writeAt_nil :
    writeAt content offset [] = content := rfl

theorem length_writeAt
    (nonempty : bytes ≠ []) :
    (writeAt content offset bytes).length =
      max content.length (offset + bytes.length) := by
  cases bytes with
  | nil => exact absurd rfl nonempty
  | cons byte bytes =>
      simp only [writeAt, List.length_append, List.length_take,
        List.length_replicate, List.length_drop]
      omega

/-- Below the offset the file keeps what it holds. -/
theorem getElem?_writeAt_before
    (before : index < offset)
    (present : index < content.length) :
    (writeAt content offset bytes)[index]? = content[index]? := by
  cases bytes with
  | nil => rfl
  | cons byte bytes =>
      have kept : index < (content.take offset).length := by
        rw [List.length_take]
        omega
      simp only [writeAt, List.append_assoc]
      rw [List.getElem?_append_left kept, List.getElem?_take_of_lt before]

/-- The bytes stand at the offset. -/
theorem getElem?_writeAt_inside
    (from_ : offset ≤ index)
    (inside : index < offset + bytes.length) :
    (writeAt content offset bytes)[index]? = bytes[index - offset]? := by
  cases bytes with
  | nil => simp only [List.length_nil] at inside; omega
  | cons byte bytes =>
      have filled :
          (content.take offset ++
            List.replicate (offset - content.length) default).length =
              offset := by
        simp only [List.length_append, List.length_take, List.length_replicate]
        omega
      simp only [writeAt, List.append_assoc]
      rw [← List.append_assoc, List.getElem?_append_right (by omega), filled]
      apply List.getElem?_append_left
      omega

/-- Behind the bytes the file keeps what it holds. -/
theorem getElem?_writeAt_after
    (behind : offset + bytes.length ≤ index) :
    (writeAt content offset bytes)[index]? = content[index]? := by
  cases bytes with
  | nil => rfl
  | cons byte bytes =>
      have written :
          (content.take offset ++
            List.replicate (offset - content.length) default ++
              (byte :: bytes)).length = offset + (byte :: bytes).length := by
        simp only [List.length_append, List.length_take, List.length_replicate]
        omega
      simp only [writeAt]
      rw [List.getElem?_append_right (by omega), written, List.getElem?_drop]
      congr 1
      omega

/-- A file that holds the front of its source holds more of it when the next
slice is written. -/
theorem writeAt_take_slice
    (within : offset + count ≤ source.length) :
    writeAt (source.take offset) offset (slice source offset count) =
      source.take (offset + count) := by
  have filled : (source.take offset).length = offset := by
    rw [List.length_take]
    omega
  have size := length_slice within
  rw [List.take_add]
  change _ = source.take offset ++ slice source offset count
  cases written : slice source offset count with
  | nil => rw [writeAt_nil, List.append_nil]
  | cons byte bytes =>
      rw [written] at size
      simp only [writeAt]
      rw [List.take_of_length_le (Nat.le_of_eq filled), filled, Nat.sub_self,
        List.replicate_zero, List.append_nil,
        List.drop_of_length_le (by rw [filled]; exact Nat.le_add_right ..),
        List.append_nil]

end Write

end Laws

/-- The file is no longer than the source and agrees with it on the copied
part. -/
structure Agrees
    (source content : List Byte)
    (copied : Nat) : Prop where
  /-- No byte stands behind the end of the source. -/
  length_le : content.length ≤ source.length
  /-- The part copied so far is the source's own. -/
  getElem?_eq : ∀ index < copied, content[index]? = source[index]?

namespace Agrees

variable {content source : List Byte}
variable {offset index count copied : Nat}

/-- An empty file agrees with any source before anything is copied. -/
theorem empty : Agrees source [] 0 where
  length_le := Nat.zero_le _
  getElem?_eq := fun _ below => absurd below (Nat.not_lt_zero _)

/-- What is copied inside the source is present in the file. -/
theorem present
    (agrees : Agrees source content copied)
    (below : index < copied)
    (within : index < source.length) :
    index < content.length := by
  have same := agrees.getElem?_eq index below
  rw [List.getElem?_eq_getElem within] at same
  exact (List.getElem?_eq_some_iff.mp same).1

/-- Once everything is copied the file is the source. -/
theorem eq_source
    (agrees : Agrees source content source.length) :
    content = source := by
  apply List.ext_getElem?
  intro index
  rcases Nat.lt_or_ge index source.length with within | beyond
  · exact agrees.getElem?_eq index within
  · rw [List.getElem?_eq_none beyond, List.getElem?_eq_none]
    exact Nat.le_trans agrees.length_le beyond

section Write

variable [Inhabited Byte]

/-- Writing a slice of the source at its own offset keeps what is copied,
whoever writes it. -/
theorem writeAt
    (agrees : Agrees source content copied)
    (within : offset + count ≤ source.length) :
    Agrees source (writeAt content offset (slice source offset count))
      copied := by
  have size := length_slice within
  rcases Nat.eq_zero_or_pos count with rfl | positive
  · rwa [slice_zero, writeAt_nil]
  constructor
  · rw [length_writeAt, size]
    · exact Nat.max_le.mpr ⟨agrees.length_le, within⟩
    · apply List.ne_nil_of_length_pos
      rwa [size]
  · intro index below
    have same := agrees.getElem?_eq index below
    rcases Nat.lt_or_ge index (offset + count) with inside | behind
    · rcases Nat.lt_or_ge index offset with before | from_
      · rw [getElem?_writeAt_before before, same]
        exact agrees.present below (by omega)
      · rw [getElem?_writeAt_inside from_ (by omega), getElem?_slice (by omega)]
        congr 1
        omega
    · rw [getElem?_writeAt_after (by omega), same]

/-- Writing the next slice extends the copied part. -/
theorem extend
    (agrees : Agrees source content offset)
    (within : offset + count ≤ source.length) :
    Agrees source (Storage.writeAt content offset (slice source offset count))
      (offset + count) where
  length_le := (agrees.writeAt within).length_le
  getElem?_eq := by
    intro index below
    have size := length_slice within
    rcases Nat.lt_or_ge index offset with before | from_
    · exact (agrees.writeAt within).getElem?_eq index before
    · rw [getElem?_writeAt_inside from_ (by omega), getElem?_slice (by omega)]
      congr 1
      omega

end Write

end Agrees

end Storage
end IdoProject
