import Mathlib.Data.List.Basic

/-!
The bytes of a file: overwriting at a position, and finding a record at an offset.

A write beyond the end fills the gap with zeros. What stands before the position of a write stays,
so a record that has been found at an offset is found there as long as the bytes up to its end only
grow.
-/

namespace ByteFile

open List

def writeAt (position : Nat) (bytes content : List UInt8) : List UInt8 :=
  content.take position ++ List.replicate (position - content.length) 0 ++ bytes ++
    content.drop (position + bytes.length)

def HasAt (content : List UInt8) (offset : Nat) (record : List UInt8) : Prop :=
  ∃ before after, content = before ++ record ++ after ∧ before.length = offset

theorem writeAt_eq (h : position ≤ content.length) : writeAt position bytes content =
      content.take position ++ bytes ++ content.drop (position + bytes.length) := by
  rw [writeAt, Nat.sub_eq_zero_of_le h, replicate_zero, append_nil]

theorem take_writeAt (h : position ≤ content.length) :
    (writeAt position bytes content).take position = content.take position := by
  rw [writeAt_eq h, append_assoc, take_append_of_le_length (by simp [h]), take_take,
    Nat.min_self]

theorem take_writeAt_end (h : position ≤ content.length) :
    (writeAt position bytes content).take (position + bytes.length) =
      content.take position ++ bytes := by
  rw [writeAt_eq h]
  exact take_left' (by simp [h])

theorem le_length_writeAt (h : position ≤ content.length) :
    position + bytes.length ≤ (writeAt position bytes content).length := by
  rw [writeAt_eq h]
  simp only [length_append, length_take]
  omega

theorem HasAt.mono (h : HasAt content offset record) (hle : content <+: content') :
    HasAt content' offset record := by
  obtain ⟨before, after, rfl, hlength⟩ := h
  obtain ⟨more, rfl⟩ := hle
  exact ⟨before, after ++ more, by simp, hlength⟩

theorem HasAt.le_length (h : HasAt content offset record) :
    offset + record.length ≤ content.length := by
  obtain ⟨before, after, rfl, rfl⟩ := h
  simp only [length_append]
  omega

theorem hasAt_append : HasAt (content ++ record) content.length record :=
  ⟨content, [], by simp, rfl⟩

end ByteFile
