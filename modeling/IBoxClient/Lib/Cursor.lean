import Mathlib.Data.List.Basic
import Mathlib.Data.List.Infix

/- Memory that is read at offsets. `HoldsAt buf off xs` says that `xs` stands in `buf` from
   `off` on. A reader that goes forward takes what it holds apart from the front
   (`holdsAt_append`, `holdsAt_cons`); a reader that jumps only needs to know what stands where
   it jumps to. -/
namespace Cursor

variable {α : Type}

/-- What stands in memory from an offset on. -/
def HoldsAt (buf : List α) (off : Nat) (xs : List α) : Prop := xs <+: buf.drop off

variable {buf xs ys : List α} {off : Nat} {x : α}

theorem holdsAt_front (xs ys : List α) : HoldsAt (xs ++ ys) 0 xs := List.prefix_append xs ys

/-- Behind what is there is the rest. -/
theorem holdsAt_append :
    HoldsAt buf off (xs ++ ys) ↔ HoldsAt buf off xs ∧ HoldsAt buf (off + xs.length) ys := by
  unfold HoldsAt
  constructor
  · rintro ⟨zs, hzs⟩
    refine ⟨⟨ys ++ zs, by rw [← hzs, List.append_assoc]⟩, zs, ?_⟩
    rw [← List.drop_drop, ← hzs, List.append_assoc, List.drop_left]
  · rintro ⟨⟨ts, hts⟩, zs, hzs⟩
    rw [← List.drop_drop, ← hts, List.drop_left] at hzs
    exact ⟨zs, by rw [← hts, ← hzs, List.append_assoc]⟩

theorem HoldsAt.left (h : HoldsAt buf off (xs ++ ys)) : HoldsAt buf off xs := (holdsAt_append.mp h).1

theorem HoldsAt.right (h : HoldsAt buf off (xs ++ ys)) : HoldsAt buf (off + xs.length) ys :=
  (holdsAt_append.mp h).2

theorem HoldsAt.tail (h : HoldsAt buf off (x :: xs)) : HoldsAt buf (off + 1) xs :=
  @HoldsAt.right _ _ [x] xs off h

/-- The element at the offset. -/
theorem HoldsAt.getD (h : HoldsAt buf off (x :: xs)) (d : α) : buf.getD off d = x := by
  obtain ⟨zs, hzs⟩ := h
  rw [List.getD_eq_getElem?_getD, ← Nat.add_zero off, ← List.getElem?_drop, ← hzs]
  rfl

/-- As many elements as are there. -/
theorem HoldsAt.take (h : HoldsAt buf off xs) : (buf.drop off).take xs.length = xs := by
  obtain ⟨zs, hzs⟩ := h
  rw [← hzs, List.take_left]

theorem HoldsAt.le (h : HoldsAt buf off (x :: xs)) : off < buf.length := by
  have hlen := h.length_le
  rw [List.length_drop, List.length_cons] at hlen
  omega

end Cursor
