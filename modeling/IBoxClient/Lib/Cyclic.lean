import Mathlib.Data.Nat.ModEq
import Mathlib.Logic.Function.Basic

/- Cyclic stores. `n` cells are used round and round; a queue on them is a start
   index and a length, and `slice` reads it out in ring order. Taking the front
   element moves the start on (`slice_succ`), appending writes the cell after the
   last one (`slice_push`), and a cell outside the queue can be written freely
   (`slice_update_of_ne`). -/
namespace Cyclic

variable {α : Type}

/-- The index after `i` on a ring of `n` cells. -/
def next (n i : Nat) : Nat := (i + 1) % n

theorem next_lt {n : Nat} (hn : 0 < n) (i : Nat) : next n i < n := Nat.mod_lt _ hn

/-- A wrap by comparison is the wrap by remainder. -/
theorem next_eq_ite {n i : Nat} (hi : i < n) : next n i = if i + 1 = n then 0 else i + 1 := by
  unfold next
  split
  · rename_i h; rw [h, Nat.mod_self]
  · exact Nat.mod_eq_of_lt (by omega)

theorem next_add (n i k : Nat) : (next n i + k) % n = (i + (k + 1)) % n := by
  unfold next
  rw [Nat.mod_add_mod, Nat.add_assoc, Nat.add_comm 1 k]

theorem next_mod (n i : Nat) : next n (i % n) = (i + 1) % n := Nat.mod_add_mod i n 1

/-- Two offsets within one turn lead to different cells. -/
theorem offset_ne {n i j k : Nat} (hj : j < n) (hk : k < n) (hne : j ≠ k) :
    (i + j) % n ≠ (i + k) % n := by
  intro h
  have h' : j % n = k % n := Nat.ModEq.add_left_cancel' i h
  rw [Nat.mod_eq_of_lt hj, Nat.mod_eq_of_lt hk] at h'
  exact hne h'

/-- The `k` cells from `i` on, in ring order. -/
def slice (n : Nat) (cell : Nat → α) (i : Nat) : Nat → List α
  | 0 => []
  | k + 1 => cell i :: slice n cell (next n i) k

theorem slice_succ (n : Nat) (cell : Nat → α) (i k : Nat) :
    slice n cell i (k + 1) = cell i :: slice n cell (next n i) k := rfl

@[simp] theorem slice_zero (n : Nat) (cell : Nat → α) (i : Nat) : slice n cell i 0 = [] := rfl

@[simp] theorem length_slice (n : Nat) (cell : Nat → α) (i k : Nat) :
    (slice n cell i k).length = k := by
  induction k generalizing i with
  | zero => rfl
  | succ k ih => simp [slice, ih]

theorem slice_eq_nil {n : Nat} {cell : Nat → α} {i k : Nat} : slice n cell i k = [] ↔ k = 0 := by
  rw [← List.length_eq_zero_iff, length_slice]

theorem slice_snoc {n : Nat} (cell : Nat → α) {i : Nat} (hi : i < n) (k : Nat) :
    slice n cell i (k + 1) = slice n cell i k ++ [cell ((i + k) % n)] := by
  induction k generalizing i with
  | zero => simp [slice, Nat.mod_eq_of_lt hi]
  | succ k ih =>
    rw [slice_succ, ih (next_lt (by omega) i), slice_succ, List.cons_append, next_add]

theorem slice_update_of_ne {n : Nat} (cell : Nat → α) {i j k : Nat} (x : α) (hi : i < n)
    (hne : ∀ m < k, (i + m) % n ≠ j) :
    slice n (Function.update cell j x) i k = slice n cell i k := by
  induction k generalizing i with
  | zero => rfl
  | succ k ih =>
    have h0 : i ≠ j := by simpa [Nat.mod_eq_of_lt hi] using hne 0 (by omega)
    have hrest : ∀ m < k, (next n i + m) % n ≠ j := by
      intro m hm
      rw [next_add]
      exact hne (m + 1) (by omega)
    rw [slice_succ, slice_succ, Function.update_of_ne h0, ih (next_lt (by omega) i) hrest]

/-- Writing the cell after the last one appends. -/
theorem slice_push {n : Nat} (cell : Nat → α) {i k : Nat} (x : α) (hi : i < n) (hk : k < n) :
    slice n (Function.update cell ((i + k) % n) x) i (k + 1) = slice n cell i k ++ [x] := by
  have hkeep : slice n (Function.update cell ((i + k) % n) x) i k = slice n cell i k :=
    slice_update_of_ne cell x hi (fun m hm => offset_ne (by omega) hk (by omega))
  rw [slice_snoc _ hi, hkeep, Function.update_self]

/-- The number of steps from index `a` to index `b` round the ring. -/
def dist (n a b : Nat) : Nat := (b + n - a) % n

theorem dist_lt {n : Nat} (hn : 0 < n) (a b : Nat) : dist n a b < n := Nat.mod_lt _ hn

theorem dist_eq {n a b : Nat} (ha : a < n) (hb : b < n) :
    dist n a b = if a ≤ b then b - a else b + n - a := by
  unfold dist
  split
  · rename_i h
    rw [show b + n - a = b - a + n by omega, Nat.add_mod_right, Nat.mod_eq_of_lt (by omega)]
  · exact Nat.mod_eq_of_lt (by omega)

theorem add_dist {n a b : Nat} (ha : a < n) (hb : b < n) : (a + dist n a b) % n = b := by
  rw [dist_eq ha hb]
  split
  · rw [show a + (b - a) = b by omega, Nat.mod_eq_of_lt hb]
  · rw [show a + (b + n - a) = b + n by omega, Nat.add_mod_right, Nat.mod_eq_of_lt hb]

theorem dist_eq_zero {n a b : Nat} (ha : a < n) (hb : b < n) : dist n a b = 0 ↔ a = b := by
  rw [dist_eq ha hb]
  split <;> omega

/-- The end can move on by one as long as the ring is not fully used. -/
theorem dist_next_right {n a b : Nat} (ha : a < n) (hb : b < n) :
    dist n a (next n b) = if next n b = a then 0 else dist n a b + 1 := by
  have hnb := next_lt (show 0 < n by omega) b
  rw [dist_eq ha hnb, dist_eq ha hb, next_eq_ite hb]
  repeat' split
  all_goals omega

theorem dist_next_left {n a b : Nat} (ha : a < n) (hb : b < n) (hne : a ≠ b) :
    dist n (next n a) b + 1 = dist n a b := by
  have hna := next_lt (show 0 < n by omega) a
  rw [dist_eq hna hb, dist_eq ha hb, next_eq_ite ha]
  repeat' split
  all_goals omega

/-- From the next cell it is a turn but one. -/
theorem dist_next_self {n a : Nat} (ha : a < n) : dist n (next n a) a = n - 1 := by
  have hna := next_lt (show 0 < n by omega) a
  rw [dist_eq hna ha, next_eq_ite ha]
  repeat' split
  all_goals omega

theorem next_eq_iff_dist {n a b : Nat} (ha : a < n) (hb : b < n) :
    next n b = a ↔ dist n a b = n - 1 := by
  rw [dist_eq ha hb, next_eq_ite hb]
  repeat' split
  all_goals omega

end Cyclic
