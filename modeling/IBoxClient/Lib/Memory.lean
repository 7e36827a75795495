import Mathlib.Logic.Function.Basic
import Mathlib.Data.List.Basic

/- Memory, as a function from addresses. `write mem i l` is what storing the elements
   of `l` one after another from `i` on leaves: the cells from `i` on hold `l`
   (`write_at`), all others what they held (`write_before`, `write_after`). -/
namespace Memory

variable {α : Type}

/-- The memory after the elements of a list have been stored from an address on. -/
def write (mem : Nat → α) (i : Nat) : List α → Nat → α
  | [] => mem
  | x :: xs => write (Function.update mem i x) (i + 1) xs

@[simp] theorem write_nil (mem : Nat → α) (i : Nat) : write mem i [] = mem := rfl

theorem write_cons (mem : Nat → α) (i : Nat) (x : α) (xs : List α) :
    write mem i (x :: xs) = write (Function.update mem i x) (i + 1) xs := rfl

theorem write_append (mem : Nat → α) (i : Nat) (a b : List α) :
    write mem i (a ++ b) = write (write mem i a) (i + a.length) b := by
  induction a generalizing mem i with
  | nil => rfl
  | cons x xs ih =>
    rw [List.cons_append, write_cons, ih, write_cons, List.length_cons, Nat.add_assoc,
      Nat.add_comm 1]

/-- Storing one more element, behind those stored from 0 on. -/
theorem write_snoc (mem : Nat → α) (l : List α) (x : α) :
    write mem 0 (l ++ [x]) = Function.update (write mem 0 l) l.length x := by
  rw [write_append, Nat.zero_add]
  rfl

theorem write_before (mem : Nat → α) (l : List α) {i j : Nat} (h : j < i) :
    write mem i l j = mem j := by
  induction l generalizing mem i with
  | nil => rfl
  | cons x xs ih =>
    rw [write_cons, ih _ (by omega)]
    exact Function.update_of_ne (by omega) ..

theorem write_after (mem : Nat → α) (l : List α) {i j : Nat} (h : i + l.length ≤ j) :
    write mem i l j = mem j := by
  induction l generalizing mem i with
  | nil => rfl
  | cons x xs ih =>
    rw [List.length_cons] at h
    rw [write_cons, ih _ (by omega)]
    exact Function.update_of_ne (by omega) ..

theorem write_at (mem : Nat → α) (i : Nat) {l : List α} {k : Nat} (h : k < l.length) :
    write mem i l (i + k) = l[k] := by
  induction l generalizing mem i k with
  | nil => simp at h
  | cons x xs ih =>
    rw [write_cons]
    cases k with
    | zero => rw [write_before _ _ (by omega), Nat.add_zero, Function.update_self]; rfl
    | succ k =>
      have hk := ih (Function.update mem i x) (i + 1) (Nat.lt_of_succ_lt_succ h)
      rw [show i + (k + 1) = i + 1 + k by omega, hk, List.getElem_cons_succ]

/-- What has been stored is read again, whatever is stored behind it. -/
theorem read_front (mem : Nat → α) (l more : List α) :
    (List.range l.length).map (write mem 0 (l ++ more)) = l := by
  apply List.ext_getElem
  · rw [List.length_map, List.length_range]
  · intro k hk hk'
    have hlt : k < (l ++ more).length := by
      rw [List.length_append]
      exact Nat.lt_add_right _ hk'
    have hat := write_at mem 0 hlt
    rw [Nat.zero_add, List.getElem_append_left hk'] at hat
    rw [List.getElem_map, List.getElem_range, hat]

end Memory
