import Mathlib.Data.List.Basic

/- A store that keeps the newest. It has room for `cap` elements; one that comes when it is
   full takes the place of the oldest. The tape remembers everything that has come, and two
   positions on it: the first element kept, and the one behind the last that was taken.

   What is kept is always the end of the tape (`kept`), and of what has come since the last
   take it is as much as there is room for (`Ok.kept_eq`). -/
namespace Newest

variable {α : Type}

/-- All that has come, the position of the oldest element kept, and the position behind the
last one taken. -/
structure Tape (α : Type) where
  came : List α
  front : Nat
  taken : Nat

namespace Tape

def empty : Tape α := ⟨[], 0, 0⟩

/-- What is kept, oldest first. -/
def kept (t : Tape α) : List α := t.came.drop t.front

/-- How many have come behind the last one taken. -/
def untaken (t : Tape α) : Nat := t.came.length - t.taken

/-- An element comes; where that is one too many, the oldest is dropped. -/
def push (cap : Nat) (t : Tape α) (x : α) : Tape α :=
  { t with
    came := t.came ++ [x]
    front := if t.kept.length + 1 > cap then t.front + 1 else t.front }

/-- The oldest element is taken. -/
def take (t : Tape α) : Option α × Tape α :=
  match t.kept with
  | [] => (none, t)
  | x :: _ => (some x, { t with front := t.front + 1, taken := t.front + 1 })

/-- The last `k` elements of a list. -/
def newest (k : Nat) (l : List α) : List α := l.drop (l.length - k)

structure Ok (cap : Nat) (t : Tape α) : Prop where
  front_le : t.front ≤ t.came.length
  front_eq : t.front = max t.taken (t.came.length - cap)

variable {cap : Nat} {t : Tape α}

theorem ok_empty : Ok cap (empty : Tape α) := ⟨Nat.le_refl _, by simp [empty]⟩

theorem length_kept (t : Tape α) : t.kept.length = t.came.length - t.front := List.length_drop

theorem Ok.length_kept_le (h : t.Ok cap) : t.kept.length ≤ cap := by
  have hfront := h.front_eq
  rw [length_kept]
  omega

/-- What is kept are the newest of what has come since the last take. -/
theorem Ok.kept_eq (h : t.Ok cap) : t.kept = newest (min cap t.untaken) t.came := by
  have hle := h.front_le
  have hfront := h.front_eq
  have hpos : t.front = t.came.length - min cap t.untaken := by
    unfold untaken
    omega
  rw [kept, newest, ← hpos]

theorem ok_push (h : t.Ok cap) (x : α) : (t.push cap x).Ok cap := by
  have hle := h.front_le
  have hfront := h.front_eq
  have hlen := length_kept t
  refine ⟨?_, ?_⟩
  · simp only [push, List.length_append, List.length_singleton]
    split <;> omega
  · simp only [push, List.length_append, List.length_singleton]
    split <;> omega

/-- The newest is kept, and the oldest is not where there is no room for both. -/
theorem kept_push (hcap : 0 < cap) (h : t.Ok cap) (x : α) :
    (t.push cap x).kept =
      if t.kept.length + 1 > cap then t.kept.tail ++ [x] else t.kept ++ [x] := by
  have hle := h.front_le
  have hlen := length_kept t
  split
  · rename_i hfull
    have hlt : t.front + 1 ≤ t.came.length := by omega
    rw [kept, push]
    simp only [if_pos hfull]
    rw [List.drop_append_of_le_length hlt, kept, List.tail_drop]
  · rename_i hroom
    rw [kept, push]
    simp only [if_neg hroom]
    rw [List.drop_append_of_le_length hle, kept]

theorem take_nil (hk : t.kept = []) : t.take = (none, t) := by
  unfold take
  rw [hk]

theorem take_cons {x : α} {xs : List α} (hk : t.kept = x :: xs) :
    t.take = (some x, { t with front := t.front + 1, taken := t.front + 1 }) := by
  unfold take
  rw [hk]

theorem kept_take {x : α} {xs : List α} (hk : t.kept = x :: xs) : t.take.2.kept = xs := by
  rw [take_cons hk]
  have htail := congrArg List.tail hk
  rwa [kept, List.tail_drop] at htail

theorem ok_take (h : t.Ok cap) : t.take.2.Ok cap := by
  cases hk : t.kept with
  | nil =>
    rw [take_nil hk]
    exact h
  | cons x xs =>
    have hlen := length_kept t
    have hfront := h.front_eq
    rw [hk, List.length_cons] at hlen
    rw [take_cons hk]
    refine ⟨?_, ?_⟩
    · simp only
      omega
    · simp only
      omega

@[simp] theorem came_push (t : Tape α) (x : α) : (t.push cap x).came = t.came ++ [x] := rfl

@[simp] theorem came_take (t : Tape α) : t.take.2.came = t.came := by
  unfold take
  split <;> rfl

/-- Nothing is taken exactly where all that has not been dropped has been taken. -/
theorem take_eq_none_iff (h : t.Ok cap) : t.take.1 = none ↔ t.front = t.came.length := by
  have hlen := length_kept t
  have hle := h.front_le
  cases hk : t.kept with
  | nil =>
    rw [take_nil hk]
    rw [hk, List.length_nil] at hlen
    exact ⟨fun _ => by omega, fun _ => rfl⟩
  | cons x xs =>
    rw [take_cons hk]
    rw [hk, List.length_cons] at hlen
    exact ⟨fun hnone => absurd hnone (by simp), fun heq => by omega⟩

end Tape

end Newest
