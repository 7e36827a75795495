import IBoxClient.Lib.Memory

/- Reading memory. `Holds mem i l` says that the elements of `l` stand one after another from
   `i` on; a reader that goes forward takes what it holds apart from the front (`holds_append`),
   and what has been stored is held (`holds_write`).

   A buffer of a fixed size is read with what stands behind it (`extend`); what has been stored
   at its front is held if there is room for it (`holds_fill`). -/
namespace Memory

variable {α : Type} {mem mem' : Nat → α} {i j : Nat} {a b : List α}

/-- What stands in memory from an address on. -/
def Holds (mem : Nat → α) (i : Nat) : List α → Prop
  | [] => True
  | x :: xs => mem i = x ∧ Holds mem (i + 1) xs

instance Holds.decidable [DecidableEq α] (mem : Nat → α) (i : Nat) :
    (l : List α) → Decidable (Holds mem i l)
  | [] => .isTrue trivial
  | x :: xs =>
    have := Holds.decidable mem (i + 1) xs
    inferInstanceAs (Decidable (mem i = x ∧ Holds mem (i + 1) xs))

theorem holds_append : Holds mem i (a ++ b) ↔ Holds mem i a ∧ Holds mem (i + a.length) b := by
  induction a generalizing i with
  | nil => simp [Holds]
  | cons x xs ih =>
    rw [List.cons_append, Holds, Holds, ih, List.length_cons, and_assoc, Nat.add_assoc,
      Nat.add_comm 1]

theorem holds_iff : Holds mem i a ↔ ∀ k, (hk : k < a.length) → mem (i + k) = a[k] := by
  induction a generalizing i with
  | nil => simp [Holds]
  | cons x xs ih =>
    rw [Holds, ih]
    constructor
    · rintro ⟨hx, hxs⟩ k hk
      cases k with
      | zero => exact hx
      | succ k =>
        have hat := hxs k (Nat.lt_of_succ_lt_succ hk)
        rw [show i + (k + 1) = i + 1 + k by omega, hat, List.getElem_cons_succ]
    · intro h
      refine ⟨h 0 (Nat.succ_pos _), fun k hk => ?_⟩
      have hat := h (k + 1) (Nat.succ_lt_succ hk)
      rw [show i + 1 + k = i + (k + 1) by omega, hat, List.getElem_cons_succ]

/-- What has been stored is held. -/
theorem holds_write (mem : Nat → α) (i : Nat) (a : List α) : Holds (write mem i a) i a :=
  holds_iff.mpr fun _ hk => write_at mem i hk

/-- Only the memory that is read matters. -/
theorem Holds.congr (h : Holds mem i a) (hsame : ∀ k, k < a.length → mem' (i + k) = mem (i + k)) :
    Holds mem' i a :=
  holds_iff.mpr fun k hk => (hsame k hk).trans (holds_iff.mp h k hk)

/-- What is held is read. -/
theorem Holds.read (h : Holds mem i a) : (List.range a.length).map (fun k => mem (i + k)) = a := by
  apply List.ext_getElem
  · rw [List.length_map, List.length_range]
  · intro k hk hk'
    rw [List.getElem_map, List.getElem_range, holds_iff.mp h k hk']

/-! ## Buffers -/

variable {n : Nat}

/-- Memory from the start of a buffer on. -/
def extend (buf : Fin n → α) (behind : Nat → α) (k : Nat) : α :=
  if h : k < n then buf ⟨k, h⟩ else behind k

/-- A buffer after elements have been stored at its front. -/
def fill (buf : Fin n → α) (a : List α) (k : Fin n) : α := a.getD k (buf k)

/-- What has been stored is held, if there is room for it. -/
theorem holds_fill (buf : Fin n → α) (behind : Nat → α) (h : a.length ≤ n) :
    Holds (extend (fill buf a) behind) 0 a := by
  rw [holds_iff]
  intro k hk
  have hlt : k < n := Nat.lt_of_lt_of_le hk h
  rw [Nat.zero_add, extend, dif_pos hlt, fill]
  simp [hk]

end Memory
