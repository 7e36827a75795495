import Mathlib.Data.List.Nodup
import Mathlib.Data.List.Range
import Mathlib.Data.Nat.ModEq

/- Serial numbers. They are given one after another, from 1 to the last one and then from 1
   again; 0 is never given.

   `Follow` says that some numbers have been given one after another. They can be written down
   (`Follow.eq_map`), so as many of them as there are numbers are all different, wherever they
   begin (`Follow.nodup`). -/
namespace Serial

variable {last n : Nat} {ids : List Nat}

/-- The number after `n`. -/
def next (last n : Nat) : Nat := if n = last then 1 else n + 1

/-- The numbers that follow `n`. -/
def Follow (last n : Nat) : List Nat → Prop
  | [] => True
  | id :: ids => id = next last n ∧ Follow last id ids

theorem next_bounds (hlast : 0 < last) (hn : n ≤ last) :
    1 ≤ next last n ∧ next last n ≤ last := by
  unfold next
  split
  · exact ⟨Nat.le_refl 1, hlast⟩
  · exact ⟨Nat.le_add_left 1 n, by omega⟩

theorem next_eq (hn : n ≤ last) : next last n = n % last + 1 := by
  unfold next
  split
  · next h => rw [h, Nat.mod_self]
  · rw [Nat.mod_eq_of_lt (by omega)]

/-- What follows a front part. -/
theorem Follow.suffix {front : List Nat} (h : Follow last n (front ++ ids)) (hlast : 0 < last)
    (hn : n ≤ last) : ∃ m, m ≤ last ∧ Follow last m ids := by
  induction front generalizing n with
  | nil => exact ⟨n, hn, h⟩
  | cons id front ih =>
    obtain ⟨rfl, hrest⟩ := h
    exact ih hrest (next_bounds hlast hn).2

theorem Follow.front {rest : List Nat} (h : Follow last n (ids ++ rest)) : Follow last n ids := by
  induction ids generalizing n with
  | nil => trivial
  | cons id ids ih =>
    obtain ⟨hid, hrest⟩ := h
    exact ⟨hid, ih hrest⟩

theorem Follow.eq_map (h : Follow last n ids) (hlast : 0 < last) (hn : n ≤ last) :
    ids = (List.range ids.length).map fun i => (n + i) % last + 1 := by
  induction ids generalizing n with
  | nil => rfl
  | cons id ids ih =>
    obtain ⟨rfl, hrest⟩ := h
    have hids := ih hrest (next_bounds hlast hn).2
    rw [List.length_cons, List.range_succ_eq_map, List.map_cons, List.map_map, Nat.add_zero,
      next_eq hn]
    rw [next_eq hn] at hids
    congr 1
    refine hids.trans (List.map_congr_left fun i _ => ?_)
    rw [Function.comp_apply]
    calc (n % last + 1 + i) % last + 1 = (n % last + (i + 1)) % last + 1 := by
          rw [Nat.add_assoc, Nat.add_comm 1 i]
      _ = (n + (i + 1)) % last + 1 := by rw [Nat.mod_add_mod]

/-- **Windows.** As many numbers as there are, or fewer, are all different. -/
theorem Follow.nodup (h : Follow last n ids) (hlast : 0 < last) (hn : n ≤ last)
    (hlen : ids.length ≤ last) : ids.Nodup := by
  rw [h.eq_map hlast hn]
  refine List.Nodup.map_on ?_ List.nodup_range
  intro i hi j hj heq
  have hi' : i < last := Nat.lt_of_lt_of_le (List.mem_range.mp hi) hlen
  have hj' : j < last := Nat.lt_of_lt_of_le (List.mem_range.mp hj) hlen
  have hmod : n + i ≡ n + j [MOD last] := Nat.succ.inj heq
  exact (Nat.ModEq.add_left_cancel' n hmod).eq_of_lt_of_lt hi' hj'

end Serial
