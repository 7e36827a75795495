import Mathlib.Data.List.Basic

/- Tables of slots. A value goes into the first slot that has its key, or else into the first that
   is free, or nowhere.

   `install_cases` says what a table looks like around the slot, in each case. From it come the two
   facts that matter: all other slots stay as they are (`kept`), and a property of the value is one
   of no other slot if and only if no other slot had it (`only_iff`). -/
namespace Slots

variable {α : Type} (same free : α → Bool)

/-- The slot that a value goes into. -/
def place (slots : List α) : Option Nat := (slots.findIdx? same).or (slots.findIdx? free)

/-- The table with a value in its slot, if there is one for it. -/
def install (v : α) (slots : List α) : Option (List α) :=
  (place same free slots).map fun i => slots.set i v

variable {same free}

/-- A slot is chosen by its key, if there is one with it, and because it is free if there is
none. -/
inductive Chosen (same free : α → Bool) (before : List α) (x : α) (after : List α) : Prop where
  | key (hx : same x = true) (hbefore : ∀ y ∈ before, same y = false)
  | free (hx : free x = true) (hother : ∀ y ∈ before ++ x :: after, same y = false)

theorem split_of_findIdx? {p : α → Bool} {slots : List α} {i : Nat}
    (h : slots.findIdx? p = some i) : ∃ before x after, slots = before ++ x :: after ∧
      before.length = i ∧ p x = true ∧ ∀ y ∈ before, p y = false := by
  obtain ⟨hi, hp, hbefore⟩ := List.findIdx?_eq_some_iff_getElem.mp h
  refine ⟨slots.take i, slots[i], slots.drop (i + 1), ?_, ?_, hp, ?_⟩
  · rw [← List.drop_eq_getElem_cons hi, List.take_append_drop]
  · exact List.length_take_of_le (Nat.le_of_lt hi)
  · intro y hy
    obtain ⟨j, hj, rfl⟩ := List.getElem_of_mem hy
    rw [List.length_take] at hj
    rw [List.getElem_take]
    exact Bool.not_eq_true _ ▸ hbefore j (by omega)

/-- The slot behind the ones in front of it is written. -/
theorem set_around (before : List α) (x : α) (after : List α) (v : α) :
    (before ++ x :: after).set before.length v = before ++ v :: after := by
  rw [List.set_append_right _ _ (Nat.le_refl _), Nat.sub_self]
  rfl

/-- **Installing.** -/
theorem install_cases (v : α) (slots : List α) :
    (∃ before x after, slots = before ++ x :: after ∧ Chosen same free before x after ∧
      install same free v slots = some (before ++ v :: after)) ∨
    (∀ y ∈ slots, same y = false ∧ free y = false) ∧ install same free v slots = none := by
  unfold install place
  cases hsame : slots.findIdx? same with
  | some i =>
    obtain ⟨before, x, after, rfl, rfl, hx, hbefore⟩ := split_of_findIdx? hsame
    exact .inl ⟨before, x, after, rfl, .key hx hbefore, congrArg some (set_around before x after v)⟩
  | none =>
    have hother := List.findIdx?_eq_none_iff.mp hsame
    rw [Option.none_or]
    cases hfree : slots.findIdx? free with
    | some i =>
      obtain ⟨before, x, after, rfl, rfl, hx, -⟩ := split_of_findIdx? hfree
      exact .inl ⟨before, x, after, rfl, .free hx hother, congrArg some (set_around before x after v)⟩
    | none =>
      have hfull := List.findIdx?_eq_none_iff.mp hfree
      exact .inr ⟨fun y hy => ⟨hother y hy, hfull y hy⟩, rfl⟩

section Around
variable {before after : List α} {x v : α}

/-- A slot other than the one that is written. -/
theorem kept {p : α → Prop} (hx : ¬ p x) (hv : ¬ p v) (i : Nat) (y : α) (hy : p y) :
    (before ++ v :: after)[i]? = some y ↔ (before ++ x :: after)[i]? = some y := by
  rcases Nat.lt_trichotomy i before.length with hlt | rfl | hgt
  · rw [List.getElem?_append_left hlt, List.getElem?_append_left hlt]
  · rw [List.getElem?_append_right (Nat.le_refl _), List.getElem?_append_right (Nat.le_refl _),
      Nat.sub_self, List.getElem?_cons_zero, List.getElem?_cons_zero]
    constructor
    · intro h
      exact absurd (Option.some.inj h ▸ hy) hv
    · intro h
      exact absurd (Option.some.inj h ▸ hy) hx
  · obtain ⟨k, rfl⟩ : ∃ k, i = before.length + (k + 1) := ⟨i - before.length - 1, by omega⟩
    rw [List.getElem?_append_right (Nat.le_add_right _ _),
      List.getElem?_append_right (Nat.le_add_right _ _), Nat.add_sub_cancel_left,
      List.getElem?_cons_succ, List.getElem?_cons_succ]

/-- Exactly one slot has a property. -/
def Only (p : α → Prop) (slots : List α) : Prop := ∃! i : Nat, ∃ y, slots[i]? = some y ∧ p y

/-- The slot that is written is the only one with a property if no other slot had it. -/
theorem only_iff {p : α → Prop} (hv : p v) :
    Only p (before ++ v :: after) ↔ ∀ y ∈ before ++ after, ¬ p y := by
  have hwritten : (before ++ v :: after)[before.length]? = some v := by
    rw [List.getElem?_append_right (Nat.le_refl _), Nat.sub_self]
    rfl
  constructor
  · intro h y hy hp
    obtain ⟨i, -, honly⟩ := h
    have hi := honly before.length ⟨v, hwritten, hv⟩
    rcases List.mem_append.mp hy with hy | hy
    · obtain ⟨j, hj, rfl⟩ := List.getElem_of_mem hy
      have hget : (before ++ v :: after)[j]? = some before[j] := by
        rw [List.getElem?_append_left hj, List.getElem?_eq_getElem hj]
      have hj' := honly j ⟨_, hget, hp⟩
      omega
    · obtain ⟨j, hj, rfl⟩ := List.getElem_of_mem hy
      have hget : (before ++ v :: after)[before.length + (j + 1)]? = some after[j] := by
        rw [List.getElem?_append_right (Nat.le_add_right _ _), Nat.add_sub_cancel_left,
          List.getElem?_cons_succ, List.getElem?_eq_getElem hj]
      have hj' := honly _ ⟨_, hget, hp⟩
      omega
  · intro h
    refine ⟨before.length, ⟨v, hwritten, hv⟩, fun i hi => ?_⟩
    obtain ⟨y, hget, hp⟩ := hi
    rcases Nat.lt_trichotomy i before.length with hlt | heq | hgt
    · rw [List.getElem?_append_left hlt] at hget
      exact absurd hp (h y (List.mem_append_left _ (List.mem_of_getElem? hget)))
    · exact heq
    · obtain ⟨k, rfl⟩ : ∃ k, i = before.length + (k + 1) := ⟨i - before.length - 1, by omega⟩
      rw [List.getElem?_append_right (Nat.le_add_right _ _), Nat.add_sub_cancel_left,
        List.getElem?_cons_succ] at hget
      exact absurd hp (h y (List.mem_append_right _ (List.mem_of_getElem? hget)))

end Around

end Slots
