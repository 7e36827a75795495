import IBoxClient.Lib.Slots
import Mathlib.Data.Finmap

/- Finite maps of a bounded size, and tables of slots that hold them.

   A slot has a key, or is free; a slot with a key has a value. `Represents` says that no two
   slots have the same key and that they hold what is in a map. A value is put into such a table
   by writing it into its slot, or a free one (`Represents.write`), and taken out by freeing its
   slot (`Represents.free`); the table is full when the map has as many keys as there are slots
   (`Represents.card_lt_iff`). What a freed slot has for a value is of no account. -/
namespace Table

variable {α β γ : Type} [DecidableEq β]

/-- A map of a bounded size with one more value, if its key is there or there is room. -/
def put (capacity : Nat) (m : Finmap fun _ : β => γ) (k : β) (c : γ) :
    Option (Finmap fun _ : β => γ) :=
  if k ∈ m ∨ m.keys.card < capacity then some (m.insert k c) else none

/-- A map without a key, if it was there. -/
def remove (m : Finmap fun _ : β => γ) (k : β) : Option (Finmap fun _ : β => γ) :=
  if k ∈ m then some (m.erase k) else none

variable (key : α → Option β) (val : α → Option γ)

/-- Some slot has a key, and a value. -/
def Has (slots : List α) (k : β) (c : γ) : Prop := ∃ x ∈ slots, key x = some k ∧ val x = some c

/-- No two slots have the same key. -/
def Distinct (slots : List α) : Prop := (slots.filterMap key).Nodup

/-- The table holds the map. -/
structure Represents (slots : List α) (m : Finmap fun _ : β => γ) : Prop where
  distinct : Distinct key slots
  filled : ∀ x ∈ slots, (key x).isSome = true → (val x).isSome = true
  lookup_iff : ∀ k c, m.lookup k = some c ↔ Has key val slots k c

variable {key val} {slots before after : List α} {m : Finmap fun _ : β => γ}

/-- A table of free slots is empty. -/
theorem represents_empty (h : ∀ x ∈ slots, key x = none) : Represents key val slots ∅ := by
  have hnone : slots.filterMap key = [] := List.filterMap_eq_nil_iff.mpr h
  refine ⟨?_, ?_, ?_⟩
  · rw [Distinct, hnone]
    exact List.nodup_nil
  · intro x hx hkey
    rw [h x hx] at hkey
    cases hkey
  · intro k c
    rw [Finmap.lookup_empty]
    constructor
    · intro hc
      cases hc
    · intro hhas
      obtain ⟨x, hx, hkey, -⟩ := hhas
      cases (h x hx).symm.trans hkey

namespace Represents

variable (h : Represents key val slots m)
include h

/-- The keys of the map are those of the slots. -/
theorem mem_iff (k : β) : k ∈ m ↔ ∃ x ∈ slots, key x = some k := by
  rw [Finmap.mem_iff]
  constructor
  · intro hk
    obtain ⟨c, hc⟩ := hk
    obtain ⟨x, hx, hkey, -⟩ := (h.lookup_iff k c).mp hc
    exact ⟨x, hx, hkey⟩
  · intro hk
    obtain ⟨x, hx, hkey⟩ := hk
    obtain ⟨c, hc⟩ := Option.isSome_iff_exists.mp (h.filled x hx (by rw [hkey]; rfl))
    exact ⟨c, (h.lookup_iff k c).mpr ⟨x, hx, hkey, hc⟩⟩

theorem card_eq : m.keys.card = (slots.filterMap key).length := by
  have hkeys : m.keys = (slots.filterMap key).toFinset := by
    ext k
    rw [Finmap.mem_keys, h.mem_iff, List.mem_toFinset, List.mem_filterMap]
  rw [hkeys, List.toFinset_card_of_nodup h.distinct]

/-- There is room if there is a free slot. -/
theorem card_lt_iff : m.keys.card < slots.length ↔ ∃ x ∈ slots, key x = none := by
  have hle := List.length_filterMap_le key slots
  have hall : (slots.filterMap key).length = slots.length ↔ ∀ x ∈ slots, (key x).isSome = true :=
    List.filterMap_length_eq_length
  rw [h.card_eq]
  constructor
  · intro hlt
    by_contra hnone
    refine Nat.ne_of_lt hlt (hall.mpr fun x hx => ?_)
    rw [Option.isSome_iff_ne_none]
    exact fun hfree => hnone ⟨x, hx, hfree⟩
  · intro hfree
    obtain ⟨x, hx, hnone⟩ := hfree
    refine Nat.lt_of_le_of_ne hle fun heq => ?_
    have hsome := hall.mp heq x hx
    rw [hnone] at hsome
    cases hsome

/-- The key of a slot depends on something else that does not matter. -/
theorem congr {key' : α → Option β} (hkey : ∀ x ∈ slots, key' x = key x) :
    Represents key' val slots m := by
  refine ⟨?_, ?_, ?_⟩
  · rw [Distinct, List.filterMap_congr hkey]
    exact h.distinct
  · intro x hx hsome
    rw [hkey x hx] at hsome
    exact h.filled x hx hsome
  · intro k c
    rw [h.lookup_iff]
    apply exists_congr
    intro x
    apply and_congr_right
    intro hx
    rw [hkey x hx]

end Represents

section Slot
variable {x v : α} {k : β} {c : γ}

omit [DecidableEq β] in
/-- The keys, around a slot. -/
theorem mem_keys_around (hother : ∀ y ∈ before ++ after, key y ≠ some k) :
    k ∉ before.filterMap key ++ after.filterMap key := by
  rw [← List.filterMap_append, List.mem_filterMap]
  intro hmem
  obtain ⟨y, hy, hkey⟩ := hmem
  exact hother y hy hkey

/-- The key of a slot is that of no other one. -/
theorem Represents.other (h : Represents key val (before ++ x :: after) m) (hx : key x = some k) :
    ∀ y ∈ before ++ after, key y ≠ some k := by
  have hnodup := h.distinct
  rw [Distinct, List.filterMap_append, List.filterMap_cons_some hx, List.nodup_middle,
    List.nodup_cons, ← List.filterMap_append] at hnodup
  exact fun y hy hkey => hnodup.1 (List.mem_filterMap.mpr ⟨y, hy, hkey⟩)

omit [DecidableEq β] in
/-- What the slots around one hold. -/
theorem has_around (k : β) (c : γ) : Has key val (before ++ x :: after) k c ↔
    key x = some k ∧ val x = some c ∨ Has key val (before ++ after) k c := by
  unfold Has
  simp only [List.mem_append, List.mem_cons]
  constructor
  · intro hhas
    obtain ⟨y, hy | rfl | hy, hyk⟩ := hhas
    · exact .inr ⟨y, .inl hy, hyk⟩
    · exact .inl hyk
    · exact .inr ⟨y, .inr hy, hyk⟩
  · intro hhas
    rcases hhas with hx | ⟨y, hy | hy, hyk⟩
    · exact ⟨x, .inr (.inl rfl), hx⟩
    · exact ⟨y, .inl hy, hyk⟩
    · exact ⟨y, .inr (.inr hy), hyk⟩

omit [DecidableEq β] in
/-- Only a slot with the key has anything for it. -/
theorem not_has (hother : ∀ y ∈ slots, key y ≠ some k) (c : γ) : ¬ Has key val slots k c := by
  intro hhas
  obtain ⟨y, hy, hkey, -⟩ := hhas
  exact hother y hy hkey

/-- A slot that is filled, or without a key, in the place of another one. -/
theorem Represents.filled_around (h : Represents key val (before ++ x :: after) m)
    (hv : (key v).isSome → (val v).isSome) :
    ∀ y ∈ before ++ v :: after, (key y).isSome → (val y).isSome := by
  intro y hy hsome
  simp only [List.mem_append, List.mem_cons] at hy
  rcases hy with hy | rfl | hy
  · exact h.filled y (List.mem_append_left _ hy) hsome
  · exact hv hsome
  · exact h.filled y (List.mem_append_right _ (List.mem_cons_of_mem x hy)) hsome

/-- **Writing** a value into its slot, or into a free one when no slot has its key. -/
theorem Represents.write (h : Represents key val (before ++ x :: after) m)
    (hx : ∀ k', key x = some k' → k' = k) (hother : ∀ y ∈ before ++ after, key y ≠ some k)
    (hkey : key v = some k) (hval : val v = some c) :
    Represents key val (before ++ v :: after) (m.insert k c) := by
  have hdistinct := h.distinct
  have haround : (before.filterMap key ++ after.filterMap key).Nodup := by
    rw [← List.filterMap_append]
    exact hdistinct.sublist (List.Sublist.filterMap key
      (List.Sublist.append_left (List.sublist_cons_self x after) before))
  refine ⟨?_, ?_, ?_⟩
  · rw [Distinct, List.filterMap_append, List.filterMap_cons_some hkey, List.nodup_middle]
    exact List.nodup_cons.mpr ⟨mem_keys_around hother, haround⟩
  · exact h.filled_around fun _ => by rw [hval]; rfl
  · intro k' c'
    rw [has_around, hkey, hval]
    by_cases hk : k' = k
    · rw [hk, Finmap.lookup_insert]
      have hnot : ¬ Has key val (before ++ after) k c' := not_has hother c'
      simp only [hnot, or_false, true_and]
    · have hne : k ≠ k' := Ne.symm hk
      have hslot : ¬ (key x = some k' ∧ val x = some c') := fun hboth => hk (hx k' hboth.1)
      rw [Finmap.lookup_insert_of_ne m hk, h.lookup_iff, has_around]
      simp only [hslot, Option.some.injEq, hne, false_and, false_or]

/-- **Freeing** the slot of a key. -/
theorem Represents.free (h : Represents key val (before ++ x :: after) m) (hx : key x = some k)
    (hv : key v = none) : Represents key val (before ++ v :: after) (m.erase k) := by
  have hother := h.other hx
  have hdistinct := h.distinct
  refine ⟨?_, ?_, ?_⟩
  · rw [Distinct, List.filterMap_append, List.filterMap_cons_some hx, List.nodup_middle,
      List.nodup_cons] at hdistinct
    rw [Distinct, List.filterMap_append, List.filterMap_cons_none hv]
    exact hdistinct.2
  · apply h.filled_around
    intro hsome
    rw [hv] at hsome
    cases hsome
  · intro k' c'
    rw [has_around, hv]
    by_cases hk : k' = k
    · rw [hk, Finmap.lookup_erase]
      have hnot : ¬ Has key val (before ++ after) k c' := not_has hother c'
      simp [hnot]
    · have hne : k ≠ k' := Ne.symm hk
      rw [Finmap.lookup_erase_ne hk, h.lookup_iff, has_around, hx]
      simp [hne]

end Slot

end Table
