import Mathlib.Data.List.Basic

/- Hierarchical names. A name is cut into levels by a separator `sep`; a pattern asks for
   one level, leaves one open, or leaves everything open that is still to come.

   `Matches` compares level by level. `Open P` says of the levels that a pattern leaves
   open that each is a `P`, and that something is left for the last one.

   A name is its first level and what the other levels append to it (`below`), which is the
   form in which a reader of symbols meets it (`exists_below`). -/
namespace Levels

/-- What a pattern asks of the levels in its place. -/
inductive Pattern (α : Type) where
  | level (a : α)
  | one
  | rest
  deriving DecidableEq

/-! ## Matching -/

section Matching
variable {α : Type}

/-- The rest is only asked for last. -/
def WellFormed : List (Pattern α) → Prop
  | [] => True
  | .rest :: ps => ps = []
  | _ :: ps => WellFormed ps

def Matches : List (Pattern α) → List α → Prop
  | [], as => as = []
  | .rest :: _, _ => True
  | _ :: _, [] => False
  | .one :: ps, _ :: as => Matches ps as
  | .level a :: ps, b :: as => a = b ∧ Matches ps as

instance decidableWellFormed [DecidableEq α] :
    (ps : List (Pattern α)) → Decidable (WellFormed ps)
  | [] => isTrue trivial
  | .rest :: ps => inferInstanceAs (Decidable (ps = []))
  | .one :: ps => decidableWellFormed ps
  | .level _ :: ps => decidableWellFormed ps

/-- Where a pattern leaves a level open it is a `P`, and where it leaves the rest open there
is a first level, which is a `P`. -/
def Open (P : α → Prop) : List (Pattern α) → List α → Prop
  | .rest :: _, as => ∃ a ∈ as.head?, P a
  | .one :: ps, a :: as => P a ∧ Open P ps as
  | .level _ :: ps, _ :: as => Open P ps as
  | _, _ => True

instance decidableMatches [DecidableEq α] :
    (ps : List (Pattern α)) → (as : List α) → Decidable (Matches ps as)
  | [], as => inferInstanceAs (Decidable (as = []))
  | .rest :: _, _ => isTrue trivial
  | .one :: _, [] => isFalse id
  | .level _ :: _, [] => isFalse id
  | .one :: ps, _ :: as => decidableMatches ps as
  | .level a :: ps, b :: as =>
    have := decidableMatches ps as
    inferInstanceAs (Decidable (a = b ∧ Matches ps as))

theorem WellFormed.tail {p : Pattern α} {ps : List (Pattern α)} (h : WellFormed (p :: ps)) :
    WellFormed ps := by
  cases p with
  | rest =>
    have hps : ps = [] := h
    rw [hps]
    trivial
  | level _ => exact h
  | one => exact h

end Matching

/-! ## Names -/

section Names
variable {α : Type} {sep : α}

/-- What the levels below the first one append to it. -/
def below (sep : α) (ls : List (List α)) : List α := ls.flatMap (sep :: ·)

@[simp] theorem below_nil : below sep [] = [] := rfl

@[simp] theorem below_cons (l : List α) (ls : List (List α)) :
    below sep (l :: ls) = sep :: (l ++ below sep ls) := rfl

theorem intercalate_eq_below (l : List α) (ls : List (List α)) :
    [sep].intercalate (l :: ls) = l ++ below sep ls := by
  induction ls generalizing l with
  | nil => simp
  | cons l' ls ih => rw [List.intercalate_cons_cons, ih, below_cons, List.append_assoc, List.singleton_append]

variable [DecidableEq α]

theorem not_mem_level {name l : List α} (h : l ∈ name.splitOn sep) : sep ∉ l := by
  induction name generalizing l with
  | nil =>
    rw [List.splitOn_nil, List.mem_singleton] at h
    rw [h]
    exact List.not_mem_nil
  | cons a name ih =>
    rw [List.splitOn_cons_eq_if_modifyHead] at h
    split at h
    · rcases List.mem_cons.mp h with rfl | h
      · exact List.not_mem_nil
      · exact ih h
    · next ha =>
      have hne : name.splitOn sep ≠ [] := List.splitOn_ne_nil sep name
      obtain ⟨l', ls, hsplit⟩ := List.exists_cons_of_ne_nil hne
      rw [hsplit, List.modifyHead_cons] at h
      rw [hsplit] at ih
      rcases List.mem_cons.mp h with rfl | h
      · intro hmem
        rcases List.mem_cons.mp hmem with heq | hmem
        · exact ha (by rw [heq, beq_self_eq_true])
        · exact ih (List.mem_cons_self ..) hmem
      · exact ih (List.mem_cons_of_mem _ h)

/-- The first level of a name and the others. -/
theorem exists_below (sep : α) (name : List α) :
    ∃ l ls, name.splitOn sep = l :: ls ∧ name = l ++ below sep ls := by
  obtain ⟨l, ls, hsplit⟩ := List.exists_cons_of_ne_nil (List.splitOn_ne_nil sep name)
  refine ⟨l, ls, hsplit, ?_⟩
  rw [← intercalate_eq_below, ← hsplit, List.intercalate_splitOn]

end Names

end Levels
