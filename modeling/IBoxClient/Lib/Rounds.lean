import Mathlib.Data.Nat.Basic

/- Loops. A round of a loop looks at the state and either ends the loop with a value
   or goes on from a new state; `ends` grants a number of rounds and has no value where
   they are not enough. `Ends` says that some number of rounds is enough.

   A loop that ends can be granted more rounds than it needs (`ends_of_le`), and a loop in
   which each round that goes on lowers a rank ends (`ends_of_rank`). One that goes on from every
   state of an invariant has no value, whatever it is granted (`ends_eq_none`). -/
namespace Rounds

variable {σ β : Type}

/-- The value of the loop, within a number of rounds. -/
def ends (round : σ → β ⊕ σ) : Nat → σ → Option β
  | 0, _ => none
  | n + 1, s =>
    match round s with
    | .inl b => some b
    | .inr s' => ends round n s'

/-- The loop ends with a value. -/
def Ends (round : σ → β ⊕ σ) (s : σ) (b : β) : Prop := ∃ n, ends round n s = some b

variable {round : σ → β ⊕ σ}

theorem ends_succ_inl {s : σ} {b : β} (h : round s = .inl b) (n : Nat) :
    ends round (n + 1) s = some b := by
  simp only [ends, h]

theorem ends_succ_inr {s s' : σ} (h : round s = .inr s') (n : Nat) :
    ends round (n + 1) s = ends round n s' := by
  simp only [ends, h]

theorem ends_of_le {n m : Nat} {s : σ} {b : β} (h : ends round n s = some b) (hnm : n ≤ m) :
    ends round m s = some b := by
  induction n generalizing m s with
  | zero => simp [ends] at h
  | succ n ih =>
    obtain ⟨m, rfl⟩ : ∃ k, m = k + 1 := ⟨m - 1, by omega⟩
    cases hr : round s with
    | inl b' =>
      rw [ends_succ_inl hr] at h ⊢
      exact h
    | inr s' =>
      rw [ends_succ_inr hr] at h ⊢
      exact ih h (by omega)

/-- A loop has one value. -/
theorem ends_unique {n m : Nat} {s : σ} {b b' : β} (h : ends round n s = some b)
    (h' : ends round m s = some b') : b = b' := by
  rcases Nat.le_total n m with hnm | hmn
  · exact Option.some.inj ((ends_of_le h hnm).symm.trans h')
  · exact Option.some.inj (h.symm.trans (ends_of_le h' hmn))

/-- **Termination.** Where every round from a state with `I` ends with a value that has
`Q`, or goes on to a state with `I`, a lower rank and no less of a duty, the loop ends
within as many rounds as the rank, and one. -/
theorem ends_of_rank {I : σ → Prop} {Q : σ → β → Prop} (rank : σ → Nat)
    (hround : ∀ s, I s → (∃ b, round s = .inl b ∧ Q s b) ∨
      ∃ s', round s = .inr s' ∧ I s' ∧ rank s' < rank s ∧ ∀ b, Q s' b → Q s b)
    {s : σ} (hs : I s) : ∃ b, ends round (rank s + 1) s = some b ∧ Q s b := by
  induction hn : rank s using Nat.strongRecOn generalizing s with
  | ind n ih =>
    rcases hround s hs with ⟨b, hr, hq⟩ | ⟨s', hr, hI, hlt, hmono⟩
    · exact ⟨b, ends_succ_inl hr _, hq⟩
    · obtain ⟨b, hb, hq⟩ := ih _ (hn ▸ hlt) hI rfl
      refine ⟨b, ?_, hmono b hq⟩
      rw [ends_succ_inr hr]
      exact ends_of_le hb (by omega)

/-- **Divergence.** A loop that never leaves an invariant, and goes on from each of its states. -/
theorem ends_eq_none {I : σ → Prop} (hround : ∀ s, I s → ∃ s', round s = .inr s' ∧ I s')
    {s : σ} (hs : I s) (n : Nat) : ends round n s = none := by
  induction n generalizing s with
  | zero => rfl
  | succ n ih =>
    obtain ⟨s', hr, hI⟩ := hround s hs
    rw [ends_succ_inr hr]
    exact ih hI

end Rounds
