import Mathlib.Algebra.Order.Ring.Nat
import IBoxClient.Lib.Machine

/- The price of a run. Every output has a price, every event brings some income, and a state may
   have saved some of it. Where no step spends more than it has, no run does (`spent_le`). What
   the outputs of one kind cost is their price as often as they occur (`sum_price`). -/
namespace Machine

variable {σ ε ω : Type} {step : σ → ε → σ × List ω}

/-- The price of some outputs. -/
def spent (price : ω → Nat) (outs : List ω) : Nat := (outs.map price).sum

theorem spent_append (price : ω → Nat) (a b : List ω) :
    spent price (a ++ b) = spent price a + spent price b := by
  rw [spent, List.map_append, List.sum_append]
  rfl

/-- **Accounts.** What a run spends, and what is saved in the end, is no more than what was saved
and what has come in. -/
theorem spent_le {I : σ → Prop} {price : ω → Nat} {income : ε → Nat} (saved : σ → Nat)
    (hstep : ∀ s e, I s → I (step s e).1)
    (hspend : ∀ s e, I s → spent price (step s e).2 + saved (step s e).1 ≤ saved s + income e)
    {s : σ} (hs : I s) (es : List ε) :
    spent price (out step s es) + saved (last step s es) ≤ saved s + (es.map income).sum := by
  induction es generalizing s with
  | nil => simp [spent]
  | cons e es ih =>
    have hfirst := hspend s e hs
    have hrest := ih (hstep s e hs)
    rw [out_cons, spent_append, last_cons, List.map_cons, List.sum_cons]
    omega

/-- A price that is the same for all of a kind. -/
theorem sum_price {α : Type} (p : α → Bool) (k : Nat) (l : List α) :
    (l.map fun x => if p x then k else 0).sum = k * l.countP p := by
  induction l with
  | nil => simp
  | cons x l ih =>
    rw [List.map_cons, List.sum_cons, ih]
    by_cases hx : p x = true
    · rw [if_pos hx, List.countP_cons_of_pos hx, Nat.mul_succ, Nat.add_comm]
    · rw [if_neg hx, List.countP_cons_of_neg hx, Nat.zero_add]

end Machine
