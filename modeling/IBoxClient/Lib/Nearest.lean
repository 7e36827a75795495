import Mathlib.Algebra.Order.Field.Basic
import Mathlib.Tactic.Linarith
import Mathlib.Tactic.NormNum
import Mathlib.Tactic.Ring

/- The nearest integer, and of two that are as near the one farther from zero.

   `Nearest` says this by comparison with every other integer. It is odd (`nearest_neg`), and
   for what is not negative it is the integer with `r` in the half-open interval around it
   (`nearest_of_nonneg`). -/
namespace Rounding

variable {α : Type*} [Field α] [LinearOrder α] [IsStrictOrderedRing α]

/-- `n` is nearer to `r` than `m`, or as near and not nearer to zero. -/
def Beats (r : α) (n m : ℤ) : Prop := |r - n| < |r - m| ∨ |r - n| = |r - m| ∧ |m| ≤ |n|

/-- The nearest integer, ties away from zero. -/
def Nearest (r : α) (n : ℤ) : Prop := ∀ m, m ≠ n → Beats r n m

omit [IsStrictOrderedRing α] in
theorem abs_sub_neg (r : α) (n : ℤ) : |-r - (-n : ℤ)| = |r - n| := by
  have hflip : -r - ((-n : ℤ) : α) = -(r - n) := by
    rw [Int.cast_neg]
    ring
  rw [hflip, abs_neg]

omit [IsStrictOrderedRing α] in
theorem nearest_neg {r : α} {n : ℤ} (h : Nearest r n) : Nearest (-r) (-n) := by
  intro m hm
  have hbeats := h (-m) (fun he => hm (by rw [← he, neg_neg]))
  have hdist := abs_sub_neg r (-m)
  rw [neg_neg] at hdist
  unfold Beats at hbeats ⊢
  rw [abs_sub_neg, hdist, abs_neg]
  rwa [abs_neg] at hbeats

/-- Around what is not negative: the lower end of the interval belongs to it. -/
theorem nearest_of_nonneg {r : α} {n : ℤ} (hr : 0 ≤ r) (hge : (n : α) - 1 / 2 ≤ r)
    (hlt : r < n + 1 / 2) : Nearest r n := by
  have hn : 0 ≤ n := by
    have hpos : (-1 : α) < n := by linarith
    have hpos' : -1 < n := by exact_mod_cast hpos
    exact Int.add_one_le_of_lt hpos'
  have hnear : |r - n| ≤ 1 / 2 := abs_le.mpr ⟨by linarith, by linarith⟩
  intro m hm
  rcases lt_or_gt_of_ne hm with hless | hmore
  · have hstep : (m : α) + 1 ≤ n := by exact_mod_cast hless
    have hfar : 1 / 2 ≤ |r - m| := le_trans (by linarith) (le_abs_self _)
    have hle := le_trans hnear hfar
    rcases lt_or_eq_of_le hle with hnearer | htie
    · exact .inl hnearer
    · refine .inr ⟨htie, ?_⟩
      -- the tie: `m` is the integer below, and not a negative one
      have hm' : (-1 : α) < m := by
        have hupper : r - m ≤ 1 / 2 := by
          rw [htie] at hnear
          exact le_trans (le_abs_self _) hnear
        linarith
      have hm'' : -1 < m := by exact_mod_cast hm'
      rw [abs_of_nonneg (by omega : 0 ≤ m), abs_of_nonneg hn]
      exact le_of_lt hless
  · have hstep : (n : α) + 1 ≤ m := by exact_mod_cast hmore
    have hfar : 1 / 2 < |r - m| := lt_of_lt_of_le (by linarith) (neg_le_abs _)
    exact .inl (lt_of_le_of_lt hnear hfar)

end Rounding
