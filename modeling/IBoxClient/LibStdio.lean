import Mathlib.Algebra.Order.Floor.Ring
import Mathlib.Data.Rat.Floor
import IBoxClient.Lib.Nearest
import IBoxClient.Lib.Rounds

/- `round` of `lib_stdio.c`, over the rationals.

   The loop counts `tmp` up until its distance to `r` lies strictly between 0 and 1. Of an
   integer it never does: the counter is below, then meets it with a distance of 0, then is 1
   above it, and the loop goes on for ever. Every other number is rounded to the nearest
   integer, ties away from zero: `round_nearest_iff`. -/
namespace IBoxClient

namespace LibStdio

open Rounding

/-- The variables of the loop of `round`. -/
structure RoundLoop where
  result : ℚ
  tmp : ℚ

/-- One round of the loop of `round`. -/
def roundLoop (r : ℚ) (v : RoundLoop) : ℚ ⊕ RoundLoop :=
  if v.result ≥ 1 ∨ v.result ≤ 0 then .inr ⟨v.tmp + 1 - r, v.tmp + 1⟩
  else if v.result ≤ 1 / 2 then .inl v.tmp
  else .inl (v.tmp - 1)

/-- `round`, with some rounds of its loop granted, and its call of itself. -/
def round : Nat → ℚ → Option ℚ
  | 0, _ => none
  | rounds + 1, r =>
    if r > 0 then Rounds.ends (roundLoop r) rounds ⟨2, 0⟩
    else if r = 0 then some r
    else (round rounds (-r)).map fun v => 0 - v

/-- `round` terminates, with a value. -/
def RoundReturns (r v : ℚ) : Prop := ∃ rounds, round rounds r = some v

/-- What is promised of `round`. -/
def RoundsToNearest (r : ℚ) : Prop :=
  ∃ n : ℤ, Nearest r n ∧ RoundReturns r n ∧ RoundReturns (-r) (-n : ℤ)

/-! ## The loop -/

section Loop
variable {r : ℚ}

/-- The value is the nearest integer. -/
def Rounded (r v : ℚ) : Prop := ∃ n : ℤ, v = n ∧ Nearest r n

theorem rounded_floor (hr : 0 < r) (hlt : r < ⌊r⌋ + 1 / 2) : Rounded r ⌊r⌋ := by
  have hfloor := Int.floor_le r
  exact ⟨⌊r⌋, rfl, nearest_of_nonneg (le_of_lt hr) (by linarith) hlt⟩

theorem rounded_next (hr : 0 < r) (hge : (⌊r⌋ : ℚ) + 1 / 2 ≤ r) : Rounded r (⌊r⌋ + 1) := by
  have hfloor := Int.lt_floor_add_one r
  refine ⟨⌊r⌋ + 1, by push_cast; rfl, nearest_of_nonneg (le_of_lt hr) ?_ ?_⟩
  · push_cast
    linarith
  · push_cast
    linarith

/-- The counter has not gone beyond the integer above `r`. -/
def Counts (r : ℚ) (v : RoundLoop) : Prop := ∃ k : ℤ, v = ⟨k - r, k⟩ ∧ k ≤ ⌊r⌋ + 1

/-- One round from such a counter: it stops above `r`, and below it goes on. -/
theorem counts_round (hr : 0 < r) (hint : ∀ n : ℤ, r ≠ n) {v : RoundLoop} (h : Counts r v) :
    (∃ b, roundLoop r v = .inl b ∧ Rounded r b) ∨
      ∃ v', roundLoop r v = .inr v' ∧ Counts r v' ∧ v'.tmp = v.tmp + 1 ∧ v.tmp ≤ ⌊r⌋ := by
  obtain ⟨k, rfl, hk⟩ := h
  have hfloor : (⌊r⌋ : ℚ) < r := lt_of_le_of_ne (Int.floor_le r) (fun he => hint _ he.symm)
  have hnext := Int.lt_floor_add_one r
  unfold roundLoop
  dsimp only
  rcases lt_or_eq_of_le hk with hbelow | rfl
  · -- the distance is not positive: the loop goes on
    have hle : k ≤ ⌊r⌋ := Int.lt_add_one_iff.mp hbelow
    have hle' : (k : ℚ) ≤ ⌊r⌋ := by exact_mod_cast hle
    rw [if_pos (.inr (by linarith))]
    refine .inr ⟨_, rfl, ⟨k + 1, ?_, by omega⟩, rfl, hle'⟩
    push_cast
    rfl
  · -- the distance lies between 0 and 1: the loop stops
    push_cast
    rw [if_neg (by rintro (h | h) <;> linarith)]
    split
    · exact .inl ⟨_, rfl, rounded_next hr (by linarith)⟩
    · refine .inl ⟨_, rfl, ?_⟩
      rw [add_sub_cancel_right]
      exact rounded_floor hr (by linarith)

theorem ends_of_not_int (hr : 0 < r) (hint : ∀ n : ℤ, r ≠ n) :
    ∃ n b, Rounds.ends (roundLoop r) n ⟨2, 0⟩ = some b ∧ Rounded r b := by
  have hfirst : roundLoop r ⟨2, 0⟩ = .inr ⟨0 + 1 - r, 0 + 1⟩ := if_pos (.inl (by norm_num))
  have hstart : Counts r ⟨0 + 1 - r, 0 + 1⟩ := by
    refine ⟨1, by norm_num, ?_⟩
    have hge : 0 ≤ ⌊r⌋ := Int.floor_nonneg.mpr (le_of_lt hr)
    omega
  obtain ⟨b, hb, hrounded⟩ := Rounds.ends_of_rank (I := Counts r) (Q := fun _ => Rounded r)
    (fun v => (⌊r⌋ + 2 - ⌊v.tmp⌋).toNat) (fun v hv => by
      rcases counts_round hr hint hv with h | ⟨v', hv', hcounts, htmp, hle⟩
      · exact .inl h
      · have hle' : ⌊v.tmp⌋ ≤ ⌊r⌋ := by
          obtain ⟨k, rfl, -⟩ := hv
          have hcounter : (k : ℚ) ≤ ⌊r⌋ := hle
          rw [Int.floor_intCast]
          exact_mod_cast hcounter
        refine .inr ⟨v', hv', hcounts, ?_, fun _ hb => hb⟩
        rw [htmp, Int.floor_add_one]
        omega) hstart
  exact ⟨_, b, (Rounds.ends_succ_inr hfirst _).trans hb, hrounded⟩

/-- The distance to an integer is never strictly between 0 and 1. -/
theorem never_ends (m : ℤ) (n : Nat) : Rounds.ends (roundLoop m) n ⟨2, 0⟩ = none := by
  apply Rounds.ends_eq_none (I := fun v : RoundLoop => ∃ k l : ℤ, v = ⟨k, l⟩)
  · rintro _ ⟨k, l, rfl⟩
    have hout : (k : ℚ) ≥ 1 ∨ (k : ℚ) ≤ 0 := by
      rcases Int.lt_or_le 0 k with hpos | hle
      · exact .inl (by exact_mod_cast hpos)
      · exact .inr (by exact_mod_cast hle)
    refine ⟨_, if_pos hout, l + 1 - m, l + 1, ?_⟩
    push_cast
    rfl
  · exact ⟨2, 0, by norm_num⟩

end Loop

/-! ## The function -/

theorem returns_zero : RoundReturns 0 0 := ⟨1, by simp [round]⟩

theorem round_pos {r : ℚ} (hr : 0 < r) (rounds : Nat) :
    round (rounds + 1) r = Rounds.ends (roundLoop r) rounds ⟨2, 0⟩ := if_pos hr

theorem round_neg {r : ℚ} (hr : r < 0) (rounds : Nat) :
    round (rounds + 1) r = (round rounds (-r)).map fun v => 0 - v := by
  rw [round, if_neg (not_lt.mpr (le_of_lt hr)), if_neg (ne_of_lt hr)]

theorem returns_neg {r v : ℚ} (hr : 0 < r) (h : RoundReturns r v) : RoundReturns (-r) (-v) := by
  obtain ⟨n, hn⟩ := h
  refine ⟨n + 1, ?_⟩
  rw [round_neg (neg_lt_zero.mpr hr), neg_neg, hn, Option.map_some, zero_sub]

/-- A number that is not an integer, and positive, is rounded, and so is its negative. -/
theorem rounds_of_pos {r : ℚ} (hr : 0 < r) (hint : ∀ n : ℤ, r ≠ n) :
    ∃ n : ℤ, Nearest r n ∧ RoundReturns r n ∧ RoundReturns (-r) (-n : ℤ) := by
  obtain ⟨rounds, b, hb, n, rfl, hnearest⟩ := ends_of_not_int hr hint
  have hreturns : RoundReturns r n := ⟨rounds + 1, (round_pos hr rounds).trans hb⟩
  refine ⟨n, hnearest, hreturns, ?_⟩
  push_cast
  exact returns_neg hr hreturns

/-- An integer other than 0 is not rounded. -/
theorem not_returns_int {m : ℤ} (hm : m ≠ 0) (v : ℚ) : ¬ RoundReturns m v := by
  rintro ⟨rounds, h⟩
  cases rounds with
  | zero => cases h
  | succ rounds =>
    rcases lt_or_gt_of_ne hm with hneg | hpos
    · rw [round_neg (by exact_mod_cast hneg)] at h
      have hflip : -(m : ℚ) = (-m : ℤ) := by push_cast; rfl
      cases rounds with
      | zero => cases h
      | succ rounds =>
        rw [hflip, round_pos (by exact_mod_cast (neg_pos.mpr hneg)), never_ends] at h
        cases h
    · rw [round_pos (by exact_mod_cast hpos), never_ends] at h
      cases h

/-- **Rounding.** `round` terminates and rounds to the nearest integer, ties away from zero,
exactly what is 0 or not an integer. -/
theorem round_nearest_iff (r : ℚ) : RoundsToNearest r ↔ r = 0 ∨ ∀ n : ℤ, r ≠ n := by
  constructor
  · intro h
    obtain ⟨v, -, hreturns, -⟩ := h
    by_contra hnot
    obtain ⟨hzero, hint⟩ := not_or.mp hnot
    push Not at hint
    obtain ⟨m, rfl⟩ := hint
    exact not_returns_int (by exact_mod_cast hzero) _ hreturns
  · intro h
    rcases h with rfl | hint
    · have hzero : Nearest (0 : ℚ) 0 :=
        nearest_of_nonneg le_rfl (by norm_num) (by norm_num)
      exact ⟨0, hzero, by simpa using returns_zero, by simpa using returns_zero⟩
    · rcases lt_trichotomy r 0 with hneg | rfl | hpos
      · have hflip : ∀ n : ℤ, -r ≠ n := by
          intro n hn
          apply hint (-n)
          push_cast
          linarith
        obtain ⟨n, hnearest, hreturns, hback⟩ := rounds_of_pos (neg_pos.mpr hneg) hflip
        have hnearest' := nearest_neg hnearest
        rw [neg_neg] at hnearest' hback
        exact ⟨-n, hnearest', hback, by rwa [neg_neg]⟩
      · exact absurd rfl (hint 0)
      · exact rounds_of_pos hpos hint

/-- The integer 1 is not rounded. -/
theorem one_not_rounded : ¬ RoundsToNearest 1 := by
  intro h
  obtain ⟨n, -, hreturns, -⟩ := h
  exact not_returns_int (m := 1) (by decide) n (by simpa using hreturns)

end LibStdio

end IBoxClient
