import IBoxClient.Lib.Machine
import Mathlib.Order.Nat
import Mathlib.Data.Nat.Nth

/- Endless runs of an event-driven machine, on a sequence of events.

   `Recurs` says that something happens again and again, so often that any number of
   times is reached (`Recurs.exists_count_eq`). A machine that goes into a state in which
   it waits until an alarm is due does hear it again and again, provided that the alarm
   becomes due in whatever state it waits (`recurs_of_alarm`). -/
namespace Machine

variable {σ ε ω : Type} (step : σ → ε → σ × List ω)

/-- The states of an endless run. -/
def trace (s : σ) (es : Nat → ε) : Nat → σ
  | 0 => s
  | n + 1 => (step (trace s es n) (es n)).1

/-- It happens again and again. -/
def Recurs (p : Nat → Prop) : Prop := ∀ n, ∃ m, n ≤ m ∧ p m

variable {step}

/-- What every step on the events keeps holds all along. -/
theorem trace_invariant {I : σ → Prop} {es : Nat → ε} (hstep : ∀ s n, I s → I (step s (es n)).1)
    {s : σ} (hs : I s) (n : Nat) : I (trace step s es n) := by
  induction n with
  | zero => exact hs
  | succ n ih => exact hstep _ n ih

/-- It happens any number of times. -/
theorem Recurs.exists_count_eq {p : Nat → Prop} [DecidablePred p] (h : Recurs p) (k : Nat) :
    ∃ n, Nat.count p n = k := by
  have hinfinite : {n | p n}.Infinite := by
    apply Set.infinite_of_forall_exists_gt
    intro n
    obtain ⟨m, hle, hm⟩ := h (n + 1)
    exact ⟨m, hm, hle⟩
  exact ⟨Nat.nth p k, Nat.count_nth_of_infinite hinfinite k⟩

/-- **Alarms.** A machine that always comes to wait, and waits on as it is until the alarm
is due, hears the alarm again and again. -/
theorem recurs_of_alarm {I W : σ → Prop} {D : σ → ε → Prop} {es : Nat → ε}
    (hstep : ∀ s n, I s → I (step s (es n)).1)
    (hwait : ∀ s n, I s → ¬ W s → W (step s (es n)).1)
    (hkeep : ∀ s n, I s → W s → ¬ D s (es n) →
      W (step s (es n)).1 ∧ ∀ e, D s e → D (step s (es n)).1 e)
    (hdue : ∀ s, I s → Recurs fun n => D s (es n)) {s : σ} (hs : I s) :
    Recurs fun n => W (trace step s es n) ∧ D (trace step s es n) (es n) := by
  intro n
  have hI := trace_invariant hstep hs
  by_contra hnever
  have hquiet : ∀ m, n ≤ m → W (trace step s es m) → ¬ D (trace step s es m) (es m) :=
    fun m hm hw hd => hnever ⟨m, hm, hw, hd⟩
  -- from some time on it waits
  obtain ⟨m, hm, hw⟩ : ∃ m, n ≤ m ∧ W (trace step s es m) := by
    by_cases hw : W (trace step s es n)
    · exact ⟨n, Nat.le_refl n, hw⟩
    · exact ⟨n + 1, Nat.le_succ n, hwait _ n (hI n) hw⟩
  -- and what is due then remains due, as no alarm is heard
  have hon : ∀ d, W (trace step s es (m + d)) ∧
      ∀ e, D (trace step s es m) e → D (trace step s es (m + d)) e := by
    intro d
    induction d with
    | zero => exact ⟨hw, fun e he => he⟩
    | succ d ih =>
      obtain ⟨hwd, hdd⟩ := ih
      have hnot := hquiet (m + d) (Nat.le_trans hm (Nat.le_add_right m d)) hwd
      obtain ⟨hnext, hstill⟩ := hkeep _ (m + d) (hI (m + d)) hwd hnot
      exact ⟨hnext, fun e he => hstill e (hdd e he)⟩
  obtain ⟨k, hk, hd⟩ := hdue _ (hI m) m
  obtain ⟨d, rfl⟩ := Nat.exists_eq_add_of_le hk
  obtain ⟨hwk, hstill⟩ := hon d
  exact hquiet (m + d) (Nat.le_trans hm hk) hwk (hstill _ hd)

end Machine
