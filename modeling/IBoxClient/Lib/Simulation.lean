import IBoxClient.Lib.Machine

/- Two machines on the same events. A simulation relates their states so that from
   related states every event puts the same out and leads to related states again; then
   whole runs put the same out and end in related states (`Simulates.out_eq`,
   `Simulates.last`). -/
namespace Machine

variable {σ τ ε ω : Type}

/-- The machine `step` does what `spec` does, from states related by `R`. -/
structure Simulates (step : σ → ε → σ × List ω) (spec : τ → ε → τ × List ω)
    (R : σ → τ → Prop) : Prop where
  puts : ∀ s t e, R s t → (step s e).2 = (spec t e).2
  keeps : ∀ s t e, R s t → R (step s e).1 (spec t e).1

namespace Simulates

variable {step : σ → ε → σ × List ω} {spec : τ → ε → τ × List ω} {R : σ → τ → Prop}

theorem last (h : Simulates step spec R) {s : σ} {t : τ} (hst : R s t) (es : List ε) :
    R (last step s es) (last spec t es) := by
  induction es generalizing s t with
  | nil => exact hst
  | cons e es ih => exact ih (h.keeps s t e hst)

theorem out_eq (h : Simulates step spec R) {s : σ} {t : τ} (hst : R s t) (es : List ε) :
    out step s es = out spec t es := by
  induction es generalizing s t with
  | nil => rfl
  | cons e es ih => rw [out_cons, out_cons, h.puts s t e hst, ih (h.keeps s t e hst)]

end Simulates

/-- **Simulation** along a run whose steps all meet a condition. -/
theorem simulates_along {step : σ → ε → σ × List ω} {spec : τ → ε → τ × List ω} {R : σ → τ → Prop}
    {ok : σ → ε → Prop}
    (hstep : ∀ s t e, R s t → ok s e → (step s e).2 = (spec t e).2 ∧ R (step s e).1 (spec t e).1)
    {s : σ} {t : τ} (hst : R s t) {es : List ε} (h : Along step ok s es) :
    out step s es = out spec t es ∧ R (last step s es) (last spec t es) := by
  induction es generalizing s t with
  | nil => exact ⟨rfl, hst⟩
  | cons e es ih =>
    obtain ⟨hout, hnext⟩ := hstep s t e hst h.1
    obtain ⟨hrest, hlast⟩ := ih hnext h.2
    exact ⟨by rw [out_cons, out_cons, hout, hrest], hlast⟩

end Machine
