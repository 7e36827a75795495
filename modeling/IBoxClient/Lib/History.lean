import IBoxClient.Lib.Machine

/- The history of a run. What a run has put out, one of its steps has put out (`mem_out_iff`). A
   run that leads into a set of states has entered it with a step, and has not left it since
   (`exists_entry`). -/
namespace Machine

variable {σ ε ω : Type} {step : σ → ε → σ × List ω}

/-- What is put out is put out by a step. -/
theorem mem_out_iff {o : ω} {s : σ} {es : List ε} :
    o ∈ out step s es ↔
      ∃ pre e post, es = pre ++ e :: post ∧ o ∈ (step (last step s pre) e).2 := by
  constructor
  · intro h
    induction es generalizing s with
    | nil => exact absurd h List.not_mem_nil
    | cons e es ih =>
      rw [out_cons, List.mem_append] at h
      rcases h with h | h
      · exact ⟨[], e, es, rfl, h⟩
      · obtain ⟨pre, e', post, rfl, hmem⟩ := ih h
        exact ⟨e :: pre, e', post, rfl, hmem⟩
  · rintro ⟨pre, e, post, rfl, h⟩
    rw [out_append, List.mem_append, out_cons, List.mem_append]
    exact .inr (.inl h)

/-- What no step puts out from a state of an invariant, no run puts out. -/
theorem not_mem_out {I : σ → Prop} {o : ω} (hstep : ∀ s e, I s → I (step s e).1)
    (hout : ∀ s e, I s → o ∉ (step s e).2) {s : σ} (hs : I s) (es : List ε) :
    o ∉ out step s es := by
  intro h
  obtain ⟨pre, e, post, -, hmem⟩ := mem_out_iff.mp h
  exact hout _ e (run_invariant hstep hs pre) hmem

/-- All states of a run, the first one and the last one among them. -/
def Throughout (step : σ → ε → σ × List ω) (P : σ → Prop) (s : σ) : List ε → Prop
  | [] => P s
  | e :: es => P s ∧ Throughout step P (step s e).1 es

theorem Throughout.first {P : σ → Prop} {s : σ} {es : List ε} (h : Throughout step P s es) : P s := by
  cases es with
  | nil => exact h
  | cons => exact h.1

/-- What is kept as long as `P` goes on. -/
theorem Throughout.mono {P Q : σ → Prop} {s : σ} {es : List ε} (h : Throughout step P s es)
    (hs : Q s) (hstep : ∀ s e, P s → P (step s e).1 → Q s → Q (step s e).1) :
    Throughout step Q s es := by
  induction es generalizing s with
  | nil => exact hs
  | cons e es ih => exact ⟨hs, ih h.2 (hstep s e h.1 h.2.first hs)⟩

theorem Throughout.imp {P Q : σ → Prop} {s : σ} {es : List ε} (h : Throughout step P s es)
    (himp : ∀ s, P s → Q s) : Throughout step Q s es :=
  h.mono (himp s h.first) fun _ _ _ hin _ => himp _ hin

theorem Throughout.last {P : σ → Prop} {s : σ} {es : List ε} (h : Throughout step P s es) :
    P (last step s es) := by
  induction es generalizing s with
  | nil => exact h
  | cons e es ih => exact ih h.2

/-- A run that ends in `P` has been there all the time, or has entered it at last. -/
theorem throughout_or_entry {P : σ → Prop} {s : σ} {es : List ε} (h : P (Machine.last step s es)) :
    Throughout step P s es ∨
      ∃ pre e post, es = pre ++ e :: post ∧ ¬ P (Machine.last step s pre) ∧
        Throughout step P (step (Machine.last step s pre) e).1 post := by
  induction es generalizing s with
  | nil => exact .inl h
  | cons e es ih =>
    rcases ih h with hall | ⟨pre, e', post, rfl, hout, hin⟩
    · by_cases hs : P s
      · exact .inl ⟨hs, hall⟩
      · exact .inr ⟨[], e, es, rfl, hs, hall⟩
    · exact .inr ⟨e :: pre, e', post, rfl, hout, hin⟩

/-- **The last entry.** -/
theorem exists_entry {P : σ → Prop} {s : σ} {es : List ε} (hs : ¬ P s)
    (h : P (Machine.last step s es)) :
    ∃ pre e post, es = pre ++ e :: post ∧ ¬ P (Machine.last step s pre) ∧
      Throughout step P (step (Machine.last step s pre) e).1 post :=
  (throughout_or_entry h).resolve_left fun hall => hs hall.first

end Machine
