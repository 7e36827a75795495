import Mathlib.Data.List.Basic

/- Runs of an event-driven machine. A machine is a total step function from a
   state and an event to the next state and the outputs of that step; an event
   that is not enabled is a step that changes nothing. `run` folds the step over
   a list of events, so a statement about every list of events is a statement
   about every interleaving of whatever produces them.

   `Along ok` says that every step of a run meets `ok`, a condition on the state
   before the step and on its event. The induction over runs is made once for all:
   what every step keeps holds wherever a run leads (`run_invariant`), and what an
   invariant gives at a step that meets `ok` holds at every step of a run of such
   steps (`along_mono_of_invariant`). A goal can be reached where a rank falls
   (`canReach_of_rank`), and not from a trap (`not_canReach_of_trap`). -/
namespace Machine

variable {σ ε ω : Type} (step : σ → ε → σ × List ω)

/-- The state after the events and everything put out on the way. -/
def run (s : σ) : List ε → σ × List ω
  | [] => (s, [])
  | e :: es => ((run (step s e).1 es).1, (step s e).2 ++ (run (step s e).1 es).2)

/-- The state a run leads to. -/
abbrev last (s : σ) (es : List ε) : σ := (run step s es).1

/-- What a run puts out. -/
abbrev out (s : σ) (es : List ε) : List ω := (run step s es).2

@[simp] theorem last_nil (s : σ) : last step s [] = s := rfl

@[simp] theorem out_nil (s : σ) : out step s [] = [] := rfl

theorem last_cons (s : σ) (e : ε) (es : List ε) :
    last step s (e :: es) = last step (step s e).1 es := rfl

theorem out_cons (s : σ) (e : ε) (es : List ε) :
    out step s (e :: es) = (step s e).2 ++ out step (step s e).1 es := rfl

theorem last_append (s : σ) (es fs : List ε) :
    last step s (es ++ fs) = last step (last step s es) fs := by
  induction es generalizing s with
  | nil => rfl
  | cons e es ih => exact ih (step s e).1

theorem out_append (s : σ) (es fs : List ε) :
    out step s (es ++ fs) = out step s es ++ out step (last step s es) fs := by
  induction es generalizing s with
  | nil => rfl
  | cons e es ih => rw [List.cons_append, out_cons, ih, out_cons, last_cons, List.append_assoc]

/-- Every step of the run meets `ok`. -/
def Along (ok : σ → ε → Prop) (s : σ) : List ε → Prop
  | [] => True
  | e :: es => ok s e ∧ Along ok (step s e).1 es

instance Along.decidable (ok : σ → ε → Prop) [∀ s e, Decidable (ok s e)] (s : σ) :
    (es : List ε) → Decidable (Along step ok s es)
  | [] => .isTrue trivial
  | e :: es =>
    have := Along.decidable ok (step s e).1 es
    inferInstanceAs (Decidable (ok s e ∧ Along step ok (step s e).1 es))

variable {step} {ok : σ → ε → Prop}

theorem along_append {s : σ} {es fs : List ε} :
    Along step ok s (es ++ fs) ↔ Along step ok s es ∧ Along step ok (last step s es) fs := by
  induction es generalizing s with
  | nil => simp [Along]
  | cons e es ih => simp only [List.cons_append, Along, ih, last_cons, and_assoc]

theorem along_and {ok' : σ → ε → Prop} {s : σ} {es : List ε} :
    Along step (fun s e => ok s e ∧ ok' s e) s es ↔ Along step ok s es ∧ Along step ok' s es := by
  induction es generalizing s with
  | nil => exact ⟨fun _ => ⟨trivial, trivial⟩, fun _ => trivial⟩
  | cons e es ih =>
    simp only [Along, ih]
    constructor
    · intro h
      obtain ⟨⟨h, h'⟩, hrest, hrest'⟩ := h
      exact ⟨⟨h, hrest⟩, h', hrest'⟩
    · intro h
      obtain ⟨⟨h, hrest⟩, h', hrest'⟩ := h
      exact ⟨⟨h, h'⟩, hrest, hrest'⟩

/-- The step after a prefix of the run meets the condition. -/
theorem along_at {s : σ} {pre post : List ε} {e : ε}
    (h : Along step ok s (pre ++ e :: post)) : ok (last step s pre) e :=
  (along_append.mp h).2.1

/-- A run whose steps all fail the condition is one without a step that meets it. -/
theorem along_not_iff {s : σ} {es : List ε} :
    Along step (fun s e => ¬ ok s e) s es ↔
      ¬ ∃ pre e post, es = pre ++ e :: post ∧ ok (last step s pre) e := by
  constructor
  · intro h h
    obtain ⟨pre, e, post, rfl, hok⟩ := h
    exact along_at h hok
  · intro h
    induction es generalizing s with
    | nil => trivial
    | cons e es ih =>
      refine ⟨fun hok => h ⟨[], e, es, rfl, hok⟩, ih ?_⟩
      intro h
      obtain ⟨pre, e', post, rfl, hok⟩ := h
      exact h ⟨e :: pre, e', post, rfl, hok⟩

/-- What every step keeps, every run keeps. -/
theorem run_invariant {I : σ → Prop} (hstep : ∀ s e, I s → I (step s e).1)
    {s : σ} (hs : I s) (es : List ε) : I (last step s es) := by
  induction es generalizing s with
  | nil => exact hs
  | cons e es ih => exact ih (hstep s e hs)

/-- What an invariant gives at a step holds at every step of a run. -/
theorem along_of_invariant {I : σ → Prop} (hstep : ∀ s e, I s → I (step s e).1)
    (hok : ∀ s e, I s → ok s e) {s : σ} (hs : I s) (es : List ε) : Along step ok s es := by
  induction es generalizing s with
  | nil => trivial
  | cons e es ih => exact ⟨hok s e hs, ih (hstep s e hs)⟩

/-- **Run induction.** What an invariant, kept by the steps meeting `ok`, gives at such a
step holds at every step of a run of them. -/
theorem along_mono_of_invariant {ok' : σ → ε → Prop} {I : σ → Prop}
    (hstep : ∀ s e, I s → ok s e → I (step s e).1) (himp : ∀ s e, I s → ok s e → ok' s e)
    {s : σ} {es : List ε} (hs : I s) (h : Along step ok s es) : Along step ok' s es := by
  induction es generalizing s with
  | nil => trivial
  | cons e es ih => exact ⟨himp s e hs h.1, ih (hstep s e hs h.1) h.2⟩

/-- What the steps meeting `ok` keep holds where a run of them leads. -/
theorem along_last {I : σ → Prop} (hstep : ∀ s e, I s → ok s e → I (step s e).1)
    {s : σ} {es : List ε} (hs : I s) (h : Along step ok s es) : I (last step s es) := by
  induction es generalizing s with
  | nil => exact hs
  | cons e es ih => exact ih (hstep s e hs h.1) h.2

/-! ## Reaching a state -/

variable (step)

/-- Some run leads to a state with `goal`. -/
def CanReach (goal : σ → Prop) (s : σ) : Prop := ∃ es, goal (last step s es)

variable {step} {goal trap : σ → Prop} {enters : σ → ε → Prop}

/-- **Progress.** Where each state but a goal has a step that takes the rank down, a goal
can be reached. -/
theorem canReach_of_rank {I : σ → Prop} (rank : σ → Nat)
    (hstep : ∀ s, I s → ¬ goal s → ∃ e, I (step s e).1 ∧ rank (step s e).1 < rank s)
    {s : σ} (hs : I s) : CanReach step goal s := by
  induction hn : rank s using Nat.strongRecOn generalizing s with
  | ind n ih =>
    by_cases hgoal : goal s
    · exact ⟨[], hgoal⟩
    · obtain ⟨e, hI, hlt⟩ := hstep s hs hgoal
      obtain ⟨es, hes⟩ := ih _ (hn ▸ hlt) hI rfl
      exact ⟨e :: es, hes⟩

/-- No run leads out of a trap. -/
theorem not_canReach_of_trap (htrap : ∀ s e, trap s → trap (step s e).1)
    (hgoal : ∀ s, trap s → ¬ goal s) {s : σ} (hs : trap s) : ¬ CanReach step goal s := by
  intro h
  obtain ⟨es, hes⟩ := h
  exact hgoal _ (run_invariant htrap hs es) hes

/-- A run ends outside of a trap exactly when none of its steps enters it. -/
theorem along_iff_not_trap (htrap : ∀ s e, trap s → trap (step s e).1)
    (henters : ∀ s e, ¬ trap s → (trap (step s e).1 ↔ enters s e)) {s : σ} (hs : ¬ trap s)
    (es : List ε) :
    Along step (fun s e => ¬ enters s e) s es ↔ ¬ trap (last step s es) := by
  induction es generalizing s with
  | nil => exact ⟨fun _ => hs, fun _ => trivial⟩
  | cons e es ih =>
    rw [last_cons]
    by_cases he : enters s e
    · have hin : trap (last step (step s e).1 es) :=
        run_invariant htrap ((henters s e hs).mpr he) es
      exact ⟨fun h => absurd he h.1, fun h => absurd hin h⟩
    · have hout : ¬ trap (step s e).1 := fun h => he ((henters s e hs).mp h)
      rw [← ih hout]
      exact ⟨fun h => h.2, fun h => ⟨he, h⟩⟩

end Machine
