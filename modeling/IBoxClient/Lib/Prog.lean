import Mathlib.Data.List.Basic

/- Programs that may have to wait, and assertions about them. A program runs from a
   state; it either returns a value or pauses, where it has used up the rounds it
   was granted, and in both cases leaves the state it has got to. So what a program
   has done before it pauses is not lost, and a statement about every number of
   rounds is a statement about every point of a wait.

   `Spec P p Q E` says that from a state with `P` the program `p` returns in a state
   with `Q`, or pauses in one with `E`. `Keeps I p` is the case of an invariant. -/
def Prog (σ α : Type) : Type := σ → Option α × σ

namespace Prog

variable {σ α β : Type}

instance : Monad (Prog σ) where
  pure a := fun s => (some a, s)
  bind p f := fun s =>
    match p s with
    | (some a, s') => f a s'
    | (none, s') => (none, s')

/-- A step of the program that always returns. -/
def act (f : σ → α × σ) : Prog σ α := fun s => (some (f s).1, (f s).2)

/-- Reads the state. -/
def look : Prog σ σ := act fun s => (s, s)

/-- Changes the state. -/
def change (f : σ → σ) : Prog σ Unit := act fun s => ((), f s)

def pause : Prog σ α := fun s => (none, s)

@[simp] theorem run_pure (a : α) (s : σ) : (pure a : Prog σ α) s = (some a, s) := rfl

@[simp] theorem run_act (f : σ → α × σ) (s : σ) : act f s = (some (f s).1, (f s).2) := rfl

@[simp] theorem run_look (s : σ) : (look : Prog σ σ) s = (some s, s) := rfl

@[simp] theorem run_change (f : σ → σ) (s : σ) : change f s = (some (), f s) := rfl

@[simp] theorem run_pause (s : σ) : (pause : Prog σ α) s = (none, s) := rfl

theorem run_bind (p : Prog σ α) (f : α → Prog σ β) (s : σ) :
    (p >>= f) s = match p s with
      | (some a, s') => f a s'
      | (none, s') => (none, s') := rfl

instance : LawfulMonad (Prog σ) := by
  refine LawfulMonad.mk' _ ?_ (fun _ _ => rfl) ?_
  · intro α p
    funext s
    show (match p s with
      | (some a, s') => (some a, s')
      | (none, s') => (none, s')) = p s
    generalize p s = r
    obtain ⟨r, s'⟩ := r
    cases r <;> rfl
  · intro α β γ p f g
    funext s
    simp only [run_bind]
    generalize p s = r
    obtain ⟨r, s'⟩ := r
    cases r <;> rfl

/-- Running on from a program that has returned. -/
theorem run_bind_some {p : Prog σ α} {f : α → Prog σ β} {s s' : σ} {a : α}
    (h : p s = (some a, s')) : (p >>= f) s = f a s' := by
  rw [run_bind, h]

@[simp] theorem run_act_bind (f : σ → α × σ) (g : α → Prog σ β) (s : σ) :
    (act f >>= g) s = g (f s).1 (f s).2 := rfl

@[simp] theorem run_look_bind (g : σ → Prog σ β) (s : σ) : (look >>= g) s = g s s := rfl

@[simp] theorem run_change_bind (f : σ → σ) (g : Unit → Prog σ β) (s : σ) :
    (change f >>= g) s = g () (f s) := rfl

@[simp] theorem run_pure_bind (a : α) (g : α → Prog σ β) (s : σ) :
    ((pure a : Prog σ α) >>= g) s = g a s := rfl

/-- From `P`, `p` returns with `Q` or pauses with `E`. -/
def Spec (P : σ → Prop) (p : Prog σ α) (Q : α → σ → Prop) (E : σ → Prop) : Prop :=
  ∀ s, P s → match p s with
    | (some a, s') => Q a s'
    | (none, s') => E s'

namespace Spec

variable {P P' : σ → Prop} {Q Q' : α → σ → Prop} {E E' : σ → Prop} {p : Prog σ α}

theorem returned (h : Spec P p Q E) {s s' : σ} {a : α} (hs : P s) (hr : p s = (some a, s')) :
    Q a s' := by
  have h' := h s hs
  rwa [hr] at h'

theorem pure (a : α) (h : ∀ s, P s → Q a s) : Spec P (Pure.pure a : Prog σ α) Q E := h

theorem act {f : σ → α × σ} (h : ∀ s, P s → Q (f s).1 (f s).2) : Spec P (act f) Q E := h

theorem look {Q : β → σ → Prop} {f : σ → Prog σ β} (h : ∀ t, Spec (fun s => P s ∧ s = t) (f t) Q E) :
    Spec P (look >>= f) Q E := fun s hs => h s s ⟨hs, rfl⟩

theorem pause (h : ∀ s, P s → E s) : Spec P (pause : Prog σ α) Q E := h

theorem top (p : Prog σ α) : Spec P p (fun _ _ => True) fun _ => True := by
  intro s _
  generalize p s = r
  obtain ⟨r, s'⟩ := r
  cases r <;> trivial

theorem bind {R : α → σ → Prop} {Q : β → σ → Prop} {f : α → Prog σ β} (hp : Spec P p R E)
    (hf : ∀ a, Spec (R a) (f a) Q E) : Spec P (p >>= f) Q E := by
  intro s hs
  have hps := hp s hs
  rw [run_bind]
  generalize p s = r at hps ⊢
  obtain ⟨r, s'⟩ := r
  cases r with
  | none => exact hps
  | some a => exact hf a s' hps

theorem ite {c : Prop} [Decidable c] {q : Prog σ α} (hp : c → Spec P p Q E)
    (hq : ¬ c → Spec P q Q E) : Spec P (if c then p else q) Q E := by
  split
  · exact hp ‹c›
  · exact hq ‹¬ c›

theorem mono (h : Spec P p Q E) (hP : ∀ s, P' s → P s) (hQ : ∀ a s, Q a s → Q' a s)
    (hE : ∀ s, E s → E' s) : Spec P' p Q' E' := by
  intro s hs
  have hps := h s (hP s hs)
  generalize p s = r at hps ⊢
  obtain ⟨r, s'⟩ := r
  cases r with
  | none => exact hE s' hps
  | some a => exact hQ a s' hps

theorem weaken (h : Spec P p Q E) (hP : ∀ s, P' s → P s) : Spec P' p Q E :=
  h.mono hP (fun _ _ hs => hs) fun _ hs => hs

/-- Looking at the state without use for what it was. -/
theorem look_any {Q : β → σ → Prop} {f : σ → Prog σ β} (h : ∀ t, Spec P (f t) Q E) :
    Spec P (Prog.look >>= f) Q E :=
  .look fun t => (h t).weaken fun _ hs => hs.1

end Spec

/-- `p` keeps `I`, whether it returns or pauses. -/
def Keeps (I : σ → Prop) (p : Prog σ α) : Prop := ∀ s, I s → I (p s).2

namespace Keeps

variable {I : σ → Prop} {p : Prog σ α}

theorem of_spec (h : Spec I p (fun _ => I) I) : Keeps I p := by
  intro s hs
  have hps := h s hs
  generalize p s = r at hps ⊢
  obtain ⟨r, s'⟩ := r
  cases r <;> exact hps

theorem spec (h : Keeps I p) : Spec I p (fun _ => I) I := by
  intro s hs
  have hps := h s hs
  generalize p s = r at hps ⊢
  obtain ⟨r, s'⟩ := r
  cases r <;> exact hps

theorem pure (a : α) : Keeps I (Pure.pure a : Prog σ α) := fun _ hs => hs

theorem act {f : σ → α × σ} (h : ∀ s, I s → I (f s).2) : Keeps I (act f) := h

theorem look : Keeps I (look : Prog σ σ) := fun _ hs => hs

theorem change {f : σ → σ} (h : ∀ s, I s → I (f s)) : Keeps I (change f) := h

theorem pause : Keeps I (pause : Prog σ α) := fun _ hs => hs

theorem bind {f : α → Prog σ β} (hp : Keeps I p) (hf : ∀ a, Keeps I (f a)) :
    Keeps I (p >>= f) := by
  intro s hs
  have hps := hp s hs
  rw [run_bind]
  generalize p s = r at hps ⊢
  obtain ⟨r, s'⟩ := r
  cases r with
  | none => exact hps
  | some a => exact hf a s' hps

theorem ite {c : Prop} [Decidable c] {q : Prog σ α} (hp : c → Keeps I p) (hq : ¬ c → Keeps I q) :
    Keeps I (if c then p else q) := by
  split
  · exact hp ‹c›
  · exact hq ‹¬ c›

end Keeps

end Prog
