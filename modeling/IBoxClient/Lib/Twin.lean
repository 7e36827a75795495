import IBoxClient.Lib.Prog

/- Two runs of programs next to each other.

   `Twin P p q Q E` says that from states related by `P` the programs `p` and `q` both return,
   with values and states related by `Q`, or both pause, in states related by `E`.
   `Alike R p q` is the case of programs that cannot tell states related by `R` from each other:
   they return the same value and keep `R`. The rules follow the structure of the programs. -/
namespace Prog

variable {σ α β : Type}

/-- Two results, of two runs. -/
inductive Both (Q : α → α → σ → σ → Prop) (E : σ → σ → Prop) :
    Option α × σ → Option α × σ → Prop where
  | returned {a b : α} {s t : σ} (h : Q a b s t) : Both Q E (some a, s) (some b, t)
  | paused {s t : σ} (h : E s t) : Both Q E (none, s) (none, t)

/-- From states with `P`, both return with `Q` or both pause with `E`. -/
def Twin (P : σ → σ → Prop) (p q : Prog σ α) (Q : α → α → σ → σ → Prop) (E : σ → σ → Prop) : Prop :=
  ∀ s t, P s t → Both Q E (p s) (q t)

theorem Both.mono {Q Q' : α → α → σ → σ → Prop} {E E' : σ → σ → Prop} {r r' : Option α × σ}
    (h : Both Q E r r') (hQ : ∀ a b s t, Q a b s t → Q' a b s t) (hE : ∀ s t, E s t → E' s t) :
    Both Q' E' r r' := by
  cases h with
  | returned h => exact .returned (hQ _ _ _ _ h)
  | paused h => exact .paused (hE _ _ h)

/-- Both go on from where they are. -/
theorem Both.bind {p q : Prog σ α} {f g : α → Prog σ β} {R : α → α → σ → σ → Prop}
    {Q : β → β → σ → σ → Prop} {E : σ → σ → Prop} {s t : σ} (hp : Both R E (p s) (q t))
    (hf : ∀ a b, Twin (R a b) (f a) (g b) Q E) : Both Q E ((p >>= f) s) ((q >>= g) t) := by
  rw [run_bind, run_bind]
  generalize p s = r at hp ⊢
  generalize q t = r' at hp ⊢
  cases hp with
  | paused h => exact .paused h
  | returned h => exact hf _ _ _ _ h

namespace Twin

variable {P : σ → σ → Prop} {Q : α → α → σ → σ → Prop} {E : σ → σ → Prop} {p q : Prog σ α}

theorem pure {a b : α} (h : ∀ s t, P s t → Q a b s t) : Twin P (Pure.pure a) (Pure.pure b) Q E :=
  fun s t hst => .returned (h s t hst)

theorem act {f g : σ → α × σ} (h : ∀ s t, P s t → Q (f s).1 (g t).1 (f s).2 (g t).2) :
    Twin P (Prog.act f) (Prog.act g) Q E :=
  fun s t hst => .returned (h s t hst)

theorem bind {R : α → α → σ → σ → Prop} {Q : β → β → σ → σ → Prop} {f g : α → Prog σ β}
    (hp : Twin P p q R E) (hf : ∀ a b, Twin (R a b) (f a) (g b) Q E) :
    Twin P (p >>= f) (q >>= g) Q E :=
  fun s t hst => (hp s t hst).bind hf

/-- Looking at the states before going on. -/
theorem look {f g : σ → Prog σ α} (h : ∀ s t, P s t → Both Q E (f s s) (g t t)) :
    Twin P (Prog.look >>= f) (Prog.look >>= g) Q E := h

end Twin

/-- The programs return the same, and keep the states related. -/
def Alike (R : σ → σ → Prop) (p q : Prog σ α) : Prop :=
  Twin R p q (fun a b s t => a = b ∧ R s t) R

namespace Alike

variable {R : σ → σ → Prop} {p q : Prog σ α}

theorem pure (a : α) : Alike R (Pure.pure a : Prog σ α) (Pure.pure a) :=
  Twin.pure fun _ _ hst => ⟨rfl, hst⟩

theorem pause : Alike R (Prog.pause : Prog σ α) Prog.pause := fun _ _ hst => .paused hst

theorem act {f g : σ → α × σ} (h : ∀ s t, R s t → (f s).1 = (g t).1 ∧ R (f s).2 (g t).2) :
    Alike R (Prog.act f) (Prog.act g) :=
  Twin.act h

theorem change {f g : σ → σ} (h : ∀ s t, R s t → R (f s) (g t)) :
    Alike R (Prog.change f) (Prog.change g) :=
  act fun s t hst => ⟨rfl, h s t hst⟩

theorem bind {f g : α → Prog σ β} (hp : Alike R p q) (hf : ∀ a, Alike R (f a) (g a)) :
    Alike R (p >>= f) (q >>= g) := by
  apply Twin.bind hp
  intro a b s t h
  obtain ⟨rfl, hst⟩ := h
  exact hf a s t hst

theorem look {f g : σ → Prog σ α} (h : ∀ s t, R s t → Alike R (f s) (g t)) :
    Alike R (Prog.look >>= f) (Prog.look >>= g) :=
  Twin.look fun s t hst => h s t hst s t hst

theorem ite {c : Prop} [Decidable c] {p' q' : Prog σ α} (hp : c → Alike R p q)
    (hq : ¬ c → Alike R p' q') : Alike R (if c then p else p') (if c then q else q') := by
  split
  · exact hp ‹c›
  · exact hq ‹¬ c›

end Alike

end Prog
