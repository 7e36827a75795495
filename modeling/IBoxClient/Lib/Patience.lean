import IBoxClient.Lib.Machine

/- Patience. A machine is called again and again and reads a clock of 32 bits that counts the
   seconds. It keeps the reading of its last action; while it has nothing else to do it acts
   when more than `k` seconds have passed since then, or puts the action off, once, and takes
   the time anew.

   `Instant` is the time itself, so that there is no wrap in it; the machine sees it modulo
   `2 ^ 32`. A run in which the machine does not act is one that `Waits` describes
   (`waits_of_still`), and calls that are at most a second apart do not go on like that for
   longer than `2 * k + 2` seconds (`Waits.first_le`). -/
namespace Patience

/-- The time at the first and the second reading of the clock in a call. -/
structure Instant where
  first : Nat
  second : Nat

/-- The time does not go back, and each call comes at most a second after the one before. -/
def Paced : List Instant → Prop
  | [] => True
  | [r] => r.first ≤ r.second
  | r :: r' :: rs =>
    r.first ≤ r.second ∧ r.second ≤ r'.first ∧ r'.first ≤ r.first + 1 ∧ Paced (r' :: rs)

instance decidablePaced : (rs : List Instant) → Decidable (Paced rs)
  | [] => isTrue trivial
  | [r] => inferInstanceAs (Decidable (r.first ≤ r.second))
  | r :: r' :: rs =>
    have := decidablePaced (r' :: rs)
    inferInstanceAs (Decidable (r.first ≤ r.second ∧ r.second ≤ r'.first ∧
      r'.first ≤ r.first + 1 ∧ Paced (r' :: rs)))

/-- The seconds since the timer was set, as the machine computes them. -/
def age (timer : UInt32) (time : Nat) : Nat := (UInt32.ofNat time - timer).toNat

/-- The machine has waited for more than `k` seconds. -/
def Due (k : Nat) (timer : UInt32) (r : Instant) : Prop := k < age timer r.first

instance (k : Nat) (timer : UInt32) (r : Instant) : Decidable (Due k timer r) :=
  inferInstanceAs (Decidable (_ < _))

/-- The readings of calls in which the machine only waits; `once` says whether it may still
put the action off. -/
inductive Waits (k : Nat) : Bool → UInt32 → List Instant → Prop where
  | nil (once : Bool) (timer : UInt32) : Waits k once timer []
  | early {once : Bool} {timer : UInt32} {r : Instant} {rs : List Instant}
    (h : ¬ Due k timer r) (rest : Waits k once timer rs) : Waits k once timer (r :: rs)
  | skip {timer : UInt32} {r : Instant} {rs : List Instant}
    (rest : Waits k false (.ofNat r.second) rs) : Waits k true timer (r :: rs)

theorem age_succ (timer : UInt32) {t t' : Nat} (hle : t ≤ t') (hnext : t' ≤ t + 1)
    (hage : age timer t + 1 < 4294967296) : age timer t' = age timer t + (t' - t) := by
  have htimer := timer.toNat_lt
  unfold age at hage ⊢
  rw [UInt32.toNat_sub, UInt32.toNat_ofNat'] at hage ⊢
  rw [UInt32.toNat_sub, UInt32.toNat_ofNat']
  omega

theorem age_ofNat {t t' : Nat} (hle : t ≤ t') (hlt : t' - t < 4294967296) :
    age (.ofNat t) t' = t' - t := by
  unfold age
  rw [UInt32.toNat_sub, UInt32.toNat_ofNat', UInt32.toNat_ofNat']
  omega

theorem Paced.tail {r : Instant} {rs : List Instant} (h : Paced (r :: rs)) : Paced rs := by
  cases rs with
  | nil => trivial
  | cons r' rs => exact h.2.2.2

variable {k : Nat} {timer : UInt32} {r : Instant} {rs : List Instant}

/-- What cannot be put off any more is done in time. -/
theorem Waits.not_due (h : Waits k false timer (r :: rs)) : ¬ Due k timer r := by
  cases h with
  | early h _ => exact h

/-- From a call on that finds the timer `age` seconds old, the action is not put off. -/
theorem Waits.first_add_age (hk : k + 1 < 4294967296) (h : Waits k false timer (r :: rs))
    (hpaced : Paced (r :: rs)) : ∀ x ∈ r :: rs, x.first + age timer r.first ≤ r.first + k := by
  induction rs generalizing r with
  | nil =>
    intro x hx
    have hdue := h.not_due
    rw [Due] at hdue
    rw [List.mem_singleton.mp hx]
    omega
  | cons r' rs ih =>
    have hdue := h.not_due
    rw [Due] at hdue
    cases h with
    | early _ hrest =>
      obtain ⟨hfirst, hsecond, hnext, hpaced'⟩ := hpaced
      have hage := age_succ timer (Nat.le_trans hfirst hsecond) hnext (by omega)
      intro x hx
      rcases List.mem_cons.mp hx with rfl | hx
      · omega
      · have hx' := ih hrest hpaced' x hx
        omega

/-- A call that puts the action off. -/
theorem first_le_of_skip (hk : k + 1 < 4294967296) (h : Waits k false (.ofNat r.second) rs)
    (hpaced : Paced (r :: rs)) : ∀ x ∈ r :: rs, x.first ≤ r.first + k + 1 := by
  intro x hx
  rcases List.mem_cons.mp hx with rfl | hx
  · omega
  · cases rs with
    | nil => exact absurd hx List.not_mem_nil
    | cons r' rs =>
      obtain ⟨hfirst, hsecond, hnext, hpaced'⟩ := hpaced
      have hbound := h.first_add_age hk hpaced' x hx
      rw [age_ofNat hsecond (by omega)] at hbound
      omega

theorem Waits.first_add_age_le {once : Bool} (hk : k + 1 < 4294967296)
    (h : Waits k once timer (r :: rs)) (hpaced : Paced (r :: rs)) (hdue : ¬ Due k timer r) :
    ∀ x ∈ r :: rs, x.first + age timer r.first ≤ r.first + (2 * k + 2) := by
  rw [Due] at hdue
  induction rs generalizing r with
  | nil =>
    intro x hx
    rw [List.mem_singleton.mp hx]
    omega
  | cons r' rs ih =>
    cases h with
    | skip hrest =>
      intro x hx
      have hx' := first_le_of_skip hk hrest hpaced x hx
      omega
    | early _ hrest =>
      have hnext := hpaced.2.2.1
      have hage := age_succ timer (Nat.le_trans hpaced.1 hpaced.2.1) hnext (by omega)
      intro x hx
      rcases List.mem_cons.mp hx with rfl | hx
      · omega
      · cases hrest with
        | skip hrest' =>
          have hx' := first_le_of_skip hk hrest' hpaced.tail x hx
          omega
        | early hdue' hrest' =>
          have hx' := ih (.early hdue' hrest') hpaced.tail hdue' x hx
          omega

/-- **The bound.** All calls come within `2 * k + 2` seconds of the first one. -/
theorem Waits.first_le {once : Bool} (hk : k + 1 < 4294967296)
    (h : Waits k once timer (r :: rs)) (hpaced : Paced (r :: rs)) :
    ∀ x ∈ r :: rs, x.first ≤ r.first + (2 * k + 2) := by
  intro x hx
  cases h with
  | skip hrest =>
    have hx' := first_le_of_skip hk hrest hpaced x hx
    omega
  | early hdue hrest =>
    have hx' := Waits.first_add_age_le hk (.early hdue hrest) hpaced hdue x hx
    omega

/-! ## Machines -/

section Machines
variable {σ ε ω : Type} {step : σ → ε → σ × List ω}

/-- A call in which the machine only waits. -/
inductive Still (patience : σ → Nat) (once : σ → Bool) (timer : σ → UInt32) (s s' : σ)
    (r : Instant) : Prop where
  | early (h : ¬ Due (patience s) (timer s) r) (honce : once s' = once s)
    (htimer : timer s' = timer s)
  | skip (h : once s = true) (honce : once s' = false) (htimer : timer s' = .ofNat r.second)

/-- **Waiting.** A run of calls in which the machine only waits. -/
theorem waits_of_still (reading : ε → Instant) (patience : σ → Nat) (once : σ → Bool)
    (timer : σ → UInt32) {I : σ → Prop} {still : σ → ε → Prop}
    (hstep : ∀ s e, I s → still s e → I (step s e).1 ∧ patience (step s e).1 = patience s ∧
      Still patience once timer s (step s e).1 (reading e))
    {s : σ} {es : List ε} (hs : I s) (h : Machine.Along step still s es) :
    Waits (patience s) (once s) (timer s) (es.map reading) := by
  induction es generalizing s with
  | nil => exact .nil _ _
  | cons e es ih =>
    obtain ⟨hI, hpatience, hstill⟩ := hstep s e hs h.1
    have hrest := ih hI h.2
    rw [hpatience] at hrest
    rw [List.map_cons]
    cases hstill with
    | early hdue honce htimer =>
      rw [honce, htimer] at hrest
      exact .early hdue hrest
    | skip hmay honce htimer =>
      rw [honce, htimer] at hrest
      rw [hmay]
      exact .skip hrest

end Machines

end Patience
