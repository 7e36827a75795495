/- The longest prefix of a text that has a value.

   What a text can be made to mean by what stands behind it: a value of the longer text is
   either completed there (`Completes`), or it is that of the text alone (`longest_append`). -/
namespace Longest

variable {α β : Type} (value : List α → Option β)

/-- The value of the longest prefix of at most `n` elements that has one. -/
def upTo (l : List α) : Nat → Option β
  | 0 => value []
  | n + 1 => (value (l.take (n + 1))).or (upTo l n)

/-- The value of the longest prefix that has one. -/
def longest (l : List α) : Option β := upTo value l l.length

variable {value}

theorem upTo_append {a : List α} (b : List α) {n : Nat} (h : n ≤ a.length) :
    upTo value (a ++ b) n = upTo value a n := by
  induction n with
  | zero => rfl
  | succ n ih => rw [upTo, upTo, List.take_append_of_le_length h, ih (Nat.le_of_succ_le h)]

/-- Behind `a` stands `b`, and the longest value is that of `a` and the first part `z` of `b`. -/
structure Completes (value : List α → Option β) (a b z : List α) (v : β) : Prop where
  ne : z ≠ []
  front : z <+: b
  value_eq : value (a ++ z) = some v
  last : ∀ z', z' <+: b → z.length < z'.length → value (a ++ z') = none

variable (value) in
/-- The same as far as `k` elements of `b`. -/
theorem upTo_cases (a b : List α) {k : Nat} (hk : k ≤ b.length) :
    (∃ z v, z ≠ [] ∧ z <+: b ∧ value (a ++ z) = some v ∧
        (∀ z', z' <+: b → z.length < z'.length → z'.length ≤ k → value (a ++ z') = none) ∧
        upTo value (a ++ b) (a.length + k) = some v) ∨
      (∀ z, z ≠ [] → z <+: b → z.length ≤ k → value (a ++ z) = none) ∧
        upTo value (a ++ b) (a.length + k) = longest value a := by
  induction k with
  | zero =>
    refine .inr ⟨fun z hne _ hlen => ?_, upTo_append b (Nat.le_refl _)⟩
    exact absurd (List.eq_nil_of_length_eq_zero (Nat.le_zero.mp hlen)) hne
  | succ k ih =>
    have htake : (a ++ b).take (a.length + k + 1) = a ++ b.take (k + 1) := by
      rw [Nat.add_assoc, List.take_length_add_append]
    have hlength : (b.take (k + 1)).length = k + 1 := List.length_take_of_le hk
    -- a prefix of one more element is the one that is looked at first
    have hlonger : ∀ z', z' <+: b → ¬ z'.length ≤ k → z'.length ≤ k + 1 →
        z' = b.take (k + 1) := by
      intro z' hz' hnot hle
      have hlen : z'.length = k + 1 := by omega
      rw [List.prefix_iff_eq_take.mp hz', hlen]
    rw [← Nat.add_assoc, upTo, htake]
    cases hvalue : value (a ++ b.take (k + 1)) with
    | some v =>
      refine .inl ⟨b.take (k + 1), v, ?_, List.take_prefix _ _, hvalue, ?_, rfl⟩
      · intro hnil
        rw [hnil] at hlength
        cases hlength
      · intro z' _ hlt hle
        omega
    | none =>
      rcases ih (Nat.le_of_succ_le hk) with ⟨z, v, hne, hz, hv, hlast, hrun⟩ | ⟨hnone, hrun⟩
      · refine .inl ⟨z, v, hne, hz, hv, fun z' hz' hlt hle => ?_, hrun⟩
        by_cases hk' : z'.length ≤ k
        · exact hlast z' hz' hlt hk'
        · rw [hlonger z' hz' hk' hle, hvalue]
      · refine .inr ⟨fun z hne hz hle => ?_, hrun⟩
        by_cases hk' : z.length ≤ k
        · exact hnone z hne hz hk'
        · rw [hlonger z hz hk' hle, hvalue]

variable (value) in
/-- The longest value is completed behind `a`, or it is the one of `a`. -/
theorem longest_append (a b : List α) :
    (∃ z v, Completes value a b z v ∧ longest value (a ++ b) = some v) ∨
      (∀ z, z ≠ [] → z <+: b → value (a ++ z) = none) ∧
        longest value (a ++ b) = longest value a := by
  have hlength : longest value (a ++ b) = upTo value (a ++ b) (a.length + b.length) := by
    rw [longest, List.length_append]
  rw [hlength]
  rcases upTo_cases value a b (Nat.le_refl _) with
    ⟨z, v, hne, hz, hv, hlast, hrun⟩ | ⟨hnone, hrun⟩
  · exact .inl ⟨z, v, ⟨hne, hz, hv, fun z' hz' hlt => hlast z' hz' hlt hz'.length_le⟩, hrun⟩
  · exact .inr ⟨fun z hne hz => hnone z hne hz hz.length_le, hrun⟩

/-- There is one completion at most. -/
theorem Completes.longest_eq {a b z : List α} {v : β} (h : Completes value a b z v) :
    longest value (a ++ b) = some v := by
  rcases longest_append value a b with ⟨z', v', h', hrun⟩ | ⟨hnone, -⟩
  · have hlength : z'.length = z.length := by
      rcases Nat.lt_trichotomy z'.length z.length with hlt | heq | hlt
      · have hnone := h'.last z h.front hlt
        rw [h.value_eq] at hnone
        cases hnone
      · exact heq
      · have hnone := h.last z' h'.front hlt
        rw [h'.value_eq] at hnone
        cases hnone
    have hz : z' = z := by
      rw [List.prefix_iff_eq_take.mp h'.front, List.prefix_iff_eq_take.mp h.front, hlength]
    have hv := h'.value_eq
    rw [hz, h.value_eq] at hv
    rw [hrun, hv]
  · have hvalue := hnone z h.ne h.front
    rw [h.value_eq] at hvalue
    cases hvalue

/-! ## Longest by length -/

theorem upTo_take {l : List α} {n k : Nat} {v : β} (h : value (l.take n) = some v)
    (hlast : ∀ m, n < m → m ≤ k → value (l.take m) = none) (hk : n ≤ k) :
    upTo value l k = some v := by
  induction k with
  | zero =>
    obtain rfl := Nat.le_zero.mp hk
    rw [List.take_zero] at h
    rw [upTo, h]
  | succ k ih =>
    rw [upTo]
    rcases Nat.eq_or_lt_of_le hk with rfl | hlt
    · rw [h, Option.some_or]
    · rw [hlast (k + 1) hlt (Nat.le_refl _), Option.none_or]
      exact ih (fun m hm hle => hlast m hm (Nat.le_succ_of_le hle)) (Nat.le_of_lt_succ hlt)

/-- The longest value is that of a prefix behind which there is none. -/
theorem longest_take {l : List α} {n : Nat} {v : β} (hn : n ≤ l.length)
    (h : value (l.take n) = some v)
    (hlast : ∀ m, n < m → m ≤ l.length → value (l.take m) = none) : longest value l = some v :=
  upTo_take h hlast hn

theorem longest_none {l : List α} (h : ∀ m ≤ l.length, value (l.take m) = none) :
    longest value l = none := by
  have hupTo : ∀ k ≤ l.length, upTo value l k = none := by
    intro k hk
    induction k with
    | zero =>
      have hzero := h 0 (Nat.zero_le _)
      rw [List.take_zero] at hzero
      rw [upTo, hzero]
    | succ k ih => rw [upTo, h (k + 1) hk, Option.none_or, ih (Nat.le_of_succ_le hk)]
  exact hupTo l.length (Nat.le_refl _)

theorem longest_map {γ : Type} (f : β → γ) (l : List α) :
    longest (fun text => (value text).map f) l = (longest value l).map f := by
  have hupTo : ∀ n, upTo (fun text => (value text).map f) l n = (upTo value l n).map f := by
    intro n
    induction n with
    | zero => rfl
    | succ n ih =>
      rw [upTo, upTo, ih]
      cases value (l.take (n + 1)) with
      | none => rfl
      | some v => rfl
  exact hupTo l.length

end Longest
