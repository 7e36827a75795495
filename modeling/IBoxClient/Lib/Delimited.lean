import Mathlib.Data.List.Basic
import Mathlib.Data.List.TakeWhile

/- Delimited text. A stream of symbols is cut into segments by a delimiter `d`,
   and of each segment only the symbols with `keep` are its text. `segments acc l`
   is what a reader that already holds the text `acc` of the current segment gets
   from `l`; a segment without its delimiter is not there yet.

   `takeSegment` is the reader that does not wait: it takes the front segment with
   its delimiter, or everything when there is no delimiter. Where it cuts a text in
   two (`Cuts`) it hands out one segment too many (`length_segments_of_cuts`);
   elsewhere it loses nothing (`texts_takeSegment`). -/
namespace Delimited

variable {α : Type} [DecidableEq α] (d : α) (keep : α → Bool)

/-- The texts of the complete segments of `l`, the first of them begun by `acc`. -/
def segments (acc : List α) : List α → List (List α)
  | [] => []
  | c :: cs =>
    if c = d then acc :: segments [] cs
    else segments (if keep c then acc ++ [c] else acc) cs

/-- The non-empty ones. -/
def texts (acc l : List α) : List (List α) := (segments d keep acc l).filter (· ≠ [])

/-- Everything up to the first delimiter, of which the text, and what follows. -/
def takeSegment : List α → List α × List α
  | [] => ([], [])
  | c :: cs =>
    if c = d then ([], cs)
    else (if keep c then c :: (takeSegment cs).1 else (takeSegment cs).1, (takeSegment cs).2)

/-- The text of the segment that is still open at the end of `l`, or of `l` up to
its first delimiter. -/
def openText (l : List α) : List α := (l.takeWhile (· ≠ d)).filter keep

/-- Apart from symbols that are not text, `l` ends with a delimiter. -/
def Closed (l : List α) : Prop := ∀ a b, l = a ++ b → d ∉ b → b.filter keep = []

variable {d keep}

theorem segments_of_not_mem {l : List α} (h : d ∉ l) (acc : List α) :
    segments d keep acc l = [] := by
  induction l generalizing acc with
  | nil => rfl
  | cons c cs ih =>
    simp only [List.mem_cons, not_or] at h
    rw [segments, if_neg (Ne.symm h.1), ih h.2]

theorem segments_append {a : List α} (h : d ∉ a) (acc b : List α) :
    segments d keep acc (a ++ b) = segments d keep (acc ++ a.filter keep) b := by
  induction a generalizing acc with
  | nil => simp
  | cons c cs ih =>
    simp only [List.mem_cons, not_or] at h
    rw [List.cons_append, segments, if_neg (Ne.symm h.1), ih h.2]
    by_cases hk : keep c = true <;> simp [hk]

theorem segments_delim (acc b : List α) :
    segments d keep acc (d :: b) = acc :: segments d keep [] b := by
  rw [segments, if_pos rfl]

theorem segments_segment {a : List α} (h : d ∉ a) (acc b : List α) :
    segments d keep acc (a ++ d :: b) = (acc ++ a.filter keep) :: segments d keep [] b := by
  rw [segments_append h, segments_delim]

theorem texts_segment {a : List α} (h : d ∉ a) (acc b : List α) :
    texts d keep acc (a ++ d :: b) =
      (if acc ++ a.filter keep = [] then [] else [acc ++ a.filter keep]) ++ texts d keep [] b := by
  unfold texts
  rw [segments_segment h, List.filter_cons]
  by_cases ht : acc ++ a.filter keep = [] <;> simp [ht]

theorem texts_of_not_mem {l : List α} (h : d ∉ l) (acc : List α) : texts d keep acc l = [] := by
  rw [texts, segments_of_not_mem h, List.filter_nil]

/-- Splitting a list at its first delimiter. -/
theorem split_at_delim {l : List α} (h : d ∈ l) :
    ∃ b, l = l.takeWhile (· ≠ d) ++ d :: b ∧ d ∉ l.takeWhile (· ≠ d) := by
  obtain ⟨a, b, rfl, ha⟩ := List.eq_append_cons_of_mem h
  have htw : (a ++ d :: b).takeWhile (· ≠ d) = a := by
    rw [List.takeWhile_append_of_pos (by
      intro x hx; simp only [decide_eq_true_eq]; exact fun e => ha (e ▸ hx))]
    simp
  exact ⟨b, by rw [htw], by rw [htw]; exact ha⟩

omit [DecidableEq α] in
/-- What is in front of the first delimiter is determined. -/
theorem eq_of_append_delim {a a' b b' : List α} (ha : d ∉ a) (ha' : d ∉ a')
    (h : a ++ d :: b = a' ++ d :: b') : a = a' := by
  induction a generalizing a' with
  | nil =>
    cases a' with
    | nil => rfl
    | cons c cs => exact absurd ((List.cons.inj h).1 ▸ List.mem_cons_self) ha'
  | cons c cs ih =>
    cases a' with
    | nil => exact absurd ((List.cons.inj h).1 ▸ List.mem_cons_self) ha
    | cons c' cs' =>
      obtain ⟨hc, hcs⟩ := List.cons.inj h
      simp only [List.mem_cons, not_or] at ha ha'
      rw [hc, ih ha.2 ha'.2 hcs]

theorem takeWhile_of_not_mem {l : List α} (h : d ∉ l) : l.takeWhile (· ≠ d) = l := by
  induction l with
  | nil => rfl
  | cons c cs ih =>
    simp only [List.mem_cons, not_or] at h
    rw [List.takeWhile_cons_of_pos (by simpa using Ne.symm h.1), ih h.2]

theorem not_mem_takeWhile (l : List α) : d ∉ l.takeWhile (· ≠ d) := by
  intro h
  simpa using List.mem_takeWhile_imp h

theorem not_mem_openText (l : List α) : d ∉ openText d keep l := fun h =>
  not_mem_takeWhile l (List.mem_of_mem_filter h)

theorem length_openText (l : List α) : (openText d keep l).length ≤ l.length :=
  calc (openText d keep l).length
      ≤ (l.takeWhile (· ≠ d)).length := List.length_filter_le _ _
    _ ≤ l.length := (List.takeWhile_sublist _).length_le

theorem takeSegment_segment {a : List α} (h : d ∉ a) (b : List α) :
    takeSegment d keep (a ++ d :: b) = (a.filter keep, b) := by
  induction a with
  | nil => simp [takeSegment]
  | cons c cs ih =>
    simp only [List.mem_cons, not_or] at h
    rw [List.cons_append, takeSegment, if_neg (Ne.symm h.1), ih h.2]
    by_cases hk : keep c = true <;> simp [hk]

theorem takeSegment_of_not_mem {l : List α} (h : d ∉ l) :
    takeSegment d keep l = (l.filter keep, []) := by
  induction l with
  | nil => rfl
  | cons c cs ih =>
    simp only [List.mem_cons, not_or] at h
    rw [takeSegment, if_neg (Ne.symm h.1), ih h.2]
    by_cases hk : keep c = true <;> simp [hk]

theorem length_takeSegment (l : List α) : (takeSegment d keep l).2.length ≤ l.length - 1 := by
  by_cases h : d ∈ l
  · obtain ⟨b, hl, hn⟩ := split_at_delim h
    rw [hl, takeSegment_segment hn]
    simp only [List.length_append, List.length_cons]
    omega
  · rw [takeSegment_of_not_mem h]
    exact Nat.zero_le _

variable (d keep)

/-- Taking a segment from `q`, with `r` still to come, cuts a text in two: the
front segment of `q` is open, and both what is there of its text and what is
still missing are non-empty. -/
def Cuts (q r : List α) : Prop :=
  d ∉ q ∧ q.filter keep ≠ [] ∧ openText d keep r ≠ []

instance (q r : List α) : Decidable (Cuts d keep q r) :=
  inferInstanceAs (Decidable (_ ∧ _ ∧ _))

variable {d keep}

/-- A non-empty text, as a list of at most one text. -/
abbrev textOf (t : List α) : List (List α) := if t = [] then [] else [t]

theorem texts_takeSegment_of_mem {q : List α} (h : d ∈ q) (r : List α) :
    textOf (takeSegment d keep q).1 ++ texts d keep [] ((takeSegment d keep q).2 ++ r) =
      texts d keep [] (q ++ r) := by
  obtain ⟨b, hq, hn⟩ := split_at_delim h
  rw [hq, takeSegment_segment hn, List.append_assoc, List.cons_append, texts_segment hn,
    List.nil_append]

/-- An open front segment is cut where `q` ends; what is still missing of it
becomes a segment of its own. -/
theorem texts_takeSegment_of_open (keep : α → Bool) {q r : List α} (hq : d ∉ q) (hr : d ∈ r) :
    ∃ rest, texts d keep [] (q ++ r) = textOf (q.filter keep ++ openText d keep r) ++ rest ∧
      textOf (takeSegment d keep q).1 ++ texts d keep [] ((takeSegment d keep q).2 ++ r) =
        textOf (q.filter keep) ++ (textOf (openText d keep r) ++ rest) := by
  obtain ⟨b, hr', hn⟩ := split_at_delim hr
  refine ⟨texts d keep [] b, ?_, ?_⟩
  · have hqn : d ∉ q ++ r.takeWhile (· ≠ d) := by
      simp only [List.mem_append, not_or]; exact ⟨hq, hn⟩
    conv_lhs => rw [hr', ← List.append_assoc]
    rw [texts_segment hqn, List.nil_append, List.filter_append, openText]
  · rw [takeSegment_of_not_mem hq, List.nil_append]
    conv_lhs => rw [hr']
    rw [texts_segment hn, List.nil_append, openText]

theorem not_mem_of_closed {q r : List α} (hc : Closed d keep (q ++ r)) (hq : d ∉ q)
    (hr : d ∉ r) : q.filter keep = [] ∧ openText d keep r = [] := by
  have hn : d ∉ q ++ r := by simp only [List.mem_append, not_or]; exact ⟨hq, hr⟩
  have h : (q ++ r).filter keep = [] := hc [] (q ++ r) rfl hn
  rw [List.filter_append, List.append_eq_nil_iff] at h
  rw [openText, takeWhile_of_not_mem hr]
  exact h

/-- A reader that does not cut a text loses and adds nothing. -/
theorem texts_takeSegment {q r : List α} (hc : Closed d keep (q ++ r))
    (h : ¬ Cuts d keep q r) :
    textOf (takeSegment d keep q).1 ++ texts d keep [] ((takeSegment d keep q).2 ++ r) =
      texts d keep [] (q ++ r) := by
  by_cases hq : d ∈ q
  · exact texts_takeSegment_of_mem hq r
  · by_cases hr : d ∈ r
    · obtain ⟨rest, hall, hcut⟩ := texts_takeSegment_of_open keep hq hr
      rw [hall, hcut]
      by_cases hqk : q.filter keep = []
      · simp [hqk]
      · have hopen : openText d keep r = [] := by
          by_contra hne
          exact h ⟨hq, hqk, hne⟩
        simp [hopen, textOf]
    · obtain ⟨hqk, _⟩ := not_mem_of_closed hc hq hr
      have hqr : d ∉ q ++ r := by simp only [List.mem_append, not_or]; exact ⟨hq, hr⟩
      rw [takeSegment_of_not_mem hq, texts_of_not_mem hqr, List.nil_append,
        texts_of_not_mem hr, hqk]
      simp [textOf]

/-- A reader that cuts a text hands out one segment more than there is. -/
theorem length_texts_of_cuts {q r : List α} (hc : Closed d keep (q ++ r))
    (h : Cuts d keep q r) :
    (textOf (takeSegment d keep q).1 ++
        texts d keep [] ((takeSegment d keep q).2 ++ r)).length =
      (texts d keep [] (q ++ r)).length + 1 := by
  obtain ⟨hq, hqk, hopen⟩ := h
  by_cases hr : d ∈ r
  · obtain ⟨rest, hall, hcut⟩ := texts_takeSegment_of_open keep hq hr
    rw [hall, hcut]
    simp [textOf, hqk, hopen]
  · exact absurd (not_mem_of_closed hc hq hr).1 hqk

omit [DecidableEq α] in
theorem Closed.suffix {a b : List α} (h : Closed d keep (a ++ b)) : Closed d keep b := by
  intro x y hxy
  exact h (a ++ x) y (by rw [hxy, List.append_assoc])

omit [DecidableEq α] in
/-- A delimiter, and nothing of interest after it. -/
theorem closed_of_delim (a b : List α) (hb : b.filter keep = []) :
    Closed d keep (a ++ d :: b) := by
  intro x y hxy hy
  -- `y` has no delimiter, so it lies behind the last one
  have hsuf : y <:+ b := by
    rcases List.append_eq_append_iff.mp hxy with ⟨c, -, hc⟩ | ⟨c, -, hc⟩
    · cases c with
      | nil =>
        rw [List.nil_append] at hc
        exact absurd (by rw [← hc]; exact List.mem_cons_self) hy
      | cons z c =>
        rw [List.cons_append] at hc
        exact ⟨c, (List.cons.inj hc).2.symm⟩
    · exact absurd (by rw [hc]; simp) hy
  obtain ⟨c, rfl⟩ := hsuf
  rw [List.filter_append, List.append_eq_nil_iff] at hb
  exact hb.2

theorem closed_takeSegment {q r : List α} (h : Closed d keep (q ++ r)) :
    Closed d keep ((takeSegment d keep q).2 ++ r) := by
  by_cases hq : d ∈ q
  · obtain ⟨b, hq', hn⟩ := split_at_delim hq
    rw [hq', List.append_assoc, List.cons_append] at h
    rw [hq', takeSegment_segment hn]
    exact Closed.suffix (a := q.takeWhile (· ≠ d) ++ [d]) (by simpa using h)
  · rw [takeSegment_of_not_mem hq]
    exact h.suffix

end Delimited
