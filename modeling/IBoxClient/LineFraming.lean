import IBoxClient.Uart3

/- How UART3 lines depend on when they are polled. The bytes of a stream arrive
   through `usart3IrqHandler` and, in between, `getLineFromUart3` is called, in
   any order (`Uart3Event`); at the end the ring is read until it is empty. Every
   poll that comes while a line is half there hands out the half: `lineCuts`
   counts these polls, and the sequence of non-empty lines is longer than the
   sequence of lines of the stream by exactly that number (`length_lines`). So the
   polls see the lines of the stream if and only if none of them cuts a line
   (`line_framing_iff`). -/
namespace IBoxClient

inductive Uart3Event where
  /-- A byte arrives. -/
  | rx (data : UInt8)
  /-- A complete call of `get_line_from_uart3`. -/
  | poll
  deriving DecidableEq, Repr

def uart3Step (u : Uart3) : Uart3Event → Uart3 × List (List UInt8)
  | .rx data => (usart3IrqHandler u data, [])
  | .poll => ((getLineFromUart3 u).2, [(getLineFromUart3 u).1])

/-- The byte stream of a schedule. -/
def received (evs : List Uart3Event) : List UInt8 :=
  evs.filterMap fun
    | .rx data => some data
    | .poll => none

/-- The schedule, followed by polls until nothing is left to read. -/
def drained (evs : List Uart3Event) : List Uart3Event :=
  evs ++ List.replicate (received evs).length .poll

/-- The non-empty lines that the polls of the drained schedule return. -/
def lineSequence (evs : List Uart3Event) : List (List UInt8) :=
  (Machine.out uart3Step Uart3.initial (drained evs)).filter (· ≠ [])

/-- The CR-terminated lines of a byte stream with LF removed, without the empty ones. -/
abbrev linesOf (bytes : List UInt8) : List (List UInt8) := Delimited.texts cr notLf [] bytes

/-- The lines of the stream end in CR, LF optional. -/
abbrev EndsInCr (bytes : List UInt8) : Prop := Delimited.Closed cr notLf bytes

/-- The ring has room for every byte of the schedule when it arrives. -/
def RoomFor (u : Uart3) (e : Uart3Event) : Prop := e ≠ .poll → u.rxCount + 1 < uart3RxSize

instance (u : Uart3) (e : Uart3Event) : Decidable (RoomFor u e) :=
  inferInstanceAs (Decidable (_ → _))

abbrev NeverOverflows (evs : List Uart3Event) : Prop :=
  Machine.Along uart3Step RoomFor Uart3.initial evs

/-- No poll comes while the front line of the ring is open, has text, and has text
still to arrive before its CR. -/
def CutsNoLine (evs : List Uart3Event) : Prop :=
  ∀ pre post, evs = pre ++ .poll :: post →
    ¬ Delimited.Cuts cr notLf (Machine.last uart3Step Uart3.initial pre).contents (received post)

/-- The number of polls of a schedule that cut a line. -/
def lineCuts (u : Uart3) : List Uart3Event → Nat
  | [] => 0
  | .rx data :: evs => lineCuts (usart3IrqHandler u data) evs
  | .poll :: evs =>
    (if Delimited.Cuts cr notLf u.contents (received evs) then 1 else 0) +
      lineCuts (getLineFromUart3 u).2 evs

@[simp] theorem received_rx (data : UInt8) (evs : List Uart3Event) :
    received (.rx data :: evs) = data :: received evs := rfl

@[simp] theorem received_poll (evs : List Uart3Event) :
    received (.poll :: evs) = received evs := rfl

theorem received_append (evs fs : List Uart3Event) :
    received (evs ++ fs) = received evs ++ received fs := List.filterMap_append

@[simp] theorem received_polls (n : Nat) : received (List.replicate n .poll) = [] := by
  induction n with
  | zero => rfl
  | succ n ih => rw [List.replicate_succ, received_poll, ih]

theorem received_drained (evs : List Uart3Event) : received (drained evs) = received evs := by
  rw [drained, received_append, received_polls, List.append_nil]

/-- What a poll returns, seen as at most one non-empty line. -/
theorem filter_singleton_ne_nil (t : List UInt8) :
    [t].filter (· ≠ []) = Delimited.textOf t := by
  by_cases h : t = [] <;> simp [Delimited.textOf, h]

/-- **The count.** Returned lines and lines still in the ring together outnumber
the lines of the bytes by the cuts; without a cut they are these lines. -/
theorem lines_of_run {u : Uart3} (hok : u.Ok) {evs : List Uart3Event}
    (hroom : Machine.Along uart3Step RoomFor u evs) (hc : EndsInCr (u.contents ++ received evs)) :
    let got := (Machine.out uart3Step u evs).filter (· ≠ []) ++
      linesOf (Machine.last uart3Step u evs).contents
    got.length = (linesOf (u.contents ++ received evs)).length + lineCuts u evs ∧
      (lineCuts u evs = 0 → got = linesOf (u.contents ++ received evs)) := by
  induction evs generalizing u with
  | nil => simp [lineCuts, received]
  | cons e evs ih =>
    cases e with
    | rx data =>
      have hcont := Uart3.contents_irq hok (hroom.1 (by simp)) data
      have happ : (usart3IrqHandler u data).contents ++ received evs =
          u.contents ++ received (.rx data :: evs) := by
        rw [hcont, received_rx, List.append_assoc, List.singleton_append]
      rw [← happ] at hc ⊢
      exact ih (Uart3.ok_irq hok data) hroom.2 hc
    | poll =>
      obtain ⟨hline, hrest, hok'⟩ := getLine_spec hok
      rw [received_poll] at hc ⊢
      have hc' : EndsInCr ((getLineFromUart3 u).2.contents ++ received evs) := by
        rw [hrest]; exact Delimited.closed_takeSegment hc
      obtain ⟨hlen, heq⟩ := ih hok' hroom.2 hc'
      -- the line just returned, in front of what the rest of the run returns
      have hout : (Machine.out uart3Step u (.poll :: evs)).filter (· ≠ []) =
          Delimited.textOf (getLineFromUart3 u).1 ++
            (Machine.out uart3Step (getLineFromUart3 u).2 evs).filter (· ≠ []) := by
        rw [Machine.out_cons, List.filter_append, ← filter_singleton_ne_nil]
        rfl
      simp only [hout, List.append_assoc, lineCuts, Machine.last_cons]
      rw [show (uart3Step u .poll).1 = (getLineFromUart3 u).2 from rfl]
      by_cases hcut : Delimited.Cuts cr notLf u.contents (received evs)
      · have hone : (Delimited.textOf (getLineFromUart3 u).1).length +
            (linesOf ((getLineFromUart3 u).2.contents ++ received evs)).length =
              (linesOf (u.contents ++ received evs)).length + 1 := by
          rw [hline, hrest, ← List.length_append]
          exact Delimited.length_texts_of_cuts hc hcut
        refine ⟨?_, fun h => ?_⟩
        · rw [List.length_append, hlen, if_pos hcut]
          omega
        · rw [if_pos hcut] at h
          omega
      · have hall : Delimited.textOf (getLineFromUart3 u).1 ++
            linesOf ((getLineFromUart3 u).2.contents ++ received evs) =
              linesOf (u.contents ++ received evs) := by
          rw [hline, hrest]
          exact Delimited.texts_takeSegment hc hcut
        rw [if_neg hcut, ← hall]
        refine ⟨?_, fun h => ?_⟩
        · rw [List.length_append, hlen, List.length_append]
          omega
        · rw [heq (by omega)]

theorem lineCuts_eq_zero_iff {u : Uart3} {evs : List Uart3Event} :
    lineCuts u evs = 0 ↔ ∀ pre post, evs = pre ++ .poll :: post →
      ¬ Delimited.Cuts cr notLf (Machine.last uart3Step u pre).contents (received post) := by
  induction evs generalizing u with
  | nil => simp [lineCuts]
  | cons e evs ih =>
    constructor
    · intro h pre post heq
      cases pre with
      | nil =>
        rw [List.nil_append] at heq
        obtain ⟨rfl, rfl⟩ := List.cons.inj heq
        intro hcut
        simp only [lineCuts, Machine.last_nil] at h hcut
        rw [if_pos hcut] at h
        omega
      | cons e' pre =>
        rw [List.cons_append] at heq
        obtain ⟨rfl, hevs⟩ := List.cons.inj heq
        cases e with
        | rx data => exact ih.mp h pre post hevs
        | poll =>
          have h' : lineCuts (getLineFromUart3 u).2 evs = 0 := by
            simp only [lineCuts] at h; omega
          exact ih.mp h' pre post hevs
    · intro h
      -- the events behind the first are a schedule of their own, from the state after it
      have hrest : lineCuts (uart3Step u e).1 evs = 0 :=
        ih.mpr fun pre post heq => h (e :: pre) post (by rw [heq, List.cons_append])
      cases e with
      | rx data => exact hrest
      | poll =>
        have hfirst := h [] evs rfl
        rw [Machine.last_nil] at hfirst
        simp only [lineCuts]
        rw [if_neg hfirst, Nat.zero_add]
        exact hrest

/-- Polls where nothing arrives cut nothing. -/
theorem lineCuts_polls (u : Uart3) (n : Nat) : lineCuts u (List.replicate n .poll) = 0 := by
  induction n generalizing u with
  | zero => rfl
  | succ n ih =>
    rw [List.replicate_succ, lineCuts, ih, if_neg]
    intro h
    obtain ⟨-, -, h⟩ := h
    rw [received_polls] at h
    exact h rfl

theorem lineCuts_append (u : Uart3) (evs : List Uart3Event) (n : Nat) :
    lineCuts u (evs ++ List.replicate n .poll) = lineCuts u evs := by
  induction evs generalizing u with
  | nil => exact lineCuts_polls u n
  | cons e evs ih =>
    cases e with
    | rx data => exact ih _
    | poll =>
      simp only [List.cons_append, lineCuts, ih, received_append, received_polls, List.append_nil]

/-- Every poll shortens a non-empty ring. -/
theorem count_after_polls {u : Uart3} (hok : u.Ok) (n : Nat) :
    (Machine.last uart3Step u (List.replicate n .poll)).rxCount ≤ u.rxCount - n := by
  induction n generalizing u with
  | zero => exact Nat.le_refl _
  | succ n ih =>
    obtain ⟨-, hrest, hok'⟩ := getLine_spec hok
    have hlen : (getLineFromUart3 u).2.rxCount ≤ u.rxCount - 1 := by
      rw [← Uart3.length_contents, ← Uart3.length_contents, hrest]
      exact Delimited.length_takeSegment _
    have h := ih hok'
    rw [List.replicate_succ, Machine.last_cons]
    exact Nat.le_trans h (by omega)

theorem ok_step {u : Uart3} (hok : u.Ok) (e : Uart3Event) : (uart3Step u e).1.Ok := by
  cases e with
  | rx data => exact Uart3.ok_irq hok data
  | poll => exact (getLine_spec hok).2.2

theorem count_le_received (u : Uart3) (hok : u.Ok) (evs : List Uart3Event) :
    (Machine.last uart3Step u evs).rxCount ≤ u.rxCount + (received evs).length := by
  induction evs generalizing u with
  | nil => exact Nat.le_add_right _ _
  | cons e evs ih =>
    have h := ih _ (ok_step hok e)
    rw [Machine.last_cons]
    cases e with
    | rx data =>
      have hcount : (usart3IrqHandler u data).rxCount ≤ u.rxCount + 1 := by
        simp only [usart3IrqHandler]; split <;> simp
      rw [received_rx, List.length_cons]
      simp only [uart3Step] at h ⊢
      omega
    | poll =>
      have hcount := count_after_polls hok 1
      rw [received_poll]
      simp only [List.replicate_one, Machine.last_cons, Machine.last_nil] at hcount
      omega

theorem drained_empty (evs : List Uart3Event) :
    (Machine.last uart3Step Uart3.initial (drained evs)).contents = [] := by
  have hok : (Machine.last uart3Step Uart3.initial evs).Ok :=
    Machine.run_invariant (I := Uart3.Ok) (fun _ e h => ok_step h e) Uart3.ok_initial evs
  have hle := count_le_received Uart3.initial Uart3.ok_initial evs
  have hdrain := count_after_polls hok (received evs).length
  rw [drained, Machine.last_append, Uart3.contents_eq_nil]
  simp only [Uart3.initial] at hle hdrain ⊢
  omega

theorem room_drained {evs : List Uart3Event} (h : NeverOverflows evs) :
    Machine.Along uart3Step RoomFor Uart3.initial (drained evs) := by
  have hpolls : ∀ (n : Nat) (u : Uart3),
      Machine.Along uart3Step RoomFor u (List.replicate n .poll) := by
    intro n
    induction n with
    | zero => exact fun _ => trivial
    | succ n ih => exact fun u => ⟨fun h => absurd rfl h, ih _⟩
  exact Machine.along_append.mpr ⟨h, hpolls _ _⟩

/-- The drained polls return the lines of the stream, and one line more for every
poll that cuts a line. -/
theorem length_lines {evs : List Uart3Event} (hc : EndsInCr (received evs))
    (ho : NeverOverflows evs) :
    (lineSequence evs).length = (linesOf (received evs)).length +
      lineCuts Uart3.initial evs ∧
      (lineCuts Uart3.initial evs = 0 → lineSequence evs = linesOf (received evs)) := by
  have h := lines_of_run Uart3.ok_initial (room_drained ho) (by rwa [received_drained])
  simp only [drained_empty, received_drained, Uart3.contents_initial, List.nil_append] at h
  rw [show linesOf [] = [] from rfl, List.append_nil] at h
  rwa [show lineCuts Uart3.initial (drained evs) = lineCuts Uart3.initial evs from
    lineCuts_append _ _ _] at h

/-- **Line framing.** The non-empty lines read are those of the byte stream, in
order, if and only if no poll cuts a line. -/
theorem line_framing_iff (evs : List Uart3Event) (hc : EndsInCr (received evs))
    (ho : NeverOverflows evs) :
    lineSequence evs = linesOf (received evs) ↔ CutsNoLine evs := by
  obtain ⟨hlen, heq⟩ := length_lines hc ho
  constructor
  · intro h
    apply lineCuts_eq_zero_iff.mp
    rw [h] at hlen
    omega
  · intro h
    exact heq (lineCuts_eq_zero_iff.mpr h)

/-- "OK" arrives with a poll between its two letters. -/
def pollInsideLine : List Uart3Event := [.rx 0x4f, .poll, .rx 0x4b, .rx cr, .rx lf]

/-- "OK" arrives, and is polled when it is complete. -/
def pollAfterLine : List Uart3Event := [.rx 0x4f, .rx 0x4b, .rx cr, .poll, .rx lf]

theorem line_framing_iff_ok :
    lineSequence pollAfterLine = linesOf (received pollAfterLine) ↔ CutsNoLine pollAfterLine :=
  line_framing_iff pollAfterLine (Delimited.closed_of_delim [0x4f, 0x4b] [lf] (by decide))
    (by decide)

/-- The two schedules bring the same bytes, and one reads the line "OK", the other
the lines "O" and "K". -/
theorem framing_depends_on_polls :
    received pollInsideLine = received pollAfterLine ∧ EndsInCr (received pollInsideLine) ∧
      NeverOverflows pollInsideLine ∧ NeverOverflows pollAfterLine ∧
      lineSequence pollAfterLine = linesOf (received pollAfterLine) ∧
      lineSequence pollInsideLine = [[0x4f], [0x4b]] ∧
      linesOf (received pollInsideLine) = [[0x4f, 0x4b]] := by
  have hc : EndsInCr (received pollInsideLine) :=
    Delimited.closed_of_delim [0x4f, 0x4b] [lf] (by decide)
  refine ⟨by decide, hc, by decide, by decide, by decide, by decide, by decide⟩

end IBoxClient
