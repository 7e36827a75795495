import IBoxClient.Uart3Queue
import IBoxClient.Uart3Irq
import IBoxClient.NetFifo

/- The receive ring of UART4 (`ibox_485.c`), the RS-485 line. It is the ring of USART3 with
   1024 bytes, and with a second counter: the handler counts the CRs it stores, and
   `get_line_from_uart4` reads only when there is one.

   The counter is redundant (`Uart4.Ok`: it is the number of CRs in the ring), so the loop
   finds the CR it relies on before the ring is empty, and the branch that gives up
   (`uart4_rx_lines` positive, `uart4_rx_count` zero) is dead. A call takes the first line
   or, without one, nothing (`getLine4_line`, `getLine4_idle`). As no call takes a part of
   a line, the calls have no say in what the lines are (`lines_of_history`): without an
   overflow the lines returned and those still in the ring are the lines of the stream.

   The handler also prints every byte it stores; the printing is left out. -/
namespace IBoxClient

abbrev uart4RxSize : Nat := 1024

/-- `uart4_rx_buf` with its write index, its counts of lines and of bytes, and its read
index. -/
structure Uart4 where
  rxBuf : Nat → UInt8
  rxWrIndex : Nat
  rxLines : Nat
  rxCount : Nat
  rxReIndex : Nat

def Uart4.initial : Uart4 := ⟨fun _ => 0, 0, 0, 0, 0⟩

/-- `UART4_IRQHandler` on a received byte (RXNE). -/
def uart4IrqHandler (u : Uart4) (data : UInt8) : Uart4 :=
  let lines := if data = cr then asUint16 (u.rxLines + 1) else u.rxLines
  let buf := Function.update u.rxBuf u.rxWrIndex data
  let wr := if u.rxWrIndex + 1 = uart4RxSize then 0 else u.rxWrIndex + 1
  -- the buffer is full: everything is dropped, this byte included
  if u.rxCount + 1 = uart4RxSize then ⟨fun _ => 0, 0, 0, 0, 0⟩
  else ⟨buf, wr, lines, u.rxCount + 1, u.rxReIndex⟩

/-- `get_char_form_uart4`, called with a non-zero count. -/
def getCharFormUart4 (u : Uart4) : UInt8 × Uart4 :=
  let data := u.rxBuf u.rxReIndex
  let re := if u.rxReIndex + 1 = uart4RxSize then 0 else u.rxReIndex + 1
  (data, { u with rxReIndex := re, rxCount := u.rxCount - 1 })

/-- Where `get_line_from_uart4` returns. -/
inductive Uart4Return where
  /-- `uart4_rx_lines` is 0. -/
  | noLine
  /-- The ring is empty although there is a line. -/
  | recovered
  | line (dataLen : Nat)
  deriving DecidableEq

def Uart4Return.value : Uart4Return → Nat
  | .noLine => 0
  | .recovered => 0
  | .line dataLen => dataLen

/-- One round of the `while (1)` of `get_line_from_uart4`. -/
def getLine4Round (g : GetLine Uart4) : (Uart4Return × GetLine Uart4) ⊕ GetLine Uart4 :=
  if g.uart.rxCount ≠ 0 then
    let r := getCharFormUart4 g.uart
    if r.1 = lf then .inr { g with uart := r.2 }
    else if r.1 = cr then
      -- `uart4_rx_lines--`
      .inl (.line g.dataLen, g.close { r.2 with rxLines := uint16Pred r.2.rxLines })
    else .inr (g.put r.2 r.1)
  else .inl (.recovered, { g with uart := { g.uart with rxLines := 0 } })

/-- `get_line_from_uart4`, its loop granted a number of rounds. -/
def getLineFromUart4 (rounds : Nat) (u : Uart4) (mem : Nat → UInt8) :
    Option (Uart4Return × GetLine Uart4) :=
  if u.rxLines = 0 then some (.noLine, .start u mem)
  else Rounds.ends getLine4Round rounds (.start u mem)

namespace Uart4

/-- The unread bytes, oldest first. -/
def contents (u : Uart4) : List UInt8 := Cyclic.slice uart4RxSize u.rxBuf u.rxReIndex u.rxCount

/-- What the ring satisfies between calls, but for the count of lines. -/
structure Ring (u : Uart4) : Prop where
  count_lt : u.rxCount < uart4RxSize
  re_lt : u.rxReIndex < uart4RxSize
  wr_eq : u.rxWrIndex = (u.rxReIndex + u.rxCount) % uart4RxSize

/-- What the ring satisfies between calls. -/
structure Ok (u : Uart4) : Prop extends Ring u where
  lines_eq : u.rxLines = u.contents.count cr

@[simp] theorem length_contents (u : Uart4) : u.contents.length = u.rxCount :=
  Cyclic.length_slice ..

theorem ok_initial : initial.Ok := ⟨⟨by decide, by decide, rfl⟩, rfl⟩

theorem Ok.lines_le {u : Uart4} (h : u.Ok) : u.rxLines ≤ u.rxCount := by
  rw [h.lines_eq, ← length_contents]
  exact List.count_le_length

theorem irq_full {u : Uart4} (hc : u.rxCount + 1 = uart4RxSize) (data : UInt8) :
    uart4IrqHandler u data = initial := by
  simp only [uart4IrqHandler, if_pos hc, initial]

/-- The handler below the limit. -/
theorem irq_eq {u : Uart4} (h : u.Ok) (hc : u.rxCount + 1 ≠ uart4RxSize) (data : UInt8) :
    uart4IrqHandler u data =
      { rxBuf := Function.update u.rxBuf ((u.rxReIndex + u.rxCount) % uart4RxSize) data
        rxWrIndex := (u.rxReIndex + (u.rxCount + 1)) % uart4RxSize
        rxLines := (u.contents ++ [data]).count cr
        rxCount := u.rxCount + 1
        rxReIndex := u.rxReIndex } := by
  have hwr : u.rxWrIndex < uart4RxSize := by
    rw [h.wr_eq]
    exact Nat.mod_lt _ (by decide)
  have hnext := Cyclic.next_eq_ite hwr
  have hlines := h.lines_le
  have hlt := h.count_lt
  have hcount : (if data = cr then asUint16 (u.rxLines + 1) else u.rxLines) =
      (u.contents ++ [data]).count cr := by
    rw [List.count_append, ← h.lines_eq]
    by_cases hd : data = cr
    · rw [if_pos hd, hd, List.count_singleton_self]
      exact Nat.mod_eq_of_lt (by unfold uart4RxSize at hlt; omega)
    · rw [if_neg hd, List.count_singleton]
      simp [hd]
  simp only [uart4IrqHandler, if_neg hc, hcount, ← hnext]
  rw [h.wr_eq, Cyclic.next_mod, Nat.add_assoc]

theorem contents_irq {u : Uart4} (h : u.Ok) (hc : u.rxCount + 1 ≠ uart4RxSize) (data : UInt8) :
    (uart4IrqHandler u data).contents = u.contents ++ [data] := by
  rw [irq_eq h hc]
  exact Cyclic.slice_push u.rxBuf data h.re_lt h.count_lt

theorem ok_irq {u : Uart4} (h : u.Ok) (data : UInt8) : (uart4IrqHandler u data).Ok := by
  by_cases hc : u.rxCount + 1 = uart4RxSize
  · rw [irq_full hc]
    exact ok_initial
  · have hlt := h.count_lt
    have hcont := contents_irq h hc data
    refine ⟨⟨?_, ?_, ?_⟩, ?_⟩
    · rw [irq_eq h hc]
      simp only
      omega
    · rw [irq_eq h hc]
      exact h.re_lt
    · rw [irq_eq h hc]
    · rw [hcont, irq_eq h hc]

/-- The front byte is taken. -/
theorem contents_getChar {u : Uart4} (h : u.Ring) (hc : u.rxCount ≠ 0) :
    u.contents = (getCharFormUart4 u).1 :: (getCharFormUart4 u).2.contents := by
  obtain ⟨k, hk⟩ := Nat.exists_eq_succ_of_ne_zero hc
  simp only [getCharFormUart4, contents, hk, Nat.succ_sub_one, ← Cyclic.next_eq_ite h.re_lt]
  rfl

theorem ring_getChar {u : Uart4} (h : u.Ring) (hc : u.rxCount ≠ 0) :
    (getCharFormUart4 u).2.Ring := by
  have hlt := h.count_lt
  refine ⟨?_, ?_, ?_⟩
  · simp only [getCharFormUart4]
    omega
  · simp only [getCharFormUart4, ← Cyclic.next_eq_ite h.re_lt]
    exact Cyclic.next_lt (by decide) _
  · simp only [getCharFormUart4, ← Cyclic.next_eq_ite h.re_lt, h.wr_eq, Cyclic.next_add]
    congr 2
    omega

theorem count_getChar {u : Uart4} (hc : u.rxCount ≠ 0) :
    (getCharFormUart4 u).2.rxCount + 1 = u.rxCount := by
  simp only [getCharFormUart4]
  omega

@[simp] theorem lines_getChar (u : Uart4) : (getCharFormUart4 u).2.rxLines = u.rxLines := rfl

end Uart4

/-! ## The loop -/

namespace GetLine

/-- The loop has stored `done`, and the line goes on with `a`, its CR and `rest`. -/
structure InLine (mem : Nat → UInt8) (done a rest : List UInt8) (g : GetLine Uart4) : Prop where
  stored : Stored mem done g
  ok : g.uart.Ok
  room : done.length + g.uart.rxCount < uart4RxSize
  contents_eq : g.uart.contents = a ++ cr :: rest
  cr_not_mem : cr ∉ a

/-- What the loop is to return there: the line is closed, and the ring left with `rest`. -/
def ReturnsLine (mem : Nat → UInt8) (done a rest : List UInt8) (b : Uart4Return × GetLine Uart4) :
    Prop :=
  b.1 = .line (done ++ a.filter notLf).length ∧ b.2.uart.Ok ∧ b.2.uart.contents = rest ∧
    b.2.mem = Memory.write mem 0 (done ++ a.filter notLf ++ [0])

variable {mem : Nat → UInt8} {done a rest : List UInt8} {g : GetLine Uart4}

/-- There is a CR in the ring: it is not empty. -/
theorem InLine.count_ne_zero (h : InLine mem done a rest g) : g.uart.rxCount ≠ 0 := by
  intro hc
  have hlen := congrArg List.length h.contents_eq
  rw [Uart4.length_contents, hc, List.length_append, List.length_cons] at hlen
  omega

/-- A byte that is no CR is taken: the line goes on behind it. -/
theorem InLine.ok_getChar (h : InLine mem done a rest g)
    (hne : (getCharFormUart4 g.uart).1 ≠ cr) : (getCharFormUart4 g.uart).2.Ok := by
  have hcons := Uart4.contents_getChar h.ok.toRing h.count_ne_zero
  refine ⟨Uart4.ring_getChar h.ok.toRing h.count_ne_zero, ?_⟩
  rw [Uart4.lines_getChar, h.ok.lines_eq, hcons, List.count_cons]
  simp [hne]

theorem InLine.tail (h : InLine mem done a rest g) (hne : (getCharFormUart4 g.uart).1 ≠ cr) :
    ∃ a', a = (getCharFormUart4 g.uart).1 :: a' ∧
      (getCharFormUart4 g.uart).2.contents = a' ++ cr :: rest ∧ cr ∉ a' := by
  have hcons := Uart4.contents_getChar h.ok.toRing h.count_ne_zero
  rw [h.contents_eq] at hcons
  cases a with
  | nil => exact absurd (List.cons.inj hcons).1.symm hne
  | cons c a' =>
    obtain ⟨hc, htail⟩ := List.cons.inj hcons
    exact ⟨a', by rw [hc], htail.symm, fun hmem => h.cr_not_mem (List.mem_cons_of_mem c hmem)⟩

/-- The byte is the CR that closes the line. -/
theorem InLine.close (h : InLine mem done a rest g) (hcr : (getCharFormUart4 g.uart).1 = cr) :
    ∃ b, getLine4Round g = .inl b ∧ ReturnsLine mem done a rest b := by
  have hc := h.count_ne_zero
  have hcons := Uart4.contents_getChar h.ok.toRing hc
  rw [h.contents_eq] at hcons
  have hring := Uart4.ring_getChar h.ok.toRing hc
  cases a with
  | cons c a' =>
    have hmem : cr ∈ c :: a' := by
      rw [(List.cons.inj hcons).1, hcr]
      exact List.mem_cons_self
    exact absurd hmem h.cr_not_mem
  | nil =>
    have hrest : rest = (getCharFormUart4 g.uart).2.contents := (List.cons.inj hcons).2
    have hlines : g.uart.rxLines = rest.count cr + 1 := by
      rw [h.ok.lines_eq, h.contents_eq, List.nil_append, List.count_cons_self]
    refine ⟨(.line g.dataLen, g.close { (getCharFormUart4 g.uart).2 with
      rxLines := uint16Pred (getCharFormUart4 g.uart).2.rxLines }), ?_, ?_, ?_, ?_, ?_⟩
    · simp only [getLine4Round, hc, ne_eq, not_false_iff, if_true, hcr, cr_ne_lf, if_false]
    · simp only [List.filter_nil, List.append_nil, h.stored.dataLen_eq]
    · refine ⟨⟨hring.count_lt, hring.re_lt, hring.wr_eq⟩, ?_⟩
      show uint16Pred (getCharFormUart4 g.uart).2.rxLines =
        (getCharFormUart4 g.uart).2.contents.count cr
      rw [Uart4.lines_getChar, ← hrest, hlines, uint16Pred, if_neg (Nat.succ_ne_zero _),
        Nat.add_sub_cancel]
    · exact hrest.symm
    · simp only [List.filter_nil, List.append_nil]
      exact h.stored.mem_close _

/-- A round takes a byte of the line, or closes it. -/
theorem InLine.round (h : InLine mem done a rest g) :
    (∃ b, getLine4Round g = .inl b ∧ ReturnsLine mem done a rest b) ∨
      ∃ g' done' a', getLine4Round g = .inr g' ∧ InLine mem done' a' rest g' ∧
        g'.uart.rxCount < g.uart.rxCount ∧
        done' ++ a'.filter notLf = done ++ a.filter notLf := by
  have hc := h.count_ne_zero
  have hcount := Uart4.count_getChar hc
  have hroom := h.room
  unfold uart4RxSize at hroom
  by_cases hcr : (getCharFormUart4 g.uart).1 = cr
  · exact .inl (h.close hcr)
  · right
    obtain ⟨a', ha, hcont, hnot⟩ := h.tail hcr
    have hok := h.ok_getChar hcr
    by_cases hlf : (getCharFormUart4 g.uart).1 = lf
    · refine ⟨{ g with uart := (getCharFormUart4 g.uart).2 }, done, a', ?_, ?_, ?_, ?_⟩
      · simp only [getLine4Round, hc, ne_eq, not_false_iff, if_true, hlf]
      · refine ⟨h.stored.skip _, hok, ?_, hcont, hnot⟩
        simp only [uart4RxSize]
        omega
      · simp only
        omega
      · rw [ha, hlf]
        simp
    · refine ⟨g.put (getCharFormUart4 g.uart).2 (getCharFormUart4 g.uart).1,
        done ++ [(getCharFormUart4 g.uart).1], a', ?_, ?_, ?_, ?_⟩
      · simp only [getLine4Round, hc, ne_eq, not_false_iff, if_true, hlf, if_false, hcr]
      · refine ⟨h.stored.put _ _ (by omega), hok, ?_, hcont, hnot⟩
        simp only [GetLine.put, List.length_append, List.length_singleton, uart4RxSize]
        omega
      · simp only [GetLine.put]
        omega
      · rw [ha, List.filter_cons_of_pos (by simpa using hlf), List.append_assoc]
        rfl

end GetLine

/-- A call with no line in the ring returns 0 and changes nothing. -/
theorem getLine4_idle {u : Uart4} (h : u.Ok) (hcr : cr ∉ u.contents) (mem : Nat → UInt8)
    (rounds : Nat) : getLineFromUart4 rounds u mem = some (.noLine, .start u mem) := by
  have hlines : u.rxLines = 0 := by
    rw [h.lines_eq]
    exact List.count_eq_zero.mpr hcr
  rw [getLineFromUart4, if_pos hlines]

/-- **A call with a line.** It returns the bytes before the first CR, but for the LFs, and
leaves exactly those behind it. -/
theorem getLine4_line {u : Uart4} (h : u.Ok) {a rest : List UInt8}
    (hcont : u.contents = a ++ cr :: rest) (hcr : cr ∉ a) (mem : Nat → UInt8) :
    ∃ g, getLineFromUart4 (u.rxCount + 1) u mem = some (.line (a.filter notLf).length, g) ∧
      g.uart.Ok ∧ g.uart.contents = rest ∧
      g.mem = Memory.write mem 0 (a.filter notLf ++ [0]) := by
  have hlines : u.rxLines ≠ 0 := by
    rw [h.lines_eq, hcont, List.count_append, List.count_cons_self]
    omega
  have hstart : GetLine.InLine mem [] a rest (.start u mem) :=
    ⟨GetLine.stored_start u mem, h, by simpa [GetLine.start] using h.count_lt, hcont, hcr⟩
  have hround : ∀ g : GetLine Uart4,
      (∃ done a', GetLine.InLine mem done a' rest g ∧ done ++ a'.filter notLf = a.filter notLf) →
      (∃ b, getLine4Round g = .inl b ∧ GetLine.ReturnsLine mem [] a rest b) ∨
        ∃ g', getLine4Round g = .inr g' ∧
          (∃ done a', GetLine.InLine mem done a' rest g' ∧
            done ++ a'.filter notLf = a.filter notLf) ∧
          g'.uart.rxCount < g.uart.rxCount ∧
          ∀ b, GetLine.ReturnsLine mem [] a rest b → GetLine.ReturnsLine mem [] a rest b := by
    intro g hg
    obtain ⟨done, a', hin, htext⟩ := hg
    rcases hin.round with ⟨b, hb, hret⟩ | ⟨g', done', a'', hg', hin', hlt, htext'⟩
    · left
      refine ⟨b, hb, ?_⟩
      unfold GetLine.ReturnsLine at hret ⊢
      rwa [htext] at hret
    · exact .inr ⟨g', hg', ⟨done', a'', hin', htext'.trans htext⟩, hlt, fun b hb => hb⟩
  obtain ⟨⟨r, g⟩, hends, hret⟩ := Rounds.ends_of_rank (fun g : GetLine Uart4 => g.uart.rxCount)
    hround ⟨[], a, hstart, rfl⟩
  obtain ⟨hr, hok, hrest, hmem⟩ := hret
  simp only [List.nil_append] at hr hmem
  refine ⟨g, ?_, hok, hrest, hmem⟩
  rw [getLineFromUart4, if_neg hlines, ← hr]
  exact hends

/-! ## Histories -/

inductive Uart4Event where
  /-- The handler runs on a byte. -/
  | irq (data : UInt8)
  /-- A call with the caller's memory at `buf`. -/
  | getLine (mem : Nat → UInt8)

/-- What a call does: it returns, with the bytes before the NUL, or its loop goes on. -/
inductive Uart4Out where
  | returned (r : Uart4Return) (bytes : List UInt8)
  | spins
  deriving DecidableEq

def uart4Step (u : Uart4) : Uart4Event → Uart4 × List Uart4Out
  | .irq data => (uart4IrqHandler u data, [])
  | .getLine mem =>
    match getLineFromUart4 (u.rxCount + 1) u mem with
    | some (r, g) => (g.uart, [.returned r ((List.range r.value).map g.mem)])
    | none => (u, [.spins])

def uart4After (evs : List Uart4Event) : Uart4 := Machine.last uart4Step .initial evs

def receivedByte : Uart4Event → Option UInt8
  | .irq data => some data
  | .getLine _ => none

def returnedLine : Uart4Out → Option (List UInt8)
  | .returned (.line _) bytes => some bytes
  | _ => none

/-- The bytes the handler has run on. -/
def uart4Received (evs : List Uart4Event) : List UInt8 := evs.filterMap receivedByte

/-- The lines the calls have returned. -/
def uart4Lines (evs : List Uart4Event) : List (List UInt8) :=
  (Machine.out uart4Step .initial evs).filterMap returnedLine

/-- The lines of a text, each closed by a CR, without their LFs. -/
def crLines (text : List UInt8) : List (List UInt8) := Delimited.segments cr notLf [] text

/-- The byte does not fill the ring. -/
def Uart4Fits (u : Uart4) : Uart4Event → Prop
  | .irq _ => u.rxCount + 1 ≠ uart4RxSize
  | .getLine _ => True

def Uart4NeverOverflows (evs : List Uart4Event) : Prop :=
  Machine.Along uart4Step Uart4Fits .initial evs

theorem step_idle {u : Uart4} (h : u.Ok) (hcr : cr ∉ u.contents) (mem : Nat → UInt8) :
    uart4Step u (.getLine mem) = (u, [.returned .noLine []]) := by
  simp only [uart4Step, getLine4_idle h hcr mem]
  rfl

theorem step_line {u : Uart4} (h : u.Ok) {a rest : List UInt8}
    (hcont : u.contents = a ++ cr :: rest) (hcr : cr ∉ a) (mem : Nat → UInt8) :
    ∃ u', uart4Step u (.getLine mem) =
        (u', [.returned (.line (a.filter notLf).length) (a.filter notLf)]) ∧
      u'.Ok ∧ u'.contents = rest := by
  obtain ⟨g, hg, hok, hrest, hmem⟩ := getLine4_line h hcont hcr mem
  refine ⟨g.uart, ?_, hok, hrest⟩
  simp only [uart4Step, hg, hmem, Uart4Return.value, Memory.read_front]

/-- A call finds a line, or it is idle. -/
theorem line_or_idle (u : Uart4) :
    cr ∉ u.contents ∨ ∃ a rest, u.contents = a ++ cr :: rest ∧ cr ∉ a := by
  by_cases hcr : cr ∈ u.contents
  · obtain ⟨rest, hcont, hnot⟩ := Delimited.split_at_delim hcr
    exact .inr ⟨_, rest, hcont, hnot⟩
  · exact .inl hcr

theorem ok_uart4Step (u : Uart4) (e : Uart4Event) (h : u.Ok) : (uart4Step u e).1.Ok := by
  cases e with
  | irq data => exact Uart4.ok_irq h data
  | getLine mem =>
    rcases line_or_idle u with hcr | ⟨a, rest, hcont, hcr⟩
    · rw [step_idle h hcr]
      exact h
    · obtain ⟨u', hu', hok, -⟩ := step_line h hcont hcr mem
      rw [hu']
      exact hok

theorem ok_uart4After (evs : List Uart4Event) : (uart4After evs).Ok :=
  Machine.run_invariant ok_uart4Step Uart4.ok_initial evs

/-- No call takes the branch that gives up, and every call returns. -/
theorem calls_return {u : Uart4} (h : u.Ok) (evs : List Uart4Event) :
    ∀ o ∈ Machine.out uart4Step u evs, ∃ r bytes, o = .returned r bytes ∧ r ≠ .recovered := by
  induction evs generalizing u with
  | nil =>
    intro o ho
    exact absurd ho (by simp)
  | cons e evs ih =>
    intro o ho
    rw [Machine.out_cons, List.mem_append] at ho
    rcases ho with ho | ho
    · cases e with
      | irq data => exact absurd ho (by simp [uart4Step])
      | getLine mem =>
        rcases line_or_idle u with hcr | ⟨a, rest, hcont, hcr⟩
        · rw [step_idle h hcr] at ho
          exact ⟨_, _, List.mem_singleton.mp ho, by decide⟩
        · obtain ⟨u', hu', -, -⟩ := step_line h hcont hcr mem
          rw [hu'] at ho
          exact ⟨_, _, List.mem_singleton.mp ho, by simp⟩
    · exact ih (ok_uart4Step u e h) o ho

theorem crLines_line {a : List UInt8} (h : cr ∉ a) (rest : List UInt8) :
    crLines (a ++ cr :: rest) = a.filter notLf :: crLines rest := by
  rw [crLines, Delimited.segments_segment h, List.nil_append, crLines]

/-- **Lines.** Those returned, and those still in the ring, are the lines of the stream. -/
theorem lines_of_history {u : Uart4} (h : u.Ok) {evs : List Uart4Event}
    (hfits : Machine.Along uart4Step Uart4Fits u evs) :
    (Machine.out uart4Step u evs).filterMap returnedLine ++
        crLines (Machine.last uart4Step u evs).contents =
      crLines (u.contents ++ uart4Received evs) := by
  induction evs generalizing u with
  | nil => simp [uart4Received]
  | cons e evs ih =>
    have hrest := ih (ok_uart4Step u e h) hfits.2
    rw [Machine.out_cons, Machine.last_cons, List.filterMap_append, List.append_assoc, hrest]
    cases e with
    | irq data =>
      have hcont := Uart4.contents_irq h hfits.1 data
      have happ : (uart4Step u (.irq data)).1.contents = u.contents ++ [data] := hcont
      rw [happ, List.append_assoc]
      rfl
    | getLine mem =>
      have hreceived : uart4Received (.getLine mem :: evs) = uart4Received evs := rfl
      rw [hreceived]
      rcases line_or_idle u with hcr | ⟨a, rest, hcont, hcr⟩
      · rw [step_idle h hcr]
        rfl
      · obtain ⟨u', hu', -, hrest'⟩ := step_line h hcont hcr mem
        rw [hu', hcont, List.append_assoc, List.cons_append, crLines_line hcr, ← hrest']
        rfl

/-- The lines returned are the first lines of the stream, whenever the calls are made. -/
theorem lines_prefix {evs : List Uart4Event} (h : Uart4NeverOverflows evs) :
    uart4Lines evs ++ crLines (uart4After evs).contents = crLines (uart4Received evs) :=
  lines_of_history Uart4.ok_initial h

/-- **Line reception.** After any bytes and calls: the counters count the CRs and the bytes in
the ring; every call has returned, and not through the branch that gives up; the next call
takes the first line if there is one, and does nothing if not; and as long as the ring has not
overflowed, two histories of the same bytes return the same lines, however many. -/
theorem rs485_lines (evs : List Uart4Event) :
    let u := uart4After evs
    (u.rxLines = u.contents.count cr ∧ u.rxCount = u.contents.length ∧ u.rxCount < 1024) ∧
      (∀ o ∈ Machine.out uart4Step .initial evs,
        ∃ r bytes, o = .returned r bytes ∧ r ≠ .recovered) ∧
      (∀ mem a rest, u.contents = a ++ cr :: rest → cr ∉ a →
        ∃ n g, getLineFromUart4 (u.rxCount + 1) u mem = some (.line n, g) ∧
          n = (a.filter notLf).length ∧ g.uart.contents = rest ∧
          (∀ i < n, (a.filter notLf)[i]? = some (g.mem i)) ∧ ∀ i, n < i → g.mem i = mem i) ∧
      (∀ mem, cr ∉ u.contents →
        getLineFromUart4 (u.rxCount + 1) u mem = some (.noLine, .start u mem)) ∧
      (Uart4NeverOverflows evs →
        uart4Lines evs ++ crLines u.contents = crLines (uart4Received evs)) ∧
      ∀ evs', Uart4NeverOverflows evs → Uart4NeverOverflows evs' →
        uart4Received evs = uart4Received evs' →
        uart4Lines evs <+: uart4Lines evs' ∨ uart4Lines evs' <+: uart4Lines evs := by
  have hok := ok_uart4After evs
  refine ⟨⟨hok.lines_eq, (Uart4.length_contents _).symm, hok.count_lt⟩,
    calls_return Uart4.ok_initial evs, ?_, fun mem hcr => getLine4_idle hok hcr mem _,
    lines_prefix, ?_⟩
  · intro mem a rest hcont hcr
    obtain ⟨g, hg, -, hrest, hmem⟩ := getLine4_line hok hcont hcr mem
    refine ⟨_, g, hg, rfl, hrest, ?_, ?_⟩
    · intro i hi
      rw [hmem]
      exact write_line_at hi
    · intro i hi
      rw [hmem]
      exact write_line_behind hi
  · intro evs' h h' hreceived
    have hall := lines_prefix h
    have hall' := lines_prefix h'
    rw [hreceived] at hall
    exact List.prefix_or_prefix_of_prefix ⟨_, hall⟩ ⟨_, hall'⟩

end IBoxClient
