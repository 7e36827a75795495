import IBoxClient.Uart3
import IBoxClient.Lib.Simulation
import IBoxClient.Lib.Rounds
import IBoxClient.Lib.Memory

/- What the ring of USART3 is: a queue of at most 1459 bytes.

   The queue says it without a ring: a received byte is appended, or, as the 1460th,
   takes everything with it; `get_char_form_uart3` takes the oldest byte;
   `get_line_from_uart3` takes the bytes up to the first CR and hands out those that are
   neither CR nor LF; `uart3_rx_buf_clear` drops all. The ring simulates it
   (`ring_simulates_queue`), so both hand out the same bytes and lines in every sequence of
   calls.

   `get_line_from_uart3` is a loop without a bound in the code, and it stores at a pointer it
   is given. Here its rounds run one by one on the ring and on the caller's buffer, and
   `getLine_ends` says that they come to an end and what the buffer then holds. -/
namespace IBoxClient

/-! ## The loop of `get_line_from_uart3` -/

/-- The ring of a serial line, the memory at `buf`, how far `buf` has been moved on, and
`data_len`. -/
structure GetLine (ρ : Type) where
  uart : ρ
  mem : Nat → UInt8
  buf : Nat
  dataLen : Nat

namespace GetLine

variable {ρ : Type}

def start (u : ρ) (mem : Nat → UInt8) : GetLine ρ := ⟨u, mem, 0, 0⟩

/-- `*buf = data; buf++; data_len++`, with the ring after the byte has been taken. -/
def put (g : GetLine ρ) (u : ρ) (data : UInt8) : GetLine ρ :=
  { uart := u, mem := Function.update g.mem g.buf data, buf := g.buf + 1,
    dataLen := (g.dataLen + 1) % 65536 }

/-- `*buf = '\0'`. -/
def close (g : GetLine ρ) (u : ρ) : GetLine ρ :=
  { g with uart := u, mem := Function.update g.mem g.buf 0 }

/-- The loop has stored `done` in `mem`. -/
structure Stored (mem : Nat → UInt8) (done : List UInt8) (g : GetLine ρ) : Prop where
  mem_eq : g.mem = Memory.write mem 0 done
  buf_eq : g.buf = done.length
  dataLen_eq : g.dataLen = done.length

variable {mem : Nat → UInt8} {done : List UInt8} {g : GetLine ρ}

theorem stored_start (u : ρ) (mem : Nat → UInt8) : Stored mem [] (start u mem) := ⟨rfl, rfl, rfl⟩

theorem Stored.skip (h : Stored mem done g) (u : ρ) : Stored mem done { g with uart := u } :=
  ⟨h.mem_eq, h.buf_eq, h.dataLen_eq⟩

theorem Stored.put (h : Stored mem done g) (u : ρ) (data : UInt8) (hlen : done.length < 65535) :
    Stored mem (done ++ [data]) (g.put u data) := by
  have hsnoc : (done ++ [data]).length = done.length + 1 := by simp
  refine ⟨?_, ?_, ?_⟩
  · simp only [GetLine.put, h.mem_eq, h.buf_eq, Memory.write_snoc]
  · simp only [GetLine.put, h.buf_eq, hsnoc]
  · simp only [GetLine.put, h.dataLen_eq, hsnoc]
    omega

theorem Stored.mem_close (h : Stored mem done g) (u : ρ) :
    (g.close u).mem = Memory.write mem 0 (done ++ [0]) := by
  simp only [close, h.mem_eq, h.buf_eq, Memory.write_snoc]

end GetLine

/-- What the memory holds from `i` on where `line` and a NUL have been stored from 0 on. -/
theorem write_line_at {mem : Nat → UInt8} {text : List UInt8} {i : Nat} (hi : i < text.length) :
    text[i]? = some (Memory.write mem 0 (text ++ [0]) i) := by
  have hlt : i < (text ++ [0]).length := by
    rw [List.length_append]
    omega
  have hat := Memory.write_at mem 0 hlt
  rw [Nat.zero_add] at hat
  rw [hat, List.getElem_append_left hi]
  exact List.getElem?_eq_getElem hi

theorem write_line_behind {mem : Nat → UInt8} {line : List UInt8} {i : Nat}
    (hi : line.length < i) : Memory.write mem 0 (line ++ [0]) i = mem i := by
  apply Memory.write_after
  simp only [List.length_append, List.length_singleton]
  omega

/-- One round of the `while (1)` of `get_line_from_uart3`. -/
def getLineRound (g : GetLine Uart3) : (Nat × GetLine Uart3) ⊕ GetLine Uart3 :=
  if g.uart.rxCount ≠ 0 then
    let r := getCharFormUart3 g.uart
    if r.1 = lf then .inr { g with uart := r.2 }
    else if r.1 = cr then .inl (g.dataLen, g.close r.2)
    else .inr (g.put r.2 r.1)
  -- `buf = NULL` sets the local pointer only
  else if g.dataLen = 0 then .inl (0, g)
  else .inl (g.dataLen, g.close g.uart)

/-- The memory behind a line at `mem[0]`: the line, and a NUL behind it, unless nothing at
all has been taken. -/
def storedLine (mem : Nat → UInt8) (q line : List UInt8) : Nat → UInt8 :=
  if cr ∉ q ∧ line = [] then mem else Memory.write mem 0 (line ++ [0])

theorem storedLine_congr (mem : Nat → UInt8) {q q' line : List UInt8} (h : cr ∈ q ↔ cr ∈ q') :
    storedLine mem q line = storedLine mem q' line := by
  simp only [storedLine, h]

theorem storedLine_at {mem : Nat → UInt8} {q text : List UInt8} {i : Nat} (hi : i < text.length) :
    text[i]? = some (storedLine mem q text i) := by
  have hne : text ≠ [] := List.ne_nil_of_length_pos (by omega)
  rw [storedLine, if_neg (fun h => hne h.2)]
  exact write_line_at hi

theorem storedLine_behind {mem : Nat → UInt8} {q line : List UInt8} {i : Nat}
    (hi : line.length < i) : storedLine mem q line i = mem i := by
  unfold storedLine
  split
  · rfl
  · exact write_line_behind hi

theorem cr_ne_lf : cr ≠ lf := by decide

theorem count_getChar {u : Uart3} (hc : u.rxCount ≠ 0) :
    (getCharFormUart3 u).2.rxCount + 1 = u.rxCount := by
  simp only [getCharFormUart3]
  omega

namespace GetLine

variable {mem : Nat → UInt8} {done : List UInt8} {g : GetLine Uart3}

/-- The loop has stored `done`, and what is left in the ring is counted by 16 bits. -/
structure InLoop (mem : Nat → UInt8) (done : List UInt8) (g : GetLine Uart3) : Prop where
  stored : Stored mem done g
  room : done.length + g.uart.rxCount < uart3RxSize
  ok : g.uart.Ok

/-- An LF is taken, and nothing stored. -/
theorem InLoop.skip (h : InLoop mem done g) (hc : g.uart.rxCount ≠ 0) :
    InLoop mem done { g with uart := (getCharFormUart3 g.uart).2 } := by
  have hcount := count_getChar hc
  have hroom := h.room
  exact ⟨h.stored.skip _, by simp only; omega, Uart3.ok_getChar h.ok hc⟩

/-- A byte of the line is taken and stored. -/
theorem InLoop.put (h : InLoop mem done g) (hc : g.uart.rxCount ≠ 0) :
    InLoop mem (done ++ [(getCharFormUart3 g.uart).1])
      (g.put (getCharFormUart3 g.uart).2 (getCharFormUart3 g.uart).1) := by
  have hcount := count_getChar hc
  have hroom := h.room
  unfold uart3RxSize at hroom
  refine ⟨h.stored.put _ _ (by omega), ?_, Uart3.ok_getChar h.ok hc⟩
  simp only [GetLine.put, List.length_append, List.length_singleton, uart3RxSize]
  omega

/-- What the loop is to return: what `get_line_from_uart3` takes from the ring, behind `done`,
stored in the caller's buffer and closed by a NUL. -/
def Returns (mem : Nat → UInt8) (g : GetLine Uart3) (b : Nat × GetLine Uart3) : Prop :=
  ∀ done rounds, InLoop mem done g → g.uart.rxCount ≤ rounds →
    b.1 = (getLineLoop rounds g.uart done).1.length ∧
      b.2.uart = (getLineLoop rounds g.uart done).2 ∧
      b.2.mem = storedLine mem g.uart.contents (getLineLoop rounds g.uart done).1

theorem getLineLoop_empty {u : Uart3} (hc : u.rxCount = 0) (rounds : Nat) (done : List UInt8) :
    getLineLoop rounds u done = (done, u) := by
  cases rounds with
  | zero => rfl
  | succ rounds => rw [getLineLoop, if_neg (by omega)]

/-- The ring is empty: the line ends without a CR. -/
theorem round_empty (hc : g.uart.rxCount = 0) :
    ∃ b, getLineRound g = .inl b ∧ Returns mem g b := by
  have hnil : g.uart.contents = [] := Uart3.contents_eq_nil.mpr hc
  by_cases hlen : g.dataLen = 0
  · refine ⟨(0, g), ?_, ?_⟩
    · simp only [getLineRound, hc, ne_eq, not_true, if_false, hlen, if_true]
    · intro done rounds h hr
      have hdone : done = [] := List.length_eq_zero_iff.mp (h.stored.dataLen_eq ▸ hlen)
      rw [getLineLoop_empty hc, hnil, hdone]
      refine ⟨rfl, rfl, ?_⟩
      simpa [storedLine, hdone] using h.stored.mem_eq
  · refine ⟨(g.dataLen, g.close g.uart), ?_, ?_⟩
    · simp only [getLineRound, hc, ne_eq, not_true, if_false, hlen]
    · intro done rounds h hr
      have hdone : done ≠ [] := by
        intro he
        exact hlen (by rw [h.stored.dataLen_eq, he]; rfl)
      rw [getLineLoop_empty hc, hnil]
      refine ⟨h.stored.dataLen_eq, rfl, ?_⟩
      rw [storedLine, if_neg (fun h => hdone h.2)]
      exact h.stored.mem_close _

/-- A byte is taken: the line ends with it, or the loop goes on. -/
theorem round_byte (hs : InLoop mem done g) (hc : g.uart.rxCount ≠ 0) :
    (∃ b, getLineRound g = .inl b ∧ Returns mem g b) ∨
      ∃ g', getLineRound g = .inr g' ∧ (∃ done', InLoop mem done' g') ∧
        g'.uart.rxCount < g.uart.rxCount ∧ ∀ b, Returns mem g' b → Returns mem g b := by
  have hcount := count_getChar hc
  have hcons := Uart3.contents_getChar hs.ok hc
  by_cases hlf : (getCharFormUart3 g.uart).1 = lf
  · right
    refine ⟨{ g with uart := (getCharFormUart3 g.uart).2 }, ?_, ⟨done, hs.skip hc⟩, ?_, ?_⟩
    · simp only [getLineRound, hc, ne_eq, not_false_iff, if_true, hlf]
    · simp only
      omega
    · intro b hb done' rounds h hr
      obtain ⟨rounds, rfl⟩ : ∃ k, rounds = k + 1 := ⟨rounds - 1, by omega⟩
      have hrest := hb done' rounds (h.skip hc) (by simp only; omega)
      have hcr : cr ∈ g.uart.contents ↔ cr ∈ (getCharFormUart3 g.uart).2.contents := by
        rw [hcons, List.mem_cons, hlf]
        simp [cr_ne_lf]
      simp only [getLineLoop, hc, ne_eq, not_false_iff, if_true, hlf, storedLine_congr mem hcr]
      exact hrest
  · by_cases hcr : (getCharFormUart3 g.uart).1 = cr
    · left
      refine ⟨(g.dataLen, g.close (getCharFormUart3 g.uart).2), ?_, ?_⟩
      · simp only [getLineRound, hc, ne_eq, not_false_iff, if_true, hcr, cr_ne_lf, if_false]
      · intro done' rounds h hr
        obtain ⟨rounds, rfl⟩ : ∃ k, rounds = k + 1 := ⟨rounds - 1, by omega⟩
        have hmem : cr ∈ g.uart.contents := by
          rw [hcons, hcr]
          exact List.mem_cons_self
        simp only [getLineLoop, hc, ne_eq, not_false_iff, if_true, hcr, cr_ne_lf, if_false]
        refine ⟨h.stored.dataLen_eq, rfl, ?_⟩
        rw [storedLine, if_neg (fun h => h.1 hmem)]
        exact h.stored.mem_close _
    · right
      refine ⟨_, ?_, ⟨_, hs.put hc⟩, ?_, ?_⟩
      · simp only [getLineRound, hc, ne_eq, not_false_iff, if_true, hlf, if_false, hcr]
      · simp only [GetLine.put]
        omega
      · intro b hb done' rounds h hr
        obtain ⟨rounds, rfl⟩ : ∃ k, rounds = k + 1 := ⟨rounds - 1, by omega⟩
        have hrest := hb _ rounds (h.put hc) (by simp only [GetLine.put]; omega)
        have hcr' : cr ∈ g.uart.contents ↔ cr ∈ (getCharFormUart3 g.uart).2.contents := by
          rw [hcons, List.mem_cons]
          simp [Ne.symm hcr]
        simp only [getLineLoop, hc, ne_eq, not_false_iff, if_true, hlf, if_false, hcr,
          storedLine_congr mem hcr']
        exact hrest

end GetLine

/-- **The loop ends.** `get_line_from_uart3` returns; the ring is left as `getLineFromUart3`
leaves it, and the line it takes is stored in the caller's buffer. -/
theorem getLine_ends {u : Uart3} (h : u.Ok) (mem : Nat → UInt8) :
    ∃ g, Rounds.Ends getLineRound (.start u mem) ((getLineFromUart3 u).1.length, g) ∧
      g.uart = (getLineFromUart3 u).2 ∧
      g.mem = storedLine mem u.contents (getLineFromUart3 u).1 := by
  have hrounds : ∀ g : GetLine Uart3, (∃ done, GetLine.InLoop mem done g) →
      (∃ b, getLineRound g = .inl b ∧ GetLine.Returns mem g b) ∨
        ∃ g', getLineRound g = .inr g' ∧ (∃ done, GetLine.InLoop mem done g') ∧
          g'.uart.rxCount < g.uart.rxCount ∧
          ∀ b, GetLine.Returns mem g' b → GetLine.Returns mem g b := by
    intro g hg
    obtain ⟨done, hs⟩ := hg
    by_cases hc : g.uart.rxCount = 0
    · exact .inl (GetLine.round_empty hc)
    · exact GetLine.round_byte hs hc
  have hstart : GetLine.InLoop mem [] (.start u mem) :=
    ⟨GetLine.stored_start u mem, by simpa [GetLine.start] using h.count_lt, h⟩
  obtain ⟨⟨n, g⟩, hends, hret⟩ :=
    Rounds.ends_of_rank (fun g : GetLine Uart3 => g.uart.rxCount) hrounds ⟨[], hstart⟩
  obtain ⟨hn, hu, hm⟩ := hret [] u.rxCount hstart (Nat.le_refl _)
  have hn' : n = (getLineFromUart3 u).1.length := hn
  exact ⟨g, ⟨_, by rw [hends, hn']⟩, hu, hm⟩

/-! ## The queue -/

inductive Uart3Op where
  /-- The handler runs on a byte. -/
  | irq (data : UInt8)
  | getChar
  | getLine
  | clear
  deriving DecidableEq

/-- What a call hands out. -/
inductive Uart3Out where
  | char (data : UInt8)
  | line (bytes : List UInt8)
  deriving DecidableEq

/-- An operation on the ring. `get_char_form_uart3` waits while the ring is empty: there it
is no step. -/
def uart3OpStep (u : Uart3) : Uart3Op → Uart3 × List Uart3Out
  | .irq data => (usart3IrqHandler u data, [])
  | .getChar =>
    if u.rxCount = 0 then (u, [])
    else ((getCharFormUart3 u).2, [.char (getCharFormUart3 u).1])
  | .getLine => ((getLineFromUart3 u).2, [.line (getLineFromUart3 u).1])
  | .clear => (uart3RxBufClear u, [])

/-- The bytes up to the first CR and with it, or all there are. -/
def consumed (q : List UInt8) : List UInt8 :=
  if cr ∈ q then q.takeWhile (· ≠ cr) ++ [cr] else q

/-- Of these the text of the line, without CR and LF. -/
def lineText (q : List UInt8) : List UInt8 := (consumed q).filter fun b => b ≠ cr ∧ b ≠ lf

/-- An operation on a queue of at most 1459 bytes. -/
def queueStep (q : List UInt8) : Uart3Op → List UInt8 × List Uart3Out
  | .irq data => (if q.length = uart3RxSize - 1 then [] else q ++ [data], [])
  | .getChar =>
    match q with
    | [] => ([], [])
    | data :: rest => (rest, [.char data])
  | .getLine => (q.drop (consumed q).length, [.line (lineText q)])
  | .clear => ([], [])

theorem takeSegment_eq_consumed (q : List UInt8) :
    Delimited.takeSegment cr notLf q = (lineText q, q.drop (consumed q).length) := by
  have hfilter : ∀ l : List UInt8, cr ∉ l →
      l.filter (fun b => b ≠ cr ∧ b ≠ lf) = l.filter notLf := by
    intro l hl
    apply List.filter_congr
    intro b hb
    have hne : b ≠ cr := fun h => hl (h ▸ hb)
    simp [hne]
  by_cases hq : cr ∈ q
  · obtain ⟨rest, hsplit, hnot⟩ := Delimited.split_at_delim hq
    have hq' : q = (q.takeWhile (· ≠ cr) ++ [cr]) ++ rest := by
      rw [List.append_assoc]
      exact hsplit
    have hdrop : q.drop (q.takeWhile (· ≠ cr) ++ [cr]).length = rest := by
      have hle := congrArg (List.drop (q.takeWhile (· ≠ cr) ++ [cr]).length) hq'
      rwa [List.drop_left] at hle
    have htake : Delimited.takeSegment cr notLf q =
        ((q.takeWhile (· ≠ cr)).filter notLf, rest) := by
      conv_lhs => rw [hsplit]
      exact Delimited.takeSegment_segment hnot rest
    rw [lineText, consumed, if_pos hq, htake, hdrop, List.filter_append, hfilter _ hnot]
    simp
  · rw [lineText, consumed, if_neg hq, Delimited.takeSegment_of_not_mem hq, hfilter q hq, List.drop_length]

/-- The ring holds what the queue holds. -/
def Holds (u : Uart3) (q : List UInt8) : Prop := u.Ok ∧ u.contents = q

theorem Holds.count_eq {u : Uart3} {q : List UInt8} (h : Holds u q) : u.rxCount = q.length := by
  rw [← h.2, Uart3.length_contents]

theorem holds_irq {u : Uart3} {q : List UInt8} (h : Holds u q) (data : UInt8) :
    Holds (usart3IrqHandler u data) (queueStep q (.irq data)).1 := by
  have hcount := h.count_eq
  obtain ⟨hok, rfl⟩ := h
  have hlt := hok.count_lt
  refine ⟨Uart3.ok_irq hok data, ?_⟩
  by_cases hfull : u.rxCount + 1 = uart3RxSize
  · rw [Uart3.contents_irq_full hfull]
    simp only [queueStep]
    rw [if_pos (by omega)]
  · rw [Uart3.contents_irq hok (by omega)]
    simp only [queueStep]
    rw [if_neg (by omega)]

/-- Each operation does to the ring what it does to the queue. -/
theorem ring_simulates_queue : Machine.Simulates uart3OpStep queueStep Holds := by
  constructor
  · intro u q op h
    have hcount := h.count_eq
    cases op with
    | irq data => rfl
    | clear => rfl
    | getChar =>
      cases q with
      | nil => simp only [uart3OpStep, queueStep, hcount, List.length_nil, if_true]
      | cons data rest =>
        rw [List.length_cons] at hcount
        have hcons := Uart3.contents_getChar h.1 (by omega)
        rw [h.2] at hcons
        simp only [uart3OpStep, queueStep, (List.cons.inj hcons).1, if_neg (show ¬ u.rxCount = 0 by
          omega)]
    | getLine =>
      obtain ⟨hline, -, -⟩ := getLine_spec h.1
      simp only [uart3OpStep, queueStep, hline, h.2, takeSegment_eq_consumed]
  · intro u q op h
    have hcount := h.count_eq
    cases op with
    | irq data => exact holds_irq h data
    | clear => exact ⟨Uart3.ok_clear u, Uart3.contents_clear u⟩
    | getChar =>
      cases q with
      | nil =>
        simp only [uart3OpStep, queueStep, hcount, List.length_nil, if_true]
        exact h
      | cons data rest =>
        rw [List.length_cons] at hcount
        have hne : u.rxCount ≠ 0 := by omega
        have hcons := Uart3.contents_getChar h.1 hne
        rw [h.2] at hcons
        simp only [uart3OpStep, queueStep, if_neg hne]
        exact ⟨Uart3.ok_getChar h.1 hne, (List.cons.inj hcons).2.symm⟩
    | getLine =>
      obtain ⟨-, hrest, hok⟩ := getLine_spec h.1
      simp only [uart3OpStep, queueStep]
      exact ⟨hok, by rw [hrest, h.2, takeSegment_eq_consumed]⟩

theorem holds_initial : Holds .initial [] := ⟨Uart3.ok_initial, Uart3.contents_initial⟩

/-- The ring and the queue after the operations. -/
def ringAfter (ops : List Uart3Op) : Uart3 := Machine.last uart3OpStep .initial ops

def queueAfter (ops : List Uart3Op) : List UInt8 := Machine.last queueStep [] ops

theorem holds_after (ops : List Uart3Op) : Holds (ringAfter ops) (queueAfter ops) :=
  ring_simulates_queue.last holds_initial ops

/-- What `get_line_from_uart3` does from a ring that holds `q`, whatever is at `buf`: it comes
to an end, leaves what is behind the consumed bytes, and stores from `buf[0]` on the text of
the line. It returns its length, and writes nothing behind its NUL. -/
def CutsLine (u : Uart3) (q : List UInt8) (mem : Nat → UInt8) : Prop :=
  ∃ n g, Rounds.Ends getLineRound (.start u mem) (n, g) ∧
    n = (lineText q).length ∧ n < uart3RxSize ∧
    Holds g.uart (q.drop (consumed q).length) ∧
    (∀ i < n, (lineText q)[i]? = some (g.mem i)) ∧
    ∀ i, n < i → g.mem i = mem i

theorem length_lineText (q : List UInt8) : (lineText q).length ≤ q.length :=
  calc (lineText q).length
      ≤ (consumed q).length := List.length_filter_le _ _
    _ ≤ q.length := by
      unfold consumed
      split
      · rename_i hq
        obtain ⟨rest, hsplit, -⟩ := Delimited.split_at_delim hq
        have hlen := congrArg List.length hsplit
        simp only [List.length_append, List.length_cons] at hlen
        rw [List.length_append, List.length_singleton]
        omega
      · exact Nat.le_refl _

theorem cutsLine {u : Uart3} {q : List UInt8} (h : Holds u q) (mem : Nat → UInt8) :
    CutsLine u q mem := by
  have hlt := h.1.count_lt
  have hcount := h.count_eq
  have hlen := length_lineText q
  obtain ⟨hline, hrest, hok⟩ := getLine_spec h.1
  obtain ⟨g, hends, hu, hm⟩ := getLine_ends h.1 mem
  rw [h.2, takeSegment_eq_consumed] at hline hrest
  simp only at hline hrest
  rw [hline] at hends hm
  refine ⟨_, g, hends, rfl, by omega, ⟨by rw [hu]; exact hok, by rw [hu, hrest]⟩, ?_, ?_⟩
  · intro i hi
    rw [hm]
    exact storedLine_at hi
  · intro i hi
    rw [hm]
    exact storedLine_behind hi

/-- **The ring is a queue.** After any operations the ring holds what the queue holds, at most
1459 bytes, both have handed out the same bytes and lines, and a call of
`get_line_from_uart3` cuts the front line off the queue. -/
theorem uart3_is_queue (ops : List Uart3Op) :
    (ringAfter ops).contents = queueAfter ops ∧
      (queueAfter ops).length ≤ 1459 ∧
      Machine.out uart3OpStep .initial ops = Machine.out queueStep [] ops ∧
      ∀ mem, CutsLine (ringAfter ops) (queueAfter ops) mem := by
  have h := holds_after ops
  have hlt := h.1.count_lt
  have hcount := h.count_eq
  unfold uart3RxSize at hlt
  exact ⟨h.2, by omega, ring_simulates_queue.out_eq holds_initial ops, fun mem => cutsLine h mem⟩

end IBoxClient
