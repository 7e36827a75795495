import IBoxClient.Lib.Cyclic
import IBoxClient.Lib.Simulation
import IBoxClient.Lib.Newest

/- The receive ring of USART1 (`ibox_uart.c`), the debug console. It has no count: the ring is
   empty when the two indices are equal, so one of its 256 cells is always free. The handler
   writes first and looks then; where the write index has caught up with the read index, it
   moves the read index on and so drops the oldest byte.

   The ring simulates the store that keeps the newest 255 (`console_simulates_tape`). -/
namespace IBoxClient

abbrev uart1RxSize : Nat := 256

/-- `uart1_rx_buf` with its two indices. -/
structure Uart1 where
  rxBuf : Nat → UInt8
  rxWrIndex : Nat
  rxReIndex : Nat

def Uart1.initial : Uart1 := ⟨fun _ => 0, 0, 0⟩

/-- `USART1_IRQHandler` on a received byte (RXNE). -/
def usart1IrqHandler (u : Uart1) (data : UInt8) : Uart1 :=
  let buf := Function.update u.rxBuf u.rxWrIndex data
  let wr := if u.rxWrIndex + 1 ≥ uart1RxSize then 0 else u.rxWrIndex + 1
  let re :=
    if wr = u.rxReIndex then
      if u.rxReIndex + 1 ≥ uart1RxSize then 0 else u.rxReIndex + 1
    else u.rxReIndex
  ⟨buf, wr, re⟩

/-- `get_char_form_uart1`: `none` where it returns 0, and else the byte at `*ch`. -/
def getCharFormUart1 (u : Uart1) : Option UInt8 × Uart1 :=
  if u.rxReIndex ≠ u.rxWrIndex then
    let data := u.rxBuf u.rxReIndex
    let re := if u.rxReIndex + 1 ≥ uart1RxSize then 0 else u.rxReIndex + 1
    (some data, { u with rxReIndex := re })
  else (none, u)

namespace Uart1

structure Ok (u : Uart1) : Prop where
  wr_lt : u.rxWrIndex < uart1RxSize
  re_lt : u.rxReIndex < uart1RxSize

/-- The number of unread bytes. -/
def unread (u : Uart1) : Nat := Cyclic.dist uart1RxSize u.rxReIndex u.rxWrIndex

/-- The unread bytes, oldest first. -/
def contents (u : Uart1) : List UInt8 :=
  Cyclic.slice uart1RxSize u.rxBuf u.rxReIndex u.unread

theorem ok_initial : initial.Ok := ⟨by decide, by decide⟩

theorem contents_initial : initial.contents = [] := rfl

@[simp] theorem length_contents (u : Uart1) : u.contents.length = u.unread :=
  Cyclic.length_slice ..

theorem next_eq {i : Nat} (hi : i < uart1RxSize) :
    (if i + 1 ≥ uart1RxSize then 0 else i + 1) = Cyclic.next uart1RxSize i := by
  rw [Cyclic.next_eq_ite hi]
  split <;> split <;> omega

variable {u : Uart1}

theorem irq_eq (h : u.Ok) (data : UInt8) :
    usart1IrqHandler u data =
      { rxBuf := Function.update u.rxBuf u.rxWrIndex data
        rxWrIndex := Cyclic.next uart1RxSize u.rxWrIndex
        rxReIndex :=
          if Cyclic.next uart1RxSize u.rxWrIndex = u.rxReIndex then
            Cyclic.next uart1RxSize u.rxReIndex
          else u.rxReIndex } := by
  simp only [usart1IrqHandler, next_eq h.wr_lt, next_eq h.re_lt]

theorem ok_irq (h : u.Ok) (data : UInt8) : (usart1IrqHandler u data).Ok := by
  have hwr := Cyclic.next_lt (show 0 < uart1RxSize by decide) u.rxWrIndex
  have hre := Cyclic.next_lt (show 0 < uart1RxSize by decide) u.rxReIndex
  rw [irq_eq h]
  refine ⟨hwr, ?_⟩
  simp only
  split
  · exact hre
  · exact h.re_lt

/-- The cell written is the one behind the last unread byte. -/
theorem wr_eq (h : u.Ok) : u.rxWrIndex = (u.rxReIndex + u.unread) % uart1RxSize :=
  (Cyclic.add_dist h.re_lt h.wr_lt).symm

/-- The ring with the byte, before it is seen that there may be no room for it. -/
theorem written (h : u.Ok) (data : UInt8) :
    Cyclic.slice uart1RxSize (Function.update u.rxBuf u.rxWrIndex data) u.rxReIndex
        (u.unread + 1) = u.contents ++ [data] := by
  have hlt : u.unread < uart1RxSize := Cyclic.dist_lt (by decide) _ _
  rw [wr_eq h]
  exact Cyclic.slice_push u.rxBuf data h.re_lt hlt

/-- **A received byte.** It is appended, and where that makes 256 the oldest is dropped. -/
theorem contents_irq (h : u.Ok) (data : UInt8) :
    (usart1IrqHandler u data).contents =
      if u.contents.length + 1 > uart1RxSize - 1 then u.contents.tail ++ [data]
      else u.contents ++ [data] := by
  have hwritten := written h data
  have hlen := length_contents u
  have hfull : Cyclic.next uart1RxSize u.rxWrIndex = u.rxReIndex ↔ u.unread = uart1RxSize - 1 :=
    Cyclic.next_eq_iff_dist h.re_lt h.wr_lt
  rw [irq_eq h, hlen]
  by_cases hmeet : Cyclic.next uart1RxSize u.rxWrIndex = u.rxReIndex
  · -- the write index has caught up: the front of the written bytes is skipped
    have hunread := hfull.mp hmeet
    have hne : u.contents ≠ [] := by
      apply List.ne_nil_of_length_pos
      rw [hlen, hunread]
      decide
    have hskip := congrArg List.tail hwritten
    rw [Cyclic.slice_succ, List.tail_cons, List.tail_append_of_ne_nil hne] at hskip
    have hfull' : u.unread + 1 > uart1RxSize - 1 := by omega
    rw [if_pos hfull', ← hskip, hunread]
    simp only [contents, unread, if_pos hmeet]
    rw [hmeet, Cyclic.dist_next_self h.re_lt]
  · have hroom : u.unread ≠ uart1RxSize - 1 := mt hfull.mpr hmeet
    have hlt : u.unread < uart1RxSize := Cyclic.dist_lt (by decide) _ _
    have hdist := Cyclic.dist_next_right h.re_lt h.wr_lt
    rw [if_neg hmeet] at hdist
    have hroom' : ¬ u.unread + 1 > uart1RxSize - 1 := by omega
    rw [if_neg hroom', ← hwritten]
    simp only [contents, unread, if_neg hmeet, hdist]

theorem getChar_empty (hc : u.rxReIndex = u.rxWrIndex) : getCharFormUart1 u = (none, u) := by
  rw [getCharFormUart1, if_neg (by simpa using hc)]

theorem unread_eq_zero (h : u.Ok) : u.unread = 0 ↔ u.rxReIndex = u.rxWrIndex :=
  Cyclic.dist_eq_zero h.re_lt h.wr_lt

theorem contents_eq_nil (h : u.Ok) : u.contents = [] ↔ u.rxReIndex = u.rxWrIndex := by
  rw [← unread_eq_zero h]
  exact Cyclic.slice_eq_nil

/-- The oldest byte is handed out. -/
theorem getChar_cons (h : u.Ok) {data : UInt8} {rest : List UInt8}
    (hc : u.contents = data :: rest) :
    (getCharFormUart1 u).1 = some data ∧ (getCharFormUart1 u).2.contents = rest ∧
      (getCharFormUart1 u).2.Ok := by
  have hne : u.rxReIndex ≠ u.rxWrIndex := by
    intro he
    rw [(contents_eq_nil h).mpr he] at hc
    exact absurd hc (by simp)
  have hdist : u.unread = Cyclic.dist uart1RxSize (Cyclic.next uart1RxSize u.rxReIndex)
      u.rxWrIndex + 1 := (Cyclic.dist_next_left h.re_lt h.wr_lt hne).symm
  rw [contents, hdist, Cyclic.slice_succ] at hc
  obtain ⟨hdata, hrest⟩ := List.cons.inj hc
  rw [getCharFormUart1, if_pos hne]
  simp only [next_eq h.re_lt]
  exact ⟨by rw [hdata], hrest, h.wr_lt, Cyclic.next_lt (by decide) _⟩

end Uart1

/-! ## The console and the tape -/

inductive Uart1Op where
  /-- The handler runs on a byte. -/
  | irq (data : UInt8)
  | getChar
  deriving DecidableEq

/-- An operation on the ring, with what `get_char_form_uart1` hands out. -/
def uart1Step (u : Uart1) : Uart1Op → Uart1 × List (Option UInt8)
  | .irq data => (usart1IrqHandler u data, [])
  | .getChar => ((getCharFormUart1 u).2, [(getCharFormUart1 u).1])

/-- An operation on the store that keeps the newest 255 bytes. -/
def tapeStep (t : Newest.Tape UInt8) : Uart1Op → Newest.Tape UInt8 × List (Option UInt8)
  | .irq data => (t.push (uart1RxSize - 1) data, [])
  | .getChar => (t.take.2, [t.take.1])

/-- The ring holds what the tape keeps. -/
structure Keeps (u : Uart1) (t : Newest.Tape UInt8) : Prop where
  ok : u.Ok
  tape_ok : t.Ok (uart1RxSize - 1)
  contents_eq : u.contents = t.kept

theorem keeps_irq {u : Uart1} {t : Newest.Tape UInt8} (h : Keeps u t) (data : UInt8) :
    Keeps (usart1IrqHandler u data) (t.push (uart1RxSize - 1) data) := by
  have hcap : 0 < uart1RxSize - 1 := by decide
  refine ⟨Uart1.ok_irq h.ok data, Newest.Tape.ok_push h.tape_ok data, ?_⟩
  rw [Uart1.contents_irq h.ok, Newest.Tape.kept_push hcap h.tape_ok, h.contents_eq]

theorem keeps_getChar {u : Uart1} {t : Newest.Tape UInt8} (h : Keeps u t) :
    (getCharFormUart1 u).1 = t.take.1 ∧ Keeps (getCharFormUart1 u).2 t.take.2 := by
  have htape := Newest.Tape.ok_take h.tape_ok
  cases hk : t.kept with
  | nil =>
    have hc := h.contents_eq
    rw [hk, Uart1.contents_eq_nil h.ok] at hc
    rw [Uart1.getChar_empty hc, Newest.Tape.take_nil hk]
    exact ⟨rfl, h⟩
  | cons data rest =>
    obtain ⟨hdata, hrest, hok⟩ := Uart1.getChar_cons h.ok (h.contents_eq.trans hk)
    refine ⟨?_, hok, htape, ?_⟩
    · rw [hdata, Newest.Tape.take_cons hk]
    · rw [hrest, Newest.Tape.kept_take hk]

/-- **Simulation.** The ring does what the tape does. -/
theorem console_simulates_tape : Machine.Simulates uart1Step tapeStep Keeps := by
  constructor
  · intro u t op h
    cases op with
    | irq data => rfl
    | getChar => simp only [uart1Step, tapeStep, (keeps_getChar h).1]
  · intro u t op h
    cases op with
    | irq data => exact keeps_irq h data
    | getChar => exact (keeps_getChar h).2

theorem keeps_initial : Keeps .initial .empty :=
  ⟨Uart1.ok_initial, Newest.Tape.ok_empty, Uart1.contents_initial⟩

def consoleAfter (ops : List Uart1Op) : Uart1 := Machine.last uart1Step .initial ops

def tapeAfter (ops : List Uart1Op) : Newest.Tape UInt8 := Machine.last tapeStep .empty ops

def consoleByte : Uart1Op → Option UInt8
  | .irq data => some data
  | .getChar => none

/-- The tape holds the bytes received. -/
theorem came_tapeAfter (t : Newest.Tape UInt8) (ops : List Uart1Op) :
    (Machine.last tapeStep t ops).came = t.came ++ ops.filterMap consoleByte := by
  induction ops generalizing t with
  | nil => exact (List.append_nil _).symm
  | cons op ops ih =>
    rw [Machine.last_cons, ih]
    cases op with
    | irq data =>
      simp only [tapeStep, Newest.Tape.came_push, List.append_assoc]
      rfl
    | getChar =>
      simp only [tapeStep, Newest.Tape.came_take]
      rfl

/-- **The console keeps the newest bytes.** After any bytes and calls, the ring and the tape
have handed out the same; the ring holds the newest 255 of the bytes received since the last
one read; another byte is appended, and drops exactly the oldest where that makes 256; and a
call returns 0 exactly where all bytes not yet dropped have been read, and else hands out the
oldest of the bytes held. -/
theorem console_keeps_newest (ops : List Uart1Op) :
    let u := consoleAfter ops
    let t := tapeAfter ops
    Machine.out uart1Step .initial ops = Machine.out tapeStep .empty ops ∧
      t.came = ops.filterMap consoleByte ∧
      u.contents = t.kept ∧
      t.kept = Newest.Tape.newest (min 255 t.untaken) (ops.filterMap consoleByte) ∧
      (∀ data, (usart1IrqHandler u data).contents =
        if u.contents.length + 1 = 256 then u.contents.tail ++ [data]
        else u.contents ++ [data]) ∧
      ((getCharFormUart1 u).1 = none ↔ t.front = t.came.length) ∧
      (getCharFormUart1 u).1 = u.contents.head? := by
  have h : Keeps (consoleAfter ops) (tapeAfter ops) := console_simulates_tape.last keeps_initial ops
  have hcame : (tapeAfter ops).came = ops.filterMap consoleByte := came_tapeAfter .empty ops
  have hget := (keeps_getChar h).1
  refine ⟨console_simulates_tape.out_eq keeps_initial ops, hcame, h.contents_eq, ?_, ?_, ?_, ?_⟩
  · rw [← hcame]
    exact h.tape_ok.kept_eq
  · intro data
    have hle := h.tape_ok.length_kept_le
    rw [← h.contents_eq] at hle
    rw [Uart1.contents_irq h.ok]
    unfold uart1RxSize at *
    split <;> split <;> first | rfl | omega
  · rw [hget]
    exact Newest.Tape.take_eq_none_iff h.tape_ok
  · rw [hget, h.contents_eq]
    cases hk : (tapeAfter ops).kept with
    | nil => rw [Newest.Tape.take_nil hk]; rfl
    | cons data rest => rw [Newest.Tape.take_cons hk]; rfl

end IBoxClient
