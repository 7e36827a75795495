import IBoxClient.Uart3

/- The receive ring of USART3 while the interrupt is on.

   `get_char_form_uart3` and `uart3_rx_buf_clear` run statement by statement, and the
   handler may come in between any two statements, except while RXNE is masked. The three
   variables are 16 bits wide: a count of 0 that is decremented becomes 65535.

   Three things go wrong. Where the ring overflows after the read index has been moved, the
   handler takes back what the reader has moved; where the reader's byte is lost to an
   overflow and none has come since, the count wraps; and a byte that comes in while the
   ring is being cleared is written, but not counted. `StepOk` excludes these three
   and nothing else, and `ring_consistent` says that then the ring is consistent between
   calls. -/
namespace IBoxClient

/-- A value stored in a `uint16_t`. -/
abbrev asUint16 (n : Nat) : Nat := n % 65536

/-- `USART3_IRQHandler` on a received byte, on counters of 16 bits. -/
def Uart3.irq (u : Uart3) (data : UInt8) : Uart3 :=
  let buf := Function.update u.rxBuf u.rxWrIndex data
  let wr := if asUint16 (u.rxWrIndex + 1) = uart3RxSize then 0 else asUint16 (u.rxWrIndex + 1)
  if asUint16 (u.rxCount + 1) = uart3RxSize then ⟨fun _ => 0, 0, 0, 0⟩
  else ⟨buf, wr, asUint16 (u.rxCount + 1), u.rxReIndex⟩

/-- The next statement of the reader; `data` is the byte it has read. -/
inductive ReaderPc where
  | idle
  /-- `get_char_form_uart3` -/
  | whileEmpty
  | readData
  | moveIndex (data : UInt8)
  | wrapIndex (data : UInt8)
  | maskRxne (data : UInt8)
  | countDown (data : UInt8)
  | unmaskRxne (data : UInt8)
  | returnData (data : UInt8)
  /-- `uart3_rx_buf_clear` -/
  | clearWr
  | clearCount
  | clearRe
  | clearBuf
  deriving DecidableEq

/-- The ring, the reader, and whether the RXNE interrupt is enabled. -/
structure Uart3Sys where
  uart : Uart3
  pc : ReaderPc
  rxne : Bool

def Uart3Sys.initial : Uart3Sys := ⟨.initial, .idle, true⟩

/-- The handler runs on a byte, a call begins, or the reader executes a statement. -/
inductive RingEvent where
  | irq (data : UInt8)
  | getChar
  | clear
  | step

/-- The next statement of the reader, with what the function returns. -/
def Uart3Sys.step (s : Uart3Sys) : Uart3Sys × List UInt8 :=
  let u := s.uart
  match s.pc with
  | .idle => (s, [])
  | .whileEmpty => (if u.rxCount = 0 then s else { s with pc := .readData }, [])
  | .readData => ({ s with pc := .moveIndex (u.rxBuf u.rxReIndex) }, [])
  | .moveIndex data =>
    let re := asUint16 (u.rxReIndex + 1)
    ({ s with
      uart := { u with rxReIndex := re }
      pc := if re = uart3RxSize then .wrapIndex data else .maskRxne data }, [])
  | .wrapIndex data => ({ s with uart := { u with rxReIndex := 0 }, pc := .maskRxne data }, [])
  | .maskRxne data => ({ s with rxne := false, pc := .countDown data }, [])
  | .countDown data =>
    ({ s with uart := { u with rxCount := if u.rxCount = 0 then 65535 else u.rxCount - 1 },
              pc := .unmaskRxne data }, [])
  | .unmaskRxne data => ({ s with rxne := true, pc := .returnData data }, [])
  | .returnData data => ({ s with pc := .idle }, [data])
  | .clearWr => ({ s with uart := { u with rxWrIndex := 0 }, pc := .clearCount }, [])
  | .clearCount => ({ s with uart := { u with rxCount := 0 }, pc := .clearRe }, [])
  | .clearRe => ({ s with uart := { u with rxReIndex := 0 }, pc := .clearBuf }, [])
  | .clearBuf => ({ s with uart := { u with rxBuf := fun _ => 0 }, pc := .idle }, [])

/-- `get_char_form_uart3` is called with a non-zero count only. -/
def ringStep (s : Uart3Sys) : RingEvent → Uart3Sys × List UInt8
  | .irq data => (if s.rxne then { s with uart := s.uart.irq data } else s, [])
  | .getChar =>
    (if s.pc = .idle ∧ s.uart.rxCount ≠ 0 then { s with pc := .whileEmpty } else s, [])
  | .clear => (if s.pc = .idle then { s with pc := .clearWr } else s, [])
  | .step => s.step

/-! ## Without interrupts -/

theorem Uart3.irq_eq_handler {u : Uart3} (hcount : u.rxCount < uart3RxSize)
    (hwr : u.rxWrIndex < uart3RxSize) (data : UInt8) : u.irq data = usart3IrqHandler u data := by
  have hc : asUint16 (u.rxCount + 1) = u.rxCount + 1 :=
    Nat.mod_eq_of_lt (by unfold uart3RxSize at *; omega)
  have hw : asUint16 (u.rxWrIndex + 1) = u.rxWrIndex + 1 :=
    Nat.mod_eq_of_lt (by unfold uart3RxSize at *; omega)
  simp only [Uart3.irq, usart3IrqHandler, hc, hw]

/-- The statements of `get_char_form_uart3` are the function. -/
theorem getChar_uninterrupted {u : Uart3} (h : u.Ok) (hc : u.rxCount ≠ 0) :
    Machine.run ringStep ⟨u, .idle, true⟩ (.getChar :: List.replicate 8 .step) =
      (⟨(getCharFormUart3 u).2, .idle, true⟩, [(getCharFormUart3 u).1]) := by
  have hre : asUint16 (u.rxReIndex + 1) = u.rxReIndex + 1 :=
    Nat.mod_eq_of_lt (by have := h.re_lt; unfold uart3RxSize at *; omega)
  by_cases hwrap : u.rxReIndex + 1 = uart3RxSize
  · have hend : asUint16 uart3RxSize = uart3RxSize := rfl
    simp only [Machine.run, List.replicate, ringStep, Uart3Sys.step, getCharFormUart3, hc, hend,
      hwrap, ne_eq, not_false_eq_true, and_self, if_true, if_false, List.nil_append,
      List.append_nil]
  · simp [Machine.run, ringStep, Uart3Sys.step, getCharFormUart3, hc, hre, hwrap]

/-- The statements of `uart3_rx_buf_clear` are the function. -/
theorem clear_uninterrupted (u : Uart3) :
    Machine.run ringStep ⟨u, .idle, true⟩ (.clear :: List.replicate 4 .step) =
      (⟨uart3RxBufClear u, .idle, true⟩, []) := by
  rfl

/-! ## With interrupts -/

/-- The read index has been moved, the count not yet, and the handler may run. -/
def ReaderPc.moved : ReaderPc → Bool
  | .wrapIndex _ | .maskRxne _ => true
  | _ => false

def ReaderPc.countsDown : ReaderPc → Bool
  | .countDown _ => true
  | _ => false

def ReaderPc.masked : ReaderPc → Bool
  | .countDown _ | .unmaskRxne _ => true
  | _ => false

/-- No overflow after the read index has been moved; there is something to count down; and
no byte has come since the clear has set the write index. -/
def Uart3Sys.StepOk (s : Uart3Sys) : RingEvent → Prop
  | .irq _ => s.pc.moved = true → s.uart.rxCount + 1 ≠ uart3RxSize
  | .step =>
    (s.pc.countsDown = true → s.uart.rxCount ≠ 0) ∧ (s.pc = .clearCount → s.uart.rxWrIndex = 0)
  | .getChar | .clear => True

instance (s : Uart3Sys) : (e : RingEvent) → Decidable (s.StepOk e)
  | .irq _ => inferInstanceAs (Decidable (_ → _))
  | .step => inferInstanceAs (Decidable (_ ∧ _))
  | .getChar => .isTrue trivial
  | .clear => .isTrue trivial

namespace Uart3

/-- The reader has moved its index to `re`, but not counted yet. -/
structure Ahead (u : Uart3) (re : Nat) : Prop where
  count_lt : u.rxCount < uart3RxSize
  wr_lt : u.rxWrIndex < uart3RxSize
  re_lt : re < uart3RxSize
  wr_next : (u.rxWrIndex + 1) % uart3RxSize = (re + u.rxCount) % uart3RxSize

/-- What is left of the ring while it is being cleared. -/
structure Bounded (u : Uart3) : Prop where
  count_lt : u.rxCount < uart3RxSize
  wr_lt : u.rxWrIndex < uart3RxSize

/-- Everything but the read index has been cleared. -/
structure Fresh (u : Uart3) : Prop where
  count_lt : u.rxCount < uart3RxSize
  wr_eq : u.rxWrIndex = u.rxCount

variable {u : Uart3}

theorem Ok.bounded (h : u.Ok) : u.Bounded := ⟨h.count_lt, h.wr_lt⟩

theorem ok_irq_uint16 (h : u.Ok) (data : UInt8) : (u.irq data).Ok := by
  rw [irq_eq_handler h.count_lt h.wr_lt]
  exact ok_irq h data

/-- A byte without overflow is written and counted. -/
theorem irq_room (h : u.Bounded) (hroom : u.rxCount + 1 ≠ uart3RxSize) (data : UInt8) :
    (u.irq data).rxCount = u.rxCount + 1 ∧
      (u.irq data).rxWrIndex = Cyclic.next uart3RxSize u.rxWrIndex ∧
      (u.irq data).rxReIndex = u.rxReIndex := by
  rw [irq_eq_handler h.count_lt h.wr_lt]
  simp only [usart3IrqHandler, if_neg hroom, Cyclic.next_eq_ite h.wr_lt, and_self]

theorem irq_overflow (h : u.Bounded) (hfull : u.rxCount + 1 = uart3RxSize) (data : UInt8) :
    u.irq data = initial := by
  rw [irq_eq_handler h.count_lt h.wr_lt, irq_full hfull]

theorem ahead_irq {re : Nat} (h : u.Ahead re) (hroom : u.rxCount + 1 ≠ uart3RxSize)
    (data : UInt8) : (u.irq data).Ahead re := by
  obtain ⟨hcount, hwr, -⟩ := irq_room ⟨h.count_lt, h.wr_lt⟩ hroom data
  refine ⟨?_, ?_, h.re_lt, ?_⟩
  · have := h.count_lt
    omega
  · rw [hwr]
    exact Cyclic.next_lt (by decide) _
  · rw [hcount, hwr, Cyclic.next, Nat.mod_add_mod, ← Nat.add_assoc, ← Nat.mod_add_mod, h.wr_next,
      Nat.mod_add_mod]

theorem bounded_irq (h : u.Bounded) (data : UInt8) : (u.irq data).Bounded := by
  by_cases hfull : u.rxCount + 1 = uart3RxSize
  · rw [irq_overflow h hfull]
    exact ok_initial.bounded
  · obtain ⟨hcount, hwr, -⟩ := irq_room h hfull data
    refine ⟨?_, ?_⟩
    · have := h.count_lt
      omega
    · rw [hwr]
      exact Cyclic.next_lt (by decide) _

theorem fresh_irq (h : u.Fresh) (data : UInt8) : (u.irq data).Fresh := by
  have hb : u.Bounded := ⟨h.count_lt, h.wr_eq ▸ h.count_lt⟩
  by_cases hfull : u.rxCount + 1 = uart3RxSize
  · rw [irq_overflow hb hfull]
    exact ⟨ok_initial.count_lt, rfl⟩
  · obtain ⟨hcount, hwr, -⟩ := irq_room hb hfull data
    refine ⟨?_, ?_⟩
    · have := h.count_lt
      omega
    · rw [hcount, hwr, Cyclic.next_eq_ite hb.wr_lt, h.wr_eq, if_neg hfull]

/-- The index is moved over the byte that has been read. -/
theorem ahead_of_ok (h : u.Ok) : u.Ahead (Cyclic.next uart3RxSize u.rxReIndex) := by
  refine ⟨h.count_lt, h.wr_lt, Cyclic.next_lt (by decide) _, ?_⟩
  rw [h.wr_eq, Nat.mod_add_mod, Cyclic.next_add, Nat.add_assoc]

/-- With the count the ring has caught up. -/
theorem ok_countDown (h : u.Ahead u.rxReIndex) (hpos : u.rxCount ≠ 0) :
    Ok { u with rxCount := u.rxCount - 1 } := by
  obtain ⟨hcount, hwr, hre, hnext⟩ := h
  refine ⟨by simp only; omega, hre, ?_⟩
  simp only [uart3RxSize] at *
  omega

end Uart3

/-- The invariant, by what the reader does next. -/
def Uart3Sys.Sound (s : Uart3Sys) : Prop :=
  s.rxne = !s.pc.masked ∧
    match s.pc with
    | .wrapIndex _ => s.uart.Ahead 0
    | .maskRxne _ | .countDown _ => s.uart.Ahead s.uart.rxReIndex
    | .clearCount => s.uart.Bounded
    | .clearRe => s.uart.Fresh
    | _ => s.uart.Ok

theorem sound_initial : Uart3Sys.initial.Sound := ⟨rfl, Uart3.ok_initial⟩

theorem sound_irq {s : Uart3Sys} (h : s.Sound) (data : UInt8) (hok : s.StepOk (.irq data)) :
    (ringStep s (.irq data)).1.Sound := by
  obtain ⟨u, pc, rxne⟩ := s
  obtain ⟨hrxne, h⟩ := h
  cases pc with
  | wrapIndex d =>
    cases hrxne
    exact ⟨rfl, Uart3.ahead_irq h (hok rfl) data⟩
  | maskRxne d =>
    cases hrxne
    refine ⟨rfl, ?_⟩
    have hahead : (u.irq data).Ahead u.rxReIndex := Uart3.ahead_irq h (hok rfl) data
    obtain ⟨-, -, hre⟩ := Uart3.irq_room ⟨h.count_lt, h.wr_lt⟩ (hok rfl) data
    show (u.irq data).Ahead (u.irq data).rxReIndex
    rw [hre]
    exact hahead
  | countDown d | unmaskRxne d =>
    -- the handler is masked
    cases hrxne
    exact ⟨rfl, h⟩
  | clearCount =>
    cases hrxne
    exact ⟨rfl, Uart3.bounded_irq h data⟩
  | clearRe =>
    cases hrxne
    exact ⟨rfl, Uart3.fresh_irq h data⟩
  | idle | whileEmpty | readData | moveIndex d | returnData d | clearWr | clearBuf =>
    cases hrxne
    exact ⟨rfl, Uart3.ok_irq_uint16 h data⟩

theorem sound_reader {s : Uart3Sys} (h : s.Sound) (hok : s.StepOk .step) :
    (ringStep s .step).1.Sound := by
  obtain ⟨u, pc, rxne⟩ := s
  obtain ⟨hrxne, h⟩ := h
  obtain ⟨hcountDown, hclear⟩ := hok
  have hrxne : rxne = !pc.masked := hrxne
  subst hrxne
  cases pc with
  | idle => exact ⟨rfl, h⟩
  | whileEmpty =>
    simp only [ringStep, Uart3Sys.step]
    split
    · exact ⟨rfl, h⟩
    · exact ⟨rfl, h⟩
  | readData => exact ⟨rfl, h⟩
  | moveIndex d =>
    have hring : u.Ok := h
    have hahead := Uart3.ahead_of_ok hring
    have hlt := hring.re_lt
    have hre : asUint16 (u.rxReIndex + 1) = u.rxReIndex + 1 :=
      Nat.mod_eq_of_lt (by unfold uart3RxSize at hlt; omega)
    rw [Cyclic.next_eq_ite hlt] at hahead
    simp only [ringStep, Uart3Sys.step, hre]
    by_cases hwrap : u.rxReIndex + 1 = uart3RxSize
    · rw [if_pos hwrap] at hahead ⊢
      exact ⟨rfl, hahead.count_lt, hahead.wr_lt, hahead.re_lt, hahead.wr_next⟩
    · rw [if_neg hwrap] at hahead ⊢
      exact ⟨rfl, hahead.count_lt, hahead.wr_lt, hahead.re_lt, hahead.wr_next⟩
  | wrapIndex d =>
    have hahead : u.Ahead 0 := h
    exact ⟨rfl, hahead.count_lt, hahead.wr_lt, hahead.re_lt, hahead.wr_next⟩
  | maskRxne d => exact ⟨rfl, h⟩
  | countDown d =>
    have hpos : u.rxCount ≠ 0 := hcountDown rfl
    simp only [ringStep, Uart3Sys.step, if_neg hpos]
    exact ⟨rfl, Uart3.ok_countDown h hpos⟩
  | unmaskRxne d => exact ⟨rfl, h⟩
  | returnData d => exact ⟨rfl, h⟩
  | clearWr =>
    have hring : u.Ok := h
    exact ⟨rfl, hring.count_lt, Nat.zero_lt_succ _⟩
  | clearCount => exact ⟨rfl, Nat.zero_lt_succ _, hclear rfl⟩
  | clearRe =>
    have hfresh : u.Fresh := h
    refine ⟨rfl, hfresh.count_lt, Nat.zero_lt_succ _, ?_⟩
    show u.rxWrIndex = (0 + u.rxCount) % uart3RxSize
    rw [hfresh.wr_eq, Nat.zero_add, Nat.mod_eq_of_lt hfresh.count_lt]
  | clearBuf =>
    have hring : u.Ok := h
    exact ⟨rfl, hring.count_lt, hring.re_lt, hring.wr_eq⟩

theorem sound_step (s : Uart3Sys) (e : RingEvent) (h : s.Sound) (hok : s.StepOk e) :
    (ringStep s e).1.Sound := by
  cases e with
  | irq data => exact sound_irq h data hok
  | step => exact sound_reader h hok
  | getChar =>
    simp only [ringStep]
    split
    · next hidle =>
      obtain ⟨u, pc, rxne⟩ := s
      cases hidle.1
      exact h
    · exact h
  | clear =>
    simp only [ringStep]
    split
    · next hidle =>
      obtain ⟨u, pc, rxne⟩ := s
      cases hidle
      exact h
    · exact h

/-- **The ring under interrupts.** Between calls it is consistent, in every run in which the
three things do not happen. -/
theorem ring_consistent (evs : List RingEvent)
    (hok : Machine.Along ringStep Uart3Sys.StepOk .initial evs)
    (hidle : (Machine.last ringStep .initial evs).pc = .idle) :
    let u := (Machine.last ringStep .initial evs).uart
    u.rxCount < uart3RxSize ∧ u.rxReIndex < uart3RxSize ∧ u.rxWrIndex < uart3RxSize ∧
      (u.rxReIndex + u.rxCount) % uart3RxSize = u.rxWrIndex := by
  intro u
  have hsound := Machine.along_last sound_step sound_initial hok
  have hring : u.Ok := by
    have h := hsound.2
    rw [hidle] at h
    exact h
  exact ⟨hring.count_lt, hring.re_lt, hring.wr_lt, hring.wr_eq.symm⟩

/-- A byte comes while another is taken, and one after the ring has been cleared. -/
def bytesBetween : List RingEvent :=
  [.irq 0x41, .getChar, .step, .step, .step, .irq 0x42, .step, .step, .step, .step, .clear, .step,
    .step, .irq 0x43, .step, .step]

theorem ring_consistent_bytesBetween :
    let u := (Machine.last ringStep .initial bytesBetween).uart
    u.rxCount < uart3RxSize ∧ u.rxReIndex < uart3RxSize ∧ u.rxWrIndex < uart3RxSize ∧
      (u.rxReIndex + u.rxCount) % uart3RxSize = u.rxWrIndex :=
  ring_consistent bytesBetween (by decide) (by decide)

/-- A byte comes in between the first two statements of the clear: it is written, but not
counted. -/
theorem byte_in_clear_skews :
    let s := Machine.last ringStep .initial [.clear, .step, .irq 0x41, .step, .step, .step]
    s.pc = .idle ∧ ¬ (s.uart.rxReIndex + s.uart.rxCount) % uart3RxSize = s.uart.rxWrIndex := by
  decide

end IBoxClient
