import Mathlib.Data.List.Induction
import IBoxClient.Lib.Machine
import IBoxClient.Lib.Cyclic
import IBoxClient.Lib.Delimited

/- The receive ring of USART3 (`ibox_uart.c`), on which the WiFi and the GPRS
   module answer. The interrupt handler writes one byte at the write index and
   counts it; when the count reaches the size of the buffer everything is thrown
   away. The readers take bytes at the read index.

   What is proved here: between calls the ring is a queue (`contents`). A received
   byte is appended (`contents_irq`) unless it is the 1460th, which empties the
   queue (`contents_irq_full`); `getCharFormUart3` takes the front byte
   (`contents_getChar`); `getLineFromUart3` takes the front segment delimited by
   CR, and without a CR takes all there is (`getLine_spec`).

   The overrun branch of the handler (`USART_FLAG_ORE`) only reads the data
   register once more and prints; the spinning of `getCharFormUart3` on an empty
   ring cannot be reached from `getLineFromUart3`, which tests the count first. -/
namespace IBoxClient

abbrev uart3RxSize : Nat := 1460

abbrev lf : UInt8 := 0x0a
abbrev cr : UInt8 := 0x0d

/-- `uart3_rx_buf` with its write index, byte count and read index. -/
structure Uart3 where
  rxBuf : Nat → UInt8
  rxWrIndex : Nat
  rxCount : Nat
  rxReIndex : Nat

def Uart3.initial : Uart3 := ⟨fun _ => 0, 0, 0, 0⟩

/-- `uart3_rx_buf_clear`. -/
def uart3RxBufClear (_u : Uart3) : Uart3 := ⟨fun _ => 0, 0, 0, 0⟩

/-- `USART3_IRQHandler` on a received byte (RXNE). -/
def usart3IrqHandler (u : Uart3) (data : UInt8) : Uart3 :=
  let buf := Function.update u.rxBuf u.rxWrIndex data
  let wr := if u.rxWrIndex + 1 = uart3RxSize then 0 else u.rxWrIndex + 1
  -- the buffer is full: everything is dropped, this byte included
  if u.rxCount + 1 = uart3RxSize then ⟨fun _ => 0, 0, 0, 0⟩
  else ⟨buf, wr, u.rxCount + 1, u.rxReIndex⟩

/-- `get_char_form_uart3`, called with a non-zero count. -/
def getCharFormUart3 (u : Uart3) : UInt8 × Uart3 :=
  let data := u.rxBuf u.rxReIndex
  let re := if u.rxReIndex + 1 = uart3RxSize then 0 else u.rxReIndex + 1
  (data, { u with rxReIndex := re, rxCount := u.rxCount - 1 })

/-- The loop of `get_line_from_uart3`; `buf` is what has been stored so far. Every
round takes a byte, so the count of bytes bounds the rounds. -/
def getLineLoop : Nat → Uart3 → List UInt8 → List UInt8 × Uart3
  | 0, u, buf => (buf, u)
  | rounds + 1, u, buf =>
    if u.rxCount ≠ 0 then
      let r := getCharFormUart3 u
      if r.1 = lf then getLineLoop rounds r.2 buf
      else if r.1 = cr then (buf, r.2)
      else getLineLoop rounds r.2 (buf ++ [r.1])
    else (buf, u)

/-- `get_line_from_uart3`: the bytes stored before the terminating NUL, whose
number is the return value, and the ring afterwards. -/
def getLineFromUart3 (u : Uart3) : List UInt8 × Uart3 := getLineLoop u.rxCount u []

/-- What the ring satisfies between calls. -/
structure Uart3.Ok (u : Uart3) : Prop where
  count_lt : u.rxCount < uart3RxSize
  re_lt : u.rxReIndex < uart3RxSize
  wr_eq : u.rxWrIndex = (u.rxReIndex + u.rxCount) % uart3RxSize

/-- The unread bytes, oldest first. -/
def Uart3.contents (u : Uart3) : List UInt8 :=
  Cyclic.slice uart3RxSize u.rxBuf u.rxReIndex u.rxCount

namespace Uart3

@[simp] theorem length_contents (u : Uart3) : u.contents.length = u.rxCount :=
  Cyclic.length_slice ..

@[simp] theorem contents_initial : initial.contents = [] := rfl

@[simp] theorem contents_clear (u : Uart3) : (uart3RxBufClear u).contents = [] := rfl

theorem ok_zero : Ok ⟨fun _ => 0, 0, 0, 0⟩ := ⟨by decide, by decide, rfl⟩

theorem ok_initial : initial.Ok := ok_zero

theorem ok_clear (u : Uart3) : (uart3RxBufClear u).Ok := ok_zero

theorem Ok.wr_lt {u : Uart3} (h : u.Ok) : u.rxWrIndex < uart3RxSize := by
  rw [h.wr_eq]; exact Nat.mod_lt _ (by decide)

theorem contents_eq_nil {u : Uart3} : u.contents = [] ↔ u.rxCount = 0 := Cyclic.slice_eq_nil

/-- The handler below the limit, with the wrap of the write index as a remainder. -/
theorem irq_eq {u : Uart3} (h : u.Ok) (hc : u.rxCount + 1 < uart3RxSize) (data : UInt8) :
    usart3IrqHandler u data =
      ⟨Function.update u.rxBuf u.rxWrIndex data, Cyclic.next uart3RxSize u.rxWrIndex,
        u.rxCount + 1, u.rxReIndex⟩ := by
  simp only [usart3IrqHandler, if_neg (Nat.ne_of_lt hc), Cyclic.next_eq_ite h.wr_lt]

theorem irq_full {u : Uart3} (hc : u.rxCount + 1 = uart3RxSize) (data : UInt8) :
    usart3IrqHandler u data = initial := by
  simp only [usart3IrqHandler, if_pos hc, initial]

theorem ok_irq {u : Uart3} (h : u.Ok) (data : UInt8) : (usart3IrqHandler u data).Ok := by
  by_cases hc : u.rxCount + 1 = uart3RxSize
  · rw [irq_full hc]; exact ok_initial
  · have hlt : u.rxCount + 1 < uart3RxSize := by have := h.count_lt; omega
    rw [irq_eq h hlt]
    refine ⟨hlt, h.re_lt, ?_⟩
    simp only [h.wr_eq, Cyclic.next_mod, Nat.add_assoc]

/-- A received byte is appended. -/
theorem contents_irq {u : Uart3} (h : u.Ok) (hc : u.rxCount + 1 < uart3RxSize) (data : UInt8) :
    (usart3IrqHandler u data).contents = u.contents ++ [data] := by
  rw [irq_eq h hc]
  simp only [contents, h.wr_eq]
  exact Cyclic.slice_push u.rxBuf data h.re_lt h.count_lt

theorem contents_irq_full {u : Uart3} (hc : u.rxCount + 1 = uart3RxSize) (data : UInt8) :
    (usart3IrqHandler u data).contents = [] := by
  rw [irq_full hc]; rfl

theorem getChar_eq {u : Uart3} (h : u.Ok) :
    getCharFormUart3 u = (u.rxBuf u.rxReIndex,
      { u with rxReIndex := Cyclic.next uart3RxSize u.rxReIndex, rxCount := u.rxCount - 1 }) := by
  simp only [getCharFormUart3, Cyclic.next_eq_ite h.re_lt]

theorem ok_getChar {u : Uart3} (h : u.Ok) (hc : u.rxCount ≠ 0) : (getCharFormUart3 u).2.Ok := by
  rw [getChar_eq h]
  refine ⟨by have := h.count_lt; simp only; omega, Cyclic.next_lt (by decide) _, ?_⟩
  simp only [h.wr_eq, Cyclic.next_add]
  congr 2
  omega

/-- The front byte is taken. -/
theorem contents_getChar {u : Uart3} (h : u.Ok) (hc : u.rxCount ≠ 0) :
    u.contents = (getCharFormUart3 u).1 :: (getCharFormUart3 u).2.contents := by
  obtain ⟨k, hk⟩ := Nat.exists_eq_succ_of_ne_zero hc
  rw [getChar_eq h]
  simp only [contents, hk, Nat.succ_sub_one]
  rfl

end Uart3

/-- The bytes that get_line stores: all but LF. -/
abbrev notLf (b : UInt8) : Bool := b ≠ lf

theorem getLineLoop_spec (rounds : Nat) {u : Uart3} (h : u.Ok) (hr : u.rxCount ≤ rounds)
    (buf : List UInt8) :
    (getLineLoop rounds u buf).1 = buf ++ (Delimited.takeSegment cr notLf u.contents).1 ∧
      (getLineLoop rounds u buf).2.contents = (Delimited.takeSegment cr notLf u.contents).2 ∧
      (getLineLoop rounds u buf).2.Ok := by
  induction rounds generalizing u buf with
  | zero =>
    have hnil : u.contents = [] := Uart3.contents_eq_nil.mpr (by omega)
    simp [getLineLoop, hnil, Delimited.takeSegment, h]
  | succ rounds ih =>
    by_cases hc : u.rxCount = 0
    · have hnil : u.contents = [] := Uart3.contents_eq_nil.mpr hc
      simp [getLineLoop, hc, hnil, Delimited.takeSegment, h]
    · have hok := Uart3.ok_getChar h hc
      have hcount : (getCharFormUart3 u).2.rxCount ≤ rounds := by
        rw [Uart3.getChar_eq h]; simp only; omega
      rw [Uart3.contents_getChar h hc, getLineLoop, if_pos hc]
      generalize getCharFormUart3 u = r at hok hcount ⊢
      obtain ⟨c, u'⟩ := r
      simp only at hok hcount ⊢
      by_cases hlf : c = lf
      · -- LF is skipped
        have hne : c ≠ cr := by rw [hlf]; decide
        obtain ⟨h1, h2, h3⟩ := ih hok hcount buf
        rw [if_pos hlf, Delimited.takeSegment, if_neg hne]
        simp [hlf, h1, h2, h3]
      · by_cases hcr : c = cr
        · -- CR ends the line
          rw [if_neg hlf, if_pos hcr, Delimited.takeSegment, if_pos hcr]
          simp [hok]
        · obtain ⟨h1, h2, h3⟩ := ih hok hcount (buf ++ [c])
          rw [if_neg hlf, if_neg hcr, Delimited.takeSegment, if_neg hcr]
          simp [hlf, h1, h2, h3]

/-- `get_line_from_uart3` takes the front line of the queue, whole or not. -/
theorem getLine_spec {u : Uart3} (h : u.Ok) :
    (getLineFromUart3 u).1 = (Delimited.takeSegment cr notLf u.contents).1 ∧
      (getLineFromUart3 u).2.contents = (Delimited.takeSegment cr notLf u.contents).2 ∧
      (getLineFromUart3 u).2.Ok := by
  have h' := getLineLoop_spec u.rxCount h (Nat.le_refl _) []
  rwa [List.nil_append] at h'

/-- The ring after some bytes have been received. -/
def ringOf (bytes : List UInt8) : Uart3 := bytes.foldl usart3IrqHandler .initial

theorem ok_ringOf (bytes : List UInt8) : (ringOf bytes).Ok := by
  have h : ∀ u : Uart3, u.Ok → (bytes.foldl usart3IrqHandler u).Ok := by
    induction bytes with
    | nil => exact fun _ hu => hu
    | cons b bytes ih => exact fun u hu => ih _ (Uart3.ok_irq hu b)
  exact h .initial Uart3.ok_initial

theorem contents_ringOf {bytes : List UInt8} (h : bytes.length < uart3RxSize) :
    (ringOf bytes).contents = bytes := by
  induction bytes using List.reverseRecOn with
  | nil => rfl
  | append_singleton bytes c ih =>
    rw [List.length_append, List.length_singleton] at h
    have hcontents := ih (by omega)
    have hcount : (ringOf bytes).rxCount + 1 < uart3RxSize := by
      rw [← Uart3.length_contents, hcontents]
      exact h
    have hlast : ringOf (bytes ++ [c]) = usart3IrqHandler (ringOf bytes) c := by
      rw [ringOf, List.foldl_append]
      rfl
    rw [hlast, Uart3.contents_irq (ok_ringOf bytes) hcount, hcontents]

end IBoxClient
