import Mathlib.Data.Fintype.Card
import IBoxClient.Lib.Machine
import IBoxClient.NetFifo

/- How a received message gets from the threads of the modules to the network thread.

   `net_rx_write` takes `net_rx_sem`, puts the message into `net_rx_buf` and sends an event;
   the network thread pushes the message into the FIFO and releases the semaphore. There
   is one buffer, one permit and an event of one bit. `rxStep` is one statement of one of
   the threads, so a list of events is an interleaving; the writers are the elements of any
   finite type.

   The permit is in one place at a time (`RxStage`): free, with the writer that took it, in
   the pending event, or with the network thread. So the message that is pushed is the one
   that was written, each once and in order, as long as no message is longer than
   `net_rx_buf`: `rx_hand_off`.

   Nothing checks the length, and `net_buf`, the memory of the FIFO, is the next variable: a
   message that is too long runs into it, and the push, which stores into the FIFO, then
   changes what it has still to read (`push_overrun`). What lies behind `net_buf` is not in
   the model; a message that gets there can change anything. -/
namespace IBoxClient

/-- A message for `net_rx_write`; its length is a `uint16_t`. -/
structure RxWrite where
  bytes : List UInt8
  length_lt : bytes.length < 65536

/-- Where a writer is in `net_rx_write`. -/
inductive WriterPc where
  | idle
  | taken (m : RxWrite)
  | lenSet (m : RxWrite)
  | cleared (m : RxWrite)
  | copied (m : RxWrite)

/-- Where the network thread is. `rx` and `tx` are the bits of `opt`; in the push `len` is
its local variable. -/
inductive NetworkRxPc where
  | start
  | idle
  | received (rx tx : Bool)
  | lenRead (len : Nat) (tx : Bool)
  | pushing (len : Nat) (tx : Bool)
  | pushed (len : Nat) (tx : Bool)
  | counted (len : Nat) (tx : Bool)
  | unlocking (tx : Bool)
  | releasing (tx : Bool)
  | releasingFifo (tx : Bool)
  | transmitting
  deriving DecidableEq

/-- From the event on until the push has returned. -/
def NetworkRxPc.inPush : NetworkRxPc → Bool
  | .received rx _ => rx
  | .lenRead _ _ | .pushing _ _ | .pushed _ _ | .counted _ _ | .unlocking _ => true
  | .start | .idle | .releasing _ | .releasingFifo _ | .transmitting => false

/-- From the event on until `net_rx_sem` is released. -/
def NetworkRxPc.holdsPermit (pc : NetworkRxPc) : Bool :=
  pc.inPush || match pc with
    | .releasing _ => true
    | _ => false

/-- With the mutex of the FIFO. -/
def NetworkRxPc.locked : NetworkRxPc → Bool
  | .pushing _ _ | .pushed _ _ | .counted _ _ | .unlocking _ => true
  | _ => false

/-- Between the taking of the semaphore and the sending of the event. -/
def WriterPc.holdsPermit : WriterPc → Bool
  | .idle => false
  | .taken _ | .lenSet _ | .cleared _ | .copied _ => true

variable {ι : Type}

/-- What the threads share. `netRxBuf` is the memory around `net_rx_buf`, by the offset
from it; `net_buf` behind it is the data of the FIFO. `overrun` says that a message has run
over the end of `net_buf`. `taken`, `pushes` and `fifoBefore` are history: the messages whose
writers have taken the semaphore, the pushes that have returned, and the FIFO when the mutex
was last taken. -/
structure RxSys (ι : Type) where
  writer : ι → WriterPc
  network : NetworkRxPc
  netRxSem : Nat
  netRxLen : Nat
  netRxBuf : Int → UInt8
  rxEvent : Bool
  txEvent : Bool
  fifo : NetFifo UInt8
  netFifoSem : Nat
  overrun : Bool
  taken : List RxWrite
  pushes : Nat
  fifoBefore : NetFifo UInt8

/-- After `network_thread_init`; the other variables are zero. -/
def RxSys.initial (netRxBuf : Int → UInt8) (netBuf : Nat → UInt8) : RxSys ι where
  writer := fun _ => .idle
  network := .start
  netRxSem := 1
  netRxLen := 0
  netRxBuf := netRxBuf
  rxEvent := false
  txEvent := false
  fifo := ⟨0, 0, netBuf, 0⟩
  netFifoSem := 1
  overrun := false
  taken := []
  pushes := 0
  fifoBefore := ⟨0, 0, netBuf, 0⟩

/-- A thread goes on. The message is the one a writer comes with, if it is not in
`net_rx_write` already. The event for a packet to transmit is sent by any other thread;
the reader is `net_fifo_read`. After an overrun anything can happen. -/
inductive RxEvent (ι : Type) where
  | write (i : ι) (m : RxWrite)
  | network
  | sendTx
  | read (count : Nat)
  | wild (s : RxSys ι)

/-- The byte at an offset from `net_rx_buf`. -/
def RxSys.memory (s : RxSys ι) (i : Int) : UInt8 :=
  if netRxBufSize ≤ i ∧ i < netRxBufSize + netFifoSize then s.fifo.data (i - netRxBufSize).toNat
  else s.netRxBuf i

/-- `net_buf` after a message has been copied to `net_rx_buf`. -/
def runOver (bytes : List UInt8) (netBuf : Nat → UInt8) (k : Nat) : UInt8 :=
  rxMemory bytes (fun _ => netBuf k) (netRxBufSize + k)

/-- `memset` of `net_rx_buf`. -/
def clearRxBuf (netRxBuf : Int → UInt8) (i : Int) : UInt8 :=
  if 0 ≤ i ∧ i < netRxBufSize then 0 else netRxBuf i

/-- The next statement of `net_rx_write`; without the semaphore it fails in the end. -/
def RxSys.netRxWrite [DecidableEq ι] (s : RxSys ι) (i : ι) (m : RxWrite) : RxSys ι :=
  match s.writer i with
  | .idle =>
    if 0 < s.netRxSem then
      { s with
        netRxSem := s.netRxSem - 1
        taken := s.taken ++ [m]
        writer := Function.update s.writer i (.taken m) }
    else s
  | .taken m =>
    { s with netRxLen := m.bytes.length, writer := Function.update s.writer i (.lenSet m) }
  | .lenSet m =>
    { s with netRxBuf := clearRxBuf s.netRxBuf, writer := Function.update s.writer i (.cleared m) }
  | .cleared m =>
    { s with
      netRxBuf := rxMemory m.bytes s.netRxBuf
      fifo := { s.fifo with data := runOver m.bytes s.fifo.data }
      overrun := s.overrun || decide (netRxBufSize + netFifoSize < m.bytes.length)
      writer := Function.update s.writer i (.copied m) }
  | .copied _ => { s with rxEvent := true, writer := Function.update s.writer i .idle }

/-- The next statement of the network thread; the statements of
`push_data_to_net_fifo` are among them. -/
def RxSys.networkThread (s : RxSys ι) : RxSys ι :=
  match s.network with
  | .start => { s with fifo := fifoInit s.fifo.data netFifoSize, network := .idle }
  | .idle =>
    if s.rxEvent || s.txEvent then
      { s with rxEvent := false, txEvent := false, network := .received s.rxEvent s.txEvent }
    else s
  | .received rx tx =>
    if rx then { s with network := .lenRead s.netRxLen tx }
    else { s with network := if tx then .transmitting else .idle }
  | .lenRead len tx => { s with fifoBefore := s.fifo, network := .pushing len tx }
  | .pushing len tx =>
    { s with fifo := fifoPush s.fifo (s.memory (s.netRxLen - len)), network := .pushed len tx }
  | .pushed len tx => { s with network := .counted (uint16Pred len) tx }
  | .counted len tx =>
    if isFifoFull s.fifo then { s with network := .unlocking tx }
    else { s with network := if len > 0 then .pushing len tx else .unlocking tx }
  | .unlocking tx => { s with pushes := s.pushes + 1, network := .releasing tx }
  | .releasing tx => { s with netRxSem := s.netRxSem + 1, network := .releasingFifo tx }
  | .releasingFifo tx =>
    { s with netFifoSem := s.netFifoSem + 1, network := if tx then .transmitting else .idle }
  | .transmitting => { s with network := .idle }

def rxStep [DecidableEq ι] (s : RxSys ι) : RxEvent ι → RxSys ι × List Unit
  | .write i m => (s.netRxWrite i m, [])
  | .network => (s.networkThread, [])
  | .sendTx => ({ s with txEvent := true }, [])
  | .read count =>
    -- the reader waits for the mutex
    if s.network.locked then (s, [])
    else ({ s with fifo := (netFifoRead true s.fifo count).2 }, [])
  | .wild s' => (if s.overrun then s' else s, [])

/-- The message whose writer takes the semaphore fits into `net_rx_buf`. -/
def RxFits (s : RxSys ι) : RxEvent ι → Prop
  | .write i m => s.writer i = .idle → 0 < s.netRxSem → m.bytes.length ≤ netRxBufSize
  | .network | .sendTx | .read _ | .wild _ => True

/-! ## The permit -/

/-- The permits that are free, with a writer, in the pending event, and with the network
thread. -/
def RxSys.permits [Fintype ι] (s : RxSys ι) : Nat :=
  s.netRxSem + (Finset.univ.filter fun i => (s.writer i).holdsPermit = true).card +
    s.rxEvent.toNat + s.network.holdsPermit.toNat

/-- The message is in the memory from `net_rx_buf` on, and its length in `net_rx_len`. -/
def RxSys.Holds (s : RxSys ι) (m : RxWrite) : Prop :=
  s.netRxLen = m.bytes.length ∧ ∀ (i : Nat) (h : i < m.bytes.length), s.memory i = m.bytes[i]

/-- What the push makes of the FIFO. -/
def RxSys.afterPush (s : RxSys ι) : NetFifo UInt8 :=
  (pushDataToNetFifo true s.netRxBuf s.netRxLen s.fifoBefore).1

/-- What is left of the push after `len` has been counted down. -/
def restOfPush (netRxBuf : Int → UInt8) (netRxLen len : Nat) (f : NetFifo UInt8) :
    NetFifo UInt8 :=
  if isFifoFull f then f
  else if len > 0 then (pushLoop netRxBuf netRxLen (uint16Pred len) len f).1 else f

/-- The message is in `net_rx_buf`, and no longer than that. -/
def RxSys.InBuf (s : RxSys ι) (m : RxWrite) : Prop :=
  m.bytes.length ≤ netRxBufSize ∧ s.netRxLen = m.bytes.length ∧
    ∀ (i : Nat) (h : i < m.bytes.length), s.netRxBuf i = m.bytes[i]

/-- How far a writer has come with its message. -/
def RxSys.Writing (s : RxSys ι) (i : ι) (m : RxWrite) : Prop :=
  s.writer i = .taken m ∧ m.bytes.length ≤ netRxBufSize ∨
    (s.writer i = .lenSet m ∨ s.writer i = .cleared m) ∧ m.bytes.length ≤ netRxBufSize ∧
      s.netRxLen = m.bytes.length ∨
    s.writer i = .copied m ∧ s.InBuf m

/-- How far the push has come: what is left of it ends where the whole of it does. What it
reads next is not behind `net_rx_buf`. -/
def RxSys.Pushing (s : RxSys ι) : Prop :=
  match s.network with
  | .received rx _ => rx = true
  | .lenRead len _ => len = s.netRxLen
  | .pushing len _ =>
    (s.netRxLen - len : Int) < netRxBufSize ∧
      (pushLoop s.netRxBuf s.netRxLen (uint16Pred len) len s.fifo).1 = s.afterPush
  | .pushed len _ => restOfPush s.netRxBuf s.netRxLen (uint16Pred len) s.fifo = s.afterPush
  | .counted len _ => restOfPush s.netRxBuf s.netRxLen len s.fifo = s.afterPush
  | .unlocking _ => s.fifo = s.afterPush
  | _ => False

/-- All writers are outside of `net_rx_write`, or wait for the semaphore. -/
def RxSys.Quiet (s : RxSys ι) : Prop := ∀ i, s.writer i = .idle

/-- Where the permit is, and with it the message. -/
inductive RxStage (s : RxSys ι) : Prop
  | free (hsem : s.netRxSem = 1) (hwriter : s.Quiet) (hevent : s.rxEvent = false)
    (hnet : s.network.holdsPermit = false) (hall : s.taken.length = s.pushes)
  | writing (i : ι) (m : RxWrite) (hsem : s.netRxSem = 0) (hmsg : s.Writing i m)
    (hwriter : ∀ j ≠ i, s.writer j = .idle) (hevent : s.rxEvent = false)
    (hnet : s.network.holdsPermit = false) (hnext : s.taken.drop s.pushes = [m])
  | sent (m : RxWrite) (hsem : s.netRxSem = 0) (hwriter : s.Quiet) (hevent : s.rxEvent = true)
    (hnet : s.network.holdsPermit = false) (hmsg : s.InBuf m)
    (hnext : s.taken.drop s.pushes = [m])
  | pushing (m : RxWrite) (hsem : s.netRxSem = 0) (hwriter : s.Quiet)
    (hevent : s.rxEvent = false) (hnet : s.Pushing) (hmsg : s.InBuf m)
    (hnext : s.taken.drop s.pushes = [m])
  | releasing (tx : Bool) (hsem : s.netRxSem = 0) (hwriter : s.Quiet)
    (hevent : s.rxEvent = false) (hnet : s.network = .releasing tx)
    (hall : s.taken.length = s.pushes)

theorem rxStage_initial (netRxBuf : Int → UInt8) (netBuf : Nat → UInt8) :
    RxStage (RxSys.initial netRxBuf netBuf : RxSys ι) :=
  .free rfl (fun _ => rfl) rfl rfl rfl

/-! ### The memory -/

theorem memory_of_lt (s : RxSys ι) {i : Int} (hi : i < netRxBufSize) :
    s.memory i = s.netRxBuf i := by
  unfold RxSys.memory
  rw [if_neg]
  intro h
  exact absurd hi (not_lt.mpr h.1)

/-- A message that fits into `net_rx_buf` does not touch `net_buf`. -/
theorem runOver_of_fits {bytes : List UInt8} (hfits : bytes.length ≤ netRxBufSize)
    (netBuf : Nat → UInt8) : runOver bytes netBuf = netBuf := by
  funext k
  unfold runOver rxMemory
  rw [dif_neg]
  rintro ⟨-, hlt⟩
  have hk : ((netRxBufSize : Int) + k).toNat = netRxBufSize + k := rfl
  omega

theorem memory_behind (s : RxSys ι) : s.memory (netRxBufSize + 1) = s.fifo.data 1 := by
  unfold RxSys.memory
  rw [if_pos (by decide)]
  rfl

theorem holds_of_inBuf {s : RxSys ι} {m : RxWrite} (h : s.InBuf m) : s.Holds m := by
  obtain ⟨hfits, hlen, hget⟩ := h
  refine ⟨hlen, fun i hi => ?_⟩
  have hlt : (i : Int) < netRxBufSize := Int.ofNat_lt.mpr (Nat.lt_of_lt_of_le hi hfits)
  rw [memory_of_lt s hlt]
  exact hget i hi

/-! ### The network thread -/

theorem pushLoop_eq_rest (netRxBuf : Int → UInt8) (netRxLen rest len : Nat) (f : NetFifo UInt8) :
    (pushLoop netRxBuf netRxLen rest len f).1 =
      restOfPush netRxBuf netRxLen rest (fifoPush f (netRxBuf (netRxLen - len))) := by
  cases rest with
  | zero => simp [pushLoop, restOfPush]
  | succ rest =>
    simp only [pushLoop, restOfPush, uint16Pred, Nat.succ_ne_zero, if_false, Nat.add_sub_cancel,
      gt_iff_lt, Nat.zero_lt_succ, if_true]
    split <;> rfl

/-- Without an event to receive or the permit to release, the thread works on nothing that
the stage is about. -/
theorem networkThread_without_permit {s : RxSys ι} (hnet : s.network.holdsPermit = false)
    (hidle : s.network = .idle → s.rxEvent = false) :
    ∃ fifo network tx sem, NetworkRxPc.holdsPermit network = false ∧
      s.networkThread =
        { s with fifo := fifo, network := network, txEvent := tx, netFifoSem := sem } := by
  obtain ⟨writer, network, netRxSem, netRxLen, netRxBuf, rxEvent, txEvent, fifo, netFifoSem, taken,
    pushes, fifoBefore⟩ := s
  dsimp only at hnet hidle
  cases network with
  | start => exact ⟨_, .idle, _, _, rfl, rfl⟩
  | idle =>
    cases hidle rfl
    cases txEvent with
    | false => exact ⟨_, .idle, _, _, rfl, rfl⟩
    | true => exact ⟨_, .received false true, _, _, rfl, rfl⟩
  | received rx tx =>
    cases rx with
    | true => cases hnet
    | false => cases tx <;> exact ⟨_, _, _, _, rfl, rfl⟩
  | lenRead len tx => cases hnet
  | pushing len tx => cases hnet
  | pushed len tx => cases hnet
  | counted len tx => cases hnet
  | unlocking tx => cases hnet
  | releasing tx => cases hnet
  | releasingFifo tx => cases tx <;> exact ⟨_, _, _, _, rfl, rfl⟩
  | transmitting => exact ⟨_, .idle, _, _, rfl, rfl⟩

/-- A statement of the push: it goes on, or it was the last. -/
theorem networkThread_push {s : RxSys ι} (hlen : s.netRxLen ≤ netRxBufSize) (hpush : s.Pushing) :
    (∃ fifo fifoBefore network,
      s.networkThread = { s with fifo := fifo, fifoBefore := fifoBefore, network := network } ∧
      s.networkThread.Pushing) ∨
    ∃ tx, s.networkThread = { s with pushes := s.pushes + 1, network := .releasing tx } := by
  cases hn : s.network with
  | start | idle | releasing | releasingFifo | transmitting => simp [RxSys.Pushing, hn] at hpush
  | received rx tx =>
    simp only [RxSys.Pushing, hn] at hpush
    refine .inl ⟨s.fifo, s.fifoBefore, .lenRead s.netRxLen tx, ?_, ?_⟩
    · simp [RxSys.networkThread, hn, hpush]
    · simp [RxSys.networkThread, hn, hpush, RxSys.Pushing]
  | lenRead len tx =>
    simp only [RxSys.Pushing, hn] at hpush
    refine .inl ⟨s.fifo, s.fifo, .pushing len tx, ?_, ?_⟩
    · simp [RxSys.networkThread, hn]
    · simp [RxSys.networkThread, hn, hpush, RxSys.Pushing, RxSys.afterPush, pushDataToNetFifo]
  | pushing len tx =>
    simp only [RxSys.Pushing, hn, pushLoop_eq_rest] at hpush
    obtain ⟨hread, hrest⟩ := hpush
    refine .inl ⟨fifoPush s.fifo (s.netRxBuf (s.netRxLen - len)), s.fifoBefore, .pushed len tx,
      ?_, ?_⟩
    · simp [RxSys.networkThread, hn, memory_of_lt s hread]
    · simpa [RxSys.networkThread, hn, RxSys.Pushing, RxSys.afterPush, memory_of_lt s hread]
        using hrest
  | pushed len tx =>
    simp only [RxSys.Pushing, hn] at hpush
    refine .inl ⟨s.fifo, s.fifoBefore, .counted (uint16Pred len) tx, ?_, ?_⟩
    · simp [RxSys.networkThread, hn]
    · simpa [RxSys.networkThread, hn, RxSys.Pushing, RxSys.afterPush] using hpush
  | counted len tx =>
    simp only [RxSys.Pushing, hn, restOfPush] at hpush
    by_cases hfull : isFifoFull s.fifo = true
    · rw [if_pos hfull] at hpush
      refine .inl ⟨s.fifo, s.fifoBefore, .unlocking tx, ?_, ?_⟩
      · simp [RxSys.networkThread, hn, hfull]
      · simpa [RxSys.networkThread, hn, hfull, RxSys.Pushing, RxSys.afterPush] using hpush
    · rw [if_neg hfull] at hpush
      by_cases hmore : len > 0
      · rw [if_pos hmore] at hpush
        have hread : (s.netRxLen - len : Int) < netRxBufSize := by omega
        refine .inl ⟨s.fifo, s.fifoBefore, .pushing len tx, ?_, ?_⟩
        · simp [RxSys.networkThread, hn, hfull, hmore]
        · simp only [RxSys.networkThread, hn, hfull, hmore, if_true, RxSys.Pushing]
          exact ⟨hread, hpush⟩
      · rw [if_neg hmore] at hpush
        refine .inl ⟨s.fifo, s.fifoBefore, .unlocking tx, ?_, ?_⟩
        · simp [RxSys.networkThread, hn, hfull, hmore]
        · simpa [RxSys.networkThread, hn, hfull, hmore, RxSys.Pushing, RxSys.afterPush] using hpush
  | unlocking tx => exact .inr ⟨tx, by simp [RxSys.networkThread, hn]⟩

theorem taken_networkThread (s : RxSys ι) : s.networkThread.taken = s.taken := by
  cases hn : s.network <;> simp only [RxSys.networkThread, hn] <;> (try split) <;> rfl

theorem overrun_networkThread (s : RxSys ι) : s.networkThread.overrun = s.overrun := by
  cases hn : s.network <;> simp only [RxSys.networkThread, hn] <;> (try split) <;> rfl

/-- A reader outside of the push does not matter to it. -/
theorem pushing_read {s : RxSys ι} (hfree : s.network.locked = false) (hpush : s.Pushing)
    (f : NetFifo UInt8) : RxSys.Pushing { s with fifo := f } := by
  cases hn : s.network with
  | start | idle | releasing | releasingFifo | transmitting => simp [RxSys.Pushing, hn] at hpush
  | received | lenRead => simpa [RxSys.Pushing, hn] using hpush
  | pushing | pushed | counted | unlocking => simp [NetworkRxPc.locked, hn] at hfree

/-- The stage is not about the event to transmit, nor about the FIFO but in the push. -/
theorem rxStage_other {s : RxSys ι} (h : RxStage s) (tx : Bool) (f : NetFifo UInt8)
    (hpush : s.Pushing → RxSys.Pushing { s with fifo := f }) :
    RxStage { s with txEvent := tx, fifo := f } := by
  cases h with
  | free hsem hwriter hevent hnet hall => exact .free hsem hwriter hevent hnet hall
  | writing i m hsem hmsg hwriter hevent hnet hnext =>
    exact .writing i m hsem hmsg hwriter hevent hnet hnext
  | sent m hsem hwriter hevent hnet hmsg hnext => exact .sent m hsem hwriter hevent hnet hmsg hnext
  | pushing m hsem hwriter hevent hnet hmsg hnext =>
    exact .pushing m hsem hwriter hevent (hpush hnet) hmsg hnext
  | releasing tx' hsem hwriter hevent hnet hall =>
    exact .releasing tx' hsem hwriter hevent hnet hall

theorem rxStage_network {s : RxSys ι} (h : RxStage s) : RxStage s.networkThread := by
  cases h with
  | free hsem hwriter hevent hnet hall =>
    obtain ⟨_, _, _, _, hnet', heq⟩ := networkThread_without_permit hnet fun _ => hevent
    rw [heq]
    exact .free hsem hwriter hevent hnet' hall
  | writing i m hsem hmsg hwriter hevent hnet hnext =>
    obtain ⟨_, _, _, _, hnet', heq⟩ := networkThread_without_permit hnet fun _ => hevent
    rw [heq]
    exact .writing i m hsem hmsg hwriter hevent hnet' hnext
  | sent m hsem hwriter hevent hnet hmsg hnext =>
    by_cases hidle : s.network = .idle
    · -- the event is received
      have heq : s.networkThread =
          { s with rxEvent := false, txEvent := false, network := .received true s.txEvent } := by
        simp [RxSys.networkThread, hidle, hevent]
      rw [heq]
      exact .pushing m hsem hwriter rfl rfl hmsg hnext
    · obtain ⟨_, _, _, _, hnet', heq⟩ := networkThread_without_permit hnet fun hi => absurd hi hidle
      rw [heq]
      exact .sent m hsem hwriter hevent hnet' hmsg hnext
  | pushing m hsem hwriter hevent hnet hmsg hnext =>
    rcases networkThread_push (hmsg.2.1 ▸ hmsg.1) hnet with ⟨_, _, _, heq, hnet'⟩ | ⟨tx, heq⟩
    · rw [heq] at hnet' ⊢
      exact .pushing m hsem hwriter hevent hnet' hmsg hnext
    · rw [heq]
      refine .releasing tx hsem hwriter hevent rfl ?_
      have hlen := congrArg List.length hnext
      rw [List.length_drop, List.length_singleton] at hlen
      show s.taken.length = s.pushes + 1
      omega
  | releasing tx hsem hwriter hevent hnet hall =>
    have heq : s.networkThread = { s with netRxSem := 1, network := .releasingFifo tx } := by
      simp [RxSys.networkThread, hnet, hsem]
    rw [heq]
    exact .free rfl hwriter hevent rfl hall

/-! ### The writers -/

section Writers
variable [DecidableEq ι]

theorem netRxWrite_waits {s : RxSys ι} {i : ι} (m : RxWrite) (hsem : s.netRxSem = 0)
    (hi : s.writer i = .idle) : s.netRxWrite i m = s := by
  simp [RxSys.netRxWrite, hi, hsem]

theorem rxStage_take {s : RxSys ι} {i : ι} {m : RxWrite}
    (hfits : m.bytes.length ≤ netRxBufSize) (hsem : s.netRxSem = 1)
    (hwriter : s.Quiet) (hevent : s.rxEvent = false) (hnet : s.network.holdsPermit = false)
    (hall : s.taken.length = s.pushes) : RxStage (s.netRxWrite i m) := by
  have heq : s.netRxWrite i m =
      { s with
        netRxSem := 0
        taken := s.taken ++ [m]
        writer := Function.update s.writer i (.taken m) } := by
    simp [RxSys.netRxWrite, hwriter i, hsem]
  rw [heq]
  refine .writing i m rfl ?_ ?_ hevent hnet ?_
  · exact .inl ⟨Function.update_self .., hfits⟩
  · intro j hj
    exact (Function.update_of_ne hj ..).trans (hwriter j)
  · show (s.taken ++ [m]).drop s.pushes = [m]
    rw [← hall, List.drop_left]

/-- The writer with the permit goes on: the message is in the buffer when the event is
sent. -/
theorem rxStage_writing {s : RxSys ι} {i : ι} {m : RxWrite} (m' : RxWrite)
    (hsem : s.netRxSem = 0) (hmsg : s.Writing i m) (hwriter : ∀ j ≠ i, s.writer j = .idle)
    (hevent : s.rxEvent = false) (hnet : s.network.holdsPermit = false)
    (hnext : s.taken.drop s.pushes = [m]) : RxStage (s.netRxWrite i m') := by
  have hothers : ∀ pc, ∀ j ≠ i, Function.update s.writer i pc j = .idle := fun pc j hj =>
    (Function.update_of_ne hj ..).trans (hwriter j hj)
  rcases hmsg with ⟨hpc, hfits⟩ | ⟨hpc | hpc, hfits, hlen⟩ | ⟨hpc, hin⟩
  · have heq : s.netRxWrite i m' =
        { s with
          netRxLen := m.bytes.length
          writer := Function.update s.writer i (.lenSet m) } := by
      simp [RxSys.netRxWrite, hpc]
    rw [heq]
    exact .writing i m hsem (.inr (.inl ⟨.inl (Function.update_self ..), hfits, rfl⟩)) (hothers _)
      hevent hnet hnext
  · have heq : s.netRxWrite i m' =
        { s with
          netRxBuf := clearRxBuf s.netRxBuf
          writer := Function.update s.writer i (.cleared m) } := by
      simp [RxSys.netRxWrite, hpc]
    rw [heq]
    exact .writing i m hsem (.inr (.inl ⟨.inr (Function.update_self ..), hfits, hlen⟩)) (hothers _)
      hevent hnet hnext
  · -- the copy stays inside of `net_rx_buf`
    have hover : ¬ netRxBufSize + netFifoSize < m.bytes.length := by omega
    have heq : s.netRxWrite i m' =
        { s with
          netRxBuf := rxMemory m.bytes s.netRxBuf
          writer := Function.update s.writer i (.copied m) } := by
      simp only [RxSys.netRxWrite, hpc, runOver_of_fits hfits, decide_eq_false hover, Bool.or_false]
    rw [heq]
    refine .writing i m hsem (.inr (.inr ⟨Function.update_self .., hfits, hlen, ?_⟩)) (hothers _)
      hevent hnet hnext
    intro k hk
    exact rxMemory_get s.netRxBuf hk
  · have heq : s.netRxWrite i m' =
        { s with rxEvent := true, writer := Function.update s.writer i .idle } := by
      simp [RxSys.netRxWrite, hpc]
    rw [heq]
    refine .sent m hsem ?_ rfl hnet hin hnext
    intro j
    by_cases hj : j = i
    · rw [hj]
      exact Function.update_self ..
    · exact hothers _ j hj

theorem rxStage_write {s : RxSys ι} {i : ι} {m : RxWrite} (hfits : RxFits s (.write i m))
    (h : RxStage s) : RxStage (s.netRxWrite i m) := by
  cases h with
  | free hsem hwriter hevent hnet hall =>
    have hlen := hfits (hwriter i) (by rw [hsem]; exact Nat.one_pos)
    exact rxStage_take hlen hsem hwriter hevent hnet hall
  | writing j m' hsem hmsg hwriter hevent hnet hnext =>
    by_cases hij : i = j
    · subst hij
      exact rxStage_writing m hsem hmsg hwriter hevent hnet hnext
    · rw [netRxWrite_waits m hsem (hwriter i hij)]
      exact .writing j m' hsem hmsg hwriter hevent hnet hnext
  | sent m' hsem hwriter hevent hnet hmsg hnext =>
    rw [netRxWrite_waits m hsem (hwriter i)]
    exact .sent m' hsem hwriter hevent hnet hmsg hnext
  | pushing m' hsem hwriter hevent hnet hmsg hnext =>
    rw [netRxWrite_waits m hsem (hwriter i)]
    exact .pushing m' hsem hwriter hevent hnet hmsg hnext
  | releasing tx hsem hwriter hevent hnet hall =>
    rw [netRxWrite_waits m hsem (hwriter i)]
    exact .releasing tx hsem hwriter hevent hnet hall

/-- The message that is copied fits. -/
theorem overrun_write {s : RxSys ι} (i : ι) (m : RxWrite) (h : RxStage s) :
    (s.netRxWrite i m).overrun = s.overrun := by
  cases hw : s.writer i with
  | idle =>
    simp only [RxSys.netRxWrite, hw]
    split <;> rfl
  | taken m' | lenSet m' | copied m' => simp only [RxSys.netRxWrite, hw]
  | cleared m' =>
    have hfits : m'.bytes.length ≤ netRxBufSize := by
      cases h with
      | free hsem hwriter | sent _ hsem hwriter | pushing _ hsem hwriter
      | releasing _ hsem hwriter => simp [hwriter i] at hw
      | writing j m hsem hmsg hwriter =>
        by_cases hij : i = j
        · subst hij
          rcases hmsg with ⟨hpc, -⟩ | ⟨hpc | hpc, hfits, -⟩ | ⟨hpc, -⟩ <;> rw [hpc] at hw
          · cases hw
          · cases hw
          · cases hw
            exact hfits
          · cases hw
        · simp [hwriter i hij] at hw
    have hover : ¬ netRxBufSize + netFifoSize < m'.bytes.length := by omega
    simp only [RxSys.netRxWrite, hw, decide_eq_false hover, Bool.or_false]

/-! ## Runs -/

/-- What every run keeps whose messages fit. -/
def RxSys.Within (s : RxSys ι) : Prop := RxStage s ∧ s.overrun = false

theorem within_step (s : RxSys ι) (e : RxEvent ι) (h : s.Within) (hfits : RxFits s e) :
    (rxStep s e).1.Within := by
  obtain ⟨hstage, hover⟩ := h
  cases e with
  | write i m => exact ⟨rxStage_write hfits hstage, (overrun_write i m hstage).trans hover⟩
  | network => exact ⟨rxStage_network hstage, (overrun_networkThread s).trans hover⟩
  | sendTx => exact ⟨rxStage_other hstage true s.fifo id, hover⟩
  | read count =>
    simp only [rxStep]
    split
    · exact ⟨hstage, hover⟩
    · next hfree =>
      have hpush := fun hpush : s.Pushing => pushing_read (Bool.eq_false_iff.mpr hfree) hpush
      exact ⟨rxStage_other hstage s.txEvent _ fun hnet => hpush hnet _, hover⟩
  | wild s' =>
    simp only [rxStep, hover, Bool.false_eq_true, if_false]
    exact ⟨hstage, hover⟩

/-- A take that succeeds finds the semaphore free. -/
theorem sem_of_taken {s : RxSys ι} {e : RxEvent ι} (hover : s.overrun = false)
    (h : (rxStep s e).1.taken ≠ s.taken) : 0 < s.netRxSem := by
  cases e with
  | write i m =>
    by_contra hsem
    apply h
    simp only [rxStep]
    cases hw : s.writer i <;> simp [RxSys.netRxWrite, hw, hsem]
  | network => exact absurd (taken_networkThread s) h
  | sendTx => exact absurd rfl h
  | read count =>
    refine absurd ?_ h
    simp only [rxStep]
    split <;> rfl
  | wild s' =>
    refine absurd ?_ h
    simp only [rxStep, hover, Bool.false_eq_true, if_false]

end Writers

/-! ## What the stage says -/

section Stage
variable {s : RxSys ι}

theorem inPush_of_pushing (h : s.Pushing) : s.network.inPush = true := by
  cases hn : s.network with
  | start | idle | releasing | releasingFifo | transmitting => simp [RxSys.Pushing, hn] at h
  | received rx tx =>
    simp only [RxSys.Pushing, hn] at h
    exact h
  | lenRead | pushing | pushed | counted | unlocking => rfl

theorem holdsPermit_of_inPush {pc : NetworkRxPc} (h : pc.inPush = true) :
    pc.holdsPermit = true := by
  unfold NetworkRxPc.holdsPermit
  rw [h, Bool.true_or]

theorem filter_quiet [Fintype ι] (h : s.Quiet) :
    (Finset.univ.filter fun i => (s.writer i).holdsPermit = true) = ∅ := by
  apply Finset.filter_eq_empty_iff.mpr
  intro i _
  rw [h i]
  exact Bool.false_ne_true

/-- **Conservation.** -/
theorem permits_eq_one [Fintype ι] (h : RxStage s) : s.permits = 1 := by
  cases h with
  | free hsem hwriter hevent hnet hall =>
    rw [RxSys.permits, hsem, filter_quiet hwriter, hevent, hnet]
    rfl
  | writing i m hsem hmsg hwriter hevent hnet hnext =>
    have hone : (Finset.univ.filter fun j => (s.writer j).holdsPermit = true) = {i} := by
      ext j
      rw [Finset.mem_filter_univ, Finset.mem_singleton]
      constructor
      · intro hj
        by_contra hne
        rw [hwriter j hne] at hj
        cases hj
      · rintro rfl
        rcases hmsg with ⟨hpc, -⟩ | ⟨hpc | hpc, -⟩ | ⟨hpc, -⟩ <;> rw [hpc] <;> rfl
    rw [RxSys.permits, hsem, hone, hevent, hnet]
    rfl
  | sent m hsem hwriter hevent hnet hmsg hnext =>
    rw [RxSys.permits, hsem, filter_quiet hwriter, hevent, hnet]
    rfl
  | pushing m hsem hwriter hevent hnet hmsg hnext =>
    rw [RxSys.permits, hsem, filter_quiet hwriter, hevent,
      holdsPermit_of_inPush (inPush_of_pushing hnet)]
    rfl
  | releasing tx hsem hwriter hevent hnet hall =>
    rw [RxSys.permits, hsem, filter_quiet hwriter, hevent, hnet]
    rfl

/-- In the push the buffer holds the only message that has not been pushed yet. -/
theorem message_of_inPush (h : RxStage s) (hin : s.network.inPush = true) :
    ∃ m, s.taken.drop s.pushes = [m] ∧ s.InBuf m ∧ s.Pushing := by
  cases h with
  | free hsem hwriter hevent hnet hall => simp [holdsPermit_of_inPush hin] at hnet
  | writing i m hsem hmsg hwriter hevent hnet hnext => simp [holdsPermit_of_inPush hin] at hnet
  | sent m hsem hwriter hevent hnet hmsg hnext => simp [holdsPermit_of_inPush hin] at hnet
  | pushing m hsem hwriter hevent hnet hmsg hnext => exact ⟨m, hnext, hmsg, hnet⟩
  | releasing tx hsem hwriter hevent hnet hall => simp [hnet, NetworkRxPc.inPush] at hin

theorem pushed_of_sem (h : RxStage s) (hsem : 0 < s.netRxSem) : s.taken.length = s.pushes := by
  cases h with
  | free hsem' hwriter hevent hnet hall => exact hall
  | writing i m hsem' => omega
  | sent m hsem' => omega
  | pushing m hsem' => omega
  | releasing tx hsem' => omega

theorem inBuf_rxMemory {m : RxWrite} (h : s.InBuf m) :
    rxMemory m.bytes s.netRxBuf = s.netRxBuf := by
  funext i
  unfold rxMemory
  split
  · next hi =>
    rw [← h.2.2 i.toNat hi.2, Int.toNat_of_nonneg hi.1]
  · rfl

end Stage

/-- **Hand-off.** Whatever the order of the threads' statements: as long as every message
fits into `net_rx_buf`, there is one permit. While the network thread pushes, the memory holds
the next message in the order of the takes, and there is no later one; the push leaves the
FIFO as if it had run at once on that message. A take succeeds only when all messages taken
before have been pushed. -/
theorem rx_hand_off [Fintype ι] [DecidableEq ι] (netRxBuf : Int → UInt8) (netBuf : Nat → UInt8)
    (evs : List (RxEvent ι))
    (hfits : Machine.Along rxStep RxFits (RxSys.initial netRxBuf netBuf) evs) :
    let s := Machine.last rxStep (RxSys.initial netRxBuf netBuf) evs
    s.permits = 1 ∧
      (s.network.inPush = true →
        ∃ m, s.taken[s.pushes]? = some m ∧ s.taken.length = s.pushes + 1 ∧ s.Holds m) ∧
      (∀ tx, s.network = .unlocking tx →
        ∃ m, s.taken[s.pushes]? = some m ∧
          s.fifo = (pushDataToNetFifo true (rxMemory m.bytes s.netRxBuf) m.bytes.length
            s.fifoBefore).1) ∧
      ∀ e, (rxStep s e).1.taken ≠ s.taken → s.taken.length = s.pushes := by
  intro s
  obtain ⟨hstage, hover⟩ : s.Within :=
    Machine.along_last within_step ⟨rxStage_initial .., rfl⟩ hfits
  have hnext : ∀ {m}, s.taken.drop s.pushes = [m] →
      s.taken[s.pushes]? = some m ∧ s.taken.length = s.pushes + 1 := by
    intro m hdrop
    have hlen := congrArg List.length hdrop
    have hget := congrArg (fun l : List RxWrite => l[0]?) hdrop
    rw [List.length_drop, List.length_singleton] at hlen
    simp only [List.getElem?_drop] at hget
    exact ⟨hget, by omega⟩
  refine ⟨permits_eq_one hstage, ?_, ?_, ?_⟩
  · intro hpush
    obtain ⟨m, hdrop, hin, -⟩ := message_of_inPush hstage hpush
    exact ⟨m, (hnext hdrop).1, (hnext hdrop).2, holds_of_inBuf hin⟩
  · intro tx hpc
    obtain ⟨m, hdrop, hin, hpush⟩ := message_of_inPush hstage (by rw [hpc]; rfl)
    refine ⟨m, (hnext hdrop).1, ?_⟩
    rw [inBuf_rxMemory hin, ← hin.2.1]
    simp only [RxSys.Pushing, hpc] at hpush
    exact hpush
  · intro e htake
    exact pushed_of_sem hstage (sem_of_taken hover htake)

/-- Two writers and one permit: the one that comes second waits while the message of the first
is pushed. -/
theorem rx_hand_off_two :
    let evs : List (RxEvent Bool) :=
      [.network, .write true ⟨[11, 12], by decide⟩, .write false ⟨[13], by decide⟩,
        .write true ⟨[], by decide⟩, .write true ⟨[], by decide⟩, .write true ⟨[], by decide⟩,
        .write true ⟨[], by decide⟩, .network, .write false ⟨[13], by decide⟩, .network]
    let s := Machine.last rxStep (RxSys.initial (fun _ => 0) fun _ => 0) evs
    s.network = .lenRead 2 false ∧
      ∃ m, s.taken[s.pushes]? = some m ∧ s.taken.length = s.pushes + 1 ∧ s.Holds m := by
  intro evs s
  have hfits : Machine.Along rxStep RxFits (RxSys.initial (fun _ => 0) fun _ => 0) evs :=
    ⟨trivial, fun _ _ => by decide, fun _ _ => by decide, fun _ _ => by decide,
      fun _ _ => by decide, fun _ _ => by decide, fun _ _ => by decide, trivial,
      fun _ _ => by decide, trivial, trivial⟩
  exact ⟨rfl, (rx_hand_off _ _ evs hfits).2.1 rfl⟩

/-! ## A message that is too long -/

section Overrun
variable [DecidableEq ι]

/-- The push of a message into a FIFO that begins where `net_buf` does has come to byte `k`. -/
structure RxSys.Pushed (s : RxSys ι) (m : RxWrite) (k : Nat) : Prop where
  pc : s.network = .pushing (m.bytes.length - k) false
  len_eq : s.netRxLen = m.bytes.length
  next : s.taken[s.pushes]? = some m
  size_eq : s.fifo.size = netFifoSize
  begin_eq : s.fifo.beginIx = 0
  end_eq : s.fifo.endIx = k
  front : m.bytes[0]? = some (s.netRxBuf 0)
  first : 0 < k → s.fifo.data 1 = s.netRxBuf 0

/-- The three statements of a round. -/
def pushRound : List (RxEvent ι) := [.network, .network, .network]

theorem last_pushRound {s : RxSys ι} {len : Nat} (hpc : s.network = .pushing len false)
    (hlen : 1 < len)
    (hroom : isFifoFull (fifoPush s.fifo (s.memory (s.netRxLen - len))) = false) :
    Machine.last rxStep s pushRound =
      { s with
        fifo := fifoPush s.fifo (s.memory (s.netRxLen - len))
        network := .pushing (len - 1) false } := by
  have hpred : uint16Pred len = len - 1 := if_neg (Nat.ne_of_gt (Nat.zero_lt_of_lt hlen))
  have hmore : len - 1 > 0 := Nat.sub_pos_of_lt hlen
  simp only [pushRound, Machine.last, Machine.run, rxStep]
  rw [show s.networkThread = _ by rw [RxSys.networkThread, hpc]]
  simp only [RxSys.networkThread, hpred, hroom, hmore, Bool.false_eq_true, if_false, if_true]

theorem pushed_round {s : RxSys ι} {m : RxWrite} {k : Nat} (h : s.Pushed m k)
    (hroom : k + 2 < netFifoSize) (hmore : k + 1 < m.bytes.length) :
    (Machine.last rxStep s pushRound).Pushed m (k + 1) := by
  have hnext : fifoNext s.fifo s.fifo.endIx = k + 1 := by
    rw [fifoNext, h.end_eq, h.size_eq]
    exact Nat.mod_eq_of_lt (by omega)
  have hfull : isFifoFull (fifoPush s.fifo (s.memory (s.netRxLen - (m.bytes.length - k : Nat)))) =
      false := by
    show (fifoNext s.fifo (fifoNext s.fifo s.fifo.endIx) == s.fifo.beginIx) = false
    rw [hnext, h.begin_eq, fifoNext, h.size_eq, Nat.mod_eq_of_lt hroom]
    rfl
  rw [last_pushRound h.pc (by omega) hfull]
  refine ⟨?_, h.len_eq, h.next, h.size_eq, h.begin_eq, hnext, h.front, fun _ => ?_⟩
  · rw [Nat.sub_sub]
  · show Function.update s.fifo.data (fifoNext s.fifo s.fifo.endIx) _ 1 = s.netRxBuf 0
    rw [hnext]
    cases k with
    | zero =>
      -- the first byte of the message is stored behind the end, in `net_buf[1]`
      rw [Function.update_self, h.len_eq, Nat.sub_zero, Int.sub_self]
      exact memory_of_lt s (by decide)
    | succ k =>
      rw [Function.update_of_ne (by omega)]
      exact h.first (Nat.succ_pos k)

theorem pushed_rounds {s : RxSys ι} {m : RxWrite} (h : s.Pushed m 0) {k : Nat}
    (hroom : k + 1 < netFifoSize) (hmore : k < m.bytes.length) :
    (Machine.last rxStep s (List.replicate k pushRound).flatten).Pushed m k := by
  induction k with
  | zero => exact h
  | succ k ih =>
    have hpushed := ih (by omega) (by omega)
    rw [List.replicate_succ', List.flatten_append, Machine.last_append]
    simpa using pushed_round hpushed hroom hmore

/-- **Overrun.** A message with more bytes than `net_rx_buf` has, and one more, is not pushed as
it was written: where its byte 1461 should come, the first byte is read again, which the push
itself has stored there. -/
theorem push_overrun {s : RxSys ι} {m : RxWrite} {n : Nat} (hn : n = netRxBufSize + 1)
    (h : s.Pushed m 0) (hlong : n < m.bytes.length) :
    let s' := Machine.last rxStep s (List.replicate n pushRound).flatten
    s'.network = .pushing (m.bytes.length - n) false ∧ s'.taken[s'.pushes]? = some m ∧
      m.bytes[0]? = some (s'.memory (s'.netRxLen - (m.bytes.length - n : Nat))) := by
  intro s'
  have hpushed : s'.Pushed m n := pushed_rounds h (by rw [hn]; decide) hlong
  refine ⟨hpushed.pc, hpushed.next, ?_⟩
  have hread : (s'.netRxLen - (m.bytes.length - n : Nat) : Int) = netRxBufSize + 1 := by
    rw [hpushed.len_eq]
    omega
  rw [hread, hpushed.front, ← hpushed.first (by omega), memory_behind]

end Overrun

/-- A one and 1461 zeros. -/
def tooLong : RxWrite where
  bytes := 1 :: List.replicate 1461 0
  length_lt := by
    rw [List.length_cons, List.length_replicate]
    decide

/-- A writer comes with a message, and the network thread begins to push it. -/
def writeAndPush (m : RxWrite) : List (RxEvent Unit) :=
  [.network, .write () m, .write () m, .write () m, .write () m, .write () m, .network, .network,
    .network]

theorem pushed_writeAndPush (netRxBuf : Int → UInt8) (netBuf : Nat → UInt8) {m : RxWrite}
    (hm : 0 < m.bytes.length) :
    (Machine.last rxStep (RxSys.initial netRxBuf netBuf) (writeAndPush m)).Pushed m 0 := by
  refine ⟨rfl, rfl, rfl, rfl, rfl, rfl, ?_, fun h => absurd h (Nat.lt_irrefl 0)⟩
  rw [List.getElem?_eq_getElem hm]
  exact congrArg some (rxMemory_get _ hm).symm

/-- The push reads a one where the message has its last zero. -/
theorem too_long_not_pushed :
    ¬ ∀ (evs : List (RxEvent Unit)) (m : RxWrite) (len : Nat),
      let s := Machine.last rxStep (RxSys.initial (fun _ => 0) fun _ => 0) evs
      s.network = .pushing len false → s.taken[s.pushes]? = some m →
        m.bytes[m.bytes.length - len]? = some (s.memory (s.netRxLen - len)) := by
  intro h
  obtain ⟨n, hn⟩ : ∃ n, n = netRxBufSize + 1 := ⟨_, rfl⟩
  have hlen : tooLong.bytes.length = n + 1 := by
    rw [hn, tooLong, List.length_cons, List.length_replicate]
  have hstart := pushed_writeAndPush (fun _ => 0) (fun _ => 0) (m := tooLong) (by omega)
  obtain ⟨hpc, hnext, hread⟩ := push_overrun hn hstart (by omega)
  have hwrong := h (writeAndPush tooLong ++ (List.replicate n pushRound).flatten) tooLong
    (tooLong.bytes.length - n)
  rw [Machine.last_append] at hwrong
  have hlast := hwrong hpc hnext
  rw [← hread, hlen, Nat.add_sub_cancel_left, Nat.add_sub_cancel, hn] at hlast
  have hzero : tooLong.bytes[netRxBufSize + 1]? = some 0 := by
    rw [tooLong, List.getElem?_cons_succ, List.getElem?_replicate, if_pos (by decide)]
  have hone : tooLong.bytes[0]? = some 1 := rfl
  rw [hzero, hone] at hlast
  cases hlast

end IBoxClient
