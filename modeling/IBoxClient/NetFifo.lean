import IBoxClient.Lib.Machine
import IBoxClient.Lib.Cyclic

/- The receive FIFO of `network.c`. The network thread pushes every received
   message into it (`pushDataToNetFifo`), the MQTT client reads from it
   (`netFifoRead`). `Begin` and `End` index the cell before the first and the last
   unread byte, so the 2048 cells hold at most 2047 bytes.

   The FIFO is a queue (`contents`): a push on a FIFO that is not full appends
   (`contents_push`), a pop takes the front (`contents_pop`), a read takes as many
   bytes as there are (`netFifoRead_spec`). A push on a full FIFO moves `End` onto
   `Begin` and so empties it (`contents_push_full`).

   The loop of `pushDataToNetFifo` pushes first and tests afterwards, and counts
   its 16-bit length down before it compares it with zero. On a non-empty message
   and a FIFO with room it appends as much as fits (`pushData_spec`); on a full
   FIFO it throws the queue away, and on an empty message it reads memory that is
   not part of the message. `push_keeps_queue_iff` says that these are the only
   exceptions.

   The cells have any type: the runs of the client put bytes tagged with their
   position in the inbound stream through the same code. -/
namespace IBoxClient

/-- `NET_RX_BUF_SIZE`. -/
abbrev netRxBufSize : Nat := 1460

/-- The size `network_thread_entry` gives `fifo_init`. -/
abbrev netFifoSize : Nat := 2048

/-- `net_fifo_t`: the fields `Begin`, `End`, `Data` and `Size`. -/
structure NetFifo (α : Type) where
  beginIx : Nat
  endIx : Nat
  data : Nat → α
  size : Nat

variable {α : Type}

def fifoNext (f : NetFifo α) (index : Nat) : Nat := (index + 1) % f.size

def fifoInit (buffer : Nat → α) (size : Nat) : NetFifo α := ⟨0, 0, buffer, size⟩

def fifoPush (f : NetFifo α) (x : α) : NetFifo α :=
  { f with
    endIx := fifoNext f f.endIx
    data := Function.update f.data (fifoNext f f.endIx) x }

def fifoPop (f : NetFifo α) : α × NetFifo α :=
  (f.data (fifoNext f f.beginIx), { f with beginIx := fifoNext f f.beginIx })

/-- `fifo_flush`, which nothing calls. -/
def fifoFlush (f : NetFifo α) : NetFifo α := { f with beginIx := 0, endIx := 0 }

def isFifoEmpty (f : NetFifo α) : Bool := f.beginIx == f.endIx

def isFifoFull (f : NetFifo α) : Bool := fifoNext f f.endIx == f.beginIx

/-- The rounds of the loop of `push_data_to_net_fifo`. A round pushes
`net_rx_buf[net_rx_len - len]`; `rest` is the value of `len` after `len--`. With
the FIFO are returned the indices read. -/
def pushLoop (netRxBuf : Int → α) (netRxLen : Nat) :
    Nat → Nat → NetFifo α → NetFifo α × List Int
  | 0, len, f => (fifoPush f (netRxBuf (netRxLen - len)), [(netRxLen - len : Int)])
  | rest + 1, len, f =>
    let f' := fifoPush f (netRxBuf (netRxLen - len))
    if isFifoFull f' then (f', [(netRxLen - len : Int)])
    else
      let r := pushLoop netRxBuf netRxLen rest (rest + 1) f'
      (r.1, (netRxLen - len : Int) :: r.2)

/-- `len--` of a `uint16_t`. -/
def uint16Pred (len : Nat) : Nat := if len = 0 then 65535 else len - 1

/-- `push_data_to_net_fifo`: `mutexTaken` is the outcome of `rt_mutex_take`. The
first `len--` wraps when the message is empty. -/
def pushDataToNetFifo (mutexTaken : Bool) (netRxBuf : Int → α) (netRxLen : Nat)
    (f : NetFifo α) : NetFifo α × List Int :=
  if mutexTaken then pushLoop netRxBuf netRxLen (uint16Pred netRxLen) netRxLen f
  else (f, [])

/-- The loop of `net_fifo_read`; `buf` is what has been read so far. -/
def netFifoReadLoop : Nat → NetFifo α → List α → List α × NetFifo α
  | 0, f, buf => (buf, f)
  | count + 1, f, buf =>
    let p := fifoPop f
    if isFifoEmpty p.2 then (buf ++ [p.1], p.2)
    else netFifoReadLoop count p.2 (buf ++ [p.1])

/-- `net_fifo_read`: the bytes stored, whose number is the return value. -/
def netFifoRead (mutexTaken : Bool) (f : NetFifo α) (count : Nat) : List α × NetFifo α :=
  if isFifoEmpty f then ([], f)
  else if mutexTaken then netFifoReadLoop count f []
  else ([], f)

namespace NetFifo

/-- A FIFO of `n` cells, its indices inside. -/
structure Ok (n : Nat) (f : NetFifo α) : Prop where
  size_eq : f.size = n
  begin_lt : f.beginIx < n
  end_lt : f.endIx < n

/-- The bytes from `Begin + 1` to `End`. -/
def contents (f : NetFifo α) : List α :=
  Cyclic.slice f.size f.data (fifoNext f f.beginIx) (Cyclic.dist f.size f.beginIx f.endIx)

variable {n : Nat} {f : NetFifo α}

theorem ok_init (buffer : Nat → α) (hn : 0 < n) : Ok n (fifoInit buffer n) := ⟨rfl, hn, hn⟩

@[simp] theorem contents_init (buffer : Nat → α) : (fifoInit buffer n).contents = [] := by
  simp [contents, fifoInit, Cyclic.dist]

theorem length_contents (f : NetFifo α) :
    f.contents.length = Cyclic.dist f.size f.beginIx f.endIx := Cyclic.length_slice ..

theorem length_contents_lt (h : Ok n f) : f.contents.length < n := by
  rw [length_contents, h.size_eq]
  exact Cyclic.dist_lt (Nat.lt_of_le_of_lt (Nat.zero_le _) h.begin_lt) _ _

theorem isEmpty_iff (h : Ok n f) : isFifoEmpty f = true ↔ f.contents = [] := by
  rw [isFifoEmpty, beq_iff_eq, ← List.length_eq_zero_iff, length_contents, h.size_eq]
  exact (Cyclic.dist_eq_zero h.begin_lt h.end_lt).symm

theorem isFull_iff (h : Ok n f) : isFifoFull f = true ↔ f.contents.length = n - 1 := by
  rw [isFifoFull, beq_iff_eq, length_contents, fifoNext, h.size_eq]
  exact Cyclic.next_eq_iff_dist h.begin_lt h.end_lt

theorem ok_push (h : Ok n f) (x : α) : Ok n (fifoPush f x) := by
  refine ⟨h.size_eq, h.begin_lt, ?_⟩
  simp only [fifoPush, fifoNext, h.size_eq]
  exact Nat.mod_lt _ (Nat.lt_of_le_of_lt (Nat.zero_le _) h.begin_lt)

theorem ok_pop (h : Ok n f) : Ok n (fifoPop f).2 := by
  refine ⟨h.size_eq, ?_, h.end_lt⟩
  simp only [fifoPop, fifoNext, h.size_eq]
  exact Nat.mod_lt _ (Nat.lt_of_le_of_lt (Nat.zero_le _) h.begin_lt)

/-- A push with room appends. -/
theorem contents_push (h : Ok n f) (hroom : f.contents.length < n - 1) (x : α) :
    (fifoPush f x).contents = f.contents ++ [x] := by
  have hb := h.begin_lt
  have hpos : 0 < n := Nat.lt_of_le_of_lt (Nat.zero_le _) hb
  have hne : Cyclic.next n f.endIx ≠ f.beginIx := by
    intro he
    rw [Cyclic.next_eq_iff_dist hb h.end_lt, ← h.size_eq, ← length_contents] at he
    rw [h.size_eq] at he
    omega
  -- the cell written is the one after the last unread byte
  have hcell : Cyclic.next n f.endIx =
      (Cyclic.next n f.beginIx + Cyclic.dist n f.beginIx f.endIx) % n := by
    rw [Cyclic.next_add, ← Nat.add_assoc, ← Cyclic.next_mod, Cyclic.add_dist hb h.end_lt]
  simp only [contents, fifoPush, fifoNext, h.size_eq]
  rw [show (f.endIx + 1) % n = Cyclic.next n f.endIx from rfl,
    show (f.beginIx + 1) % n = Cyclic.next n f.beginIx from rfl,
    Cyclic.dist_next_right hb h.end_lt, if_neg hne, hcell]
  exact Cyclic.slice_push f.data x (Cyclic.next_lt hpos _) (Cyclic.dist_lt hpos _ _)

/-- A push on a full FIFO leaves nothing. -/
theorem contents_push_full (h : Ok n f) (hfull : f.contents.length = n - 1) (x : α) :
    (fifoPush f x).contents = [] := by
  have he := (isFull_iff h).mpr hfull
  rw [isFifoFull, beq_iff_eq] at he
  rw [← isEmpty_iff (ok_push h x), isFifoEmpty, beq_iff_eq]
  exact he.symm

/-- A pop takes the front. -/
theorem contents_pop (h : Ok n f) (hne : f.contents ≠ []) :
    f.contents = (fifoPop f).1 :: (fifoPop f).2.contents := by
  have hb : f.beginIx ≠ f.endIx := by
    intro he
    exact hne ((isEmpty_iff h).mp (by rw [isFifoEmpty, beq_iff_eq]; exact he))
  have hd := Cyclic.dist_next_left h.begin_lt h.end_lt hb
  simp only [contents, fifoPop, fifoNext, h.size_eq]
  rw [show (f.beginIx + 1) % n = Cyclic.next n f.beginIx from rfl, ← hd, Cyclic.slice_succ]
  rfl

end NetFifo

open NetFifo

/-- The memory behind `net_rx_buf` after `net_rx_write` has copied a message: the
bytes of the message, and around them whatever is there. -/
def rxMemory (bytes : List α) (outside : Int → α) (i : Int) : α :=
  if h : 0 ≤ i ∧ i.toNat < bytes.length then bytes[i.toNat] else outside i

theorem rxMemory_get {bytes : List α} (outside : Int → α) {i : Nat} (hi : i < bytes.length) :
    rxMemory bytes outside i = bytes[i] := by
  simp [rxMemory, hi]

/-- The loop from a FIFO with room: the rest of the message, as far as it fits. -/
theorem pushLoop_spec {n : Nat} {bytes : List α} {outside : Int → α} (rest : Nat) {f : NetFifo α}
    (h : Ok n f) (hroom : f.contents.length < n - 1) (hlen : rest + 1 ≤ bytes.length) :
    let r := pushLoop (rxMemory bytes outside) bytes.length rest (rest + 1) f
    r.1.contents = f.contents ++
        (bytes.drop (bytes.length - (rest + 1))).take (n - 1 - f.contents.length) ∧
      r.1.Ok n ∧ ∀ i ∈ r.2, 0 ≤ i ∧ i < bytes.length := by
  induction rest generalizing f with
  | zero =>
    have hidx : bytes.length - 1 < bytes.length := by omega
    have hread : rxMemory bytes outside ((bytes.length : Int) - (0 + 1 : Nat)) =
        bytes[bytes.length - 1] := by
      rw [show ((bytes.length : Int) - (0 + 1 : Nat)) = ((bytes.length - 1 : Nat) : Int) by omega]
      exact rxMemory_get outside hidx
    have hdrop : bytes.drop (bytes.length - (0 + 1)) = [bytes[bytes.length - 1]] := by
      rw [List.drop_eq_getElem_cons hidx, List.drop_eq_nil_of_le (by omega)]
    simp only [pushLoop]
    refine ⟨?_, ok_push h _, ?_⟩
    · rw [contents_push h hroom, hread, hdrop, List.take_of_length_le (by simp; omega)]
    · intro i hi
      rw [List.mem_singleton] at hi
      omega
  | succ rest ih =>
    have hidx : bytes.length - (rest + 2) < bytes.length := by omega
    have hread : rxMemory bytes outside ((bytes.length : Int) - (rest + 1 + 1 : Nat)) =
        bytes[bytes.length - (rest + 2)] := by
      rw [show ((bytes.length : Int) - (rest + 1 + 1 : Nat)) =
        ((bytes.length - (rest + 2) : Nat) : Int) by omega]
      exact rxMemory_get outside hidx
    have hpush := contents_push h hroom (rxMemory bytes outside
      ((bytes.length : Int) - (rest + 1 + 1 : Nat)))
    have hok := ok_push h (rxMemory bytes outside ((bytes.length : Int) - (rest + 1 + 1 : Nat)))
    have hdrop : bytes.drop (bytes.length - (rest + 1 + 1)) =
        bytes[bytes.length - (rest + 2)] :: bytes.drop (bytes.length - (rest + 1)) := by
      rw [List.drop_eq_getElem_cons hidx]
      congr 2
      omega
    rw [hread] at hpush hok
    simp only [pushLoop, hread]
    by_cases hfull : isFifoFull (fifoPush f bytes[bytes.length - (rest + 2)]) = true
    · -- the FIFO has become full: the loop stops, and one byte was all that fitted
      have hlast := (isFull_iff hok).mp hfull
      rw [hpush, List.length_append, List.length_singleton] at hlast
      rw [if_pos hfull]
      refine ⟨?_, hok, ?_⟩
      · rw [hpush, hdrop, show n - 1 - f.contents.length = 1 by omega]
        rfl
      · intro i hi
        rw [List.mem_singleton] at hi
        omega
    · have hmore : (fifoPush f bytes[bytes.length - (rest + 2)]).contents.length < n - 1 := by
        have hne := mt (isFull_iff hok).mpr hfull
        have hlt := length_contents_lt hok
        omega
      obtain ⟨hc, hok', hreads⟩ := ih hok hmore (by omega)
      rw [if_neg hfull]
      refine ⟨?_, hok', ?_⟩
      · rw [hpush, List.length_append, List.length_singleton] at hmore
        have hroom : n - 1 - f.contents.length = n - 1 - (f.contents.length + 1) + 1 := by omega
        rw [hc, hpush, hdrop, List.length_append, List.length_singleton, List.append_assoc,
          List.singleton_append, hroom, List.take_succ_cons]
      · intro i hi
        rcases List.mem_cons.mp hi with rfl | hi
        · omega
        · exact hreads i hi

/-- The length of a message does not wrap. -/
theorem pushData_eq (mem : Int → α) {len : Nat} (hpos : 0 < len) (f : NetFifo α) :
    pushDataToNetFifo true mem len f = pushLoop mem len (len - 1) len f := by
  rw [pushDataToNetFifo, if_pos rfl, uint16Pred, if_neg (Nat.ne_of_gt hpos)]

/-- A non-empty message into a FIFO with room: the bytes that fit are appended, and
only bytes of the message are read. -/
theorem pushData_spec {n : Nat} {bytes : List α} {outside : Int → α} {f : NetFifo α}
    (h : Ok n f) (hroom : f.contents.length < n - 1) (hpos : 0 < bytes.length) :
    let r := pushDataToNetFifo true (rxMemory bytes outside) bytes.length f
    r.1.contents = f.contents ++ bytes.take (n - 1 - f.contents.length) ∧
      r.1.Ok n ∧ ∀ i ∈ r.2, 0 ≤ i ∧ i < bytes.length := by
  have hsucc : bytes.length - 1 + 1 = bytes.length := by omega
  have hs := @pushLoop_spec α n bytes outside (bytes.length - 1) f h hroom (Nat.le_of_eq hsucc)
  rw [hsucc, Nat.sub_self, List.drop_zero] at hs
  rw [pushData_eq _ hpos]
  exact hs

/-- A push on a full FIFO loses the queue: of the message all but the first byte is
left. -/
theorem pushData_full {n : Nat} {bytes : List α} {outside : Int → α} {f : NetFifo α}
    (h : Ok n f) (hfull : f.contents.length = n - 1) (hn : 1 < n) (hpos : 0 < bytes.length) :
    (pushDataToNetFifo true (rxMemory bytes outside) bytes.length f).1.contents =
      (bytes.drop 1).take (n - 1) := by
  rw [pushData_eq _ hpos]
  obtain ⟨rest, hr⟩ : ∃ rest, bytes.length = rest + 1 := ⟨bytes.length - 1, by omega⟩
  rw [hr, Nat.add_sub_cancel]
  -- the first byte makes `End` meet `Begin`: the FIFO looks empty, and the rest of the
  -- message is pushed as onto an empty one
  have hempty := contents_push_full h hfull
    (rxMemory bytes outside (((rest + 1 : Nat) : Int) - (rest + 1 : Nat)))
  have hok := ok_push h (rxMemory bytes outside (((rest + 1 : Nat) : Int) - (rest + 1 : Nat)))
  cases rest with
  | zero =>
    simp only [pushLoop, hempty]
    rw [List.drop_eq_nil_of_le (by omega), List.take_nil]
  | succ rest =>
    have hnot : ¬ isFifoFull (fifoPush f (rxMemory bytes outside
        (((rest + 1 + 1 : Nat) : Int) - (rest + 1 + 1 : Nat)))) = true := by
      rw [isFull_iff hok, hempty, List.length_nil]
      omega
    have hroom : (fifoPush f (rxMemory bytes outside
        (((rest + 1 + 1 : Nat) : Int) - (rest + 1 + 1 : Nat)))).contents.length < n - 1 := by
      rw [hempty, List.length_nil]
      omega
    obtain ⟨hc, -, -⟩ := @pushLoop_spec α n bytes outside rest _ hok hroom (by omega)
    rw [pushLoop, if_neg hnot, ← hr]
    rw [hr] at hc
    simp only [hr, hc, hempty, List.nil_append, List.length_nil]
    rw [show rest + 1 + 1 - (rest + 1) = 1 by omega, Nat.sub_zero]

/-- An empty message is read all the same. -/
theorem pushData_empty_reads (outside : Int → α) (f : NetFifo α) :
    (0 : Int) ∈ (pushDataToNetFifo true (rxMemory [] outside) 0 f).2 := by
  rw [pushDataToNetFifo, if_pos rfl]
  generalize uint16Pred 0 = rest
  cases rest with
  | zero => simp [pushLoop]
  | succ rest =>
    rw [pushLoop]
    split <;> simp

theorem ok_pushLoop {n : Nat} (mem : Int → α) (len rest : Nat) (k : Nat) {f : NetFifo α}
    (h : Ok n f) : (pushLoop mem len rest k f).1.Ok n := by
  induction rest generalizing f k with
  | zero => exact ok_push h _
  | succ rest ih =>
    rw [pushLoop]
    split
    · exact ok_push h _
    · exact ih _ (ok_push h _)

theorem ok_pushData {n : Nat} (taken : Bool) (mem : Int → α) (len : Nat) {f : NetFifo α}
    (h : Ok n f) : (pushDataToNetFifo taken mem len f).1.Ok n := by
  rw [pushDataToNetFifo]
  split
  · exact ok_pushLoop mem len _ _ h
  · exact h

theorem netFifoReadLoop_spec {n : Nat} (count : Nat) {f : NetFifo α} (h : Ok n f)
    (hne : f.contents ≠ []) (buf : List α) :
    (netFifoReadLoop count f buf).1 = buf ++ f.contents.take count ∧
      (netFifoReadLoop count f buf).2.contents = f.contents.drop count ∧
      (netFifoReadLoop count f buf).2.Ok n ∧
      (netFifoReadLoop count f buf).2.endIx = f.endIx ∧
      (netFifoReadLoop count f buf).2.data = f.data := by
  induction count generalizing f buf with
  | zero => simp [netFifoReadLoop, h]
  | succ count ih =>
    have hpop := contents_pop h hne
    have hok := ok_pop h
    rw [netFifoReadLoop]
    by_cases hempty : isFifoEmpty (fifoPop f).2 = true
    · -- the byte just taken was the last
      have hnil := (isEmpty_iff hok).mp hempty
      rw [if_pos hempty, hpop, hnil]
      exact ⟨by simp, by simp, hok, rfl, rfl⟩
    · have hmore : (fifoPop f).2.contents ≠ [] := mt (isEmpty_iff hok).mpr hempty
      obtain ⟨hbytes, hrest, hok', hend, hdata⟩ := ih hok hmore (buf ++ [(fifoPop f).1])
      rw [if_neg hempty, hpop]
      refine ⟨?_, ?_, hok', hend, hdata⟩
      · rw [hbytes, List.append_assoc, List.singleton_append, List.take_succ_cons]
      · rw [hrest, List.drop_succ_cons]

/-- `net_fifo_read` takes from the queue as many bytes as there are. -/
theorem netFifoRead_spec {n : Nat} {f : NetFifo α} (h : Ok n f) (count : Nat) :
    (netFifoRead true f count).1 = f.contents.take count ∧
      (netFifoRead true f count).2.contents = f.contents.drop count ∧
      (netFifoRead true f count).2.Ok n ∧
      (netFifoRead true f count).2.endIx = f.endIx ∧
      (netFifoRead true f count).2.data = f.data := by
  rw [netFifoRead]
  by_cases hempty : isFifoEmpty f = true
  · have hnil := (isEmpty_iff h).mp hempty
    rw [if_pos hempty, hnil]
    exact ⟨by simp, by simp, h, rfl, rfl⟩
  · have hne : f.contents ≠ [] := mt (isEmpty_iff h).mpr hempty
    have hs := netFifoReadLoop_spec count h hne []
    rw [if_neg hempty, if_pos rfl]
    rwa [List.nil_append] at hs

/-! ## Runs of pushes and reads -/

/-- A received message in `net_rx_buf`. -/
structure RxMessage where
  bytes : List UInt8
  length_le : bytes.length ≤ netRxBufSize

inductive NetFifoOp where
  /-- The network thread pushes a message; `outside` is the memory around it. -/
  | push (m : RxMessage) (outside : Int → UInt8)
  | read (count : Nat)

def netFifoStep (f : NetFifo UInt8) : NetFifoOp → NetFifo UInt8 × List (List UInt8)
  | .push m outside =>
    ((pushDataToNetFifo true (rxMemory m.bytes outside) m.bytes.length f).1, [])
  | .read count => ((netFifoRead true f count).2, [(netFifoRead true f count).1])

/-- The FIFO after `fifo_init` and a sequence of pushes and reads. -/
def netFifoAfter (buffer : Nat → UInt8) (ops : List NetFifoOp) : NetFifo UInt8 :=
  Machine.last netFifoStep (fifoInit buffer netFifoSize) ops

theorem ok_after (buffer : Nat → UInt8) (ops : List NetFifoOp) :
    (netFifoAfter buffer ops).Ok netFifoSize := by
  apply Machine.run_invariant (I := Ok netFifoSize)
  · intro f op h
    cases op with
    | push m outside =>
      simp only [netFifoStep]
      exact ok_pushData _ _ _ h
    | read count =>
      simp only [netFifoStep]
      exact (netFifoRead_spec h count).2.2.1
  · exact ok_init buffer (by decide)

/-- What a push should do: read the message only, and append to the queue as much
of it as fits into 2047 bytes. -/
def PushKeepsQueue (f : NetFifo UInt8) (m : RxMessage) (outside : Int → UInt8) : Prop :=
  let r := pushDataToNetFifo true (rxMemory m.bytes outside) m.bytes.length f
  (∀ i ∈ r.2, 0 ≤ i ∧ i < m.bytes.length) ∧
    r.1.contents = f.contents ++
      m.bytes.take (min m.bytes.length (netFifoSize - 1 - f.contents.length))

section Pushes
variable {f : NetFifo UInt8} {outside : Int → UInt8}

/-- A push on a full FIFO does not keep the queue. -/
theorem not_pushKeepsQueue_full (h : Ok netFifoSize f) (hfull : f.contents.length = netFifoSize - 1)
    (m : RxMessage) (hpos : 0 < m.bytes.length) : ¬ PushKeepsQueue f m outside := by
  intro h
  obtain ⟨-, hcont⟩ := h
  have hlen := m.length_le
  have hlost := congrArg List.length (@pushData_full _ _ m.bytes outside f h hfull (by decide) hpos)
  rw [hcont, List.length_append, hfull] at hlost
  simp only [List.length_take, List.length_drop] at hlost
  unfold netFifoSize netRxBufSize at *
  omega

/-- A push of an empty message reads a byte that is not of the message. -/
theorem not_pushKeepsQueue_empty (m : RxMessage) (hempty : m.bytes = []) :
    ¬ PushKeepsQueue f m outside := by
  intro h
  obtain ⟨hreads, -⟩ := h
  rw [hempty, List.length_nil] at hreads
  have h00 := hreads 0 (pushData_empty_reads outside f)
  omega

end Pushes

/-- **Pushes.** After any pushes and reads, a push keeps the queue and appends what
fits if and only if the message is not empty and the FIFO is not full. -/
theorem push_keeps_queue_iff (buffer : Nat → UInt8) (ops : List NetFifoOp) (m : RxMessage)
    (outside : Int → UInt8) :
    PushKeepsQueue (netFifoAfter buffer ops) m outside ↔
      0 < m.bytes.length ∧ (netFifoAfter buffer ops).contents.length < netFifoSize - 1 := by
  have h := ok_after buffer ops
  generalize netFifoAfter buffer ops = f at h ⊢
  constructor
  · intro hkeeps
    have hpos : 0 < m.bytes.length := by
      apply List.length_pos_of_ne_nil
      intro hempty
      exact not_pushKeepsQueue_empty m hempty hkeeps
    refine ⟨hpos, ?_⟩
    by_contra hroom
    have hlt := length_contents_lt h
    exact not_pushKeepsQueue_full h (by omega) m hpos hkeeps
  · intro h
    obtain ⟨hpos, hroom⟩ := h
    obtain ⟨hcont, -, hreads⟩ := @pushData_spec _ _ m.bytes outside f h hroom hpos
    refine ⟨hreads, ?_⟩
    rw [hcont, Nat.min_comm, ← List.take_eq_take_min]

/-- Messages that all find room are queued one after another. -/
theorem contents_pushes {f : NetFifo UInt8} (h : Ok netFifoSize f) (outside : Int → UInt8)
    (ms : List RxMessage) (hpos : ∀ m ∈ ms, 0 < m.bytes.length)
    (hroom : (f.contents ++ ms.flatMap RxMessage.bytes).length ≤ netFifoSize - 1) :
    (Machine.last netFifoStep f (ms.map fun m => .push m outside)).contents =
      f.contents ++ ms.flatMap RxMessage.bytes := by
  induction ms generalizing f with
  | nil => exact (List.append_nil _).symm
  | cons m ms ih =>
    have hm := hpos m (List.mem_cons_self ..)
    simp only [List.flatMap_cons, List.length_append] at hroom
    obtain ⟨hcont, hok, -⟩ := @pushData_spec _ _ m.bytes outside f h (by omega) hm
    rw [List.take_of_length_le (by omega)] at hcont
    rw [List.map_cons, Machine.last_cons]
    simp only [netFifoStep]
    rw [ih hok (fun m' hm' => hpos m' (List.mem_cons_of_mem _ hm')), hcont, List.flatMap_cons,
      List.append_assoc]
    rw [hcont]
    simp only [List.length_append]
    omega

def zeroMemory : Int → UInt8 := fun _ => 0

/-- A message of `k` letters A. -/
def letters (k : Nat) (hk : k ≤ netRxBufSize) : RxMessage :=
  ⟨List.replicate k 0x41, by rw [List.length_replicate]; exact hk⟩

theorem length_letters (k : Nat) (hk : k ≤ netRxBufSize) : (letters k hk).bytes.length = k :=
  List.length_replicate

/-- 1460 and 587 bytes: the FIFO is full. -/
def fillOps : List NetFifoOp :=
  [letters 1460 (by decide), letters 587 (by decide)].map fun m => .push m zeroMemory

theorem contents_fill :
    (netFifoAfter (fun _ => 0) fillOps).contents = List.replicate 2047 0x41 := by
  have hl1 := length_letters 1460 (by decide)
  have hl2 := length_letters 587 (by decide)
  have hpos : ∀ m ∈ [letters 1460 (by decide), letters 587 (by decide)], 0 < m.bytes.length := by
    intro m hm
    rcases List.mem_pair.mp hm with rfl | rfl <;> omega
  have hfill := contents_pushes (ok_init (fun _ => (0 : UInt8)) (by decide)) zeroMemory
    [letters 1460 (by decide), letters 587 (by decide)] hpos (by
      simp only [contents_init, List.flatMap_cons, List.flatMap_nil, List.length_append, hl1, hl2]
      decide)
  rw [netFifoAfter, fillOps, hfill, contents_init, List.nil_append]
  simp only [letters, List.flatMap_cons, List.flatMap_nil, List.append_nil]
  exact List.replicate_append_replicate

/-- One byte pushed on the full FIFO loses the 2047 queued ones, and an empty
message is read although it has no bytes. -/
theorem push_loses_queue :
    (netFifoAfter (fun _ => 0) fillOps).contents = List.replicate 2047 0x41 ∧
      ¬ PushKeepsQueue (netFifoAfter (fun _ => 0) fillOps) (letters 1 (by decide)) zeroMemory ∧
      ¬ PushKeepsQueue (netFifoAfter (fun _ => 0) []) (letters 0 (by decide)) zeroMemory := by
  refine ⟨contents_fill, ?_, not_pushKeepsQueue_empty _ rfl⟩
  have hfull : (netFifoAfter (fun _ => 0) fillOps).contents.length = netFifoSize - 1 := by
    rw [contents_fill, List.length_replicate]
    rfl
  exact not_pushKeepsQueue_full (ok_after _ fillOps) hfull _ (Nat.one_pos)

end IBoxClient
