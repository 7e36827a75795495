import IBoxClient.NetFifo
import IBoxClient.MqttSerialize

/- The network as the MQTT client meets it: the receive FIFO with its semaphore, and
   what the other threads do between two of the client's statements.

   The network thread has the higher priority: whenever the client asks for
   something, it has pushed what has arrived until then, each message with one token
   for `net_fifo_sem`. What happens at each such point (`EnvStep`) is a stream that
   the client uses up as it goes, so a statement about every stream is one about
   every interleaving.

   The bytes in the FIFO carry their position in the inbound stream. `stream`,
   `taken` and `overrun` are history: what has arrived so far, what the current read
   has taken, and whether a message has found too little room. -/
namespace IBoxClient

/-- A byte with its position in the inbound stream. -/
structure Cell where
  byte : UInt8
  seq : Nat
  deriving DecidableEq

/-- A message handed over by `net_rx_write`. -/
structure Chunk where
  bytes : List UInt8
  length_pos : 0 < bytes.length
  length_le : bytes.length ≤ netRxBufSize

/-- `bytes`, the first of which is number `seq` of the stream. -/
def cellsFrom (seq : Nat) (bytes : List UInt8) : List Cell :=
  bytes.zipIdx.map fun b => ⟨b.1, seq + b.2⟩

theorem length_cellsFrom (seq : Nat) (bytes : List UInt8) :
    (cellsFrom seq bytes).length = bytes.length := by
  simp [cellsFrom]

theorem bytes_cellsFrom (seq : Nat) (bytes : List UInt8) :
    (cellsFrom seq bytes).map Cell.byte = bytes := by
  rw [cellsFrom, List.map_map]
  exact List.zipIdx_map_fst 0 bytes

theorem seq_of_mem_cellsFrom {seq : Nat} {bytes : List UInt8} {c : Cell}
    (h : c ∈ cellsFrom seq bytes) : seq ≤ c.seq := by
  obtain ⟨b, -, rfl⟩ := List.mem_map.mp h
  exact Nat.le_add_right ..

/-! ## The queue -/

/-- The FIFO with its indices inside. -/
structure RxQueue where
  fifo : NetFifo Cell
  ok : fifo.Ok netFifoSize

namespace RxQueue

def contents (q : RxQueue) : List Cell := q.fifo.contents

def bytes (q : RxQueue) : List UInt8 := q.contents.map Cell.byte

def empty : RxQueue := ⟨fifoInit (fun _ => ⟨0, 0⟩) netFifoSize, NetFifo.ok_init _ (by decide)⟩

/-- `push_data_to_net_fifo`. -/
def push (q : RxQueue) (cells : List Cell) : RxQueue :=
  ⟨(pushDataToNetFifo true (rxMemory cells fun _ => ⟨0, 0⟩) cells.length q.fifo).1,
    ok_pushData _ _ _ q.ok⟩

/-- `net_fifo_read`. -/
def read (q : RxQueue) (count : Nat) : List Cell × RxQueue :=
  ((netFifoRead true q.fifo count).1,
    ⟨(netFifoRead true q.fifo count).2, (netFifoRead_spec q.ok count).2.2.1⟩)

@[simp] theorem contents_empty : empty.contents = [] := NetFifo.contents_init _

@[simp] theorem read_fst (q : RxQueue) (count : Nat) :
    (q.read count).1 = q.contents.take count := (netFifoRead_spec q.ok count).1

@[simp] theorem contents_read (q : RxQueue) (count : Nat) :
    (q.read count).2.contents = q.contents.drop count := (netFifoRead_spec q.ok count).2.1

/-- A push with room for the whole message appends it. -/
theorem contents_push {q : RxQueue} {cells : List Cell} (hpos : 0 < cells.length)
    (hroom : q.contents.length + cells.length ≤ netFifoSize - 1) :
    (q.push cells).contents = q.contents ++ cells := by
  simp only [contents, push] at hroom ⊢
  have hlt : q.fifo.contents.length < netFifoSize - 1 := by omega
  obtain ⟨hc, -, -⟩ := @pushData_spec _ _ cells (fun _ => ⟨0, 0⟩) _ q.ok hlt hpos
  rw [hc, List.take_of_length_le (by omega)]

/-- Whether there is room or not, all that is queued was queued before or has come
with the message. -/
theorem mem_push {q : RxQueue} {cells : List Cell} (hpos : 0 < cells.length) {c : Cell}
    (hc : c ∈ (q.push cells).contents) : c ∈ q.contents ∨ c ∈ cells := by
  simp only [contents, push] at hc ⊢
  by_cases hroom : q.fifo.contents.length < netFifoSize - 1
  · obtain ⟨hpush, -, -⟩ := @pushData_spec _ _ cells (fun _ => ⟨0, 0⟩) _ q.ok hroom hpos
    rw [hpush] at hc
    rcases List.mem_append.mp hc with h | h
    · exact .inl h
    · exact .inr (List.mem_of_mem_take h)
  · have hlt := NetFifo.length_contents_lt q.ok
    have hpush := @pushData_full _ _ cells (fun _ => ⟨0, 0⟩) _ q.ok (by omega) (by decide) hpos
    rw [hpush] at hc
    exact .inr (List.mem_of_mem_drop (List.mem_of_mem_take hc))

-- from here on a queue is known by its contents: comparing two pushes by running
-- their loops does not end well
attribute [irreducible] push read

end RxQueue

/-! ## The environment -/

/-- What the client finds when it asks for something: the messages that have been
pushed since it last did, whether `net_tx_sem` can be taken, the two clocks, the
text `create_msg` makes, and what the stack holds. -/
structure EnvStep where
  arrive : List Chunk
  txOk : Bool
  sysTimeMs : UInt32
  sysTimeS : UInt32
  msg : Option (List UInt8)
  stale : Stale

/-- Nothing arrives, and packets are taken. -/
def EnvStep.quiet : EnvStep := ⟨[], true, 0, 0, none, ⟨0, 0, fun _ => 0, none⟩⟩

structure Net where
  queue : RxQueue
  fifoSem : Nat
  env : Nat → EnvStep
  stream : List UInt8
  taken : List Cell
  overrun : Bool

namespace Net

/-- After `network_thread_init` and `fifo_init`: `net_fifo_sem` is created with 1. -/
def initial (env : Nat → EnvStep) : Net := ⟨.empty, 1, env, [], [], false⟩

/-- A message is pushed and `net_fifo_sem` released. -/
def arrive (n : Net) (chunk : Chunk) : Net :=
  { n with
    queue := n.queue.push (cellsFrom n.stream.length chunk.bytes)
    fifoSem := n.fifoSem + 1
    stream := n.stream ++ chunk.bytes
    overrun := n.overrun || decide (netFifoSize - 1 < n.queue.contents.length + chunk.bytes.length) }

/-- The client asks for something. -/
def interact (n : Net) : EnvStep × Net :=
  (n.env 0, (n.env 0).arrive.foldl arrive { n with env := fun k => n.env (k + 1) })

/-- `net_fifo_read`, the callback of `readPacket`. -/
def read (n : Net) (count : Nat) : List UInt8 × Net :=
  let n := n.interact.2
  let r := n.queue.read count
  (r.1.map Cell.byte, { n with queue := r.2, taken := n.taken ++ r.1 })

/-- The bytes of some messages. -/
def bytesOf (chunks : List Chunk) : List UInt8 := chunks.flatMap Chunk.bytes

@[simp] theorem arrive_fifoSem (n : Net) (c : Chunk) : (n.arrive c).fifoSem = n.fifoSem + 1 := rfl

@[simp] theorem arrive_stream (n : Net) (c : Chunk) :
    (n.arrive c).stream = n.stream ++ c.bytes := rfl

@[simp] theorem arrive_env (n : Net) (c : Chunk) : (n.arrive c).env = n.env := rfl

/-- A message that has found room is queued. -/
theorem arrive_queue {n : Net} {c : Chunk} (h : (n.arrive c).overrun = false) :
    n.overrun = false ∧ (n.arrive c).queue.bytes = n.queue.bytes ++ c.bytes := by
  simp only [arrive, Bool.or_eq_false_iff, decide_eq_false_iff_not, Nat.not_lt] at h ⊢
  obtain ⟨hn, hroom⟩ := h
  have hlen := length_cellsFrom n.stream.length c.bytes
  have hpush := @RxQueue.contents_push n.queue (cellsFrom n.stream.length c.bytes)
    (by rw [hlen]; exact c.length_pos) (by rw [hlen]; exact hroom)
  refine ⟨hn, ?_⟩
  rw [RxQueue.bytes, hpush, List.map_append, bytes_cellsFrom]
  rfl

section Arrivals
variable (chunks : List Chunk) (n : Net)

theorem arrivals_fifoSem : (chunks.foldl arrive n).fifoSem = n.fifoSem + chunks.length := by
  induction chunks generalizing n with
  | nil => rfl
  | cons c cs ih =>
    rw [List.foldl_cons, ih, arrive_fifoSem, List.length_cons, Nat.add_assoc, Nat.add_comm 1]

theorem arrivals_stream : (chunks.foldl arrive n).stream = n.stream ++ bytesOf chunks := by
  induction chunks generalizing n with
  | nil => exact (List.append_nil _).symm
  | cons c cs ih =>
    rw [List.foldl_cons, ih, arrive_stream, List.append_assoc]
    rfl

theorem arrivals_env : (chunks.foldl arrive n).env = n.env := by
  induction chunks generalizing n with
  | nil => rfl
  | cons c cs ih => rw [List.foldl_cons, ih, arrive_env]

variable {chunks n}

/-- Messages of which none has found too little room are queued one after another. -/
theorem arrivals_queue (h : (chunks.foldl arrive n).overrun = false) :
    n.overrun = false ∧
      (chunks.foldl arrive n).queue.bytes = n.queue.bytes ++ bytesOf chunks := by
  induction chunks generalizing n with
  | nil => exact ⟨h, (List.append_nil _).symm⟩
  | cons c cs ih =>
    obtain ⟨hc, hq⟩ := ih h
    obtain ⟨hn, hpush⟩ := arrive_queue hc
    refine ⟨hn, ?_⟩
    rw [List.foldl_cons, hq, hpush, List.append_assoc]
    rfl

end Arrivals

/-- The network is a source of the bytes in the queue, as long as nothing is lost. -/
theorem source : Source read (fun n => n.overrun = false) (fun n => n.queue.bytes) stream where
  good := fun n count h => (arrivals_queue h).1
  get := by
    intro n count h
    obtain ⟨-, hq⟩ := @arrivals_queue _ { n with env := fun k => n.env (k + 1) } h
    refine ⟨bytesOf (n.env 0).arrive, ?_, ?_, arrivals_stream _ _⟩
    · simp only [read, RxQueue.read_fst, List.map_take]
      exact congrArg (List.take count) hq
    · simp only [read, RxQueue.bytes, RxQueue.contents_read, List.map_drop]
      exact congrArg (List.drop count) hq

end Net

end IBoxClient
