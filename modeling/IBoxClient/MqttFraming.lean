import Mathlib.Data.List.Forall2
import IBoxClient.MqttClient

/- How the client cuts packets out of the inbound stream.

   The network thread releases `net_fifo_sem` once for each message it pushes;
   `readPacket` takes the semaphore once for each packet it tries to read. So the
   reads follow the packets only as long as messages and packets keep in step: a
   read on a token for which no packet is complete fails, or takes a part of one,
   and of packets that came in one message only some are read.

   The semaphore is created with 1, for a message that never comes. The reads are
   the packets of the stream when there is exactly one packet for that token too
   and each read finds its packet complete (`packets_when_whole`). -/
namespace IBoxClient

open Bytes

variable {κ : Type}

/-- The first `n` reads of the client that come to something: what `readPacket`
returns, and the read buffer. -/
def readPackets (s : Sys κ) : Nat → List (Int × List UInt8) × Sys κ
  | 0 => ([], s)
  | n + 1 =>
    let r := readPackets s n
    match readPacket r.2 with
    | (some rc, s') => (if rc = 0 then r.1 else r.1 ++ [(rc, s'.client.readbuf)], s')
    | (none, s') => (r.1, s')

/-- The messages of the first `k` steps of an environment. -/
def arrivals (env : Nat → EnvStep) (k : Nat) : List Chunk :=
  (List.range k).flatMap fun i => (env i).arrive

/-- In the course of time the messages come one after another, and no others. -/
def Brings (env : Nat → EnvStep) (chunks : List Chunk) : Prop :=
  ∃ m, arrivals env m = chunks ∧ ∀ k, m ≤ k → (env k).arrive = []

/-- The reads are the packets: their types, and their bytes in the read buffer. -/
def AreReads (ps : List WirePacket) (reads : List (Int × List UInt8)) : Prop :=
  List.Forall₂ (fun p r => r.1 = (p.type : Int) ∧ r.2.take p.bytes.length = p.bytes) ps reads

/-- At any time the reads are the first packets, and in the end they are all packets. -/
def ReadsPackets (s : Sys κ) (ps : List WirePacket) : Prop :=
  (∀ n, ∃ k, AreReads (ps.take k) (readPackets s n).1) ∧
    ∃ m, ∀ n, m ≤ n → AreReads ps (readPackets s n).1

/-- A read that finds a token finds a whole packet. -/
def FindsPacket (s : Sys κ) : Prop :=
  0 < s.interact.2.net.fifoSem → ∃ p : WirePacket, p.bytes <+: s.interact.2.net.queue.bytes

/-! ## Arrivals -/

theorem arrivals_succ (env : Nat → EnvStep) (k : Nat) :
    arrivals env (k + 1) = arrivals env k ++ (env k).arrive := by
  rw [arrivals, List.range_succ, List.flatMap_append]
  simp [arrivals]

theorem arrivals_mono {env : Nat → EnvStep} {j k : Nat} (h : j ≤ k) :
    arrivals env j <+: arrivals env k := by
  induction h with
  | refl => exact List.prefix_rfl
  | step _ ih =>
    rw [arrivals_succ]
    exact ih.trans (List.prefix_append _ _)

theorem Brings.upTo {env : Nat → EnvStep} {chunks : List Chunk} (h : Brings env chunks)
    (k : Nat) : arrivals env k <+: chunks := by
  obtain ⟨m, rfl, hend⟩ := h
  rcases Nat.le_total k m with hle | hle
  · exact arrivals_mono hle
  · have hsame : arrivals env k = arrivals env m := by
      induction hle with
      | refl => rfl
      | @step k hle ih => rw [arrivals_succ, hend k hle, List.append_nil, ih]
    exact hsame ▸ List.prefix_rfl

/-- Where the client is in the stream of its environment: `j` steps are used up, and
what they have brought has arrived. -/
structure At (env : Nat → EnvStep) (j tokens : Nat) (n : Net) : Prop where
  env_eq : n.env = fun k => env (j + k)
  stream_eq : n.stream = Net.bytesOf (arrivals env j)
  sem_eq : n.fifoSem + tokens = 1 + (arrivals env j).length

theorem At.initial (env : Nat → EnvStep) : At env 0 0 (Net.initial env) := by
  refine ⟨?_, rfl, rfl⟩
  funext k
  exact congrArg env (Nat.zero_add k).symm

theorem bytesOf_append (cs ds : List Chunk) :
    Net.bytesOf (cs ++ ds) = Net.bytesOf cs ++ Net.bytesOf ds := List.flatMap_append

theorem At.interact {env : Nat → EnvStep} {j tokens : Nat} {n : Net} (h : At env j tokens n) :
    At env (j + 1) tokens n.interact.2 := by
  obtain ⟨henv, hstream, hsem⟩ := h
  have hnow : (n.env 0).arrive = (env j).arrive := by rw [henv]; rfl
  refine ⟨?_, ?_, ?_⟩
  · rw [Net.interact, Net.arrivals_env]
    funext k
    show n.env (k + 1) = env (j + 1 + k)
    rw [henv]
    exact congrArg env (by omega)
  · rw [Net.interact, Net.arrivals_stream, hnow, arrivals_succ, bytesOf_append, ← hstream]
  · rw [Net.interact, Net.arrivals_fifoSem, hnow, arrivals_succ, List.length_append]
    show n.fifoSem + (env j).arrive.length + tokens = _
    omega

theorem At.read {env : Nat → EnvStep} {j tokens : Nat} {n : Net} (h : At env j tokens n)
    (count : Nat) : At env (j + 1) tokens (n.read count).2 :=
  ⟨h.interact.env_eq, h.interact.stream_eq, h.interact.sem_eq⟩

/-! ## Reads -/

/-- A read on a token uses up some steps of the environment, and the token. -/
theorem At.readPacket_token {env : Nat → EnvStep} {j tokens : Nat} {s : Sys κ}
    (h : At env j tokens s.net) (hsem : 0 < s.interact.2.net.fifoSem) :
    ∃ j', j < j' ∧ At env j' (tokens + 1) (readPacket s).2.net := by
  have hi := h.interact
  have hstart : ∃ j', j < j' ∧ At env j' (tokens + 1)
      { s.interact.2.net with fifoSem := s.interact.2.net.fifoSem - 1, taken := [] } := by
    refine ⟨j + 1, Nat.lt_succ_self j, hi.env_eq, hi.stream_eq, ?_⟩
    have hsem' := hi.sem_eq
    have hpos : 0 < s.net.interact.2.fifoSem := hsem
    show s.net.interact.2.fifoSem - 1 + (tokens + 1) = _
    omega
  rw [IBoxClient.readPacket_token hsem]
  refine mqttPacketRead_keeps (I := fun n => ∃ j', j < j' ∧ At env j' (tokens + 1) n) ?_ _ _ hstart
  intro n count h
  obtain ⟨j', hlt, hn⟩ := h
  exact ⟨j' + 1, Nat.lt_succ_of_lt hlt, hn.read count⟩

/-- A read that finds a whole packet yields it. -/
theorem readPacket_packet {s : Sys κ} {p : WirePacket} {tail : List UInt8}
    (hsem : 0 < s.interact.2.net.fifoSem) (hfit : p.bytes.length ≤ s.client.readbufSize)
    (hv : s.interact.2.net.queue.bytes = p.bytes ++ tail)
    (hg : (readPacket s).2.net.overrun = false) :
    ∃ s' more, readPacket s = (some (p.type : Int), s') ∧
      s'.client.readbuf = writeAt s.client.readbuf 0 p.bytes ∧
      s'.client.readbufSize = s.client.readbufSize ∧ s'.net.queue.bytes = tail ++ more ∧
      s'.net.stream = s.interact.2.net.stream ++ more := by
  rw [readPacket_token hsem] at hg ⊢
  obtain ⟨n, more, hread, hview, hpast, -⟩ := mqttPacketRead_packet Net.source p
    (s := { s.interact.2.net with fifoSem := s.interact.2.net.fifoSem - 1, taken := [] })
    hfit hg hv
  simp only [hread]
  exact ⟨_, more, rfl, rfl, rfl, hview, hpast⟩

theorem overrun_of_token {s : Sys κ} (hsem : 0 < s.interact.2.net.fifoSem)
    (hg : (readPacket s).2.net.overrun = false) : s.interact.2.net.overrun = false := by
  rw [readPacket_token hsem] at hg
  exact Net.source.good
    { s.interact.2.net with fifoSem := s.interact.2.net.fifoSem - 1, taken := [] } 1
    (Net.source.good_read hg)

/-! ## Runs of reads -/

/-- The packet that stands behind the first `i` packets of a stream is number `i`. -/
theorem next_packet {ps : List WirePacket} {i : Nat} {p : WirePacket} {rest : List UInt8}
    (h : (ps.take i).flatMap WirePacket.bytes ++ (p.bytes ++ rest) =
      ps.flatMap WirePacket.bytes) : ∃ hlt : i < ps.length, ps[i].bytes = p.bytes := by
  have hdrop : p.bytes ++ rest = (ps.drop i).flatMap WirePacket.bytes := by
    have hsplit : ps.flatMap WirePacket.bytes = (ps.take i).flatMap WirePacket.bytes ++
        (ps.drop i).flatMap WirePacket.bytes := by
      rw [← List.flatMap_append, List.take_append_drop]
    rw [hsplit] at h
    exact List.append_cancel_left h
  have hlt : i < ps.length := by
    by_contra hge
    rw [List.drop_eq_nil_of_le (by omega), List.flatMap_nil] at hdrop
    exact p.bytes_ne_nil (List.append_eq_nil_iff.mp hdrop).1
  rw [List.drop_eq_getElem_cons hlt, List.flatMap_cons] at hdrop
  exact ⟨hlt, (WirePacket.bytes_inj hdrop).1.symm⟩

/-- After some reads of which `i` came to something. -/
structure Reading (env : Nat → EnvStep) (ps : List WirePacket) (size j i : Nat)
    (r : List (Int × List UInt8) × Sys κ) : Prop where
  place : At env j i r.2.net
  reads : AreReads (ps.take i) r.1
  le : i ≤ ps.length
  stream : r.2.net.stream = (ps.take i).flatMap WirePacket.bytes ++ r.2.net.queue.bytes
  size_eq : r.2.client.readbufSize = size

theorem run_readPackets {s s' : Sys κ} {n : Nat} {rc : Int}
    (h : readPacket (readPackets s n).2 = (some rc, s')) :
    readPackets s (n + 1) = (if rc = 0 then (readPackets s n).1
      else (readPackets s n).1 ++ [(rc, s'.client.readbuf)], s') := by
  rw [readPackets]
  simp only [h]

section Steps
variable {env : Nat → EnvStep} {ps : List WirePacket} {size j i n : Nat} {s : Sys κ}

/-- What has arrived until the next read is the packets read and the queue. -/
theorem Reading.arrived (h : Reading env ps size j i (readPackets s n))
    (hg : (readPackets s n).2.interact.2.net.overrun = false) :
    (readPackets s n).2.interact.2.net.stream = (ps.take i).flatMap WirePacket.bytes ++
      (readPackets s n).2.interact.2.net.queue.bytes := by
  obtain ⟨-, hqueue⟩ := Net.arrivals_queue hg
  show (readPackets s n).2.net.interact.2.stream = _ ++ (readPackets s n).2.net.interact.2.queue.bytes
  rw [Net.interact, Net.arrivals_stream, hqueue]
  show (readPackets s n).2.net.stream ++ _ = _ ++ ((readPackets s n).2.net.queue.bytes ++ _)
  rw [h.stream, List.append_assoc]

theorem Reading.idle (h : Reading env ps size j i (readPackets s n))
    (hg : (readPackets s (n + 1)).2.net.overrun = false)
    (hsem : (readPackets s n).2.interact.2.net.fifoSem = 0) :
    Reading env ps size (j + 1) i (readPackets s (n + 1)) := by
  rw [run_readPackets (readPacket_idle hsem), if_pos rfl] at hg ⊢
  exact ⟨h.place.interact, h.reads, h.le, h.arrived hg, h.size_eq⟩

theorem Reading.token {chunks : List Chunk} (h : Reading env ps size j i (readPackets s n))
    (hb : Brings env chunks) (hbytes : Net.bytesOf chunks = ps.flatMap WirePacket.bytes)
    (hfit : ∀ p ∈ ps, p.bytes.length ≤ size)
    (hg : (readPackets s (n + 1)).2.net.overrun = false)
    (hwhole : FindsPacket (readPackets s n).2)
    (hsem : 0 < (readPackets s n).2.interact.2.net.fifoSem) :
    ∃ j', j < j' ∧ Reading env ps size j' (i + 1) (readPackets s (n + 1)) := by
  obtain ⟨rc, hrun, -⟩ := run_readPacket (readPackets s n).2
  have hnext := run_readPackets hrun
  have hg' : (readPacket (readPackets s n).2).2.net.overrun = false := by
    rw [hnext] at hg
    exact hg
  have harrived := h.arrived (overrun_of_token hsem hg')
  obtain ⟨p, tail, hp⟩ := hwhole hsem
  -- the packet in front of the queue is the next packet of the stream
  have hprefix : (readPackets s n).2.interact.2.net.stream <+: ps.flatMap WirePacket.bytes := by
    have hpre := hb.upTo (j + 1)
    obtain ⟨later, hlater⟩ := hpre
    rw [← hbytes, ← hlater, bytesOf_append]
    exact ⟨_, congrArg (· ++ _) h.place.interact.stream_eq⟩
  obtain ⟨rest, hrest⟩ := hprefix
  have hnext' : (ps.take i).flatMap WirePacket.bytes ++ (p.bytes ++ (tail ++ rest)) =
      ps.flatMap WirePacket.bytes := by
    rw [← List.append_assoc p.bytes, hp, ← List.append_assoc, ← harrived, hrest]
  obtain ⟨hlt, hpq⟩ := next_packet hnext'
  have htake : ps.take (i + 1) = ps.take i ++ [ps[i]] := List.take_succ_eq_append_getElem hlt
  have hqfit : ps[i].bytes.length ≤ (readPackets s n).2.client.readbufSize := by
    rw [h.size_eq]
    exact hfit _ (List.getElem_mem hlt)
  obtain ⟨s', more, hrun', hbuf, hsize, hqueue, hstream⟩ :=
    readPacket_packet hsem hqfit (by rw [hpq]; exact hp.symm) hg'
  obtain ⟨j', hj, hplace⟩ := h.place.readPacket_token hsem
  have htype : (ps[i].type : Int) ≠ 0 := by
    have := ps[i].type_ne
    simp only [WirePacket.type]
    omega
  rw [run_readPackets hrun', if_neg htype]
  rw [hrun'] at hplace
  refine ⟨j', hj, hplace, ?_, hlt, ?_, hsize.trans h.size_eq⟩
  · have hread : s'.client.readbuf.take ps[i].bytes.length = ps[i].bytes := by
      rw [hbuf]
      exact take_writeAt _ _
    rw [htake]
    exact List.rel_append h.reads (.cons ⟨rfl, hread⟩ .nil)
  · rw [hstream, harrived, htake, List.flatMap_append, hqueue, ← hp, ← hpq]
    simp

end Steps

/-- **Run of reads.** As long as each read on a token finds a whole packet, the reads
are packets; and from the step `m` on, when everything has arrived, each read is on a
token until all tokens are spent. -/
theorem reading_run {env : Nat → EnvStep} {chunks : List Chunk} {ps : List WirePacket} {m : Nat}
    {s : Sys κ} (hstart : s.net = Net.initial env) (hm : arrivals env m = chunks)
    (hend : ∀ k, m ≤ k → (env k).arrive = [])
    (hbytes : Net.bytesOf chunks = ps.flatMap WirePacket.bytes)
    (hfit : ∀ p ∈ ps, p.bytes.length ≤ s.client.readbufSize)
    (hroom : ∀ n, (readPackets s n).2.net.overrun = false)
    (hwhole : ∀ n, FindsPacket (readPackets s n).2) (n : Nat) :
    ∃ j i, n ≤ j ∧ Reading env ps s.client.readbufSize j i (readPackets s n) ∧
      min (n - m) (chunks.length + 1) ≤ i := by
  have hb : Brings env chunks := ⟨m, hm, hend⟩
  induction n with
  | zero =>
    refine ⟨0, 0, Nat.le_refl 0, ⟨?_, .nil, Nat.zero_le _, ?_, rfl⟩, by omega⟩
    · rw [readPackets, hstart]
      exact At.initial env
    · rw [readPackets, hstart]
      simp [Net.initial, RxQueue.bytes]
  | succ n ih =>
    obtain ⟨j, i, hj, hr, hi⟩ := ih
    rcases Nat.eq_zero_or_pos (readPackets s n).2.interact.2.net.fifoSem with hsem | hsem
    · refine ⟨j + 1, i, Nat.succ_le_succ hj, hr.idle (hroom (n + 1)) hsem, ?_⟩
      rcases Nat.lt_or_ge n m with hlt | hge
      · omega
      · -- all messages have arrived, so all tokens are spent
        have hall : arrivals env (j + 1) = chunks := by
          apply (hb.upTo (j + 1)).eq_of_length_le
          rw [← hm]
          exact (arrivals_mono (by omega : m ≤ j + 1)).length_le
        have hspent := hr.place.interact.sem_eq
        rw [hall] at hspent
        have hzero : (readPackets s n).2.net.interact.2.fifoSem = 0 := hsem
        omega
    · obtain ⟨j', hj', hr'⟩ := hr.token hb hbytes hfit (hroom (n + 1)) (hwhole n) hsem
      exact ⟨j', i + 1, by omega, hr', by omega⟩

/-- **Framing.** The client reads the packets of the stream, in order and completely,
if each read that takes a token finds a whole packet, and there are no more packets
than messages and one. -/
theorem packets_when_whole {env : Nat → EnvStep} {chunks : List Chunk} {ps : List WirePacket}
    {s : Sys κ} (hstart : s.net = Net.initial env) (hb : Brings env chunks)
    (hbytes : Net.bytesOf chunks = ps.flatMap WirePacket.bytes)
    (hfit : ∀ p ∈ ps, p.bytes.length ≤ s.client.readbufSize)
    (hroom : ∀ n, (readPackets s n).2.net.overrun = false)
    (hcount : ps.length ≤ chunks.length + 1)
    (hwhole : ∀ n, FindsPacket (readPackets s n).2) : ReadsPackets s ps := by
  obtain ⟨m, hm, hend⟩ := hb
  have hrun := reading_run hstart hm hend hbytes hfit hroom hwhole
  refine ⟨fun n => ?_, m + (chunks.length + 1), fun n hn => ?_⟩
  · obtain ⟨j, i, -, hr, -⟩ := hrun n
    exact ⟨i, hr.reads⟩
  · obtain ⟨j, i, -, hr, hi⟩ := hrun n
    have hall := hr.reads
    rwa [List.take_of_length_le (by omega)] at hall

/-! ## Examples of runs -/

/-- No token is left, and nothing comes. -/
structure Silent (n : Net) : Prop where
  sem : n.fifoSem = 0
  quiet : ∀ k, (n.env k).arrive = []
  room : n.overrun = false

theorem Silent.interact {n : Net} (h : Silent n) : Silent n.interact.2 := by
  rw [Net.interact, h.quiet 0]
  exact ⟨h.sem, fun k => h.quiet (k + 1), h.room⟩

/-- Where the run of reads is silent, it stays so. -/
theorem silent_readPackets {s : Sys κ} {n₀ : Nat} (h : Silent (readPackets s n₀).2.net) (n : Nat) :
    Silent (readPackets s (n₀ + n)).2.net := by
  induction n with
  | zero => exact h
  | succ n ih =>
    have hidle := readPacket_idle (s := (readPackets s (n₀ + n)).2) ih.interact.sem
    rw [← Nat.add_assoc, run_readPackets hidle]
    exact ih.interact

def pingresp : WirePacket := ⟨208, [], by decide, by decide⟩

/-- Two `PINGRESP` in one message. -/
def pingresps : Chunk := ⟨[208, 0, 208, 0], by decide, by decide⟩

/-- One `PINGRESP` in a message of its own. -/
def lonePingresp : Chunk := ⟨[208, 0], by decide, by decide⟩

/-- The message is pushed before step `k`. -/
def pushedAt (k : Nat) (chunk : Chunk) (i : Nat) : EnvStep :=
  if i = k then { EnvStep.quiet with arrive := [chunk] } else EnvStep.quiet

theorem brings_pushedAt (k : Nat) (chunk : Chunk) : Brings (pushedAt k chunk) [chunk] := by
  have hquiet : ∀ i, i ≠ k → (pushedAt k chunk i).arrive = [] := by
    intro i hi
    rw [pushedAt, if_neg hi]
    rfl
  have hbefore : ∀ j, j ≤ k → arrivals (pushedAt k chunk) j = [] := by
    intro j
    induction j with
    | zero => exact fun _ => rfl
    | succ j ih =>
      intro hj
      rw [arrivals_succ, ih (by omega), hquiet j (by omega)]
      rfl
  refine ⟨k + 1, ?_, fun i hi => hquiet i (by omega)⟩
  rw [arrivals_succ, hbefore k (Nat.le_refl k), pushedAt, if_pos rfl]
  rfl

def framingSys (env : Nat → EnvStep) : Sys Unit :=
  ⟨clientInit connectDataInitializer (List.replicate 1024 0) (), Net.initial env, fun _ => [], []⟩

/-- Each read uses up a step at least. -/
theorem place_readPackets {env : Nat → EnvStep} {s : Sys κ} (hstart : s.net = Net.initial env)
    (n : Nat) : ∃ j tokens, n ≤ j ∧ At env j tokens (readPackets s n).2.net := by
  induction n with
  | zero =>
    refine ⟨0, 0, Nat.le_refl 0, ?_⟩
    rw [readPackets, hstart]
    exact At.initial env
  | succ n ih =>
    obtain ⟨j, tokens, hj, hat⟩ := ih
    obtain ⟨rc, hrun, -⟩ := run_readPacket (readPackets s n).2
    rw [run_readPackets hrun]
    rcases Nat.eq_zero_or_pos (readPackets s n).2.interact.2.net.fifoSem with hsem | hsem
    · rw [readPacket_idle hsem]
      exact ⟨j + 1, tokens, Nat.succ_le_succ hj, hat.interact⟩
    · obtain ⟨j', hj', hat'⟩ := hat.readPacket_token hsem
      exact ⟨j', tokens + 1, by omega, hat'⟩

/-- After the message has been pushed the environment is quiet. -/
theorem quiet_pushedAt {k n : Nat} {chunk : Chunk} (hk : k < n) (i : Nat) :
    ((readPackets (framingSys (pushedAt k chunk)) n).2.net.env i).arrive = [] := by
  obtain ⟨j, tokens, hj, hat⟩ := place_readPackets (s := framingSys (pushedAt k chunk)) rfl n
  rw [hat.env_eq]
  show (pushedAt k chunk (j + i)).arrive = []
  rw [pushedAt, if_neg (by omega)]
  rfl

theorem packets_when_whole_pingresps :
    ReadsPackets (framingSys (pushedAt 0 pingresps)) [pingresp, pingresp] := by
  have hsilent : Silent (readPackets (framingSys (pushedAt 0 pingresps)) 2).2.net :=
    ⟨by decide +kernel, quiet_pushedAt (by decide), by decide +kernel⟩
  have hroom : ∀ n, (readPackets (framingSys (pushedAt 0 pingresps)) n).2.net.overrun = false
    | 0 => by decide +kernel
    | 1 => by decide +kernel
    | n + 2 => by
      rw [Nat.add_comm]
      exact (silent_readPackets hsilent n).room
  have hwhole : ∀ n, FindsPacket (readPackets (framingSys (pushedAt 0 pingresps)) n).2
    | 0 => fun _ => ⟨pingresp, by decide +kernel⟩
    | 1 => fun _ => ⟨pingresp, by decide +kernel⟩
    | n + 2 => by
      rw [Nat.add_comm]
      intro hsem
      exact absurd (silent_readPackets hsilent n).interact.sem (Nat.pos_iff_ne_zero.mp hsem)
  exact packets_when_whole rfl (brings_pushedAt 0 pingresps) rfl (by decide) hroom (by decide) hwhole

theorem AreReads.types {ps : List WirePacket} {reads : List (Int × List UInt8)}
    (h : AreReads ps reads) : reads.map Prod.fst = ps.map fun p => (p.type : Int) := by
  induction h with
  | nil => rfl
  | cons hr _ ih => rw [List.map_cons, List.map_cons, hr.1, ih]

/-- The client reads once before the `PINGRESP` comes, which is an error to it. -/
theorem first_read_fails :
    Brings (pushedAt 5 lonePingresp) [lonePingresp] ∧
      Net.bytesOf [lonePingresp] = [pingresp].flatMap WirePacket.bytes ∧
      (∀ n, (readPackets (framingSys (pushedAt 5 lonePingresp)) n).2.net.overrun = false) ∧
      ¬ ReadsPackets (framingSys (pushedAt 5 lonePingresp)) [pingresp] := by
  have hsilent : Silent (readPackets (framingSys (pushedAt 5 lonePingresp)) 6).2.net :=
    ⟨by decide +kernel, quiet_pushedAt (by decide), by decide +kernel⟩
  have hfirst : (readPackets (framingSys (pushedAt 5 lonePingresp)) 1).1.map Prod.fst = [-1] := by
    decide +kernel
  refine ⟨brings_pushedAt 5 lonePingresp, rfl, fun n => ?_, fun h => ?_⟩
  · rcases Nat.lt_or_ge n 6 with hlt | hge
    · have hall : ∀ i : Fin 6,
          (readPackets (framingSys (pushedAt 5 lonePingresp)) i).2.net.overrun = false := by
        decide +kernel
      exact hall ⟨n, hlt⟩
    · obtain ⟨k, rfl⟩ := Nat.le.dest hge
      exact (silent_readPackets hsilent k).room
  · obtain ⟨k, hk⟩ := h.1 1
    have htypes := hk.types
    rw [hfirst] at htypes
    cases k with
    | zero => cases htypes
    | succ k => exact absurd htypes (by rw [List.take_succ_cons, List.take_nil]; decide)

end IBoxClient
