import IBoxClient.Lib.Machine
import IBoxClient.MainThread

/- The sessions of the main thread and the bytes between them.

   Closing a session leaves the receive FIFO as it is: `fifo_flush` is never called.
   What is queued at that moment, and what arrives later of a packet that has been
   read in part, is read in the next session, where it may pass for its `CONNACK`.

   Sessions are kept apart as long as each close finds the FIFO empty and each packet
   that was begun complete, and each `CONNECT` finds the FIFO empty:
   `sessions_isolated`. The invariant (`Fresh`) is that everything queued, and
   everything read since, is younger than each of these points. -/
namespace IBoxClient

open Bytes

variable {κ : Type}

/-! ## Sessions kept apart -/

/-- The length bytes at the front of a byte string as `MQTTPacket_decode` reads them:
how many, and their value. After the last one allowed it stops in any case. -/
def announced : Nat → List UInt8 → Option (Nat × Nat)
  | 0, _ => some (0, 0)
  | _ + 1, [] => none
  | rounds + 1, c :: cs =>
    if 128 ≤ c.toNat then
      (announced rounds cs).map fun r => (r.1 + 1, c.toNat % 128 + r.2 * 128)
    else some (1, c.toNat % 128)

/-- The size of the packet that begins here, once its length has arrived. -/
def announcedSize : List UInt8 → Option Nat
  | [] => none
  | _ :: rest => (announced 4 rest).map fun r => 1 + r.1 + r.2

/-- The byte number `i` belongs to the packet that begins at number `b`. -/
def WithinPacket (stream : List UInt8) (b i : Nat) : Prop :=
  b ≤ i ∧ ∀ n, announcedSize (stream.drop b) = some n → i < b + n

/-- The numbers of the bytes at which a read began. -/
def packetsBegun (log : List (Entry κ)) : List Nat :=
  log.filterMap fun e =>
    match e with
    | .read (first :: _) _ => some first.seq
    | _ => none

/-- No read after the end of a session takes a byte that was queued then, or that
belongs to a packet begun before; and each session is opened by a `CONNACK` that
came after its `CONNECT`. -/
structure Isolated (stream : List UInt8) (log : List (Entry κ)) : Prop where
  read_new : ∀ newer older arrived queued, log = newer ++ .closed arrived queued :: older →
    ∀ cells rc, .read cells rc ∈ newer → ∀ c ∈ cells,
      c ∉ queued ∧ ∀ b ∈ packetsBegun older, ¬ WithinPacket stream b c.seq
  opened_new : ∀ newer older, log = newer ++ .opened :: older →
    ∃ cells reads packet arrived queued earlier,
      older = .read cells CONNACK :: reads ∧
        ReadsSince (.sent packet true arrived queued :: earlier) reads ∧
        IsConnect packet ∧ ∀ c ∈ cells, arrived ≤ c.seq

/-- A session ends with an empty FIFO and with every packet begun complete; a
`CONNECT` is sent with an empty FIFO. -/
def CleanEntry (stream : List UInt8) (older : List (Entry κ)) : Entry κ → Prop
  | .closed arrived queued => queued = [] ∧ ∀ b ∈ packetsBegun older,
      ∃ n ∈ announcedSize ((stream.take arrived).drop b), b + n ≤ arrived
  | .sent packet true _ queued => IsConnect packet → queued = []
  | _ => True

def CleanLog (stream : List UInt8) : List (Entry κ) → Prop
  | [] => True
  | e :: older => CleanEntry stream older e ∧ CleanLog stream older

instance (stream : List UInt8) (older : List (Entry κ)) : DecidablePred (CleanEntry stream older)
  | .closed arrived queued => inferInstanceAs (Decidable (queued = [] ∧
      ∀ b ∈ packetsBegun older,
        ∃ n ∈ announcedSize ((stream.take arrived).drop b), b + n ≤ arrived))
  | .sent packet true _ queued => inferInstanceAs (Decidable (IsConnect packet → queued = []))
  | .sent _ false _ _ | .read _ _ | .delivered _ _ | .opened => .isTrue trivial

instance CleanLog.decidable (stream : List UInt8) :
    (log : List (Entry κ)) → Decidable (CleanLog stream log)
  | [] => .isTrue trivial
  | e :: older =>
    have := CleanLog.decidable stream older
    inferInstanceAs (Decidable (CleanEntry stream older e ∧ CleanLog stream older))

theorem announced_append {rounds : Nat} {bytes : List UInt8} {r : Nat × Nat}
    (more : List UInt8) (h : announced rounds bytes = some r) :
    announced rounds (bytes ++ more) = some r := by
  induction rounds generalizing bytes r with
  | zero => exact h
  | succ rounds ih =>
    cases bytes with
    | nil => cases h
    | cons c cs =>
      rw [announced] at h
      rw [List.cons_append, announced]
      split
      · rename_i hc
        rw [if_pos hc] at h
        obtain ⟨r', hr', rfl⟩ := Option.map_eq_some_iff.mp h
        rw [ih hr']
        rfl
      · rename_i hc
        rw [if_neg hc] at h
        exact h

theorem announcedSize_append {bytes : List UInt8} {n : Nat} (more : List UInt8)
    (h : announcedSize bytes = some n) : announcedSize (bytes ++ more) = some n := by
  cases bytes with
  | nil => cases h
  | cons c cs =>
    obtain ⟨r, hr, rfl⟩ := Option.map_eq_some_iff.mp h
    rw [List.cons_append, announcedSize, announced_append more hr]
    rfl

/-- What arrives after a packet that is complete does not belong to it. -/
theorem not_withinPacket {stream : List UInt8} {arrived b n i : Nat}
    (hn : announcedSize ((stream.take arrived).drop b) = some n) (hle : b + n ≤ arrived)
    (hi : arrived ≤ i) : ¬ WithinPacket stream b i := by
  intro h
  obtain ⟨-, hwithin⟩ := h
  obtain ⟨more, hmore⟩ : ∃ more, stream.drop b = (stream.take arrived).drop b ++ more :=
    ⟨_, by rw [← List.drop_append, List.take_append_drop]⟩
  have hsize : announcedSize (stream.drop b) = some n := by
    rw [hmore]
    exact announcedSize_append more hn
  have hlt := hwithin n hsize
  omega

/-! ## What is in the network -/

/-- From `n` to `n'` the network takes bytes from the queue and receives new ones. -/
structure Grows (n n' : Net) : Prop where
  stream_le : n.stream.length ≤ n'.stream.length
  queue : ∀ c ∈ n'.queue.contents, c ∈ n.queue.contents ∨ n.stream.length ≤ c.seq
  taken : ∀ c ∈ n'.taken, c ∈ n.taken ∨ c ∈ n.queue.contents ∨ n.stream.length ≤ c.seq

namespace Grows

variable {n n' n'' : Net}

theorem trans (h : Grows n n') (h' : Grows n' n'') : Grows n n'' := by
  have hqueue : ∀ c, c ∈ n'.queue.contents ∨ n'.stream.length ≤ c.seq →
      c ∈ n.queue.contents ∨ n.stream.length ≤ c.seq := by
    intro c hc
    rcases hc with hc | hc
    · exact h.queue c hc
    · exact .inr (h.stream_le.trans hc)
  refine ⟨h.stream_le.trans h'.stream_le, fun c hc => hqueue c (h'.queue c hc), fun c hc => ?_⟩
  rcases h'.taken c hc with hc | hc
  · exact h.taken c hc
  · exact .inr (hqueue c hc)

theorem arrive (n : Net) (chunk : Chunk) : Grows n (n.arrive chunk) := by
  refine ⟨?_, fun c hc => ?_, fun _ => .inl⟩
  · rw [Net.arrive_stream, List.length_append]
    exact Nat.le_add_right ..
  · have hpos : 0 < (cellsFrom n.stream.length chunk.bytes).length := by
      rw [length_cellsFrom]
      exact chunk.length_pos
    rcases RxQueue.mem_push hpos hc with hold | hnew
    · exact .inl hold
    · exact .inr (seq_of_mem_cellsFrom hnew)

theorem interact (n : Net) : Grows n n.interact.2 := by
  have hall : ∀ (chunks : List Chunk) (n' : Net), Grows n n' →
      Grows n (chunks.foldl Net.arrive n') := by
    intro chunks
    induction chunks with
    | nil => exact fun _ h => h
    | cons chunk chunks ih => exact fun n' h => ih _ (h.trans (arrive n' chunk))
  exact hall _ _ ⟨Nat.le_refl _, fun _ => .inl, fun _ => .inl⟩

theorem read (n : Net) (count : Nat) : Grows n (n.read count).2 := by
  apply (interact n).trans
  refine ⟨Nat.le_refl _, fun c hc => .inl ?_, fun c hc => ?_⟩
  · simp only [Net.read, RxQueue.contents_read] at hc
    exact List.mem_of_mem_drop hc
  · simp only [Net.read, RxQueue.read_fst] at hc
    rcases List.mem_append.mp hc with hold | hnew
    · exact .inl hold
    · exact .inr (.inl (List.mem_of_mem_take hnew))

end Grows

/-- What a read takes was queued, or has come since. -/
theorem grows_readPacket (s : Sys κ) :
    (readPacket s).2.net.stream.length ≥ s.net.stream.length ∧
      (∀ c ∈ (readPacket s).2.net.queue.contents,
        c ∈ s.net.queue.contents ∨ s.net.stream.length ≤ c.seq) ∧
      ((readPacket s).2.log = s.log ∨ ∃ cells rc, (readPacket s).2.log = .read cells rc :: s.log ∧
        ∀ c ∈ cells, c ∈ s.net.queue.contents ∨ s.net.stream.length ≤ c.seq) := by
  have hinteract := Grows.interact s.net
  rcases Nat.eq_zero_or_pos s.interact.2.net.fifoSem with hsem | hsem
  · rw [readPacket_idle hsem]
    exact ⟨hinteract.stream_le, hinteract.queue, .inl rfl⟩
  · have hread := mqttPacketRead_keeps (I := Grows { s.net with taken := [] })
      (fun n count h => h.trans (Grows.read n count)) s.client.readbuf s.client.readbufSize
      (s := { s.interact.2.net with fifoSem := s.interact.2.net.fifoSem - 1, taken := [] })
      ⟨hinteract.stream_le, hinteract.queue, fun _ => .inl⟩
    rw [readPacket_token hsem]
    refine ⟨hread.stream_le, hread.queue, .inr ⟨_, _, rfl, fun c hc => ?_⟩⟩
    rcases hread.taken c hc with hnone | hc
    · cases hnone
    · exact hc

/-! ## The invariant -/

/-- The entry is the end of a session or a `CONNECT`, with so many bytes arrived. -/
def Mark (arrived : Nat) : Entry κ → Prop
  | .closed n _ => arrived = n
  | .sent packet true n _ => IsConnect packet ∧ arrived = n
  | _ => False

/-- A mark with an empty FIFO. -/
def MarkedEmpty : Entry κ → Prop
  | .closed _ queued => queued = []
  | .sent packet true _ queued => IsConnect packet → queued = []
  | _ => True

/-- What is read takes no byte that is older than the mark. -/
def ReadsNew (newer older : Entry κ) : Prop :=
  ∀ cells rc arrived, newer = .read cells rc → Mark arrived older → ∀ c ∈ cells, arrived ≤ c.seq

/-- Nothing that is queued, and nothing read since, is older than a mark. -/
structure Fresh (net : Net) (log : List (Entry κ)) : Prop where
  queued : ∀ e ∈ log, ∀ arrived, Mark arrived e →
    arrived ≤ net.stream.length ∧ ∀ c ∈ net.queue.contents, arrived ≤ c.seq
  reads : log.Pairwise ReadsNew
  opens : ∀ older, (.opened :: older) <:+ log → Opens older

namespace Fresh

variable {net net' : Net} {log : List (Entry κ)} {e : Entry κ}

theorem grow (h : Fresh net log) (hle : net.stream.length ≤ net'.stream.length)
    (hqueue : ∀ c ∈ net'.queue.contents, c ∈ net.queue.contents ∨ net.stream.length ≤ c.seq) :
    Fresh net' log := by
  refine ⟨fun e he arrived hmark => ?_, h.reads, h.opens⟩
  obtain ⟨harrived, hold⟩ := h.queued e he arrived hmark
  refine ⟨harrived.trans hle, fun c hc => ?_⟩
  rcases hqueue c hc with hc | hc
  · exact hold c hc
  · exact harrived.trans hc

/-- An entry is added. -/
theorem cons (h : Fresh net log) (hmark : ∀ arrived, Mark arrived e →
      arrived ≤ net.stream.length ∧ ∀ c ∈ net.queue.contents, arrived ≤ c.seq)
    (hread : ∀ older ∈ log, ReadsNew e older) (hopen : e = .opened → Opens log) :
    Fresh net (e :: log) := by
  refine ⟨?_, List.pairwise_cons.mpr ⟨hread, h.reads⟩, ?_⟩
  · intro e' he'
    rcases List.mem_cons.mp he' with rfl | he'
    · exact hmark
    · exact h.queued e' he'
  · intro older hsuffix
    rcases List.suffix_cons_iff.mp hsuffix with heq | hsuffix
    · obtain ⟨rfl, rfl⟩ := List.cons.inj heq
      exact hopen rfl
    · exact h.opens older hsuffix

end Fresh

/-- The invariant of a run: it holds as long as all marks are set with an empty FIFO. -/
def StaysFresh (s : Sys κ) : Prop := (∀ e ∈ s.log, MarkedEmpty e) → Fresh s.net s.log

theorem Effect.staysFresh [Callback κ] {F : Nat → Prop} {s s' : Sys κ} (he : Effect F s s')
    (h : StaysFresh s) : StaysFresh s' := by
  intro hempty
  have hs : Fresh s.net s.log := h fun e hmem => hempty e (he.log_suffix.mem hmem)
  cases he with
  | interact => exact hs.grow (Grows.interact s.net).stream_le (Grows.interact s.net).queue
  | read =>
    obtain ⟨hle, hqueue, hlog⟩ := grows_readPacket s
    have hs' := hs.grow hle hqueue
    rcases hlog with hlog | ⟨cells, rc, hlog, htaken⟩
    · rw [hlog]
      exact hs'
    · rw [hlog]
      refine hs'.cons (fun _ hm => hm.elim) (fun older holder => ?_) nofun
      -- what is taken was queued, or is new
      intro cells' rc' arrived heq hmark c hc
      cases heq
      obtain ⟨harrived, hold⟩ := hs.queued older holder arrived hmark
      rcases htaken c hc with hc | hc
      · exact hold c hc
      · exact harrived.trans hc
  | send packet =>
    have hs' := hs.grow (Grows.interact s.net).stream_le (Grows.interact s.net).queue
    refine hs'.cons (fun arrived hmark => ?_) (fun older _ => nofun) nofun
    have hnil := hempty _ (List.mem_cons_self ..)
    rcases hok : s.interact.1.txOk with _ | _
    · rw [hok] at hmark
      exact hmark.elim
    · rw [hok] at hmark hnil
      obtain ⟨hconnect, rfl⟩ := hmark
      have hqueue : s.interact.2.net.queue.contents = [] := hnil hconnect
      refine ⟨Nat.le_refl _, fun c hc => ?_⟩
      rw [show s.net.interact.2.queue.contents = [] from hqueue] at hc
      cases hc
  | call => exact hs.cons (fun _ hm => hm.elim) (fun older _ => nofun) nofun
  | packetId => exact hs
  | pinged => exact hs
  | ponged => exact hs
  | ticked => exact hs
  | close =>
    rw [closeSession_state] at hempty ⊢
    refine hs.cons (fun arrived hmark => ?_) (fun older _ => nofun) nofun
    cases hmark
    have hnil : s.net.queue.contents = [] := hempty _ (List.mem_cons_self ..)
    simp [hnil]
  | handler filter callback =>
    obtain ⟨slots, hslots, -⟩ := setMessageHandler_state filter callback s
    rw [hslots]
    exact hs
  | options => exact hs
  | opened _ hopens => exact hs.cons (fun _ hm => hm.elim) (fun older _ => nofun) fun _ => hopens

/-! ## The run -/

theorem staysFresh_mainStep {m : MainThread} (polls : Nat) (h : StaysFresh m.sys) :
    StaysFresh (mainStep m polls).1.sys := by
  have hready : m.ready.net = m.sys.net ∧ m.ready.log = m.sys.log := by
    unfold MainThread.ready printSubTemp
    split
    · split <;> exact ⟨rfl, rfl⟩
    · exact ⟨rfl, rfl⟩
  have hsteps := effects_mainStep m polls
  generalize (mainStep m polls).1.sys = s' at hsteps ⊢
  induction hsteps with
  | refl =>
    unfold StaysFresh
    rw [hready.1, hready.2]
    exact h
  | tail _ hstep ih => exact hstep.staysFresh ih

theorem CleanLog.entry {stream : List UInt8} {newer older : List (Entry κ)} {e : Entry κ}
    (h : CleanLog stream (newer ++ e :: older)) : CleanEntry stream older e := by
  induction newer with
  | nil => exact h.1
  | cons _ newer ih => exact ih h.2

theorem CleanLog.markedEmpty {stream : List UInt8} {log : List (Entry κ)}
    (h : CleanLog stream log) : ∀ e ∈ log, MarkedEmpty e := by
  intro e he
  obtain ⟨newer, older, rfl⟩ := List.append_of_mem he
  have hclean := h.entry
  cases e with
  | closed => exact hclean.1
  | sent packet accepted =>
    cases accepted with
    | true => exact hclean
    | false => trivial
  | _ => trivial

theorem isolated_of_fresh {net : Net} {log : List (Entry κ)} (h : Fresh net log)
    (hclean : CleanLog net.stream log) : Isolated net.stream log := by
  constructor
  · rintro newer older arrived queued rfl cells rc hread c hc
    obtain ⟨hempty, hwhole⟩ := hclean.entry
    -- the read is newer than the mark that the end of the session has set
    have hpair := (List.pairwise_append.mp h.reads).2.2 _ hread _ (List.mem_cons_self ..)
    have harrived := hpair cells rc arrived rfl rfl c hc
    refine ⟨by rw [hempty]; exact List.not_mem_nil, fun b hb => ?_⟩
    obtain ⟨n, hn, hle⟩ := hwhole b hb
    exact not_withinPacket hn hle harrived
  · rintro newer older rfl
    obtain ⟨cells, reads, sent, rfl, hsince, packet, arrived, queued, earlier, rfl, hconnect⟩ :=
      h.opens older (List.suffix_append ..)
    refine ⟨cells, reads, packet, arrived, queued, earlier, rfl, hsince, hconnect, ?_⟩
    -- the read is newer than the mark the `CONNECT` has set
    obtain ⟨between, rfl⟩ := hsince
    have hopened := (List.pairwise_append.mp h.reads).2.1
    have hread := (List.pairwise_cons.mp (List.pairwise_cons.mp hopened).2).1
    have hmark : Mark arrived (.sent packet true arrived queued : Entry κ) := ⟨hconnect, rfl⟩
    refine hread _ ?_ cells CONNACK arrived rfl hmark
    exact List.mem_append_right _ (List.mem_cons_self ..)

/-- **Sessions.** In every run of the main thread in which each session ends clean and
each `CONNECT` is sent with an empty FIFO, the sessions are isolated. -/
theorem sessions_isolated (config : IboxConfig) (env : Nat → EnvStep) (readbuf temp : List UInt8)
    (rounds : List Nat) :
    let s := (Machine.last mainStep (mainInit config (Net.initial env) readbuf temp) rounds).sys
    CleanLog s.net.stream s.log → Isolated s.net.stream s.log := by
  intro s hclean
  have hfresh : StaysFresh s := by
    apply Machine.run_invariant (I := fun m : MainThread => StaysFresh m.sys)
    · intro m polls h
      exact staysFresh_mainStep polls h
    · intro _
      refine ⟨fun e he => (List.not_mem_nil he).elim, .nil, fun older hsuffix => ?_⟩
      exact absurd (List.suffix_nil.mp hsuffix) (List.cons_ne_nil _ _)
  exact isolated_of_fresh (hfresh hclean.markedEmpty) hclean

/-! ## Runs -/

/-- A broker that accepts the connection, does not answer the first subscription, and
accepts the next connection. -/
def silentBroker (k : Nat) : EnvStep :=
  match k with
  | 1 => { EnvStep.quiet with arrive := [connackChunk] }
  | 10 => { EnvStep.quiet with sysTimeMs := 500 }
  | 13 => { EnvStep.quiet with arrive := [connackChunk] }
  | _ => EnvStep.quiet

theorem sessions_isolated_silent :
    let s := (Machine.last mainStep (someThread silentBroker) [1, 1, 1, 1, 1]).sys
    Isolated s.net.stream s.log :=
  sessions_isolated .initial silentBroker _ _ [1, 1, 1, 1, 1] (by decide +kernel)

/-- A `PUBLISH` in two messages; the second one is the end of its payload. -/
def publishFront : Chunk := ⟨[48, 19, 0, 11] ++ configTopic ++ ascii "[]", by decide, by decide⟩
def publishRest : Chunk := connackChunk

/-- The second message comes after the client has given up on the packet and
disconnected. -/
def splittingBroker (k : Nat) : EnvStep :=
  match k with
  | 32 => { EnvStep.quiet with arrive := [publishFront] }
  | 37 => { EnvStep.quiet with arrive := [publishRest] }
  | _ => grantingBroker k

/-- The payload of a message opens the next session. -/
theorem payload_opens_session :
    let s := (Machine.last mainStep (someThread splittingBroker) (List.replicate 10 1)).sys
    ¬ Isolated s.net.stream s.log := by
  intro s h
  have hlog : s.log = s.log.take 5 ++ .closed 41 [] :: s.log.drop 6 := by
    decide +kernel
  have hread : .read [⟨32, 41⟩, ⟨2, 42⟩, ⟨0, 43⟩, ⟨0, 44⟩] CONNACK ∈ s.log.take 5 := by
    decide +kernel
  have hbegun : 24 ∈ packetsBegun (s.log.drop 6) := by
    decide +kernel
  have hsize : announcedSize (s.net.stream.drop 24) = some 21 := by
    decide +kernel
  have hnew := h.read_new _ _ _ _ hlog _ _ hread ⟨32, 41⟩ (List.mem_cons_self ..)
  refine hnew.2 24 hbegun ⟨by decide, fun n hn => ?_⟩
  cases hsize.symm.trans hn
  decide

end IBoxClient
