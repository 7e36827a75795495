import IBoxClient.MqttHandshake
import IBoxClient.MqttTopics

/- The messages of QoS 2.

   `MQTT_cycle` keeps no packet ids. A `PUBLISH` is given to `deliverMessage` when it is read
   and answered with `PUBREC`, a `PUBREL` is answered with `PUBCOMP`, and nothing relates the
   two: a copy that is sent again before the `PUBREL` is delivered like the first one
   (`copies_delivered`). An answer may be refused by `net_tx_write`; it has been handed over all
   the same, and the session is closed. -/
namespace IBoxClient

open Bytes

variable {κ : Type}

/-- The message of a `PUBLISH` that has a packet id. -/
def Publication.data (p : Publication) : PublishData where
  dup := p.dup.toNat
  qos := p.qos
  retained := p.retained.toNat
  packetId := p.packetId.toNat
  topicName := p.topicName
  payload := p.payload
  payloadStart := some ((Inbound.publish p).wire.bytes.length - p.payload.length)
  payloadEnd := some (Inbound.publish p).wire.bytes.length

theorem message_publish {p : Publication} (hqos : p.qos = 2) (stale : Stale) :
    (Inbound.publish p).message stale = some p.data := by
  have hpos : p.qos > 0 := by omega
  simp only [Inbound.message, Publication.data, if_pos hpos]

/-- The end of `MQTT_cycle`. -/
def cycleExit (packetType rc : Int) : Prog (Sys κ) Int := do
  if rc = mqttSuccess then pure packetType
  else
    let s ← Prog.look
    if s.client.isconnected then do
      mqttCloseSession
      pure rc
    else pure rc

/-- An acknowledgement is handed to `net_tx_write`, taken or not. -/
theorem run_sendAck_any {s : Sys κ} (hbuf : 4 ≤ s.client.bufSize) (packetType : Nat)
    (packetId : UInt16) :
    sendAck packetType packetId.toNat s = sendPacket (ackPacket (packetType, packetId)) s := by
  have hpacket : mqttSerializeAck s.client.bufSize packetType 0 packetId.toNat =
      .ok (ackPacket (packetType, packetId)) := by
    rw [mqttSerializeAck, if_neg (Nat.not_lt.mpr hbuf), show mqttPacketEncode 2 = [2] by decide]
    rfl
  rw [sendAck, Prog.run_look_bind, hpacket]

theorem run_bind_congr {α β : Type} {p q : Prog (Sys κ) α} {f : α → Prog (Sys κ) β} {s : Sys κ}
    (h : p s = q s) : (p >>= f) s = (q >>= f) s := by
  rw [Prog.run_bind, Prog.run_bind, h]

section Cycle
variable [Callback κ]

/-- What is done with a message of QoS 2: it is read, delivered, and its id is received. -/
def Publication.actOn (p : Publication) : Prog (Sys κ) Int := do
  let _ ← readPacket
  let _ ← deliverMessage p.data
  let rc ← sendPacket (ackPacket (PUBREC, p.packetId))
  cycleExit PUBLISH rc

omit [Callback κ] in
/-- What is done with a `PUBREL`: it is read, and the exchange is complete. -/
def release (packetId : UInt16) : Prog (Sys κ) Int := do
  let _ ← readPacket
  let rc ← sendPacket (ackPacket (PUBCOMP, packetId))
  cycleExit PUBREL rc

/-! ## One cycle -/

theorem cycleHandle_eq (packetType : Int) :
    (cycleHandle packetType : Prog (Sys κ) Int) = cycleSwitch packetType >>= cycleExit packetType :=
  rfl

/-- A `PUBLISH` of QoS 2 that has been read. -/
theorem cyclePublish_qos2 {p : Publication} (hqos : p.qos = 2) {s : Sys κ}
    (hbuf : 4 ≤ s.client.bufSize)
    (hread : s.client.readbuf.take (Inbound.publish p).wire.bytes.length =
      (Inbound.publish p).wire.bytes) :
    cyclePublish s =
      (do
        let _ ← deliverMessage p.data
        sendPacket (ackPacket (PUBREC, p.packetId)) : Prog (Sys κ) Int) s := by
  obtain ⟨hmessage, hrc⟩ := deserialize_publish p (s.net.env 0).stale hread
  rw [message_publish hqos, Option.some_inj] at hmessage
  obtain ⟨rc, s', hdeliver, hdelivers⟩ := run_deliverMessage p.data s
  have hbuf' : 4 ≤ s'.client.bufSize := by
    rw [hdelivers.bufSize]
    exact hbuf
  have hdata : p.data.qos = 2 := hqos
  have hid : p.data.packetId = p.packetId.toNat := rfl
  unfold cyclePublish
  rw [Prog.run_look_bind, if_neg (not_not_intro hrc), hmessage, Prog.run_bind_some hdeliver,
    Prog.run_bind_some hdeliver, hdata, hid]
  exact run_sendAck_any hbuf' PUBREC p.packetId

omit [Callback κ] in
theorem cycleAck_pubrel {packetId : UInt16} {s : Sys κ} (hbuf : 4 ≤ s.client.bufSize)
    (hread : s.client.readbuf.take (Inbound.ack .pubrel packetId).wire.bytes.length =
      (Inbound.ack .pubrel packetId).wire.bytes) :
    cycleAck PUBREL s = sendPacket (ackPacket (PUBCOMP, packetId)) s := by
  have hack := deserialize_ack .pubrel packetId (s.net.env 0).stale hread
  rw [cycleAck, Prog.run_look_bind, hack]
  exact run_sendAck_any hbuf PUBCOMP packetId

/-- A cycle reads the packet, and does what its type asks for. -/
theorem cycle_reads {p : Inbound} {s : Sys κ} (hread : ReadsPacket p.wire s)
    {handle : Prog (Sys κ) Int}
    (hhandle : cycleSwitch (p.packetType : Int) (readPacket s).2 = handle (readPacket s).2) :
    mqttCycle s = (readPacket >>= fun _ => handle >>= cycleExit (p.packetType : Int)) s := by
  calc mqttCycle s
      = cycleHandle (p.packetType : Int) (readPacket s).2 := Prog.run_bind_some hread.run
    _ = (cycleSwitch (p.packetType : Int) >>= cycleExit (p.packetType : Int)) (readPacket s).2 := by
        rw [cycleHandle_eq]
    _ = (handle >>= cycleExit (p.packetType : Int)) (readPacket s).2 := run_bind_congr hhandle
    _ = (readPacket >>= fun _ => handle >>= cycleExit (p.packetType : Int)) s := by
        rw [Prog.run_bind_some hread.run]

omit [Callback κ] in
theorem bufSize_after {s : Sys κ} (hbuf : 4 ≤ s.client.bufSize) :
    4 ≤ (readPacket s).2.client.bufSize := by
  rw [bufSize_readPacket]
  exact hbuf

theorem cycle_actOn {p : Publication} (hqos : p.qos = 2) {s : Sys κ}
    (hbuf : 4 ≤ s.client.bufSize) (hread : ReadsPacket (Inbound.publish p).wire s) :
    mqttCycle s = p.actOn s := by
  have hpublish := cyclePublish_qos2 hqos (bufSize_after hbuf) hread.2
  rw [cycle_reads hread hpublish, Publication.actOn]
  simp only [bind_assoc]
  rfl

theorem cycle_release {packetId : UInt16} {s : Sys κ} (hbuf : 4 ≤ s.client.bufSize)
    (hread : ReadsPacket (Inbound.ack .pubrel packetId).wire s) :
    mqttCycle s = release packetId s :=
  cycle_reads hread (cycleAck_pubrel (bufSize_after hbuf) hread.2)

/-! ## What is entered into the log -/

omit [Callback κ] in
/-- The callbacks that a message is given to. -/
def callbacksFor (s : Sys κ) (topicName : List UInt8) : List κ :=
  let fitting := s.client.messageHandlers.filterMap (MessageHandlers.fitting s.strs topicName)
  if fitting = [] then s.client.defaultMessageHandler.toList else fitting

theorem log_slots (message : PublishData) (slots : List (MessageHandlers κ)) (r : Int × Sys κ) :
    let fitting := slots.filterMap (MessageHandlers.fitting r.2.strs message.topicName)
    (slots.foldl (deliverSlot message) r).2.log =
        (fitting.map (.delivered · message)).reverse ++ r.2.log ∧
      (slots.foldl (deliverSlot message) r).1 = if fitting = [] then r.1 else mqttSuccess := by
  induction slots generalizing r with
  | nil => exact ⟨rfl, rfl⟩
  | cons slot slots ih =>
    have hslot := deliverSlot_eq message r slot
    rw [List.foldl_cons]
    cases hfitting : slot.fitting r.2.strs message.topicName with
    | none =>
      rw [hfitting] at hslot
      rw [hslot, List.filterMap_cons_none hfitting]
      exact ih r
    | some callback =>
      rw [hfitting] at hslot
      obtain ⟨hlog, hrc⟩ := ih (mqttSuccess, r.2.call callback message)
      rw [hslot, List.filterMap_cons_some hfitting]
      refine ⟨?_, ?_⟩
      · rw [hlog, List.map_cons, List.reverse_cons, List.append_assoc]
        rfl
      · rw [hrc, if_neg (List.cons_ne_nil _ _)]
        exact ite_self _

/-- `deliverMessage` calls the callbacks one after another. -/
theorem log_deliver (message : PublishData) (s : Sys κ) :
    (deliverMessage message s).2.log =
      ((callbacksFor s message.topicName).map (.delivered · message)).reverse ++ s.log := by
  obtain ⟨hlog, hrc⟩ := log_slots message s.client.messageHandlers (mqttFailure, s)
  unfold callbacksFor
  generalize s.client.messageHandlers.filterMap
    (MessageHandlers.fitting s.strs message.topicName) = fitting at hlog hrc
  simp only [deliverMessage, Prog.run_act, hrc]
  cases fitting with
  | nil =>
    cases hdefault : s.client.defaultMessageHandler with
    | none => exact hlog
    | some callback => exact congrArg _ hlog
  | cons callback callbacks => exact hlog

omit [Callback κ] in
/-- `MQTT_init` has set a default callback. -/
theorem callbacksFor_ne {s : Sys κ} (hs : SetUp s) (topicName : List UInt8) :
    callbacksFor s topicName ≠ [] := by
  obtain ⟨callback, hdefault⟩ := Option.isSome_iff_exists.mp hs.handler
  simp only [callbacksFor]
  split
  · rw [hdefault]
    exact List.cons_ne_nil _ _
  · assumption

omit [Callback κ] in
/-- The end of a cycle closes the session, if an answer has been refused, and does nothing else. -/
theorem log_cycleExit (packetType rc : Int) (s : Sys κ) :
    ∃ closing : List (Entry κ), (cycleExit packetType rc s).2.log = closing ++ s.log ∧
      (rc = mqttSuccess → closing = []) := by
  unfold cycleExit
  split
  · exact ⟨[], rfl, fun _ => rfl⟩
  · next hrc =>
    rw [Prog.run_look_bind]
    split
    · rw [Prog.run_bind_some (run_closeSession s), closeSession_state]
      exact ⟨[_], rfl, fun h => absurd h hrc⟩
    · exact ⟨[], rfl, fun _ => rfl⟩

omit [Callback κ] in
/-- What a cycle has entered into the log: a packet was read, some calls were made and the answer
was handed over; only if it was refused anything came after it. -/
def Logged (calls : List (Entry κ)) (answer : Nat × UInt16) (s s' : Sys κ) : Prop :=
  ∃ closing accepted arrived queued cells rc,
    s'.log = closing ++ .sent (ackPacket answer) accepted arrived queued ::
      (calls ++ .read cells rc :: s.log) ∧
    (accepted = true → closing = [])

omit [Callback κ] in
theorem log_readPacket {p : WirePacket} {s : Sys κ} (h : ReadsPacket p s) :
    ∃ cells rc, (readPacket s).2.log = .read cells rc :: s.log := by
  obtain ⟨rc, hrun, ⟨-, hzero⟩ | ⟨cells, hlog⟩⟩ := run_readPacket s
  · have hrc := h.1
    rw [hrun, hzero, Option.some_inj] at hrc
    have hne := p.type_ne
    exact absurd (Int.natCast_eq_zero.mp hrc.symm) hne
  · exact ⟨cells, rc, hlog⟩

omit [Callback κ] in
theorem logged_exit {answer : Nat × UInt16} {packetType rc : Int} {accepted : Bool}
    {calls : List (Entry κ)} {cells : List Cell} {type : Int} {s s₁ : Sys κ}
    (hlog : s₁.log = calls ++ .read cells type :: s.log)
    (hrc : accepted = true → rc = mqttSuccess) :
    Logged calls answer s (cycleExit packetType rc (s₁.sent (ackPacket answer) accepted)).2 := by
  obtain ⟨closing, hexit, hclosing⟩ :=
    log_cycleExit packetType rc (s₁.sent (ackPacket answer) accepted)
  refine ⟨closing, accepted, s₁.interact.2.net.stream.length,
    s₁.interact.2.net.queue.contents, cells, type, ?_, fun h => hclosing (hrc h)⟩
  rw [hexit, ← hlog]
  rfl

omit [Callback κ] in
/-- An answer is handed over, and the cycle ends. -/
theorem logged_answer {answer : Nat × UInt16} {packetType : Int} {calls : List (Entry κ)}
    {cells : List Cell} {type : Int} {s s₁ : Sys κ}
    (hlog : s₁.log = calls ++ .read cells type :: s.log) :
    Logged calls answer s
      ((do
        let rc ← sendPacket (ackPacket answer)
        cycleExit packetType rc : Prog (Sys κ) Int) s₁).2 := by
  cases hok : (s₁.net.env 0).txOk with
  | true =>
    rw [Prog.run_bind_some (run_sendPacket_ok _ hok)]
    exact logged_exit hlog fun _ => rfl
  | false =>
    rw [Prog.run_bind_some (run_sendPacket_refused _ hok)]
    exact logged_exit hlog nofun

theorem logged_actOn {p : Publication} {s : Sys κ} (hs : SetUp s)
    (hread : ReadsPacket (Inbound.publish p).wire s) :
    ∃ callbacks : List κ, callbacks ≠ [] ∧
      Logged (callbacks.map (.delivered · p.data)) (PUBREC, p.packetId) s (p.actOn s).2 := by
  obtain ⟨cells, rc, hlog⟩ := log_readPacket hread
  have hs₁ : SetUp (readPacket s).2 := (Effect.read (F := fun _ => True) s).setUp hs
  have hcalls := log_deliver p.data (readPacket s).2
  obtain ⟨rc', s₂, hdeliver, -⟩ := run_deliverMessage p.data (readPacket s).2
  refine ⟨(callbacksFor (readPacket s).2 p.topicName).reverse, ?_, ?_⟩
  · rw [Ne, List.reverse_eq_nil_iff]
    exact callbacksFor_ne hs₁ _
  rw [hlog, hdeliver, ← List.map_reverse] at hcalls
  rw [Publication.actOn, Prog.run_bind_some (Prod.ext hread.1 rfl), Prog.run_bind_some hdeliver]
  exact logged_answer hcalls

omit [Callback κ] in
theorem logged_release {packetId : UInt16} {s : Sys κ}
    (hread : ReadsPacket (Inbound.ack .pubrel packetId).wire s) :
    Logged [] (PUBCOMP, packetId) s (release packetId s).2 := by
  obtain ⟨cells, rc, hlog⟩ := log_readPacket hread
  rw [release, Prog.run_bind_some (Prod.ext hread.1 rfl)]
  exact logged_answer hlog

/-! ## Sequences -/

theorem setUp_cycle {s : Sys κ} (hs : SetUp s) : SetUp (mqttCycle s).2 :=
  (does_mqttCycle (F := fun _ => True)).keeps (fun _ _ he hs => he.setUp hs) s hs

theorem setUp_cycles (n : Nat) {s : Sys κ} (hs : SetUp s) : SetUp (cycles n s) := by
  induction n generalizing s with
  | zero => exact hs
  | succ n ih => exact ih (setUp_cycle hs)

theorem cycles_succ (n : Nat) (s : Sys κ) : cycles (n + 1) s = (mqttCycle (cycles n s)).2 := by
  induction n generalizing s with
  | zero => rfl
  | succ n ih => exact ih (mqttCycle s).2

/-- The packet at a position is read in the state that the cycles before it have led to. -/
theorem reads_at {before after : List Inbound} {p : Inbound} {s : Sys κ}
    (h : Processes (before ++ p :: after) s) : ReadsPacket p.wire (cycles before.length s) := by
  induction before generalizing s with
  | nil => exact h.1
  | cons q before ih => exact ih h.2

/-- **Copies.** In a sequence of packets, every `PUBLISH` of QoS 2 with an id is delivered when it
is read and answered with `PUBREC`, whatever came before it: a copy of a message that has not
been released yet, as well as a new message with an id that has. Every `PUBREL` is answered with
`PUBCOMP`. -/
theorem copies_delivered {ps : List Inbound} {s : Sys κ} (hs : SetUp s) (hreads : Processes ps s) :
    (∀ before p after, ps = before ++ .publish p :: after → p.qos = 2 →
      mqttCycle (cycles before.length s) = p.actOn (cycles before.length s) ∧
      ∃ callbacks : List κ, callbacks ≠ [] ∧
        Logged (callbacks.map (.delivered · p.data)) (PUBREC, p.packetId)
          (cycles before.length s) (cycles (before.length + 1) s)) ∧
    ∀ before packetId after, ps = before ++ .ack .pubrel packetId :: after →
      mqttCycle (cycles before.length s) = release packetId (cycles before.length s) ∧
      Logged [] (PUBCOMP, packetId) (cycles before.length s) (cycles (before.length + 1) s) := by
  have hbuf : ∀ n, 4 ≤ (cycles n s).client.bufSize := by
    intro n
    rw [(setUp_cycles n hs).bufSize]
    decide
  constructor
  · rintro before p after rfl hqos
    have hread := reads_at hreads
    have hcycle := cycle_actOn hqos (hbuf before.length) hread
    refine ⟨hcycle, ?_⟩
    rw [cycles_succ, hcycle]
    exact logged_actOn (setUp_cycles before.length hs) hread
  · rintro before packetId after rfl
    have hread := reads_at hreads
    have hcycle := cycle_release (hbuf before.length) hread
    refine ⟨hcycle, ?_⟩
    rw [cycles_succ, hcycle]
    exact logged_release hread

end Cycle

/-! A broker that sends a message of QoS 2 twice, releases it, and uses its id again. -/

/-- The message 10, `hi` to the topic `t`. -/
def message10 (dup : Bool) : Publication :=
  ⟨dup, 2, false, 10, [116], [104, 105], by decide, topic_t_lt, by decide⟩

def twoCopies : List Inbound := [.publish (message10 false), .publish (message10 true)]

def qos2Packets : List Inbound :=
  twoCopies ++ [.ack .pubrel 10, .publish (message10 false)]

def qos2Broker (k : Nat) : EnvStep :=
  { EnvStep.quiet with
    arrive :=
      match k with
      | 0 =>
        [⟨[52, 7, 0, 1, 116, 0, 10, 104, 105], by decide, by decide⟩,
          ⟨[60, 7, 0, 1, 116, 0, 10, 104, 105], by decide, by decide⟩,
          ⟨[98, 2, 0, 10], by decide, by decide⟩,
          ⟨[52, 7, 0, 1, 116, 0, 10, 104, 105], by decide, by decide⟩]
      | _ => [] }

/-- The messages that callbacks have been called with, the last one first. -/
def messagesDelivered (log : List (Entry κ)) : List PublishData :=
  log.filterMap fun e =>
    match e with
    | .delivered _ message => some message
    | _ => none

theorem copies_delivered_qos2 : ∃ callbacks : List Unit, callbacks ≠ [] ∧
    Logged (callbacks.map (.delivered · (message10 true).data)) (PUBREC, 10)
      (cycles 1 (quietInit qos2Broker)) (cycles 2 (quietInit qos2Broker)) := by
  have hs : SetUp (quietInit qos2Broker) := ⟨rfl, rfl, rfl, rfl⟩
  have hreads : Processes qos2Packets (quietInit qos2Broker) :=
    ⟨⟨by decide +kernel, by decide +kernel⟩, ⟨by decide +kernel, by decide +kernel⟩,
      ⟨by decide +kernel, by decide +kernel⟩, ⟨by decide +kernel, by decide +kernel⟩, trivial⟩
  exact ((copies_delivered hs hreads).1 [.publish (message10 false)] (message10 true) _ rfl rfl).2

/-- The copy comes before any `PUBREL`, and the callback is called with the message again. -/
theorem copy_delivered_again :
    Processes twoCopies (quietInit qos2Broker) ∧
      messagesDelivered (cycles 2 (quietInit qos2Broker)).log =
        [(message10 true).data, (message10 false).data] ∧
      packetsSent (cycles 2 (quietInit qos2Broker)).log =
        [ackPacket (PUBREC, 10), ackPacket (PUBREC, 10)] :=
  ⟨⟨⟨by decide +kernel, by decide +kernel⟩, ⟨by decide +kernel, by decide +kernel⟩, trivial⟩,
    by decide +kernel, by decide +kernel⟩

end IBoxClient
