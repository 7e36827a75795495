import IBoxClient.MqttFraming
import IBoxClient.MqttReturns

/- What `MQTT_cycle` does with the packets of a broker.

   `Inbound` is a well-formed packet as a broker sends it, and `handling` what is to be done
   with it: a message is delivered, a `PUBACK`, `PUBREC`, `PUBREL` or `PUBCOMP` with the id of
   the packet is sent, or nothing. `cycle_handles` says that a cycle that reads the packet does
   just that, by parsing it out of the read buffer and serialising the answer again;
   `handshakes_performed` puts the cycles of a sequence of packets together. -/
namespace IBoxClient

open Bytes

variable {κ : Type}

/-! ## Packets of a broker -/

/-- A `PUBLISH`. The packet id is there from QoS 1 on. -/
structure Publication where
  dup : Bool
  qos : Nat
  retained : Bool
  packetId : UInt16
  topicName : List UInt8
  payload : List UInt8
  qos_le : qos ≤ 2
  topic_lt : topicName.length < 65536
  body_lt : topicName.length + payload.length + (if qos > 0 then 4 else 2) < 268435456

/-- The variable header and the payload. -/
def Publication.body (p : Publication) : List UInt8 :=
  writeInt p.topicName.length ++
    (p.topicName ++ ((if p.qos > 0 then writeInt p.packetId.toNat else []) ++ p.payload))

/-- The acknowledgements that consist of a packet id. -/
inductive AckType where
  | puback
  | pubrec
  | pubrel
  | pubcomp
  | unsuback

def AckType.packetType : AckType → Nat
  | puback => PUBACK
  | pubrec => PUBREC
  | pubrel => PUBREL
  | pubcomp => PUBCOMP
  | unsuback => UNSUBACK

/-- The packets that a broker sends. -/
inductive Inbound where
  | connack (flags returnCode : UInt8)
  | publish (p : Publication)
  | ack (type : AckType) (packetId : UInt16)
  | suback (packetId : UInt16) (granted : List UInt8) (granted_lt : granted.length + 2 < 268435456)
  | pingresp

theorem Publication.length_body_lt (p : Publication) : p.body.length < 268435456 := by
  have hlt := p.body_lt
  unfold body
  split at hlt
  · next hqos =>
    simp only [if_pos hqos, List.length_append, length_writeInt]
    omega
  · next hqos =>
    simp only [if_neg hqos, List.length_append, length_writeInt, List.length_nil]
    omega

/-- `PUBREL` has the flags of QoS 1. -/
def ackHeader (packetType : Nat) : UInt8 :=
  headerByte packetType 0 (if packetType = PUBREL then 1 else 0) 0

namespace Inbound

def packetType : Inbound → Nat
  | connack .. => CONNACK
  | publish _ => PUBLISH
  | ack type _ => type.packetType
  | suback .. => SUBACK
  | pingresp => PINGRESP

def header : Inbound → UInt8
  | publish p => headerByte PUBLISH p.dup.toNat p.qos p.retained.toNat
  | p => ackHeader p.packetType

def body : Inbound → List UInt8
  | connack flags returnCode => [flags, returnCode]
  | publish p => p.body
  | ack _ packetId => writeInt packetId.toNat
  | suback packetId granted _ => writeInt packetId.toNat ++ granted
  | pingresp => []

theorem type_header (p : Inbound) : headerType p.header = p.packetType := by
  cases p with
  | ack type packetId => cases type <;> exact headerType_headerByte ..
  | _ => exact headerType_headerByte ..

/-- The packet as it is sent. -/
def wire (p : Inbound) : WirePacket where
  header := p.header
  body := p.body
  type_ne := by
    rw [type_header]
    cases p with
    | ack type packetId => cases type <;> exact Nat.succ_ne_zero _
    | _ => exact Nat.succ_ne_zero _
  length_lt := by
    cases p with
    | publish p => exact p.length_body_lt
    | suback packetId granted hlt =>
      simp only [body, List.length_append, length_writeInt]
      omega
    | connack | ack | pingresp => simp [body, length_writeInt]

/-- What is to be delivered. A `PUBLISH` without a packet id leaves the variable of the
caller as it is. -/
def message (stale : Stale) : Inbound → Option PublishData
  | publish p => some
      { dup := p.dup.toNat
        qos := p.qos
        retained := p.retained.toNat
        packetId := if p.qos > 0 then p.packetId.toNat else stale.packetId
        topicName := p.topicName
        payload := p.payload
        payloadStart := some ((publish p).wire.bytes.length - p.payload.length)
        payloadEnd := some (publish p).wire.bytes.length }
  | _ => none

/-- What is to be answered: a packet type, and the packet id. -/
def answer : Inbound → Option (Nat × UInt16)
  | publish p =>
    if p.qos = 1 then some (PUBACK, p.packetId)
    else if p.qos = 2 then some (PUBREC, p.packetId)
    else none
  | ack .pubrec packetId => some (PUBREL, packetId)
  | ack .pubrel packetId => some (PUBCOMP, packetId)
  | _ => none

end Inbound

/-- An acknowledgement on the wire. -/
def ackPacket (a : Nat × UInt16) : List UInt8 := [ackHeader a.1, 2] ++ writeInt a.2.toNat

section Handling
variable [Callback κ]

def deliverAny : Option PublishData → Prog (Sys κ) Unit
  | some message => do
    let _ ← deliverMessage message
    pure ()
  | none => pure ()

omit [Callback κ] in
def answerAny : Option (Nat × UInt16) → Prog (Sys κ) Unit
  | some a => do
    let _ ← sendPacket (ackPacket a)
    pure ()
  | none => pure ()

/-- A `PINGRESP` is what the ping was waiting for. -/
def Inbound.pong : Inbound → Prog (Sys κ) Unit
  | pingresp => Prog.change fun s => s.setClient fun c => { c with pingOutstanding := 0 }
  | _ => pure ()

/-- What is to be done with a packet: it is read, its message is delivered, its answer is
sent. -/
def Inbound.handling (p : Inbound) : Prog (Sys κ) Int := do
  let _ ← readPacket
  let s ← Prog.look
  deliverAny (p.message (s.net.env 0).stale)
  answerAny p.answer
  p.pong
  pure (p.packetType : Int)

end Handling

/-! ## Parsing -/

/-- Memory is a source that nothing is added to. -/
theorem source_bufchar : Source bufchar (fun _ => True) id fun _ => [] where
  good := fun _ _ _ => trivial
  get := fun s n _ => ⟨[], by simp [bufchar], by simp [bufchar], rfl⟩

theorem decodeBuf_encode {n : Nat} (hn : n < 268435456) (tail : List UInt8) :
    mqttPacketDecodeBuf (mqttPacketEncode n ++ tail) = ((mqttPacketEncode n).length, n) := by
  have hfield := lengthField_encodeDigits 3 tail (by decide : 3 < 5) hn
  obtain ⟨s', more, hdec, -⟩ := @decodeLoop_spec _ _ _ _ _ source_bufchar 4 0 0 1 _
    (mqttPacketEncode n ++ tail) hfield trivial
  simp only [mqttPacketDecodeBuf, mqttPacketDecode, hdec]
  rw [Nat.zero_add, Nat.mul_one, Nat.zero_add]
  rfl

/-- A packet at the front of the buffer: its header, its length, and the memory from its
variable header on. -/
theorem buffer_of_packet {p : WirePacket} {buf : List UInt8}
    (h : buf.take p.bytes.length = p.bytes) :
    readChar buf 0 = p.header ∧
      mqttPacketDecodeBuf (buf.drop 1) = ((mqttPacketEncode p.body.length).length, p.body.length) ∧
      ∃ tail, buf.drop (1 + (mqttPacketEncode p.body.length).length) = p.body ++ tail := by
  have hbuf : buf = p.bytes ++ buf.drop p.bytes.length := by
    have hsplit := (List.take_append_drop p.bytes.length buf).symm
    rwa [h] at hsplit
  have hrest : buf.drop 1 =
      mqttPacketEncode p.body.length ++ (p.body ++ buf.drop p.bytes.length) := by
    rw [← List.append_assoc]
    exact congrArg (List.drop 1) hbuf
  refine ⟨?_, ?_, buf.drop p.bytes.length, ?_⟩
  · rw [hbuf]
    rfl
  · rw [hrest]
    exact decodeBuf_encode p.length_lt _
  · rw [← List.drop_drop, hrest, List.drop_left]

theorem length_bytes (p : WirePacket) :
    p.bytes.length = 1 + (mqttPacketEncode p.body.length).length + p.body.length := by
  rw [WirePacket.bytes, List.length_cons, List.length_append]
  omega

/-- The bit fields of a header are read back. -/
theorem header_publication (dup retained : Bool) {qos : Nat} (hqos : qos ≤ 2) :
    let header := headerByte PUBLISH dup.toNat qos retained.toNat
    headerDup header = dup.toNat ∧ headerQos header = qos ∧ headerRetain header = retained.toNat := by
  have hdup := dup.toNat_lt
  have hretained := retained.toNat_lt
  simp only [headerDup, headerQos, headerRetain, toNat_headerByte, PUBLISH]
  omega

/-- `MQTTDeserialize_publish` reads a `PUBLISH` back. -/
theorem deserialize_publish (p : Publication) (stale : Stale) {buf : List UInt8}
    (h : buf.take (Inbound.publish p).wire.bytes.length = (Inbound.publish p).wire.bytes) :
    some (mqttDeserializePublish stale buf).2 = (Inbound.publish p).message stale ∧
      (mqttDeserializePublish stale buf).1 = 1 := by
  obtain ⟨hheader, hdecode, tail, hbody⟩ := buffer_of_packet h
  obtain ⟨hdup, hqos, hretained⟩ := header_publication p.dup p.retained p.qos_le
  have hlength := length_bytes (Inbound.publish p).wire
  have hheader : readChar buf 0 = headerByte PUBLISH p.dup.toNat p.qos p.retained.toNat := hheader
  have hbody_eq : (Inbound.publish p).wire.body = p.body := rfl
  rw [hbody_eq] at hdecode hbody hlength
  generalize (mqttPacketEncode p.body.length).length = digits at hdecode hbody hlength
  have htype : headerType (headerByte PUBLISH p.dup.toNat p.qos p.retained.toNat) = PUBLISH :=
    headerType_headerByte ..
  have hsize : p.body.length = 2 + p.topicName.length + (if p.qos > 0 then 2 else 0) +
      p.payload.length := by
    unfold Publication.body
    split <;> simp only [List.length_append, length_writeInt, List.length_nil] <;> omega
  have htopiclen : readInt buf (1 + digits) = p.topicName.length := by
    rw [readInt_drop, hbody, Publication.body, List.append_assoc]
    exact readInt_writeInt p.topic_lt _
  have htopic : buf.drop (1 + digits + 2) = p.topicName ++
      ((if p.qos > 0 then writeInt p.packetId.toNat else []) ++ (p.payload ++ tail)) := by
    rw [← List.drop_drop, hbody, Publication.body]
    simp only [List.append_assoc]
    exact List.drop_left' rfl
  have hid : buf.drop (1 + digits + 2 + p.topicName.length) =
      (if p.qos > 0 then writeInt p.packetId.toNat else []) ++ (p.payload ++ tail) := by
    rw [← List.drop_drop, htopic, List.drop_left]
  have hfits : 1 + digits + 2 + p.topicName.length ≤ 1 + digits + p.body.length := by omega
  have hmany : 1 + digits + p.body.length - (1 + digits) > 1 := by omega
  have hidread : p.qos > 0 → readInt buf (1 + digits + 2 + p.topicName.length) = p.packetId.toNat := by
    intro hpos
    rw [readInt_drop, hid, if_pos hpos]
    exact readInt_writeInt p.packetId.toNat_lt _
  have hpayload : ∀ off, off = 1 + digits + 2 + p.topicName.length + (if p.qos > 0 then 2 else 0) →
      (buf.drop off).take (1 + digits + p.body.length - off) = p.payload := by
    intro off hoff
    have hdrop : buf.drop off = p.payload ++ tail := by
      rw [hoff, ← List.drop_drop, hid]
      split
      · exact List.drop_left' rfl
      · rfl
    rw [hdrop, show 1 + digits + p.body.length - off = p.payload.length by omega, List.take_left]
  simp only [mqttDeserializePublish, hheader, htype, hdecode, htopiclen, htopic, List.take_left,
    hdup, hqos, hretained, ne_eq, not_true_eq_false, if_false, hmany, hfits, Inbound.message]
  refine ⟨?_, trivial⟩
  have hstart : 1 + digits + p.body.length - p.payload.length =
      1 + digits + 2 + p.topicName.length + (if p.qos > 0 then 2 else 0) := by
    omega
  rw [hlength, hstart]
  by_cases hpos : p.qos > 0
  · simp only [if_pos hpos, hidread hpos]
    rw [hpayload _ (by rw [if_pos hpos])]
  · simp only [if_neg hpos]
    rw [hpayload _ (by rw [if_neg hpos]; rfl)]
    rfl

/-- `MQTTDeserialize_ack` reads the packet id back. -/
theorem deserialize_ack (type : AckType) (packetId : UInt16) (stale : Stale) {buf : List UInt8}
    (h : buf.take (Inbound.ack type packetId).wire.bytes.length =
      (Inbound.ack type packetId).wire.bytes) :
    mqttDeserializeAck stale buf = (1, type.packetType, packetId.toNat) := by
  obtain ⟨hheader, hdecode, tail, hbody⟩ := buffer_of_packet h
  have hheader : headerType (readChar buf 0) = type.packetType := by
    rw [hheader]
    exact Inbound.type_header (.ack type packetId)
  have hbody_eq : (Inbound.ack type packetId).wire.body = writeInt packetId.toNat := rfl
  rw [hbody_eq, length_writeInt] at hdecode hbody
  have hid : readInt buf (1 + (mqttPacketEncode 2).length) = packetId.toNat := by
    rw [readInt_drop, hbody]
    exact readInt_writeInt packetId.toNat_lt _
  simp only [mqttDeserializeAck, hheader, hdecode, hid]
  rfl

/-- The answers are acknowledgements. -/
theorem answer_ack {p : Inbound} {a : Nat × UInt16} (h : p.answer = some a) :
    ∃ type : AckType, a.1 = type.packetType := by
  cases p with
  | publish p =>
    simp only [Inbound.answer] at h
    split at h
    · cases h
      exact ⟨.puback, rfl⟩
    · split at h
      · cases h
        exact ⟨.pubrec, rfl⟩
      · cases h
  | ack type packetId =>
    cases type with
    | pubrec =>
      cases h
      exact ⟨.pubrel, rfl⟩
    | pubrel =>
      cases h
      exact ⟨.pubcomp, rfl⟩
    | puback | pubcomp | unsuback => cases h
  | connack | suback | pingresp => cases h

theorem ackPacket_eq (type : AckType) (packetId : UInt16) :
    ackPacket (type.packetType, packetId) = (Inbound.ack type packetId).wire.bytes := by
  have hlength : mqttPacketEncode (writeInt packetId.toNat).length = [2] := by
    rw [length_writeInt]
    decide
  show _ = (Inbound.ack type packetId).header ::
    (mqttPacketEncode (writeInt packetId.toNat).length ++ writeInt packetId.toNat)
  rw [hlength]
  rfl

/-- An answer is read back as what it is. -/
theorem deserialize_answer {p : Inbound} {a : Nat × UInt16} (h : p.answer = some a)
    (stale : Stale) (tail : List UInt8) :
    mqttDeserializeAck stale (ackPacket a ++ tail) = (1, a.1, a.2.toNat) := by
  obtain ⟨packetType, packetId⟩ := a
  obtain ⟨type, htype⟩ := answer_ack h
  simp only at htype
  subst htype
  rw [ackPacket_eq]
  exact deserialize_ack type packetId stale (List.take_left ..)

/-! ## A cycle -/

/-- Every packet given to `net_tx_write` is taken. -/
def TxReady (s : Sys κ) : Prop := ∀ k, (s.net.env k).txOk = true

theorem txReady_interact {n : Net} (h : ∀ k, (n.env k).txOk = true) :
    ∀ k, (n.interact.2.env k).txOk = true := by
  intro k
  rw [Net.interact, Net.arrivals_env]
  exact h (k + 1)

theorem txReady_readPacket {s : Sys κ} (h : TxReady s) : TxReady (readPacket s).2 := by
  have hnow := txReady_interact h
  rcases Nat.eq_zero_or_pos s.interact.2.net.fifoSem with hsem | hsem
  · rw [readPacket_idle hsem]
    exact hnow
  · rw [readPacket_token hsem]
    exact mqttPacketRead_keeps (I := fun n : Net => ∀ k, (n.env k).txOk = true)
      (fun _ _ hn => txReady_interact hn) _ _ hnow

theorem run_sendAck {s : Sys κ} (hbuf : 4 ≤ s.client.bufSize) (htx : TxReady s)
    (packetType : Nat) (packetId : UInt16) :
    sendAck packetType packetId.toNat s =
      (some mqttSuccess, s.sent (ackPacket (packetType, packetId)) true) := by
  have hpacket : mqttSerializeAck s.client.bufSize packetType 0 packetId.toNat =
      .ok (ackPacket (packetType, packetId)) := by
    rw [mqttSerializeAck, if_neg (Nat.not_lt.mpr hbuf), show mqttPacketEncode 2 = [2] by decide]
    rfl
  rw [sendAck, Prog.run_look_bind, hpacket]
  exact run_sendPacket_ok _ (htx 0)

theorem run_answerAny {s : Sys κ} (htx : TxReady s) {a : Nat × UInt16}
    (f : Unit → Prog (Sys κ) Int) :
    (answerAny (some a) >>= f) s = f () (s.sent (ackPacket a) true) := by
  rw [answerAny, bind_assoc, Prog.run_bind_some (run_sendPacket_ok _ (htx 0))]
  rfl

section Cycle
variable [Callback κ]

/-- What delivering leaves alone: the send buffer and the network, and it sends nothing. -/
structure Delivers (s s' : Sys κ) : Prop where
  bufSize : s'.client.bufSize = s.client.bufSize
  net : s'.net = s.net
  sent : packetsSent s'.log = packetsSent s.log

omit [Callback κ] in
theorem Delivers.refl (s : Sys κ) : Delivers s s := ⟨rfl, rfl, rfl⟩

omit [Callback κ] in
theorem Delivers.trans {s s' s'' : Sys κ} (h : Delivers s s') (h' : Delivers s' s'') :
    Delivers s s'' :=
  ⟨h'.bufSize.trans h.bufSize, h'.net.trans h.net, h'.sent.trans h.sent⟩

theorem delivers_slots (message : PublishData) (slots : List (MessageHandlers κ))
    (r : Int × Sys κ) : Delivers r.2 (slots.foldl (deliverSlot message) r).2 := by
  induction slots generalizing r with
  | nil => exact .refl _
  | cons slot slots ih =>
    refine Delivers.trans ?_ (ih _)
    unfold deliverSlot
    split
    · exact .refl _
    · split
      · split
        · exact ⟨rfl, rfl, rfl⟩
        · exact .refl _
      · exact .refl _

theorem run_deliverMessage (message : PublishData) (s : Sys κ) :
    ∃ rc s', deliverMessage message s = (some rc, s') ∧ Delivers s s' := by
  refine ⟨_, _, rfl, ?_⟩
  have hslots := delivers_slots message s.client.messageHandlers (mqttFailure, s)
  dsimp only
  split
  · split
    · exact hslots.trans ⟨rfl, rfl, rfl⟩
    · exact hslots
  · exact hslots

/-- The next read takes this packet, completely. -/
def ReadsPacket (p : WirePacket) (s : Sys κ) : Prop :=
  (readPacket s).1 = some (p.type : Int) ∧
    (readPacket s).2.client.readbuf.take p.bytes.length = p.bytes

omit [Callback κ] in
/-- A token, and a whole packet in front of the FIFO that fits into the read buffer. -/
theorem readsPacket_of_queue {p : WirePacket} {s : Sys κ} {tail : List UInt8}
    (hsem : 0 < s.interact.2.net.fifoSem) (hfit : p.bytes.length ≤ s.client.readbufSize)
    (hv : s.interact.2.net.queue.bytes = p.bytes ++ tail)
    (hg : (readPacket s).2.net.overrun = false) : ReadsPacket p s := by
  obtain ⟨s', more, hrun, hbytes, -⟩ := readPacket_packet hsem hfit hv hg
  rw [ReadsPacket, hrun]
  refine ⟨rfl, ?_⟩
  rw [hbytes]
  exact take_writeAt _ _

omit [Callback κ] in
theorem ReadsPacket.run {p : Inbound} {s : Sys κ} (h : ReadsPacket p.wire s) :
    readPacket s = (some (p.packetType : Int), (readPacket s).2) := by
  have htype : (p.wire.type : Int) = p.packetType := congrArg _ p.type_header
  have hrc := h.1
  rw [htype] at hrc
  exact Prod.ext hrc rfl

/-- What is left of `handling` when the packet has been read. -/
def Inbound.handled (p : Inbound) (s : Sys κ) : Option Int × Sys κ :=
  (do
    deliverAny (p.message (s.net.env 0).stale)
    answerAny p.answer
    p.pong
    pure (p.packetType : Int) : Prog (Sys κ) Int) s

theorem handle_of_success {packetType : Int} {s s' : Sys κ}
    (h : cycleSwitch packetType s = (some mqttSuccess, s')) :
    cycleHandle packetType s = (some packetType, s') := by
  rw [cycleHandle, Prog.run_bind_some h, if_pos rfl]
  rfl

/-- A `PUBLISH` that has been read. -/
theorem handle_publish (p : Publication) {s : Sys κ} (hbuf : 4 ≤ s.client.bufSize)
    (htx : TxReady s)
    (hread : s.client.readbuf.take (Inbound.publish p).wire.bytes.length =
      (Inbound.publish p).wire.bytes) :
    cycleHandle (PUBLISH : Int) s = (Inbound.publish p).handled s := by
  obtain ⟨hmessage, hrc⟩ := deserialize_publish p (s.net.env 0).stale hread
  have hqos : (mqttDeserializePublish (s.net.env 0).stale s.client.readbuf).2.qos = p.qos := by
    rw [Inbound.message, Option.some_inj] at hmessage
    rw [hmessage]
  have hid : p.qos > 0 →
      (mqttDeserializePublish (s.net.env 0).stale s.client.readbuf).2.packetId =
        p.packetId.toNat := by
    intro hpos
    rw [Inbound.message, Option.some_inj] at hmessage
    rw [hmessage]
    exact if_pos hpos
  generalize hd : mqttDeserializePublish (s.net.env 0).stale s.client.readbuf = d
    at hmessage hrc hqos hid
  obtain ⟨rc, s', hdeliver, hdelivers⟩ := run_deliverMessage d.2 s
  have hbuf' : 4 ≤ s'.client.bufSize := hdelivers.bufSize.symm ▸ hbuf
  have htx' : TxReady s' := by
    unfold TxReady
    rw [hdelivers.net]
    exact htx
  have hswitch : cycleSwitch (PUBLISH : Int) s = cyclePublish s := rfl
  have hrun : cyclePublish s =
      (if p.qos = 0 then pure mqttSuccess
        else if p.qos = 1 then sendAck PUBACK d.2.packetId
        else if p.qos = 2 then sendAck PUBREC d.2.packetId
        else pure mqttFailure : Prog (Sys κ) Int) s' := by
    unfold cyclePublish
    rw [Prog.run_look_bind, hd, if_neg (not_not_intro hrc), Prog.run_bind_some hdeliver, hqos]
  have hdelivered : ∀ f : Unit → Prog (Sys κ) Int,
      (deliverAny (some d.2) >>= f) s = f () s' := by
    intro f
    rw [deliverAny, bind_assoc, Prog.run_bind_some hdeliver]
    rfl
  rw [Inbound.handled, ← hmessage, hdelivered]
  have hqos_le := p.qos_le
  rcases (by omega : p.qos = 0 ∨ p.qos = 1 ∨ p.qos = 2) with h0 | h1 | h2
  · rw [if_pos h0] at hrun
    rw [handle_of_success (hswitch.trans hrun), Inbound.answer, if_neg (by omega),
      if_neg (by omega)]
    rfl
  · rw [if_neg (by omega), if_pos h1, hid (by omega), run_sendAck hbuf' htx'] at hrun
    rw [handle_of_success (hswitch.trans hrun), Inbound.answer, if_pos h1,
      run_answerAny htx']
    rfl
  · rw [if_neg (by omega), if_neg (by omega), if_pos h2, hid (by omega), run_sendAck hbuf' htx']
      at hrun
    rw [handle_of_success (hswitch.trans hrun), Inbound.answer, if_neg (by omega), if_pos h2,
      run_answerAny htx']
    rfl

/-- A `PUBREC` or `PUBREL` that has been read. -/
theorem handle_ack {type : AckType} (packetId : UInt16) {reply : Nat} {s : Sys κ}
    (hbuf : 4 ≤ s.client.bufSize) (htx : TxReady s)
    (hread : s.client.readbuf.take (Inbound.ack type packetId).wire.bytes.length =
      (Inbound.ack type packetId).wire.bytes)
    (hreply : (Inbound.ack type packetId).answer = some (reply, packetId)) :
    cycleHandle (type.packetType : Int) s = (Inbound.ack type packetId).handled s := by
  have hack := deserialize_ack type packetId (s.net.env 0).stale hread
  have hswitch : cycleSwitch (type.packetType : Int) s =
      (some mqttSuccess, s.sent (ackPacket (reply, packetId)) true) := by
    have hrun : cycleSwitch (type.packetType : Int) s = sendAck reply packetId.toNat s := by
      cases type with
      | pubrec =>
        cases hreply
        show cycleAck PUBREC s = _
        rw [cycleAck, Prog.run_look_bind, hack]
        rfl
      | pubrel =>
        cases hreply
        show cycleAck PUBREL s = _
        rw [cycleAck, Prog.run_look_bind, hack]
        rfl
      | puback | pubcomp | unsuback => cases hreply
    rw [hrun, run_sendAck hbuf htx]
  have hmessage : (Inbound.ack type packetId).message (s.net.env 0).stale = none := rfl
  rw [handle_of_success hswitch, Inbound.handled, hreply, hmessage, deliverAny, Prog.run_pure_bind,
    run_answerAny htx]
  rfl

/-- **One packet.** A cycle that reads a packet of a broker does what is to be done with it. -/
theorem cycle_handles {p : Inbound} {s : Sys κ} (hread : ReadsPacket p.wire s)
    (hbuf : 4 ≤ s.client.bufSize) (htx : TxReady s) : mqttCycle s = p.handling s := by
  have hbytes := hread.2
  have hrun := hread.run
  have htx' := txReady_readPacket htx
  have hbuf' : 4 ≤ (readPacket s).2.client.bufSize := by
    rw [bufSize_readPacket]
    exact hbuf
  rw [mqttCycle, Prog.run_bind_some hrun, Inbound.handling, Prog.run_bind_some hrun]
  show _ = p.handled (readPacket s).2
  generalize (readPacket s).2 = s' at hbytes htx' hbuf'
  cases p with
  | connack => exact handle_of_success rfl
  | publish p => exact handle_publish p hbuf' htx' hbytes
  | ack type packetId =>
    cases type with
    | puback => exact handle_of_success rfl
    | pubrec => exact handle_ack packetId hbuf' htx' hbytes rfl
    | pubrel => exact handle_ack packetId hbuf' htx' hbytes rfl
    | pubcomp => exact handle_of_success rfl
    | unsuback => exact handle_of_success rfl
  | suback => exact handle_of_success rfl
  | pingresp => exact handle_of_success rfl

/-- What is sent is the answer, and everything else that the next cycle needs is kept. -/
theorem handling_step (p : Inbound) {s : Sys κ} (htx : TxReady s) :
    (p.handling s).2.client.bufSize = s.client.bufSize ∧ TxReady (p.handling s).2 ∧
      packetsSent (p.handling s).2.log =
        (p.answer.map ackPacket).toList ++ packetsSent s.log := by
  obtain ⟨rc, hrun, hlog⟩ := run_readPacket s
  have hsize := bufSize_readPacket s
  have hsent : packetsSent (readPacket s).2.log = packetsSent s.log := by
    rcases hlog with ⟨hlog, -⟩ | ⟨cells, hlog⟩
    · rw [hlog]
    · rw [hlog]
      rfl
  have htx₁ := txReady_readPacket htx
  rw [Inbound.handling, Prog.run_bind_some hrun, Prog.run_look_bind, ← hsize, ← hsent]
  generalize (readPacket s).2 = s₁ at htx₁
  obtain ⟨s₂, hdeliver, hdelivers⟩ : ∃ s₂,
      deliverAny (p.message (s₁.net.env 0).stale) s₁ = (some (), s₂) ∧ Delivers s₁ s₂ := by
    cases p.message (s₁.net.env 0).stale with
    | none => exact ⟨s₁, rfl, .refl s₁⟩
    | some message =>
      obtain ⟨rc, s₂, hdeliver, hdelivers⟩ := run_deliverMessage message s₁
      exact ⟨s₂, by rw [deliverAny, Prog.run_bind_some hdeliver]; rfl, hdelivers⟩
  have htx₂ : TxReady s₂ := by
    unfold TxReady
    rw [hdelivers.net]
    exact htx₁
  rw [Prog.run_bind_some hdeliver, ← hdelivers.bufSize, ← hdelivers.sent]
  have hpong : ∀ s : Sys κ, ((p.pong >>= fun _ => pure (p.packetType : Int)) s).2.client.bufSize =
      s.client.bufSize ∧ ((p.pong >>= fun _ => pure (p.packetType : Int)) s).2.net = s.net ∧
      ((p.pong >>= fun _ => pure (p.packetType : Int)) s).2.log = s.log := by
    intro s
    cases p <;> exact ⟨rfl, rfl, rfl⟩
  cases hanswer : p.answer with
  | none =>
    obtain ⟨hbuf, hnet, hlog⟩ := hpong s₂
    rw [answerAny, Prog.run_pure_bind]
    refine ⟨hbuf, ?_, by rw [hlog]; rfl⟩
    unfold TxReady
    rw [hnet]
    exact htx₂
  | some a =>
    obtain ⟨hbuf, hnet, hlog⟩ := hpong (s₂.sent (ackPacket a) true)
    rw [run_answerAny htx₂]
    refine ⟨hbuf, ?_, by rw [hlog]; rfl⟩
    unfold TxReady
    rw [hnet]
    exact txReady_interact htx₂

/-! ## Sequences -/

/-- Some cycles. -/
def cycles : Nat → Sys κ → Sys κ
  | 0, s => s
  | n + 1, s => cycles n (mqttCycle s).2

/-- The packets are read one after another, each by one cycle. -/
def Processes : List Inbound → Sys κ → Prop
  | [], _ => True
  | p :: ps, s => ReadsPacket p.wire s ∧ Processes ps (mqttCycle s).2

/-- What is to be done with them. -/
def handleAll : List Inbound → Sys κ → Sys κ
  | [], s => s
  | p :: ps, s => handleAll ps (p.handling s).2

/-- The cycles do what is to be done. -/
theorem cycles_handle (ps : List Inbound) {s : Sys κ} (hbuf : 4 ≤ s.client.bufSize)
    (htx : TxReady s) (hreads : Processes ps s) : cycles ps.length s = handleAll ps s := by
  induction ps generalizing s with
  | nil => rfl
  | cons p ps ih =>
    obtain ⟨hread, hrest⟩ := hreads
    have hcycle := cycle_handles hread hbuf htx
    obtain ⟨hsize, htx', -⟩ := handling_step p htx
    rw [hcycle] at hrest
    rw [List.length_cons, cycles, handleAll, hcycle]
    exact ih (by rw [hsize]; exact hbuf) htx' hrest

/-- The answers are sent in the order of the packets, and nothing else is. -/
theorem packetsSent_handleAll (ps : List Inbound) {s : Sys κ} (htx : TxReady s) :
    packetsSent (handleAll ps s).log =
      ((ps.filterMap Inbound.answer).map ackPacket).reverse ++ packetsSent s.log := by
  induction ps generalizing s with
  | nil => rfl
  | cons p ps ih =>
    obtain ⟨-, htx', hsent⟩ := handling_step p htx
    rw [handleAll, ih htx', hsent]
    cases hanswer : p.answer with
    | none =>
      rw [List.filterMap_cons_none hanswer]
      rfl
    | some a =>
      rw [List.filterMap_cons_some hanswer, List.map_cons, List.reverse_cons, List.append_assoc]
      rfl

/-- **Handshakes.** Cycles that read the packets of a broker deliver and answer them one after
another; what is sent is exactly the answers, and each is read back as the type and the
packet id it is to have, with the flags of that type. -/
theorem handshakes_performed (ps : List Inbound) {s : Sys κ} (hbuf : 4 ≤ s.client.bufSize)
    (htx : ∀ k, (s.net.env k).txOk = true) (hreads : Processes ps s) :
    cycles ps.length s = handleAll ps s ∧
      packetsSent (cycles ps.length s).log =
        ((ps.filterMap Inbound.answer).map ackPacket).reverse ++ packetsSent s.log ∧
      ∀ a ∈ ps.filterMap Inbound.answer, ∀ stale tail,
        mqttDeserializeAck stale (ackPacket a ++ tail) = (1, a.1, a.2.toNat) ∧
          (readChar (ackPacket a) 0).toNat % 16 = if a.1 = PUBREL then 2 else 0 := by
  have hcycles := cycles_handle ps hbuf htx hreads
  refine ⟨hcycles, ?_, ?_⟩
  · rw [hcycles]
    exact packetsSent_handleAll ps htx
  · intro a ha stale tail
    obtain ⟨p, -, hanswer⟩ := List.mem_filterMap.mp ha
    refine ⟨deserialize_answer hanswer stale tail, ?_⟩
    obtain ⟨type, htype⟩ := answer_ack hanswer
    show (ackHeader a.1).toNat % 16 = _
    rw [ackHeader, toNat_headerByte, htype]
    cases type <;> rfl

end Cycle

/-! A broker that sends a `PUBLISH` with QoS 1, a `PUBREC` and a `PINGRESP` at once. -/

theorem topic_t_lt : ([116] : List UInt8).length < 65536 := by decide

def threePackets : List Inbound :=
  [.publish ⟨false, 1, false, 10, [116], [104, 105], by decide, topic_t_lt, by decide⟩,
    .ack .pubrec 7, .pingresp]

def threeBroker (k : Nat) : EnvStep :=
  { EnvStep.quiet with
    arrive :=
      match k with
      | 0 =>
        [⟨[50, 7, 0, 1, 116, 0, 10, 104, 105], by decide, by decide⟩,
          ⟨[80, 2, 0, 7], by decide, by decide⟩, lonePingresp]
      | _ => [] }

theorem handshakes_three :
    cycles 3 (quietInit threeBroker) = handleAll threePackets (quietInit threeBroker) ∧
      packetsSent (cycles 3 (quietInit threeBroker)).log =
        ((threePackets.filterMap Inbound.answer).map ackPacket).reverse ++ [] ∧
      ∀ a ∈ threePackets.filterMap Inbound.answer, ∀ stale tail,
        mqttDeserializeAck stale (ackPacket a ++ tail) = (1, a.1, a.2.toNat) ∧
          (readChar (ackPacket a) 0).toNat % 16 = if a.1 = PUBREL then 2 else 0 :=
  handshakes_performed threePackets (s := quietInit threeBroker) (by decide) (fun _ => rfl)
    ⟨⟨by decide +kernel, by decide +kernel⟩, ⟨by decide +kernel, by decide +kernel⟩,
      ⟨by decide +kernel, by decide +kernel⟩, trivial⟩

end IBoxClient
