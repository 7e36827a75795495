import IBoxClient.Lib.Machine
import IBoxClient.Lib.Serial
import IBoxClient.MqttAcks

/- The packet ids of the MQTT client.

   `MQTTSubscribe`, `MQTTUnsubscribe` and `MQTTPublish` take their ids from one counter, which
   skips 0 when it wraps. Whatever is called, the counter never exceeds 65535, so an id that
   is written into a packet is not truncated; and of the ids that are taken one after another
   no two out of 65535 are the same, whether the packets could be sent or not: `packet_ids`. -/
namespace IBoxClient

variable {κ : Type}

/-- The packets given to `net_tx_write`, accepted or not, the last one first. -/
def packetsGiven (log : List (Entry κ)) : List (List UInt8) :=
  log.filterMap fun
    | .sent packet _ _ _ => some packet
    | _ => none

/-- A request whose packet carries an id from the counter. -/
def ClientCall.numbered : ClientCall κ → Bool
  | .subscribe .. | .unsubscribe .. => true
  | .publish _ _ message => message.qos = 1 ∨ message.qos = 2
  | .keepalive | .cycle | .connect _ | .disconnect => false

/-- The id that a call takes: there must be a session. -/
def ClientCall.takes (call : ClientCall κ) (s : Sys κ) : Option Nat :=
  if s.client.isconnected ∧ call.numbered then some s.client.nextId else none

/-- Where the id stands in the packet of a request: behind the header and the remaining length,
and in a publication behind the topic name. -/
def ClientCall.idOffset (strs : Nat → List UInt8) : ClientCall κ → Nat
  | .subscribe _ topicFilter _ _ =>
    1 + (mqttPacketEncode (2 + (2 + (strs topicFilter).length + 1))).length
  | .unsubscribe _ topicFilter =>
    1 + (mqttPacketEncode (2 + (2 + (strs topicFilter).length))).length
  | .publish _ topicName message =>
    1 + (mqttPacketEncode (mqttSerializePublishLength message.qos (.ofCString topicName)
      message.payload.length)).length + (2 + topicName.length)
  | .keepalive | .cycle | .connect _ | .disconnect => 0

/-- A call, and the id it takes. -/
def idStep [Callback κ] (s : Sys κ) (call : ClientCall κ) : Sys κ × List Nat :=
  ((call.run s).2, (call.takes s).toList)

/-- What is promised of a call: the counter moves to the id that is taken, and a packet with an
id carries that one. -/
structure IdsLegal [Callback κ] (s : Sys κ) (call : ClientCall κ) : Prop where
  bound : s.client.nextPacketid ≤ 65535
  counter : (call.run s).2.client.nextPacketid = (call.takes s).getD s.client.nextPacketid
  carried : call.numbered = true → ∃ given,
    packetsGiven (call.run s).2.log = given ++ packetsGiven s.log ∧
      ∀ packet ∈ given, ∃ id, call.takes s = some id ∧ 1 ≤ id ∧ id ≤ 65535 ∧
        readInt packet (call.idOffset s.strs) = id

/-! ## What leaves the ids alone -/

/-- No id is taken, and nothing is given to `net_tx_write` where this counts. -/
structure SameIds (silent : Prop) (s s' : Sys κ) : Prop where
  id : s'.client.nextPacketid = s.client.nextPacketid
  given : silent → packetsGiven s'.log = packetsGiven s.log

section Quiet
variable {silent : Prop} {s₀ : Sys κ}

theorem SameIds.refl (s : Sys κ) : SameIds silent s s := ⟨rfl, fun _ => rfl⟩

theorem SameIds.trans {s s' s'' : Sys κ} (h : SameIds silent s s') (h' : SameIds silent s' s'') :
    SameIds silent s s'' :=
  ⟨h'.id.trans h.id, fun hs => (h'.given hs).trans (h.given hs)⟩

theorem quiet_getSysTimeMs : Prog.Keeps (SameIds silent s₀) (getSysTimeMs : Prog (Sys κ) UInt32) :=
  .act fun _ hs => hs.trans ⟨rfl, fun _ => rfl⟩

theorem quiet_timeoutInit (count : UInt32) :
    Prog.Keeps (SameIds silent s₀) (timeoutInit count : Prog (Sys κ) UInt32) :=
  .bind quiet_getSysTimeMs fun _ => .pure _

theorem quiet_sendPacket (packet : List UInt8) :
    Prog.Keeps (SameIds False s₀) (sendPacket packet : Prog (Sys κ) Int) :=
  .act fun _ hs => hs.trans ⟨rfl, False.elim⟩

theorem quiet_readPacket : Prog.Keeps (SameIds silent s₀) (readPacket : Prog (Sys κ) Int) := by
  intro s hs
  obtain ⟨readbuf, net, log, hstate⟩ := readPacket_state s
  obtain ⟨rc, -, hlog⟩ := run_readPacket s
  refine hs.trans ⟨by rw [hstate], fun _ => ?_⟩
  rcases hlog with ⟨hlog, -⟩ | ⟨cells, hlog⟩
  · rw [hlog]
  · rw [hlog]
    rfl

theorem quiet_closeSession :
    Prog.Keeps (SameIds silent s₀) (mqttCloseSession : Prog (Sys κ) Unit) := by
  intro s hs
  rw [closeSession_state]
  exact hs.trans ⟨rfl, fun _ => rfl⟩

theorem quiet_setMessageHandler (topicFilter : Nat) (messageHandler : Option κ) :
    Prog.Keeps (SameIds silent s₀) (mqttSetMessageHandler topicFilter messageHandler) := by
  intro s hs
  obtain ⟨slots, hslots, -⟩ := setMessageHandler_state topicFilter messageHandler s
  rw [hslots]
  exact hs.trans ⟨rfl, fun _ => rfl⟩

theorem quiet_waitfor (packetType : Nat) (timeout : UInt32) (polls : Nat) :
    Prog.Keeps (SameIds silent s₀) (waitfor packetType timeout polls : Prog (Sys κ) Int) := by
  induction polls with
  | zero => exact .pause
  | succ polls ih =>
    refine .bind quiet_readPacket fun rc => .ite (fun _ => .pure _) fun _ => ?_
    exact .bind quiet_getSysTimeMs fun now => .ite (fun _ => ih) fun _ => .pure _

theorem quiet_requestExit (rc : Int) :
    Prog.Keeps (SameIds silent s₀) (requestExit rc : Prog (Sys κ) Int) :=
  .ite (fun _ => .bind quiet_closeSession fun _ => .pure _) fun _ => .pure _

theorem quiet_publishWait (polls ack : Nat) (timeout : UInt32) (rc : Int) :
    Prog.Keeps (SameIds silent s₀) (publishWait polls ack timeout rc : Prog (Sys κ) Int) := by
  refine .bind (quiet_waitfor _ _ _) fun t => .ite (fun _ => ?_) fun _ => quiet_requestExit _
  exact .bind .look fun s => quiet_requestExit _

theorem quiet_keepalive : Prog.Keeps (SameIds False s₀) (keepalive : Prog (Sys κ) Int) := by
  refine .bind .look fun s => .ite (fun _ => .pure _) fun _ => .ite (fun _ => .pure _) fun _ => ?_
  cases mqttSerializePingreq s.client.bufSize with
  | error _ => exact .pure _
  | ok packet =>
    refine .bind (quiet_sendPacket packet) fun rc => .ite (fun _ => ?_) fun _ => .pure _
    refine .bind quiet_getSysTimeMs fun now => .bind (.change fun s hs => ?_) fun _ => .pure _
    exact hs.trans ⟨rfl, fun _ => rfl⟩

theorem quiet_connectExit (rc : Int) :
    Prog.Keeps (SameIds silent s₀) (connectExit rc : Prog (Sys κ) Int) := by
  refine .ite (fun _ => .bind (.change fun s hs => ?_) fun _ => .pure _) fun _ => .pure _
  exact hs.trans ⟨rfl, fun _ => rfl⟩

theorem quiet_connect (polls : Nat) :
    Prog.Keeps (SameIds False s₀) (mqttConnect polls : Prog (Sys κ) Int) := by
  refine .bind .look fun s => .bind .look fun s' => .ite (fun _ => quiet_connectExit _) fun _ => ?_
  refine .bind (.change fun s hs => hs.trans ⟨rfl, fun _ => rfl⟩) fun _ => ?_
  generalize mqttSerializeConnect s'.client.bufSize _ = packet
  cases packet with
  | error _ => exact quiet_connectExit _
  | ok packet =>
    refine .bind (quiet_sendPacket packet) fun rc => .ite (fun _ => quiet_connectExit _) fun _ => ?_
    refine .bind (quiet_timeoutInit _) fun timeout => .bind (quiet_waitfor _ _ _) fun t => ?_
    refine .ite (fun _ => .bind .look fun s => quiet_connectExit _) fun _ => quiet_connectExit _

theorem quiet_disconnect : Prog.Keeps (SameIds False s₀) (mqttDisconnect : Prog (Sys κ) Int) := by
  refine .bind .look fun s => ?_
  cases mqttSerializeDisconnect s.client.bufSize with
  | error _ => exact .bind quiet_closeSession fun _ => .pure _
  | ok packet =>
    exact .bind (quiet_sendPacket packet) fun rc => .bind quiet_closeSession fun _ => .pure _

theorem quiet_sendAck (packettype packetid : Nat) :
    Prog.Keeps (SameIds False s₀) (sendAck packettype packetid : Prog (Sys κ) Int) := by
  refine .bind .look fun s => ?_
  cases mqttSerializeAck s.client.bufSize packettype 0 packetid with
  | error _ => exact .pure _
  | ok packet => exact quiet_sendPacket packet

variable [Callback κ]

theorem sameIds_deliverSlot (message : PublishData) (slots : List (MessageHandlers κ))
    (r : Int × Sys κ) : SameIds silent r.2 (slots.foldl (deliverSlot message) r).2 := by
  induction slots generalizing r with
  | nil => exact .refl _
  | cons slot slots ih =>
    refine SameIds.trans ?_ (ih _)
    unfold deliverSlot
    split
    · exact .refl _
    · split
      · split
        · exact ⟨rfl, fun _ => rfl⟩
        · exact .refl _
      · exact .refl _

theorem quiet_deliverMessage (message : PublishData) :
    Prog.Keeps (SameIds silent s₀) (deliverMessage message : Prog (Sys κ) Int) := by
  refine .act fun s hs => ?_
  have hslots : SameIds silent s
      (s.client.messageHandlers.foldl (deliverSlot message) (mqttFailure, s)).2 :=
    sameIds_deliverSlot message s.client.messageHandlers (mqttFailure, s)
  dsimp only
  split
  · split
    · exact (hs.trans hslots).trans ⟨rfl, fun _ => rfl⟩
    · exact hs.trans hslots
  · exact hs.trans hslots

theorem quiet_cycle : Prog.Keeps (SameIds False s₀) (mqttCycle : Prog (Sys κ) Int) := by
  have hpublish : Prog.Keeps (SameIds False s₀) (cyclePublish : Prog (Sys κ) Int) := by
    refine .bind .look fun s => .ite (fun _ => .pure _) fun _ => ?_
    refine .bind (quiet_deliverMessage _) fun _ => .ite (fun _ => .pure _) fun _ => ?_
    exact .ite (fun _ => quiet_sendAck _ _) fun _ => .ite (fun _ => quiet_sendAck _ _)
      fun _ => .pure _
  have hack : ∀ packetType, Prog.Keeps (SameIds False s₀) (cycleAck packetType : Prog (Sys κ) Int) :=
    fun _ => .bind .look fun s => .ite (fun _ => .pure _) fun _ => quiet_sendAck _ _
  have hswitch : ∀ packetType,
      Prog.Keeps (SameIds False s₀) (cycleSwitch packetType : Prog (Sys κ) Int) := by
    intro packetType
    refine .ite (fun _ => .pure _) fun _ => .ite (fun _ => .pure _) fun _ => ?_
    refine .ite (fun _ => hpublish) fun _ => .ite (fun _ => hack _) fun _ => ?_
    refine .ite (fun _ => .pure _) fun _ => .ite (fun _ => ?_) fun _ => .pure _
    exact .bind (.change fun s hs => hs.trans ⟨rfl, fun _ => rfl⟩) fun _ => .pure _
  refine .bind quiet_readPacket fun packetType => .bind (hswitch _) fun rc => ?_
  refine .ite (fun _ => .pure _) fun _ => .bind .look fun s => .ite (fun _ => ?_) fun _ => .pure _
  exact .bind quiet_closeSession fun _ => .pure _

end Quiet

/-! ## The requests -/

/-- What a request leaves behind: the counter, and its packet if it is given to
`net_tx_write`. -/
structure Gives (packet : Except Int (List UInt8)) (s s' : Sys κ) : Prop where
  id : s'.client.nextPacketid = s.client.nextPacketid
  given : packetsGiven s'.log = packetsGiven s.log ∨
    ∃ p, packet = .ok p ∧ packetsGiven s'.log = p :: packetsGiven s.log

/-- A request from its packet on. -/
theorem gives_request (packet : Except Int (List UInt8)) {after : Int → Prog (Sys κ) Int}
    (hafter : ∀ s₀ rc, Prog.Keeps (SameIds True s₀) (after rc)) (s : Sys κ) :
    Gives packet s ((match packet with
      | .error _ => requestExit mqttFailure
      | .ok packet => sendPacket packet >>= after) s).2 := by
  cases packet with
  | error _ =>
    have hexit : SameIds True s _ := quiet_requestExit mqttFailure s (.refl s)
    exact ⟨hexit.id, .inl (hexit.given trivial)⟩
  | ok p =>
    dsimp only
    generalize hr : sendPacket p s = r
    obtain ⟨rc, s'⟩ := r
    have hsent : s'.client.nextPacketid = s.client.nextPacketid ∧
        packetsGiven s'.log = p :: packetsGiven s.log := by
      rw [sendPacket, Prog.run_act] at hr
      obtain ⟨-, rfl⟩ := Prod.mk.inj hr
      exact ⟨rfl, rfl⟩
    cases rc with
    | none =>
      rw [sendPacket, Prog.run_act] at hr
      cases (Prod.mk.inj hr).1
    | some rc =>
      rw [Prog.run_bind_some hr]
      have hrest := hafter s' rc s' (.refl s')
      exact ⟨hrest.id.trans hsent.1, .inr ⟨p, rfl, (hrest.given trivial).trans hsent.2⟩⟩

/-- An id behind a front part. -/
theorem readInt_behind {id : Nat} (hid : id ≤ 65535) (front rest : List UInt8) :
    readInt (front ++ (writeInt id ++ rest)) front.length = id := by
  rw [readInt_drop, List.drop_left]
  exact readInt_writeInt (Nat.lt_succ_of_le hid) rest

section Call
variable {s : Sys κ} {polls topicFilter qos id buflen : Nat} {messageHandler : κ}
  {topicName filter packet : List UInt8} {message : MqttMessage}

theorem readInt_subscribe (hid : id ≤ 65535)
    (h : mqttSerializeSubscribe buflen 0 id (.ofCString filter) qos = .ok packet) :
    readInt packet (1 + (mqttPacketEncode (2 + (2 + filter.length + 1))).length) = id := by
  unfold mqttSerializeSubscribe at h
  change (if mqttPacketLen (2 + (2 + filter.length + 1)) > buflen then _ else _) = _ at h
  split at h
  · cases h
  · obtain rfl := Except.ok.inj h
    change readInt (headerByte SUBSCRIBE 0 1 0 :: mqttPacketEncode (2 + (2 + filter.length + 1)) ++
      _ ++ _ ++ _) _ = _
    generalize mqttPacketEncode (2 + (2 + filter.length + 1)) = digits
    have hread := readInt_behind hid (headerByte SUBSCRIBE 0 1 0 :: digits)
      (writeMqttString (.ofCString filter) ++ [UInt8.ofNat qos])
    rw [List.length_cons, Nat.add_comm digits.length] at hread
    simpa only [List.append_assoc, List.cons_append] using hread

theorem readInt_unsubscribe (hid : id ≤ 65535)
    (h : mqttSerializeUnsubscribe buflen 0 id (.ofCString filter) = .ok packet) :
    readInt packet (1 + (mqttPacketEncode (2 + (2 + filter.length))).length) = id := by
  unfold mqttSerializeUnsubscribe at h
  change (if mqttPacketLen (2 + (2 + filter.length)) > buflen then _ else _) = _ at h
  split at h
  · cases h
  · obtain rfl := Except.ok.inj h
    change readInt (headerByte UNSUBSCRIBE 0 1 0 :: mqttPacketEncode (2 + (2 + filter.length)) ++
      _ ++ _) _ = _
    generalize mqttPacketEncode (2 + (2 + filter.length)) = digits
    have hread := readInt_behind hid (headerByte UNSUBSCRIBE 0 1 0 :: digits)
      (writeMqttString (.ofCString filter))
    rw [List.length_cons, Nat.add_comm digits.length] at hread
    simpa only [List.append_assoc, List.cons_append] using hread

theorem readInt_publish {retained : Nat} {payload : List UInt8} (hid : id ≤ 65535) (hqos : 0 < qos)
    (h : mqttSerializePublish buflen 0 qos retained id (.ofCString topicName) payload = .ok packet) :
    readInt packet (1 + (mqttPacketEncode (mqttSerializePublishLength qos (.ofCString topicName)
      payload.length)).length + (2 + topicName.length)) = id := by
  unfold mqttSerializePublish at h
  dsimp only at h
  split at h
  · cases h
  · obtain rfl := Except.ok.inj h
    generalize mqttPacketEncode
      (mqttSerializePublishLength qos (.ofCString topicName) payload.length) = digits
    have hname : (writeMqttString (.ofCString topicName)).length = 2 + topicName.length := by
      simp [writeMqttString, MqttString.ofCString, writeCString, writeInt]
      omega
    have hread := readInt_behind hid
      (headerByte PUBLISH 0 qos retained :: (digits ++ writeMqttString (.ofCString topicName))) payload
    rw [List.length_cons, List.length_append, hname] at hread
    have hplace : digits.length + (2 + topicName.length) + 1 =
        1 + digits.length + (2 + topicName.length) := by omega
    rw [hplace] at hread
    simpa only [List.append_assoc, List.cons_append] using hread

end Call

/-! ## The calls -/

theorem nextId_eq (c : MqttClient κ) : c.nextId = Serial.next 65535 c.nextPacketid := rfl

section Calls
variable [Callback κ] {s : Sys κ} {call : ClientCall κ}

/-- A call that takes no id. -/
theorem idsLegal_quiet (hcall : call.numbered = false)
    (hquiet : Prog.Keeps (SameIds False s) call.run) (hs : s.client.nextPacketid ≤ 65535) :
    IdsLegal s call where
  bound := hs
  counter := by
    rw [(hquiet s (.refl s)).id]
    simp [ClientCall.takes, hcall]
  carried := by
    intro hnumbered
    rw [hcall] at hnumbered
    cases hnumbered

/-- A call that takes an id for its packet, if there is a session. -/
theorem idsLegal_request (packet : Except Int (List UInt8)) (hcall : call.numbered = true)
    (hclosed : ¬ s.client.isconnected → call.run s = requestExit mqttFailure s)
    (hopen : s.client.isconnected → ∃ after : Int → Prog (Sys κ) Int,
      call.run s = (match packet with
        | .error _ => requestExit mqttFailure
        | .ok packet => sendPacket packet >>= after) (getNextPacketId s).2 ∧
      ∀ s₀ rc, Prog.Keeps (SameIds True s₀) (after rc))
    (hread : ∀ p, packet = .ok p → readInt p (call.idOffset s.strs) = s.client.nextId)
    (hs : s.client.nextPacketid ≤ 65535) : IdsLegal s call := by
  have hid : 1 ≤ s.client.nextId ∧ s.client.nextId ≤ 65535 := by
    rw [nextId_eq]
    exact Serial.next_bounds (by decide) hs
  by_cases hconnected : s.client.isconnected
  · have htakes : call.takes s = some s.client.nextId := if_pos ⟨hconnected, hcall⟩
    obtain ⟨after, hrun, hafter⟩ := hopen hconnected
    have hgives := gives_request packet hafter (getNextPacketId s).2
    rw [← hrun] at hgives
    refine ⟨hs, ?_, fun _ => ?_⟩
    · rw [hgives.id, htakes]
      rfl
    · rcases hgives.given with hnone | ⟨p, hp, hone⟩
      · exact ⟨[], hnone, fun packet h => by cases h⟩
      · refine ⟨[p], hone, fun packet h => ?_⟩
        obtain rfl := List.mem_singleton.mp h
        exact ⟨_, htakes, hid.1, hid.2, hread _ hp⟩
  · have htakes : call.takes s = none := if_neg fun h => hconnected h.1
    have hexit : SameIds True s _ := quiet_requestExit mqttFailure s (.refl s)
    rw [← hclosed hconnected] at hexit
    refine ⟨hs, ?_, fun _ => ⟨[], hexit.given trivial, fun packet h => by cases h⟩⟩
    rw [hexit.id, htakes]
    rfl

theorem idsLegal_subscribe (polls topicFilter qos : Nat) (messageHandler : κ)
    (hs : s.client.nextPacketid ≤ 65535) :
    IdsLegal s (.subscribe polls topicFilter qos messageHandler) := by
  refine idsLegal_request (mqttSerializeSubscribe s.client.bufSize 0 s.client.nextId
    (.ofCString (s.strs topicFilter)) qos) rfl (fun hclosed => ?_) (fun hopen => ?_)
    (fun p hp => readInt_subscribe (Serial.next_bounds (by decide) hs).2 hp) hs
  · change mqttSubscribe _ _ _ _ s = _
    rw [mqttSubscribe, Prog.run_look_bind, if_pos hclosed]
  · change ∃ after, mqttSubscribe _ _ _ _ s = _ ∧ _
    rw [mqttSubscribe, Prog.run_look_bind, if_neg (not_not_intro hopen)]
    refine ⟨_, rfl, fun s₀ rc => ?_⟩
    refine .ite (fun _ => quiet_requestExit _) fun _ => .bind (quiet_timeoutInit _) fun timeout => ?_
    refine .bind (quiet_waitfor _ _ _) fun t => .ite (fun _ => ?_) fun _ => quiet_requestExit _
    refine .bind .look fun s => .ite (fun _ => ?_) fun _ => quiet_requestExit _
    exact .bind (quiet_setMessageHandler _ _) fun rc => quiet_requestExit _

theorem idsLegal_unsubscribe (polls topicFilter : Nat) (hs : s.client.nextPacketid ≤ 65535) :
    IdsLegal s (.unsubscribe polls topicFilter) := by
  refine idsLegal_request (mqttSerializeUnsubscribe s.client.bufSize 0 s.client.nextId
    (.ofCString (s.strs topicFilter))) rfl (fun hclosed => ?_) (fun hopen => ?_)
    (fun p hp => readInt_unsubscribe (Serial.next_bounds (by decide) hs).2 hp) hs
  · change mqttUnsubscribe _ _ s = _
    rw [mqttUnsubscribe, Prog.run_look_bind, if_pos hclosed]
  · change ∃ after, mqttUnsubscribe _ _ s = _ ∧ _
    rw [mqttUnsubscribe, Prog.run_look_bind, if_neg (not_not_intro hopen)]
    refine ⟨_, rfl, fun s₀ rc => ?_⟩
    refine .ite (fun _ => quiet_requestExit _) fun _ => .bind (quiet_timeoutInit _) fun timeout => ?_
    refine .bind (quiet_waitfor _ _ _) fun t => .ite (fun _ => ?_) fun _ => quiet_requestExit _
    refine .bind .look fun s => .ite (fun _ => ?_) fun _ => quiet_requestExit _
    exact .bind (quiet_setMessageHandler _ _) fun _ => quiet_requestExit _

omit [Callback κ] in
theorem publishId_eq_of_numbered {polls : Nat} {topicName : List UInt8} {message : MqttMessage}
    (h : (ClientCall.publish polls topicName message : ClientCall κ).numbered = true) :
    (publishId message : Prog (Sys κ) Nat) = getNextPacketId ∧ 0 < message.qos := by
  have hqos : message.qos = 1 ∨ message.qos = 2 := of_decide_eq_true h
  exact ⟨if_pos hqos, by omega⟩

theorem idsLegal_publish (polls : Nat) (topicName : List UInt8) (message : MqttMessage)
    (hs : s.client.nextPacketid ≤ 65535) : IdsLegal s (.publish polls topicName message) := by
  have hafter : ∀ silent s₀ timeout rc, Prog.Keeps (SameIds silent s₀)
      (if message.qos = 1 then publishWait polls PUBACK timeout rc
      else if message.qos = 2 then publishWait polls PUBCOMP timeout rc
      else requestExit rc : Prog (Sys κ) Int) := fun silent s₀ timeout rc =>
    .ite (fun _ => quiet_publishWait _ _ _ _) fun _ =>
      .ite (fun _ => quiet_publishWait _ _ _ _) fun _ => quiet_requestExit _
  cases hcall : (ClientCall.publish polls topicName message : ClientCall κ).numbered with
  | false =>
    have hqos : ¬ (message.qos = 1 ∨ message.qos = 2) := of_decide_eq_false hcall
    refine idsLegal_quiet hcall (.bind .look fun s => ?_) hs
    refine .ite (fun _ => quiet_requestExit _) fun _ => ?_
    rw [publishId, if_neg hqos]
    refine .bind (.pure _) fun id => ?_
    cases mqttSerializePublish s.client.bufSize 0 message.qos message.retained id
      (.ofCString topicName) message.payload with
    | error _ => exact quiet_requestExit _
    | ok packet =>
      refine .bind (quiet_sendPacket packet) fun rc => .ite (fun _ => quiet_requestExit _) fun _ => ?_
      exact .bind (quiet_timeoutInit _) fun timeout => hafter _ _ timeout rc
  | true =>
    obtain ⟨hpublishId, hqos⟩ := publishId_eq_of_numbered hcall
    refine idsLegal_request (mqttSerializePublish s.client.bufSize 0 message.qos message.retained
      s.client.nextId (.ofCString topicName) message.payload) hcall (fun hclosed => ?_)
      (fun hopen => ?_)
      (fun p hp => readInt_publish (Serial.next_bounds (by decide) hs).2 hqos hp) hs
    · change mqttPublish _ _ _ s = _
      rw [mqttPublish, Prog.run_look_bind, if_pos hclosed]
    · change ∃ after, mqttPublish _ _ _ s = _ ∧ _
      rw [mqttPublish, Prog.run_look_bind, if_neg (not_not_intro hopen), hpublishId]
      refine ⟨_, rfl, fun s₀ rc => .ite (fun _ => quiet_requestExit _) fun _ => ?_⟩
      exact .bind (quiet_timeoutInit _) fun timeout => hafter _ _ timeout rc

theorem idsLegal_call (call : ClientCall κ) (hs : s.client.nextPacketid ≤ 65535) :
    IdsLegal s call := by
  cases call with
  | keepalive => exact idsLegal_quiet rfl quiet_keepalive hs
  | cycle => exact idsLegal_quiet rfl quiet_cycle hs
  | connect polls => exact idsLegal_quiet rfl (quiet_connect polls) hs
  | subscribe polls topicFilter qos messageHandler =>
    exact idsLegal_subscribe polls topicFilter qos messageHandler hs
  | unsubscribe polls topicFilter => exact idsLegal_unsubscribe polls topicFilter hs
  | publish polls topicName message => exact idsLegal_publish polls topicName message hs
  | disconnect => exact idsLegal_quiet rfl quiet_disconnect hs

/-! ## Runs -/

/-- The ids of a call continue the counter, and the counter stands where they end. -/
theorem follow_call (h : IdsLegal s call) :
    (call.run s).2.client.nextPacketid ≤ 65535 ∧
    ∀ ids, Serial.Follow 65535 (call.run s).2.client.nextPacketid ids →
      Serial.Follow 65535 s.client.nextPacketid ((call.takes s).toList ++ ids) := by
  rw [h.counter]
  by_cases htakes : s.client.isconnected ∧ call.numbered
  · rw [ClientCall.takes, if_pos htakes, nextId_eq]
    exact ⟨(Serial.next_bounds (by decide) h.bound).2, fun ids hids => ⟨rfl, hids⟩⟩
  · rw [ClientCall.takes, if_neg htakes]
    exact ⟨h.bound, fun ids hids => hids⟩

theorem follow_calls (calls : List (ClientCall κ)) {s : Sys κ}
    (hs : s.client.nextPacketid ≤ 65535) :
    Serial.Follow 65535 s.client.nextPacketid (Machine.out idStep s calls) := by
  induction calls generalizing s with
  | nil => trivial
  | cons call calls ih =>
    obtain ⟨hbound, hfollow⟩ := follow_call (idsLegal_call call hs)
    exact hfollow _ (ih hbound)

/-- **Packet ids.** In every run of calls on a client whose counter starts at 0, every SUBSCRIBE
and UNSUBSCRIBE and every PUBLISH with QoS 1 or 2 carries an id from 1 to 65535, of the ids that
are taken any 65535 in a row are different, and the counter never exceeds 65535. -/
theorem packet_ids {s : Sys κ} (h : s.client.nextPacketid = 0) (calls : List (ClientCall κ)) :
    Machine.Along idStep IdsLegal s calls ∧
    (Machine.last idStep s calls).client.nextPacketid ≤ 65535 ∧
    ∀ pre ids post, Machine.out idStep s calls = pre ++ ids ++ post → ids.length ≤ 65535 →
      ids.Nodup := by
  have hs : s.client.nextPacketid ≤ 65535 := by
    rw [h]
    exact Nat.zero_le _
  have hstep : ∀ (s : Sys κ) (call : ClientCall κ), s.client.nextPacketid ≤ 65535 →
      (idStep s call).1.client.nextPacketid ≤ 65535 :=
    fun s call hs => (follow_call (idsLegal_call call hs)).1
  refine ⟨?_, ?_, ?_⟩
  · exact Machine.along_of_invariant hstep (fun s call hs => idsLegal_call call hs) hs calls
  · exact Machine.run_invariant hstep hs calls
  · intro pre ids post hout hlen
    have hfollow := follow_calls calls hs
    rw [hout] at hfollow
    obtain ⟨n, hn, hids⟩ := hfollow.front.suffix (by decide) hs
    exact hids.nodup (by decide) hn hlen

end Calls

/-- Three calls: the client connects and publishes twice. -/
def reportsTwice : List (ClientCall Unit) :=
  [.connect 1, .publish 3 [116] report, .publish 3 [116] report]

theorem packet_ids_reports :
    Machine.Along idStep IdsLegal (quietInit pubackTwice) reportsTwice ∧
    Machine.out idStep (quietInit pubackTwice) reportsTwice = [1, 2] ∧ [1, 2].Nodup := by
  obtain ⟨hlegal, -, hnodup⟩ := packet_ids (s := quietInit pubackTwice) rfl reportsTwice
  have hout : Machine.out idStep (quietInit pubackTwice) reportsTwice = [1, 2] := by
    decide +kernel
  exact ⟨hlegal, hout, hnodup [] [1, 2] [] hout (by decide)⟩

end IBoxClient
