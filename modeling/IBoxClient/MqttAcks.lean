import IBoxClient.MqttTable
import IBoxClient.MqttWait

/- Requests and their acknowledgements.

   `MQTTPublish`, `MQTTSubscribe` and `MQTTUnsubscribe` take a new packet id, send it with
   the request and wait for a packet of the right type. The id of that packet is read into
   `mypacketid`, but never compared: the call succeeds whatever it is
   (`request_success_iff`). So an acknowledgement that is read belongs to the request exactly as
   long as no other one of its type comes in before it (`acks_match_iff`).

   A `SUBACK` with a second return code makes `MQTTSubscribe` store it behind its variable `data`,
   in memory that the model does not have. What the call comes to is then left open
   (`ClientCall.Outcome`). -/
namespace IBoxClient

variable {κ : Type}

/-- The packet id that is taken next. -/
def MqttClient.nextId (c : MqttClient κ) : Nat :=
  if c.nextPacketid = 65535 then 1 else c.nextPacketid + 1

/-- The packet id that the acknowledgement in the read buffer carries. -/
def ackId (readbuf : List UInt8) : Option Nat :=
  let d := mqttPacketDecodeBuf (readbuf.drop 1)
  if d.2 < 2 then none else some (readInt readbuf (1 + d.1))

/-- The states in which a request polls for its acknowledgement: once the packet is sent,
and until the acknowledgement has come or the time is up. -/
def requestPolls (packetType : Nat) (count : UInt32) (polls : Nat)
    (packet : Except Int (List UInt8)) (s : Sys κ) : List (Sys κ) :=
  match packet with
  | .error _ => []
  | .ok packet =>
    if (s.net.env 0).txOk then
      let s := s.sent packet true
      waitPolls packetType (s.interact.1.sysTimeMs + count) polls s.interact.2
    else []

/-- The type of packet that a call waits for. -/
def ClientCall.ackType : ClientCall κ → Option Nat
  | .subscribe .. => some SUBACK
  | .unsubscribe .. => some UNSUBACK
  | .publish _ _ message =>
    if message.qos = 1 then some PUBACK else if message.qos = 2 then some PUBCOMP else none
  | .keepalive | .cycle | .connect _ | .disconnect => none

/-- The states in which a call polls for its acknowledgement. -/
def ClientCall.ackPolls (call : ClientCall κ) (s : Sys κ) : List (Sys κ) :=
  if ¬ s.client.isconnected then []
  else
    let id := s.client.nextId
    let s' := (getNextPacketId s).2
    match call with
    | .subscribe polls topicFilter qos _ =>
      requestPolls SUBACK replyTimeout polls
        (mqttSerializeSubscribe s.client.bufSize 0 id (.ofCString (s.strs topicFilter)) qos) s'
    | .unsubscribe polls topicFilter =>
      requestPolls UNSUBACK s.client.commandTimeoutMs polls
        (mqttSerializeUnsubscribe s.client.bufSize 0 id (.ofCString (s.strs topicFilter))) s'
    | .publish polls topicName message =>
      let packet := mqttSerializePublish s.client.bufSize 0 message.qos message.retained id
        (.ofCString topicName) message.payload
      if message.qos = 1 then requestPolls PUBACK replyTimeout polls packet s'
      else if message.qos = 2 then requestPolls PUBCOMP replyTimeout polls packet s'
      else []
    | .keepalive | .cycle | .connect _ | .disconnect => []

/-- The `SUBACK` in the read buffer is granted: it parses, and does not refuse. -/
def SubackGrants (readbuf : List UInt8) : Prop :=
  (mqttDeserializeSuback readbuf).1 = 1 ∧ (mqttDeserializeSuback readbuf).2.1 ≠ 128

instance (readbuf : List UInt8) : Decidable (SubackGrants readbuf) :=
  inferInstanceAs (Decidable (_ ∧ _))

/-- A call from a state takes the acknowledgement that another state has in its read buffer: a
publication one that can be deserialised, a subscription any, but if it is granted only with a
slot for the filter, and the end of a subscription any. -/
def ClientCall.Accepts (call : ClientCall κ) (s s' : Sys κ) : Prop :=
  match call with
  | .publish .. => (mqttDeserializeAck (s'.net.env 0).stale s'.client.readbuf).1 = 1
  | .subscribe _ topicFilter _ _ =>
    SubackGrants s'.client.readbuf → HasRoom s.strs topicFilter s.client.messageHandlers
  | .unsubscribe .. | .keepalive | .cycle | .connect _ | .disconnect => True

/-- The call stores a return code of the acknowledgement behind its variable. -/
def ClientCall.StoresBehind (call : ClientCall κ) (readbuf : List UInt8) : Prop :=
  match call with
  | .subscribe .. => (mqttDeserializeSuback readbuf).2.2 ≠ []
  | .publish .. | .unsubscribe .. | .keepalive | .cycle | .connect _ | .disconnect => False

/-- A poll reads a packet of the type. -/
def PollReads (packetType : Nat) (s : Sys κ) : Prop := (readPacket s).1 = some (packetType : Int)

/-- What a call can come to whose statements have a result: to this, or to anything, if one of
them is a store behind its variable. -/
def ClientCall.Outcome (call : ClientCall κ) (s : Sys κ) (result r : Option Int × Sys κ) : Prop :=
  r = result ∨
    ∃ s' ∈ call.ackPolls s, PollReads SUBACK s' ∧
      call.StoresBehind (readPacket s').2.client.readbuf

/-! ## Waiting -/

/-- A poll that reads the awaited packet is the last one. -/
theorem waitfor_of_reads {packetType : Nat} {timeout : UInt32} {polls : Nat} {s s' : Sys κ}
    (hmem : s' ∈ waitPolls packetType timeout polls s) (hreads : PollReads packetType s') :
    waitfor packetType timeout polls s = (some (packetType : Int), (readPacket s').2) := by
  induction polls generalizing s with
  | zero => cases hmem
  | succ polls ih =>
    obtain ⟨rc, hrun, -⟩ := run_readPacket s
    rw [waitPolls, hrun] at hmem
    rw [waitfor, Prog.run_bind_some hrun]
    simp only at hmem
    by_cases hrc : rc = packetType
    · rw [if_pos hrc] at hmem
      rcases List.mem_cons.mp hmem with rfl | hmem
      · rw [if_pos hrc, hrc]
        rfl
      · cases hmem
    · rw [if_neg hrc] at hmem ⊢
      have hne : s' ≠ s := by
        rintro rfl
        rw [PollReads, hrun] at hreads
        exact hrc (Option.some.inj hreads)
      have hmem := List.mem_of_ne_of_mem hne hmem
      rw [getSysTimeMs, Prog.run_act_bind]
      split at hmem
      · next hleft =>
        rw [if_pos hleft]
        exact ih hmem
      · cases hmem

/-- A wait that comes to its packet has read it in a poll. -/
theorem reads_of_waitfor {packetType : Nat} {timeout : UInt32} {polls : Nat} {s s' : Sys κ}
    (h : waitfor packetType timeout polls s = (some (packetType : Int), s')) :
    ∃ s₁ ∈ waitPolls packetType timeout polls s, PollReads packetType s₁ := by
  induction polls generalizing s with
  | zero => cases h
  | succ polls ih =>
    obtain ⟨rc, hrun, -⟩ := run_readPacket s
    rw [waitfor, Prog.run_bind_some hrun] at h
    rw [waitPolls, hrun]
    by_cases hrc : rc = packetType
    · refine ⟨s, List.mem_cons_self, ?_⟩
      rw [PollReads, hrun, hrc]
    · rw [if_neg hrc, getSysTimeMs, Prog.run_act_bind] at h
      split at h
      · next hleft =>
        obtain ⟨s₁, hmem, hreads⟩ := ih h
        refine ⟨s₁, ?_, hreads⟩
        simp only [if_neg hrc]
        rw [if_pos hleft]
        exact List.mem_cons_of_mem _ hmem
      · exact absurd (Option.some.inj (congrArg Prod.fst h)) hrc

/-- What comes after a wait that succeeds on the awaited packet only. -/
theorem wait_success_iff {packetType : Nat} {timeout : UInt32} {polls : Nat} {s : Sys κ}
    {f : Int → Prog (Sys κ) Int} {Accepts : Sys κ → Prop}
    (hack : ∀ s, (f packetType s).1 = some mqttSuccess ↔ Accepts s)
    (hother : ∀ (t : Int) s, t ≠ packetType → (f t s).1 ≠ some mqttSuccess) :
    ((waitfor packetType timeout polls >>= f) s).1 = some mqttSuccess ↔
      ∃ s' ∈ waitPolls packetType timeout polls s,
        PollReads packetType s' ∧ Accepts (readPacket s').2 := by
  constructor
  · intro h
    rw [Prog.run_bind] at h
    cases hwait : waitfor packetType timeout polls s with
    | mk t s₁ =>
      rw [hwait] at h
      cases t with
      | none => cases h
      | some t =>
        by_cases ht : t = packetType
        · subst ht
          obtain ⟨s', hmem, hreads⟩ := reads_of_waitfor hwait
          rw [waitfor_of_reads hmem hreads] at hwait
          cases hwait
          exact ⟨s', hmem, hreads, (hack _).mp h⟩
        · exact absurd h (hother t s₁ ht)
  · intro h
    obtain ⟨s', hmem, hreads, haccepts⟩ := h
    rw [Prog.run_bind_some (waitfor_of_reads hmem hreads)]
    exact (hack _).mpr haccepts

theorem success_requestExit {rc : Int} {s : Sys κ} :
    (requestExit rc s).1 = some mqttSuccess ↔ rc = mqttSuccess := by
  unfold requestExit
  split
  · next hrc =>
    rw [Prog.run_bind_some (run_closeSession s)]
    exact ⟨fun h => Option.some.inj h, fun h => congrArg some h⟩
  · exact ⟨fun h => Option.some.inj h, fun h => congrArg some h⟩

/-- Without a session a request fails, and does not poll. -/
theorem connected_success_iff {s : Sys κ} {p : Prog (Sys κ) Int} {polls : List (Sys κ)}
    {P : Sys κ → Prop} (h : (p s).1 = some mqttSuccess ↔ ∃ s' ∈ polls, P s') :
    ((if ¬ s.client.isconnected then requestExit mqttFailure else p) s).1 = some mqttSuccess ↔
      ∃ s' ∈ (if ¬ s.client.isconnected then [] else polls), P s' := by
  by_cases hopen : ¬ s.client.isconnected
  · rw [if_pos hopen, if_pos hopen]
    refine ⟨fun h => absurd (success_requestExit.mp h) (by decide), ?_⟩
    intro h
    obtain ⟨s', hmem, -⟩ := h
    cases hmem
  · rw [if_neg hopen, if_neg hopen]
    exact h

/-- A request from its packet on. -/
theorem request_success_iff {packetType : Nat} {count : UInt32} {polls : Nat}
    {packet : Except Int (List UInt8)} {s : Sys κ} {f : Int → Int → Prog (Sys κ) Int}
    {A : Sys κ → Prop}
    (hack : ∀ s, (f mqttSuccess packetType s).1 = some mqttSuccess ↔ A s)
    (hother : ∀ (t : Int) s, t ≠ packetType → (f mqttSuccess t s).1 ≠ some mqttSuccess) :
    ((match packet with
      | .error _ => requestExit mqttFailure
      | .ok packet => do
        let rc ← sendPacket packet
        if rc ≠ mqttSuccess then requestExit rc
        else do
          let timeout ← timeoutInit count
          let t ← waitfor packetType timeout polls
          f rc t : Prog (Sys κ) Int) s).1 = some mqttSuccess ↔
      ∃ s' ∈ requestPolls packetType count polls packet s,
        PollReads packetType s' ∧ A (readPacket s').2 := by
  cases packet with
  | error _ =>
    refine ⟨fun h => absurd (success_requestExit.mp h) (by decide), ?_⟩
    intro h
    obtain ⟨s', hmem, -⟩ := h
    cases hmem
  | ok packet =>
    cases htx : (s.net.env 0).txOk with
    | false =>
      dsimp only
      rw [Prog.run_bind_some (run_sendPacket_refused packet htx), if_pos (by decide)]
      refine ⟨fun h => absurd (success_requestExit.mp h) (by decide), ?_⟩
      intro h
      obtain ⟨s', hmem, -⟩ := h
      simp [requestPolls, htx] at hmem
    | true =>
      dsimp only
      rw [Prog.run_bind_some (run_sendPacket_ok packet htx), if_neg (not_not_intro rfl)]
      simp only [requestPolls, htx, if_true]
      exact wait_success_iff hack hother

/-! ## The table while a subscription waits -/

/-- The table and the texts are those of another state. -/
def SameTable (s s' : Sys κ) : Prop :=
  s'.client.messageHandlers = s.client.messageHandlers ∧ s'.strs = s.strs

theorem sameTable_read (s : Sys κ) : SameTable s (readPacket s).2 := by
  obtain ⟨readbuf, net, log, hstate⟩ := readPacket_state s
  rw [hstate]
  exact ⟨rfl, rfl⟩

theorem SameTable.trans {s s' s'' : Sys κ} (h : SameTable s s') (h' : SameTable s' s'') :
    SameTable s s'' :=
  ⟨h'.1.trans h.1, h'.2.trans h.2⟩

theorem sameTable_waitPolls {packetType : Nat} {timeout : UInt32} {polls : Nat} {s : Sys κ} :
    ∀ s' ∈ waitPolls packetType timeout polls s, SameTable s s' := by
  induction polls generalizing s with
  | zero => exact fun s' h => by cases h
  | succ polls ih =>
    intro s' h
    obtain ⟨rc, hrun, -⟩ := run_readPacket s
    rw [waitPolls, hrun] at h
    rcases List.mem_cons.mp h with rfl | h
    · exact ⟨rfl, rfl⟩
    · simp only at h
      split at h
      · cases h
      · split at h
        · have hrest : SameTable (readPacket s).2.interact.2 s' := ih s' h
          exact (sameTable_read s).trans hrest
        · cases h

theorem sameTable_ackPolls {polls topicFilter qos : Nat} {messageHandler : κ} {s s' : Sys κ}
    (hmem : s' ∈ (ClientCall.subscribe polls topicFilter qos messageHandler).ackPolls s) :
    SameTable s (readPacket s').2 := by
  unfold ClientCall.ackPolls at hmem
  split at hmem
  · cases hmem
  · unfold requestPolls at hmem
    dsimp only at hmem
    split at hmem
    · cases hmem
    · split at hmem
      · exact (sameTable_waitPolls s' hmem).trans (sameTable_read s')
      · cases hmem

/-! ## The calls -/

/-- Setting a handler succeeds where there is a slot. -/
theorem set_success_iff (topicFilter : Nat) (messageHandler : κ) (s : Sys κ) :
    (mqttSetMessageHandler topicFilter (some messageHandler) s).1 = some mqttSuccess ↔
      HasRoom s.strs topicFilter s.client.messageHandlers := by
  rw [setMessageHandler_eq]
  cases hwith : handlersWith s.strs topicFilter messageHandler s.client.messageHandlers with
  | some slots => exact ⟨fun _ => (handlersWith_some hwith).1, fun _ => rfl⟩
  | none =>
    refine ⟨fun h => absurd (Option.some.inj h) (by decide), ?_⟩
    exact fun hroom => absurd hroom (handlersWith_none hwith)

theorem subscribe_success_iff (polls topicFilter qos : Nat) (messageHandler : κ) (s : Sys κ) :
    (mqttSubscribe polls topicFilter qos messageHandler s).1 = some mqttSuccess ↔
      ∃ s' ∈ (ClientCall.subscribe polls topicFilter qos messageHandler).ackPolls s,
        PollReads SUBACK s' ∧
          (ClientCall.subscribe polls topicFilter qos messageHandler).Accepts s
            (readPacket s').2 := by
  -- at first in terms of the table that the poll has left
  have hpolls : (mqttSubscribe polls topicFilter qos messageHandler s).1 = some mqttSuccess ↔
      ∃ s' ∈ (ClientCall.subscribe polls topicFilter qos messageHandler).ackPolls s,
        PollReads SUBACK s' ∧ (SubackGrants (readPacket s').2.client.readbuf →
          HasRoom (readPacket s').2.strs topicFilter
            (readPacket s').2.client.messageHandlers) := by
    unfold mqttSubscribe ClientCall.ackPolls
    rw [Prog.run_look_bind]
    apply connected_success_iff
    rw [getNextPacketId, Prog.run_act_bind]
    refine request_success_iff (f := fun rc t => if t = SUBACK then _ else _)
      (A := fun s => SubackGrants s.client.readbuf →
        HasRoom s.strs topicFilter s.client.messageHandlers) (fun s' => ?_) fun t s' ht => ?_
    · rw [if_pos rfl, Prog.run_look_bind]
      by_cases hgranted : (mqttDeserializeSuback s'.client.readbuf).1 = 1 ∧
          (mqttDeserializeSuback s'.client.readbuf).2.1 ≠ 128
      · obtain ⟨rc, hrc⟩ : ∃ rc, (mqttSetMessageHandler topicFilter (some messageHandler) s').1 =
            some rc := ⟨_, rfl⟩
        rw [if_pos hgranted, Prog.run_bind_some (Prod.ext hrc rfl), success_requestExit,
          ← set_success_iff topicFilter messageHandler, hrc, Option.some_inj]
        exact ⟨fun h _ => h, fun h => h hgranted⟩
      · rw [if_neg hgranted, success_requestExit]
        exact ⟨fun _ h => absurd h hgranted, fun _ => rfl⟩
    · rw [if_neg ht]
      exact fun h => absurd (success_requestExit.mp h) (by decide)
  rw [hpolls]
  apply exists_congr
  intro s'
  apply and_congr_right
  intro hmem
  obtain ⟨htable, hstrs⟩ := sameTable_ackPolls hmem
  rw [htable, hstrs]
  rfl

theorem unsubscribe_success_iff (polls topicFilter : Nat) (s : Sys κ) :
    (mqttUnsubscribe polls topicFilter s).1 = some mqttSuccess ↔
      ∃ s' ∈ (ClientCall.unsubscribe polls topicFilter).ackPolls s,
        PollReads UNSUBACK s' ∧
          (ClientCall.unsubscribe polls topicFilter).Accepts s (readPacket s').2 := by
  unfold mqttUnsubscribe ClientCall.ackPolls
  rw [Prog.run_look_bind]
  apply connected_success_iff
  rw [getNextPacketId, Prog.run_act_bind]
  refine request_success_iff (f := fun rc t => if t = UNSUBACK then _ else _) (fun s' => ?_)
    fun t s' ht => ?_
  · rw [if_pos rfl, Prog.run_look_bind]
    refine ⟨fun _ => trivial, fun _ => ?_⟩
    split
    · obtain ⟨rc, hrc⟩ : ∃ rc, (mqttSetMessageHandler topicFilter none s').1 = some rc := ⟨_, rfl⟩
      rw [Prog.run_bind_some (Prod.ext hrc rfl), success_requestExit]
    · rw [success_requestExit]
  · rw [if_neg ht]
    exact fun h => absurd (success_requestExit.mp h) (by decide)

/-- The wait of a publication. -/
theorem publishWait_eq (polls ack : Nat) (timeout : UInt32) (rc : Int) :
    (publishWait polls ack timeout rc : Prog (Sys κ) Int) = (do
      let t ← waitfor ack timeout polls
      if t = ack then do
        let s ← Prog.look
        requestExit (if (mqttDeserializeAck (s.net.env 0).stale s.client.readbuf).1 ≠ 1 then
          mqttFailure else rc)
      else requestExit mqttFailure) := rfl

/-- A publication with QoS 1 or 2 from its packet on. -/
theorem publishWait_success_iff {ack polls : Nat} {packet : Except Int (List UInt8)} {s : Sys κ} :
    ((match packet with
      | .error _ => requestExit mqttFailure
      | .ok packet => do
        let rc ← sendPacket packet
        if rc ≠ mqttSuccess then requestExit rc
        else do
          let timeout ← timeoutInit replyTimeout
          publishWait polls ack timeout rc : Prog (Sys κ) Int) s).1 = some mqttSuccess ↔
      ∃ s' ∈ requestPolls ack replyTimeout polls packet s, PollReads ack s' ∧
        (mqttDeserializeAck ((readPacket s').2.net.env 0).stale
          (readPacket s').2.client.readbuf).1 = 1 := by
  simp only [publishWait_eq]
  refine request_success_iff (f := fun rc t => if t = ack then _ else _)
    (A := fun s => (mqttDeserializeAck (s.net.env 0).stale s.client.readbuf).1 = 1)
    (fun s' => ?_) fun t s' ht => ?_
  · rw [if_pos rfl, Prog.run_look_bind, success_requestExit]
    split
    · next hbad => exact ⟨fun h => absurd h (by decide), fun h => absurd h hbad⟩
    · next hgood => exact ⟨fun _ => not_not.mp hgood, fun _ => rfl⟩
  · rw [if_neg ht]
    exact fun h => absurd (success_requestExit.mp h) (by decide)

/-- A publication with the acknowledgement that goes with its QoS. -/
theorem publish_success_iff {polls ack : Nat} {topicName : List UInt8} {message : MqttMessage}
    (hack : (ClientCall.publish (κ := κ) polls topicName message).ackType = some ack) (s : Sys κ) :
    (mqttPublish polls topicName message s).1 = some mqttSuccess ↔
      ∃ s' ∈ (ClientCall.publish polls topicName message).ackPolls s,
        PollReads ack s' ∧
          (ClientCall.publish polls topicName message).Accepts s (readPacket s').2 := by
  unfold mqttPublish ClientCall.ackPolls
  rw [Prog.run_look_bind]
  apply connected_success_iff
  by_cases hqos : message.qos = 1
  · have htype : ack = PUBACK := by
      simp only [ClientCall.ackType, if_pos hqos] at hack
      exact (Option.some.inj hack).symm
    subst htype
    simp only [publishId, if_pos (Or.inl hqos : message.qos = 1 ∨ message.qos = 2), if_pos hqos]
    rw [getNextPacketId, Prog.run_act_bind]
    exact publishWait_success_iff
  · by_cases hqos' : message.qos = 2
    · have htype : ack = PUBCOMP := by
        simp only [ClientCall.ackType, if_neg hqos, if_pos hqos'] at hack
        exact (Option.some.inj hack).symm
      subst htype
      simp only [publishId, if_pos (Or.inr hqos' : message.qos = 1 ∨ message.qos = 2),
        if_neg hqos, if_pos hqos']
      rw [getNextPacketId, Prog.run_act_bind]
      exact publishWait_success_iff
    · simp only [ClientCall.ackType, if_neg hqos, if_neg hqos'] at hack
      cases hack

theorem run_success_iff [Callback κ] {call : ClientCall κ} {ack : Nat}
    (hack : call.ackType = some ack) (s : Sys κ) :
    (call.run s).1 = some mqttSuccess ↔
      ∃ s' ∈ call.ackPolls s, PollReads ack s' ∧ call.Accepts s (readPacket s').2 := by
  cases call with
  | subscribe polls topicFilter qos messageHandler =>
    cases hack
    exact subscribe_success_iff polls topicFilter qos messageHandler s
  | unsubscribe polls topicFilter =>
    cases hack
    exact unsubscribe_success_iff polls topicFilter s
  | publish polls topicName message => exact publish_success_iff hack s
  | keepalive | cycle | connect | disconnect => cases hack

/-- Two polls of one wait that read the awaited packet leave the same. -/
theorem polls_agree {packetType : Nat} {timeout : UInt32} {polls : Nat} {s s₁ s₂ : Sys κ}
    (hmem₁ : s₁ ∈ waitPolls packetType timeout polls s)
    (hmem₂ : s₂ ∈ waitPolls packetType timeout polls s) (hreads₁ : PollReads packetType s₁)
    (hreads₂ : PollReads packetType s₂) : (readPacket s₁).2 = (readPacket s₂).2 := by
  have hwait := (waitfor_of_reads hmem₁ hreads₁).symm.trans (waitfor_of_reads hmem₂ hreads₂)
  exact (Prod.mk.inj hwait).2

theorem requestPolls_agree {packetType : Nat} {count : UInt32} {polls : Nat}
    {packet : Except Int (List UInt8)} {s s₁ s₂ : Sys κ}
    (hmem₁ : s₁ ∈ requestPolls packetType count polls packet s)
    (hmem₂ : s₂ ∈ requestPolls packetType count polls packet s) (hreads₁ : PollReads packetType s₁)
    (hreads₂ : PollReads packetType s₂) : (readPacket s₁).2 = (readPacket s₂).2 := by
  cases packet with
  | error _ => cases hmem₁
  | ok packet =>
    simp only [requestPolls] at hmem₁ hmem₂
    split at hmem₁
    · next htx =>
      rw [if_pos htx] at hmem₂
      exact polls_agree hmem₁ hmem₂ hreads₁ hreads₂
    · cases hmem₁

theorem ackPolls_agree {call : ClientCall κ} {ack : Nat} (hack : call.ackType = some ack)
    {s s₁ s₂ : Sys κ} (hmem₁ : s₁ ∈ call.ackPolls s) (hmem₂ : s₂ ∈ call.ackPolls s)
    (hreads₁ : PollReads ack s₁) (hreads₂ : PollReads ack s₂) :
    (readPacket s₁).2 = (readPacket s₂).2 := by
  unfold ClientCall.ackPolls at hmem₁ hmem₂
  by_cases hopen : ¬ s.client.isconnected
  · rw [if_pos hopen] at hmem₁
    cases hmem₁
  rw [if_neg hopen] at hmem₁ hmem₂
  cases call with
  | subscribe polls topicFilter qos messageHandler =>
    cases hack
    exact requestPolls_agree hmem₁ hmem₂ hreads₁ hreads₂
  | unsubscribe polls topicFilter =>
    cases hack
    exact requestPolls_agree hmem₁ hmem₂ hreads₁ hreads₂
  | publish polls topicName message =>
    simp only [ClientCall.ackType] at hack
    simp only at hmem₁ hmem₂
    split at hack
    · next hqos =>
      cases hack
      rw [if_pos hqos] at hmem₁ hmem₂
      exact requestPolls_agree hmem₁ hmem₂ hreads₁ hreads₂
    · next hqos =>
      split at hack
      · next hqos' =>
        cases hack
        rw [if_neg hqos, if_pos hqos'] at hmem₁ hmem₂
        exact requestPolls_agree hmem₁ hmem₂ hreads₁ hreads₂
      · cases hack
  | keepalive | cycle | connect | disconnect => cases hack

/-- Only a subscription stores behind its variable. -/
theorem ackType_of_storesBehind {call : ClientCall κ} {ack : Nat} {readbuf : List UInt8}
    (hack : call.ackType = some ack) (h : call.StoresBehind readbuf) : ack = SUBACK := by
  cases call with
  | subscribe => exact (Option.some.inj hack).symm
  | publish | unsubscribe | keepalive | cycle | connect | disconnect => cases h

/-- An acknowledgement with the packet id of the request has been read since it was sent. -/
def AckRead (call : ClientCall κ) (ack : Nat) (s : Sys κ) : Prop :=
  ∃ s' ∈ call.ackPolls s, PollReads ack s' ∧
    ackId (readPacket s').2.client.readbuf = some s.client.nextId

/-- **Acknowledgements.** A request succeeds only on an acknowledgement with its packet id if
and only if every packet of the awaited type that it takes while it waits carries this id. -/
theorem acks_match_iff [Callback κ] (call : ClientCall κ) {ack : Nat}
    (hack : call.ackType = some ack) (s : Sys κ) :
    (∀ r, call.Outcome s (call.run s) r → r.1 = some mqttSuccess → AckRead call ack s) ↔
      ∀ s' ∈ call.ackPolls s, PollReads ack s' →
        call.Accepts s (readPacket s').2 ∨ call.StoresBehind (readPacket s').2.client.readbuf →
        ackId (readPacket s').2.client.readbuf = some s.client.nextId := by
  constructor
  · intro h s' hmem hreads htakes
    obtain ⟨s₁, hmem₁, hreads₁, hid⟩ : AckRead call ack s := by
      rcases htakes with haccepts | hbehind
      · exact h _ (.inl rfl) ((run_success_iff hack s).mpr ⟨s', hmem, hreads, haccepts⟩)
      · have hstores : call.Outcome s (call.run s) (some mqttSuccess, s) :=
          .inr ⟨s', hmem, ackType_of_storesBehind hack hbehind ▸ hreads, hbehind⟩
        exact h _ hstores rfl
    rwa [ackPolls_agree hack hmem hmem₁ hreads hreads₁]
  · intro h r hr hsuccess
    rcases hr with rfl | ⟨s', hmem, hreads, hbehind⟩
    · obtain ⟨s', hmem, hreads, haccepts⟩ := (run_success_iff hack s).mp hsuccess
      exact ⟨s', hmem, hreads, h s' hmem hreads (.inl haccepts)⟩
    · rw [← ackType_of_storesBehind hack hbehind] at hreads
      exact ⟨s', hmem, hreads, h s' hmem hreads (.inr hbehind)⟩

/-! A broker that accepts the connection, and acknowledges the first publication twice. -/

def report : MqttMessage := ⟨1, 0, 0, [104, 105]⟩

/-- The `CONNACK`, and the `PUBACK` of the first publication with its duplicate. -/
def pubackTwice (k : Nat) : EnvStep :=
  if k = 0 then { EnvStep.quiet with arrive := [connackChunk] }
  else if k = 8 then
    { EnvStep.quiet with
      arrive := [⟨[64, 2, 0, 1], by decide, by decide⟩, ⟨[64, 2, 0, 1], by decide, by decide⟩] }
  else EnvStep.quiet

/-- The client is connected. -/
def ackedSys : Sys Unit := (mqttConnect 1 (quietInit pubackTwice)).2

/-- The client has published once. -/
def ackedOnce : Sys Unit := (mqttPublish 3 [116] report ackedSys).2

theorem acks_match_report :
    (∀ r, (ClientCall.publish 3 [116] report).Outcome ackedSys
        ((ClientCall.publish 3 [116] report).run ackedSys) r → r.1 = some mqttSuccess →
        AckRead (.publish 3 [116] report) PUBACK ackedSys) ↔
      ∀ s' ∈ (ClientCall.publish 3 [116] report).ackPolls ackedSys, PollReads PUBACK s' →
        (ClientCall.publish 3 [116] report).Accepts ackedSys (readPacket s').2 ∨
          (ClientCall.publish (κ := Unit) 3 [116] report).StoresBehind
            (readPacket s').2.client.readbuf →
        ackId (readPacket s').2.client.readbuf = some ackedSys.client.nextId :=
  acks_match_iff (.publish 3 [116] report) rfl ackedSys

/-- The second publication has the packet id 2, and succeeds on the duplicate of the `PUBACK`
for the first. -/
theorem duplicate_completes_next :
    (mqttPublish 3 [116] report ackedSys).1 = some mqttSuccess ∧
      ackedOnce.client.nextId = 2 ∧
      (mqttPublish 3 [116] report ackedOnce).1 = some mqttSuccess ∧
      ¬ AckRead (.publish 3 [116] report) PUBACK ackedOnce := by
  refine ⟨by decide +kernel, by decide +kernel, by decide +kernel, ?_⟩
  have hid : ∀ s' ∈ (ClientCall.publish (κ := Unit) 3 [116] report).ackPolls ackedOnce,
      (readPacket s').1 = some (PUBACK : Int) →
      ackId (readPacket s').2.client.readbuf ≠ some ackedOnce.client.nextId := by
    decide +kernel
  intro h
  obtain ⟨s', hmem, hreads, hack⟩ := h
  exact hid s' hmem hreads hack

end IBoxClient
