import IBoxClient.MqttWait

/- What a call returns, and whether it has left the session open.

   Between its first statement and its exit a call talks: it takes a packet id, sends,
   reads, delivers messages. None of that touches the session (`Talks`); the exits do, and
   they go by the return code. Where the code is the type of a packet, a positive type is
   no failure to the caller of `MQTT_cycle`. But a type for which the `switch` has no case is
   returned as it is after the session has been closed: these are the only calls whose
   return code does not tell (`return_agrees_iff`). -/
namespace IBoxClient

variable {κ : Type}

/-! ## Talking -/

/-- The session is the same, and so is what it was opened with. -/
structure SameSession (s s' : Sys κ) : Prop where
  isconnected : s'.client.isconnected = s.client.isconnected
  cleansession : s'.client.cleansession = s.client.cleansession
  condata : s'.client.condata = s.client.condata
  messageHandlers : s'.client.messageHandlers = s.client.messageHandlers
  strs : s'.strs = s.strs

theorem SameSession.refl (s : Sys κ) : SameSession s s := ⟨rfl, rfl, rfl, rfl, rfl⟩

theorem SameSession.trans {s s' s'' : Sys κ} (h : SameSession s s') (h' : SameSession s' s'') :
    SameSession s s'' :=
  ⟨h'.isconnected.trans h.isconnected, h'.cleansession.trans h.cleansession,
    h'.condata.trans h.condata, h'.messageHandlers.trans h.messageHandlers, h'.strs.trans h.strs⟩

/-- A program that leaves the session as it is, whether it returns or pauses. -/
def Talks {α : Type} (p : Prog (Sys κ) α) : Prop := ∀ s, SameSession s (p s).2

namespace Talks

variable {α β : Type} {p : Prog (Sys κ) α}

theorem pure (a : α) : Talks (Pure.pure a : Prog (Sys κ) α) := fun s => .refl s

theorem pause : Talks (Prog.pause : Prog (Sys κ) α) := fun s => .refl s

theorem look {f : Sys κ → Prog (Sys κ) β} (hf : ∀ s, Talks (f s)) : Talks (Prog.look >>= f) :=
  fun s => hf s s

theorem bind {f : α → Prog (Sys κ) β} (hp : Talks p) (hf : ∀ a, Talks (f a)) :
    Talks (p >>= f) := by
  intro s
  have hs := hp s
  rw [Prog.run_bind]
  generalize p s = r at hs ⊢
  obtain ⟨r, s'⟩ := r
  cases r with
  | none => exact hs
  | some a => exact hs.trans (hf a s')

theorem ite {c : Prop} [Decidable c] {q : Prog (Sys κ) α} (hp : Talks p) (hq : Talks q) :
    Talks (if c then p else q) := by
  split
  · exact hp
  · exact hq

/-- What only depends on the session is kept by talking. -/
theorem keeps (hp : Talks p) {I : Sys κ → Prop} (hI : ∀ s s', SameSession s s' → I s → I s') :
    Prog.Keeps I p := fun s hs => hI _ _ (hp s) hs

theorem spec (hp : Talks p) {I : Sys κ → Prop} (hI : ∀ s s', SameSession s s' → I s → I s') :
    Prog.Spec I p (fun _ => I) I := (hp.keeps hI).spec

end Talks

theorem talks_getSysTimeMs : Talks (getSysTimeMs : Prog (Sys κ) UInt32) :=
  fun _ => ⟨rfl, rfl, rfl, rfl, rfl⟩

theorem talks_timeoutInit (count : UInt32) : Talks (timeoutInit count : Prog (Sys κ) UInt32) :=
  .bind talks_getSysTimeMs fun _ => .pure _

theorem talks_getNextPacketId : Talks (getNextPacketId : Prog (Sys κ) Nat) :=
  fun _ => ⟨rfl, rfl, rfl, rfl, rfl⟩

theorem talks_sendPacket (packet : List UInt8) : Talks (sendPacket packet : Prog (Sys κ) Int) :=
  fun _ => ⟨rfl, rfl, rfl, rfl, rfl⟩

theorem talks_readPacket : Talks (readPacket : Prog (Sys κ) Int) := by
  intro s
  obtain ⟨readbuf, net, log, hstate⟩ := readPacket_state s
  rw [hstate]
  exact ⟨rfl, rfl, rfl, rfl, rfl⟩

theorem talks_waitfor (packetType : Nat) (timeout : UInt32) (polls : Nat) :
    Talks (waitfor packetType timeout polls : Prog (Sys κ) Int) := by
  induction polls with
  | zero => exact .pause
  | succ polls ih =>
    refine .bind talks_readPacket fun rc => .ite (.pure _) ?_
    exact .bind talks_getSysTimeMs fun now => .ite ih (.pure _)

theorem talks_publishId (message : MqttMessage) : Talks (publishId message : Prog (Sys κ) Nat) :=
  .ite talks_getNextPacketId (.pure _)

theorem talks_sendAck (packettype packetid : Nat) :
    Talks (sendAck packettype packetid : Prog (Sys κ) Int) := by
  apply Talks.look
  intro s
  cases mqttSerializeAck s.client.bufSize packettype 0 packetid with
  | error _ => exact .pure _
  | ok packet => exact talks_sendPacket packet

theorem talks_cycleAck (packetType : Int) : Talks (cycleAck packetType : Prog (Sys κ) Int) :=
  .look fun _ => .ite (.pure _) (talks_sendAck _ _)

section Delivering
variable [Callback κ]

theorem sameSession_deliverSlot (message : PublishData) (slots : List (MessageHandlers κ))
    (r : Int × Sys κ) : SameSession r.2 (slots.foldl (deliverSlot message) r).2 := by
  induction slots generalizing r with
  | nil => exact .refl _
  | cons slot slots ih =>
    refine SameSession.trans ?_ (ih _)
    unfold deliverSlot
    split
    · exact .refl _
    · split
      · split
        · exact ⟨rfl, rfl, rfl, rfl, rfl⟩
        · exact .refl _
      · exact .refl _

theorem talks_deliverMessage (message : PublishData) :
    Talks (deliverMessage message : Prog (Sys κ) Int) := by
  intro s
  have hslots := sameSession_deliverSlot message s.client.messageHandlers (mqttFailure, s)
  simp only [deliverMessage, Prog.run_act]
  split
  · split
    · exact hslots.trans ⟨rfl, rfl, rfl, rfl, rfl⟩
    · exact hslots
  · exact hslots

theorem talks_cyclePublish : Talks (cyclePublish : Prog (Sys κ) Int) := by
  refine .look fun s => .ite (.pure _) (.bind (talks_deliverMessage _) fun _ => ?_)
  exact .ite (.pure _) (.ite (talks_sendAck _ _) (.ite (talks_sendAck _ _) (.pure _)))

theorem talks_cycleSwitch (packetType : Int) :
    Talks (cycleSwitch packetType : Prog (Sys κ) Int) := by
  refine .ite (.pure _) (.ite (.pure _) (.ite talks_cyclePublish (.ite (talks_cycleAck _) ?_)))
  refine .ite (.pure _) (.ite (.bind (fun _ => ?_) fun _ => .pure _) (.pure _))
  exact ⟨rfl, rfl, rfl, rfl, rfl⟩

end Delivering

/-! ## Return codes -/

/-- `MQTT_SUCCESS` or `MQTT_FAILURE`. -/
def IsResult (rc : Int) : Prop := rc = mqttSuccess ∨ rc = mqttFailure

def Connected (s : Sys κ) : Prop := s.client.isconnected = true

theorem SameSession.connected {s s' : Sys κ} (h : SameSession s s') (hs : Connected s) :
    Connected s' := h.isconnected.trans hs

/-- The session is open if and only if the return code is no failure. -/
def Agrees (rc : Int) (s : Sys κ) : Prop := Connected s ↔ 0 ≤ rc

theorem agrees_open {rc : Int} {s : Sys κ} (hs : Connected s) (hrc : 0 ≤ rc) : Agrees rc s :=
  ⟨fun _ => hrc, fun _ => hs⟩

theorem not_connected_close (s : Sys κ) : ¬ Connected (mqttCloseSession s).2 := by
  rw [closeSession_state]
  exact Bool.false_ne_true

theorem agrees_close (s : Sys κ) : Agrees mqttFailure (mqttCloseSession s).2 :=
  ⟨fun h => absurd h (not_connected_close s), fun h => absurd h (by decide)⟩

theorem spec_sendPacket_result (packet : List UInt8) :
    Prog.Spec Connected (sendPacket packet : Prog (Sys κ) Int)
      (fun rc s => IsResult rc ∧ Connected s) fun _ => True := by
  refine .act fun s hs => ⟨?_, (talks_sendPacket packet s).connected hs⟩
  dsimp only
  split
  · exact .inl rfl
  · exact .inr rfl

theorem agrees_requestExit {rc : Int} (hrc : IsResult rc) :
    Prog.Spec Connected (requestExit rc : Prog (Sys κ) Int) Agrees fun _ => True := by
  refine .ite (fun h => ?_) fun h => ?_
  · intro s hs
    rw [Prog.run_bind_some (run_closeSession s), h]
    exact agrees_close s
  · have hsuccess : rc = mqttSuccess := hrc.resolve_right h
    exact .pure _ fun s hs => agrees_open hs (Int.le_of_eq hsuccess.symm)

/-- Talking on the way to an exit. -/
theorem agrees_talk {α : Type} {p : Prog (Sys κ) α} (hp : Talks p) {f : α → Prog (Sys κ) Int}
    (hf : ∀ a, Prog.Spec Connected (f a) Agrees fun _ => True) :
    Prog.Spec Connected (p >>= f) Agrees fun _ => True :=
  .bind ((hp.spec fun _ _ h hs => h.connected hs).mono (fun _ hs => hs) (fun _ _ hs => hs)
    fun _ _ => trivial) hf

/-- A request that is sent, or not. -/
theorem agrees_send (packet : List UInt8) {f : Int → Prog (Sys κ) Int}
    (hf : ∀ rc, IsResult rc → Prog.Spec Connected (f rc) Agrees fun _ => True) :
    Prog.Spec Connected (do
      let rc ← sendPacket packet
      if rc ≠ mqttSuccess then requestExit rc else f rc) Agrees fun _ => True := by
  refine .bind (spec_sendPacket_result packet) fun rc => .ite (fun _ => ?_) fun _ => ?_
  · intro s h
    obtain ⟨hrc, hs⟩ := h
    exact agrees_requestExit hrc s hs
  · intro s h
    obtain ⟨hrc, hs⟩ := h
    exact hf rc hrc s hs

theorem spec_setMessageHandler (filter : Nat) (callback : Option κ) :
    Prog.Spec Connected (mqttSetMessageHandler filter callback)
      (fun rc s => IsResult rc ∧ Connected s) fun _ => True := by
  refine .act fun s hs => ?_
  simp only
  split
  · exact ⟨.inl rfl, hs⟩
  · exact ⟨.inl rfl, hs⟩
  · exact ⟨.inr rfl, hs⟩
  · split
    · exact ⟨.inl rfl, hs⟩
    · exact ⟨.inr rfl, hs⟩

theorem agrees_failure :
    Prog.Spec Connected (requestExit mqttFailure : Prog (Sys κ) Int) Agrees fun _ => True :=
  agrees_requestExit (.inr rfl)

theorem agrees_subscribe (polls topicFilter qos : Nat) (messageHandler : κ) :
    Prog.Spec Connected (mqttSubscribe polls topicFilter qos messageHandler) Agrees
      fun _ => True := by
  refine .look_any fun s => .ite (fun _ => agrees_failure) fun _ => ?_
  apply agrees_talk talks_getNextPacketId
  intro id
  cases mqttSerializeSubscribe s.client.bufSize 0 id (.ofCString (s.strs topicFilter)) qos with
  | error _ => exact agrees_failure
  | ok packet =>
    refine agrees_send packet fun rc hrc => agrees_talk (talks_timeoutInit _) fun timeout => ?_
    refine agrees_talk (talks_waitfor _ _ _) fun t => .ite (fun _ => ?_) fun _ => agrees_failure
    refine .look_any fun s => .ite (fun _ => ?_) fun _ => agrees_requestExit hrc
    refine .bind (spec_setMessageHandler topicFilter (some messageHandler)) fun rc' => ?_
    intro s h
    obtain ⟨hrc', hs⟩ := h
    exact agrees_requestExit hrc' s hs

theorem agrees_unsubscribe (polls topicFilter : Nat) :
    Prog.Spec Connected (mqttUnsubscribe polls topicFilter : Prog (Sys κ) Int) Agrees
      fun _ => True := by
  refine .look_any fun s => .ite (fun _ => agrees_failure) fun _ => ?_
  apply agrees_talk talks_getNextPacketId
  intro id
  cases mqttSerializeUnsubscribe s.client.bufSize 0 id (.ofCString (s.strs topicFilter)) with
  | error _ => exact agrees_failure
  | ok packet =>
    refine agrees_send packet fun rc hrc => agrees_talk (talks_timeoutInit _) fun timeout => ?_
    refine agrees_talk (talks_waitfor _ _ _) fun t => .ite (fun _ => ?_) fun _ => agrees_failure
    refine .look_any fun s => .ite (fun _ => ?_) fun _ => agrees_requestExit hrc
    refine .bind (spec_setMessageHandler topicFilter none) fun _ => ?_
    intro s h
    obtain ⟨-, hs⟩ := h
    exact agrees_requestExit hrc s hs

theorem agrees_publishWait (polls ack : Nat) (timeout : UInt32) {rc : Int} (hrc : IsResult rc) :
    Prog.Spec Connected (publishWait polls ack timeout rc : Prog (Sys κ) Int) Agrees
      fun _ => True := by
  refine agrees_talk (talks_waitfor _ _ _) fun t => .ite (fun _ => ?_) fun _ => agrees_failure
  refine .look_any fun s => agrees_requestExit ?_
  split
  · exact .inr rfl
  · exact hrc

theorem agrees_publish (polls : Nat) (topicName : List UInt8) (message : MqttMessage) :
    Prog.Spec Connected (mqttPublish polls topicName message : Prog (Sys κ) Int) Agrees
      fun _ => True := by
  refine .look_any fun s => .ite (fun _ => agrees_failure) fun _ => ?_
  apply agrees_talk (talks_publishId message)
  intro id
  cases mqttSerializePublish s.client.bufSize 0 message.qos message.retained id
      (.ofCString topicName) message.payload with
  | error _ => exact agrees_failure
  | ok packet =>
    refine agrees_send packet fun rc hrc => agrees_talk (talks_timeoutInit _) fun timeout => ?_
    refine .ite (fun _ => agrees_publishWait _ _ _ hrc) fun _ => ?_
    exact .ite (fun _ => agrees_publishWait _ _ _ hrc) fun _ => agrees_requestExit hrc

/-! ## The cycle -/

/-- The `switch` of `MQTT_cycle` has a case. -/
def HasCase (packetType : Int) : Prop :=
  packetType = 0 ∨ passive packetType ∨ packetType = PUBLISH ∨ packetType = PUBREC ∨
    packetType = PUBREL

/-- The types of the packets that only a client sends, and the one that is reserved. -/
def IsClientPacket (packetType : Int) : Prop :=
  packetType = CONNECT ∨ packetType = SUBSCRIBE ∨ packetType = UNSUBSCRIBE ∨
    packetType = PINGREQ ∨ packetType = DISCONNECT ∨ packetType = 15

/-- The packet that is read next is one of these. -/
def ReadsClientPacket (s : Sys κ) : Prop :=
  ∃ packetType, (readPacket s).1 = some packetType ∧ IsClientPacket packetType

theorem mqttPacketRead_le {σ : Type} (getfn : GetFn σ) (buf : List UInt8) (buflen : Nat) (s : σ) :
    (mqttPacketRead getfn buf buflen s).1 ≤ 15 := by
  have herror : readError ≤ 15 := by decide
  have hrest : ∀ buf header remLen len s,
      (readRest getfn buf buflen header remLen len s).1 ≤ 15 := by
    intro buf header remLen len s
    have hbyte := header.toNat_lt
    have htype : (headerType header : Int) ≤ 15 := by
      unfold headerType
      omega
    unfold readRest
    split
    · exact herror
    · split
      · simp only
        split
        · exact herror
        · exact htype
      · exact htype
  unfold mqttPacketRead
  split
  · exact hrest ..
  · exact herror

theorem readPacket_le {s s' : Sys κ} {rc : Int} (h : readPacket s = (some rc, s')) : rc ≤ 15 := by
  rcases Nat.eq_zero_or_pos s.interact.2.net.fifoSem with hsem | hsem
  · rw [readPacket_idle hsem] at h
    cases h
    decide
  · rw [readPacket_token hsem] at h
    cases h
    exact mqttPacketRead_le ..

theorem hasCase_or {rc : Int} (hle : rc ≤ 15) : HasCase rc ∨ rc < 0 ∨ IsClientPacket rc := by
  simp only [HasCase, passive, IsClientPacket, CONNECT, CONNACK, PUBLISH, PUBACK, PUBREC, PUBREL,
    PUBCOMP, SUBSCRIBE, SUBACK, UNSUBSCRIBE, UNSUBACK, PINGREQ, PINGRESP, DISCONNECT]
  omega

theorem not_hasCase_client {rc : Int} (h : IsClientPacket rc) : ¬ HasCase rc ∧ 0 ≤ rc := by
  simp only [HasCase, passive, IsClientPacket, CONNECT, CONNACK, PUBLISH, PUBACK, PUBREC, PUBREL,
    PUBCOMP, SUBSCRIBE, SUBACK, UNSUBSCRIBE, UNSUBACK, PINGREQ, PINGRESP, DISCONNECT] at h ⊢
  omega

theorem spec_sendAck (packettype packetid : Nat) :
    Prog.Spec Connected (sendAck packettype packetid : Prog (Sys κ) Int)
      (fun rc s => IsResult rc ∧ Connected s) fun _ => True := by
  refine .look_any fun s => ?_
  cases mqttSerializeAck s.client.bufSize packettype 0 packetid with
  | error _ => exact .pure _ fun s hs => ⟨.inr rfl, hs⟩
  | ok packet =>
    exact spec_sendPacket_result packet

theorem spec_cycleAck (packetType : Int) :
    Prog.Spec Connected (cycleAck packetType : Prog (Sys κ) Int)
      (fun rc s => IsResult rc ∧ Connected s) fun _ => True := by
  refine .look_any fun s => .ite (fun _ => .pure _ fun s hs => ⟨.inr rfl, hs⟩) fun _ => ?_
  exact spec_sendAck _ _

section Cycle
variable [Callback κ]

theorem spec_cyclePublish :
    Prog.Spec Connected (cyclePublish : Prog (Sys κ) Int)
      (fun rc s => IsResult rc ∧ Connected s) fun _ => True := by
  refine .look_any fun s => .ite (fun _ => .pure _ fun s hs => ⟨.inl rfl, hs⟩) fun _ => ?_
  refine .bind (R := fun _ => Connected) ?_ fun _ => ?_
  · exact ((talks_deliverMessage _).spec fun _ _ h hs => h.connected hs).mono (fun _ hs => hs)
      (fun _ _ hs => hs) fun _ _ => trivial
  · refine .ite (fun _ => .pure _ fun s hs => ⟨.inl rfl, hs⟩) fun _ => ?_
    refine .ite (fun _ => spec_sendAck _ _) fun _ => .ite (fun _ => spec_sendAck _ _) fun _ => ?_
    exact .pure _ fun s hs => ⟨.inr rfl, hs⟩

theorem spec_cycleSwitch {packetType : Int} (h : HasCase packetType) :
    Prog.Spec Connected (cycleSwitch packetType : Prog (Sys κ) Int)
      (fun rc s => IsResult rc ∧ Connected s) fun _ => True := by
  have hsuccess : Prog.Spec Connected (pure mqttSuccess : Prog (Sys κ) Int)
      (fun rc s => IsResult rc ∧ Connected s) fun _ => True :=
    .pure _ fun s hs => ⟨.inl rfl, hs⟩
  refine .ite (fun _ => hsuccess) fun h0 => .ite (fun _ => hsuccess) fun hreply => ?_
  refine .ite (fun _ => spec_cyclePublish) fun hpublish => ?_
  refine .ite (fun _ => spec_cycleAck _) fun hack => .ite (fun _ => hsuccess) fun hcomp => ?_
  refine .ite (fun _ => ?_) fun hping => ?_
  · exact .bind (R := fun _ => Connected) (.act fun s hs => hs) fun _ => hsuccess
  · apply absurd h
    unfold HasCase passive
    omega

theorem switch_default {packetType : Int} (h : ¬ HasCase packetType) (s : Sys κ) :
    cycleSwitch packetType s = (some packetType, s) := by
  unfold HasCase passive at h
  simp only [not_or] at h
  simp only [cycleSwitch, h, if_false, or_self]
  rfl

theorem agrees_cycleHandle {packetType : Int} (h : HasCase packetType) :
    Prog.Spec Connected (cycleHandle packetType : Prog (Sys κ) Int) Agrees fun _ => True := by
  have hnonneg : 0 ≤ packetType := by
    unfold HasCase passive at h
    omega
  refine .bind (spec_cycleSwitch h) fun rc => .ite (fun _ => ?_) fun hrc => .look fun s => ?_
  · exact .pure _ fun s hs => agrees_open hs.2 hnonneg
  · refine .ite (fun _ => ?_) fun hclosed => ?_
    · intro s h
      obtain ⟨⟨hresult, -⟩, -⟩ := h
      have hfailure : rc = mqttFailure := hresult.resolve_left hrc
      rw [Prog.run_bind_some (run_closeSession s), hfailure]
      exact agrees_close s
    · intro s' h
      obtain ⟨⟨-, hs⟩, rfl⟩ := h
      exact absurd hs hclosed

/-- Without a case the session is closed, and the type returned. -/
theorem handle_default {packetType : Int} (h : ¬ HasCase packetType) {s : Sys κ}
    (hs : Connected s) :
    cycleHandle packetType s = (some packetType, (mqttCloseSession s).2) := by
  have h0 : packetType ≠ mqttSuccess := fun h0 => h (.inl h0)
  have hopen : s.client.isconnected = true := hs
  rw [cycleHandle, Prog.run_bind_some (switch_default h s), if_neg h0, Prog.run_look_bind,
    if_pos hopen, Prog.run_bind_some (run_closeSession s)]
  rfl

/-- **One cycle.** -/
theorem cycle_agrees_iff {s : Sys κ} (hs : Connected s) :
    (∀ r s', mqttCycle s = (some r, s') → Agrees r s') ↔ ¬ ReadsClientPacket s := by
  obtain ⟨rc, hrun, -⟩ := run_readPacket s
  have hs' : Connected (readPacket s).2 := (talks_readPacket s).connected hs
  have hcycle : mqttCycle s = cycleHandle rc (readPacket s).2 := by
    rw [mqttCycle, Prog.run_bind_some hrun]
  have hrc : (readPacket s).1 = some rc := by rw [hrun]
  rw [hcycle]
  constructor
  · intro h h
    obtain ⟨rc', hrc', hclient⟩ := h
    cases hrc.symm.trans hrc'
    obtain ⟨hcase, hnonneg⟩ := not_hasCase_client hclient
    have hagrees := h _ _ (handle_default hcase hs')
    exact not_connected_close _ (hagrees.mpr hnonneg)
  · intro hclient r s' hr
    rcases hasCase_or (readPacket_le hrun) with hcase | hneg | hpacket
    · exact (agrees_cycleHandle hcase).returned hs' hr
    · have hcase : ¬ HasCase rc := by
        unfold HasCase passive
        omega
      rw [handle_default hcase hs'] at hr
      cases hr
      exact ⟨fun h => absurd h (not_connected_close _), fun h => absurd h (by omega)⟩
    · exact absurd ⟨rc, hrc, hpacket⟩ hclient

/-! ## The calls -/

/-- The calls after which the main thread goes by the return code. -/
def ClientCall.Works : ClientCall κ → Prop
  | .cycle | .subscribe .. | .unsubscribe .. | .publish .. => True
  | .keepalive | .connect _ | .disconnect => False

/-- **Return codes.** After a call on an open session the return code tells whether it is
still open, unless the call is a cycle that reads a packet which only a client sends. -/
theorem return_agrees_iff (call : ClientCall κ) (hcall : call.Works) {s : Sys κ}
    (hs : s.client.isconnected = true) :
    (∀ r s', call.run s = (some r, s') → (s'.client.isconnected = true ↔ 0 ≤ r)) ↔
      ¬ (call = .cycle ∧ ReadsClientPacket s) := by
  have hrequest : ∀ {p : Prog (Sys κ) Int}, Prog.Spec Connected p Agrees (fun _ => True) →
      ∀ r s', p s = (some r, s') → Agrees r s' := fun hp r s' hr => hp.returned hs hr
  cases call with
  | keepalive => exact absurd hcall id
  | cycle =>
    refine (cycle_agrees_iff hs).trans (not_congr ?_)
    exact ⟨fun h => ⟨rfl, h⟩, fun h => h.2⟩
  | connect polls => exact absurd hcall id
  | subscribe polls topicFilter qos messageHandler =>
    exact ⟨fun _ h => (by cases h.1), fun _ => hrequest (agrees_subscribe _ _ _ _)⟩
  | unsubscribe polls topicFilter =>
    exact ⟨fun _ h => (by cases h.1), fun _ => hrequest (agrees_unsubscribe _ _)⟩
  | publish polls topicName message =>
    exact ⟨fun _ h => (by cases h.1), fun _ => hrequest (agrees_publish _ _ _)⟩
  | disconnect => exact absurd hcall id

end Cycle

/-! A broker that accepts the connection and then sends a `PINGREQ`. -/

def pingreqBroker (k : Nat) : EnvStep :=
  if k = 0 then { EnvStep.quiet with arrive := [connackChunk] }
  else if k = 6 then { EnvStep.quiet with arrive := [⟨[192, 0], by decide, by decide⟩] }
  else EnvStep.quiet

/-- The client is connected. -/
def pingreqSys : Sys Unit := (mqttConnect 1 (quietInit pingreqBroker)).2

theorem return_agrees_publication :
    (∀ r s', (ClientCall.publish 1 [116] publication).run pubrecSys = (some r, s') →
        (s'.client.isconnected = true ↔ 0 ≤ r)) ↔
      ¬ (ClientCall.publish (κ := Unit) 1 [116] publication = .cycle ∧
        ReadsClientPacket pubrecSys) :=
  return_agrees_iff (.publish 1 [116] publication) trivial (by decide +kernel)

/-- The `PINGREQ` is returned as a packet type, and the session is closed. -/
theorem pingreq_closes :
    pingreqSys.client.isconnected = true ∧
      (mqttCycle pingreqSys).1 = some 12 ∧
      (mqttCycle pingreqSys).2.client.isconnected = false := by
  decide +kernel

end IBoxClient
