import IBoxClient.MqttAcks

/- What a subscription does to the table of handlers.

   `MQTTSubscribe` overwrites the result of the sending only where the `SUBACK` is accepted. So a
   refused `SUBACK`, and one that does not parse, leave the result `MQTT_SUCCESS` of the sending,
   and no slot is taken. A `SUBACK` without a return code is taken for one that grants QoS 0, and
   with more than one return code it is stored past the variable for it.
   `subscribe_effective_iff` says which ones are answered rightly. -/
namespace IBoxClient

variable {κ : Type}

/-! ## The call -/

section Call
variable {polls topicFilter qos : Nat} {messageHandler : κ} {s s' : Sys κ}

/-- What a subscription does with a `SUBACK` that has been read. -/
def subackExit (topicFilter : Nat) (messageHandler : κ) : Prog (Sys κ) Int := do
  let s ← Prog.look
  let r := mqttDeserializeSuback s.client.readbuf
  if r.1 = 1 ∧ r.2.1 ≠ 128 then do
    let rc ← mqttSetMessageHandler topicFilter (some messageHandler)
    requestExit rc
  else requestExit mqttSuccess

/-- A subscription from a poll that reads a `SUBACK` on. -/
theorem subscribe_of_reads
    (hmem : s' ∈ (ClientCall.subscribe polls topicFilter qos messageHandler).ackPolls s)
    (hreads : PollReads SUBACK s') : mqttSubscribe polls topicFilter qos messageHandler s =
      subackExit topicFilter messageHandler (readPacket s').2 := by
  unfold ClientCall.ackPolls at hmem
  unfold mqttSubscribe
  rw [Prog.run_look_bind]
  split at hmem
  · cases hmem
  · next hopen =>
    rw [if_neg hopen, getNextPacketId, Prog.run_act_bind]
    unfold requestPolls at hmem
    dsimp only at hmem ⊢
    split at hmem
    · cases hmem
    · next packet hpacket =>
      split at hmem
      · next htx =>
        rw [MqttClient.nextId] at hpacket
        rw [hpacket]
        dsimp only
        apply (Prog.run_bind_some (run_sendPacket_ok packet htx)).trans
        rw [if_neg (not_not_intro rfl)]
        apply (Prog.run_bind_some (waitfor_of_reads hmem hreads)).trans
        rw [if_pos rfl]
        rfl
      · cases hmem

/-- A `SUBACK` that is accepted. -/
theorem subackExit_accepted (hgranted : SubackGrants s.client.readbuf) :
    subackExit topicFilter messageHandler s =
      match handlersWith s.strs topicFilter messageHandler s.client.messageHandlers with
      | some slots => (some mqttSuccess, s.setClient fun c => { c with messageHandlers := slots })
      | none => (some mqttFailure, (mqttCloseSession s).2) := by
  obtain ⟨hparses, hcode⟩ := hgranted
  rw [subackExit, Prog.run_look_bind, if_pos ⟨hparses, hcode⟩]
  have hset := setMessageHandler_eq topicFilter messageHandler s
  cases hwith : handlersWith s.strs topicFilter messageHandler s.client.messageHandlers with
  | some slots =>
    rw [hwith] at hset
    rw [Prog.run_bind_some hset, requestExit, if_neg (by decide)]
    rfl
  | none =>
    rw [hwith] at hset
    rw [Prog.run_bind_some hset, requestExit, if_pos rfl, Prog.run_bind_some (run_closeSession s)]
    rfl

/-- Any other one leaves the result of the sending. -/
theorem subackExit_other (h : ¬ SubackGrants s.client.readbuf) :
    subackExit topicFilter messageHandler s = (some mqttSuccess, s) := by
  have hnot : ¬ ((mqttDeserializeSuback s.client.readbuf).1 = 1 ∧
      (mqttDeserializeSuback s.client.readbuf).2.1 ≠ 128) := h
  rw [subackExit, Prog.run_look_bind, if_neg hnot, requestExit, if_neg (by decide)]
  rfl

end Call

/-! ## What is promised -/

/-- The server grants a subscription: its `SUBACK` parses and has a return code, which is not the
refusal. -/
structure Grants (readbuf : List UInt8) : Prop where
  granted : SubackGrants readbuf
  code : 3 ≤ (mqttPacketDecodeBuf (readbuf.drop 1)).2

/-- A subscription takes effect with what it comes to. If it succeeds, the server has granted it,
exactly one slot holds the topic filter with the handler, and those for other filters are as
before. If the `SUBACK` is refused or does not parse, or there is no slot, the result is negative
and no slot is added. -/
structure SubscribeEffective (polls topicFilter qos : Nat) (messageHandler : κ) (s : Sys κ)
    (r : Option Int × Sys κ) : Prop where
  success : r.1 = some mqttSuccess →
    (∃ s' ∈ (ClientCall.subscribe polls topicFilter qos messageHandler).ackPolls s,
      PollReads SUBACK s' ∧ Grants (readPacket s').2.client.readbuf) ∧
    Slots.Only (MessageHandlers.Holds s.strs topicFilter messageHandler)
      r.2.client.messageHandlers ∧
    ∀ (i : Nat) (slot : MessageHandlers κ), slot.IsForOther s.strs topicFilter →
      (r.2.client.messageHandlers[i]? = some slot ↔ s.client.messageHandlers[i]? = some slot)
  failure : ∀ s' ∈ (ClientCall.subscribe polls topicFilter qos messageHandler).ackPolls s,
    PollReads SUBACK s' →
    ¬ SubackGrants (readPacket s').2.client.readbuf ∨
      ¬ HasRoom s.strs topicFilter s.client.messageHandlers →
    (∃ rc < 0, r.1 = some rc) ∧
      ∀ slot ∈ r.2.client.messageHandlers, slot.topicFilter.isSome →
        slot ∈ s.client.messageHandlers

/-- The `SUBACK` in the read buffer is answered rightly: it is granted, has one return code at
most, and where there is a slot it has one, and the table has the filter with the handler once at
most. -/
structure AnsweredRightly (topicFilter : Nat) (messageHandler : κ) (s : Sys κ)
    (readbuf : List UInt8) : Prop where
  granted : SubackGrants readbuf
  single : (mqttDeserializeSuback readbuf).2.2 = []
  installed : HasRoom s.strs topicFilter s.client.messageHandlers →
    3 ≤ (mqttPacketDecodeBuf (readbuf.drop 1)).2 ∧
      OnceAtMost s.strs topicFilter messageHandler s.client.messageHandlers

/-- Closing a session adds no slot. -/
theorem slots_closeSession {s : Sys κ} {slot : MessageHandlers κ}
    (hmem : slot ∈ (mqttCloseSession s).2.client.messageHandlers)
    (hused : slot.topicFilter.isSome) : slot ∈ s.client.messageHandlers := by
  rw [closeSession_state] at hmem
  simp only [Sys.record_client, Sys.setClient_client] at hmem
  split at hmem
  · obtain ⟨other, -, rfl⟩ := List.mem_map.mp hmem
    cases hused
  · exact hmem

section Effective
variable {polls topicFilter qos : Nat} {messageHandler : κ} {s : Sys κ}

/-- What comes of a `SUBACK` that is granted, seen from the state before the call. -/
theorem subscribe_granted {s' : Sys κ}
    (hmem : s' ∈ (ClientCall.subscribe polls topicFilter qos messageHandler).ackPolls s)
    (hreads : PollReads SUBACK s') (hgranted : SubackGrants (readPacket s').2.client.readbuf) :
    (∃ slots, handlersWith s.strs topicFilter messageHandler s.client.messageHandlers = some slots ∧
      (mqttSubscribe polls topicFilter qos messageHandler s).1 = some mqttSuccess ∧
      (mqttSubscribe polls topicFilter qos messageHandler s).2.client.messageHandlers = slots) ∨
    ¬ HasRoom s.strs topicFilter s.client.messageHandlers ∧
      (mqttSubscribe polls topicFilter qos messageHandler s).1 = some mqttFailure ∧
      ∀ slot ∈ (mqttSubscribe polls topicFilter qos messageHandler s).2.client.messageHandlers,
        slot.topicFilter.isSome → slot ∈ s.client.messageHandlers := by
  obtain ⟨htable, hstrs⟩ := sameTable_ackPolls hmem
  rw [subscribe_of_reads hmem hreads, subackExit_accepted hgranted, htable, hstrs]
  cases hwith : handlersWith s.strs topicFilter messageHandler s.client.messageHandlers with
  | some slots => exact .inl ⟨slots, rfl, rfl, rfl⟩
  | none =>
    refine .inr ⟨handlersWith_none hwith, rfl, fun slot hslot hused => ?_⟩
    rw [← htable]
    exact slots_closeSession hslot hused

/-- A `SUBACK` that is not granted would make the call succeed. -/
theorem granted_of_effective {s' : Sys κ}
    (h : SubscribeEffective polls topicFilter qos messageHandler s
      (mqttSubscribe polls topicFilter qos messageHandler s))
    (hmem : s' ∈ (ClientCall.subscribe polls topicFilter qos messageHandler).ackPolls s)
    (hreads : PollReads SUBACK s') : SubackGrants (readPacket s').2.client.readbuf := by
  by_contra hother
  have hresult : (mqttSubscribe polls topicFilter qos messageHandler s).1 = some mqttSuccess := by
    rw [subscribe_of_reads hmem hreads, subackExit_other hother]
  -- the result of the sending is not negative
  obtain ⟨⟨rc, hneg, hrc⟩, -⟩ := h.failure s' hmem hreads (.inl hother)
  rw [hresult] at hrc
  exact absurd hneg (Option.some.inj hrc ▸ by decide)

/-- A table that has lost its slots does not have the handler. -/
theorem not_effective_cleared : ¬ SubscribeEffective polls topicFilter qos messageHandler s
    (some mqttSuccess, s.setClient fun c => { c with messageHandlers := [] }) := by
  intro h
  obtain ⟨-, ⟨i, ⟨slot, hslot, -⟩, -⟩, -⟩ := h.success rfl
  cases hslot

/-- **Subscriptions.** A subscription takes effect, whatever it comes to, if and only if every
`SUBACK` that it reads is answered rightly. -/
theorem subscribe_effective_iff (polls topicFilter qos : Nat) (messageHandler : κ) (s : Sys κ) :
    (∀ r, (ClientCall.subscribe polls topicFilter qos messageHandler).Outcome s
        (mqttSubscribe polls topicFilter qos messageHandler s) r →
      SubscribeEffective polls topicFilter qos messageHandler s r) ↔
      ∀ s' ∈ (ClientCall.subscribe polls topicFilter qos messageHandler).ackPolls s,
        PollReads SUBACK s' →
          AnsweredRightly topicFilter messageHandler s (readPacket s').2.client.readbuf := by
  constructor
  · intro hall s' hmem hreads
    have h := hall _ (.inl rfl)
    have hgranted := granted_of_effective h hmem hreads
    have hsingle : (mqttDeserializeSuback (readPacket s').2.client.readbuf).2.2 = [] := by
      by_contra hbehind
      exact not_effective_cleared (hall _ (.inr ⟨s', hmem, hreads, hbehind⟩))
    refine ⟨hgranted, hsingle, fun hroom => ?_⟩
    rcases subscribe_granted hmem hreads hgranted with ⟨slots, hwith, hresult, hslots⟩ | ⟨hfull, -⟩
    · obtain ⟨⟨s'', hmem'', hreads'', hgrants⟩, honly, -⟩ := h.success hresult
      have hsame := ackPolls_agree rfl hmem'' hmem hreads'' hreads
      rw [hsame] at hgrants
      rw [hslots] at honly
      exact ⟨hgrants.code, (handlersWith_some hwith).2.2.mp honly⟩
    · exact absurd hroom hfull
  · intro h r hr
    have hr : r = mqttSubscribe polls topicFilter qos messageHandler s := by
      rcases hr with hr | ⟨s', hmem, hreads, hbehind⟩
      · exact hr
      · exact absurd (h s' hmem hreads).single hbehind
    subst hr
    constructor
    · intro hresult
      obtain ⟨s', hmem, hreads, -⟩ := (subscribe_success_iff _ _ _ _ _).mp hresult
      obtain ⟨hgranted, -, hinstalled⟩ := h s' hmem hreads
      rcases subscribe_granted hmem hreads hgranted with
        ⟨slots, hwith, -, hslots⟩ | ⟨-, hfailed, -⟩
      · obtain ⟨hroom, hkept, honly⟩ := handlersWith_some hwith
        obtain ⟨hcode, honce⟩ := hinstalled hroom
        rw [hslots]
        exact ⟨⟨s', hmem, hreads, hgranted, hcode⟩, honly.mpr honce, hkept⟩
      · rw [hresult] at hfailed
        cases hfailed
    · intro s' hmem hreads hbad
      obtain ⟨hgranted, -⟩ := h s' hmem hreads
      rcases subscribe_granted hmem hreads hgranted with
        ⟨slots, hwith, -, -⟩ | ⟨-, hfailed, hadded⟩
      · exfalso
        rcases hbad with hbad | hfull
        · exact hbad hgranted
        · exact hfull (handlersWith_some hwith).1
      · exact ⟨⟨mqttFailure, by decide, hfailed⟩, hadded⟩

end Effective

/-- A broker that accepts the connection, and refuses the first subscription. -/
def refusingBroker (k : Nat) : EnvStep :=
  if k = 0 then { EnvStep.quiet with arrive := [connackChunk] }
  else if k = 8 then
    { EnvStep.quiet with arrive := [⟨[144, 3, 0, 1, 128], by decide, by decide⟩] }
  else EnvStep.quiet

/-- The client is connected. -/
def refusedSys : Sys Unit := (mqttConnect 1 (quietInit refusingBroker)).2

/-- The subscription succeeds on the refusal. -/
theorem refusal_succeeds :
    refusedSys.client.isconnected = true ∧
      (mqttSubscribe 3 0 1 () refusedSys).1 = some mqttSuccess ∧
      ¬ SubscribeEffective 3 0 1 () refusedSys (mqttSubscribe 3 0 1 () refusedSys) := by
  have hsuccess : (mqttSubscribe 3 0 1 () refusedSys).1 = some mqttSuccess := by decide +kernel
  refine ⟨by decide +kernel, hsuccess, fun h => ?_⟩
  obtain ⟨⟨s', hmem, hreads, hgrants⟩, -⟩ := h.success hsuccess
  have hrefused : ∀ s' ∈ (ClientCall.subscribe 3 0 1 ()).ackPolls refusedSys,
      (readPacket s').1 = some (SUBACK : Int) →
      (mqttDeserializeSuback (readPacket s').2.client.readbuf).2.1 = 128 := by
    decide +kernel
  exact hgrants.granted.2 (hrefused s' hmem hreads)

end IBoxClient
