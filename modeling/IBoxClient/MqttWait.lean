import IBoxClient.MqttEffects

/- Packets that arrive while the client waits for a reply.

   `waitfor` reads packets until the awaited one comes, and drops the others.
   `MQTT_cycle` reads the same stream and acts on them: it delivers a `PUBLISH` and
   acknowledges it, answers `PUBREC` and `PUBREL`, and ends the session on a packet no
   broker sends. So nothing is lost in a wait exactly when every packet it drops is
   one `MQTT_cycle` has nothing to do for (`wait_handles_iff`).

   A QoS 2 `PUBLISH` waits for `PUBCOMP`. The broker sends it when it has been sent a
   `PUBREL`, and that is the answer to the `PUBREC` the wait drops: against such a
   broker the call does not succeed (`publish_exactly_once_fails`). -/
namespace IBoxClient

variable {κ : Type} [Callback κ]

/-- The states in which a wait polls. -/
def waitPolls (packetType : Nat) (timeout : UInt32) : Nat → Sys κ → List (Sys κ)
  | 0, _ => []
  | polls + 1, s =>
    s :: match readPacket s with
      | (some rc, s') =>
        if rc = packetType then []
        else if isTimeout timeout s'.interact.1.sysTimeMs ≠ 0 then
          waitPolls packetType timeout polls s'.interact.2
        else []
      | (none, _) => []

/-- The packet a poll reads, if it is not the awaited one, is handled as in a cycle. -/
def HandledAsCycle (packetType : Nat) (s : Sys κ) : Prop :=
  ∀ rc, (readPacket s).1 = some rc → 0 < rc → rc ≠ packetType →
    (readPacket s).2 = (mqttCycle s).2

/-- The types of packet on which `MQTT_cycle` does nothing. -/
def passive (packetType : Int) : Prop :=
  packetType = CONNACK ∨ packetType = PUBACK ∨ packetType = SUBACK ∨ packetType = UNSUBACK ∨
    packetType = PUBCOMP ∨ packetType = PINGRESP

/-- A packet in the read buffer for which there is nothing to do: one of a passive
type, a `PUBLISH` that cannot be deserialised, and without a session to end any other
packet but a `PUBREC` or `PUBREL` that can be answered. -/
def Inert (packetType : Int) (s : Sys κ) : Prop :=
  passive packetType ∨
    packetType = PUBLISH ∧ (mqttDeserializePublish (s.net.env 0).stale s.client.readbuf).1 ≠ 1 ∨
    packetType ≠ PUBLISH ∧ s.client.isconnected = false ∧
      (packetType = PUBREC ∨ packetType = PUBREL →
        (mqttDeserializeAck (s.net.env 0).stale s.client.readbuf).1 ≠ 1)

/-- The packet a poll reads, if it is not the awaited one, needs no handling. -/
def DropsInert (packetType : Nat) (s : Sys κ) : Prop :=
  ∀ rc, (readPacket s).1 = some rc → 0 < rc → rc ≠ packetType → Inert rc (readPacket s).2

/-! ## Doing nothing -/

omit [Callback κ] in
/-- A state with a longer log is another one. -/
theorem ne_of_logged {s s' : Sys κ} (h : s.log.length < s'.log.length) : s' ≠ s := by
  rintro rfl
  exact Nat.lt_irrefl _ h

/-- The handlers called so far have left their entries. -/
theorem log_deliverSlot (message : PublishData) (slots : List (MessageHandlers κ)) (n : Nat)
    {r : Int × Sys κ} (hle : n ≤ r.2.log.length) (hlt : r.1 ≠ mqttFailure → n < r.2.log.length) :
    n ≤ (slots.foldl (deliverSlot message) r).2.log.length ∧
      ((slots.foldl (deliverSlot message) r).1 ≠ mqttFailure →
        n < (slots.foldl (deliverSlot message) r).2.log.length) := by
  induction slots generalizing r with
  | nil => exact ⟨hle, hlt⟩
  | cons slot slots ih =>
    have hcall : ∀ callback, n < (r.2.call callback message).log.length :=
      fun callback => Nat.lt_succ_of_le hle
    apply ih
    · unfold deliverSlot
      split
      · exact hle
      · split
        · split
          · exact Nat.le_of_lt (hcall _)
          · exact hle
        · exact hle
    · unfold deliverSlot
      split
      · exact hlt
      · split
        · split
          · exact fun _ => hcall _
          · exact hlt
        · exact hlt

/-- A message is delivered, if only to the default handler. -/
theorem log_deliverMessage {s : Sys κ} (hs : SetUp s) (message : PublishData) :
    s.log.length < (deliverMessage message s).2.log.length := by
  obtain ⟨hle, hlt⟩ := log_deliverSlot message s.client.messageHandlers s.log.length
    (Nat.le_refl _) (r := (mqttFailure, s)) (fun h => absurd rfl h)
  obtain ⟨callback, hcallback⟩ := Option.isSome_iff_exists.mp hs.handler
  simp only [deliverMessage, Prog.run_act, hcallback]
  split
  · exact Nat.lt_succ_of_le hle
  · exact hlt ‹_›

omit [Callback κ] in
theorem log_sendAck {s : Sys κ} (hs : SetUp s) (packettype packetid : Nat) :
    s.log.length < (sendAck packettype packetid s).2.log.length := by
  have hpacket : ∃ packet, mqttSerializeAck s.client.bufSize packettype 0 packetid = .ok packet := by
    rw [mqttSerializeAck, hs.bufSize]
    exact ⟨_, rfl⟩
  obtain ⟨packet, hpacket⟩ := hpacket
  unfold sendAck
  rw [Prog.run_look_bind, hpacket]
  exact Nat.lt_succ_self _

omit [Callback κ] in
theorem log_closeSession (s : Sys κ) : s.log.length < (mqttCloseSession s).2.log.length := by
  rw [closeSession_state]
  exact Nat.lt_succ_self _

/-- A packet for which the `switch` reports success and does nothing is left alone. -/
theorem handle_success {rc : Int} {s : Sys κ} (h : cycleSwitch rc s = (some mqttSuccess, s)) :
    (cycleHandle rc s).2 = s := by
  unfold cycleHandle
  rw [Prog.run_bind_some h, if_pos rfl]
  rfl

/-- A packet that the `switch` does nothing for and reports ends a session that is open. -/
theorem handle_reported {rc r : Int} {s : Sys κ} (h : cycleSwitch rc s = (some r, s))
    (hr : r ≠ mqttSuccess) : (cycleHandle rc s).2 = s ↔ s.client.isconnected = false := by
  unfold cycleHandle
  rw [Prog.run_bind_some h, if_neg hr, Prog.run_look_bind]
  cases hopen : s.client.isconnected with
  | false => exact ⟨fun _ => rfl, fun _ => rfl⟩
  | true =>
    rw [if_pos rfl, Prog.run_bind_some (run_closeSession s)]
    exact ⟨fun heq => absurd heq (ne_of_logged (log_closeSession s)), fun h => by cases h⟩

/-- A packet for which the `switch` enters something into the log. -/
theorem handle_logged {rc : Int} {s : Sys κ}
    (h : s.log.length < (cycleSwitch rc s).2.log.length) : (cycleHandle rc s).2 ≠ s := by
  refine ne_of_logged (Does.log_bind_lt (F := fun _ => True) h fun r => .ite (.pure _) ?_)
  exact .look fun s => .ite (.bind does_mqttCloseSession fun _ => .pure _) (.pure _)

theorem switch_passive {rc : Int} {s : Sys κ} (hs : SetUp s) (h : passive rc) :
    cycleSwitch rc s = (some mqttSuccess, s) := by
  have hping : (s.setClient fun c => { c with pingOutstanding := 0 }) = s := by
    have hc : { s.client with pingOutstanding := 0 } = s.client := by
      rw [← hs.ping]
    simp only [Sys.setClient, hc]
  rcases h with rfl | rfl | rfl | rfl | rfl | rfl
  · rfl
  · rfl
  · rfl
  · rfl
  · rfl
  · exact congrArg (fun s' => (some mqttSuccess, s')) hping

theorem log_cyclePublish {s : Sys κ} (hs : SetUp s)
    (h : (mqttDeserializePublish (s.net.env 0).stale s.client.readbuf).1 = 1) :
    s.log.length < (cyclePublish s).2.log.length := by
  unfold cyclePublish
  rw [Prog.run_look_bind, if_neg (not_not_intro h)]
  refine Does.log_bind_lt (F := fun _ => True) (log_deliverMessage hs _) fun _ => .ite (.pure _) ?_
  exact .ite (does_sendAck _ _) (.ite (does_sendAck _ _) (.pure _))

omit [Callback κ] in
theorem run_cyclePublish_bad {s : Sys κ} [Callback κ]
    (h : (mqttDeserializePublish (s.net.env 0).stale s.client.readbuf).1 ≠ 1) :
    cyclePublish s = (some mqttSuccess, s) := by
  unfold cyclePublish
  rw [Prog.run_look_bind, if_pos h]
  rfl

omit [Callback κ] in
theorem log_cycleAck {s : Sys κ} (hs : SetUp s) (rc : Int)
    (h : (mqttDeserializeAck (s.net.env 0).stale s.client.readbuf).1 = 1) :
    s.log.length < (cycleAck rc s).2.log.length := by
  unfold cycleAck
  rw [Prog.run_look_bind, if_neg (not_not_intro h)]
  exact log_sendAck hs _ _

omit [Callback κ] in
theorem run_cycleAck_bad {s : Sys κ} (rc : Int)
    (h : (mqttDeserializeAck (s.net.env 0).stale s.client.readbuf).1 ≠ 1) :
    cycleAck rc s = (some mqttFailure, s) := by
  unfold cycleAck
  rw [Prog.run_look_bind, if_pos h]
  rfl

/-- **One packet.** A cycle leaves the client as it is after a packet exactly when the
packet is inert. -/
theorem handle_unchanged_iff {rc : Int} {s : Sys κ} (hs : SetUp s) (hpos : 0 < rc) :
    (cycleHandle rc s).2 = s ↔ Inert rc s := by
  by_cases hpassive : passive rc
  · exact ⟨fun _ => .inl hpassive, fun _ => handle_success (switch_passive hs hpassive)⟩
  by_cases hpublish : rc = PUBLISH
  · have hswitch : cycleSwitch rc s = cyclePublish s := by rw [hpublish]; rfl
    by_cases hbad : (mqttDeserializePublish (s.net.env 0).stale s.client.readbuf).1 = 1
    · have hlog := log_cyclePublish hs hbad
      rw [← hswitch] at hlog
      refine ⟨fun h => absurd h (handle_logged hlog), fun h => ?_⟩
      rcases h with h | ⟨-, h⟩ | ⟨h, -⟩
      · exact absurd h hpassive
      · exact absurd hbad h
      · exact absurd hpublish h
    · rw [run_cyclePublish_bad hbad] at hswitch
      exact ⟨fun _ => .inr (.inl ⟨hpublish, hbad⟩), fun _ => handle_success hswitch⟩
  by_cases hack : rc = PUBREC ∨ rc = PUBREL
  · have hswitch : cycleSwitch rc s = cycleAck rc s := by rcases hack with rfl | rfl <;> rfl
    by_cases hbad : (mqttDeserializeAck (s.net.env 0).stale s.client.readbuf).1 = 1
    · have hlog := log_cycleAck hs rc hbad
      rw [← hswitch] at hlog
      refine ⟨fun h => absurd h (handle_logged hlog), fun h => ?_⟩
      rcases h with h | ⟨h, -⟩ | ⟨-, -, h⟩
      · exact absurd h hpassive
      · exact absurd h hpublish
      · exact absurd hbad (h hack)
    · rw [run_cycleAck_bad rc hbad] at hswitch
      rw [handle_reported hswitch (by decide)]
      refine ⟨fun h => .inr (.inr ⟨hpublish, h, fun _ => hbad⟩), fun h => ?_⟩
      rcases h with h | ⟨h, -⟩ | ⟨-, h, -⟩
      · exact absurd h hpassive
      · exact absurd h hpublish
      · exact h
  · -- any other packet is reported as an error
    have hswitch : cycleSwitch rc s = (some rc, s) := by
      simp only [passive, not_or] at hpassive hack
      obtain ⟨h1, h2, h3, h4, h5, h6⟩ := hpassive
      have h0 : rc ≠ 0 := by omega
      simp only [cycleSwitch, h0, h1, h2, h3, h4, h5, h6, hack.1, hack.2, hpublish, if_false,
        or_self]
      rfl
    rw [handle_reported hswitch (by show rc ≠ 0; omega)]
    refine ⟨fun h => .inr (.inr ⟨hpublish, h, fun h => absurd h hack⟩), fun h => ?_⟩
    rcases h with h | ⟨h, -⟩ | ⟨-, h, -⟩
    · exact absurd h hpassive
    · exact absurd h hpublish
    · exact h

/-- In a poll nothing is lost exactly when the packet it drops is inert. -/
theorem handled_iff_inert {packetType : Nat} {s : Sys κ} (hs : SetUp s) :
    HandledAsCycle packetType s ↔ DropsInert packetType s := by
  obtain ⟨rc, hrun, -⟩ := run_readPacket s
  have hs' : SetUp (readPacket s).2 := (Effect.read (F := fun _ => True) s).setUp hs
  have hcycle : (mqttCycle s).2 = (cycleHandle rc (readPacket s).2).2 := by
    rw [mqttCycle, Prog.run_bind_some hrun]
  have hrc : (readPacket s).1 = some rc := by rw [hrun]
  constructor
  · intro h rc' hrc' hpos hne
    obtain rfl : rc = rc' := Option.some.inj (hrc.symm.trans hrc')
    rw [← handle_unchanged_iff hs' hpos, ← hcycle]
    exact (h rc hrc hpos hne).symm
  · intro h rc' hrc' hpos hne
    obtain rfl : rc = rc' := Option.some.inj (hrc.symm.trans hrc')
    rw [hcycle]
    exact ((handle_unchanged_iff hs' hpos).mpr (h rc hrc hpos hne)).symm

theorem setUp_waitPolls {packetType : Nat} {timeout : UInt32} {polls : Nat} {s : Sys κ}
    (hs : SetUp s) : ∀ s' ∈ waitPolls packetType timeout polls s, SetUp s' := by
  induction polls generalizing s with
  | zero => exact fun s' h => by cases h
  | succ polls ih =>
    intro s' h
    have hread : SetUp (readPacket s).2 := (Effect.read (F := fun _ => True) s).setUp hs
    have hnext : SetUp (readPacket s).2.interact.2 :=
      (Effect.interact (F := fun _ => True) _).setUp hread
    obtain ⟨rc, hrun, -⟩ := run_readPacket s
    rw [waitPolls, hrun] at h
    rcases List.mem_cons.mp h with rfl | h
    · exact hs
    · simp only at h
      split at h
      · cases h
      · split at h
        · exact ih hnext s' h
        · cases h

/-! ## Publishing with QoS 2 -/

/-- Since the log was `before`, no `PUBCOMP` has been read without a `PUBREL` having
been sent first. -/
def PubcompAfterPubrel (before after : List (Entry κ)) : Prop :=
  ∀ newer cells since, after = newer ++ .read cells PUBCOMP :: (since ++ before) →
    ∃ packet arrived queued, .sent packet true arrived queued ∈ since ∧
      headerType (packet.headD 0) = PUBREL

/-- What a call that succeeds has left in the log. -/
def Acknowledged (before after : List (Entry κ)) : Prop :=
  ∃ (cells : List Cell) (older : List (Entry κ)) (packet : List UInt8) (arrived : Nat)
    (queued : List Cell),
    after = .read cells PUBCOMP :: older ∧
      ReadsSince (.sent packet true arrived queued :: before) older ∧
      headerType (packet.headD 0) = PUBLISH

omit [Callback κ] in
theorem spec_requestExit {P : Sys κ → Prop} {Q : Int → Sys κ → Prop} {E : Sys κ → Prop} {rc : Int}
    (hfail : ∀ s, Q mqttFailure s) (hrc : ∀ s, P s → Q rc s) :
    Prog.Spec P (requestExit rc) Q E := by
  refine .ite (fun h => ?_) fun _ => .pure _ hrc
  rw [h]
  intro s _
  rw [Prog.run_bind_some (run_closeSession s)]
  exact hfail _

theorem headerType_publish {buflen dup qos retained packetid : Nat} {topicName : MqttString}
    {payload packet : List UInt8}
    (h : mqttSerializePublish buflen dup qos retained packetid topicName payload = .ok packet) :
    headerType (packet.headD 0) = PUBLISH := by
  unfold mqttSerializePublish at h
  simp only at h
  split at h
  · cases h
  · cases h
    exact headerType_headerByte ..

/-- A publication with QoS 2 that succeeds has read a `PUBCOMP`, and sent nothing but
the `PUBLISH`. -/
theorem spec_publish {message : MqttMessage} (hqos : message.qos = 2) (polls : Nat)
    (topicName : List UInt8) (s₀ : Sys κ) :
    Prog.Spec (fun s => s = s₀) (mqttPublish polls topicName message)
      (fun rc s => rc = mqttSuccess → Acknowledged s₀.log s.log) fun _ => True := by
  have hfail : ∀ (P : Sys κ → Prop) rc, rc ≠ mqttSuccess → Prog.Spec P (requestExit rc)
      (fun rc s => rc = mqttSuccess → Acknowledged s₀.log s.log) fun _ => True :=
    fun P rc hrc => spec_requestExit (fun s h => by cases h) fun s _ h => absurd h hrc
  unfold mqttPublish
  refine .look fun s => .ite (fun _ => hfail _ _ (by decide)) fun _ => ?_
  -- taking a packet id leaves no entry
  refine .bind (R := fun _ s => s.log = s₀.log) ?_ fun id => ?_
  · rw [publishId, if_pos (.inr hqos)]
    intro _ h
    obtain ⟨rfl, -⟩ := h
    rfl
  cases hpacket : mqttSerializePublish s.client.bufSize 0 message.qos message.retained id
      (.ofCString topicName) message.payload with
  | error _ => exact hfail _ _ (by decide)
  | ok packet =>
    refine .bind (R := fun rc s => rc = mqttSuccess → ∃ arrived queued,
      s.log = .sent packet true arrived queued :: s₀.log) ?_ fun rc => ?_
    · intro s hs
      cases htx : (s.net.env 0).txOk with
      | true =>
        rw [run_sendPacket_ok packet htx]
        exact fun _ => ⟨_, _, by rw [Sys.sent, Sys.record_log, Sys.interact_log, hs]⟩
      | false =>
        rw [run_sendPacket_refused packet htx]
        exact fun h => by cases h
    refine .ite (fun hrc => hfail _ _ hrc) fun hrc s hs => ?_
    -- the packet is sent, and the wait begins
    obtain ⟨arrived, queued, hlog⟩ := hs (by omega)
    rw [timeoutInit, getSysTimeMs]
    simp only [Prog.run_bind, Prog.run_act, Prog.run_pure]
    rw [if_neg (by omega), if_pos hqos, publishWait]
    have hwait := spec_waitfor (F := fun _ => True) (I := fun _ : Sys κ => True)
      (fun _ _ _ h => h) s.log (by decide : PUBCOMP ≠ 0)
      (s.interact.1.sysTimeMs + replyTimeout) polls
    refine Prog.Spec.bind hwait (fun t => .ite (fun ht => ?_) fun _ => hfail _ _ (by decide))
      s.interact.2 ⟨trivial, .refl _⟩
    refine .look fun s₁ => spec_requestExit (fun s h => by cases h) ?_
    rintro s₂ ⟨⟨-, hread⟩, -⟩ -
    obtain ⟨cells, older, hlog', hsince⟩ := hread ht
    rw [hlog] at hsince
    exact ⟨cells, older, packet, arrived, queued, hlog', hsince, headerType_publish hpacket⟩

/-- Against a broker that sends `PUBCOMP` when it has been sent a `PUBREL`, a
publication with QoS 2 does not succeed. -/
theorem publish_exactly_once_fails {message : MqttMessage} (hqos : message.qos = 2) (polls : Nat)
    (topicName : List UInt8) (s : Sys κ)
    (hbroker : PubcompAfterPubrel s.log (mqttPublish polls topicName message s).2.log) :
    (mqttPublish polls topicName message s).1 ≠ some mqttSuccess := by
  intro hrc
  have hspec := spec_publish hqos polls topicName s s rfl
  generalize mqttPublish polls topicName message s = r at hspec hrc hbroker
  obtain ⟨rc, s'⟩ := r
  cases hrc
  obtain ⟨cells, older, packet, arrived, queued, hlog, ⟨reads, rfl⟩, htype⟩ := hspec rfl
  obtain ⟨packet', arrived', queued', hmem, htype'⟩ := hbroker [] cells
    ((reads.map fun r => .read r.1 r.2) ++ [.sent packet true arrived queued])
    (by simp only [hlog, List.nil_append, List.append_assoc, List.singleton_append])
  -- the only packet sent since is the `PUBLISH` itself
  rcases List.mem_append.mp hmem with h | h
  · obtain ⟨r, -, hr⟩ := List.mem_map.mp h
    cases hr
  · cases List.mem_singleton.mp h
    rw [htype] at htype'
    cases htype'

/-- **Waiting.** Wherever a client that has been initialised comes to wait: every
packet that the wait drops is handled as in a cycle if and only if every one of them
is inert. And from no such state does a publication with QoS 2 succeed against a
broker that sends `PUBCOMP` only when it has been sent a `PUBREL`. -/
theorem wait_handles_iff (condata : ConnectData) (readbuf : List UInt8)
    (defaultMessageHandler : κ) (net : Net) (strs : Nat → List UInt8) {s : Sys κ}
    (hs : Effects (fun _ => True) (sysInit condata readbuf defaultMessageHandler net strs) s)
    (packetType : Nat) (timeout : UInt32) (polls : Nat) :
    ((∀ s' ∈ waitPolls packetType timeout polls s, HandledAsCycle packetType s') ↔
        ∀ s' ∈ waitPolls packetType timeout polls s, DropsInert packetType s') ∧
      ∀ topicName message, message.qos = 2 →
        PubcompAfterPubrel s.log (mqttPublish polls topicName message s).2.log →
        (mqttPublish polls topicName message s).1 ≠ some mqttSuccess := by
  have hset : SetUp s := by
    induction hs with
    | refl => exact setUp_init ..
    | tail _ he ih => exact he.setUp ih
  refine ⟨?_, fun topicName message hqos => publish_exactly_once_fails hqos polls topicName s⟩
  constructor
  · intro h s' hs'
    exact (handled_iff_inert (setUp_waitPolls hset s' hs')).mp (h s' hs')
  · intro h s' hs'
    exact (handled_iff_inert (setUp_waitPolls hset s' hs')).mpr (h s' hs')

/-! A broker that accepts the connection and answers a `PUBLISH` with `PUBREC`. -/

/-- The `CONNACK` comes with the first thing the client asks for, the `PUBREC` with
the ninth; by the thirteenth the time for the reply is up. -/
def pubrecBroker (k : Nat) : EnvStep :=
  if k = 0 then { EnvStep.quiet with arrive := [connackChunk] }
  else if k = 8 then { EnvStep.quiet with arrive := [⟨[80, 2, 0, 1], by decide, by decide⟩] }
  else if k < 12 then EnvStep.quiet
  else { EnvStep.quiet with sysTimeMs := 600 }

def quietInit (env : Nat → EnvStep) : Sys Unit :=
  sysInit connectDataInitializer (List.replicate 1024 0) () (Net.initial env) fun _ => []

def publication : MqttMessage := ⟨2, 0, 0, [104, 105]⟩

/-- The client is connected. -/
def pubrecSys : Sys Unit := (mqttConnect 1 (quietInit pubrecBroker)).2

/-- The client has published and starts to wait. -/
def pubrecWaiting : Sys Unit := (mqttPublish 0 [116] publication pubrecSys).2

theorem pubrecWaiting_reached :
    Effects (fun _ => True) (quietInit pubrecBroker) pubrecWaiting :=
  does_mqttPublish 0 [116] publication (quietInit pubrecBroker) pubrecSys
    (does_mqttConnect 1 (quietInit pubrecBroker) (quietInit pubrecBroker) .refl)

theorem wait_handles_iff_pubrec :
    ((∀ s' ∈ waitPolls PUBCOMP 500 2 pubrecWaiting, HandledAsCycle PUBCOMP s') ↔
        ∀ s' ∈ waitPolls PUBCOMP 500 2 pubrecWaiting, DropsInert PUBCOMP s') ∧
      ∀ topicName message, message.qos = 2 →
        PubcompAfterPubrel pubrecWaiting.log (mqttPublish 2 topicName message pubrecWaiting).2.log →
        (mqttPublish 2 topicName message pubrecWaiting).1 ≠ some mqttSuccess :=
  wait_handles_iff connectDataInitializer (List.replicate 1024 0) () (Net.initial pubrecBroker)
    (fun _ => []) pubrecWaiting_reached PUBCOMP 500 2

/-- The `PUBREC` is read and dropped, no `PUBREL` is sent, and the call fails. -/
theorem wait_drops_pubrec :
    (mqttPublish 2 [116] publication pubrecSys).1 = some mqttFailure ∧
      (packetsSent (mqttPublish 2 [116] publication pubrecSys).2.log).map
        (fun packet => headerType (packet.headD 0)) = [PUBLISH, CONNECT] ∧
      ¬ ∀ s' ∈ waitPolls PUBCOMP 500 2 pubrecWaiting, HandledAsCycle PUBCOMP s' := by
  refine ⟨by decide +kernel, by decide +kernel, fun h => ?_⟩
  have hpoll := h pubrecWaiting List.mem_cons_self PUBREC (by decide +kernel) (by decide) (by decide)
  have hlogs : (readPacket pubrecWaiting).2.log.length ≠ (mqttCycle pubrecWaiting).2.log.length := by
    decide +kernel
  exact hlogs (congrArg (fun s : Sys Unit => s.log.length) hpoll)

end IBoxClient
