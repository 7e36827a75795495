import IBoxClient.MqttClient
import Mathlib.Logic.Relation

/- What a client function can do at all. `Effect` lists the steps that the functions
   of the client consist of; `does_*` says for each function that it consists of
   them. An invariant of the client is then checked once for each kind of step, and
   not once for each function (`Does.keeps`).

   The filters that are entered into the handler table come from a set `F`. A
   session is opened only after a `CONNACK` (`Opens`). -/
namespace IBoxClient

variable {κ : Type}

/-- Of the client, a read changes the read buffer only. -/
theorem readPacket_state (s : Sys κ) : ∃ readbuf net log,
    (readPacket s).2 = ⟨{ s.client with readbuf := readbuf }, net, s.strs, log⟩ := by
  simp only [readPacket, Prog.run_act]
  split <;> exact ⟨_, _, _, rfl⟩

theorem bufSize_readPacket (s : Sys κ) :
    (readPacket s).2.client.bufSize = s.client.bufSize := by
  obtain ⟨readbuf, net, log, hstate⟩ := readPacket_state s
  rw [hstate]

/-- What closing a session does. -/
theorem closeSession_state (s : Sys κ) :
    (mqttCloseSession s).2 = (s.setClient fun c => { c with
      pingOutstanding := 0
      isconnected := false
      messageHandlers :=
        if c.cleansession then c.messageHandlers.map fun slot => { slot with topicFilter := none }
        else c.messageHandlers }).record (.closed s.net.stream.length s.net.queue.contents) := by
  rw [mqttCloseSession, Prog.run_change_bind, Prog.run_look_bind]
  cases hclean : s.client.cleansession with
  | true =>
    rw [if_pos (by simpa using hclean), mqttCleanSession, Prog.run_change]
    simp only [Sys.setClient, Sys.record, hclean, if_true]
  | false =>
    rw [if_neg (by simp [hclean]), Prog.run_pure]
    simp [Sys.setClient, Sys.record, hclean]

theorem run_closeSession (s : Sys κ) :
    mqttCloseSession s = (some (), (mqttCloseSession s).2) := by
  rw [mqttCloseSession, Prog.run_change_bind, Prog.run_look_bind]
  split <;> rfl

/-- Setting a handler changes the table only, and there one slot at most. -/
theorem setMessageHandler_state (filter : Nat) (callback : Option κ) (s : Sys κ) :
    ∃ slots, (mqttSetMessageHandler filter callback s).2 =
        s.setClient (fun c => { c with messageHandlers := slots }) ∧
      ∀ slot ∈ slots, slot ∈ s.client.messageHandlers ∨ slot = ⟨none, none⟩ ∨
        slot = ⟨some filter, callback⟩ := by
  have hsame : ∀ slot ∈ s.client.messageHandlers, slot ∈ s.client.messageHandlers ∨
      slot = ⟨none, none⟩ ∨ slot = ⟨some filter, callback⟩ := fun slot h => .inl h
  have hset : ∀ i v, (v = ⟨none, none⟩ ∨ v = ⟨some filter, callback⟩) →
      ∀ slot ∈ s.client.messageHandlers.set i v, slot ∈ s.client.messageHandlers ∨
        slot = ⟨none, none⟩ ∨ slot = ⟨some filter, callback⟩ := by
    intro i v hv slot hslot
    rcases List.mem_or_eq_of_mem_set hslot with h | rfl
    · exact .inl h
    · exact .inr hv
  simp only [mqttSetMessageHandler, Prog.run_act]
  split
  · exact ⟨_, rfl, hset _ _ (.inl rfl)⟩
  · exact ⟨_, rfl, hset _ _ (.inr rfl)⟩
  · exact ⟨_, rfl, hsame⟩
  · split
    · exact ⟨_, rfl, hset _ _ (.inr rfl)⟩
    · exact ⟨_, rfl, hsame⟩

/-- A packet is a `CONNECT`. -/
def IsConnect (packet : List UInt8) : Prop := packet.head? = some (headerByte CONNECT 0 0 0)

instance : DecidablePred IsConnect := fun packet =>
  inferInstanceAs (Decidable (packet.head? = some (headerByte CONNECT 0 0 0)))

/-- The last thing done was to send a `CONNECT`. -/
def JustSent (log : List (Entry κ)) : Prop :=
  ∃ (packet : List UInt8) (arrived : Nat) (queued : List Cell) (earlier : List (Entry κ)),
    log = .sent packet true arrived queued :: earlier ∧ IsConnect packet

/-- Nothing but reads has been entered into the log since it was `base`. -/
def ReadsSince (base log : List (Entry κ)) : Prop :=
  ∃ reads : List (List Cell × Int), log = (reads.map fun r => .read r.1 r.2) ++ base

theorem ReadsSince.refl (base : List (Entry κ)) : ReadsSince base base := ⟨[], rfl⟩

theorem ReadsSince.cons {base log : List (Entry κ)} (h : ReadsSince base log) (cells : List Cell)
    (rc : Int) : ReadsSince base (.read cells rc :: log) := by
  obtain ⟨reads, rfl⟩ := h
  exact ⟨(cells, rc) :: reads, rfl⟩

/-- The last thing read is a `CONNACK`, and nothing but reads was done since a
`CONNECT` was sent. -/
def Opens (log : List (Entry κ)) : Prop :=
  ∃ (cells : List Cell) (older sent : List (Entry κ)),
    log = .read cells CONNACK :: older ∧ ReadsSince sent older ∧ JustSent sent

variable [Callback κ]

/-- One step of a client function. -/
inductive Effect (F : Nat → Prop) : Sys κ → Sys κ → Prop where
  | interact (s : Sys κ) : Effect F s s.interact.2
  | read (s : Sys κ) : Effect F s (readPacket s).2
  | send (packet : List UInt8) (s : Sys κ) : Effect F s (sendPacket packet s).2
  | call (callback : κ) (message : PublishData) (s : Sys κ) : Effect F s (s.call callback message)
  | packetId (s : Sys κ) : Effect F s (getNextPacketId s).2
  | pinged (now : UInt32) (s : Sys κ) :
    Effect F s (s.setClient fun c => { c with tickPing := now, pingOutstanding := 0 })
  | ponged (s : Sys κ) : Effect F s (s.setClient fun c => { c with pingOutstanding := 0 })
  | ticked (now : UInt32) (s : Sys κ) : Effect F s (s.setClient fun c => { c with tickPing := now })
  | close (s : Sys κ) : Effect F s (mqttCloseSession s).2
  | handler (filter : Nat) (callback : Option κ) (s : Sys κ) (h : F filter) :
    Effect F s (mqttSetMessageHandler filter callback s).2
  | options (interval : Nat) (clean : Bool) (s : Sys κ) :
    Effect F s (s.setClient fun c => { c with keepAliveInterval := interval, cleansession := clean })
  | opened (s : Sys κ) (h : Opens s.log) :
    Effect F s ((s.setClient fun c =>
      { c with isconnected := true, pingOutstanding := 0 }).record .opened)

/-- Steps one after another. -/
abbrev Effects (F : Nat → Prop) : Sys κ → Sys κ → Prop := Relation.ReflTransGen (Effect F)

/-- A program consists of such steps. -/
def Does {α : Type} (F : Nat → Prop) (p : Prog (Sys κ) α) : Prop :=
  ∀ s₀, Prog.Keeps (Effects F s₀) p

variable {F : Nat → Prop}

namespace Does

variable {α β : Type} {p : Prog (Sys κ) α}

/-- What every step keeps, the program keeps. -/
theorem keeps {I : Sys κ → Prop} (h : Does F p) (hI : ∀ s s', Effect F s s' → I s → I s') :
    Prog.Keeps I p := by
  intro s hs
  have hsteps : Effects F s (p s).2 := h s s .refl
  generalize (p s).2 = s' at hsteps ⊢
  induction hsteps with
  | refl => exact hs
  | tail _ hstep ih => exact hI _ _ hstep ih

theorem effect {f : Sys κ → α × Sys κ} (h : ∀ s, Effect F s (f s).2) : Does F (Prog.act f) :=
  fun _ => .act fun s hs => hs.tail (h s)

theorem change {f : Sys κ → Sys κ} (h : ∀ s, Effect F s (f s)) : Does F (Prog.change f) :=
  fun _ => .change fun s hs => hs.tail (h s)

theorem pure (a : α) : Does F (Pure.pure a : Prog (Sys κ) α) := fun _ => .pure a

theorem bind {f : α → Prog (Sys κ) β} (hp : Does F p) (hf : ∀ a, Does F (f a)) :
    Does F (p >>= f) := fun s₀ => (hp s₀).bind fun a => hf a s₀

theorem look {f : Sys κ → Prog (Sys κ) β} (hf : ∀ s, Does F (f s)) :
    Does F (Prog.look >>= f) := fun s₀ => Prog.Keeps.look.bind fun s => hf s s₀

theorem ite {c : Prop} [Decidable c] {q : Prog (Sys κ) α} (hp : Does F p) (hq : Does F q) :
    Does F (if c then p else q) := fun s₀ => .ite (fun _ => hp s₀) fun _ => hq s₀

end Does

/-- What has been done stays in the log. -/
theorem Effect.log_suffix {s s' : Sys κ} (h : Effect F s s') : s.log <:+ s'.log := by
  cases h with
  | interact => exact List.suffix_rfl
  | read =>
    obtain ⟨rc, -, ⟨hlog, -⟩ | ⟨cells, hlog⟩⟩ := run_readPacket s
    · exact ⟨[], hlog.symm⟩
    · rw [hlog]
      exact List.suffix_cons _ _
  | send => exact List.suffix_cons _ _
  | call => exact List.suffix_cons _ _
  | packetId => exact List.suffix_rfl
  | pinged => exact List.suffix_rfl
  | ponged => exact List.suffix_rfl
  | ticked => exact List.suffix_rfl
  | close =>
    rw [closeSession_state]
    exact List.suffix_cons _ _
  | handler filter callback =>
    obtain ⟨slots, hslots, -⟩ := setMessageHandler_state filter callback s
    rw [hslots]
    exact List.suffix_rfl
  | options => exact List.suffix_rfl
  | opened => exact List.suffix_cons _ _

theorem Does.log_suffix {α : Type} {p : Prog (Sys κ) α} (h : Does F p) (s : Sys κ) :
    s.log <:+ (p s).2.log :=
  h.keeps (I := fun s' => s.log <:+ s'.log) (fun _ _ he hs => hs.trans he.log_suffix) s
    List.suffix_rfl

/-- What the first part of a program has entered into the log is there at the end. -/
theorem Does.log_bind_lt {α β : Type} {p : Prog (Sys κ) α} {f : α → Prog (Sys κ) β} {s : Sys κ}
    {n : Nat} (hp : n < (p s).2.log.length) (hf : ∀ a, Does F (f a)) :
    n < ((p >>= f) s).2.log.length := by
  rw [Prog.run_bind]
  generalize p s = r at hp ⊢
  obtain ⟨r, s'⟩ := r
  cases r with
  | none => exact hp
  | some a => exact Nat.lt_of_lt_of_le hp ((hf a).log_suffix s').length_le

/-- What `MQTT_init` has set up stays, and `ping_outstanding` is never set. -/
structure SetUp (s : Sys κ) : Prop where
  bufSize : s.client.bufSize = 1024
  readbufSize : s.client.readbufSize = 1024
  handler : s.client.defaultMessageHandler.isSome = true
  ping : s.client.pingOutstanding = 0

theorem Effect.setUp {s s' : Sys κ} (h : Effect F s s') (hs : SetUp s) : SetUp s' := by
  obtain ⟨hbuf, hread, hhandler, hping⟩ := hs
  cases h with
  | interact => exact ⟨hbuf, hread, hhandler, hping⟩
  | read =>
    obtain ⟨readbuf, net, log, hstate⟩ := readPacket_state s
    rw [hstate]
    exact ⟨hbuf, hread, hhandler, hping⟩
  | send => exact ⟨hbuf, hread, hhandler, hping⟩
  | call => exact ⟨hbuf, hread, hhandler, hping⟩
  | packetId => exact ⟨hbuf, hread, hhandler, hping⟩
  | pinged => exact ⟨hbuf, hread, hhandler, rfl⟩
  | ponged => exact ⟨hbuf, hread, hhandler, rfl⟩
  | ticked => exact ⟨hbuf, hread, hhandler, hping⟩
  | close =>
    rw [closeSession_state]
    exact ⟨hbuf, hread, hhandler, rfl⟩
  | handler filter callback =>
    obtain ⟨slots, hslots, -⟩ := setMessageHandler_state filter callback s
    rw [hslots]
    exact ⟨hbuf, hread, hhandler, hping⟩
  | options => exact ⟨hbuf, hread, hhandler, hping⟩
  | opened => exact ⟨hbuf, hread, hhandler, rfl⟩

/-- What no step changes: the memory behind the filters, and the default callback. -/
theorem Effect.fixed {s s' : Sys κ} (h : Effect F s s') :
    s'.strs = s.strs ∧ s'.client.defaultMessageHandler = s.client.defaultMessageHandler := by
  cases h with
  | interact => exact ⟨rfl, rfl⟩
  | read =>
    obtain ⟨readbuf, net, log, hstate⟩ := readPacket_state s
    rw [hstate]
    exact ⟨rfl, rfl⟩
  | send => exact ⟨rfl, rfl⟩
  | call => exact ⟨rfl, rfl⟩
  | packetId => exact ⟨rfl, rfl⟩
  | pinged => exact ⟨rfl, rfl⟩
  | ponged => exact ⟨rfl, rfl⟩
  | ticked => exact ⟨rfl, rfl⟩
  | close =>
    rw [closeSession_state]
    exact ⟨rfl, rfl⟩
  | handler filter callback =>
    obtain ⟨slots, hslots, -⟩ := setMessageHandler_state filter callback s
    rw [hslots]
    exact ⟨rfl, rfl⟩
  | options => exact ⟨rfl, rfl⟩
  | opened => exact ⟨rfl, rfl⟩

/-- The filters in the handler table come from `F`. -/
def FiltersIn (F : Nat → Prop) (s : Sys κ) : Prop :=
  ∀ slot ∈ s.client.messageHandlers, ∀ filter, slot.topicFilter = some filter → F filter

theorem Effect.filtersIn {s s' : Sys κ} (h : Effect F s s') (hs : FiltersIn F s) :
    FiltersIn F s' := by
  cases h with
  | interact => exact hs
  | read =>
    obtain ⟨readbuf, net, log, hstate⟩ := readPacket_state s
    rw [hstate]
    exact hs
  | send => exact hs
  | call => exact hs
  | packetId => exact hs
  | pinged => exact hs
  | ponged => exact hs
  | ticked => exact hs
  | close =>
    rw [closeSession_state]
    intro slot hslot filter hfilter
    simp only [Sys.record_client, Sys.setClient_client] at hslot
    split at hslot
    -- a clean session has taken the filters away
    · obtain ⟨old, -, rfl⟩ := List.mem_map.mp hslot
      cases hfilter
    · exact hs slot hslot filter hfilter
  | handler filter callback s hF =>
    obtain ⟨slots, hslots, hmem⟩ := setMessageHandler_state filter callback s
    rw [hslots]
    intro slot hslot f hf
    rcases hmem slot hslot with hold | rfl | rfl
    · exact hs slot hold f hf
    · cases hf
    · cases hf
      exact hF
  | options => exact hs
  | opened => exact hs

theorem Effects.fixed {s s' : Sys κ} (h : Effects F s s') :
    s'.strs = s.strs ∧ s'.client.defaultMessageHandler = s.client.defaultMessageHandler := by
  induction h with
  | refl => exact ⟨rfl, rfl⟩
  | tail _ hstep ih => exact ⟨hstep.fixed.1.trans ih.1, hstep.fixed.2.trans ih.2⟩

theorem Effects.filtersIn {s s' : Sys κ} (h : Effects F s s') (hs : FiltersIn F s) :
    FiltersIn F s' := by
  induction h with
  | refl => exact hs
  | tail _ hstep ih => exact hstep.filtersIn ih

/-- The system with a client that has just been initialised. -/
def sysInit (condata : ConnectData) (readbuf : List UInt8) (defaultMessageHandler : κ) (net : Net)
    (strs : Nat → List UInt8) : Sys κ :=
  ⟨clientInit condata readbuf defaultMessageHandler, net, strs, []⟩

/-- The answer of a broker that accepts the connection. -/
def connackChunk : Chunk := ⟨[32, 2, 0, 0], by decide, by decide⟩

omit [Callback κ] in
theorem setUp_init (condata : ConnectData) (readbuf : List UInt8) (defaultMessageHandler : κ)
    (net : Net) (strs : Nat → List UInt8) :
    SetUp (sysInit condata readbuf defaultMessageHandler net strs) := ⟨rfl, rfl, rfl, rfl⟩

theorem does_getSysTimeMs : Does F (getSysTimeMs : Prog (Sys κ) UInt32) := .effect .interact

theorem does_timeoutInit (count : UInt32) : Does F (timeoutInit count : Prog (Sys κ) UInt32) :=
  .bind does_getSysTimeMs fun _ => .pure _

theorem does_readPacket : Does F (readPacket : Prog (Sys κ) Int) := .effect .read

theorem does_sendPacket (packet : List UInt8) : Does F (sendPacket packet : Prog (Sys κ) Int) :=
  .effect (.send packet)

theorem does_keepalive : Does F (keepalive : Prog (Sys κ) Int) := by
  apply Does.look
  intro s
  refine .ite (.pure _) (.ite (.pure _) ?_)
  cases mqttSerializePingreq s.client.bufSize with
  | error _ => exact .pure _
  | ok packet =>
    refine .bind (does_sendPacket packet) fun rc => .ite ?_ (.pure _)
    exact .bind does_getSysTimeMs fun now => .bind (.change (.pinged now)) fun _ => .pure _

theorem does_mqttCloseSession : Does F (mqttCloseSession : Prog (Sys κ) Unit) :=
  fun _ s hs => hs.tail (.close s)

theorem effects_deliver (message : PublishData) (slots : List (MessageHandlers κ)) (s₀ : Sys κ)
    (r : Int × Sys κ) (h : Effects F s₀ r.2) :
    Effects F s₀ (slots.foldl (deliverSlot message) r).2 := by
  induction slots generalizing r with
  | nil => exact h
  | cons slot slots ih =>
    apply ih
    unfold deliverSlot
    split
    · exact h
    · split
      · split
        · exact h.tail (.call _ message r.2)
        · exact h
      · exact h

theorem does_deliverMessage (message : PublishData) :
    Does F (deliverMessage message : Prog (Sys κ) Int) := by
  refine fun s₀ => .act fun s hs => ?_
  have hslots := effects_deliver message s.client.messageHandlers s₀ (mqttFailure, s) hs
  simp only
  split
  · split
    · exact hslots.tail (.call _ message _)
    · exact hslots
  · exact hslots

theorem does_sendAck (packettype packetid : Nat) :
    Does F (sendAck packettype packetid : Prog (Sys κ) Int) := by
  apply Does.look
  intro s
  cases mqttSerializeAck s.client.bufSize packettype 0 packetid with
  | error _ => exact .pure _
  | ok packet => exact does_sendPacket packet

theorem does_cyclePublish : Does F (cyclePublish : Prog (Sys κ) Int) := by
  apply Does.look
  intro s
  refine .ite (.pure _) (.bind (does_deliverMessage _) fun _ => .ite (.pure _) ?_)
  exact .ite (does_sendAck _ _) (.ite (does_sendAck _ _) (.pure _))

theorem does_cycleAck (packetType : Int) : Does F (cycleAck packetType : Prog (Sys κ) Int) := by
  apply Does.look
  intro s
  exact .ite (.pure _) (does_sendAck _ _)

theorem does_cycleSwitch (packetType : Int) :
    Does F (cycleSwitch packetType : Prog (Sys κ) Int) := by
  refine .ite (.pure _) (.ite (.pure _) (.ite does_cyclePublish (.ite (does_cycleAck _) ?_)))
  exact .ite (.pure _) (.ite (.bind (.change .ponged) fun _ => .pure _) (.pure _))

theorem does_cycleHandle (packetType : Int) :
    Does F (cycleHandle packetType : Prog (Sys κ) Int) := by
  refine .bind (does_cycleSwitch _) fun rc => .ite (.pure _) (.look fun s => .ite ?_ (.pure _))
  exact .bind does_mqttCloseSession fun _ => .pure _

theorem does_mqttCycle : Does F (mqttCycle : Prog (Sys κ) Int) :=
  .bind does_readPacket fun _ => does_cycleHandle _

theorem does_waitfor (packetType : Nat) (timeout : UInt32) (polls : Nat) :
    Does F (waitfor packetType timeout polls : Prog (Sys κ) Int) := by
  induction polls with
  | zero => exact fun _ => .pause
  | succ polls ih =>
    refine .bind does_readPacket fun rc => .ite (.pure _) ?_
    exact .bind does_getSysTimeMs fun now => .ite ih (.pure _)

theorem does_requestExit (rc : Int) : Does F (requestExit rc : Prog (Sys κ) Int) :=
  .ite (.bind does_mqttCloseSession fun _ => .pure _) (.pure _)

theorem does_getNextPacketId : Does F (getNextPacketId : Prog (Sys κ) Nat) := .effect .packetId

theorem does_mqttSetMessageHandler {filter : Nat} (hf : F filter) (callback : Option κ) :
    Does F (mqttSetMessageHandler filter callback) := .effect fun s => .handler filter callback s hf

theorem does_mqttSubscribe (polls : Nat) {filter : Nat} (hf : F filter) (qos : Nat) (callback : κ) :
    Does F (mqttSubscribe polls filter qos callback) := by
  apply Does.look
  intro s
  refine .ite (does_requestExit _) (.bind does_getNextPacketId fun id => ?_)
  cases mqttSerializeSubscribe s.client.bufSize 0 id (.ofCString (s.strs filter)) qos with
  | error _ => exact does_requestExit _
  | ok packet =>
    refine .bind (does_sendPacket packet) fun rc => .ite (does_requestExit _) ?_
    refine .bind (does_timeoutInit _) fun timeout => .bind (does_waitfor _ _ _) fun t => ?_
    refine .ite (.look fun s => .ite ?_ (does_requestExit _)) (does_requestExit _)
    exact .bind (does_mqttSetMessageHandler hf _) fun rc => does_requestExit rc

theorem does_mqttUnsubscribe (polls : Nat) {filter : Nat} (hf : F filter) :
    Does F (mqttUnsubscribe polls filter : Prog (Sys κ) Int) := by
  apply Does.look
  intro s
  refine .ite (does_requestExit _) (.bind does_getNextPacketId fun id => ?_)
  cases mqttSerializeUnsubscribe s.client.bufSize 0 id (.ofCString (s.strs filter)) with
  | error _ => exact does_requestExit _
  | ok packet =>
    refine .bind (does_sendPacket packet) fun rc => .ite (does_requestExit _) ?_
    refine .bind (does_timeoutInit _) fun timeout => .bind (does_waitfor _ _ _) fun t => ?_
    refine .ite (.look fun s => .ite ?_ (does_requestExit _)) (does_requestExit _)
    exact .bind (does_mqttSetMessageHandler hf _) fun _ => does_requestExit rc

theorem does_publishWait (polls ack : Nat) (timeout : UInt32) (rc : Int) :
    Does F (publishWait polls ack timeout rc : Prog (Sys κ) Int) := by
  refine .bind (does_waitfor _ _ _) fun t => .ite (.look fun s => ?_) (does_requestExit _)
  exact does_requestExit _

theorem does_mqttPublish (polls : Nat) (topicName : List UInt8) (message : MqttMessage) :
    Does F (mqttPublish polls topicName message : Prog (Sys κ) Int) := by
  apply Does.look
  intro s
  refine .ite (does_requestExit _) (.bind (.ite does_getNextPacketId (.pure _)) fun id => ?_)
  cases mqttSerializePublish s.client.bufSize 0 message.qos message.retained id
      (.ofCString topicName) message.payload with
  | error _ => exact does_requestExit _
  | ok packet =>
    refine .bind (does_sendPacket packet) fun rc => .ite (does_requestExit _) ?_
    refine .bind (does_timeoutInit _) fun timeout => .ite (does_publishWait _ _ _ _) ?_
    exact .ite (does_publishWait _ _ _ _) (does_requestExit _)

theorem does_mqttDisconnect : Does F (mqttDisconnect : Prog (Sys κ) Int) := by
  apply Does.look
  intro s
  cases mqttSerializeDisconnect s.client.bufSize with
  | error _ => exact .bind does_mqttCloseSession fun _ => .pure _
  | ok packet =>
    refine .bind (does_sendPacket packet) fun rc => ?_
    exact .bind does_mqttCloseSession fun _ => .pure _

/-! ## Connecting -/

/-- A packet that a wait returns is the last thing read, and the wait has done
nothing but reading. -/
theorem spec_waitfor {I : Sys κ → Prop} (hI : ∀ s s', Effect F s s' → I s → I s')
    (base : List (Entry κ)) {packetType : Nat} (hpos : packetType ≠ 0) (timeout : UInt32)
    (polls : Nat) :
    Prog.Spec (fun s => I s ∧ ReadsSince base s.log) (waitfor packetType timeout polls)
      (fun t s => I s ∧ (t = packetType → ∃ cells older,
        s.log = .read cells packetType :: older ∧ ReadsSince base older)) I := by
  induction polls with
  | zero => exact .pause fun s hs => hs.1
  | succ polls ih =>
    intro s h
    obtain ⟨hs, hlog⟩ := h
    obtain ⟨rc, hrun, hread⟩ := run_readPacket s
    have hs' : I (readPacket s).2 := hI _ _ (.read s) hs
    rw [waitfor, Prog.run_bind_some hrun]
    by_cases hrc : rc = packetType
    · rw [if_pos hrc]
      refine ⟨hs', fun _ => ?_⟩
      rcases hread with ⟨-, h0⟩ | ⟨cells, hlog'⟩
      · omega
      · exact ⟨cells, s.log, by rw [hlog', hrc], hlog⟩
    · -- nothing awaited was read: the log has at most grown by a read
      have hlog' : ReadsSince base (readPacket s).2.log := by
        rcases hread with ⟨hl, -⟩ | ⟨cells, hl⟩
        · rw [hl]
          exact hlog
        · rw [hl]
          exact hlog.cons cells rc
      rw [if_neg hrc, getSysTimeMs, Prog.run_act_bind]
      by_cases hleft : isTimeout timeout (readPacket s).2.interact.1.sysTimeMs ≠ 0
      · rw [if_pos hleft]
        exact ih _ ⟨hI _ _ (.interact _) hs', hlog'⟩
      · rw [if_neg hleft]
        exact ⟨hI _ _ (.interact _) hs', fun h => absurd h hrc⟩

theorem spec_sendPacket {s₀ : Sys κ} {packet : List UInt8} (hconnect : IsConnect packet) :
    Prog.Spec (Effects F s₀) (sendPacket packet)
      (fun rc s => Effects F s₀ s ∧ (rc = mqttSuccess → JustSent s.log)) (Effects F s₀) := by
  refine .act fun s hs => ⟨hs.tail (.send packet s), fun hrc => ?_⟩
  have haccepted : s.interact.1.txOk = true := by
    by_contra h
    simp [h] at hrc
  simp only [Sys.record, haccepted]
  exact ⟨packet, _, _, _, rfl, hconnect⟩

theorem isConnect_serialize {buflen : Nat} {options : ConnectData} {packet : List UInt8}
    (h : mqttSerializeConnect buflen options = .ok packet) : IsConnect packet := by
  unfold mqttSerializeConnect at h
  simp only at h
  split at h
  · cases h
  · cases h
    rfl

/-- A session is opened only where a `CONNACK` has been read. -/
theorem does_connectExit {s₀ : Sys κ} (rc : Int) :
    Prog.Spec (fun s => Effects F s₀ s ∧ (rc = mqttSuccess → Opens s.log)) (connectExit rc)
      (fun _ => Effects F s₀) (Effects F s₀) := by
  refine .ite (fun hrc => ?_) fun _ => .pure _ fun s hs => hs.1
  exact .bind (.act fun s hs => hs.1.tail (.opened s (hs.2 hrc))) fun _ => .pure _ fun _ hs => hs

theorem does_mqttConnectWithResults (polls : Nat) (options : Option ConnectData) :
    Does F (mqttConnectWithResults polls options : Prog (Sys κ) Int) := by
  intro s₀
  apply Prog.Keeps.of_spec
  have hfail : ∀ rc, rc ≠ mqttSuccess →
      Prog.Spec (Effects F s₀) (connectExit rc) (fun _ => Effects F s₀) (Effects F s₀) :=
    fun rc hrc => (does_connectExit rc).weaken fun s hs => ⟨hs, fun h => absurd h hrc⟩
  unfold mqttConnectWithResults
  refine .look fun s => ?_
  refine .ite (fun _ => (hfail _ (by decide)).weaken fun _ hs => hs.1) fun _ => ?_
  refine .bind (R := fun _ => Effects F s₀) (.act fun s hs => hs.1.tail (.options _ _ s)) fun _ => ?_
  cases hpacket : mqttSerializeConnect s.client.bufSize (options.getD connectDataInitializer) with
  | error _ => exact hfail _ (by decide)
  | ok packet =>
    refine .bind (spec_sendPacket (isConnect_serialize hpacket)) fun rc => .ite (fun hrc => ?_) fun hrc => ?_
    · exact (hfail rc hrc).weaken fun _ hs => hs.1
    · -- the packet is sent: from here on there are only reads until the end
      intro s hs
      obtain ⟨hs, hsent⟩ := hs
      have hsent := hsent (by omega : rc = mqttSuccess)
      have hwait := spec_waitfor (F := F) (fun _ _ he (h : Effects F s₀ _) => h.tail he) s.log
        (by decide : CONNACK ≠ 0) (s.interact.1.sysTimeMs + connectTimeout) polls
      refine Prog.Spec.bind hwait (fun t => .ite (fun ht => ?_) fun ht => ?_) s.interact.2
        ⟨hs.tail (.interact s), .refl _⟩
      · refine .look fun s' => (does_connectExit _).weaken ?_
        intro s' h
        obtain ⟨⟨hs', hread⟩, -⟩ := h
        obtain ⟨cells, older, hlog, hsince⟩ := hread ht
        exact ⟨hs', fun _ => ⟨cells, older, s.log, hlog, hsince, hsent⟩⟩
      · exact (hfail _ (by decide)).weaken fun _ hs => hs.1

theorem does_mqttConnect (polls : Nat) : Does F (mqttConnect polls : Prog (Sys κ) Int) :=
  .look fun _ => does_mqttConnectWithResults _ _

theorem does_run (call : ClientCall κ) : Does (fun _ => True) call.run := by
  cases call with
  | keepalive => exact does_keepalive
  | cycle => exact does_mqttCycle
  | connect polls => exact does_mqttConnect polls
  | subscribe polls filter qos callback => exact does_mqttSubscribe polls trivial qos callback
  | unsubscribe polls filter => exact does_mqttUnsubscribe polls trivial
  | publish polls topicName message => exact does_mqttPublish polls topicName message
  | disconnect => exact does_mqttDisconnect

end IBoxClient
