import IBoxClient.Lib.Prog
import IBoxClient.NetLink

/- The MQTT client (`MQTTClient_iBox.c`) over the network of `NetLink`.

   Each function is a program on the state `Sys` of the client and its surroundings.
   The only loop is the one of `waitfor`; a call that waits is granted a number of
   polls and pauses when they are used up.

   What a client function does to the outside is appended to `log`: the reads of the
   FIFO, the packets given to `net_tx_write`, the callbacks, the opening and the
   closing of the session. The last entry comes first.

   A topic filter is kept as a pointer. `strs` is the memory it points into: the C
   string at each address. -/
namespace IBoxClient

/-- `MQTT_SUCCESS` and `MQTT_FAILURE`. -/
abbrev mqttSuccess : Int := 0
abbrev mqttFailure : Int := -1

/-- `MAX_MESSAGE_HANDLERS`. -/
abbrev maxMessageHandlers : Nat := 5

/-- `RT_TICK_PER_SECOND` is 100: the reply timeouts, in ticks. -/
abbrev connectTimeout : UInt32 := 1000
abbrev replyTimeout : UInt32 := 500

/-- `struct MessageHandlers`. -/
structure MessageHandlers (κ : Type) where
  topicFilter : Option Nat
  callback : Option κ
  deriving DecidableEq

/-- The callbacks of a program. All that one of them does to the client is to write
into its read buffer. -/
class Callback (κ : Type) where
  writes : κ → PublishData → List UInt8 → List UInt8

/-- A program with one callback, which only looks at the message. -/
instance : Callback Unit := ⟨fun _ _ readbuf => readbuf⟩

variable {κ : Type}

/-- `MQTTClient`. -/
structure MqttClient (κ : Type) where
  condata : ConnectData
  nextPacketid : Nat
  commandTimeoutMs : UInt32
  bufSize : Nat
  readbufSize : Nat
  readbuf : List UInt8
  keepAliveInterval : Nat
  pingOutstanding : Nat
  isconnected : Bool
  cleansession : Bool
  tickPing : UInt32
  messageHandlers : List (MessageHandlers κ)
  defaultMessageHandler : Option κ

/-- The client after `MQTT_init`; `readbuf` is what the allocated buffer holds, all
that is not set is zero. -/
def clientInit (condata : ConnectData) (readbuf : List UInt8) (defaultMessageHandler : κ) :
    MqttClient κ where
  condata := condata
  nextPacketid := 0
  commandTimeoutMs := 0
  bufSize := 1024
  readbufSize := 1024
  readbuf := readbuf
  keepAliveInterval := 0
  pingOutstanding := 0
  isconnected := false
  cleansession := false
  tickPing := 0
  messageHandlers := List.replicate maxMessageHandlers ⟨none, none⟩
  defaultMessageHandler := some defaultMessageHandler

/-- What a client function does to the outside. With a packet sent and a session
closed goes how much of the inbound stream has arrived, and what of it is queued. -/
inductive Entry (κ : Type) where
  | read (cells : List Cell) (rc : Int)
  | sent (packet : List UInt8) (accepted : Bool) (arrived : Nat) (queued : List Cell)
  | delivered (callback : κ) (message : PublishData)
  | opened
  | closed (arrived : Nat) (queued : List Cell)
  deriving DecidableEq

structure Sys (κ : Type) where
  client : MqttClient κ
  net : Net
  strs : Nat → List UInt8
  log : List (Entry κ)

namespace Sys

/-- Asks the environment. -/
def interact (s : Sys κ) : EnvStep × Sys κ := (s.net.interact.1, { s with net := s.net.interact.2 })

def setClient (s : Sys κ) (f : MqttClient κ → MqttClient κ) : Sys κ := { s with client := f s.client }

def record (s : Sys κ) (e : Entry κ) : Sys κ := { s with log := e :: s.log }

@[simp] theorem interact_client (s : Sys κ) : s.interact.2.client = s.client := rfl

@[simp] theorem interact_strs (s : Sys κ) : s.interact.2.strs = s.strs := rfl

@[simp] theorem interact_log (s : Sys κ) : s.interact.2.log = s.log := rfl

@[simp] theorem setClient_client (s : Sys κ) (f : MqttClient κ → MqttClient κ) :
    (s.setClient f).client = f s.client := rfl

@[simp] theorem setClient_net (s : Sys κ) (f : MqttClient κ → MqttClient κ) :
    (s.setClient f).net = s.net := rfl

@[simp] theorem setClient_strs (s : Sys κ) (f : MqttClient κ → MqttClient κ) :
    (s.setClient f).strs = s.strs := rfl

@[simp] theorem setClient_log (s : Sys κ) (f : MqttClient κ → MqttClient κ) :
    (s.setClient f).log = s.log := rfl

@[simp] theorem record_client (s : Sys κ) (e : Entry κ) : (s.record e).client = s.client := rfl

@[simp] theorem record_net (s : Sys κ) (e : Entry κ) : (s.record e).net = s.net := rfl

@[simp] theorem record_strs (s : Sys κ) (e : Entry κ) : (s.record e).strs = s.strs := rfl

@[simp] theorem record_log (s : Sys κ) (e : Entry κ) : (s.record e).log = e :: s.log := rfl

end Sys

def getSysTimeMs : Prog (Sys κ) UInt32 := .act fun s => (s.interact.1.sysTimeMs, s.interact.2)

def getSysTimeS : Prog (Sys κ) UInt32 := .act fun s => (s.interact.1.sysTimeS, s.interact.2)

/-- `timeout_init`: the tick at which the time is up. -/
def timeoutInit (count : UInt32) : Prog (Sys κ) UInt32 := do
  let now ← getSysTimeMs
  pure (now + count)

/-- `is_timeout` at the tick `now`: the ticks that are left, as far as they fit into
the `uint8_t` returned. -/
def isTimeout (timeout now : UInt32) : Nat :=
  let leftTime := (timeout - now).toNat
  if 2147483648 ≤ leftTime then 0 else leftTime % 256

def getNextPacketId : Prog (Sys κ) Nat :=
  .act fun s =>
    let id := if s.client.nextPacketid = 65535 then 1 else s.client.nextPacketid + 1
    (id, s.setClient fun c => { c with nextPacketid := id })

/-- `net_tx_write` on behalf of the client. -/
def sendPacket (packet : List UInt8) : Prog (Sys κ) Int :=
  .act fun s =>
    let r := s.interact
    (if r.1.txOk then mqttSuccess else mqttFailure,
      r.2.record (.sent packet r.1.txOk r.2.net.stream.length r.2.net.queue.contents))

/-- The state after `net_tx_write` has been asked to take a packet. -/
def Sys.sent (s : Sys κ) (packet : List UInt8) (accepted : Bool) : Sys κ :=
  s.interact.2.record
    (.sent packet accepted s.interact.2.net.stream.length s.interact.2.net.queue.contents)

theorem run_sendPacket_ok {s : Sys κ} (packet : List UInt8) (h : (s.net.env 0).txOk = true) :
    sendPacket packet s = (some mqttSuccess, s.sent packet true) := by
  have htx : s.interact.1.txOk = true := h
  simp only [sendPacket, Prog.run_act, htx]
  rfl

theorem run_sendPacket_refused {s : Sys κ} (packet : List UInt8) (h : (s.net.env 0).txOk = false) :
    sendPacket packet s = (some mqttFailure, s.sent packet false) := by
  have htx : s.interact.1.txOk = false := h
  simp only [sendPacket, Prog.run_act, htx]
  rfl

/-- `readPacket`. -/
def readPacket : Prog (Sys κ) Int :=
  .act fun s =>
    let s := s.interact.2
    if s.net.fifoSem > 0 then
      let r := mqttPacketRead Net.read s.client.readbuf s.client.readbufSize
        { s.net with fifoSem := s.net.fifoSem - 1, taken := [] }
      (r.1, { s with
        client := { s.client with readbuf := r.2.1 }
        net := r.2.2
        log := .read r.2.2.taken r.1 :: s.log })
    else (0, s)

/-- Without a token nothing is read. -/
theorem readPacket_idle {s : Sys κ} (h : s.interact.2.net.fifoSem = 0) :
    readPacket s = (some 0, s.interact.2) := by
  simp only [readPacket, Prog.run_act, h, Nat.lt_irrefl, if_false]

/-- What a token is spent on. -/
theorem readPacket_token {s : Sys κ} (h : 0 < s.interact.2.net.fifoSem) :
    readPacket s =
      let net := s.interact.2.net
      let r := mqttPacketRead Net.read s.client.readbuf s.client.readbufSize
        { net with fifoSem := net.fifoSem - 1, taken := [] }
      (some r.1, { s with
        client := { s.client with readbuf := r.2.1 }
        net := r.2.2
        log := .read r.2.2.taken r.1 :: s.log }) := by
  simp only [readPacket, Prog.run_act, h, if_true]
  rfl

/-- A read returns what it has entered into the log, or 0. -/
theorem run_readPacket (s : Sys κ) : ∃ rc, readPacket s = (some rc, (readPacket s).2) ∧
    ((readPacket s).2.log = s.log ∧ rc = 0 ∨
      ∃ cells, (readPacket s).2.log = .read cells rc :: s.log) := by
  rcases Nat.eq_zero_or_pos s.interact.2.net.fifoSem with h | h
  · rw [readPacket_idle h]
    exact ⟨0, rfl, .inl ⟨rfl, rfl⟩⟩
  · rw [readPacket_token h]
    exact ⟨_, rfl, .inr ⟨_, rfl⟩⟩

/-! ## Delivering messages -/

/-- The loop of `isTopicMatched` on the filter and the name that are left. -/
def isTopicMatched : List UInt8 → List UInt8 → Bool
  | [], name => name.isEmpty
  | _ :: _, [] => false
  | f :: fs, c :: cs =>
    if c = 47 ∧ f ≠ 47 then false
    else if f ≠ 43 ∧ f ≠ 35 ∧ f ≠ c then false
    else if f = 43 then isTopicMatched fs (cs.dropWhile (· ≠ 47))
    else if f = 35 then isTopicMatched fs []
    else isTopicMatched fs cs

/-- `MQTTPacket_equals` of a deserialised topic name and a C string. -/
def mqttPacketEquals (a bptr : List UInt8) : Bool := a.length == bptr.length && a == bptr

section Deliver
variable [Callback κ]

/-- A callback is called. -/
def Sys.call (s : Sys κ) (callback : κ) (message : PublishData) : Sys κ :=
  (s.setClient fun c => { c with readbuf := Callback.writes callback message c.readbuf }).record
    (.delivered callback message)

/-- One round of the loop of `deliverMessage`. -/
def deliverSlot (message : PublishData) (r : Int × Sys κ) (slot : MessageHandlers κ) :
    Int × Sys κ :=
  match slot.topicFilter with
  | none => r
  | some filter =>
    if mqttPacketEquals message.topicName (r.2.strs filter) ∨
        isTopicMatched (r.2.strs filter) message.topicName then
      match slot.callback with
      | some callback => (mqttSuccess, r.2.call callback message)
      | none => r
    else r

def deliverMessage (message : PublishData) : Prog (Sys κ) Int :=
  .act fun s =>
    let r := s.client.messageHandlers.foldl (deliverSlot message) (mqttFailure, s)
    if r.1 = mqttFailure then
      match s.client.defaultMessageHandler with
      | some callback => (mqttSuccess, r.2.call callback message)
      | none => r
    else r

end Deliver

/-! ## Sessions -/

def keepalive : Prog (Sys κ) Int := do
  let s ← Prog.look
  if s.client.keepAliveInterval = 0 then pure mqttSuccess
  else if s.client.pingOutstanding ≠ 0 then pure mqttFailure
  else
    match mqttSerializePingreq s.client.bufSize with
    | .error _ => pure mqttSuccess
    | .ok packet =>
      let rc ← sendPacket packet
      if rc = mqttSuccess then
        let now ← getSysTimeMs
        Prog.change fun s => s.setClient fun c => { c with tickPing := now, pingOutstanding := 0 }
        pure rc
      else pure rc

def mqttCleanSession : Prog (Sys κ) Unit :=
  .change fun s => s.setClient fun c =>
    { c with messageHandlers := c.messageHandlers.map fun slot => { slot with topicFilter := none } }

def mqttCloseSession : Prog (Sys κ) Unit := do
  Prog.change fun s =>
    (s.setClient fun c => { c with pingOutstanding := 0, isconnected := false }).record
      (.closed s.net.stream.length s.net.queue.contents)
  let s ← Prog.look
  if s.client.cleansession then mqttCleanSession else pure ()

/-! ## The cycle -/

section Cycle
variable [Callback κ]

/-- Serialises an acknowledgement and sends it. -/
def sendAck (packettype packetid : Nat) : Prog (Sys κ) Int := do
  let s ← Prog.look
  match mqttSerializeAck s.client.bufSize packettype 0 packetid with
  | .error _ => pure mqttFailure
  | .ok packet => sendPacket packet

/-- The case `PUBLISH` of `MQTT_cycle`. -/
def cyclePublish : Prog (Sys κ) Int := do
  let s ← Prog.look
  let r := mqttDeserializePublish (s.net.env 0).stale s.client.readbuf
  if r.1 ≠ 1 then pure mqttSuccess
  else
    let _ ← deliverMessage r.2
    if r.2.qos = 0 then pure mqttSuccess
    else if r.2.qos = 1 then sendAck PUBACK r.2.packetId
    else if r.2.qos = 2 then sendAck PUBREC r.2.packetId
    else pure mqttFailure

/-- The cases `PUBREC` and `PUBREL` of `MQTT_cycle`. -/
def cycleAck (packetType : Int) : Prog (Sys κ) Int := do
  let s ← Prog.look
  let r := mqttDeserializeAck (s.net.env 0).stale s.client.readbuf
  if r.1 ≠ 1 then pure mqttFailure
  else sendAck (if packetType = PUBREC then PUBREL else PUBCOMP) r.2.2

/-- The `switch` of `MQTT_cycle`. -/
def cycleSwitch (packetType : Int) : Prog (Sys κ) Int :=
  if packetType = 0 then pure mqttSuccess
  else if packetType = CONNACK ∨ packetType = PUBACK ∨ packetType = SUBACK ∨
      packetType = UNSUBACK then pure mqttSuccess
  else if packetType = PUBLISH then cyclePublish
  else if packetType = PUBREC ∨ packetType = PUBREL then cycleAck packetType
  else if packetType = PUBCOMP then pure mqttSuccess
  else if packetType = PINGRESP then do
    Prog.change fun s => s.setClient fun c => { c with pingOutstanding := 0 }
    pure mqttSuccess
  else pure packetType

/-- What `MQTT_cycle` does with a packet that has been read. -/
def cycleHandle (packetType : Int) : Prog (Sys κ) Int := do
  let rc ← cycleSwitch packetType
  if rc = mqttSuccess then pure packetType
  else
    let s ← Prog.look
    if s.client.isconnected then do
      mqttCloseSession
      pure rc
    else pure rc

def mqttCycle : Prog (Sys κ) Int := do
  let packetType ← readPacket
  cycleHandle packetType

end Cycle

/-! ## Requests and their replies -/

/-- The loop of `waitfor`, with the polls it is granted. -/
def waitfor (packetType : Nat) (timeout : UInt32) : Nat → Prog (Sys κ) Int
  | 0 => .pause
  | polls + 1 => do
    let rc ← readPacket
    if rc = packetType then pure rc
    else
      let now ← getSysTimeMs
      if isTimeout timeout now ≠ 0 then waitfor packetType timeout polls
      else pure rc

/-- `MQTTPacket_connectData_initializer`. -/
def connectDataInitializer : ConnectData :=
  ⟨4, ⟨none, none⟩, 60, true, false, ⟨⟨none, none⟩, ⟨none, none⟩, 0, 0⟩, ⟨none, none⟩, ⟨none, none⟩⟩

/-- The end of `MQTTConnectWithResults`. -/
def connectExit (rc : Int) : Prog (Sys κ) Int := do
  if rc = mqttSuccess then
    Prog.change fun s =>
      (s.setClient fun c => { c with isconnected := true, pingOutstanding := 0 }).record .opened
    pure rc
  else pure rc

def mqttConnectWithResults (polls : Nat) (options : Option ConnectData) : Prog (Sys κ) Int := do
  let s ← Prog.look
  if s.client.isconnected then connectExit mqttFailure
  else
    let options := options.getD connectDataInitializer
    Prog.change fun s => s.setClient fun c =>
      { c with keepAliveInterval := options.keepAliveInterval, cleansession := options.cleansession }
    match mqttSerializeConnect s.client.bufSize options with
    | .error _ => connectExit mqttFailure
    | .ok packet =>
      let rc ← sendPacket packet
      if rc ≠ mqttSuccess then connectExit rc
      else
        let timeout ← timeoutInit connectTimeout
        let t ← waitfor CONNACK timeout polls
        if t = CONNACK then do
          let s ← Prog.look
          let r := mqttDeserializeConnack s.client.readbuf
          connectExit (if r.1 = 1 then r.2.2 else mqttFailure)
        else connectExit mqttFailure

def mqttConnect (polls : Nat) : Prog (Sys κ) Int := do
  let s ← Prog.look
  mqttConnectWithResults polls (some s.client.condata)

/-- `MQTTSetMessageHandler`; no handler removes the filter. -/
def mqttSetMessageHandler (topicFilter : Nat) (messageHandler : Option κ) : Prog (Sys κ) Int :=
  .act fun s =>
    -- a filter is looked for by its text, and entered as a pointer
    let slots := s.client.messageHandlers
    let existing := slots.findIdx? fun slot =>
      match slot.topicFilter with
      | some filter => s.strs filter == s.strs topicFilter
      | none => false
    match existing, messageHandler with
    | some i, none =>
      (mqttSuccess, s.setClient fun c => { c with messageHandlers := slots.set i ⟨none, none⟩ })
    | some i, some _ =>
      (mqttSuccess, s.setClient fun c =>
        { c with messageHandlers := slots.set i ⟨some topicFilter, messageHandler⟩ })
    | none, none => (mqttFailure, s)
    | none, some _ =>
      match slots.findIdx? fun slot => slot.topicFilter.isNone with
      | some i =>
        (mqttSuccess, s.setClient fun c =>
          { c with messageHandlers := slots.set i ⟨some topicFilter, messageHandler⟩ })
      | none => (mqttFailure, s)

/-- The end of the requests other than connect. -/
def requestExit (rc : Int) : Prog (Sys κ) Int := do
  if rc = mqttFailure then do
    mqttCloseSession
    pure rc
  else pure rc

def mqttSubscribe (polls : Nat) (topicFilter : Nat) (qos : Nat) (messageHandler : κ) :
    Prog (Sys κ) Int := do
  let s ← Prog.look
  if ¬ s.client.isconnected then requestExit mqttFailure
  else
    let id ← getNextPacketId
    match mqttSerializeSubscribe s.client.bufSize 0 id (.ofCString (s.strs topicFilter)) qos with
    | .error _ => requestExit mqttFailure
    | .ok packet =>
      let rc ← sendPacket packet
      if rc ≠ mqttSuccess then requestExit rc
      else
        let timeout ← timeoutInit replyTimeout
        let t ← waitfor SUBACK timeout polls
        if t = SUBACK then do
          let s ← Prog.look
          let r := mqttDeserializeSuback s.client.readbuf
          -- 128 is the refusal of the broker
          if r.1 = 1 ∧ r.2.1 ≠ 128 then do
            let rc ← mqttSetMessageHandler topicFilter (some messageHandler)
            requestExit rc
          else requestExit rc
        else requestExit mqttFailure

def mqttUnsubscribe (polls : Nat) (topicFilter : Nat) : Prog (Sys κ) Int := do
  let s ← Prog.look
  if ¬ s.client.isconnected then requestExit mqttFailure
  else
    let id ← getNextPacketId
    match mqttSerializeUnsubscribe s.client.bufSize 0 id (.ofCString (s.strs topicFilter)) with
    | .error _ => requestExit mqttFailure
    | .ok packet =>
      let rc ← sendPacket packet
      if rc ≠ mqttSuccess then requestExit rc
      else
        let timeout ← timeoutInit s.client.commandTimeoutMs
        let t ← waitfor UNSUBACK timeout polls
        if t = UNSUBACK then do
          let s ← Prog.look
          if mqttDeserializeUnsuback (s.net.env 0).stale s.client.readbuf = 1 then do
            let _ ← mqttSetMessageHandler topicFilter none
            requestExit rc
          else requestExit rc
        else requestExit mqttFailure

/-- `MQTTMessage`. -/
structure MqttMessage where
  qos : Nat
  retained : Nat
  id : Nat
  payload : List UInt8

/-- The wait of `MQTTPublish` for the acknowledgement of a QoS. -/
def publishWait (polls : Nat) (ack : Nat) (timeout : UInt32) (rc : Int) : Prog (Sys κ) Int := do
  let t ← waitfor ack timeout polls
  if t = ack then do
    let s ← Prog.look
    let r := mqttDeserializeAck (s.net.env 0).stale s.client.readbuf
    requestExit (if r.1 ≠ 1 then mqttFailure else rc)
  else requestExit mqttFailure

/-- The packet id of a message that is to be published. -/
def publishId (message : MqttMessage) : Prog (Sys κ) Nat :=
  if message.qos = 1 ∨ message.qos = 2 then getNextPacketId else pure message.id

def mqttPublish (polls : Nat) (topicName : List UInt8) (message : MqttMessage) :
    Prog (Sys κ) Int := do
  let s ← Prog.look
  if ¬ s.client.isconnected then requestExit mqttFailure
  else
    let id ← publishId message
    match mqttSerializePublish s.client.bufSize 0 message.qos message.retained id
        (.ofCString topicName) message.payload with
    | .error _ => requestExit mqttFailure
    | .ok packet =>
      let rc ← sendPacket packet
      if rc ≠ mqttSuccess then requestExit rc
      else
        let timeout ← timeoutInit replyTimeout
        if message.qos = 1 then publishWait polls PUBACK timeout rc
        else if message.qos = 2 then publishWait polls PUBCOMP timeout rc
        else requestExit rc

def mqttDisconnect : Prog (Sys κ) Int := do
  let s ← Prog.look
  match mqttSerializeDisconnect s.client.bufSize with
  | .error _ => do
    mqttCloseSession
    pure mqttFailure
  | .ok packet =>
    let rc ← sendPacket packet
    mqttCloseSession
    pure rc

/-! ## Calls -/

/-- A call of a client function; those that wait are granted a number of polls. -/
inductive ClientCall (κ : Type) where
  | keepalive
  | cycle
  | connect (polls : Nat)
  | subscribe (polls topicFilter qos : Nat) (messageHandler : κ)
  | unsubscribe (polls topicFilter : Nat)
  | publish (polls : Nat) (topicName : List UInt8) (message : MqttMessage)
  | disconnect

def ClientCall.run [Callback κ] : ClientCall κ → Prog (Sys κ) Int
  | keepalive => IBoxClient.keepalive
  | cycle => mqttCycle
  | connect polls => mqttConnect polls
  | subscribe polls topicFilter qos messageHandler =>
    mqttSubscribe polls topicFilter qos messageHandler
  | unsubscribe polls topicFilter => mqttUnsubscribe polls topicFilter
  | publish polls topicName message => mqttPublish polls topicName message
  | disconnect => mqttDisconnect

/-- The packets `net_tx_write` has accepted, the last one first. -/
def packetsSent (log : List (Entry κ)) : List (List UInt8) :=
  log.filterMap fun e =>
    match e with
    | .sent packet true _ _ => some packet
    | _ => none

end IBoxClient
