import IBoxClient.IBoxConfig
import IBoxClient.MqttEffects

/- The main thread (`main_thread.c`): connect, subscribe, work, disconnect, and again.

   `mainStep` is one round of `main_thread_entry`: what stands between two of its
   labels, one subscription, or one round of its work loop. A round is granted the
   polls that its waits may use; one that does not come back leaves the thread
   blocked.

   The subscriptions keep pointers to their filters. There are three: to the two
   literals and to the buffer `sub_temp`, which is printed into twice. -/
namespace IBoxClient

open Bytes

/-- The callbacks of the main thread. -/
inductive MainCallback where
  | mqttConfigCallback
  | mqttActionCallback
  | mqttSubDefaultCallback
  deriving DecidableEq

/-- The default callback puts a NUL after the payload. The others read the payload and
set the clock or the DAC. -/
instance : Callback MainCallback where
  writes callback message readbuf :=
    match callback, message.payloadEnd with
    | .mqttSubDefaultCallback, some i => readbuf.set i 0
    | _, _ => readbuf

/-- The addresses of the topic filters. -/
abbrev doallSubtopic : Nat := 0
abbrev cigSubtopic : Nat := 1
abbrev subTemp : Nat := 2

def isFilter (filter : Nat) : Prop :=
  filter = doallSubtopic ∨ filter = cigSubtopic ∨ filter = subTemp

/-- `device_sn` as it is printed with `%010d`. -/
def IboxConfig.printedSn (config : IboxConfig) : List UInt8 :=
  paddedDecimal 10 config.deviceSn.toInt32.toInt

/-- `MQTT_DOALLSUBTOPIC` and `MQTT_CIGSUBTOPIC`. -/
def actionTopic : List UInt8 := ascii "mqtt/action"
def configTopic : List UInt8 := ascii "mqtt/config"

/-- The topics of one device. -/
def IboxConfig.actionTopic (config : IboxConfig) : List UInt8 :=
  ascii "mqtt/action-" ++ config.printedSn
def IboxConfig.conTopic (config : IboxConfig) : List UInt8 := ascii "mqtt/con-" ++ config.printedSn

/-- A call of `MQTTSubscribe`, and what is printed into `sub_temp` before. -/
structure Subscription where
  topicFilter : Nat
  printed : Option (List UInt8)
  qos : Nat
  callback : MainCallback
  is_filter : isFilter topicFilter

def subscriptions (config : IboxConfig) : List Subscription :=
  [⟨doallSubtopic, none, 0, .mqttActionCallback, .inl rfl⟩,
    ⟨subTemp, some config.actionTopic, 2, .mqttActionCallback, .inr (.inr rfl)⟩,
    ⟨cigSubtopic, none, 0, .mqttConfigCallback, .inr (.inl rfl)⟩,
    ⟨subTemp, some config.conTopic, 1, .mqttConfigCallback, .inr (.inr rfl)⟩]

/-- `MQTT_init`: the options of the connection. -/
def mainCondata (config : IboxConfig) : ConnectData :=
  { connectDataInitializer with
    clientId := .ofCString (ascii "iBoxClient-" ++ config.printedSn)
    keepAliveInterval := 300
    cleansession := true
    username := .ofCString config.mqttUsername
    password := .ofCString config.mqttPassword
    willFlag := true
    will := ⟨.ofCString (ascii "/mqtt/will"), .ofCString (ascii "Goodbye!"), 0, 1⟩ }

/-- The strings behind the filters while `sub_temp` holds a text. -/
def filterStrings (temp : List UInt8) (filter : Nat) : List UInt8 :=
  if filter = doallSubtopic then IBoxClient.actionTopic
  else if filter = cigSubtopic then IBoxClient.configTopic
  else if filter = subTemp then temp
  else []

/-- Where `main_thread_entry` is: before connecting, before the subscriptions that are
left, in the work loop, at `_mqtt_disconnect`, at `_mqtt_restart`, or in a call that
has not come back. -/
inductive MainPhase where
  | start
  | subscribe (left : List Subscription)
  | work
  | disconnect
  | restart
  | blocked

structure MainThread where
  sys : Sys MainCallback
  config : IboxConfig
  publishTime : UInt32
  phase : MainPhase

/-- The thread as it starts; `readbuf` and `temp` are what the memory holds. -/
def mainInit (config : IboxConfig) (net : Net) (readbuf temp : List UInt8) : MainThread :=
  ⟨⟨clientInit (mainCondata config) readbuf .mqttSubDefaultCallback, net, filterStrings temp, []⟩,
    config, 0, .start⟩

/-! ## The parts of `main_thread_entry` -/

def createMsg : Prog (Sys MainCallback) (Option (List UInt8)) :=
  .act fun s => (s.interact.1.msg, s.interact.2)

/-- `MQTT_msg_publish`. -/
def mqttMsgPublish (polls : Nat) : Prog (Sys MainCallback) Int := do
  let msg ← createMsg
  match msg with
  | none => pure mqttFailure
  | some msg =>
    let now ← getSysTimeS
    mqttPublish polls (ascii "mqtt/msg") ⟨1, 0, now.toNat % 65536, msg.take (msg.length % 65536)⟩

def mainConnect (config : IboxConfig) (polls : Nat) : Prog (Sys MainCallback) MainPhase := do
  let rc ← mqttConnect polls
  pure (if rc ≠ mqttSuccess then .restart else .subscribe (subscriptions config))

/-- `sprintf` into `sub_temp`. -/
def printSubTemp (printed : Option (List UInt8)) (s : Sys MainCallback) : Sys MainCallback :=
  match printed with
  | some temp => { s with strs := filterStrings temp }
  | none => s

def setTickPing : Prog (Sys MainCallback) Unit := do
  let now ← getSysTimeS
  Prog.change fun s => s.setClient fun c => { c with tickPing := now }

def mainSubscribe (polls : Nat) : List Subscription → Prog (Sys MainCallback) MainPhase
  | [] => do
    setTickPing
    pure .work
  | sub :: left => do
    Prog.change (printSubTemp sub.printed)
    let rc ← mqttSubscribe polls sub.topicFilter sub.qos sub.callback
    pure (if rc ≠ mqttSuccess then .disconnect else .subscribe left)

/-- The ping at the beginning of a round of the work loop. -/
def workPing : Prog (Sys MainCallback) Int := do
  let now ← getSysTimeS
  let s ← Prog.look
  if now - s.client.tickPing > UInt32.ofNat s.client.condata.keepAliveInterval - 20 then do
    let ret ← keepalive
    if ret ≠ mqttSuccess then pure ret
    else do
      setTickPing
      pure ret
  else pure mqttSuccess

/-- The report at the end of the round: whether it has gone well, and
`publish_time`. -/
def workPublish (config : IboxConfig) (publishTime : UInt32) (polls : Nat) :
    Prog (Sys MainCallback) (Int × UInt32) := do
  let now ← getSysTimeS
  if now - publishTime > UInt32.ofNat (config.period * 60) then do
    let ret ← mqttMsgPublish polls
    if ret ≠ mqttSuccess then pure (ret, publishTime)
    else do
      let now ← getSysTimeS
      pure (ret, now)
  else pure (mqttSuccess, publishTime)

def mainWork (config : IboxConfig) (publishTime : UInt32) (polls : Nat) :
    Prog (Sys MainCallback) (MainPhase × UInt32) := do
  let ret ← workPing
  if ret ≠ mqttSuccess then pure (.disconnect, publishTime)
  else
    let ret ← mqttCycle
    if ret < 0 then pure (.disconnect, publishTime)
    else
      let r ← workPublish config publishTime polls
      if r.1 ≠ mqttSuccess then pure (.disconnect, r.2) else pure (.work, r.2)

def mainDisconnect : Prog (Sys MainCallback) MainPhase := do
  let _ ← mqttDisconnect
  pure .restart

/-- What is done in a phase: the next phase, and `publish_time`. -/
def mainRound (config : IboxConfig) (publishTime : UInt32) (polls : Nat) :
    MainPhase → Prog (Sys MainCallback) (MainPhase × UInt32)
  | .start => do
    let phase ← mainConnect config polls
    pure (phase, publishTime)
  | .subscribe left => do
    let phase ← mainSubscribe polls left
    pure (phase, publishTime)
  | .work => mainWork config publishTime polls
  | .disconnect => do
    let phase ← mainDisconnect
    pure (phase, publishTime)
  | .restart => pure (.start, publishTime)
  | .blocked => pure (.blocked, publishTime)

def mainStep (m : MainThread) (polls : Nat) : MainThread × List Unit :=
  match mainRound m.config m.publishTime polls m.phase m.sys with
  | (some r, s) => (⟨s, m.config, r.2, r.1⟩, [])
  | (none, s) => (⟨s, m.config, m.publishTime, .blocked⟩, [])

/-! ## What a round does -/

/-- The phases that can follow a phase. -/
inductive NextPhase (config : IboxConfig) : MainPhase → MainPhase → Prop where
  | connected : NextPhase config .start (.subscribe (subscriptions config))
  | notConnected : NextPhase config .start .restart
  | subscribed (sub : Subscription) (left : List Subscription) :
    NextPhase config (.subscribe (sub :: left)) (.subscribe left)
  | notSubscribed (sub : Subscription) (left : List Subscription) :
    NextPhase config (.subscribe (sub :: left)) .disconnect
  | ready : NextPhase config (.subscribe []) .work
  | working : NextPhase config .work .work
  | failed : NextPhase config .work .disconnect
  | disconnected : NextPhase config .disconnect .restart
  | restarted : NextPhase config .restart .start
  | stuck (phase : MainPhase) : NextPhase config phase .blocked

/-- The state in which the calls of a round begin. -/
def MainThread.ready (m : MainThread) : Sys MainCallback :=
  match m.phase with
  | .subscribe (sub :: _) => printSubTemp sub.printed m.sys
  | _ => m.sys

theorem does_getSysTimeS : Does isFilter (getSysTimeS : Prog (Sys MainCallback) UInt32) :=
  .effect .interact

theorem does_mqttMsgPublish (polls : Nat) : Does isFilter (mqttMsgPublish polls) := by
  refine .bind (.effect .interact) fun msg => ?_
  cases msg with
  | none => exact .pure _
  | some msg => exact .bind does_getSysTimeS fun _ => does_mqttPublish _ _ _

theorem does_setTickPing : Does isFilter setTickPing :=
  .bind does_getSysTimeS fun now => .change (.ticked now)

theorem does_workPing : Does isFilter workPing := by
  refine .bind does_getSysTimeS fun now => .look fun s => .ite ?_ (.pure _)
  exact .bind does_keepalive fun ret => .ite (.pure _) (.bind does_setTickPing fun _ => .pure _)

theorem does_workPublish (config : IboxConfig) (publishTime : UInt32) (polls : Nat) :
    Does isFilter (workPublish config publishTime polls) := by
  refine .bind does_getSysTimeS fun now => .ite ?_ (.pure _)
  refine .bind (does_mqttMsgPublish polls) fun ret => .ite (.pure _) ?_
  exact .bind does_getSysTimeS fun _ => .pure _

theorem does_mainWork (config : IboxConfig) (publishTime : UInt32) (polls : Nat) :
    Does isFilter (mainWork config publishTime polls) := by
  refine .bind does_workPing fun ret => .ite (.pure _) (.bind does_mqttCycle fun ret => ?_)
  refine .ite (.pure _) (.bind (does_workPublish _ _ _) fun r => ?_)
  exact .ite (.pure _) (.pure _)

theorem phase_mainRound (config : IboxConfig) (publishTime : UInt32) (polls : Nat)
    (phase : MainPhase) :
    Prog.Spec (fun _ => True) (mainRound config publishTime polls phase)
      (fun r _ => NextPhase config phase r.1) fun _ => True := by
  have hkeep : ∀ p : Prog (Sys MainCallback) MainPhase,
      Prog.Spec (fun _ => True) p (fun next _ => NextPhase config phase next) (fun _ => True) →
      Prog.Spec (fun _ => True) (p >>= fun next => pure (next, publishTime))
        (fun r _ => NextPhase config phase r.1) fun _ => True :=
    fun p hp => hp.bind fun next => .pure _ fun _ hs => hs
  cases phase with
  | start =>
    refine hkeep _ (.bind (.top _) fun rc => .pure _ fun _ _ => ?_)
    split
    · exact .notConnected
    · exact .connected
  | subscribe left =>
    apply hkeep
    cases left with
    | nil => exact .bind (.top _) fun _ => .pure _ fun _ _ => .ready
    | cons sub left =>
      refine .bind (.top _) fun _ => .bind (.top _) fun rc => .pure _ fun _ _ => ?_
      split
      · exact .notSubscribed sub left
      · exact .subscribed sub left
  | work =>
    refine .bind (.top _) fun ret => .ite (fun _ => .pure _ fun _ _ => .failed) fun _ => ?_
    refine .bind (.top _) fun ret => .ite (fun _ => .pure _ fun _ _ => .failed) fun _ => ?_
    refine .bind (.top _) fun r => .ite (fun _ => .pure _ fun _ _ => .failed) fun _ => ?_
    exact .pure _ fun _ _ => .working
  | disconnect => exact hkeep _ (.bind (.top _) fun _ => .pure _ fun _ _ => .disconnected)
  | restart => exact .pure _ fun _ _ => .restarted
  | blocked => exact .pure _ fun _ _ => .stuck _

theorem phase_mainStep (m : MainThread) (polls : Nat) :
    NextPhase m.config m.phase (mainStep m polls).1.phase := by
  have hspec := phase_mainRound m.config m.publishTime polls m.phase m.sys trivial
  unfold mainStep
  generalize mainRound m.config m.publishTime polls m.phase m.sys = r at hspec ⊢
  obtain ⟨r, s⟩ := r
  cases r with
  | none => exact .stuck _
  | some r => exact hspec

@[simp] theorem config_mainStep (m : MainThread) (polls : Nat) :
    (mainStep m polls).1.config = m.config := by
  unfold mainStep
  split <;> rfl

/-- A round consists of steps of the client, after what is printed before it. -/
theorem effects_mainStep (m : MainThread) (polls : Nat) :
    Effects isFilter m.ready (mainStep m polls).1.sys := by
  have hstep : ∀ p : Prog (Sys MainCallback) (MainPhase × UInt32),
      Does isFilter p → Effects isFilter m.ready (p m.ready).2 := fun p hp => hp _ _ .refl
  -- a call that pauses has made its steps as well
  have hround : (mainStep m polls).1.sys =
      (mainRound m.config m.publishTime polls m.phase m.sys).2 := by
    unfold mainStep
    split <;> simp_all
  rw [hround]
  obtain ⟨s, config, publishTime, phase⟩ := m
  cases phase with
  | start => exact hstep _ (.bind (.bind (does_mqttConnect polls) fun _ => .pure _) fun _ => .pure _)
  | subscribe left =>
    cases left with
    | nil => exact hstep _ (.bind (.bind does_setTickPing fun _ => .pure _) fun _ => .pure _)
    | cons sub left =>
      have hsub := does_mqttSubscribe polls sub.is_filter sub.qos sub.callback
      exact hstep _ (.bind (.bind hsub fun rc => .pure (if rc ≠ mqttSuccess then .disconnect
        else .subscribe left)) fun phase => .pure (phase, publishTime))
  | work => exact hstep _ (does_mainWork config publishTime polls)
  | disconnect => exact hstep _ (.bind (.bind does_mqttDisconnect fun _ => .pure _) fun _ => .pure _)
  | restart => exact .refl
  | blocked => exact .refl

/-! ## A device and a broker -/

/-- The main thread with the initial configuration, in an environment. -/
def someThread (env : Nat → EnvStep) : MainThread :=
  mainInit .initial (Net.initial env) (List.replicate 1024 0) []

/-- The answer of a broker that grants a subscription. -/
def subackChunk (packetid qos : UInt8) : Chunk :=
  ⟨[144, 3, 0, packetid, qos], Nat.succ_pos _, Nat.le_of_ble_eq_true rfl⟩

/-- It grants every subscription with the QoS asked for. Each request takes the client
six steps; the answer comes right after it is sent. -/
def grantingBroker (k : Nat) : EnvStep :=
  { EnvStep.quiet with
    arrive :=
      match k with
      | 1 => [connackChunk]
      | 7 => [subackChunk 1 0]
      | 13 => [subackChunk 2 2]
      | 19 => [subackChunk 3 0]
      | 25 => [subackChunk 4 1]
      | _ => [] }

end IBoxClient
