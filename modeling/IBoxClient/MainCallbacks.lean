import IBoxClient.Lib.Longest
import IBoxClient.MqttBounds

/- What the callbacks of the main thread do with a message.

   `mqtt_config_callback` and `mqtt_action_callback` give the address of the payload to
   `cJSON_Parse`, which takes the C string that it finds there. Nothing ends the payload: the
   string goes on with what an earlier, longer packet has left in the read buffer, up to the first
   NUL. So a payload that is no JSON text, or the first part of one, may be completed by bytes
   that are not its own (`callback_own_payload_iff`). Where a packet has no room for its packet id,
   the whole string is not its own: the payload begins behind the packet.

   The default callback does end the payload, but with it no other is called, unless a slot of the
   table has it as well; then those that are called after it find the NUL.

   What texts are JSON values, and what they denote, is a parameter; `cJSON_Parse` yields the
   longest one at the start of its string. `behind` is the memory that follows the read buffer, and
   `elsewhere` the memory at a pointer that has not been set and is not into the read buffer. -/
namespace IBoxClient

open Bytes Longest

/-- An item of cJSON: its name in the object that it belongs to, its integer value, and its
children. -/
inductive CJson where
  | mk (string : Option (List UInt8)) (valueint : Int32) (child : List CJson)

namespace CJson

def string : CJson → Option (List UInt8)
  | mk string _ _ => string

def valueint : CJson → Int32
  | mk _ valueint _ => valueint

def child : CJson → List CJson
  | mk _ _ child => child

end CJson

def tolower (c : UInt8) : UInt8 := if 65 ≤ c ∧ c ≤ 90 then c + 32 else c

/-- `cJSON_GetObjectItem`: the names are compared without regard to case. -/
def cJsonGetObjectItem (object : Option CJson) (name : List UInt8) : Option CJson :=
  object.bind fun object =>
    object.child.find? fun element => element.string.any fun s => s.map tolower == name.map tolower

/-- What the callbacks call. -/
inductive Call where
  | rtcSetCounter (value : UInt32)
  | dacSetVol (vol : Float32)

/-- What a callback calls when its payload has been parsed. -/
def MainCallback.calls : MainCallback → Option CJson → Option Call
  | mqttConfigCallback, root =>
    (cJsonGetObjectItem root (ascii "rtc")).map fun rtc => .rtcSetCounter rtc.valueint.toUInt32
  | mqttActionCallback, root =>
    (cJsonGetObjectItem root (ascii "dac")).map fun dac =>
      .dacSetVol (dac.valueint.toFloat / 100.0).toFloat32
  | mqttSubDefaultCallback, _ => none

section Json
variable (json : List UInt8 → Option CJson)

/-- `cJSON_Parse` of the C string in memory. -/
def cJsonParse (memory : List UInt8) : Option CJson := longest json (cstring memory)

/-- The memory that a callback finds: the read buffer with what follows it, and what stands at a
pointer that is not into either. -/
structure PayloadMemory where
  buffer : List UInt8
  elsewhere : List UInt8

/-- The memory from the payload on, by where this begins. -/
def PayloadMemory.payload (payloadStart : Option Nat) (m : PayloadMemory) : List UInt8 :=
  match payloadStart with
  | some i => m.buffer.drop i
  | none => m.elsewhere

/-- What a callback leaves of the memory, by where the payload ends: the default one puts a NUL
there. -/
def MainCallback.leaves (callback : MainCallback) (payloadEnd : Option Nat) (m : PayloadMemory) :
    PayloadMemory :=
  match callback, payloadEnd with
  | .mqttSubDefaultCallback, some i => { m with buffer := m.buffer.set i 0 }
  | .mqttSubDefaultCallback, none => { m with elsewhere := m.elsewhere.set 0 0 }
  | .mqttConfigCallback, _ | .mqttActionCallback, _ => m

/-- What has been entered into the log. -/
def newEntries {κ : Type} (s s' : Sys κ) : List (Entry κ) :=
  s'.log.take (s'.log.length - s.log.length)

/-- The calls of a callback, the last one first, and the memory, after a further entry. -/
def deliveredCalls (callback : MainCallback) (e : Entry MainCallback)
    (r : List Call × PayloadMemory) : List Call × PayloadMemory :=
  match e with
  | .delivered called message =>
    let call := if called = callback then
      callback.calls (cJsonParse json (r.2.payload message.payloadStart)) else none
    (call.toList ++ r.1, called.leaves message.payloadEnd r.2)
  | _ => r

/-- What a callback calls in a cycle, the last call first. The first callback finds the read
buffer as the read has left it, the others as those before them have. -/
def cycleCalls (behind elsewhere : List UInt8) (callback : MainCallback) (s : Sys MainCallback) :
    List Call :=
  ((newEntries s (mqttCycle s).2).foldr (deliveredCalls json callback)
    ([], ⟨(readPacket s).2.client.readbuf ++ behind, elsewhere⟩)).1

end Json

/-! ## What a cycle delivers -/

section Cycle
variable {κ : Type}

/-- A read buffer that is left by earlier packets. -/
def Sys.holding (s : Sys κ) (readbuf : List UInt8) : Sys κ :=
  s.setClient fun c => { c with readbuf := readbuf }

/-- The next read takes this packet, whatever the read buffer holds. -/
structure Awaits (p : WirePacket) (s : Sys κ) : Prop where
  token : 0 < s.interact.2.net.fifoSem
  queued : ∃ tail, s.interact.2.net.queue.bytes = p.bytes ++ tail
  fits : p.bytes.length ≤ s.client.readbufSize
  kept : (readPacket s).2.net.overrun = false

/-- What is read does not depend on where it is stored. -/
theorem source_mqttPacketRead {σ : Type} (getfn : GetFn σ) (buf buf' : List UInt8) (buflen : Nat)
    (s : σ) :
    (mqttPacketRead getfn buf buflen s).2.2 = (mqttPacketRead getfn buf' buflen s).2.2 := by
  have hrest : ∀ (b b' : List UInt8) header remLen len s,
      (readRest getfn b buflen header remLen len s).2.2 =
        (readRest getfn b' buflen header remLen len s).2.2 := by
    intro b b' header remLen len s
    unfold readRest
    dsimp only
    split
    · rfl
    · split
      · split
        · rfl
        · rfl
      · rfl
  unfold mqttPacketRead
  split
  · exact hrest _ _ _ _ _ _
  · rfl

theorem net_holding {s : Sys κ} (htoken : 0 < s.interact.2.net.fifoSem) (readbuf : List UInt8) :
    (readPacket (s.holding readbuf)).2.net = (readPacket s).2.net := by
  have htoken' : 0 < (s.holding readbuf).interact.2.net.fifoSem := htoken
  rw [readPacket_token htoken, readPacket_token htoken']
  exact source_mqttPacketRead Net.read readbuf s.client.readbuf s.client.readbufSize _

theorem Awaits.holding {p : WirePacket} {s : Sys κ} (h : Awaits p s) (readbuf : List UInt8) :
    Awaits p (s.holding readbuf) := by
  refine ⟨h.token, h.queued, h.fits, ?_⟩
  rw [net_holding h.token]
  exact h.kept

theorem Awaits.read {p : WirePacket} {s : Sys κ} (h : Awaits p s) :
    (readPacket s).2.client.readbuf = writeAt s.client.readbuf 0 p.bytes := by
  obtain ⟨tail, hqueued⟩ := h.queued
  obtain ⟨s', more, hrun, hbytes, -⟩ := readPacket_packet h.token h.fits hqueued h.kept
  rw [hrun]
  exact hbytes

theorem Awaits.readsPacket {p : WirePacket} {s : Sys κ} (h : Awaits p s) : ReadsPacket p s := by
  obtain ⟨tail, hqueued⟩ := h.queued
  exact readsPacket_of_queue h.token h.fits hqueued h.kept

/-- Entries have been added to a log, but no delivery. -/
def Undelivered (base log : List (Entry κ)) : Prop :=
  ∃ added, log = added ++ base ∧ ∀ e ∈ added, ∀ callback message, e ≠ .delivered callback message

theorem Undelivered.refl (base : List (Entry κ)) : Undelivered base base := ⟨[], rfl, nofun⟩

theorem Undelivered.cons {base log : List (Entry κ)} (h : Undelivered base log) {e : Entry κ}
    (he : ∀ callback message, e ≠ .delivered callback message) : Undelivered base (e :: log) := by
  obtain ⟨added, rfl, hadded⟩ := h
  exact ⟨e :: added, rfl, List.forall_mem_cons.mpr ⟨he, hadded⟩⟩

theorem keeps_sendAck {base : List (Entry κ)} (packettype packetid : Nat) :
    Prog.Keeps (fun s => Undelivered base s.log) (sendAck packettype packetid) := by
  refine Prog.Keeps.bind Prog.Keeps.look fun s => ?_
  cases mqttSerializeAck s.client.bufSize packettype 0 packetid with
  | error _ => exact .pure _
  | ok packet => exact .act fun s hs => hs.cons nofun

theorem keeps_cycleExit {base : List (Entry κ)} (packetType rc : Int) :
    Prog.Keeps (fun s : Sys κ => Undelivered base s.log) (cycleExit packetType rc) := by
  have hclose : Prog.Keeps (fun s : Sys κ => Undelivered base s.log) mqttCloseSession := by
    intro s hs
    rw [closeSession_state]
    exact hs.cons nofun
  apply Prog.Keeps.ite
  · exact fun _ => .pure _
  · intro _
    refine .bind .look fun s => .ite (fun _ => ?_) fun _ => .pure _
    exact .bind hclose fun _ => .pure _

variable [Callback κ]

/-- A cycle that reads a `PUBLISH` makes the deliveries of what it is deserialised to, if it is,
and no others. -/
theorem log_cycle {p : WirePacket} (htype : p.type = PUBLISH) {s : Sys κ}
    (hread : ReadsPacket p s) :
    let s' := (readPacket s).2
    let r := mqttDeserializePublish (s'.net.env 0).stale s'.client.readbuf
    ∃ cells rc, Undelivered
      ((if r.1 = 1 then ((callbacksFor s r.2.topicName).map (.delivered · r.2)).reverse else []) ++
        .read cells rc :: s.log) (mqttCycle s).2.log := by
  obtain ⟨cells, rc, hlog⟩ := log_readPacket hread
  obtain ⟨readbuf, net, log, hstate⟩ := readPacket_state s
  have hcallbacks : ∀ topic, callbacksFor (readPacket s).2 topic = callbacksFor s topic := by
    intro topic
    rw [hstate]
    rfl
  have hrun : readPacket s = (some ((PUBLISH : Nat) : Int), (readPacket s).2) :=
    Prod.ext (by rw [hread.1, htype]) rfl
  have hcycle : mqttCycle s = (cyclePublish >>= cycleExit PUBLISH) (readPacket s).2 := by
    rw [mqttCycle, Prog.run_bind_some hrun, cycleHandle_eq]
    rfl
  refine ⟨cells, rc, ?_⟩
  generalize (readPacket s).2 = s₁ at *
  rw [hcycle, cyclePublish, bind_assoc, Prog.run_look_bind]
  dsimp only
  generalize mqttDeserializePublish (s₁.net.env 0).stale s₁.client.readbuf = r
  by_cases hrc : r.1 = 1
  · obtain ⟨rc', s₂, hdeliver, -⟩ := run_deliverMessage r.2 s₁
    have hdelivered := log_deliver r.2 s₁
    rw [hdeliver, hcallbacks, hlog] at hdelivered
    rw [if_pos hrc, if_neg (not_not_intro hrc), bind_assoc, Prog.run_bind_some hdeliver]
    refine Prog.Keeps.bind (I := fun s => Undelivered _ s.log) ?_ (keeps_cycleExit PUBLISH) s₂ ?_
    · refine .ite (fun _ => .pure _) fun _ => .ite (fun _ => keeps_sendAck _ _) fun _ => ?_
      exact .ite (fun _ => keeps_sendAck _ _) fun _ => .pure _
    · have hlog₂ : s₂.log = _ := hdelivered
      show Undelivered _ s₂.log
      rw [hlog₂]
      exact .refl _
  · rw [if_neg hrc, if_pos hrc, ← hlog]
    exact Prog.Keeps.bind (I := fun s => Undelivered s₁.log s.log) (.pure _)
      (keeps_cycleExit PUBLISH) s₁ (.refl _)

end Cycle

/-! ## What the callbacks find -/

theorem newEntries_eq {κ : Type} {s s' : Sys κ} {added : List (Entry κ)}
    (h : s'.log = added ++ s.log) : newEntries s s' = added := by
  rw [newEntries, h, List.length_append, Nat.add_sub_cancel]
  exact List.take_left

/-- The payload is the end of the packet. -/
theorem bytes_payload (p : Publication) :
    ∃ front, (Inbound.publish p).wire.bytes = front ++ p.payload := by
  refine ⟨(Inbound.publish p).wire.header :: (mqttPacketEncode p.body.length ++
    (writeInt p.topicName.length ++
      (p.topicName ++ if p.qos > 0 then writeInt p.packetId.toNat else []))), ?_⟩
  show (Inbound.publish p).wire.header :: (mqttPacketEncode p.body.length ++ p.body) = _
  simp only [Publication.body, List.append_assoc, List.cons_append]

theorem drop_payload (p : Publication) :
    (Inbound.publish p).wire.bytes.drop
      ((Inbound.publish p).wire.bytes.length - p.payload.length) = p.payload := by
  obtain ⟨front, hfront⟩ := bytes_payload p
  rw [hfront, List.length_append, Nat.add_sub_cancel, List.drop_left]

/-- What is delivered of a well-formed message. -/
theorem handed_publish (p : Publication) (stale : Stale) :
    (Inbound.publish p).wire.handed stale =
      some (p.topicName, some ((Inbound.publish p).wire.bytes.length - p.payload.length),
        some (Inbound.publish p).wire.bytes.length) := by
  have htype : (Inbound.publish p).wire.type = PUBLISH := Inbound.type_header (.publish p)
  have hwhole : (Inbound.publish p).wire.bytes.take (Inbound.publish p).wire.bytes.length =
      (Inbound.publish p).wire.bytes := List.take_length
  obtain ⟨hmessage, hrc⟩ := deserialize_publish p stale hwhole
  rw [← deserialize_packet htype hwhole stale, if_pos hrc]
  rw [Inbound.message, Option.some_inj] at hmessage
  rw [hmessage]

section Own
variable {json : List UInt8 → Option CJson} {behind elsewhere : List UInt8}
  {callback : MainCallback}

/-- The calls of a callback that is called as often as it is in `callbacks`. -/
def callsOf (callback : MainCallback) (call : Option Call) (callbacks : List MainCallback) :
    List Call :=
  callbacks.filterMap fun called => if called = callback then call else none

theorem callsOf_append (call : Option Call) (callbacks callbacks' : List MainCallback) :
    callsOf callback call (callbacks ++ callbacks') =
      callsOf callback call callbacks ++ callsOf callback call callbacks' :=
  List.filterMap_append

theorem head?_callsOf {callbacks : List MainCallback} (h : callback ∈ callbacks)
    (call : Option Call) : (callsOf callback call callbacks).head? = call := by
  induction callbacks with
  | nil => cases h
  | cons called callbacks ih =>
    by_cases hcalled : called = callback
    · cases call with
      | none => simp [callsOf]
      | some call => simp [callsOf, hcalled]
    · have hrest : callback ∈ callbacks := by
        rcases List.mem_cons.mp h with heq | hrest
        · exact absurd heq.symm hcalled
        · exact hrest
      have hskip : callsOf callback call (called :: callbacks) = callsOf callback call callbacks :=
        List.filterMap_cons_none (if_neg hcalled)
      rw [hskip]
      exact ih hrest

theorem callsOf_not_mem {callbacks : List MainCallback} (h : callback ∉ callbacks)
    (call : Option Call) : callsOf callback call callbacks = [] := by
  rw [callsOf, List.filterMap_eq_nil_iff]
  rintro called hcalled
  rw [if_neg]
  rintro rfl
  exact h hcalled

theorem callsOf_inj {callbacks : List MainCallback} (h : callback ∈ callbacks)
    {call call' : Option Call} :
    callsOf callback call callbacks = callsOf callback call' callbacks ↔ call = call' := by
  refine ⟨fun heq => ?_, fun heq => heq ▸ rfl⟩
  rw [← head?_callsOf h call, heq, head?_callsOf h]

/-- Those that are called before the default callback. -/
def beforeDefault (callbacks : List MainCallback) : List MainCallback :=
  callbacks.takeWhile fun called => called ≠ .mqttSubDefaultCallback

/-- The default callback, and those that are called after it. -/
def fromDefault (callbacks : List MainCallback) : List MainCallback :=
  callbacks.dropWhile fun called => called ≠ .mqttSubDefaultCallback

/-- The calls of a callback that makes one before the default callback and another one after it. -/
def callsAround (callback : MainCallback) (after before : Option Call)
    (callbacks : List MainCallback) : List Call :=
  callsOf callback after (fromDefault callbacks).reverse ++
    callsOf callback before (beforeDefault callbacks).reverse

theorem callsAround_same (call : Option Call) (callbacks : List MainCallback) :
    callsAround callback call call callbacks = callsOf callback call callbacks.reverse := by
  rw [callsAround, ← callsOf_append, ← List.reverse_append, beforeDefault, fromDefault,
    List.takeWhile_append_dropWhile]

theorem fromDefault_cons {callbacks rest : List MainCallback} {called : MainCallback}
    (h : fromDefault callbacks = called :: rest) : called = .mqttSubDefaultCallback := by
  have hnot := List.head?_dropWhile_not
    (fun called => decide (called ≠ MainCallback.mqttSubDefaultCallback)) callbacks
  rw [fromDefault] at h
  rw [h] at hnot
  simpa using hnot

theorem leaves_of_ne {called : MainCallback} (h : called ≠ .mqttSubDefaultCallback)
    (payloadEnd : Option Nat) (m : PayloadMemory) : called.leaves payloadEnd m = m := by
  cases called with
  | mqttConfigCallback | mqttActionCallback => rfl
  | mqttSubDefaultCallback => exact absurd rfl h

/-- The NUL stands there once and for all. -/
theorem leaves_default (called : MainCallback) (payloadEnd : Option Nat) (m : PayloadMemory) :
    called.leaves payloadEnd (MainCallback.mqttSubDefaultCallback.leaves payloadEnd m) =
      MainCallback.mqttSubDefaultCallback.leaves payloadEnd m := by
  cases called with
  | mqttConfigCallback | mqttActionCallback => rfl
  | mqttSubDefaultCallback =>
    cases payloadEnd with
    | none => simp [MainCallback.leaves]
    | some i => simp [MainCallback.leaves]

/-- The calls of a callback for a message, by where its payload begins and ends. -/
def messageCalls (json : List UInt8 → Option CJson) (callback : MainCallback)
    (payloadStart payloadEnd : Option Nat) (m : PayloadMemory) (callbacks : List MainCallback) :
    List Call :=
  callsAround callback
    (callback.calls (cJsonParse json
      ((MainCallback.mqttSubDefaultCallback.leaves payloadEnd m).payload payloadStart)))
    (callback.calls (cJsonParse json (m.payload payloadStart))) callbacks

section Delivered
variable {message : PublishData} {m : PayloadMemory}

/-- Callbacks that leave the memory as it is. -/
theorem deliveredCalls_fixed {callbacks : List MainCallback}
    (hfixed : ∀ called ∈ callbacks, called.leaves message.payloadEnd m = m) (calls : List Call) :
    (callbacks.map (.delivered · message)).foldr (deliveredCalls json callback) (calls, m) =
      (callsOf callback (callback.calls (cJsonParse json (m.payload message.payloadStart)))
        callbacks ++ calls, m) := by
  induction callbacks with
  | nil => rfl
  | cons called callbacks ih =>
    rw [List.map_cons, List.foldr_cons, ih fun called hmem => hfixed called (.tail _ hmem)]
    simp only [deliveredCalls, hfixed called List.mem_cons_self, callsOf, List.filterMap_cons]
    by_cases hcalled : called = callback
    · simp only [if_pos hcalled]
      cases callback.calls (cJsonParse json (m.payload message.payloadStart)) with
      | none => rfl
      | some call => rfl
    · simp only [if_neg hcalled]
      rfl

/-- All the callbacks that a message is given to. -/
theorem deliveredCalls_all (callbacks : List MainCallback) :
    ((callbacks.map (.delivered · message)).reverse.foldr (deliveredCalls json callback)
        ([], m)).1 =
      messageCalls json callback message.payloadStart message.payloadEnd m callbacks := by
  have hbefore : ∀ called ∈ (beforeDefault callbacks).reverse,
      called.leaves message.payloadEnd m = m := by
    intro called hcalled
    have hne := List.mem_takeWhile_imp (List.mem_reverse.mp hcalled)
    exact leaves_of_ne (of_decide_eq_true hne) _ _
  have hsplit : callbacks = beforeDefault callbacks ++ fromDefault callbacks :=
    List.takeWhile_append_dropWhile.symm
  rw [messageCalls, callsAround]
  conv_lhs => rw [hsplit]
  rw [← List.map_reverse, List.reverse_append, List.map_append, List.foldr_append,
    deliveredCalls_fixed hbefore, List.append_nil]
  generalize callsOf callback _ (beforeDefault callbacks).reverse = calls
  cases hfrom : fromDefault callbacks with
  | nil => rfl
  | cons called rest =>
    -- the default callback makes no call, and leaves its NUL
    rw [fromDefault_cons hfrom]
    have hfixed : ∀ called ∈ rest.reverse, called.leaves message.payloadEnd
        (MainCallback.mqttSubDefaultCallback.leaves message.payloadEnd m) = _ :=
      fun called _ => leaves_default called message.payloadEnd m
    have hnone : ∀ r, deliveredCalls json callback (.delivered .mqttSubDefaultCallback message)
        (r, m) = (r, MainCallback.mqttSubDefaultCallback.leaves message.payloadEnd m) := by
      intro r
      cases callback with
      | mqttConfigCallback | mqttActionCallback | mqttSubDefaultCallback => rfl
    have hlast : ∀ memory, callsOf callback (callback.calls memory)
        [.mqttSubDefaultCallback] = [] := by
      intro memory
      cases callback with
      | mqttConfigCallback | mqttActionCallback | mqttSubDefaultCallback => rfl
    rw [List.reverse_cons, List.map_append, List.foldr_append, List.map_singleton,
      List.foldr_cons, List.foldr_nil, hnone, deliveredCalls_fixed hfixed, callsOf_append, hlast,
      List.append_nil]

end Delivered

/-- What a callback calls in a cycle, by what the packet hands over. -/
theorem cycleCalls_packet {p : WirePacket} (htype : p.type = PUBLISH) {s : Sys MainCallback}
    (h : Awaits p s) (readbuf : List UInt8) :
    cycleCalls json behind elsewhere callback (s.holding readbuf) =
      (p.handed ((readPacket s).2.net.env 0).stale).elim [] fun d =>
        messageCalls json callback d.2.1 d.2.2
          ⟨p.bytes ++ readbuf.drop p.bytes.length ++ behind, elsewhere⟩ (callbacksFor s d.1) := by
  obtain ⟨cells, rc, added, hlog, hadded⟩ := log_cycle htype (h.holding readbuf).readsPacket
  have hbuf : (readPacket (s.holding readbuf)).2.client.readbuf =
      p.bytes ++ readbuf.drop p.bytes.length := by
    rw [(h.holding readbuf).read]
    simp [Sys.holding, writeAt]
  have hhanded := @deserialize_packet p (p.bytes ++ readbuf.drop p.bytes.length) htype
    List.take_left ((readPacket s).2.net.env 0).stale
  have hcallbacks : ∀ topic, callbacksFor (s.holding readbuf) topic = callbacksFor s topic :=
    fun _ => rfl
  have hnone : ∀ r, added.foldr (deliveredCalls json callback) r = r := by
    intro r
    clear hlog
    induction added with
    | nil => rfl
    | cons e added ih =>
      rw [List.foldr_cons, ih fun e he => hadded e (.tail _ he)]
      cases e with
      | delivered called message => exact absurd rfl (hadded _ List.mem_cons_self called message)
      | read | sent | opened | closed => rfl
  rw [hbuf, net_holding h.token] at hlog
  rw [List.append_cons, ← List.append_assoc, ← List.append_assoc] at hlog
  rw [cycleCalls, newEntries_eq hlog, hbuf, ← hhanded, List.foldr_append, List.foldr_append, hnone,
    List.foldr_cons, List.foldr_nil]
  dsimp only [deliveredCalls]
  generalize mqttDeserializePublish ((readPacket s).2.net.env 0).stale
    (p.bytes ++ readbuf.drop p.bytes.length) = r at *
  by_cases hrc : r.1 = 1
  · rw [if_pos hrc, if_pos hrc, hcallbacks]
    exact deliveredCalls_all (callbacksFor s r.2.topicName)
  · rw [if_neg hrc, if_neg hrc]
    rfl

/-- In a cycle with a well-formed message, the callback makes the same call each time, if it does so
for the payload whatever stands behind it. -/
theorem cycleCalls_eq {p : Publication} {s : Sys MainCallback}
    (h : Awaits (Inbound.publish p).wire s) {call : Option Call}
    (hcall : ∀ left, callback.calls (cJsonParse json (p.payload ++ left)) = call)
    (readbuf : List UInt8) :
    cycleCalls json behind elsewhere callback (s.holding readbuf) =
      callsOf callback call (callbacksFor s p.topicName).reverse := by
  have htype : (Inbound.publish p).wire.type = PUBLISH := Inbound.type_header (.publish p)
  have hlength : (Inbound.publish p).wire.bytes.length -
      ((Inbound.publish p).wire.bytes.length - p.payload.length) = p.payload.length := by
    obtain ⟨front, hfront⟩ := bytes_payload p
    rw [hfront, List.length_append]
    omega
  rw [cycleCalls_packet htype h, handed_publish, Option.elim_some, messageCalls, ← callsAround_same]
  dsimp only [PayloadMemory.payload, MainCallback.leaves]
  rw [List.drop_set, if_neg (Nat.not_lt.mpr (Nat.sub_le _ _)), hlength, List.append_assoc,
    List.drop_append_of_le_length (Nat.sub_le _ _), drop_payload,
    List.set_append_right _ _ (Nat.le_refl _), hcall, hcall]

/-- A JSON text that begins with the payload and goes on behind it, with bytes that can follow
it in memory when there are `room` more of them in the buffer: what the callback calls for its
value is what it calls for the payload alone. -/
def OwnPayload (json : List UInt8 → Option CJson) (behind : List UInt8) (callback : MainCallback)
    (payload : List UInt8) (room : Nat) : Prop :=
  ∀ left, left.length = room → ∀ z v, Completes json payload (cstring (left ++ behind)) z v →
    callback.calls (some v) = callback.calls (longest json payload)

/-- What is called, with what is left behind the payload. -/
theorem calls_left {payload : List UInt8} (hnul : 0 ∉ payload) {room : Nat}
    (hroom : 0 < room) :
    (∀ left left', left.length = room → left'.length = room →
      callback.calls (cJsonParse json (payload ++ (left ++ behind))) =
        callback.calls (cJsonParse json (payload ++ (left' ++ behind)))) ↔
      OwnPayload json behind callback payload room := by
  have hparse : ∀ left, cJsonParse json (payload ++ (left ++ behind)) =
      longest json (payload ++ cstring (left ++ behind)) := by
    intro left
    rw [cJsonParse, cstring_append hnul]
  simp only [hparse]
  constructor
  · intro hsame left hleft z v hcompletes
    -- behind a NUL nothing is found
    have hend : (List.replicate room (0 : UInt8)).length = room := List.length_replicate
    have hnothing : cstring (List.replicate room 0 ++ behind) = [] := by
      obtain ⟨k, rfl⟩ := Nat.exists_eq_succ_of_ne_zero (Nat.ne_of_gt hroom)
      rfl
    have hcalls := hsame left _ hleft hend
    rwa [hcompletes.longest_eq, hnothing, List.append_nil] at hcalls
  · intro hown left left' hleft hleft'
    have halone : ∀ left, left.length = room →
        callback.calls (longest json (payload ++ cstring (left ++ behind))) =
          callback.calls (longest json payload) := by
      intro left hleft
      rcases longest_append json payload (cstring (left ++ behind)) with
        ⟨z, v, hcompletes, hrun⟩ | ⟨-, hrun⟩
      · rw [hrun]
        exact hown left hleft z v hcompletes
      · rw [hrun]
    rw [halone left hleft, halone left' hleft']

/-- A payload that ends itself. -/
theorem calls_ended {payload : List UInt8} (hnul : 0 ∈ payload) (left left' : List UInt8) :
    cJsonParse json (payload ++ left) = cJsonParse json (payload ++ left') := by
  obtain ⟨a, b, rfl⟩ := List.append_of_mem hnul
  have hstring : ∀ left, cstring (a ++ 0 :: b ++ left) = cstring a := by
    intro left
    rw [List.append_assoc, List.cons_append, cstring_nul]
  rw [cJsonParse, cJsonParse, hstring, hstring]

/-- The string of a callback: what the packet has from the payload on, what is left in the read
buffer behind both, and the memory behind that. -/
theorem drop_packet {p : WirePacket} {size : Nat} (hfits : p.bytes.length ≤ size)
    {readbuf : List UInt8} (hreadbuf : readbuf.length = size) (start : Nat) :
    (p.bytes ++ readbuf.drop p.bytes.length ++ behind).drop start =
      p.bytes.drop start ++
        (readbuf.drop (max p.bytes.length start) ++ behind.drop (start - size)) := by
  have hwhole : (p.bytes ++ readbuf.drop p.bytes.length).length = size := by
    rw [List.length_append, List.length_drop, hreadbuf]
    omega
  have hmax : p.bytes.length + (start - p.bytes.length) = max p.bytes.length start := by omega
  rw [List.drop_append, hwhole, List.drop_append, List.drop_drop, hmax, List.append_assoc]

/-- All contents of a buffer have all ends behind a place in it. -/
theorem forall_drop_iff {β : Type} {f : List UInt8 → β} {size k : Nat} :
    (∀ readbuf readbuf' : List UInt8, readbuf.length = size → readbuf'.length = size →
      f (readbuf.drop k) = f (readbuf'.drop k)) ↔
      ∀ left left', left.length = size - k → left'.length = size - k → f left = f left' := by
  constructor
  · intro hsame left left' hleft hleft'
    have hpad : ∀ left : List UInt8, left.length = size - k →
        (List.replicate (min k size) 0 ++ left).length = size ∧
          (List.replicate (min k size) 0 ++ left).drop k = left := by
      intro left hleft
      constructor
      · rw [List.length_append, List.length_replicate, hleft]
        omega
      · rw [List.drop_append, List.length_replicate, List.drop_replicate]
        rcases Nat.le_total k size with hle | hle
        · rw [Nat.min_eq_left hle, Nat.sub_self]
          rfl
        · have hnil : left = [] := List.eq_nil_of_length_eq_zero (by omega)
          rw [Nat.min_eq_right hle, Nat.sub_eq_zero_of_le hle, hnil, List.drop_nil]
          rfl
    have h := hsame _ _ (hpad left hleft).1 (hpad left' hleft').1
    rwa [(hpad left hleft).2, (hpad left' hleft').2] at h
  · intro hsame readbuf readbuf' hreadbuf hreadbuf'
    exact hsame _ _ (by rw [List.length_drop, hreadbuf]) (by rw [List.length_drop, hreadbuf'])

/-- A callback that is called with a payload that begins at a place in the read buffer makes no
other calls for what earlier packets have left: the payload ends itself, or nothing is left, or no
JSON text that it is the first part of makes a difference. -/
def Undisturbed (json : List UInt8 → Option CJson) (behind : List UInt8) (callback : MainCallback)
    (p : WirePacket) (size start : Nat) : Prop :=
  0 ∈ p.bytes.drop start ∨ size ≤ max p.bytes.length start ∨
    OwnPayload json behind callback (p.bytes.drop start) (size - max p.bytes.length start)

theorem undisturbed_iff {p : WirePacket} {size start : Nat} :
    (∀ readbuf readbuf' : List UInt8, readbuf.length = size → readbuf'.length = size →
      callback.calls (cJsonParse json
        (p.bytes.drop start ++ (readbuf.drop (max p.bytes.length start) ++
          behind.drop (start - size)))) =
      callback.calls (cJsonParse json
        (p.bytes.drop start ++ (readbuf'.drop (max p.bytes.length start) ++
          behind.drop (start - size))))) ↔
      Undisturbed json behind callback p size start := by
  rw [@forall_drop_iff _ (fun left => callback.calls (cJsonParse json
    (p.bytes.drop start ++ (left ++ behind.drop (start - size)))))]
  unfold Undisturbed
  by_cases hnul : 0 ∈ p.bytes.drop start
  · refine ⟨fun _ => .inl hnul, fun _ left left' _ _ => ?_⟩
    rw [calls_ended hnul]
  · rcases Nat.lt_or_ge (max p.bytes.length start) size with hroom | hfull
    · have hstart : start - size = 0 := by omega
      rw [hstart, List.drop_zero, calls_left hnul (Nat.sub_pos_of_lt hroom)]
      refine ⟨fun hown => .inr (.inr hown), ?_⟩
      intro h
      rcases h with hmem | hfull | hown
      · exact absurd hmem hnul
      · exact absurd hfull (Nat.not_le.mpr hroom)
      · exact hown
    · refine ⟨fun _ => .inr (.inl hfull), fun _ left left' hleft hleft' => ?_⟩
      rw [Nat.sub_eq_zero_of_le hfull] at hleft hleft'
      rw [List.eq_nil_of_length_eq_zero hleft, List.eq_nil_of_length_eq_zero hleft']

/-- The callbacks for a message whose string the default callback does not end: those before it,
or all of them, where it puts its NUL in front of the payload. -/
def unterminated (start stop : Nat) (callbacks : List MainCallback) : List MainCallback :=
  if stop < start then callbacks else beforeDefault callbacks

/-- A NUL ends the string. -/
theorem parse_set {x y : List UInt8} {k : Nat} (htake : x.take k = y.take k)
    (hlength : x.length = y.length) :
    cJsonParse json (x.set k 0) = cJsonParse json (y.set k 0) := by
  rcases Nat.lt_or_ge k x.length with hlt | hge
  · have hset : ∀ z : List UInt8, k < z.length → z.set k 0 = z.take k ++ [0] ++ z.drop (k + 1) := by
      intro z hz
      rw [List.set_eq_take_append_cons_drop, if_pos hz, List.append_assoc]
      rfl
    rw [hset x hlt, hset y (hlength ▸ hlt), htake]
    exact calls_ended (List.mem_append_right _ List.mem_cons_self) _ _
  · rw [List.take_of_length_le hge, List.take_of_length_le (hlength ▸ hge)] at htake
    rw [htake]

/-- In two memories that agree on the payload, a callback makes the same calls if and only if it
makes the same one where no NUL ends the payload. -/
theorem messageCalls_iff {start stop : Nat} {x y : List UInt8}
    (htake : start ≤ stop → (x.drop start).take (stop - start) = (y.drop start).take (stop - start))
    (hlength : x.length = y.length) (callbacks : List MainCallback) :
    messageCalls json callback (some start) (some stop) ⟨x, elsewhere⟩ callbacks =
        messageCalls json callback (some start) (some stop) ⟨y, elsewhere⟩ callbacks ↔
      (callback ∈ unterminated start stop callbacks →
        callback.calls (cJsonParse json (x.drop start)) =
          callback.calls (cJsonParse json (y.drop start))) := by
  simp only [messageCalls, MainCallback.leaves, PayloadMemory.payload, List.drop_set]
  have hinj : ∀ {callbacks : List MainCallback} {call call' : Option Call},
      callsOf callback call callbacks.reverse = callsOf callback call' callbacks.reverse ↔
        (callback ∈ callbacks → call = call') := by
    intro callbacks call call'
    by_cases hmem : callback ∈ callbacks
    · rw [callsOf_inj (List.mem_reverse.mpr hmem)]
      exact ⟨fun heq _ => heq, fun heq => heq hmem⟩
    · have hnone := callsOf_not_mem fun h => hmem (List.mem_reverse.mp h)
      rw [hnone, hnone]
      exact ⟨fun _ h => absurd h hmem, fun _ => rfl⟩
  unfold unterminated
  by_cases hbehind : stop < start
  · simp only [if_pos hbehind, callsAround_same]
    exact hinj
  · have hle := Nat.not_lt.mp hbehind
    have hdrop : (x.drop start).length = (y.drop start).length := by
      rw [List.length_drop, List.length_drop, hlength]
    simp only [if_neg hbehind, callsAround, parse_set (htake hle) hdrop, List.append_cancel_left_eq]
    exact hinj

/-- In two memories that have the packet in the read buffer. -/
theorem messageCalls_packet {p : WirePacket} {size start stop : Nat}
    (hfits : p.bytes.length ≤ size) (hstop : stop = p.bytes.length ∨ stop = start)
    {readbuf readbuf' : List UInt8} (hreadbuf : readbuf.length = size)
    (hreadbuf' : readbuf'.length = size) (callbacks : List MainCallback) :
    messageCalls json callback (some start) (some stop)
          ⟨p.bytes ++ readbuf.drop p.bytes.length ++ behind, elsewhere⟩ callbacks =
        messageCalls json callback (some start) (some stop)
          ⟨p.bytes ++ readbuf'.drop p.bytes.length ++ behind, elsewhere⟩ callbacks ↔
      (callback ∈ unterminated start stop callbacks →
        callback.calls (cJsonParse json
          (p.bytes.drop start ++ (readbuf.drop (max p.bytes.length start) ++
            behind.drop (start - size)))) =
        callback.calls (cJsonParse json
          (p.bytes.drop start ++ (readbuf'.drop (max p.bytes.length start) ++
            behind.drop (start - size))))) := by
  -- up to where the payload ends, the packet is all that is read
  have htake : ∀ readbuf : List UInt8, start ≤ stop →
      ((p.bytes ++ readbuf.drop p.bytes.length ++ behind).drop start).take (stop - start) =
        (p.bytes.drop start).take (stop - start) := by
    intro readbuf hle
    rcases hstop with rfl | rfl
    · rw [List.append_assoc, List.drop_append_of_le_length hle,
        List.take_append_of_le_length (by rw [List.length_drop])]
    · rw [Nat.sub_self, List.take_zero, List.take_zero]
  rw [← drop_packet hfits hreadbuf, ← drop_packet hfits hreadbuf']
  apply messageCalls_iff
  · intro hle
    rw [htake readbuf hle, htake readbuf' hle]
  · simp only [List.length_append, List.length_drop, hreadbuf, hreadbuf']

/-- The payload ends where the packet does, or has no length. -/
theorem handed_stop {p : WirePacket} {stale : Stale} {topicName : List UInt8} {start : Nat}
    {stop : Option Nat} (h : p.handed stale = some (topicName, some start, stop)) :
    ∃ i, stop = some i ∧ (i = p.bytes.length ∨ i = start) := by
  unfold WirePacket.handed at h
  split at h
  · cases h
    exact ⟨_, rfl, .inl rfl⟩
  · split at h
    · rw [Option.some_inj, Prod.mk.injEq, Prod.mk.injEq] at h
      exact ⟨_, h.2.2.symm.trans h.2.1, .inr rfl⟩
    · cases h

end Own

/-! A broker that sends the first part of a configuration: `rtc` is to be 1, but the text is not
closed. -/

/-- A JSON object with one integer `rtc`. -/
def rtcObject (text : List UInt8) : Option CJson :=
  let front := ascii "\x7b\"rtc\":"
  let digits := (text.drop front.length).dropLast
  if front <+: text ∧ text.getLast? = some 125 ∧ digits ≠ [] ∧
      digits.all (fun c => 48 ≤ c ∧ c ≤ 57) then
    some (.mk none 0 [.mk (some (ascii "rtc")) (Int32.ofNat (ofDecimal digits)) []])
  else none

def truncatedConfig : Publication :=
  ⟨false, 0, false, 0, ascii "mqtt/config", ascii "\x7b\"rtc\":1", by decide, by decide, by decide⟩

def configBroker (k : Nat) : EnvStep :=
  { EnvStep.quiet with
    arrive :=
      match k with
      | 0 => [⟨(Inbound.publish truncatedConfig).wire.bytes, by decide, by decide⟩]
      | _ => [] }

/-- The subscription to the configuration has been made. -/
def configSys : Sys MainCallback :=
  (sysInit connectDataInitializer (List.replicate 1024 0) .mqttSubDefaultCallback
    (Net.initial configBroker) fun _ => ascii "mqtt/config").setClient fun c =>
      { c with messageHandlers := [⟨some cigSubtopic, some .mqttConfigCallback⟩] }

theorem awaits_config : Awaits (Inbound.publish truncatedConfig).wire configSys where
  token := by decide +kernel
  queued := ⟨[], by decide +kernel⟩
  fits := by decide +kernel
  kept := by decide +kernel

/-- The value that a call sets the counter to. -/
def Call.counter : Call → Option UInt32
  | rtcSetCounter value => some value
  | dacSetVol _ => none

/-- What an earlier packet has left behind the truncated one. -/
def leftover (left : List UInt8) : List UInt8 :=
  List.replicate (Inbound.publish truncatedConfig).wire.bytes.length 0 ++ left ++
    List.replicate (1024 - (Inbound.publish truncatedConfig).wire.bytes.length - left.length) 0

end IBoxClient
