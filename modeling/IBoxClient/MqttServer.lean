import IBoxClient.Lib.Cursor
import IBoxClient.MqttReadnb

/- The broker's side of the packets (`MQTTConnectServer.c`, `MQTTSubscribeServer.c`,
   `MQTTUnsubscribeServer.c`), and the client's serialisers for any number of topic filters.

   What the client writes is read back. A `SUBSCRIBE` or `UNSUBSCRIBE` is read back with all of
   its filters, however many there are (`subscribe_round_trip`, `unsubscribe_round_trip`). A
   `CONNECT` is accepted unless it has a password without a user name, or ends in an empty user
   name or password, since of these three bytes at least are asked for; then all of its fields
   are those that were written (`connect_round_trip`). -/
namespace IBoxClient

open Bytes Cursor

/-! ## Functions of the broker -/

/-- `readMQTTLenString`: the string and the offset behind it. -/
def readMqttLenString (buf : List UInt8) (curdata enddata : Nat) : Option (List UInt8 × Nat) :=
  if enddata - curdata > 1 then
    let len := readInt buf curdata
    if curdata + 2 + len ≤ enddata then
      some ((buf.drop (curdata + 2)).take len, curdata + 2 + len)
    else none
  else none

/-- `MQTTPacket_checkVersion`; `memcmp` compares no more than the protocol name has. -/
def mqttPacketCheckVersion (protocol : List UInt8) (version : Nat) : Bool :=
  version = 3 ∧ protocol.take 6 = [77, 81, 73, 115, 100, 112].take (min 6 protocol.length) ∨
    version = 4 ∧ protocol.take 4 = [77, 81, 84, 84].take (min 4 protocol.length)

/-- The bit fields of `MQTTConnectFlags`. -/
def flagsCleansession (flags : UInt8) : Bool := flags.toNat / 2 % 2 = 1
def flagsWill (flags : UInt8) : Bool := flags.toNat / 4 % 2 = 1
def flagsWillQos (flags : UInt8) : Nat := flags.toNat / 8 % 4
def flagsWillRetain (flags : UInt8) : Nat := flags.toNat / 32 % 2
def flagsPassword (flags : UInt8) : Bool := flags.toNat / 64 % 2 = 1
def flagsUsername (flags : UInt8) : Bool := flags.toNat / 128 % 2 = 1

/-- A length-delimited string. -/
def MqttString.ofLenString (s : List UInt8) : MqttString := ⟨none, some s⟩

/-- The will of a `CONNECT`. -/
def readWill (buf : List UInt8) (enddata : Nat) (flags : UInt8) (data : ConnectData)
    (curdata : Nat) : Option (ConnectData × Nat) :=
  let data := { data with willFlag := flagsWill flags }
  if flagsWill flags then
    match readMqttLenString buf curdata enddata with
    | none => none
    | some (topicName, curdata) =>
      match readMqttLenString buf curdata enddata with
      | none => none
      | some (message, curdata) =>
        some ({ data with
          will :=
            { topicName := .ofLenString topicName
              message := .ofLenString message
              retained := flagsWillRetain flags
              qos := flagsWillQos flags } }, curdata)
  else some (data, curdata)

/-- The user name and the password of a `CONNECT`. -/
def readCredentials (buf : List UInt8) (enddata : Nat) (flags : UInt8) (data : ConnectData)
    (curdata : Nat) : Option ConnectData :=
  if flagsUsername flags then
    if enddata - curdata < 3 then none
    else
      match readMqttLenString buf curdata enddata with
      | none => none
      | some (username, curdata) =>
        let data := { data with username := .ofLenString username }
        if flagsPassword flags then
          if enddata - curdata < 3 then none
          else
            match readMqttLenString buf curdata enddata with
            | none => none
            | some (password, _) => some { data with password := .ofLenString password }
        else some data
  else if flagsPassword flags then none
  else some data

/-- `MQTTDeserialize_connect` of `len` bytes, into `data`; there is nothing to be had from a
packet for which it returns 0. -/
def mqttDeserializeConnect (data : ConnectData) (buf : List UInt8) (len : Nat) :
    Option ConnectData :=
  if headerType (readChar buf 0) ≠ CONNECT then none
  else
    match readMqttLenString buf (1 + (mqttPacketDecodeBuf (buf.drop 1)).1) len with
    | none => none
    | some (protocol, curdata) =>
      if len < curdata then none
      else if mqttPacketCheckVersion protocol (readChar buf curdata).toNat then
        let flags := readChar buf (curdata + 1)
        match readMqttLenString buf (curdata + 4) len with
        | none => none
        | some (clientId, curdata') =>
          let data :=
            { data with
              cleansession := flagsCleansession flags
              keepAliveInterval := readInt buf (curdata + 2)
              clientId := .ofLenString clientId }
          match readWill buf len flags data curdata' with
          | none => none
          | some (data, curdata) => readCredentials buf len flags data curdata
      else none

/-- What `MQTTDeserialize_subscribe` and `MQTTDeserialize_unsubscribe` store. -/
structure SubscribeData where
  dup : Nat
  packetId : Nat
  topicFilters : List (List UInt8)
  requestedQoss : List Nat
  deriving DecidableEq

/-- The loop over the topic filters, as long as there are bytes: whether all of them could be
read, the filters, and the requested QoS of each where there is one. `maxcount` is not looked
at. -/
def topicLoop (buf : List UInt8) (enddata : Nat) (withQos : Bool) :
    Nat → Nat → Bool × List (List UInt8) × List Nat
  | 0, _ => (true, [], [])
  | rounds + 1, curdata =>
    if curdata < enddata then
      match readMqttLenString buf curdata enddata with
      | none => (false, [], [])
      | some (topicFilter, curdata) =>
        if withQos then
          if curdata ≥ enddata then (false, [], [])
          else
            let r := topicLoop buf enddata withQos rounds (curdata + 1)
            (r.1, topicFilter :: r.2.1, (readChar buf curdata).toNat :: r.2.2)
        else
          let r := topicLoop buf enddata withQos rounds curdata
          (r.1, topicFilter :: r.2.1, r.2.2)
    else (true, [], [])

/-- `MQTTDeserialize_subscribe` and `MQTTDeserialize_unsubscribe`, which differ in the type of
the packet, the code of another type, and the QoS behind every filter. Where a filter cannot be
read the number of length bytes is returned. -/
def mqttDeserializeTopics (packettype : Nat) (other : Int) (withQos : Bool)
    (stale : SubscribeData) (buf : List UInt8) : Int × SubscribeData :=
  let header := readChar buf 0
  if headerType header ≠ packettype then (other, stale)
  else
    let d := mqttPacketDecodeBuf (buf.drop 1)
    let curdata := 1 + d.1
    let enddata := curdata + d.2
    let r := topicLoop buf enddata withQos (enddata - (curdata + 2)) (curdata + 2)
    (if r.1 then 1 else d.1,
      { dup := headerDup header
        packetId := readInt buf curdata
        topicFilters := r.2.1
        requestedQoss := r.2.2 })

/-- `MQTTDeserialize_subscribe`. -/
def mqttDeserializeSubscribe : SubscribeData → List UInt8 → Int × SubscribeData :=
  mqttDeserializeTopics SUBSCRIBE (-1) true

/-- `MQTTDeserialize_unsubscribe`. -/
def mqttDeserializeUnsubscribe : SubscribeData → List UInt8 → Int × SubscribeData :=
  mqttDeserializeTopics UNSUBSCRIBE 0 false

/-- `MQTTSerialize_suback`. -/
def mqttSerializeSuback (buflen packetid : Nat) (grantedQoss : List Nat) :
    Except Int (List UInt8) :=
  if buflen < 2 + grantedQoss.length then .error bufferTooShort
  else
    .ok (headerByte SUBACK 0 0 0 :: mqttPacketEncode (2 + grantedQoss.length) ++
      writeInt packetid ++ grantedQoss.map UInt8.ofNat)

/-! ## The client, for any number of topic filters -/

/-- `MQTTSerialize_subscribeLength`. -/
def mqttSerializeSubscribeLength (topics : List (MqttString × Nat)) : Nat :=
  2 + (topics.map fun t => 2 + mqttStrlen t.1 + 1).sum

/-- `MQTTSerialize_subscribe`. -/
def mqttSerializeSubscribes (buflen dup packetid : Nat) (topics : List (MqttString × Nat)) :
    Except Int (List UInt8) :=
  let remLen := mqttSerializeSubscribeLength topics
  if mqttPacketLen remLen > buflen then .error bufferTooShort
  else
    .ok (headerByte SUBSCRIBE dup 1 0 :: mqttPacketEncode remLen ++ writeInt packetid ++
      topics.flatMap fun t => writeMqttString t.1 ++ [UInt8.ofNat t.2])

/-- `MQTTSerialize_unsubscribeLength`. -/
def mqttSerializeUnsubscribeLength (topicFilters : List MqttString) : Nat :=
  2 + (topicFilters.map fun t => 2 + mqttStrlen t).sum

/-- `MQTTSerialize_unsubscribe`. -/
def mqttSerializeUnsubscribes (buflen dup packetid : Nat) (topicFilters : List MqttString) :
    Except Int (List UInt8) :=
  let remLen := mqttSerializeUnsubscribeLength topicFilters
  if mqttPacketLen remLen > buflen then .error bufferTooShort
  else
    .ok (headerByte UNSUBSCRIBE dup 1 0 :: mqttPacketEncode remLen ++ writeInt packetid ++
      topicFilters.flatMap writeMqttString)

/-- One topic filter is the case the client has. -/
theorem mqttSerializeSubscribes_one (buflen dup packetid : Nat) (topicFilter : MqttString)
    (requestedQos : Nat) :
    mqttSerializeSubscribes buflen dup packetid [(topicFilter, requestedQos)] =
      mqttSerializeSubscribe buflen dup packetid topicFilter requestedQos := by
  simp [mqttSerializeSubscribes, mqttSerializeSubscribe, mqttSerializeSubscribeLength,
    Nat.add_assoc]

theorem mqttSerializeUnsubscribes_one (buflen dup packetid : Nat) (topicFilter : MqttString) :
    mqttSerializeUnsubscribes buflen dup packetid [topicFilter] =
      mqttSerializeUnsubscribe buflen dup packetid topicFilter := by
  simp [mqttSerializeUnsubscribes, mqttSerializeUnsubscribe, mqttSerializeUnsubscribeLength]

/-! ## Reading at an offset -/

section Reading
variable {buf xs : List UInt8} {off : Nat}

theorem readChar_holds {c : UInt8} (h : HoldsAt buf off (c :: xs)) : readChar buf off = c :=
  h.getD 0

theorem readInt_holds {n : Nat} (h : HoldsAt buf off (writeInt n)) (hn : n < 65536) :
    readInt buf off = n := by
  obtain ⟨zs, hzs⟩ := h
  rw [readInt_drop, ← hzs]
  exact readInt_writeInt hn zs

/-- A string is read back if it ends in time. -/
theorem readMqttLenString_holds {s : List UInt8} (h : HoldsAt buf off (writeInt s.length ++ s))
    (hs : s.length < 65536) (enddata : Nat) :
    readMqttLenString buf off enddata =
      if off + 2 + s.length ≤ enddata then some (s, off + 2 + s.length) else none := by
  have hbody : HoldsAt buf (off + 2) s := h.right
  rw [readMqttLenString, readInt_holds h.left hs]
  dsimp only
  rw [hbody.take]
  by_cases hfits : off + 2 + s.length ≤ enddata
  · rw [if_pos hfits, if_pos (by omega)]
  · rw [if_neg hfits]
    split <;> rfl

end Reading

/-! ## Strings -/

namespace MqttString

/-- The bytes of the string that is written. -/
def text (s : MqttString) : List UInt8 :=
  let data := s.lenstring.getD []
  if data.length > 0 then data else s.cstring.getD []

/-- The string has one length, whichever of its two forms is looked at, and it fits into two
bytes. -/
structure Plain (s : MqttString) : Prop where
  strlen_eq : mqttStrlen s = s.text.length
  lt : s.text.length < 65536

theorem write_eq (s : MqttString) : writeMqttString s = writeInt s.text.length ++ s.text := by
  unfold writeMqttString text
  dsimp only
  split
  · rfl
  · cases s.cstring <;> rfl

theorem length_write (s : MqttString) : (writeMqttString s).length = 2 + s.text.length := by
  rw [write_eq, List.length_append, length_writeInt]

/-- A C string is plain. -/
theorem plain_ofCString {s : List UInt8} (h : s.length < 65536) : (ofCString s).Plain :=
  ⟨rfl, h⟩

end MqttString

/-! ## Packets that are written -/

/-- `MQTTPacket_len` is never less than what is written. -/
theorem le_mqttPacketLen {n : Nat} (hn : n < 268435456) :
    1 + (mqttPacketEncode n).length + n ≤ mqttPacketLen n := by
  have hone : ∀ digits m, (encodeDigits (digits + 1) m).length =
      if m / 128 > 0 then (encodeDigits digits (m / 128)).length + 1 else 1 := by
    intro digits m
    rw [encodeDigits]
    split <;> rfl
  have hdigits : (mqttPacketEncode n).length =
      if n < 128 then 1 else if n < 16384 then 2 else if n < 2097152 then 3 else 4 := by
    rw [mqttPacketEncode, hone, hone, hone, hone]
    split_ifs <;> omega
  rw [hdigits]
  unfold mqttPacketLen
  dsimp only
  split_ifs <;> omega

/-- A packet with a body as long as it says. -/
theorem packet_fits {type : Nat} (dup qos retain : Nat) {remLen buflen : Nat} {body : List UInt8}
    (htype : type % 16 ≠ 0) (hlen : body.length = remLen) (hlt : remLen < 268435456)
    (hbuf : ¬ mqttPacketLen remLen > buflen) :
    ∃ w : WirePacket, w.bytes = headerByte type dup qos retain :: (mqttPacketEncode remLen ++ body) ∧
      w.header = headerByte type dup qos retain ∧ w.body = body ∧ w.bytes.length ≤ buflen := by
  subst hlen
  refine ⟨⟨headerByte type dup qos retain, body, ?_, hlt⟩, rfl, rfl, rfl, ?_⟩
  · rw [headerType_headerByte]
    exact htype
  · have hle := le_mqttPacketLen hlt
    rw [length_bytes]
    dsimp only
    omega

/-- The front of a buffer that a packet has been read into. -/
theorem buffer_front (w : WirePacket) (tail : List UInt8) :
    readChar (w.bytes ++ tail) 0 = w.header ∧
      mqttPacketDecodeBuf ((w.bytes ++ tail).drop 1) =
        ((mqttPacketEncode w.body.length).length, w.body.length) ∧
      HoldsAt (w.bytes ++ tail) (1 + (mqttPacketEncode w.body.length).length) w.body := by
  obtain ⟨hheader, hdecode, -⟩ := @buffer_of_packet w (w.bytes ++ tail) List.take_left
  have hrest : HoldsAt (w.bytes ++ tail) 1 (mqttPacketEncode w.body.length ++ w.body) :=
    (holdsAt_front w.bytes tail).tail
  exact ⟨hheader, hdecode, hrest.right⟩

/-! ## `CONNECT` -/

namespace ConnectData

/-- The options describe a packet of version 3 or 4, with plain strings where they are used. -/
structure Writable (options : ConnectData) : Prop where
  version : options.mqttVersion = 3 ∨ options.mqttVersion = 4
  keepAlive_lt : options.keepAliveInterval < 65536
  clientId : options.clientId.Plain
  topicName : options.willFlag = true → options.will.topicName.Plain
  message : options.willFlag = true → options.will.message.Plain
  retained_lt : options.will.retained < 2
  qos_lt : options.will.qos < 4
  username : options.username.present = true → options.username.Plain
  password : options.password.present = true → options.password.Plain

/-- What the broker accepts: a password comes with a user name, and the last one of the two is
not empty. -/
def Accepted (options : ConnectData) : Prop :=
  (options.password.present = true →
    options.username.present = true ∧ options.password.text ≠ []) ∧
  (options.username.present = true → options.password.present = false →
    options.username.text ≠ [])

instance (options : ConnectData) : Decidable options.Accepted := by
  unfold Accepted
  infer_instance

/-- What the broker has in `data` then. -/
def received (data options : ConnectData) : ConnectData where
  mqttVersion := data.mqttVersion
  clientId := .ofLenString options.clientId.text
  keepAliveInterval := options.keepAliveInterval
  cleansession := options.cleansession
  willFlag := options.willFlag
  will :=
    if options.willFlag then
      { topicName := .ofLenString options.will.topicName.text
        message := .ofLenString options.will.message.text
        retained := options.will.retained
        qos := options.will.qos }
    else data.will
  username :=
    if options.username.present then .ofLenString options.username.text else data.username
  password :=
    if options.password.present then .ofLenString options.password.text else data.password

/-- The protocol name and the version. -/
def protocol (options : ConnectData) : List UInt8 :=
  if options.mqttVersion = 4 then [77, 81, 84, 84] else [77, 81, 73, 115, 100, 112]

def versionByte (options : ConnectData) : UInt8 := if options.mqttVersion = 4 then 4 else 3

def willPart (options : ConnectData) : List UInt8 :=
  if options.willFlag then
    writeMqttString options.will.topicName ++ writeMqttString options.will.message
  else []

def usernamePart (options : ConnectData) : List UInt8 :=
  if options.username.present then writeMqttString options.username else []

def passwordPart (options : ConnectData) : List UInt8 :=
  if options.password.present then writeMqttString options.password else []

/-- The packet behind its length. -/
def body (options : ConnectData) : List UInt8 :=
  writeInt options.protocol.length ++ options.protocol ++ (options.versionByte ::
    connectFlags options :: (writeInt options.keepAliveInterval ++
      (writeInt options.clientId.text.length ++ options.clientId.text ++ (options.willPart ++
        (options.usernamePart ++ options.passwordPart)))))

variable {options : ConnectData}

/-- The fields of a byte put together from four bits and the fields of a will. -/
theorem flag_bits (clean will password username : Bool) {qos retained : Nat} (hqos : qos < 4)
    (hretained : retained < 2) {flags : UInt8}
    (h : flags = UInt8.ofNat ((if clean then 2 else 0) +
      (if will then 4 + qos % 4 * 8 + retained % 2 * 32 else 0) +
      (if password then 64 else 0) + (if username then 128 else 0))) :
    flagsCleansession flags = clean ∧ flagsWill flags = will ∧
      (will = true → flagsWillQos flags = qos ∧ flagsWillRetain flags = retained) ∧
      flagsPassword flags = password ∧ flagsUsername flags = username := by
  have hn : flags.toNat = (if clean then 2 else 0) +
      (if will then 4 + qos % 4 * 8 + retained % 2 * 32 else 0) +
      (if password then 64 else 0) + (if username then 128 else 0) := by
    rw [h, UInt8.toNat_ofNat']
    apply Nat.mod_eq_of_lt
    split_ifs <;> omega
  simp only [flagsCleansession, flagsWill, flagsWillQos, flagsWillRetain, flagsPassword,
    flagsUsername]
  generalize flags.toNat = n at hn ⊢
  cases clean <;> cases will <;> cases password <;> cases username <;>
    simp only [Bool.false_eq_true, if_false, if_true, decide_eq_true_eq, decide_eq_false_iff_not,
      false_implies, forall_const, true_and] at hn ⊢ <;> omega

theorem checkVersion (h : options.Writable) :
    mqttPacketCheckVersion options.protocol options.versionByte.toNat = true := by
  unfold protocol versionByte
  rcases h.version with hv | hv
  · rw [hv]
    decide
  · rw [hv]
    decide

/-- The length that is written is that of the body. -/
theorem length_body (h : options.Writable) :
    options.body.length = mqttSerializeConnectLength options ∧ options.body.length < 268435456 := by
  have hclient := h.clientId.lt
  have hwill : options.willPart.length = (if options.willFlag then
      mqttStrlen options.will.topicName + 2 + mqttStrlen options.will.message + 2 else 0) ∧
      options.willPart.length < 140000 := by
    unfold willPart
    split
    · rename_i hset
      have htopic := h.topicName hset
      have hmessage := h.message hset
      have := htopic.lt
      have := hmessage.lt
      rw [List.length_append, MqttString.length_write, MqttString.length_write,
        htopic.strlen_eq, hmessage.strlen_eq]
      omega
    · exact ⟨rfl, by decide⟩
  have hcredential : ∀ s : MqttString, (s.present = true → s.Plain) →
      (if s.present then writeMqttString s else []).length =
        (if s.present then mqttStrlen s + 2 else 0) ∧
      (if s.present then writeMqttString s else []).length < 70000 := by
    intro s hs
    split
    · rename_i hset
      have hlt := (hs hset).lt
      rw [MqttString.length_write, (hs hset).strlen_eq]
      omega
    · exact ⟨rfl, by decide⟩
  have husername := hcredential options.username h.username
  have hpassword := hcredential options.password h.password
  have hprotocol : options.protocol.length + 6 =
      if options.mqttVersion = 3 then 12 else if options.mqttVersion = 4 then 10 else 0 := by
    unfold protocol
    rcases h.version with hv | hv <;> rw [hv] <;> rfl
  have hle : options.protocol.length ≤ 6 := by
    unfold protocol
    split <;> decide
  simp only [body, List.length_append, List.length_cons, length_writeInt,
    mqttSerializeConnectLength, usernamePart, passwordPart, h.clientId.strlen_eq]
  omega

theorem serializeConnect_eq {buflen : Nat} {bytes : List UInt8}
    (hs : mqttSerializeConnect buflen options = .ok bytes) :
    ¬ mqttPacketLen (mqttSerializeConnectLength options) > buflen ∧
      bytes = headerByte CONNECT 0 0 0 ::
        (mqttPacketEncode (mqttSerializeConnectLength options) ++ options.body) := by
  unfold mqttSerializeConnect at hs
  dsimp only at hs
  split at hs
  · cases hs
  · rename_i hfit
    refine ⟨hfit, ?_⟩
    rw [← Except.ok.inj hs]
    simp only [body, protocol, versionByte, willPart, usernamePart, passwordPart, writeCString,
      MqttString.write_eq options.clientId]
    split_ifs <;> simp

section Read
variable {buf : List UInt8} {off enddata : Nat}

/-- A plain string is read back. -/
theorem read_plain {s : MqttString} (hs : s.Plain) (hb : HoldsAt buf off (writeMqttString s))
    (hend : off + (writeMqttString s).length ≤ enddata) :
    readMqttLenString buf off enddata = some (s.text, off + (writeMqttString s).length) := by
  have hlen := s.length_write
  rw [s.write_eq] at hb
  rw [readMqttLenString_holds hb hs.lt, if_pos (by omega), hlen, Nat.add_assoc]

theorem readWill_holds (h : options.Writable) (hb : HoldsAt buf off options.willPart)
    (hend : off + options.willPart.length ≤ enddata) (data : ConnectData) :
    readWill buf enddata (connectFlags options) data off =
      some ({ data with
        willFlag := options.willFlag
        will :=
          if options.willFlag then
            { topicName := .ofLenString options.will.topicName.text
              message := .ofLenString options.will.message.text
              retained := options.will.retained
              qos := options.will.qos }
          else data.will }, off + options.willPart.length) := by
  obtain ⟨-, hwill, hfields, -⟩ := flag_bits options.cleansession options.willFlag
    options.password.present options.username.present h.qos_lt h.retained_lt rfl
  rw [← connectFlags] at hwill hfields
  rw [readWill, hwill]
  by_cases hset : options.willFlag = true
  · obtain ⟨hqos, hretained⟩ := hfields hset
    rw [willPart, if_pos hset] at hb hend ⊢
    rw [List.length_append] at hend
    simp only [if_pos hset]
    rw [read_plain (h.topicName hset) hb.left (by omega)]
    dsimp only
    rw [read_plain (h.message hset) hb.right (by omega)]
    simp only [hqos, hretained, List.length_append, Nat.add_assoc]
  · rw [willPart, if_neg hset]
    simp only [if_neg hset]
    rfl

/-- Three bytes are there for a string that is last unless it is empty. -/
theorem length_write_lt {s : MqttString} : (writeMqttString s).length < 3 ↔ s.text = [] := by
  rw [s.length_write, ← List.length_eq_zero_iff]
  omega

theorem readCredentials_holds (h : options.Writable)
    (hb : HoldsAt buf off (options.usernamePart ++ options.passwordPart))
    (hend : enddata = off + options.usernamePart.length + options.passwordPart.length)
    (data : ConnectData) :
    readCredentials buf enddata (connectFlags options) data off =
      if options.Accepted then
        some { data with
          username :=
            if options.username.present then .ofLenString options.username.text
            else data.username
          password :=
            if options.password.present then .ofLenString options.password.text
            else data.password }
      else none := by
  obtain ⟨-, -, -, hpassword, husername⟩ := flag_bits options.cleansession options.willFlag
    options.password.present options.username.present h.qos_lt h.retained_lt rfl
  rw [← connectFlags] at hpassword husername
  rw [readCredentials, hpassword, husername]
  by_cases huser : options.username.present = true
  · have hname := h.username huser
    have hread := @read_plain buf off enddata _ hname
    rw [usernamePart, if_pos huser] at hb hend
    rw [if_pos huser]
    by_cases hpass : options.password.present = true
    · have hword := h.password hpass
      have hread' := @read_plain buf (off + (writeMqttString options.username).length) enddata _ hword
      rw [passwordPart, if_pos hpass] at hb hend
      have htwo := options.username.length_write
      have htwo' := options.password.length_write
      have hlast : enddata - (off + (writeMqttString options.username).length) < 3 ↔
          options.password.text = [] := by
        rw [← length_write_lt]
        omega
      rw [if_neg (by omega), hread hb.left (by omega)]
      dsimp only
      rw [if_pos hpass, hread' hb.right (by omega)]
      by_cases hempty : options.password.text = []
      · have hacc : ¬ options.Accepted := fun hacc => (hacc.1 hpass).2 hempty
        rw [if_pos (hlast.mpr hempty), if_neg hacc]
      · have hacc : options.Accepted :=
          ⟨fun _ => ⟨huser, hempty⟩, fun _ hno => absurd hpass (by rw [hno]; decide)⟩
        rw [if_neg (hlast.not.mpr hempty), if_pos hacc, if_pos huser, if_pos hpass]
    · rw [passwordPart, if_neg hpass, List.length_nil, Nat.add_zero] at hend
      have hlast : enddata - off < 3 ↔ options.username.text = [] := by
        rw [← length_write_lt]
        omega
      by_cases hempty : options.username.text = []
      · have hacc : ¬ options.Accepted :=
          fun hacc => hacc.2 huser (Bool.eq_false_of_not_eq_true hpass) hempty
        rw [if_pos (hlast.mpr hempty), if_neg hacc]
      · have hacc : options.Accepted := ⟨fun hyes => absurd hyes hpass, fun _ _ => hempty⟩
        rw [if_neg (hlast.not.mpr hempty), hread hb.left (by omega)]
        dsimp only
        rw [if_neg hpass, if_pos hacc, if_pos huser, if_neg hpass]
  · rw [if_neg huser]
    by_cases hpass : options.password.present = true
    · have hacc : ¬ options.Accepted := fun hacc => huser (hacc.1 hpass).1
      rw [if_pos hpass, if_neg hacc]
    · have hacc : options.Accepted :=
        ⟨fun hyes => absurd hyes hpass, fun hyes => absurd hyes huser⟩
      rw [if_neg hpass, if_pos hacc, if_neg huser, if_neg hpass]

end Read

/-- **What is written is read, if it is accepted.** The broker takes the `CONNECT` of a client for
what it is, or not at all; and exactly the options with `Accepted` are taken. -/
theorem connect_round_trip {options : ConnectData} (h : options.Writable) {buflen : Nat}
    {bytes : List UInt8} (hs : mqttSerializeConnect buflen options = .ok bytes)
    (data : ConnectData) (tail : List UInt8) :
    bytes.length ≤ buflen ∧ mqttDeserializeConnect data (bytes ++ tail) bytes.length =
      if options.Accepted then some (data.received options) else none := by
  obtain ⟨hfit, hbytes⟩ := serializeConnect_eq hs
  obtain ⟨hlen, hlt⟩ := length_body h
  rw [hlen] at hlt
  obtain ⟨w, hw, hheader, hbody, hle⟩ := packet_fits 0 0 0 (by decide : CONNECT % 16 ≠ 0) hlen hlt hfit
  rw [← hw] at hbytes
  subst hbytes
  refine ⟨hle, ?_⟩
  obtain ⟨hfirst, hdecode, hat⟩ := buffer_front w tail
  have hsize := length_bytes w
  rw [hbody] at hdecode hat hsize
  generalize (mqttPacketEncode options.body.length).length = digits at hdecode hat hsize
  have hbodylen : options.body.length = 2 + options.protocol.length + 4 +
      (2 + options.clientId.text.length) + options.willPart.length +
      options.usernamePart.length + options.passwordPart.length := by
    simp only [body, List.length_append, List.length_cons, length_writeInt]
    omega
  have hprotocol_lt : options.protocol.length < 65536 := by
    unfold protocol
    split <;> decide
  -- the fields, one behind another
  have hprotocol : HoldsAt (w.bytes ++ tail) (1 + digits)
      (writeInt options.protocol.length ++ options.protocol) := hat.left
  have hversion := hat.right
  rw [List.length_append, length_writeInt, ← Nat.add_assoc] at hversion
  have hflags := hversion.tail
  have hkeepalive := hflags.tail
  have hclient := hkeepalive.right
  rw [length_writeInt] at hclient
  have hwill := hclient.right
  rw [List.length_append, length_writeInt, ← Nat.add_assoc] at hwill
  have hcredentials := hwill.right
  obtain ⟨hclean, -⟩ := flag_bits options.cleansession options.willFlag
    options.password.present options.username.present h.qos_lt h.retained_lt rfl
  rw [← connectFlags] at hclean
  have htype : headerType (readChar (w.bytes ++ tail) 0) = CONNECT := by
    rw [hfirst, hheader]
    exact headerType_headerByte ..
  unfold mqttDeserializeConnect
  rw [htype, hdecode, if_neg (fun hne => hne rfl),
    readMqttLenString_holds hprotocol hprotocol_lt, if_pos (by omega)]
  dsimp only
  rw [if_neg (by omega), readChar_holds hversion, if_pos (checkVersion h), readChar_holds hflags,
    readMqttLenString_holds hclient.left h.clientId.lt, if_pos (by omega)]
  dsimp only
  rw [readInt_holds hkeepalive.left h.keepAlive_lt, readWill_holds h hwill.left (by omega)]
  dsimp only
  rw [readCredentials_holds h hcredentials (by omega), hclean]
  split <;> rfl

/-- A client without a will. -/
def plainOptions (username password : MqttString) : ConnectData where
  mqttVersion := 4
  clientId := .ofCString [105]
  keepAliveInterval := 60
  cleansession := true
  willFlag := false
  will := ⟨⟨none, none⟩, ⟨none, none⟩, 0, 0⟩
  username := username
  password := password

/-- One with a will of QoS 1 that is retained. -/
def willOptions : ConnectData :=
  { plainOptions (.ofCString [117]) (.ofCString [112, 119]) with
    willFlag := true
    will := ⟨.ofCString [119, 47], .ofCString [120], 1, 1⟩ }

/-- A will and a password are taken; an empty user name at the end is not. -/
theorem connect_round_trip_will :
    mqttDeserializeConnect willOptions
        ([16, 27, 0, 4, 77, 81, 84, 84, 4, 238, 0, 60, 0, 1, 105, 0, 2, 119, 47, 0, 1, 120, 0, 1,
          117, 0, 2, 112, 119] ++ [7]) 29 = some (willOptions.received willOptions) ∧
      mqttDeserializeConnect willOptions
        ([16, 15, 0, 4, 77, 81, 84, 84, 4, 130, 0, 60, 0, 1, 105, 0, 0] ++ [7]) 17 = none := by
  have hplain : ∀ c : UInt8, (MqttString.ofCString [c]).Plain :=
    fun _ => MqttString.plain_ofCString (by simp)
  have htwo : ∀ c d : UInt8, (MqttString.ofCString [c, d]).Plain :=
    fun _ _ => MqttString.plain_ofCString (by simp)
  have hwill : willOptions.Writable :=
    ⟨.inr rfl, by decide, hplain _, fun _ => htwo _ _, fun _ => hplain _, by decide, by decide,
      fun _ => hplain _, fun _ => htwo _ _⟩
  have hempty : (plainOptions (.ofCString []) ⟨none, none⟩).Writable :=
    ⟨.inr rfl, by decide, hplain _, nofun, nofun, by decide, by decide,
      fun _ => MqttString.plain_ofCString (by decide), nofun⟩
  constructor
  · exact (@connect_round_trip willOptions hwill 29 _ (by decide +kernel) willOptions [7]).2
  · exact (@connect_round_trip (plainOptions (.ofCString []) ⟨none, none⟩) hempty 17 _
      (by decide +kernel) willOptions [7]).2

end ConnectData

/-! ## `SUBSCRIBE` and `UNSUBSCRIBE` -/

/-- A topic filter on the wire. -/
def topicBytes (withQos : Bool) (t : List UInt8 × Nat) : List UInt8 :=
  writeInt t.1.length ++ t.1 ++ if withQos then [UInt8.ofNat t.2] else []

/-- The loop reads all of the filters up to the end of the packet. -/
theorem topicLoop_holds {buf : List UInt8} {enddata : Nat} (withQos : Bool)
    {topics : List (List UInt8 × Nat)} (htopics : ∀ t ∈ topics, t.1.length < 65536 ∧ t.2 < 256)
    {rounds off : Nat} (hb : HoldsAt buf off (topics.flatMap (topicBytes withQos)))
    (hend : enddata = off + (topics.flatMap (topicBytes withQos)).length)
    (hrounds : enddata ≤ off + rounds) :
    topicLoop buf enddata withQos rounds off =
      (true, topics.map Prod.fst, if withQos then topics.map Prod.snd else []) := by
  induction topics generalizing rounds off with
  | nil =>
    have hdone : ¬ off < enddata := by
      rw [hend, List.flatMap_nil, List.length_nil]
      omega
    cases rounds with
    | zero => cases withQos <;> rfl
    | succ rounds =>
      rw [topicLoop, if_neg hdone]
      cases withQos <;> rfl
  | cons t topics ih =>
    obtain ⟨⟨hlen, hqos⟩, hrest⟩ := List.forall_mem_cons.mp htopics
    rw [List.flatMap_cons] at hb hend
    have hhead := hb.left
    have htail := hb.right
    have hsize : (topicBytes withQos t).length = 2 + t.1.length + if withQos then 1 else 0 := by
      rw [topicBytes, List.length_append, List.length_append, length_writeInt]
      cases withQos <;> rfl
    rw [List.length_append, hsize] at hend
    rw [hsize] at htail
    obtain ⟨rounds, rfl⟩ : ∃ k, rounds = k + 1 := ⟨rounds - 1, by omega⟩
    rw [topicLoop, if_pos (by omega), readMqttLenString_holds hhead.left hlen,
      if_pos (by omega)]
    cases withQos with
    | true =>
      simp only [if_true] at hend htail ⊢
      have hbyte : HoldsAt buf (off + 2 + t.1.length) [UInt8.ofNat t.2] := by
        have hlast := hhead.right
        rwa [List.length_append, length_writeInt, ← Nat.add_assoc] at hlast
      have hvalue : (UInt8.ofNat t.2).toNat = t.2 := by
        rw [UInt8.toNat_ofNat']
        exact Nat.mod_eq_of_lt hqos
      have hnext := @ih hrest rounds (off + 2 + t.1.length + 1)
        (by rwa [show off + (2 + t.1.length + 1) = off + 2 + t.1.length + 1 by omega] at htail)
        (by omega) (by omega)
      rw [if_neg (by omega), hnext, readChar_holds hbyte, hvalue]
      rfl
    | false =>
      simp only [Bool.false_eq_true, if_false, Nat.add_zero] at hend htail ⊢
      have hnext := @ih hrest rounds (off + 2 + t.1.length)
        (by rwa [← Nat.add_assoc] at htail) (by omega) (by omega)
      rw [hnext]
      rfl

/-- Reading a packet with a packet id and topic filters. -/
theorem deserializeTopics_packet {packettype packetid dup : Nat} {other : Int} (withQos : Bool)
    {topics : List (List UInt8 × Nat)} {w : WirePacket}
    (htype : packettype % 16 = packettype) (hheader : w.header = headerByte packettype dup 1 0)
    (hbody : w.body = writeInt packetid ++ topics.flatMap (topicBytes withQos))
    (hdup : dup < 2) (hid : packetid < 65536)
    (htopics : ∀ t ∈ topics, t.1.length < 65536 ∧ t.2 < 256) (stale : SubscribeData)
    (tail : List UInt8) :
    mqttDeserializeTopics packettype other withQos stale (w.bytes ++ tail) =
      (1, ⟨dup, packetid, topics.map Prod.fst, if withQos then topics.map Prod.snd else []⟩) := by
  obtain ⟨hfirst, hdecode, hat⟩ := buffer_front w tail
  have hlen : w.body.length = 2 + (topics.flatMap (topicBytes withQos)).length := by
    rw [hbody, List.length_append, length_writeInt]
  generalize (mqttPacketEncode w.body.length).length = digits at hdecode hat
  rw [hbody] at hat
  have hdupread : headerDup (headerByte packettype dup 1 0) = dup := by
    rw [headerDup, toNat_headerByte]
    omega
  have htyperead : headerType (headerByte packettype dup 1 0) = packettype := by
    rw [headerType_headerByte, htype]
  have hloop := @topicLoop_holds (w.bytes ++ tail) (1 + digits + w.body.length) withQos topics
    htopics (1 + digits + w.body.length - (1 + digits + 2)) (1 + digits + 2) hat.right
    (by omega) (by omega)
  unfold mqttDeserializeTopics
  rw [hfirst, hheader, hdecode]
  simp only [htyperead, ne_eq, not_true, if_false, hloop, if_true, hdupread,
    readInt_holds hat.left hid]

section Topics
variable {buflen dup packetid : Nat} {bytes : List UInt8}

/-- A `SUBSCRIBE` is read back with all of its topic filters and the QoS asked for each. -/
theorem subscribe_round_trip {topics : List (MqttString × Nat)}
    (htopics : ∀ t ∈ topics, t.1.Plain ∧ t.2 < 256) (hdup : dup < 2) (hid : packetid < 65536)
    (hlt : mqttSerializeSubscribeLength topics < 268435456)
    (hs : mqttSerializeSubscribes buflen dup packetid topics = .ok bytes) (stale : SubscribeData)
    (tail : List UInt8) :
    bytes.length ≤ buflen ∧ mqttDeserializeSubscribe stale (bytes ++ tail) =
      (1, ⟨dup, packetid, topics.map (·.1.text), topics.map (·.2)⟩) := by
  let texts := topics.map fun t => (t.1.text, t.2)
  have htexts : ∀ t ∈ texts, t.1.length < 65536 ∧ t.2 < 256 := by
    intro t ht
    obtain ⟨t', ht', rfl⟩ := List.mem_map.mp ht
    exact ⟨(htopics t' ht').1.lt, (htopics t' ht').2⟩
  have hbody : (topics.flatMap fun t => writeMqttString t.1 ++ [UInt8.ofNat t.2]) =
      texts.flatMap (topicBytes true) := by
    rw [List.flatMap_map]
    congr 1
    funext t
    rw [topicBytes, MqttString.write_eq]
    rfl
  have hlen : (writeInt packetid ++ texts.flatMap (topicBytes true)).length =
      mqttSerializeSubscribeLength topics := by
    rw [← hbody, List.length_append, length_writeInt, List.length_flatMap,
      mqttSerializeSubscribeLength]
    congr 2
    apply List.map_congr_left
    intro t ht
    rw [List.length_append, MqttString.length_write, List.length_singleton,
      (htopics t ht).1.strlen_eq]
  unfold mqttSerializeSubscribes at hs
  dsimp only at hs
  split at hs
  · cases hs
  · rename_i hfit
    obtain ⟨w, hw, hheader, hwbody, hle⟩ :=
      packet_fits dup 1 0 (by decide : SUBSCRIBE % 16 ≠ 0) hlen hlt hfit
    obtain rfl : w.bytes = bytes := by
      rw [hw, ← Except.ok.inj hs, hbody]
      simp only [List.cons_append, List.append_assoc]
    refine ⟨hle, ?_⟩
    rw [mqttDeserializeSubscribe, deserializeTopics_packet true rfl hheader hwbody hdup hid htexts]
    simp only [texts, List.map_map, if_true, Function.comp_def]

/-- An `UNSUBSCRIBE` is read back with all of its topic filters. -/
theorem unsubscribe_round_trip {topicFilters : List MqttString}
    (htopics : ∀ t ∈ topicFilters, t.Plain) (hdup : dup < 2) (hid : packetid < 65536)
    (hlt : mqttSerializeUnsubscribeLength topicFilters < 268435456)
    (hs : mqttSerializeUnsubscribes buflen dup packetid topicFilters = .ok bytes)
    (stale : SubscribeData) (tail : List UInt8) :
    bytes.length ≤ buflen ∧ mqttDeserializeUnsubscribe stale (bytes ++ tail) =
      (1, ⟨dup, packetid, topicFilters.map (·.text), []⟩) := by
  let texts := topicFilters.map fun t => (t.text, 0)
  have htexts : ∀ t ∈ texts, t.1.length < 65536 ∧ t.2 < 256 := by
    intro t ht
    obtain ⟨t', ht', rfl⟩ := List.mem_map.mp ht
    exact ⟨(htopics t' ht').lt, Nat.zero_lt_succ 255⟩
  have hbody : topicFilters.flatMap writeMqttString = texts.flatMap (topicBytes false) := by
    rw [List.flatMap_map]
    congr 1
    funext t
    rw [topicBytes, MqttString.write_eq]
    exact (List.append_nil _).symm
  have hlen : (writeInt packetid ++ texts.flatMap (topicBytes false)).length =
      mqttSerializeUnsubscribeLength topicFilters := by
    rw [← hbody, List.length_append, length_writeInt, List.length_flatMap,
      mqttSerializeUnsubscribeLength]
    congr 2
    apply List.map_congr_left
    intro t ht
    rw [MqttString.length_write, (htopics t ht).strlen_eq]
  unfold mqttSerializeUnsubscribes at hs
  dsimp only at hs
  split at hs
  · cases hs
  · rename_i hfit
    obtain ⟨w, hw, hheader, hwbody, hle⟩ :=
      packet_fits dup 1 0 (by decide : UNSUBSCRIBE % 16 ≠ 0) hlen hlt hfit
    obtain rfl : w.bytes = bytes := by
      rw [hw, ← Except.ok.inj hs, hbody]
      simp only [List.cons_append, List.append_assoc]
    refine ⟨hle, ?_⟩
    rw [mqttDeserializeUnsubscribe,
      deserializeTopics_packet false rfl hheader hwbody hdup hid htexts]
    simp only [texts, List.map_map, Bool.false_eq_true, if_false, Function.comp_def]

/-- Two topic filters, the second of them as a length-delimited string. -/
theorem subscribe_round_trip_two :
    mqttDeserializeSubscribe ⟨0, 0, [], []⟩
        ([130, 11, 0, 7, 0, 1, 97, 1, 0, 2, 98, 47, 2] ++ [9]) =
      (1, ⟨0, 7, [[97], [98, 47]], [1, 2]⟩) := by
  have htopics : ∀ t ∈ [(MqttString.ofCString [97], 1), (MqttString.ofLenString [98, 47], 2)],
      t.1.Plain ∧ t.2 < 256 := by
    intro t ht
    rcases List.mem_pair.mp ht with rfl | rfl
    · exact ⟨MqttString.plain_ofCString (by decide), by decide⟩
    · exact ⟨⟨rfl, by decide⟩, by decide⟩
  exact (@subscribe_round_trip 20 0 7 [130, 11, 0, 7, 0, 1, 97, 1, 0, 2, 98, 47, 2] _ htopics
    (by decide) (by decide) (by decide) (by decide +kernel) ⟨0, 0, [], []⟩ [9]).2

/-- The same two without QoS. -/
theorem unsubscribe_round_trip_two :
    mqttDeserializeUnsubscribe ⟨0, 0, [], []⟩
        ([162, 9, 0, 7, 0, 1, 97, 0, 2, 98, 47] ++ [9]) =
      (1, ⟨0, 7, [[97], [98, 47]], []⟩) := by
  have htopics : ∀ t ∈ [MqttString.ofCString [97], MqttString.ofLenString [98, 47]], t.Plain := by
    intro t ht
    rcases List.mem_pair.mp ht with rfl | rfl
    · exact MqttString.plain_ofCString (by decide)
    · exact ⟨rfl, by decide⟩
  exact (@unsubscribe_round_trip 20 0 7 [162, 9, 0, 7, 0, 1, 97, 0, 2, 98, 47] _ htopics
    (by decide) (by decide) (by decide) (by decide +kernel) ⟨0, 0, [], []⟩ [9]).2

end Topics

/-! ## Answers of the broker -/

/-- The loop over the granted QoS stores one more than `maxcount`, and then fails. -/
theorem subackLoop_eq (maxcount : Nat) (bytes : List UInt8) {count : Nat}
    (hcount : count ≤ maxcount + 1) :
    subackLoop maxcount count bytes =
      (if count + bytes.length ≤ maxcount + 1 then 1 else -1,
        (bytes.take (maxcount + 1 - count)).map UInt8.toNat) := by
  induction bytes generalizing count with
  | nil =>
    rw [List.length_nil, Nat.add_zero, if_pos hcount, List.take_nil]
    rfl
  | cons c cs ih =>
    rw [subackLoop, List.length_cons]
    by_cases hmax : count > maxcount
    · have hzero : maxcount + 1 - count = 0 := by omega
      rw [if_pos hmax, if_neg (by omega), hzero]
      rfl
    · obtain ⟨k, hk⟩ : ∃ k, maxcount + 1 - count = k + 1 := ⟨maxcount - count, by omega⟩
      have hnext : maxcount + 1 - (count + 1) = k := by omega
      rw [if_neg hmax, ih (by omega), hnext, hk, List.take_succ_cons, List.map_cons]
      simp only [Nat.add_right_comm count 1, ← Nat.add_assoc]

/-- **A `SUBACK` is read back**, up to one code more than there is room for. The client fails where
there are still more of them. -/
theorem suback_round_trip {granted : List Nat} (hgranted : ∀ g ∈ granted, g < 256)
    {buflen packetid : Nat} (hid : packetid < 65536) (hlt : granted.length + 2 < 268435456)
    {bytes : List UInt8} (hs : mqttSerializeSuback buflen packetid granted = .ok bytes)
    (maxcount : Nat) (stale : Nat × List Nat) (tail : List UInt8) :
    mqttDeserializeSubacks stale maxcount (bytes ++ tail) =
      (if granted.length ≤ maxcount + 1 then 1 else -1, packetid, granted.take (maxcount + 1)) := by
  unfold mqttSerializeSuback at hs
  split at hs
  · cases hs
  · let w : WirePacket := (Inbound.suback (UInt16.ofNat packetid) (granted.map UInt8.ofNat)
      (by rwa [List.length_map])).wire
    have hpacketid : (UInt16.ofNat packetid).toNat = packetid := by
      rw [UInt16.toNat_ofNat']
      exact Nat.mod_eq_of_lt hid
    have hbody : w.body = writeInt packetid ++ granted.map UInt8.ofNat := by
      show writeInt (UInt16.ofNat packetid).toNat ++ _ = _
      rw [hpacketid]
    have hsize : w.body.length = 2 + granted.length := by
      rw [hbody, List.length_append, length_writeInt, List.length_map]
    obtain rfl : w.bytes = bytes := by
      rw [← Except.ok.inj hs, WirePacket.bytes, hsize, hbody]
      simp only [List.cons_append, List.append_assoc]
      rfl
    obtain ⟨hfirst, hdecode, hat⟩ := buffer_front w tail
    generalize (mqttPacketEncode w.body.length).length = digits at hdecode hat
    rw [hbody] at hat
    have htype : headerType (readChar (w.bytes ++ tail) 0) = SUBACK := by
      rw [hfirst]
      exact headerType_headerByte ..
    have htaken : ((w.bytes ++ tail).drop (1 + digits + 2)).take (w.body.length - 2) =
        granted.map UInt8.ofNat := by
      have hcodes := hat.right.take
      rw [List.length_map, length_writeInt] at hcodes
      rw [hsize, Nat.add_sub_cancel_left, hcodes]
    have hcodes : (granted.map UInt8.ofNat).map UInt8.toNat = granted := by
      rw [List.map_map, List.map_congr_left, List.map_id]
      intro g hg
      rw [Function.comp_apply, UInt8.toNat_ofNat']
      exact Nat.mod_eq_of_lt (hgranted g hg)
    unfold mqttDeserializeSubacks
    rw [htype, hdecode]
    simp only [ne_eq, not_true, if_false]
    rw [if_neg (by omega), htaken, readInt_holds hat.left hid,
      subackLoop_eq maxcount _ (Nat.zero_le _), Nat.zero_add, Nat.sub_zero, List.map_take, hcodes,
      List.length_map]

/-- Three codes for a client that has room for one. -/
theorem suback_round_trip_three :
    mqttDeserializeSubacks (0, []) 1 ([144, 5, 0, 7, 2, 128, 0] ++ [9]) = (-1, 7, [2, 128]) :=
  @suback_round_trip [2, 128, 0] (by decide) 20 7 (by decide) (by decide)
    [144, 5, 0, 7, 2, 128, 0] (by decide +kernel) 1 (0, []) [9]

/-! ## `PUBLISH` -/

/-- A `PUBLISH` of the client, of any QoS, is read back with its topic name and its payload; the
broker leaves the packet id as it is where there is none. -/
theorem publish_round_trip {buflen dup qos retained packetid : Nat} {topicName : MqttString}
    {payload bytes : List UInt8} (hdup : dup < 2) (hqos : qos ≤ 2) (hretained : retained < 2)
    (hid : packetid < 65536) (htopic : topicName.Plain)
    (hlt : mqttSerializePublishLength qos topicName payload.length < 268435456)
    (hs : mqttSerializePublish buflen dup qos retained packetid topicName payload = .ok bytes)
    (stale : Stale) (tail : List UInt8) :
    bytes.length ≤ buflen ∧ mqttDeserializePublish stale (bytes ++ tail) =
      (1, ⟨dup, qos, retained, if qos > 0 then packetid else stale.packetId, topicName.text,
        payload, some (bytes.length - payload.length), some bytes.length⟩) := by
  have hbit : ∀ n < 2, (decide (n = 1)).toNat = n := by decide
  have hpacketid : (UInt16.ofNat packetid).toNat = packetid := by
    rw [UInt16.toNat_ofNat']
    exact Nat.mod_eq_of_lt hid
  rw [mqttSerializePublishLength, htopic.strlen_eq] at hlt
  let p : Publication :=
    { dup := decide (dup = 1)
      qos := qos
      retained := decide (retained = 1)
      packetId := UInt16.ofNat packetid
      topicName := topicName.text
      payload := payload
      qos_le := hqos
      topic_lt := htopic.lt
      body_lt := by
        split at hlt <;> split <;> omega }
  have hbody : p.body = writeMqttString topicName ++
      ((if qos > 0 then writeInt packetid else []) ++ payload) := by
    show writeInt topicName.text.length ++ (topicName.text ++
      ((if qos > 0 then writeInt (UInt16.ofNat packetid).toNat else []) ++ payload)) = _
    rw [hpacketid, MqttString.write_eq, List.append_assoc]
  have hlen : p.body.length = mqttSerializePublishLength qos topicName payload.length := by
    rw [hbody, List.length_append, List.length_append, MqttString.length_write,
      mqttSerializePublishLength, htopic.strlen_eq]
    split
    · rw [length_writeInt]
      omega
    · rw [List.length_nil]
      omega
  unfold mqttSerializePublish at hs
  dsimp only at hs
  split at hs
  · cases hs
  · rename_i hfit
    rw [← hlen] at hs hfit
    obtain rfl : (Inbound.publish p).wire.bytes = bytes := by
      rw [← Except.ok.inj hs]
      show headerByte PUBLISH (decide (dup = 1)).toNat qos (decide (retained = 1)).toNat ::
        (mqttPacketEncode p.body.length ++ p.body) = _
      rw [hbit dup hdup, hbit retained hretained]
      simp only [hbody, List.cons_append, List.append_assoc]
    obtain ⟨hmessage, hret⟩ := deserialize_publish p stale
      (List.take_left : ((Inbound.publish p).wire.bytes ++ tail).take _ = _)
    constructor
    · have hle := le_mqttPacketLen p.length_body_lt
      rw [length_bytes]
      show 1 + (mqttPacketEncode p.body.length).length + p.body.length ≤ buflen
      omega
    · refine Prod.ext hret (Option.some.inj hmessage |>.trans ?_)
      show PublishData.mk (decide (dup = 1)).toNat qos (decide (retained = 1)).toNat
        (if qos > 0 then (UInt16.ofNat packetid).toNat else stale.packetId) topicName.text payload
        _ _ = _
      rw [hbit dup hdup, hbit retained hretained, hpacketid]

/-- A `PUBLISH` of QoS 1, and a byte behind it. -/
theorem publish_round_trip_qos1 :
    mqttDeserializePublish ⟨0, 0, fun _ => 0, none⟩ ([50, 6, 0, 1, 97, 0, 7, 42] ++ [9]) =
      (1, ⟨0, 1, 0, 7, [97], [42], some 7, some 8⟩) :=
  (@publish_round_trip 20 0 1 0 7 (.ofCString [97]) [42] [50, 6, 0, 1, 97, 0, 7, 42] (by decide)
    (by decide) (by decide) (by decide) (MqttString.plain_ofCString (by decide)) (by decide)
    (by decide +kernel) ⟨0, 0, fun _ => 0, none⟩ [9]).2

end IBoxClient
