import IBoxClient.MqttPacket

/- The serialisers and deserialisers of the MQTT client.

   A serialiser is given the length of the send buffer and yields the bytes it
   writes there, or the code of its error.

   A deserialiser reads the buffer that `mqttPacketRead` has filled and writes its
   results through pointers. Several of them return the number of length bytes where
   they fail; on a packet whose length has one digit this number is 1, the code of
   success, and the results are not written. `Stale` is what the variables of the
   caller hold in that case. Pointers into the buffer are offsets. -/
namespace IBoxClient

/-! ## Serialisers -/

/-- `MQTTString`; the `data` of the length-delimited string is absent where it is
`NULL`. -/
structure MqttString where
  cstring : Option (List UInt8)
  lenstring : Option (List UInt8)

def MqttString.ofCString (s : List UInt8) : MqttString := ⟨some s, none⟩

/-- `MQTTstrlen`. -/
def mqttStrlen (s : MqttString) : Nat :=
  match s.cstring with
  | some c => c.length
  | none => (s.lenstring.getD []).length

/-- `writeInt`. -/
def writeInt (n : Nat) : List UInt8 := [UInt8.ofNat (n / 256), UInt8.ofNat (n % 256)]

/-- `writeCString`. -/
def writeCString (s : List UInt8) : List UInt8 := writeInt s.length ++ s

/-- `writeMQTTString`. -/
def writeMqttString (s : MqttString) : List UInt8 :=
  let data := s.lenstring.getD []
  if data.length > 0 then writeInt data.length ++ data
  else
    match s.cstring with
    | some c => writeCString c
    | none => writeInt 0

/-- `MQTTPacket_willOptions`. -/
structure WillOptions where
  topicName : MqttString
  message : MqttString
  retained : Nat
  qos : Nat

/-- `MQTTPacket_connectData`. -/
structure ConnectData where
  mqttVersion : Nat
  clientId : MqttString
  keepAliveInterval : Nat
  cleansession : Bool
  willFlag : Bool
  will : WillOptions
  username : MqttString
  password : MqttString

/-- The test for a user name or a password. -/
def MqttString.present (s : MqttString) : Bool := s.cstring.isSome || s.lenstring.isSome

def mqttSerializeConnectLength (options : ConnectData) : Nat :=
  (if options.mqttVersion = 3 then 12 else if options.mqttVersion = 4 then 10 else 0) +
    (mqttStrlen options.clientId + 2) +
    (if options.willFlag then
      mqttStrlen options.will.topicName + 2 + mqttStrlen options.will.message + 2 else 0) +
    (if options.username.present then mqttStrlen options.username + 2 else 0) +
    (if options.password.present then mqttStrlen options.password + 2 else 0)

/-- `MQTTConnectFlags`. -/
def connectFlags (options : ConnectData) : UInt8 :=
  UInt8.ofNat ((if options.cleansession then 2 else 0) +
    (if options.willFlag then
      4 + options.will.qos % 4 * 8 + options.will.retained % 2 * 32 else 0) +
    (if options.password.present then 64 else 0) + (if options.username.present then 128 else 0))

def mqttSerializeConnect (buflen : Nat) (options : ConnectData) : Except Int (List UInt8) :=
  let len := mqttSerializeConnectLength options
  if mqttPacketLen len > buflen then .error bufferTooShort
  else
    .ok (headerByte CONNECT 0 0 0 :: mqttPacketEncode len ++
      (if options.mqttVersion = 4 then writeCString [77, 81, 84, 84] ++ [4]
        else writeCString [77, 81, 73, 115, 100, 112] ++ [3]) ++
      connectFlags options :: writeInt options.keepAliveInterval ++
      writeMqttString options.clientId ++
      (if options.willFlag then
        writeMqttString options.will.topicName ++ writeMqttString options.will.message else []) ++
      (if options.username.present then writeMqttString options.username else []) ++
      (if options.password.present then writeMqttString options.password else []))

def mqttSerializeZero (buflen packettype : Nat) : Except Int (List UInt8) :=
  if buflen < 2 then .error bufferTooShort
  else .ok (headerByte packettype 0 0 0 :: mqttPacketEncode 0)

def mqttSerializeDisconnect (buflen : Nat) : Except Int (List UInt8) :=
  mqttSerializeZero buflen DISCONNECT

def mqttSerializePingreq (buflen : Nat) : Except Int (List UInt8) :=
  mqttSerializeZero buflen PINGREQ

def mqttSerializeAck (buflen packettype dup packetid : Nat) : Except Int (List UInt8) :=
  if buflen < 4 then .error bufferTooShort
  else
    .ok (headerByte packettype dup (if packettype = PUBREL then 1 else 0) 0 ::
      mqttPacketEncode 2 ++ writeInt packetid)

def mqttSerializePublishLength (qos : Nat) (topicName : MqttString) (payloadlen : Nat) : Nat :=
  2 + mqttStrlen topicName + payloadlen + (if qos > 0 then 2 else 0)

def mqttSerializePublish (buflen dup qos retained packetid : Nat) (topicName : MqttString)
    (payload : List UInt8) : Except Int (List UInt8) :=
  let remLen := mqttSerializePublishLength qos topicName payload.length
  if mqttPacketLen remLen > buflen then .error bufferTooShort
  else
    .ok (headerByte PUBLISH dup qos retained :: mqttPacketEncode remLen ++
      writeMqttString topicName ++ (if qos > 0 then writeInt packetid else []) ++ payload)

/-- `MQTTSerialize_subscribe` for one topic filter, as the client calls it. -/
def mqttSerializeSubscribe (buflen dup packetid : Nat) (topicFilter : MqttString)
    (requestedQos : Nat) : Except Int (List UInt8) :=
  let remLen := 2 + (2 + mqttStrlen topicFilter + 1)
  if mqttPacketLen remLen > buflen then .error bufferTooShort
  else
    .ok (headerByte SUBSCRIBE dup 1 0 :: mqttPacketEncode remLen ++ writeInt packetid ++
      writeMqttString topicFilter ++ [UInt8.ofNat requestedQos])

/-- `MQTTSerialize_unsubscribe` for one topic filter, as the client calls it. -/
def mqttSerializeUnsubscribe (buflen dup packetid : Nat) (topicFilter : MqttString) :
    Except Int (List UInt8) :=
  let remLen := 2 + (2 + mqttStrlen topicFilter)
  if mqttPacketLen remLen > buflen then .error bufferTooShort
  else
    .ok (headerByte UNSUBSCRIBE dup 1 0 :: mqttPacketEncode remLen ++ writeInt packetid ++
      writeMqttString topicFilter)

/-! ## Deserialisers -/

/-- `bufchar` reads one byte at a time from the memory at `bufptr`. -/
def bufchar (bufptr : List UInt8) (count : Nat) : List UInt8 × List UInt8 :=
  (bufptr.take count, bufptr.drop count)

/-- `MQTTPacket_decodeBuf`: the number of length bytes, and the value. -/
def mqttPacketDecodeBuf (buf : List UInt8) : Nat × Nat :=
  let d := mqttPacketDecode bufchar buf
  (d.1, d.2.1)

/-- `readChar` and `readInt` at an offset. -/
def readChar (buf : List UInt8) (off : Nat) : UInt8 := buf.getD off 0
def readInt (buf : List UInt8) (off : Nat) : Nat :=
  256 * (readChar buf off).toNat + (readChar buf (off + 1)).toNat

theorem length_writeInt (n : Nat) : (writeInt n).length = 2 := rfl

theorem readInt_writeInt {n : Nat} (hn : n < 65536) (tail : List UInt8) :
    readInt (writeInt n ++ tail) 0 = n := by
  have hhigh : (UInt8.ofNat (n / 256)).toNat = n / 256 := by
    rw [UInt8.toNat_ofNat']
    omega
  have hlow : (UInt8.ofNat (n % 256)).toNat = n % 256 := by
    rw [UInt8.toNat_ofNat']
    omega
  show 256 * (UInt8.ofNat (n / 256)).toNat + (UInt8.ofNat (n % 256)).toNat = n
  rw [hhigh, hlow]
  omega

theorem readChar_drop (buf : List UInt8) (off i : Nat) :
    readChar buf (off + i) = readChar (buf.drop off) i := by
  simp [readChar, List.getD_eq_getElem?_getD]

theorem readInt_drop (buf : List UInt8) (off : Nat) : readInt buf off = readInt (buf.drop off) 0 := by
  have h0 := readChar_drop buf off 0
  have h1 := readChar_drop buf off 1
  rw [Nat.add_zero] at h0
  rw [readInt, readInt, h0, h1]

/-- What the variables behind the out parameters of a deserialiser hold before. -/
structure Stale where
  packetId : Nat
  topicLen : Nat
  topicData : Nat → UInt8
  /-- Where the payload pointer points, if it is into the read buffer. -/
  payload : Option Nat

/-- What `MQTTDeserialize_publish` yields: the topic name and the payload as the
bytes they denote, and where in the read buffer the payload begins and ends. It begins behind
its end where the packet has no room for its packet id; there are no bytes then, but a negative
length. -/
structure PublishData where
  dup : Nat
  qos : Nat
  retained : Nat
  packetId : Nat
  topicName : List UInt8
  payload : List UInt8
  payloadStart : Option Nat
  payloadEnd : Option Nat
  deriving DecidableEq

/-- `MQTTDeserialize_publish`: the return code and the results; the caller has set
the payload length to 0. -/
def mqttDeserializePublish (stale : Stale) (buf : List UInt8) : Int × PublishData :=
  let header := readChar buf 0
  let unset : PublishData :=
    ⟨headerDup header, headerQos header, headerRetain header, stale.packetId,
      (List.range stale.topicLen).map stale.topicData, [], stale.payload, stale.payload⟩
  if headerType header ≠ PUBLISH then (0, unset)
  else
    let d := mqttPacketDecodeBuf (buf.drop 1)
    let curdata := 1 + d.1
    let enddata := curdata + d.2
    if ¬ enddata - curdata > 1 then (d.1, unset)
    else
      let len := readInt buf curdata
      if ¬ curdata + 2 + len ≤ enddata then
        -- the length of the topic is set, the pointer to it is not
        (d.1, { unset with topicName := (List.range len).map stale.topicData })
      else
        let topicName := (buf.drop (curdata + 2)).take len
        let curdata := curdata + 2 + len
        let packetId := if headerQos header > 0 then readInt buf curdata else stale.packetId
        let curdata := if headerQos header > 0 then curdata + 2 else curdata
        (1, { unset with
          packetId := packetId
          topicName := topicName
          payload := (buf.drop curdata).take (enddata - curdata)
          payloadStart := some curdata
          payloadEnd := some enddata })

/-- `MQTTDeserialize_ack`: the return code, the packet type and the packet id. -/
def mqttDeserializeAck (stale : Stale) (buf : List UInt8) : Int × Nat × Nat :=
  let header := readChar buf 0
  let d := mqttPacketDecodeBuf (buf.drop 1)
  if d.2 < 2 then (d.1, headerType header, stale.packetId)
  else (1, headerType header, readInt buf (1 + d.1))

/-- `MQTTDeserialize_connack`: the return code, and through the pointers the session
flag and the code of the broker, which the caller has set to 0. -/
def mqttDeserializeConnack (buf : List UInt8) : Int × Nat × Nat :=
  let header := readChar buf 0
  if headerType header ≠ CONNACK then (0, 0, 0)
  else
    let d := mqttPacketDecodeBuf (buf.drop 1)
    if d.2 < 2 then (d.1, 0, 0)
    else (1, (readChar buf (1 + d.1)).toNat % 2, (readChar buf (1 + d.1 + 1)).toNat)

/-- The loop of `MQTTDeserialize_suback` over the bytes behind the packet id, `count` of which
have been stored; it looks at the limit before it stores. -/
def subackLoop (maxcount : Nat) : Nat → List UInt8 → Int × List Nat
  | _, [] => (1, [])
  | count, c :: cs =>
    if count > maxcount then (-1, [])
    else
      let r := subackLoop maxcount (count + 1) cs
      (r.1, c.toNat :: r.2)

/-- `MQTTDeserialize_suback` with any `maxcount`: the return code, the packet id and the granted
QoS that are stored. -/
def mqttDeserializeSubacks (stale : Nat × List Nat) (maxcount : Nat) (buf : List UInt8) :
    Int × Nat × List Nat :=
  if headerType (readChar buf 0) ≠ SUBACK then (0, stale)
  else
    let d := mqttPacketDecodeBuf (buf.drop 1)
    if d.2 < 2 then (d.1, stale)
    else
      let r := subackLoop maxcount 0 ((buf.drop (1 + d.1 + 2)).take (d.2 - 2))
      (r.1, readInt buf (1 + d.1), r.2)

/-- The call of `MQTTDeserialize_suback` in the client: the return code, the `grantedQoS` of its
caller, which has set it to 0, and what is stored behind that. The array has one element, but
with `maxcount` 1 a second return code is stored before the loop gives up. -/
def mqttDeserializeSuback (buf : List UInt8) : Int × Nat × List Nat :=
  let r := mqttDeserializeSubacks (0, []) 1 buf
  (r.1, r.2.2.headD 0, r.2.2.tail)

/-- `MQTTDeserialize_unsuback`: the return code. -/
def mqttDeserializeUnsuback (stale : Stale) (buf : List UInt8) : Int :=
  let r := mqttDeserializeAck stale buf
  if r.2.1 = UNSUBACK then 1 else r.1

end IBoxClient
