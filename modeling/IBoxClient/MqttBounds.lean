import IBoxClient.MqttHandshake
import IBoxClient.MqttQos2
import IBoxClient.MainThread

/- Where a delivered message lies.

   `MQTTDeserialize_publish` hands out the topic name and the payload as pointers into the read
   buffer. Here they are kept as such (`publishSlices`): a pointer is an offset from `readbuf`,
   and one that is not set is wherever the variable on the stack happens to point.

   Of a `PUBLISH` that has been read, three kinds are delivered wrongly. Where the topic name
   does not fit into a packet of less than 128 bytes, the number of length bytes, 1, is returned
   and taken for success, with no pointer set. Where a packet with QoS has no room for its
   packet id, the id is read behind the packet and the payload begins behind its end. And
   where a packet fills the read buffer, the NUL of the default callback comes behind the
   buffer. All others are delivered inside, or not at all (`delivers_inside_iff`). -/
namespace IBoxClient

open Bytes

/-! ## Pointers -/

/-- A pointer, as an offset from `readbuf`, and a length. -/
structure Slice where
  start : Int
  len : Int
  deriving DecidableEq

def Slice.stop (sl : Slice) : Int := sl.start + sl.len

/-- The slice is one of the first `n` bytes of the read buffer. -/
def Slice.Within (sl : Slice) (n : Nat) : Prop := 0 ≤ sl.start ∧ 0 ≤ sl.len ∧ sl.stop ≤ n

/-- What `topicName` and `msg.payload` of `MQTT_cycle` hold before. -/
structure StaleSlices where
  topic : Slice
  payload : Int

structure PublishSlices where
  topic : Slice
  payload : Slice
  deriving DecidableEq

/-- `MQTTDeserialize_publish`: the return code, and where the topic name and the payload are;
the caller has set the payload length to 0. -/
def publishSlices (stale : StaleSlices) (buf : List UInt8) : Int × PublishSlices :=
  let header := readChar buf 0
  let unset : PublishSlices := ⟨stale.topic, ⟨stale.payload, 0⟩⟩
  if headerType header ≠ PUBLISH then (0, unset)
  else
    let d := mqttPacketDecodeBuf (buf.drop 1)
    let curdata : Int := 1 + d.1
    let enddata : Int := curdata + d.2
    if ¬ enddata - curdata > 1 then (d.1, unset)
    else
      let len : Int := readInt buf (1 + d.1)
      if ¬ curdata + 2 + len ≤ enddata then
        (d.1, { unset with topic := { stale.topic with len := len } })
      else
        let topic : Slice := ⟨curdata + 2, len⟩
        let curdata := curdata + 2 + len
        let curdata := if headerQos header > 0 then curdata + 2 else curdata
        (1, ⟨topic, ⟨curdata, enddata - curdata⟩⟩)

section Delivery
variable {κ : Type} [Callback κ]

/-- What the case `PUBLISH` of `MQTT_cycle` hands to `deliverMessage`. -/
def cycleSlices (stale : StaleSlices) (s : Sys κ) : Option PublishSlices :=
  if (publishSlices stale s.client.readbuf).1 ≠ 1 then none
  else some (publishSlices stale s.client.readbuf).2

/-- The name that `deliverMessage` looks up. -/
def cycleTopic (s : Sys κ) : List UInt8 :=
  (mqttDeserializePublish (s.net.env 0).stale s.client.readbuf).2.topicName

end Delivery

/-! ## Packets that have been read -/

theorem decodeLoop_le {σ : Type} (getcharfn : GetFn σ) (rounds len value multiplier : Nat) (s : σ) :
    (decodeLoop getcharfn rounds len value multiplier s).2.1 + multiplier ≤
      value + multiplier * 128 ^ rounds := by
  induction rounds generalizing len value multiplier s with
  | zero => simp [decodeLoop]
  | succ rounds ih =>
    have hpow : 1 ≤ 128 ^ rounds := Nat.one_le_two_pow.trans (Nat.pow_le_pow_left (by decide) _)
    have hone : multiplier * 128 ≤ multiplier * 128 ^ (rounds + 1) := by
      rw [Nat.pow_succ]
      exact Nat.mul_le_mul_left _ (by omega)
    rw [decodeLoop]
    split
    · rename_i c s' _
      have hdigit : c.toNat % 128 * multiplier ≤ 127 * multiplier :=
        Nat.mul_le_mul_right _ (by omega)
      dsimp only
      split
      · have hrest := ih (len + 1) (value + c.toNat % 128 * multiplier) (multiplier * 128) s'
        have hmul : multiplier * 128 * 128 ^ rounds = multiplier * 128 ^ (rounds + 1) := by
          rw [Nat.pow_succ, Nat.mul_assoc, Nat.mul_comm 128]
        rw [hmul] at hrest
        omega
      · dsimp only
        omega
    · dsimp only
      omega

theorem readError_ne (type : Nat) : (readError : Int) ≠ type := by
  intro he
  have hneg : (readError : Int) < 0 := by decide
  omega

/-- The rest of a packet that is accepted is a body of the announced length, for which there was
room, stored at `len`. -/
theorem body_of_readRest {σ : Type} {getfn : GetFn σ} {buf : List UInt8}
    {buflen remLen len type : Nat} {header : UInt8} {s : σ}
    (h : (readRest getfn buf buflen header remLen len s).1 = type) :
    ∃ body : List UInt8, body.length = remLen ∧ headerType header = type ∧
      remLen + len ≤ buflen ∧
      (readRest getfn buf buflen header remLen len s).2.1 = writeAt buf len body := by
  unfold readRest at h ⊢
  by_cases hfit : remLen + len > buflen
  · rw [if_pos hfit] at h
    exact absurd h (readError_ne type)
  · rw [if_neg hfit] at h ⊢
    by_cases hbody : remLen ≠ 0
    · rw [if_pos hbody] at h ⊢
      dsimp only at h ⊢
      by_cases hlen : (getfn s remLen).1.length ≠ remLen
      · rw [if_pos hlen] at h
        exact absurd h (readError_ne type)
      · rw [if_neg hlen] at h ⊢
        exact ⟨_, not_not.mp hlen, Int.ofNat.inj h, Nat.not_lt.mp hfit, rfl⟩
    · rw [if_neg hbody] at h ⊢
      refine ⟨[], (not_not.mp hbody).symm, Int.ofNat.inj h, Nat.not_lt.mp hfit, ?_⟩
      simp [writeAt]

/-- The three parts of a packet, stored one behind the other. -/
theorem writeAt_packet (buf : List UInt8) (header : UInt8) (digits body : List UInt8) :
    writeAt (writeAt (writeAt buf 0 [header]) 1 digits) (1 + digits.length) body =
      writeAt buf 0 (header :: (digits ++ body)) := by
  have hhd := writeAt_zero_writeAt buf [header] digits
  have hbd := writeAt_zero_writeAt buf ([header] ++ digits) body
  rw [List.length_singleton] at hhd
  rw [List.length_append, List.length_singleton] at hbd
  rw [hhd, hbd, List.append_assoc]
  rfl

/-- **What is read.** A read that returns a packet type has stored a packet of this type. -/
theorem packet_of_read {σ : Type} {getfn : GetFn σ} {buf : List UInt8} {buflen type : Nat} {s : σ}
    (htype : type ≠ 0) (h : (mqttPacketRead getfn buf buflen s).1 = type) :
    ∃ p : WirePacket, p.type = type ∧ p.bytes.length ≤ buflen ∧
      (mqttPacketRead getfn buf buflen s).2.1 = writeAt buf 0 p.bytes := by
  unfold mqttPacketRead at h ⊢
  split at h
  · rename_i header s' heq
    dsimp only at h ⊢
    have hlt : (mqttPacketDecode getfn s').2.1 < 268435456 := by
      have hle := decodeLoop_le getfn 4 0 0 1 s'
      rw [mqttPacketDecode]
      omega
    generalize (mqttPacketDecode getfn s').2.1 = remLen at h hlt ⊢
    generalize (mqttPacketDecode getfn s').2.2 = s'' at h ⊢
    obtain ⟨body, hbody, hheader, hfit, hbuf⟩ := body_of_readRest h
    subst hbody
    refine ⟨⟨header, body, by rw [hheader]; exact htype, hlt⟩, hheader, ?_, ?_⟩
    · rw [length_bytes]
      dsimp only
      omega
    · rw [hbuf, writeAt_packet]
      rfl
  · exact absurd h (readError_ne type)

/-! ## Deliveries -/

namespace WirePacket

/-- The length of the topic name, as the packet has it. -/
def topicLen (p : WirePacket) : Nat := readInt p.body 0

def topicName (p : WirePacket) : List UInt8 := (p.body.drop 2).take p.topicLen

/-- The topic name is in the packet. -/
def TopicFits (p : WirePacket) : Prop := 2 ≤ p.body.length ∧ 2 + p.topicLen ≤ p.body.length

/-- The packet id is in the packet, if there is to be one. -/
def PacketIdFits (p : WirePacket) : Prop :=
  headerQos p.header > 0 → 4 + p.topicLen ≤ p.body.length

/-- Where the payload begins in the body. -/
def payloadOffset (p : WirePacket) : Nat :=
  2 + p.topicLen + if headerQos p.header > 0 then 2 else 0

/-- Where the payload begins in the packet. It is behind the end of it if the packet id does not
fit. -/
def payloadStart (p : WirePacket) : Nat :=
  1 + (mqttPacketEncode p.body.length).length + p.payloadOffset

/-- The topic name where the packet has none: the pointer is not set, and the length only if it
could be read. -/
def staleTopic (p : WirePacket) (stale : Stale) : List UInt8 :=
  (List.range (if 2 ≤ p.body.length then p.topicLen else stale.topicLen)).map stale.topicData

instance (p : WirePacket) : Decidable p.TopicFits := inferInstanceAs (Decidable (_ ∧ _))

/-- What `MQTT_cycle` delivers of a `PUBLISH`: a topic name, and where in the read buffer the
payload begins and ends. Without its topic name, a packet of less than 128 bytes comes with what
the variables hold. -/
def handed (p : WirePacket) (stale : Stale) : Option (List UInt8 × Option Nat × Option Nat) :=
  if p.TopicFits then some (p.topicName, some p.payloadStart, some p.bytes.length)
  else if p.body.length < 128 then some (p.staleTopic stale, stale.payload, stale.payload)
  else none

/-- The packet id fits when the payload does not begin behind the packet. -/
theorem packetIdFits_iff {p : WirePacket} (h : p.TopicFits) :
    p.PacketIdFits ↔ p.payloadOffset ≤ p.body.length := by
  obtain ⟨-, hfit⟩ := h
  unfold PacketIdFits payloadOffset
  by_cases hqos : headerQos p.header > 0
  · simp only [hqos, if_true, forall_true_left]
    omega
  · simp only [hqos, if_false, false_implies, true_iff]
    omega

theorem length_encode_pos (n : Nat) : 1 ≤ (mqttPacketEncode n).length := by
  rw [mqttPacketEncode, encodeDigits]
  split <;> simp

/-- One length byte is enough for less than 128 bytes. -/
theorem length_encode_eq_one {n : Nat} : (mqttPacketEncode n).length = 1 ↔ n < 128 := by
  rw [mqttPacketEncode, encodeDigits]
  split
  · rename_i hmore
    have hnext : 1 ≤ (encodeDigits 4 (n / 128)).length := by
      rw [encodeDigits]
      split <;> simp
    rw [List.length_cons]
    omega
  · simp only [List.length_singleton, true_iff]
    omega

end WirePacket

section Front
variable {p : WirePacket} {buf : List UInt8}

/-- The length of the topic name is read from the body. -/
theorem readInt_packet (h : buf.take p.bytes.length = p.bytes) (htwo : 2 ≤ p.body.length) :
    readInt buf (1 + (mqttPacketEncode p.body.length).length) = p.topicLen := by
  obtain ⟨-, -, tail, hbody⟩ := buffer_of_packet h
  rw [readInt_drop, hbody, WirePacket.topicLen]
  match hb : p.body, htwo with
  | a :: b :: rest, _ => rfl

/-- The deserialiser on a `PUBLISH` in the read buffer. -/
theorem publishSlices_packet (htype : p.type = PUBLISH) (h : buf.take p.bytes.length = p.bytes)
    (stale : StaleSlices) :
    let digits := (mqttPacketEncode p.body.length).length
    (p.TopicFits → publishSlices stale buf = (1, ⟨⟨1 + digits + 2, p.topicLen⟩,
        ⟨1 + digits + p.payloadOffset, (p.body.length : Int) - p.payloadOffset⟩⟩)) ∧
      (¬ p.TopicFits → (publishSlices stale buf).1 = digits ∧
        (publishSlices stale buf).2.payload = ⟨stale.payload, 0⟩) := by
  obtain ⟨hheader, hdecode, -⟩ := buffer_of_packet h
  have htype' : headerType p.header = PUBLISH := htype
  have hint := readInt_packet h
  generalize (mqttPacketEncode p.body.length).length = digits at hdecode hint ⊢
  dsimp only
  unfold publishSlices
  rw [hheader, hdecode]
  simp only [htype', ne_eq, not_true, if_false]
  by_cases htwo : 2 ≤ p.body.length
  · have hmany : 1 + (digits : Int) + p.body.length - (1 + digits) > 1 := by omega
    simp only [hint htwo, hmany, not_true, if_false]
    by_cases hfit : 2 + p.topicLen ≤ p.body.length
    · have hfit' : 1 + (digits : Int) + 2 + p.topicLen ≤ 1 + digits + p.body.length := by omega
      refine ⟨fun _ => ?_, fun hnot => absurd ⟨htwo, hfit⟩ hnot⟩
      simp only [hfit', not_true, if_false, WirePacket.payloadOffset]
      split <;> congr 3 <;> omega
    · have hfit' : ¬ 1 + (digits : Int) + 2 + p.topicLen ≤ 1 + digits + p.body.length := by omega
      refine ⟨fun hfits => absurd hfits.2 hfit, fun _ => ?_⟩
      simp only [hfit', not_false_iff, if_true, and_self]
  · have hmany : ¬ 1 + (digits : Int) + p.body.length - (1 + digits) > 1 := by omega
    refine ⟨fun hfits => absurd hfits.1 htwo, fun _ => ?_⟩
    simp only [hmany, not_false_iff, if_true, and_self]

end Front

/-- `MQTTDeserialize_publish` on a `PUBLISH` in the read buffer. -/
theorem deserialize_packet {p : WirePacket} {buf : List UInt8} (htype : p.type = PUBLISH)
    (h : buf.take p.bytes.length = p.bytes) (stale : Stale) :
    let r := mqttDeserializePublish stale buf
    (if r.1 = 1 then some (r.2.topicName, r.2.payloadStart, r.2.payloadEnd) else none) =
      p.handed stale := by
  obtain ⟨hheader, hdecode, tail, hbody⟩ := buffer_of_packet h
  have htype' : headerType p.header = PUBLISH := htype
  have hint := readInt_packet h
  have hone := WirePacket.length_encode_eq_one (n := p.body.length)
  simp only [WirePacket.handed, WirePacket.payloadStart, WirePacket.payloadOffset, length_bytes]
  generalize (mqttPacketEncode p.body.length).length = digits at hdecode hbody hint hone ⊢
  have hdigits : (digits : Int) = 1 ↔ p.body.length < 128 := by omega
  by_cases htwo : 2 ≤ p.body.length
  · have hmany : 1 + digits + p.body.length - (1 + digits) > 1 := by omega
    by_cases hfit : 2 + p.topicLen ≤ p.body.length
    · have hfit' : 1 + digits + 2 + p.topicLen ≤ 1 + digits + p.body.length := by omega
      have htopic : (buf.drop (1 + digits + 2)).take p.topicLen = p.topicName := by
        rw [← List.drop_drop, hbody, List.drop_append_of_le_length htwo,
          List.take_append_of_le_length (by rw [List.length_drop]; omega), WirePacket.topicName]
      have hfits : p.TopicFits := ⟨htwo, hfit⟩
      rw [if_pos hfits]
      simp only [mqttDeserializePublish, hheader, htype', hdecode, hint htwo, hmany, hfit', htopic,
        ne_eq, not_true, if_false, if_true]
      split <;> congr 4 <;> omega
    · have hfit' : ¬ 1 + digits + 2 + p.topicLen ≤ 1 + digits + p.body.length := by omega
      have hfits : ¬ p.TopicFits := fun hfits => hfit hfits.2
      rw [if_neg hfits]
      simp only [mqttDeserializePublish, hheader, htype', hdecode, hint htwo, hmany, hfit',
        ne_eq, not_true, not_false_iff, if_false, if_true, WirePacket.staleTopic, htwo,
        hdigits]
  · have hmany : ¬ 1 + digits + p.body.length - (1 + digits) > 1 := by omega
    have hfits : ¬ p.TopicFits := fun hfits => htwo hfits.1
    rw [if_neg hfits]
    simp only [mqttDeserializePublish, hheader, htype', hdecode, hmany, ne_eq, not_true,
      not_false_iff, if_false, if_true, WirePacket.staleTopic, htwo, hdigits]

/-- The cycle ignores the packet of `n` bytes it has read, or delivers a topic name and a
payload that lie inside of it; and the NUL that the default callback puts behind the payload
lies inside of the read buffer. Variables that are not set may hold anything. -/
def DeliversInside (s : Sys MainCallback) (n : Nat) : Prop :=
  ∀ stale, ∀ slices ∈ cycleSlices stale s,
    slices.topic.Within n ∧ slices.payload.Within n ∧ slices.payload.len ≤ n ∧
      (.mqttSubDefaultCallback ∈ callbacksFor s (cycleTopic s) →
        0 ≤ slices.payload.stop ∧ slices.payload.stop < s.client.readbufSize)

/-- The name that is looked up is the one in the packet. -/
theorem cycleTopic_packet {p : WirePacket} {s : Sys MainCallback} (htype : p.type = PUBLISH)
    (h : s.client.readbuf.take p.bytes.length = p.bytes) (hfits : p.TopicFits) :
    cycleTopic s = p.topicName := by
  have hhanded := deserialize_packet htype h (s.net.env 0).stale
  rw [WirePacket.handed, if_pos hfits] at hhanded
  dsimp only at hhanded
  split at hhanded
  · exact congrArg Prod.fst (Option.some.inj hhanded)
  · cases hhanded

/-- When a packet is delivered inside, if the default callback gets it or not. -/
def StaysInside (s : Sys MainCallback) (p : WirePacket) : Prop :=
  ¬ p.TopicFits ∧ 128 ≤ p.body.length ∨
    p.TopicFits ∧ p.PacketIdFits ∧
      (.mqttSubDefaultCallback ∈ callbacksFor s p.topicName →
        p.bytes.length < s.client.readbufSize)

section Cases
variable {s : Sys MainCallback} {p : WirePacket} (htype : p.type = PUBLISH)
  (h : s.client.readbuf.take p.bytes.length = p.bytes)
include htype h

theorem delivers_inside_of_topic (hfits : p.TopicFits) :
    DeliversInside s p.bytes.length ↔ StaysInside s p := by
  have hlength := length_bytes p
  have hpos := WirePacket.length_encode_pos p.body.length
  have hslices := publishSlices_packet htype h
  generalize (mqttPacketEncode p.body.length).length = digits at hslices hlength hpos
  have htopic := cycleTopic_packet htype h hfits
  have hdelivered : ∀ stale, cycleSlices stale s = some ⟨⟨1 + digits + 2, p.topicLen⟩,
      ⟨1 + digits + p.payloadOffset, (p.body.length : Int) - p.payloadOffset⟩⟩ := by
    intro stale
    rw [cycleSlices, (hslices stale).1 hfits]
    exact if_neg (fun hne => hne rfl)
  have hid := WirePacket.packetIdFits_iff hfits
  obtain ⟨htwo, hfit⟩ := hfits
  unfold DeliversInside StaysInside
  simp only [hdelivered, htopic, Option.mem_some_iff, forall_eq', Slice.Within, Slice.stop]
  constructor
  · intro hinside
    obtain ⟨-, ⟨-, hlen, -⟩, -, hdefault⟩ := hinside ⟨⟨0, 0⟩, 0⟩
    refine .inr ⟨⟨htwo, hfit⟩, hid.mpr (by omega), fun hmem => ?_⟩
    obtain ⟨-, hlt⟩ := hdefault hmem
    omega
  · intro hinside _
    rcases hinside with ⟨hnot, -⟩ | ⟨-, hidfits, hdefault⟩
    · exact absurd ⟨htwo, hfit⟩ hnot
    · have hle := hid.mp hidfits
      refine ⟨⟨by omega, by omega, by omega⟩, ⟨by omega, by omega, by omega⟩, by omega, ?_⟩
      intro hmem
      have hlt := hdefault hmem
      exact ⟨by omega, by omega⟩

/-- Without its topic name, a packet is ignored if there is more than one length byte. -/
theorem delivers_inside_of_no_topic (hfits : ¬ p.TopicFits) :
    DeliversInside s p.bytes.length ↔ StaysInside s p := by
  have hone := WirePacket.length_encode_eq_one (n := p.body.length)
  have hslices := publishSlices_packet htype h
  generalize (mqttPacketEncode p.body.length).length = digits at hslices hone
  unfold StaysInside
  constructor
  · intro hinside
    refine .inl ⟨hfits, ?_⟩
    by_contra hshort
    have hdigits : digits = 1 := hone.mpr (by omega)
    -- the pointer of the payload is not set, and may point in front of the buffer
    obtain ⟨hrc, hpayload⟩ := (hslices ⟨⟨0, 0⟩, -1⟩).2 hfits
    have hsome : cycleSlices ⟨⟨0, 0⟩, -1⟩ s =
        some (publishSlices ⟨⟨0, 0⟩, -1⟩ s.client.readbuf).2 := by
      rw [cycleSlices, if_neg]
      rw [hrc, hdigits]
      decide
    obtain ⟨-, ⟨hstart, -⟩, -⟩ := hinside _ _ hsome
    rw [hpayload] at hstart
    exact absurd hstart (by decide)
  · intro hinside stale slices hmem
    rcases hinside with ⟨-, hlong⟩ | ⟨hfits', -⟩
    · have hdigits : digits ≠ 1 := fun he => absurd (hone.mp he) (by omega)
      obtain ⟨hrc, -⟩ := (hslices stale).2 hfits
      have hnone : cycleSlices stale s = none := by
        rw [cycleSlices, if_pos]
        rw [hrc]
        omega
      rw [hnone] at hmem
      cases hmem
    · exact absurd hfits' hfits

theorem delivers_inside_of_packet : DeliversInside s p.bytes.length ↔ StaysInside s p := by
  by_cases hfits : p.TopicFits
  · exact delivers_inside_of_topic htype h hfits
  · exact delivers_inside_of_no_topic htype h hfits

end Cases

/-- **Bounds.** A read that returns `PUBLISH` has stored a whole packet, and it is delivered
inside of it, or ignored, if and only if its topic name fits, or does not and the packet has
128 bytes behind its length or more; its packet id fits, if it has a QoS; and it does not fill
the read buffer, if the default callback gets it. -/
theorem delivers_inside_iff {s : Sys MainCallback}
    (h : (readPacket s).1 = some ((PUBLISH : Nat) : Int)) :
    ∃ p : WirePacket, ReadsPacket p s ∧ p.type = PUBLISH ∧
      p.bytes.length ≤ s.client.readbufSize ∧
      (DeliversInside (readPacket s).2 p.bytes.length ↔ StaysInside (readPacket s).2 p) := by
  have hsem : 0 < s.interact.2.net.fifoSem := by
    apply Nat.pos_of_ne_zero
    intro hzero
    rw [readPacket_idle hzero] at h
    have hrc : (0 : Int) = (PUBLISH : Nat) := Option.some.inj h
    exact absurd hrc (by decide)
  have hread := readPacket_token hsem
  have hrc := h
  rw [hread] at hrc
  have hpublish : PUBLISH ≠ 0 := by decide
  obtain ⟨p, htype, hfit, hbuf⟩ := packet_of_read hpublish (Option.some.inj hrc)
  have hfront : (readPacket s).2.client.readbuf.take p.bytes.length = p.bytes := by
    rw [hread]
    show (mqttPacketRead Net.read s.client.readbuf s.client.readbufSize _).2.1.take _ = _
    rw [hbuf]
    exact take_writeAt _ _
  exact ⟨p, ⟨by rw [h, htype], hfront⟩, htype, hfit, delivers_inside_of_packet htype hfront⟩

/-! A broker that sends a message with QoS 1 and without a packet id. -/

/-- A topic name of three bytes, and nothing behind it. -/
def withoutId : WirePacket := ⟨headerByte PUBLISH 0 1 0, [0, 3, 97, 47, 98], by decide, by decide⟩

def withoutIdBroker (k : Nat) : EnvStep :=
  { EnvStep.quiet with
    arrive :=
      match k with
      | 0 => [⟨withoutId.bytes, by decide, by decide⟩]
      | _ => [] }

def withoutIdSys : Sys MainCallback :=
  sysInit connectDataInitializer (List.replicate 1024 0) .mqttSubDefaultCallback
    (Net.initial withoutIdBroker) fun _ => []

theorem delivers_inside_iff_withoutId :
    ∃ p : WirePacket, ReadsPacket p withoutIdSys ∧ p.type = PUBLISH ∧
      p.bytes.length ≤ withoutIdSys.client.readbufSize ∧
      (DeliversInside (readPacket withoutIdSys).2 p.bytes.length ↔
        StaysInside (readPacket withoutIdSys).2 p) :=
  delivers_inside_iff (by decide +kernel)

/-- The payload of the message has -2 bytes, and begins behind the packet. -/
theorem withoutId_outside :
    ReadsPacket withoutId withoutIdSys ∧
      ¬ DeliversInside (readPacket withoutIdSys).2 withoutId.bytes.length ∧
      (publishSlices ⟨⟨0, 0⟩, 0⟩ (readPacket withoutIdSys).2.client.readbuf).2.payload = ⟨9, -2⟩ := by
  have hreads : ReadsPacket withoutId withoutIdSys := by
    refine ⟨?_, ?_⟩
    · decide +kernel
    · decide +kernel
  refine ⟨hreads, ?_, by decide +kernel⟩
  rw [delivers_inside_of_packet (by decide) hreads.2]
  intro hinside
  rcases hinside with ⟨-, hlong⟩ | ⟨-, hid, -⟩
  · exact absurd hlong (by decide)
  · exact absurd (hid (by decide)) (by decide)

end IBoxClient
