import Mathlib.Data.List.Basic
import Mathlib.Tactic.Ring
import IBoxClient.Lib.Bytes

/- MQTT packets on the wire (`MQTTPacket.c` and the serialisers around it).

   A packet is a header byte, the length of the rest in one to four digits to base
   128, and the rest. `mqttPacketRead` reads one into a buffer through a callback
   `getfn`, which hands over at most as many bytes as it is asked for; it never
   waits. A source that holds a whole packet yields that packet and is left with
   what follows (`mqttPacketRead_packet`), whatever arrives behind it in the
   meantime; a source that holds none yields the error `-1`. -/
namespace IBoxClient

open Bytes

/-- `enum msgTypes`. -/
abbrev CONNECT : Nat := 1
abbrev CONNACK : Nat := 2
abbrev PUBLISH : Nat := 3
abbrev PUBACK : Nat := 4
abbrev PUBREC : Nat := 5
abbrev PUBREL : Nat := 6
abbrev PUBCOMP : Nat := 7
abbrev SUBSCRIBE : Nat := 8
abbrev SUBACK : Nat := 9
abbrev UNSUBSCRIBE : Nat := 10
abbrev UNSUBACK : Nat := 11
abbrev PINGREQ : Nat := 12
abbrev PINGRESP : Nat := 13
abbrev DISCONNECT : Nat := 14

/-- `MQTTPACKET_BUFFER_TOO_SHORT` and `MQTTPACKET_READ_ERROR`. -/
abbrev bufferTooShort : Int := -2
abbrev readError : Int := -1

/-! ## The header byte -/

/-- The bit fields of `MQTTHeader`. -/
def headerType (byte : UInt8) : Nat := byte.toNat / 16
def headerDup (byte : UInt8) : Nat := byte.toNat / 8 % 2
def headerQos (byte : UInt8) : Nat := byte.toNat / 2 % 4
def headerRetain (byte : UInt8) : Nat := byte.toNat % 2

def headerByte (type dup qos retain : Nat) : UInt8 :=
  UInt8.ofNat (type % 16 * 16 + dup % 2 * 8 + qos % 4 * 2 + retain % 2)

theorem toNat_headerByte (type dup qos retain : Nat) :
    (headerByte type dup qos retain).toNat =
      type % 16 * 16 + dup % 2 * 8 + qos % 4 * 2 + retain % 2 := by
  rw [headerByte, UInt8.toNat_ofNat']
  omega

@[simp] theorem headerType_headerByte (type dup qos retain : Nat) :
    headerType (headerByte type dup qos retain) = type % 16 := by
  rw [headerType, toNat_headerByte]; omega

/-! ## The remaining length -/

/-- The loop of `MQTTPacket_encode`. An `int` has at most five digits. -/
def encodeDigits : Nat → Nat → List UInt8
  | 0, _ => []
  | digits + 1, length =>
    if length / 128 > 0 then UInt8.ofNat (length % 128 + 128) :: encodeDigits digits (length / 128)
    else [UInt8.ofNat (length % 128)]

def mqttPacketEncode (length : Nat) : List UInt8 := encodeDigits 5 length

variable {σ : Type}

/-- A callback that is asked for `count` bytes: the bytes it stores, whose number it
returns, and the source it leaves. -/
abbrev GetFn (σ : Type) := σ → Nat → List UInt8 × σ

/-- The loop of `MQTTPacket_decode`, with the rounds still allowed, the bytes
counted so far, the value and the multiplier. The results are the count, the value
and the source; a byte that cannot be had ends the loop, and counts. -/
def decodeLoop (getcharfn : GetFn σ) : Nat → Nat → Nat → Nat → σ → Nat × Nat × σ
  | 0, len, value, _, s => (len + 1, value, s)
  | rounds + 1, len, value, multiplier, s =>
    match getcharfn s 1 with
    | ([c], s') =>
      let value := value + c.toNat % 128 * multiplier
      if 128 ≤ c.toNat then decodeLoop getcharfn rounds (len + 1) value (multiplier * 128) s'
      else (len + 1, value, s')
    | (_, s') => (len + 1, value, s')

/-- `MQTTPacket_decode`: `MAX_NO_OF_REMAINING_LENGTH_BYTES` is 4. -/
def mqttPacketDecode (getcharfn : GetFn σ) (s : σ) : Nat × Nat × σ :=
  decodeLoop getcharfn 4 0 0 1 s

/-- `MQTTPacket_len`. -/
def mqttPacketLen (remLen : Nat) : Nat :=
  let remLen := remLen + 1
  if remLen < 128 then remLen + 1
  else if remLen < 16384 then remLen + 2
  else if remLen < 2097151 then remLen + 3
  else remLen + 4

/-! ## Reading a packet -/

/-- The third step of `MQTTPacket_read`: the rest of the packet, `remLen` bytes to be
stored from `len` on. -/
def readRest (getfn : GetFn σ) (buf : List UInt8) (buflen : Nat) (header : UInt8)
    (remLen len : Nat) (s : σ) : Int × List UInt8 × σ :=
  if remLen + len > buflen then (readError, buf, s)
  else if remLen ≠ 0 then
    let r := getfn s remLen
    if r.1.length ≠ remLen then (readError, writeAt buf len r.1, r.2)
    else ((headerType header : Int), writeAt buf len r.1, r.2)
  else ((headerType header : Int), buf, s)

/-- `MQTTPacket_read`: the packet type or `-1`, the buffer and the source. -/
def mqttPacketRead (getfn : GetFn σ) (buf : List UInt8) (buflen : Nat) (s : σ) :
    Int × List UInt8 × σ :=
  match getfn s 1 with
  | ([header], s') =>
    let d := mqttPacketDecode getfn s'
    let enc := mqttPacketEncode d.2.1
    readRest getfn (writeAt (writeAt buf 0 [header]) 1 enc) buflen header d.2.1 (1 + enc.length) d.2.2
  | (_, s') => (readError, buf, s')

/-- A well-formed packet: its type is one of the sixteen but zero, and its length can
be written in four digits. -/
structure WirePacket where
  header : UInt8
  body : List UInt8
  type_ne : headerType header ≠ 0
  length_lt : body.length < 268435456

def WirePacket.type (p : WirePacket) : Nat := headerType p.header

def WirePacket.bytes (p : WirePacket) : List UInt8 :=
  p.header :: (mqttPacketEncode p.body.length ++ p.body)

theorem digit_toNat (n : Nat) : (UInt8.ofNat (n % 128)).toNat = n % 128 := by
  rw [UInt8.toNat_ofNat']; omega

theorem more_digit_toNat (n : Nat) : (UInt8.ofNat (n % 128 + 128)).toNat = n % 128 + 128 := by
  rw [UInt8.toNat_ofNat']; omega

/-- The remaining length at the front of a byte string: how many digits it has, and
its value. There is none if the digits do not end, or not soon enough. -/
def lengthField : Nat → List UInt8 → Option (Nat × Nat)
  | 0, _ => none
  | _ + 1, [] => none
  | rounds + 1, c :: cs =>
    if 128 ≤ c.toNat then
      (lengthField rounds cs).map fun r => (r.1 + 1, c.toNat % 128 + r.2 * 128)
    else some (1, c.toNat % 128)

/-- The size of the packet a byte string begins with. -/
def packetSize : List UInt8 → Option Nat
  | [] => none
  | _ :: rest => (lengthField 4 rest).map fun r => 1 + r.1 + r.2

theorem lengthField_cons {rounds : Nat} {bytes : List UInt8} {r : Nat × Nat}
    (h : lengthField (rounds + 1) bytes = some r) :
    ∃ c cs, bytes = c :: cs ∧ (¬ 128 ≤ c.toNat ∧ r = (1, c.toNat % 128) ∨
      128 ≤ c.toNat ∧ ∃ r', lengthField rounds cs = some r' ∧
        r = (r'.1 + 1, c.toNat % 128 + r'.2 * 128)) := by
  cases bytes with
  | nil => cases h
  | cons c cs =>
    refine ⟨c, cs, rfl, ?_⟩
    rw [lengthField] at h
    split at h
    · obtain ⟨r', hr, rfl⟩ := Option.map_eq_some_iff.mp h
      exact .inr ⟨‹_›, r', hr, rfl⟩
    · exact .inl ⟨‹_›, (Option.some.inj h).symm⟩

theorem lengthField_le {rounds : Nat} {bytes : List UInt8} {r : Nat × Nat}
    (h : lengthField rounds bytes = some r) : r.1 ≤ bytes.length := by
  induction rounds generalizing bytes r with
  | zero => cases h
  | succ rounds ih =>
    obtain ⟨c, cs, rfl, ⟨-, rfl⟩ | ⟨-, r', hr, rfl⟩⟩ := lengthField_cons h
    · exact Nat.succ_le_succ (Nat.zero_le _)
    · exact Nat.succ_le_succ (ih hr)

theorem lengthField_append (rounds : Nat) {bytes : List UInt8} {r : Nat × Nat}
    (more : List UInt8) (h : lengthField rounds bytes = some r) :
    lengthField rounds (bytes ++ more) = some r := by
  induction rounds generalizing bytes r with
  | zero => cases h
  | succ rounds ih =>
    obtain ⟨c, cs, rfl, ⟨hc, rfl⟩ | ⟨hc, r', hr, rfl⟩⟩ := lengthField_cons h
    · rw [List.cons_append, lengthField, if_neg hc]
    · rw [List.cons_append, lengthField, if_pos hc, ih hr]
      rfl

theorem lengthField_encodeDigits (rounds : Nat) {digits length : Nat} (tail : List UInt8)
    (hdig : rounds < digits) (hlt : length < 128 ^ (rounds + 1)) :
    lengthField (rounds + 1) (encodeDigits digits length ++ tail) =
      some ((encodeDigits digits length).length, length) := by
  induction rounds generalizing digits length with
  | zero =>
    obtain ⟨digits, rfl⟩ : ∃ d, digits = d + 1 := ⟨digits - 1, by omega⟩
    have hlast : ¬ length / 128 > 0 := by omega
    have hnot : ¬ 128 ≤ length % 128 := by omega
    rw [encodeDigits, if_neg hlast, List.singleton_append, lengthField, digit_toNat, if_neg hnot,
      Nat.mod_mod, Nat.mod_eq_of_lt (by omega)]
    rfl
  | succ rounds ih =>
    obtain ⟨digits, rfl⟩ : ∃ d, digits = d + 1 := ⟨digits - 1, by omega⟩
    rw [encodeDigits]
    split
    · have hlt' : length / 128 < 128 ^ (rounds + 1) := by
        rw [Nat.div_lt_iff_lt_mul (by decide), ← Nat.pow_succ]
        exact hlt
      have hflag : 128 ≤ length % 128 + 128 := Nat.le_add_left ..
      have hvalue : (length % 128 + 128) % 128 + length / 128 * 128 = length := by omega
      rw [List.cons_append, lengthField, more_digit_toNat, if_pos hflag, ih (by omega) hlt',
        Option.map_some, hvalue, List.length_cons]
    · have hnot : ¬ 128 ≤ length % 128 := by omega
      rw [List.singleton_append, lengthField, digit_toNat, if_neg hnot, Nat.mod_mod,
        Nat.mod_eq_of_lt (by omega)]
      rfl

namespace WirePacket

theorem bytes_ne_nil (p : WirePacket) : p.bytes ≠ [] := List.cons_ne_nil _ _

/-- The size of a packet can be told from its front. -/
theorem packetSize_bytes (p : WirePacket) (tail : List UInt8) :
    packetSize (p.bytes ++ tail) = some p.bytes.length := by
  have hfield := lengthField_encodeDigits 3 (p.body ++ tail) (by decide : 3 < 5) p.length_lt
  rw [bytes, List.cons_append, List.append_assoc, packetSize, mqttPacketEncode, hfield,
    List.length_cons, List.length_append, Option.map_some]
  congr 1
  omega

/-- No packet begins another: what a byte string begins with is one packet at most. -/
theorem bytes_inj {p q : WirePacket} {xs ys : List UInt8} (h : p.bytes ++ xs = q.bytes ++ ys) :
    p.bytes = q.bytes ∧ xs = ys := by
  have hp := packetSize_bytes p xs
  rw [h, packetSize_bytes q ys] at hp
  exact List.append_inj h (Option.some.inj hp).symm

end WirePacket

/-- A source that holds `view s` and hands over the front of it. More may come in at
the back while it is asked, after what has come in before (`past`); `Good` fails
from then on when something is lost. -/
structure Source (getfn : GetFn σ) (Good : σ → Prop) (view past : σ → List UInt8) : Prop where
  good : ∀ s n, Good (getfn s n).2 → Good s
  get : ∀ s n, Good (getfn s n).2 → ∃ more, (getfn s n).1 = (view s ++ more).take n ∧
    view (getfn s n).2 = (view s ++ more).drop n ∧ past (getfn s n).2 = past s ++ more

section Reading
variable {getfn : GetFn σ} {Good : σ → Prop} {view past : σ → List UInt8}

/-- The first bytes from a source that has them. -/
theorem Source.front (hs : Source getfn Good view past) {s : σ} {bytes tail : List UInt8}
    (hg : Good (getfn s bytes.length).2) (hv : view s = bytes ++ tail) :
    ∃ s' more, getfn s bytes.length = (bytes, s') ∧ view s' = tail ++ more ∧
      past s' = past s ++ more ∧ Good s' := by
  obtain ⟨more, hget, hrest, hpast⟩ := hs.get s bytes.length hg
  rw [hv, List.append_assoc, List.take_left] at hget
  rw [hv, List.append_assoc, List.drop_left] at hrest
  exact ⟨(getfn s bytes.length).2, more, Prod.ext hget rfl, hrest, hpast, hg⟩

/-- A decoding after which all is good was so at its first byte. -/
theorem Source.good_decodeLoop (hs : Source getfn Good view past) (rounds : Nat) :
    ∀ {len value multiplier : Nat} {s : σ},
    Good (decodeLoop getfn (rounds + 1) len value multiplier s).2.2 → Good (getfn s 1).2 := by
  induction rounds with
  | zero =>
    intro len value multiplier s hg
    rw [decodeLoop] at hg
    generalize getfn s 1 = r at hg ⊢
    obtain ⟨bytes, s'⟩ := r
    rcases bytes with _ | ⟨c, _ | _⟩
    · exact hg
    · simp only [decodeLoop] at hg
      split at hg <;> exact hg
    · exact hg
  | succ rounds ih =>
    intro len value multiplier s hg
    rw [decodeLoop] at hg
    generalize getfn s 1 = r at hg ⊢
    obtain ⟨bytes, s'⟩ := r
    rcases bytes with _ | ⟨c, _ | _⟩
    · exact hg
    · simp only at hg
      split at hg
      · exact hs.good _ _ (ih hg)
      · exact hg
    · exact hg

theorem decodeLoop_more (rounds : Nat) {len value multiplier : Nat} {c : UInt8} {s s' : σ}
    (hget : getfn s 1 = ([c], s')) (hc : 128 ≤ c.toNat) :
    decodeLoop getfn (rounds + 1) len value multiplier s =
      decodeLoop getfn rounds (len + 1) (value + c.toNat % 128 * multiplier)
        (multiplier * 128) s' := by
  rw [decodeLoop]
  simp only [hget, if_pos hc]

theorem decodeLoop_last (rounds : Nat) {len value multiplier : Nat} {c : UInt8} {s s' : σ}
    (hget : getfn s 1 = ([c], s')) (hc : ¬ 128 ≤ c.toNat) :
    decodeLoop getfn (rounds + 1) len value multiplier s =
      (len + 1, value + c.toNat % 128 * multiplier, s') := by
  rw [decodeLoop]
  simp only [hget, if_neg hc]

/-- Decoding reads the remaining length a source begins with. -/
theorem decodeLoop_spec (hs : Source getfn Good view past) (rounds : Nat) :
    ∀ {len value multiplier : Nat} {r : Nat × Nat} {s : σ},
    lengthField rounds (view s) = some r →
    Good (decodeLoop getfn rounds len value multiplier s).2.2 →
    ∃ s' more, decodeLoop getfn rounds len value multiplier s =
      (len + r.1, value + r.2 * multiplier, s') ∧
      view s' = (view s).drop r.1 ++ more ∧ past s' = past s ++ more ∧ Good s' := by
  induction rounds with
  | zero =>
    intro len value multiplier r s hr
    cases hr
  | succ rounds ih =>
    intro len value multiplier r s hr hg
    obtain ⟨c, cs, hv, hr⟩ := lengthField_cons hr
    obtain ⟨s₁, more₁, hget, hv₁, hp₁, hg₁⟩ :=
      @Source.front _ _ _ _ _ hs s [c] cs (hs.good_decodeLoop rounds hg) hv
    rw [List.length_singleton] at hget
    rcases hr with ⟨hc, rfl⟩ | ⟨hc, r', hr', rfl⟩
    · exact ⟨s₁, more₁, decodeLoop_last rounds hget hc, by rw [hv₁, hv]; rfl, hp₁, hg₁⟩
    · -- another digit follows: the rest of the field is read by the rounds left
      have hround := @decodeLoop_more _ getfn rounds len value multiplier _ _ _ hget hc
      rw [hround] at hg ⊢
      obtain ⟨s', more, hloop, hv', hp', hg'⟩ :=
        ih (by rw [hv₁]; exact lengthField_append _ more₁ hr') hg
      refine ⟨s', more₁ ++ more, ?_, ?_, by rw [hp', hp₁, List.append_assoc], hg'⟩
      · have hvalue : value + c.toNat % 128 * multiplier + r'.2 * (multiplier * 128) =
            value + (c.toNat % 128 + r'.2 * 128) * multiplier := by ring
        rw [hloop, hvalue, Nat.add_assoc, Nat.add_comm 1]
      · rw [hv', hv₁, hv, List.drop_append_of_le_length (lengthField_le hr'), List.append_assoc]
        rfl

theorem Source.good_readRest (hs : Source getfn Good view past) {buf : List UInt8}
    {buflen remLen len : Nat} {header : UInt8} {s : σ}
    (hg : Good (readRest getfn buf buflen header remLen len s).2.2) : Good s := by
  unfold readRest at hg
  split at hg
  · exact hg
  · split at hg
    · apply hs.good s remLen
      simp only at hg
      split at hg <;> exact hg
    · exact hg

theorem Source.good_read (hs : Source getfn Good view past) {buf : List UInt8} {buflen : Nat} {s : σ}
    (hg : Good (mqttPacketRead getfn buf buflen s).2.2) : Good (getfn s 1).2 := by
  unfold mqttPacketRead at hg
  generalize getfn s 1 = r at hg ⊢
  obtain ⟨bytes, s'⟩ := r
  rcases bytes with _ | ⟨c, _ | _⟩
  · exact hg
  · exact hs.good _ _ (hs.good_decodeLoop 3 (hs.good_readRest hg))
  · exact hg

theorem readRest_spec (hs : Source getfn Good view past) {buf body tail : List UInt8}
    {buflen len : Nat} {header : UInt8} {s : σ} (hfit : body.length + len ≤ buflen)
    (hg : Good (readRest getfn buf buflen header body.length len s).2.2)
    (hv : view s = body ++ tail) :
    ∃ s' more, readRest getfn buf buflen header body.length len s =
      ((headerType header : Int), writeAt buf len body, s') ∧
      view s' = tail ++ more ∧ past s' = past s ++ more ∧ Good s' := by
  have hgood := hs.good_readRest hg
  unfold readRest at hg ⊢
  rw [if_neg (by omega)] at hg ⊢
  by_cases hbody : body.length ≠ 0
  · rw [if_pos hbody] at hg ⊢
    have hget : Good (getfn s body.length).2 := by
      simp only at hg
      split at hg <;> exact hg
    obtain ⟨s', more, hread, hv', hp', hg'⟩ := hs.front hget hv
    exact ⟨s', more, by simp [hread], hv', hp', hg'⟩
  · have hnil : body = [] := List.length_eq_zero_iff.mp (by omega)
    rw [if_neg hbody, hnil]
    rw [hnil] at hv
    refine ⟨s, [], ?_, by simpa using hv, (List.append_nil _).symm, hgood⟩
    simp [writeAt]

/-- **Reading a packet.** A source that begins with a whole packet yields it, if it
fits into the buffer. -/
theorem mqttPacketRead_packet (hs : Source getfn Good view past) (p : WirePacket) {buf : List UInt8}
    {buflen : Nat} {tail : List UInt8} {s : σ} (hfit : p.bytes.length ≤ buflen)
    (hg : Good (mqttPacketRead getfn buf buflen s).2.2) (hv : view s = p.bytes ++ tail) :
    ∃ s' more, mqttPacketRead getfn buf buflen s = ((p.type : Int), writeAt buf 0 p.bytes, s') ∧
      view s' = tail ++ more ∧ past s' = past s ++ more ∧ Good s' := by
  have hv₀ : view s = [p.header] ++ (mqttPacketEncode p.body.length ++ (p.body ++ tail)) := by
    rw [hv, WirePacket.bytes]
    simp
  have hlen : p.bytes.length = p.body.length + (1 + (mqttPacketEncode p.body.length).length) := by
    simp only [WirePacket.bytes, List.length_cons, List.length_append]
    omega
  -- the header byte, the length, the rest: each read finds what the last one has left,
  -- and what has come in behind it
  obtain ⟨s₁, more₁, hhead, hv₁, hp₁, -⟩ := hs.front (hs.good_read hg) hv₀
  rw [List.length_singleton] at hhead
  unfold mqttPacketRead at hg ⊢
  simp only [hhead] at hg ⊢
  rw [List.append_assoc] at hv₁
  have hfield := lengthField_encodeDigits 3 (p.body ++ tail ++ more₁) (by decide : 3 < 5) p.length_lt
  rw [← mqttPacketEncode, ← hv₁] at hfield
  obtain ⟨s₂, more₂, hdec, hv₂, hp₂, -⟩ := decodeLoop_spec hs 4 hfield (hs.good_readRest hg)
  rw [hv₁, List.drop_left] at hv₂
  rw [Nat.zero_add, Nat.mul_one, Nat.zero_add] at hdec
  rw [mqttPacketDecode, hdec] at hg ⊢
  simp only at hg ⊢
  rw [List.append_assoc, List.append_assoc] at hv₂
  obtain ⟨s₃, more₃, hrest, hv₃, hp₃, hg₃⟩ := readRest_spec hs (by omega) hg hv₂
  refine ⟨s₃, more₁ ++ (more₂ ++ more₃), ?_, ?_, ?_, hg₃⟩
  · have hbuf : writeAt (writeAt (writeAt buf 0 [p.header]) 1 (mqttPacketEncode p.body.length))
        (1 + (mqttPacketEncode p.body.length).length) p.body = writeAt buf 0 p.bytes := by
      have hhd := writeAt_zero_writeAt buf [p.header] (mqttPacketEncode p.body.length)
      have hbd := writeAt_zero_writeAt buf ([p.header] ++ mqttPacketEncode p.body.length) p.body
      rw [List.length_singleton] at hhd
      rw [List.length_append, List.length_singleton] at hbd
      rw [hhd, hbd, List.append_assoc]
      rfl
    rw [hrest, hbuf]
    rfl
  · rw [hv₃, List.append_assoc, List.append_assoc]
  · rw [hp₃, hp₂, hp₁, List.append_assoc, List.append_assoc]

end Reading

section Keeping
variable {getfn : GetFn σ} {I : σ → Prop} (hget : ∀ s n, I s → I (getfn s n).2)
include hget

theorem decodeLoop_keeps (rounds len value multiplier : Nat) {s : σ} (hi : I s) :
    I (decodeLoop getfn rounds len value multiplier s).2.2 := by
  induction rounds generalizing len value multiplier s with
  | zero => exact hi
  | succ rounds ih =>
    have hi' := hget s 1 hi
    rw [decodeLoop]
    split
    · rename_i heq
      rw [heq] at hi'
      split
      · exact ih _ _ _ hi'
      · exact hi'
    · rename_i heq
      rw [heq] at hi'
      exact hi'

theorem readRest_keeps (buf : List UInt8) (buflen : Nat) (header : UInt8) (remLen len : Nat)
    {s : σ} (hi : I s) : I (readRest getfn buf buflen header remLen len s).2.2 := by
  unfold readRest
  split
  · exact hi
  · split
    · simp only
      split <;> exact hget s remLen hi
    · exact hi

/-- What every call of the callback keeps, the reading of a packet keeps. -/
theorem mqttPacketRead_keeps (buf : List UInt8) (buflen : Nat) {s : σ} (hi : I s) :
    I (mqttPacketRead getfn buf buflen s).2.2 := by
  have hi' := hget s 1 hi
  unfold mqttPacketRead
  split
  · rename_i heq
    rw [heq] at hi'
    exact readRest_keeps hget _ _ _ _ _ (decodeLoop_keeps hget _ _ _ _ hi')
  · rename_i heq
    rw [heq] at hi'
    exact hi'

end Keeping

end IBoxClient
