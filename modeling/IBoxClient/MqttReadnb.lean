import IBoxClient.Lib.Machine
import IBoxClient.MqttHandshake

/- The reader that does not wait (`MQTTPacket_readnb`).

   It is called again and again on one buffer. A call takes what the transport has to give, and
   where this is not enough for a packet it returns 0 and keeps in `MQTTTransport` how far it has
   come; `Partway` is what it keeps after some bytes of a packet, computed from these bytes alone.
   However the bytes come in and however few of them the transport hands over at a time, the
   results are those of `MQTTPacket_read` on the whole stream (`readnb_reads`), and the packets of
   a well-formed stream are all read, each once its last byte is there (`readnb_delivers`). -/
namespace IBoxClient

open Bytes

variable {σ : Type}

/-- The callback of a transport: `-1` is `none`, and no bytes are 0, "call again". -/
abbrev NbGetFn (σ : Type) := σ → Nat → Option (List UInt8) × σ

/-- `MQTTTransport`. -/
structure MqttTransport (σ : Type) where
  sck : σ
  multiplier : Nat
  remLen : Nat
  len : Nat
  state : Nat

/-! ## The reader -/

/-- The loop of `MQTTPacket_decodenb`; at most four bytes are read before the check of `len`
ends it. -/
def decodenbLoop (getfn : NbGetFn σ) : Nat → MqttTransport σ → Int × MqttTransport σ
  | 0, trp => (readError, trp)
  | rounds + 1, trp =>
    if trp.len ≥ 4 then (readError, trp)
    else
      match getfn trp.sck 1 with
      | (none, s) => (readError, { trp with sck := s })
      | (some [], s) => (0, { trp with sck := s })
      | (some (c :: _), s) =>
        let trp : MqttTransport σ :=
          { trp with
            sck := s
            len := trp.len + 1
            remLen := trp.remLen + c.toNat % 128 * trp.multiplier
            multiplier := trp.multiplier * 128 }
        if 128 ≤ c.toNat then decodenbLoop getfn rounds trp else (trp.len, trp)

/-- `MQTTPacket_decodenb`. -/
def mqttPacketDecodenb (getfn : NbGetFn σ) (trp : MqttTransport σ) : Int × MqttTransport σ :=
  decodenbLoop getfn 5 (if trp.len = 0 then { trp with multiplier := 1, remLen := 0 } else trp)

/-- `case 2`: the rest of the packet. -/
def readnbBody (getfn : NbGetFn σ) (buf : List UInt8) (trp : MqttTransport σ) :
    Int × List UInt8 × MqttTransport σ :=
  if trp.remLen ≠ 0 then
    match getfn trp.sck trp.remLen with
    | (none, s) => (readError, buf, { trp with sck := s, state := 0 })
    | (some [], s) => (0, buf, { trp with sck := s })
    | (some (c :: cs), s) =>
      let bytes := c :: cs
      let buf := writeAt buf trp.len bytes
      let trp : MqttTransport σ :=
        { trp with sck := s, remLen := trp.remLen - bytes.length, len := trp.len + bytes.length }
      if trp.remLen ≠ 0 then (0, buf, trp)
      else (headerType (readChar buf 0), buf, { trp with state := 0 })
  else (headerType (readChar buf 0), buf, { trp with state := 0 })

/-- `case 1`: the remaining length, put back into the buffer in digits of its own. -/
def readnbLength (getfn : NbGetFn σ) (buflen : Nat) (buf : List UInt8) (trp : MqttTransport σ) :
    Int × List UInt8 × MqttTransport σ :=
  let d := mqttPacketDecodenb getfn trp
  if d.1 = readError then (readError, buf, { d.2 with state := 0 })
  else if d.1 = 0 then (0, buf, d.2)
  else
    let enc := mqttPacketEncode d.2.remLen
    let buf := writeAt buf 1 enc
    let trp : MqttTransport σ := { d.2 with len := 1 + enc.length }
    if trp.remLen + trp.len > buflen then (readError, buf, { trp with state := 0 })
    else readnbBody getfn buf { trp with state := 2 }

/-- `case 0`: the header byte. -/
def readnbHeader (getfn : NbGetFn σ) (buflen : Nat) (buf : List UInt8) (trp : MqttTransport σ) :
    Int × List UInt8 × MqttTransport σ :=
  match getfn trp.sck 1 with
  | (none, s) => (readError, buf, { trp with sck := s, state := 0 })
  | (some [], s) => (0, buf, { trp with sck := s })
  | (some (c :: _), s) =>
    readnbLength getfn buflen (writeAt buf 0 [c]) { trp with sck := s, len := 0, state := 1 }

/-- `MQTTPacket_readnb`: the packet type, 0 or -1, the buffer and the transport. -/
def mqttPacketReadnb (getfn : NbGetFn σ) (buf : List UInt8) (buflen : Nat)
    (trp : MqttTransport σ) : Int × List UInt8 × MqttTransport σ :=
  if trp.state = 1 then readnbLength getfn buflen buf trp
  else if trp.state = 2 then readnbBody getfn buf trp
  else readnbHeader getfn buflen buf { trp with state := 0 }

/-! ## Packets as they come in -/

/-- A packet on the wire. Its length need not be written in the fewest digits. -/
structure RawPacket where
  header : UInt8
  field : List UInt8
  body : List UInt8
  field_ok : lengthField 4 field = some (field.length, body.length)

namespace RawPacket

def bytes (p : RawPacket) : List UInt8 := p.header :: (p.field ++ p.body)

/-- What a reader stores of it: the length in the fewest digits. -/
def stored (p : RawPacket) : List UInt8 :=
  p.header :: (mqttPacketEncode p.body.length ++ p.body)

end RawPacket

/-- The value of some digits, all of which are followed by another one. -/
def digitsValue : List UInt8 → Nat
  | [] => 0
  | d :: ds => d.toNat % 128 + digitsValue ds * 128

theorem digitsValue_append (ds : List UInt8) (c : UInt8) :
    digitsValue (ds ++ [c]) = digitsValue ds + c.toNat % 128 * 128 ^ ds.length := by
  induction ds with
  | nil => simp [digitsValue]
  | cons d ds ih =>
    rw [List.cons_append, digitsValue, ih, digitsValue, List.length_cons, pow_succ]
    ring

/-- A length whose first digits are followed by more. -/
theorem lengthField_digits {ds : List UInt8} (h : ∀ d ∈ ds, 128 ≤ d.toNat) (k : Nat)
    (rest : List UInt8) :
    lengthField (ds.length + k) (ds ++ rest) =
      (lengthField k rest).map fun r => (r.1 + ds.length, digitsValue ds + r.2 * 128 ^ ds.length) := by
  induction ds with
  | nil => simp [digitsValue]
  | cons d ds ih =>
    have hd : 128 ≤ d.toNat := h d List.mem_cons_self
    have hrest := ih fun d' hd' => h d' (List.mem_cons_of_mem d hd')
    rw [List.length_cons, Nat.add_right_comm, List.cons_append, lengthField, if_pos hd, hrest,
      Option.map_map]
    congr 1
    funext r
    rw [Function.comp, digitsValue, pow_succ]
    congr 1
    ring

/-- The digits of a length, up to its last one. -/
theorem lengthField_last {ds : List UInt8} (h : ∀ d ∈ ds, 128 ≤ d.toNat) {c : UInt8}
    (hc : ¬ 128 ≤ c.toNat) (hlen : ds.length < 4) :
    lengthField 4 (ds ++ [c]) = some ((ds ++ [c]).length, digitsValue (ds ++ [c])) := by
  obtain ⟨k, hk⟩ : ∃ k, 4 = ds.length + (k + 1) := ⟨3 - ds.length, by omega⟩
  rw [hk, lengthField_digits h, lengthField, if_neg hc, digitsValue_append, List.length_append]
  simp [Nat.add_comm]

/-- Digits that are all followed by more are no length yet. -/
theorem lengthField_open {ds : List UInt8} (h : ∀ d ∈ ds, 128 ≤ d.toNat) (k : Nat) :
    lengthField k ds = none := by
  induction ds generalizing k with
  | nil => cases k <;> rfl
  | cons d ds ih =>
    cases k with
    | zero => rfl
    | succ k =>
      have hd : 128 ≤ d.toNat := h d List.mem_cons_self
      rw [lengthField, if_pos hd, ih (fun d' hd' => h d' (List.mem_cons_of_mem d hd'))]
      rfl

/-! ## One call -/

/-- The callback does not fail; it hands over the front of what the transport has to give,
`view s`, and no more than it is asked for. `I` holds all along. -/
def Feeds (getfn : NbGetFn σ) (I : σ → Prop) (view : σ → List UInt8) : Prop :=
  ∀ s n, I s → ∃ bytes s', getfn s n = (some bytes, s') ∧ I s' ∧
    bytes.length ≤ n ∧ view s = bytes ++ view s'

/-- The transport has had less to give than it was asked for, and is left as it is then. -/
def Short (getfn : NbGetFn σ) (I : σ → Prop) (s' : σ) : Prop :=
  ∃ s n bytes, I s ∧ getfn s n = (some bytes, s') ∧ bytes.length < n

/-- The first bytes of a packet that is not read: its length does not end, or it is too long for
the buffer. -/
def Refused (buflen : Nat) (p : List UInt8) : Prop :=
  ∃ header field, p = header :: field ∧
    (field.length = 4 ∧ (∀ d ∈ field, 128 ≤ d.toNat) ∨
      ∃ n, lengthField 4 field = some (field.length, n) ∧
        n + (1 + (mqttPacketEncode n).length) > buflen)

/-- The remaining length as far as it has come in: digits that are all followed by more. -/
structure DigitsRead (digits : List UInt8) (trp : MqttTransport σ) : Prop where
  more : ∀ d ∈ digits, 128 ≤ d.toNat
  len_eq : trp.len = digits.length
  remLen_eq : trp.remLen = digitsValue digits
  multiplier_eq : trp.multiplier = 128 ^ digits.length

/-- What the reader keeps when it has taken some bytes of a packet, none of them or not all, into
a buffer that held `buf₀` before. -/
inductive Partway (buflen : Nat) (buf₀ : List UInt8) :
    List UInt8 → List UInt8 → MqttTransport σ → Prop where
  | header {trp : MqttTransport σ} (hstate : trp.state = 0) : Partway buflen buf₀ [] buf₀ trp
  | length {trp : MqttTransport σ} {header : UInt8} {digits : List UInt8} (hstate : trp.state = 1)
      (hlt : digits.length < 4) (hlen : trp.len = digits.length)
      (hcounted : digits ≠ [] → DigitsRead digits trp) :
      Partway buflen buf₀ (header :: digits) (writeAt buf₀ 0 [header]) trp
  | body {trp : MqttTransport σ} {header : UInt8} {field part : List UInt8} {remLen : Nat}
      (hstate : trp.state = 2) (hfield : lengthField 4 field = some (field.length, remLen))
      (hfit : remLen + (1 + (mqttPacketEncode remLen).length) ≤ buflen)
      (hlen : trp.len = 1 + (mqttPacketEncode remLen).length + part.length)
      (hrest : trp.remLen + part.length = remLen) (hpos : trp.remLen ≠ 0) :
      Partway buflen buf₀ (header :: (field ++ part))
        (writeAt buf₀ 0 (header :: (mqttPacketEncode remLen ++ part))) trp

/-- The state of the transport says whether a packet has been begun. -/
theorem Partway.nil_iff {buflen : Nat} {buf₀ p buf : List UInt8} {trp : MqttTransport σ}
    (h : Partway buflen buf₀ p buf trp) : p = [] ↔ trp.state = 0 := by
  cases h with
  | header hstate => simp [hstate]
  | length hstate => simp [hstate]
  | body hstate => simp [hstate]

/-- What a call does that finds the reader behind the bytes `p` of a packet: it refuses the packet,
or takes more bytes and waits, or takes the last bytes of the packet. -/
inductive Outcome (getfn : NbGetFn σ) (I : σ → Prop) (view : σ → List UInt8) (buflen : Nat)
    (buf₀ p avail : List UInt8) : Int × List UInt8 × MqttTransport σ → Prop where
  | failed {more buf : List UInt8} {trp : MqttTransport σ} (htaken : more <+: avail)
      (hbad : Refused buflen (p ++ more)) :
      Outcome getfn I view buflen buf₀ p avail (readError, buf, trp)
  | again {more buf : List UInt8} {trp : MqttTransport σ} (htaken : avail = more ++ view trp.sck)
      (hkept : Partway buflen buf₀ (p ++ more) buf trp) (hshort : Short getfn I trp.sck) :
      Outcome getfn I view buflen buf₀ p avail (0, buf, trp)
  | packet {more : List UInt8} {trp : MqttTransport σ} (raw : RawPacket)
      (htaken : avail = more ++ view trp.sck) (hraw : p ++ more = raw.bytes)
      (hfit : raw.stored.length ≤ buflen) (hstate : trp.state = 0) :
      Outcome getfn I view buflen buf₀ p avail
        (headerType raw.header, writeAt buf₀ 0 raw.stored, trp)

section Call
variable {getfn : NbGetFn σ} {I : σ → Prop} {view : σ → List UInt8} {buflen : Nat}
  {buf₀ : List UInt8}

/-- Outcomes of decoding the remaining length behind some of its digits. -/
theorem decodenbLoop_spec (hf : Feeds getfn I view) (rounds : Nat) {digits : List UInt8}
    {trp : MqttTransport σ} (hI : I trp.sck) (hc : DigitsRead digits trp)
    (hr : 5 ≤ rounds + digits.length) (hle : digits.length ≤ 4) :
    let d := decodenbLoop getfn rounds trp
    (∃ more, more <+: view trp.sck ∧ (digits ++ more).length = 4 ∧
        (∀ d ∈ digits ++ more, 128 ≤ d.toNat) ∧ d.1 = readError) ∨
      ∃ more, view trp.sck = more ++ view d.2.sck ∧ d.2.state = trp.state ∧ I d.2.sck ∧
        (d.1 = 0 ∧ (digits ++ more).length < 4 ∧ DigitsRead (digits ++ more) d.2 ∧
            Short getfn I d.2.sck ∨
          0 < d.1 ∧ lengthField 4 (digits ++ more) = some ((digits ++ more).length, d.2.remLen)) := by
  induction rounds generalizing digits trp with
  | zero => omega
  | succ rounds ih =>
    rw [decodenbLoop]
    by_cases hfull : trp.len ≥ 4
    · rw [if_pos hfull]
      rw [hc.len_eq] at hfull
      refine .inl ⟨[], List.nil_prefix, ?_, ?_, rfl⟩
      · rw [List.append_nil]
        omega
      · rw [List.append_nil]
        exact hc.more
    · rw [if_neg hfull]
      have hlt : digits.length < 4 := by
        rw [← hc.len_eq]
        exact Nat.lt_of_not_le hfull
      obtain ⟨bytes, s, hget, hI', hone, hview⟩ := hf trp.sck 1 hI
      rw [hget]
      rcases bytes with _ | ⟨c, cs⟩
      · -- nothing has come in
        refine .inr ⟨[], hview, rfl, hI', .inl ⟨rfl, by rwa [List.append_nil], ?_, ?_⟩⟩
        · rw [List.append_nil]
          exact ⟨hc.more, hc.len_eq, hc.remLen_eq, hc.multiplier_eq⟩
        · exact ⟨_, _, _, hI, hget, Nat.one_pos⟩
      · have hcs : cs = [] := List.length_eq_zero_iff.mp (Nat.le_zero.mp (Nat.le_of_succ_le_succ hone))
        subst hcs
        have hvalue : trp.remLen + c.toNat % 128 * trp.multiplier = digitsValue (digits ++ [c]) := by
          rw [digitsValue_append, hc.remLen_eq, hc.multiplier_eq]
        dsimp only
        by_cases hmore : 128 ≤ c.toNat
        · -- another digit follows, which is read in the next round
          rw [if_pos hmore]
          have hnext : DigitsRead (digits ++ [c])
              { trp with
                sck := s
                len := trp.len + 1
                remLen := trp.remLen + c.toNat % 128 * trp.multiplier
                multiplier := trp.multiplier * 128 } := by
            constructor
            · intro d hd
              rcases List.mem_append.mp hd with hd | hd
              · exact hc.more d hd
              · rw [List.mem_singleton.mp hd]
                exact hmore
            · simp [hc.len_eq]
            · exact hvalue
            · simp [hc.multiplier_eq, pow_succ]
          have hone : (digits ++ [c]).length = digits.length + 1 := by
            rw [List.length_append, List.length_singleton]
          have happ : ∀ more, digits ++ [c] ++ more = digits ++ c :: more := by simp
          rcases ih hI' hnext (by omega) (by omega) with ⟨more, hpre, herr⟩ | ⟨more, hrest, hdone⟩
          · rw [happ] at herr
            refine .inl ⟨c :: more, ?_, herr⟩
            rw [hview]
            exact List.cons_prefix_cons.mpr ⟨rfl, hpre⟩
          · rw [happ] at hdone
            refine .inr ⟨c :: more, ?_, hdone⟩
            rw [hview, List.cons_append, List.nil_append, List.cons_append]
            exact congrArg (c :: ·) hrest
        · rw [if_neg hmore]
          refine .inr ⟨[c], hview, rfl, hI', .inr ⟨?_, ?_⟩⟩
          · exact Int.natCast_pos.mpr (Nat.succ_pos _)
          · rw [lengthField_last hc.more hmore hlt, hvalue]

/-- What has been taken before a call and what it takes itself come to the same. -/
theorem Outcome.prepend {p more avail : List UInt8} {r : Int × List UInt8 × MqttTransport σ}
    (h : Outcome getfn I view buflen buf₀ (p ++ more) avail r) :
    Outcome getfn I view buflen buf₀ p (more ++ avail) r := by
  cases h with
  | failed htaken hbad =>
    exact .failed ((List.prefix_append_right_inj more).mpr htaken) (by rwa [← List.append_assoc])
  | again htaken hkept hshort =>
    refine .again ?_ (by rwa [← List.append_assoc]) hshort
    rw [htaken, List.append_assoc]
  | packet raw htaken hraw hfit hstate =>
    refine .packet raw ?_ (by rwa [← List.append_assoc]) hfit hstate
    rw [htaken, List.append_assoc]

theorem readChar_writeAt (header : UInt8) (rest : List UInt8) :
    readChar (writeAt buf₀ 0 (header :: rest)) 0 = header := rfl

theorem readnbBody_spec (hf : Feeds getfn I view) {trp : MqttTransport σ} {header : UInt8}
    {field part : List UInt8} {remLen : Nat} (hI : I trp.sck) (hstate : trp.state = 2)
    (hfield : lengthField 4 field = some (field.length, remLen))
    (hfit : remLen + (1 + (mqttPacketEncode remLen).length) ≤ buflen)
    (hlen : trp.len = 1 + (mqttPacketEncode remLen).length + part.length)
    (hrest : trp.remLen + part.length = remLen) :
    Outcome getfn I view buflen buf₀ (header :: (field ++ part)) (view trp.sck)
      (readnbBody getfn (writeAt buf₀ 0 (header :: (mqttPacketEncode remLen ++ part))) trp) := by
  -- the packet, once the rest of its body has come in
  have hwhole : ∀ body : List UInt8, body.length = remLen → ∃ raw : RawPacket,
      raw.header = header ∧ raw.bytes = header :: (field ++ body) ∧
        raw.stored = header :: (mqttPacketEncode remLen ++ body) ∧
        raw.stored.length ≤ buflen := by
    intro body hbody
    subst hbody
    refine ⟨⟨header, field, body, hfield⟩, rfl, rfl, rfl, ?_⟩
    rw [RawPacket.stored, List.length_cons, List.length_append]
    dsimp only
    omega
  unfold readnbBody
  by_cases hpos : trp.remLen ≠ 0
  · rw [if_pos hpos]
    obtain ⟨bytes, s, hget, -, hle, hview⟩ := hf trp.sck trp.remLen hI
    rw [hget]
    rcases bytes with _ | ⟨c, cs⟩
    · refine .again (hview : _ = [] ++ _) ?_ ⟨_, _, _, hI, hget, Nat.pos_of_ne_zero hpos⟩
      rw [List.append_nil]
      exact .body hstate hfield hfit hlen hrest hpos
    · have hlength : (header :: (mqttPacketEncode remLen ++ part)).length = trp.len := by
        rw [List.length_cons, List.length_append, hlen]
        omega
      have hbuf : writeAt (writeAt buf₀ 0 (header :: (mqttPacketEncode remLen ++ part))) trp.len
          (c :: cs) = writeAt buf₀ 0 (header :: (mqttPacketEncode remLen ++ (part ++ c :: cs))) := by
        rw [← hlength, writeAt_zero_writeAt, List.cons_append, List.append_assoc]
      have htaken : header :: (field ++ part) ++ c :: cs = header :: (field ++ (part ++ c :: cs)) := by
        rw [List.cons_append, List.append_assoc]
      dsimp only
      rw [hbuf, readChar_writeAt]
      by_cases hmore : trp.remLen - (c :: cs).length ≠ 0
      · rw [if_pos hmore]
        refine .again hview ?_ ⟨_, _, _, hI, hget, by omega⟩
        rw [htaken]
        refine .body hstate hfield hfit ?_ ?_ hmore
        · rw [List.length_append]
          show trp.len + (c :: cs).length = _
          omega
        · rw [List.length_append]
          show trp.remLen - (c :: cs).length + _ = _
          omega
      · rw [if_neg hmore]
        obtain ⟨raw, rfl, hbytes, hstored, hraw⟩ := hwhole (part ++ c :: cs) (by
          rw [List.length_append]
          omega)
        rw [← hstored]
        exact .packet raw hview (htaken.trans hbytes.symm) hraw rfl
  · rw [if_neg hpos, readChar_writeAt]
    obtain ⟨raw, rfl, hbytes, hstored, hraw⟩ := hwhole part (by omega)
    rw [← hstored]
    refine .packet raw (rfl : _ = [] ++ _) ?_ hraw rfl
    rw [List.append_nil, hbytes]

theorem readnbLength_spec (hf : Feeds getfn I view) {trp : MqttTransport σ} {header : UInt8}
    {digits : List UInt8} (hI : I trp.sck) (hstate : trp.state = 1) (hlt : digits.length < 4)
    (hlen : trp.len = digits.length) (hcounted : digits ≠ [] → DigitsRead digits trp) :
    Outcome getfn I view buflen buf₀ (header :: digits) (view trp.sck)
      (readnbLength getfn buflen (writeAt buf₀ 0 [header]) trp) := by
  -- the first call for the length sets it up
  obtain ⟨trp', hset, hsck, hstate', hcounted'⟩ : ∃ trp' : MqttTransport σ,
      (if trp.len = 0 then { trp with multiplier := 1, remLen := 0 } else trp) = trp' ∧
        trp'.sck = trp.sck ∧ trp'.state = 1 ∧ DigitsRead digits trp' := by
    by_cases hnil : digits = []
    · subst hnil
      refine ⟨_, if_pos hlen, rfl, hstate, ?_⟩
      exact ⟨fun d hd => absurd hd List.not_mem_nil, hlen, rfl, rfl⟩
    · have hne : ¬ trp.len = 0 := by
        rw [hlen]
        exact fun h => hnil (List.length_eq_zero_iff.mp h)
      exact ⟨trp, if_neg hne, rfl, hstate, hcounted hnil⟩
  rw [← hsck] at hI ⊢
  have hdec := decodenbLoop_spec hf 5 hI hcounted' (by omega) (Nat.le_of_lt hlt)
  unfold readnbLength mqttPacketDecodenb
  rw [hset]
  rcases hdec with ⟨more, hpre, hfour, hall, herr⟩ | ⟨more, hview, hst, hI', hdone⟩
  · rw [if_pos herr]
    exact .failed hpre ⟨header, digits ++ more, rfl, .inl ⟨hfour, hall⟩⟩
  rw [hstate'] at hst
  rcases hdone with ⟨hzero, hlt', hcount, hshort⟩ | ⟨hpos, hfield⟩
  · have hne : ¬ (decodenbLoop getfn 5 trp').1 = readError := by
      rw [hzero]
      decide
    rw [if_neg hne, if_pos hzero]
    exact .again hview (.length hst hlt' hcount.len_eq fun _ => hcount) hshort
  · have hne : ¬ (decodenbLoop getfn 5 trp').1 = readError := by
      intro herr
      rw [herr] at hpos
      exact absurd hpos (by decide)
    rw [if_neg hne, if_neg (by omega)]
    generalize (decodenbLoop getfn 5 trp').2 = d at hview hst hI' hfield ⊢
    dsimp only
    split
    · rename_i hlong
      have hbad : Refused buflen (header :: digits ++ more) :=
        ⟨header, digits ++ more, rfl, .inr ⟨_, hfield, hlong⟩⟩
      exact .failed ⟨_, hview.symm⟩ hbad
    · rename_i hfits
      rw [hview]
      apply Outcome.prepend
      have hbuf : writeAt (writeAt buf₀ 0 [header]) 1 (mqttPacketEncode d.remLen) =
          writeAt buf₀ 0 (header :: (mqttPacketEncode d.remLen ++ [])) := by
        rw [List.append_nil]
        exact writeAt_zero_writeAt buf₀ [header] (mqttPacketEncode d.remLen)
      have hbody := @readnbBody_spec _ getfn I view buflen buf₀ hf
        { d with len := 1 + (mqttPacketEncode d.remLen).length, state := 2 } header
        (digits ++ more) [] d.remLen hI' rfl hfield (Nat.le_of_not_lt hfits) rfl rfl
      rw [hbuf, List.cons_append]
      rwa [List.append_nil] at hbody

theorem readnbHeader_spec (hf : Feeds getfn I view) {trp : MqttTransport σ} (hI : I trp.sck)
    (hstate : trp.state = 0) :
    Outcome getfn I view buflen buf₀ [] (view trp.sck) (readnbHeader getfn buflen buf₀ trp) := by
  unfold readnbHeader
  obtain ⟨bytes, s, hget, hI', hle, hview⟩ := hf trp.sck 1 hI
  rw [hget]
  rcases bytes with _ | ⟨c, cs⟩
  · exact .again (hview : _ = [] ++ _) (.header hstate) ⟨_, _, _, hI, hget, Nat.one_pos⟩
  · have hcs : cs = [] := List.length_eq_zero_iff.mp (Nat.le_zero.mp (Nat.le_of_succ_le_succ hle))
    subst hcs
    rw [hview]
    apply Outcome.prepend
    let trp' : MqttTransport σ := { trp with sck := s, len := 0, state := 1 }
    exact @readnbLength_spec _ getfn I view buflen buf₀ hf trp' c [] hI' rfl (by decide) rfl
      fun h => absurd rfl h

/-- **One call**, wherever the calls before have left the reader. -/
theorem mqttPacketReadnb_spec (hf : Feeds getfn I view) {trp : MqttTransport σ}
    {p buf : List UInt8} (hI : I trp.sck) (h : Partway buflen buf₀ p buf trp) :
    Outcome getfn I view buflen buf₀ p (view trp.sck) (mqttPacketReadnb getfn buf buflen trp) := by
  unfold mqttPacketReadnb
  cases h with
  | header hstate =>
    rw [if_neg (by omega), if_neg (by omega)]
    exact @readnbHeader_spec _ getfn I view buflen buf₀ hf { trp with state := 0 } hI rfl
  | length hstate hlt hlen hcounted =>
    rw [if_pos hstate]
    exact readnbLength_spec hf hI hstate hlt hlen hcounted
  | body hstate hfield hfit hlen hrest hpos =>
    rw [if_neg (by omega), if_pos hstate]
    exact readnbBody_spec hf hI hstate hfield hfit hlen hrest

end Call

/-! ## Runs -/

/-- A transport that holds some bytes. What it hands over at each of the next requests is bounded
by `grants`, where 0 is "call again"; after these it hands over whatever it is asked for. -/
structure Queue where
  held : List UInt8
  grants : List Nat

def Queue.get (q : Queue) (count : Nat) : Option (List UInt8) × Queue :=
  match q.grants with
  | [] => (some (q.held.take count), ⟨q.held.drop count, []⟩)
  | g :: gs => (some (q.held.take (min g count)), ⟨q.held.drop (min g count), gs⟩)

/-- Bytes come in, or the reader is called. -/
inductive NbEvent where
  | arrive (bytes : List UInt8)
  | call (grants : List Nat)

/-- The buffer and the transport of a reader. -/
structure Nb where
  buf : List UInt8
  trp : MqttTransport Queue

/-- A reader before its first call; only the state of the transport is set. -/
def Nb.init (buf : List UInt8) (multiplier remLen len : Nat) : Nb :=
  ⟨buf, ⟨⟨[], []⟩, multiplier, remLen, len, 0⟩⟩

/-- What comes out is what calls return other than 0, and the buffer at that time. -/
def nbStep (buflen : Nat) (s : Nb) : NbEvent → Nb × List (Int × List UInt8)
  | .arrive bytes =>
    (⟨s.buf, { s.trp with sck := ⟨s.trp.sck.held ++ bytes, s.trp.sck.grants⟩ }⟩, [])
  | .call grants =>
    let r := mqttPacketReadnb Queue.get s.buf buflen
      { s.trp with sck := ⟨s.trp.sck.held, grants⟩ }
    (⟨r.2.1, r.2.2⟩, if r.1 ≠ 0 then [(r.1, r.2.1)] else [])

/-- Everything that comes in. -/
def arrived : List NbEvent → List UInt8
  | [] => []
  | .arrive bytes :: es => bytes ++ arrived es
  | .call _ :: es => arrived es

/-- Some calls of `MQTTPacket_read` on a stream: what they return, the buffer after each of them,
and the rest of the stream. -/
def readAll (buflen : Nat) : Nat → List UInt8 → List UInt8 → List (Int × List UInt8) × List UInt8
  | 0, _, stream => ([], stream)
  | n + 1, buf, stream =>
    let r := mqttPacketRead bufchar buf buflen stream
    ((r.1, r.2.1) :: (readAll buflen n r.2.1 r.2.2).1, (readAll buflen n r.2.1 r.2.2).2)

theorem arrived_append (es fs : List NbEvent) : arrived (es ++ fs) = arrived es ++ arrived fs := by
  induction es with
  | nil => rfl
  | cons e es ih => cases e <;> simp [arrived, ih]

/-- A queue feeds its reader. -/
theorem Queue.feeds : Feeds Queue.get (fun _ => True) Queue.held := by
  intro q n _
  unfold Queue.get
  split
  · exact ⟨_, _, rfl, trivial, List.length_take_le _ _, (List.take_append_drop _ _).symm⟩
  · refine ⟨_, _, rfl, trivial, ?_, (List.take_append_drop _ _).symm⟩
    exact Nat.le_trans (List.length_take_le _ _) (Nat.min_le_right _ _)

/-- So does one that no longer holds anything back. -/
theorem Queue.feeds_all : Feeds Queue.get (fun q => q.grants = []) Queue.held := by
  intro q n hq
  unfold Queue.get
  rw [hq]
  exact ⟨_, _, rfl, rfl, List.length_take_le _ _, (List.take_append_drop _ _).symm⟩

/-- Such a queue is short of bytes only when it is empty. -/
theorem Queue.held_of_short {q : Queue}
    (h : Short Queue.get (fun q => q.grants = []) q) : q.held = [] := by
  obtain ⟨q', n, bytes, hq, hget, hlt⟩ := h
  unfold Queue.get at hget
  rw [hq] at hget
  obtain ⟨hbytes, rfl⟩ := Prod.mk.inj hget
  obtain rfl := Option.some.inj hbytes
  rw [List.length_take] at hlt
  exact List.drop_eq_nil_of_le (by omega)

/-- The results of reading some packets one after another into a buffer, and the buffer then. -/
def results (buf : List UInt8) : List RawPacket → List (Int × List UInt8)
  | [] => []
  | p :: ps => (headerType p.header, writeAt buf 0 p.stored) :: results (writeAt buf 0 p.stored) ps

def bufAfter (buf : List UInt8) (ps : List RawPacket) : List UInt8 :=
  ps.foldl (fun buf p => writeAt buf 0 p.stored) buf

theorem results_append (buf : List UInt8) (ps : List RawPacket) (p : RawPacket) :
    results buf (ps ++ [p]) = results buf ps ++
      [((headerType p.header : Int), bufAfter buf (ps ++ [p]))] := by
  induction ps generalizing buf with
  | nil => rfl
  | cons q ps ih => exact congrArg (_ :: ·) (ih _)

theorem bufAfter_append (buf : List UInt8) (ps : List RawPacket) (p : RawPacket) :
    bufAfter buf (ps ++ [p]) = writeAt (bufAfter buf ps) 0 p.stored := by
  rw [bufAfter, List.foldl_append]
  rfl

/-- `MQTTPacket_read` on a stream that begins with a packet. -/
theorem mqttPacketRead_raw (p : RawPacket) {buf : List UInt8} {buflen : Nat} (rest : List UInt8)
    (hfit : p.stored.length ≤ buflen) :
    mqttPacketRead bufchar buf buflen (p.bytes ++ rest) =
      ((headerType p.header : Int), writeAt buf 0 p.stored, rest) := by
  rw [RawPacket.stored, List.length_cons, List.length_append] at hfit
  have hhead : bufchar (p.bytes ++ rest) 1 = ([p.header], p.field ++ (p.body ++ rest)) := by
    rw [RawPacket.bytes, List.cons_append, List.append_assoc]
    rfl
  have hfield : lengthField 4 (p.field ++ (p.body ++ rest)) = some (p.field.length, p.body.length) :=
    lengthField_append 4 _ p.field_ok
  obtain ⟨s', more, hdec, hs', hmore, -⟩ := @decodeLoop_spec _ _ _ _ _ source_bufchar 4 0 0 1 _
    (p.field ++ (p.body ++ rest)) hfield trivial
  obtain rfl : more = [] := hmore.symm
  have hs' : s' = p.body ++ rest := by
    rw [List.append_nil] at hs'
    exact hs'.trans List.drop_left
  unfold mqttPacketRead
  rw [hhead]
  simp only [mqttPacketDecode, hdec, Nat.zero_add, Nat.mul_one]
  obtain ⟨s'', more, hread, hs'', hmore, -⟩ := @readRest_spec _ _ _ _ _ source_bufchar
    (writeAt (writeAt buf 0 [p.header]) 1 (mqttPacketEncode p.body.length)) p.body rest buflen
    (1 + (mqttPacketEncode p.body.length).length) p.header s' (by omega) trivial hs'
  obtain rfl : more = [] := hmore.symm
  rw [hread]
  have hbuf : writeAt (writeAt (writeAt buf 0 [p.header]) 1 (mqttPacketEncode p.body.length))
      (1 + (mqttPacketEncode p.body.length).length) p.body = writeAt buf 0 p.stored := by
    have hhd := writeAt_zero_writeAt buf [p.header] (mqttPacketEncode p.body.length)
    have hbd := writeAt_zero_writeAt buf ([p.header] ++ mqttPacketEncode p.body.length) p.body
    rw [List.length_singleton] at hhd
    rw [List.length_append, List.length_singleton] at hbd
    rw [hhd, hbd, List.append_assoc]
    rfl
  rw [hbuf, show s'' = rest from by simpa using hs'']

theorem readAll_raws (buflen : Nat) (ps : List RawPacket) (rest : List UInt8)
    (hfit : ∀ p ∈ ps, p.stored.length ≤ buflen) (buf : List UInt8) :
    readAll buflen ps.length buf (ps.flatMap RawPacket.bytes ++ rest) = (results buf ps, rest) := by
  induction ps generalizing buf with
  | nil => rfl
  | cons p ps ih =>
    have hread := @mqttPacketRead_raw p buf buflen (ps.flatMap RawPacket.bytes ++ rest)
      (hfit p List.mem_cons_self)
    have hrest := ih (fun q hq => hfit q (List.mem_cons_of_mem p hq)) (writeAt buf 0 p.stored)
    rw [List.length_cons, List.flatMap_cons, List.append_assoc, readAll, hread]
    simp only [hrest, results]

/-- What has come in is some packets that have been read, the first bytes `p` of the next one, and
what the transport still holds. -/
structure Framed (buflen : Nat) (buf₀ came : List UInt8) (ps : List RawPacket) (p : List UInt8)
    (s : Nb) : Prop where
  came_eq : came = ps.flatMap RawPacket.bytes ++ (p ++ s.trp.sck.held)
  partway : Partway buflen (bufAfter buf₀ ps) p s.buf s.trp
  fit : ∀ q ∈ ps, q.stored.length ≤ buflen

/-- Setting the source of a transport does not touch what the reader keeps. -/
theorem Partway.set_sck {buflen : Nat} {buf₀ p buf : List UInt8} {trp : MqttTransport σ}
    (h : Partway buflen buf₀ p buf trp) (sck : σ) :
    Partway buflen buf₀ p buf { trp with sck := sck } := by
  cases h with
  | header hstate => exact .header hstate
  | length hstate hlt hlen hcounted =>
    refine .length hstate hlt hlen fun hne => ?_
    exact ⟨(hcounted hne).more, hlen, (hcounted hne).remLen_eq, (hcounted hne).multiplier_eq⟩
  | body hstate hfield hfit hlen hrest hpos => exact .body hstate hfield hfit hlen hrest hpos

section Run
variable {buflen : Nat} {buf₀ came : List UInt8} {ps : List RawPacket} {p : List UInt8} {s : Nb}

theorem Framed.arrive (h : Framed buflen buf₀ came ps p s) (bytes : List UInt8) :
    Framed buflen buf₀ (came ++ bytes) ps p (nbStep buflen s (.arrive bytes)).1 where
  came_eq := by
    rw [h.came_eq, List.append_assoc, List.append_assoc]
    rfl
  partway := h.partway.set_sck _
  fit := h.fit

/-- A call waits with more bytes of the packet, or reads the packet, or refuses it. -/
theorem Framed.call {I : Queue → Prop} (hf : Feeds Queue.get I Queue.held)
    (h : Framed buflen buf₀ came ps p s) {grants : List Nat} (hI : I ⟨s.trp.sck.held, grants⟩) :
    let r := nbStep buflen s (.call grants)
    (∃ more, Framed buflen buf₀ came ps (p ++ more) r.1 ∧ r.2 = [] ∧
        Short Queue.get I r.1.trp.sck) ∨
      (∃ raw, Framed buflen buf₀ came (ps ++ [raw]) [] r.1 ∧ r.2 =
        if (headerType raw.header : Int) ≠ 0 then
          [((headerType raw.header : Int), bufAfter buf₀ (ps ++ [raw]))] else []) ∨
      (∃ more, more <+: s.trp.sck.held ∧ Refused buflen (p ++ more) ∧
        ∃ buf, r.2 = [(readError, buf)]) := by
  have hout := mqttPacketReadnb_spec hf hI (h.partway.set_sck ⟨s.trp.sck.held, grants⟩)
  dsimp only [nbStep] at hout ⊢
  generalize mqttPacketReadnb Queue.get s.buf buflen
    { s.trp with sck := ⟨s.trp.sck.held, grants⟩ } = r at hout ⊢
  cases hout with
  | failed htaken hbad => exact .inr (.inr ⟨_, htaken, hbad, _, rfl⟩)
  | again htaken hkept hshort =>
    refine .inl ⟨_, ⟨?_, hkept, h.fit⟩, rfl, hshort⟩
    rw [h.came_eq, htaken, List.append_assoc]
  | packet raw htaken hraw hfit hstate =>
    refine .inr (.inl ⟨raw, ⟨?_, ?_, ?_⟩, ?_⟩)
    · rw [h.came_eq, htaken, List.flatMap_append, ← List.append_assoc p, hraw]
      simp
    · rw [bufAfter_append]
      exact .header hstate
    · intro q hq
      rcases List.mem_append.mp hq with hq | hq
      · exact h.fit q hq
      · rw [List.mem_singleton.mp hq]
        exact hfit
    · rw [bufAfter_append]

end Run

/-- What has come in is framed as long as no packet is refused. -/
theorem framed_run {buflen : Nat} {buf₀ : List UInt8} {multiplier remLen len : Nat}
    (es : List NbEvent)
    (h : ∀ o ∈ Machine.out (nbStep buflen) (Nb.init buf₀ multiplier remLen len) es,
      o.1 ≠ readError) :
    ∃ ps p, Framed buflen buf₀ (arrived es) ps p
        (Machine.last (nbStep buflen) (Nb.init buf₀ multiplier remLen len) es) ∧
      Machine.out (nbStep buflen) (Nb.init buf₀ multiplier remLen len) es =
        (results buf₀ ps).filter fun o => o.1 ≠ 0 := by
  induction es using List.reverseRecOn with
  | nil => exact ⟨[], [], ⟨rfl, .header rfl, fun q hq => absurd hq List.not_mem_nil⟩, rfl⟩
  | append_singleton es e ih =>
    rw [Machine.out_append] at h
    obtain ⟨ps, p, hframed, hout⟩ := ih fun o ho => h o (List.mem_append_left _ ho)
    rw [Machine.out_append, Machine.last_append, arrived_append, hout]
    replace h := fun o ho => h o (List.mem_append_right _ ho)
    generalize Machine.last (nbStep buflen) (Nb.init buf₀ multiplier remLen len) es = s
      at hframed h ⊢
    rw [Machine.out_cons, Machine.out_nil, List.append_nil] at h ⊢
    rw [Machine.last_cons, Machine.last_nil]
    cases e with
    | arrive bytes =>
      refine ⟨ps, p, ?_, List.append_nil _⟩
      rw [arrived, arrived, List.append_nil]
      exact hframed.arrive bytes
    | call grants =>
      rw [arrived, arrived, List.append_nil]
      rcases hframed.call Queue.feeds trivial with ⟨more, hnext, hnone, -⟩ | ⟨raw, hnext, hread⟩ |
        ⟨-, -, -, buf, herr⟩
      · exact ⟨ps, p ++ more, hnext, by rw [hnone, List.append_nil]⟩
      · refine ⟨ps ++ [raw], [], hnext, ?_⟩
        rw [hread, results_append, List.filter_append]
        by_cases hzero : (headerType raw.header : Int) = 0
        · simp [hzero]
        · simp [Int.natCast_eq_zero.not.mp hzero]
      · rw [herr] at h
        exact absurd rfl (h _ (List.mem_singleton.mpr rfl))

/-- **The reader that does not wait reads what the one that waits reads.** However the bytes of a
stream come in, whenever it is called and however little it is given at a time: unless a call
fails, what the calls return other than 0, with the buffer at that time, is what some number of
calls of `MQTTPacket_read` return on the whole stream; and of what these leave, the reader has
taken the first bytes and the transport holds the rest. -/
theorem readnb_reads (buflen : Nat) (buf₀ : List UInt8) (multiplier remLen len : Nat)
    (es : List NbEvent)
    (h : ∀ o ∈ Machine.out (nbStep buflen) (Nb.init buf₀ multiplier remLen len) es,
      o.1 ≠ readError) :
    let s := Machine.last (nbStep buflen) (Nb.init buf₀ multiplier remLen len) es
    ∃ n buf p, Machine.out (nbStep buflen) (Nb.init buf₀ multiplier remLen len) es =
        (readAll buflen n buf₀ (arrived es)).1.filter (fun o => o.1 ≠ 0) ∧
      (readAll buflen n buf₀ (arrived es)).2 = p ++ s.trp.sck.held ∧
      Partway buflen buf p s.buf s.trp := by
  intro s
  obtain ⟨ps, p, hframed, hout⟩ := framed_run es h
  have hread := readAll_raws buflen ps (p ++ s.trp.sck.held) hframed.fit buf₀
  rw [← hframed.came_eq] at hread
  refine ⟨ps.length, bufAfter buf₀ ps, p, ?_, ?_, hframed.partway⟩
  · rw [hread, hout]
  · rw [hread]

/-- A call of a reader that is given two packets and a part of a third one in odd pieces. -/
theorem readnb_reads_pieces :
    ∃ n, (readAll 8 n [9, 9, 9, 9, 9, 9, 9, 9] [0xD0, 0, 0x40, 0x82, 0, 0, 7, 0xD0]).1.filter
      (fun o => o.1 ≠ 0) =
        [(13, [0xD0, 0, 9, 9, 9, 9, 9, 9]), (4, [0x40, 2, 0, 7, 9, 9, 9, 9])] := by
  obtain ⟨n, buf, p, hout, -⟩ := readnb_reads 8 [9, 9, 9, 9, 9, 9, 9, 9] 0 0 0
    [.arrive [0xD0], .call [1, 0], .arrive [0, 0x40, 0x82], .call [], .call [1, 1, 0],
      .arrive [0, 0, 7, 0xD0], .call [1, 1], .call []] (by decide +kernel)
  refine ⟨n, ?_⟩
  have harr : arrived [.arrive [0xD0], .call [1, 0], .arrive [0, 0x40, 0x82], .call [],
      .call [1, 1, 0], .arrive [0, 0, 7, 0xD0], .call [1, 1], .call []] =
      [0xD0, 0, 0x40, 0x82, 0, 0, 7, 0xD0] := rfl
  rw [harr] at hout
  rw [← hout]
  decide +kernel

/-! ## Well-formed streams -/

namespace WirePacket

/-- A packet that is written in the fewest digits is stored as it is. -/
theorem length_field (w : WirePacket) (tail : List UInt8) :
    lengthField 4 (mqttPacketEncode w.body.length ++ tail) =
      some ((mqttPacketEncode w.body.length).length, w.body.length) :=
  lengthField_encodeDigits 3 tail (by decide) w.length_lt

/-- A stream that begins with two packets begins with one. -/
theorem eq_of_raw {w : WirePacket} {raw : RawPacket} {xs ys : List UInt8}
    (h : raw.bytes ++ xs = w.bytes ++ ys) :
    raw.header = w.header ∧ raw.stored = w.bytes ∧ xs = ys := by
  have hraw := lengthField_append 4 (raw.body ++ xs) raw.field_ok
  have hwire := w.length_field (w.body ++ ys)
  rw [RawPacket.bytes, bytes, List.cons_append, List.cons_append, List.append_assoc,
    List.append_assoc] at h
  obtain ⟨hheader, hrest⟩ := List.cons.inj h
  rw [hrest, hwire] at hraw
  obtain ⟨hdigits, hlength⟩ := Prod.mk.inj (Option.some.inj hraw)
  obtain ⟨hfield, hrest⟩ := List.append_inj hrest hdigits.symm
  obtain ⟨hbody, htail⟩ := List.append_inj hrest hlength.symm
  refine ⟨hheader, ?_, htail⟩
  rw [RawPacket.stored, hheader, hbody]
  rfl

/-- No packet is refused that fits into the buffer. -/
theorem not_refused {w : WirePacket} {buflen : Nat} {p xs ys : List UInt8}
    (hfit : w.bytes.length ≤ buflen) (h : p ++ xs = w.bytes ++ ys) : ¬ Refused buflen p := by
  intro hbad
  obtain ⟨header, field, rfl, hbad⟩ := hbad
  have hwire := w.length_field (w.body ++ ys)
  rw [bytes, List.cons_append, List.cons_append, List.append_assoc] at h
  rw [← (List.cons.inj h).2] at hwire
  rcases hbad with ⟨hfour, hall⟩ | ⟨n, hfield, hlong⟩
  · -- four digits that are all followed by more
    have hnone := lengthField_digits hall 0 xs
    rw [hfour] at hnone
    rw [hnone] at hwire
    exact absurd hwire (by simp [lengthField])
  · rw [lengthField_append 4 xs hfield] at hwire
    obtain ⟨-, hlength⟩ := Prod.mk.inj (Option.some.inj hwire)
    rw [length_bytes, ← hlength] at hfit
    omega

/-- The first bytes of a packet, not all of them, are no whole packet. -/
theorem not_partway {w : WirePacket} {buflen : Nat} {buf₀ ys buf : List UInt8}
    {trp : MqttTransport σ} : ¬ Partway buflen buf₀ (w.bytes ++ ys) buf trp := by
  intro h
  have hwire := w.length_field (w.body ++ ys)
  generalize hp : w.bytes ++ ys = p at h
  rw [bytes, List.cons_append, List.append_assoc] at hp
  cases h with
  | header => cases hp
  | length hstate hlt hlen hcounted =>
    rename_i header digits
    rw [(List.cons.inj hp).2] at hwire
    by_cases hnil : digits = []
    · rw [hnil] at hwire
      cases hwire
    · rw [lengthField_open (hcounted hnil).more] at hwire
      cases hwire
  | body hstate hfield hfit hlen hrest hpos =>
    rw [(List.cons.inj hp).2, lengthField_append 4 _ hfield] at hwire
    obtain ⟨hdigits, hlength⟩ := Prod.mk.inj (Option.some.inj hwire)
    have hsize := congrArg List.length (List.cons.inj hp).2
    simp only [List.length_append] at hsize
    omega

end WirePacket

/-- What has been framed at the front of a well-formed stream is its packets. -/
theorem wires_of_raws {ws : List WirePacket} {ps : List RawPacket} {rest : List UInt8}
    (h : ps.flatMap RawPacket.bytes ++ rest = ws.flatMap WirePacket.bytes) :
    ∃ done todo, ws = done ++ todo ∧
      List.Forall₂ (fun q w => q.header = WirePacket.header w ∧ q.stored = w.bytes) ps done ∧
      rest = todo.flatMap WirePacket.bytes := by
  induction ps generalizing ws with
  | nil => exact ⟨[], ws, rfl, .nil, h⟩
  | cons q ps ih =>
    cases ws with
    | nil => cases h
    | cons w ws =>
      rw [List.flatMap_cons, List.flatMap_cons, List.append_assoc] at h
      obtain ⟨hheader, hstored, htail⟩ := WirePacket.eq_of_raw h
      obtain ⟨done, todo, rfl, hdone, hrest⟩ := ih htail
      exact ⟨w :: done, todo, rfl, .cons ⟨hheader, hstored⟩ hdone, hrest⟩

/-- What calls return, and the buffer at that time, are the types and the bytes of some packets. -/
abbrev ReadOff : List (Int × List UInt8) → List WirePacket → Prop :=
  List.Forall₂ fun o w => o.1 = w.type ∧ o.2.take w.bytes.length = w.bytes

theorem readOff_results {ps : List RawPacket} {ws : List WirePacket}
    (h : List.Forall₂ (fun q w => q.header = WirePacket.header w ∧ q.stored = w.bytes) ps ws)
    (buf : List UInt8) : ReadOff ((results buf ps).filter fun o => o.1 ≠ 0) ws := by
  induction h generalizing buf with
  | nil => exact .nil
  | @cons q w ps ws hq _ ih =>
    obtain ⟨hheader, hstored⟩ := hq
    have hne : ((headerType q.header : Int) ≠ 0) := by
      rw [hheader]
      exact Int.natCast_ne_zero.mpr w.type_ne
    rw [results, List.filter_cons_of_pos (by simpa using hne)]
    refine .cons ⟨by rw [hheader]; rfl, ?_⟩ (ih _)
    rw [hstored]
    exact take_writeAt buf w.bytes

section Wires
variable {buflen : Nat} {buf₀ : List UInt8} {ps : List RawPacket} {ws : List WirePacket}
  {p future : List UInt8} {s : Nb}

/-- A reader within a well-formed stream has no packet to refuse. -/
theorem Framed.not_refused {came more : List UInt8} (h : Framed buflen buf₀ came ps p s)
    (hcame : came ++ future = ws.flatMap WirePacket.bytes)
    (hfit : ∀ w ∈ ws, w.bytes.length ≤ buflen) (hmore : more <+: s.trp.sck.held) :
    ¬ Refused buflen (p ++ more) := by
  obtain ⟨rest, hrest⟩ := hmore
  rw [h.came_eq, List.append_assoc] at hcame
  obtain ⟨done, todo, rfl, -, htodo⟩ := wires_of_raws hcame
  rw [← hrest, ← List.append_assoc, List.append_assoc] at htodo
  cases todo with
  | nil =>
    intro hbad
    obtain ⟨header, field, hp, -⟩ := hbad
    rw [hp] at htodo
    cases htodo
  | cons w todo =>
    have hw := hfit w (List.mem_append_right _ List.mem_cons_self)
    exact WirePacket.not_refused hw htodo

/-- A reader that has been given all of a stream, and is called often enough, is done with it. -/
theorem Framed.idle (hfit : ∀ w ∈ ws, w.bytes.length ≤ buflen) (k : Nat)
    (h : Framed buflen buf₀ (ws.flatMap WirePacket.bytes) ps p s)
    (hk : ws.length ≤ ps.length + k) :
    let s' := Machine.last (nbStep buflen) s (List.replicate k (.call []))
    s'.trp.state = 0 ∧ s'.trp.sck.held = [] := by
  induction k generalizing ps p s with
  | zero =>
    obtain ⟨done, todo, hws, hdone, htodo⟩ := wires_of_raws h.came_eq.symm
    have hsame := hdone.length_eq
    have hnil : todo = [] := by
      rw [hws, List.length_append] at hk
      exact List.length_eq_zero_iff.mp (by omega)
    rw [hnil, List.flatMap_nil] at htodo
    obtain ⟨hp, hheld⟩ := List.append_eq_nil_iff.mp htodo
    exact ⟨h.partway.nil_iff.mp hp, hheld⟩
  | succ k ih =>
    rw [List.replicate_succ, Machine.last_cons]
    rcases h.call Queue.feeds_all rfl with ⟨more, hnext, -, hshort⟩ | ⟨raw, hnext, -⟩ |
      ⟨more, hmore, hbad, -⟩
    · -- the call waits, so there is nothing left to read
      apply ih hnext
      have hcame := hnext.came_eq
      rw [Queue.held_of_short hshort, List.append_nil] at hcame
      obtain ⟨done, todo, hws, hdone, htodo⟩ := wires_of_raws hcame.symm
      have hsame := hdone.length_eq
      cases todo with
      | nil =>
        rw [hws, List.append_nil]
        omega
      | cons w todo =>
        have hpart := hnext.partway
        rw [htodo] at hpart
        exact absurd hpart WirePacket.not_partway
    · apply ih hnext
      rw [List.length_append, List.length_singleton]
      omega
    · exact absurd hbad (h.not_refused (List.append_nil _) hfit hmore)

end Wires

/-- No call fails while a well-formed stream comes in. -/
theorem readnb_never_fails {buflen : Nat} {buf₀ : List UInt8} {multiplier remLen len : Nat}
    {ws : List WirePacket} (hfit : ∀ w ∈ ws, w.bytes.length ≤ buflen) {es : List NbEvent}
    (h : arrived es <+: ws.flatMap WirePacket.bytes) :
    ∀ o ∈ Machine.out (nbStep buflen) (Nb.init buf₀ multiplier remLen len) es,
      o.1 ≠ readError := by
  induction es using List.reverseRecOn with
  | nil => exact fun o ho => absurd ho List.not_mem_nil
  | append_singleton es e ih =>
    rw [arrived_append] at h
    have hbefore := ih ((List.prefix_append _ _).trans h)
    obtain ⟨ps, p, hframed, -⟩ := framed_run es hbefore
    rw [Machine.out_append, Machine.out_cons, Machine.out_nil, List.append_nil]
    intro o ho
    rcases List.mem_append.mp ho with ho | ho
    · exact hbefore o ho
    cases e with
    | arrive bytes => exact absurd ho List.not_mem_nil
    | call grants =>
      obtain ⟨future, hfuture⟩ := h
      rw [List.append_assoc] at hfuture
      rcases hframed.call Queue.feeds trivial with ⟨more, -, hnone, -⟩ | ⟨raw, -, hread⟩ |
        ⟨more, hmore, hbad, -⟩
      · rw [hnone] at ho
        exact absurd ho List.not_mem_nil
      · rw [hread] at ho
        split at ho
        · rw [List.mem_singleton.mp ho]
          show ((headerType raw.header : Nat) : Int) ≠ -1
          omega
        · exact absurd ho List.not_mem_nil
      · exact absurd hbad (hframed.not_refused hfuture hfit hmore)

/-- **Every packet, once and in order.** While a well-formed stream comes in, however it is cut and
whenever the reader is called, the calls return the packets at its front, each unchanged in the
buffer; and when all of it has come in, as many further calls as it has packets have returned all
of them. -/
theorem readnb_delivers {buflen : Nat} (buf₀ : List UInt8) (multiplier remLen len : Nat)
    {ws : List WirePacket} (hfit : ∀ w ∈ ws, w.bytes.length ≤ buflen) {es : List NbEvent}
    (h : arrived es <+: ws.flatMap WirePacket.bytes) :
    (∃ done, done <+: ws ∧
      ReadOff (Machine.out (nbStep buflen) (Nb.init buf₀ multiplier remLen len) es) done) ∧
    (arrived es = ws.flatMap WirePacket.bytes → ∀ k, ws.length ≤ k →
      ReadOff (Machine.out (nbStep buflen) (Nb.init buf₀ multiplier remLen len)
        (es ++ List.replicate k (.call []))) ws) := by
  constructor
  · obtain ⟨ps, p, hframed, hout⟩ := @framed_run buflen buf₀ multiplier remLen len es
      (readnb_never_fails hfit h)
    obtain ⟨future, hfuture⟩ := h
    rw [hframed.came_eq, List.append_assoc] at hfuture
    obtain ⟨done, todo, rfl, hdone, -⟩ := wires_of_raws hfuture
    rw [hout]
    exact ⟨done, List.prefix_append done todo, readOff_results hdone buf₀⟩
  · intro hall k hk
    have hcalls : arrived (es ++ List.replicate k (.call [])) = ws.flatMap WirePacket.bytes := by
      have hnone : ∀ k, arrived (List.replicate k (.call [])) = [] := by
        intro k
        induction k with
        | zero => rfl
        | succ k ih => exact ih
      rw [arrived_append, hnone, List.append_nil, hall]
    -- the reader is idle in the end, so what it has framed is the whole stream
    obtain ⟨ps₁, p₁, hframed₁, -⟩ := @framed_run buflen buf₀ multiplier remLen len es
      (readnb_never_fails hfit h)
    rw [hall] at hframed₁
    obtain ⟨hstate, hheld⟩ := hframed₁.idle hfit k (by omega)
    obtain ⟨ps, p, hframed, hout⟩ := @framed_run buflen buf₀ multiplier remLen len
      (es ++ List.replicate k (.call [])) (readnb_never_fails hfit (by rw [hcalls]))
    have hcame := hframed.came_eq
    rw [← Machine.last_append] at hstate hheld
    rw [hcalls, hheld, List.append_nil] at hcame
    have hp : p = [] := hframed.partway.nil_iff.mpr hstate
    obtain ⟨done, todo, rfl, hdone, htodo⟩ := wires_of_raws hcame.symm
    have hnil : todo = [] := by
      cases todo with
      | nil => rfl
      | cons w todo =>
        rw [hp] at htodo
        cases htodo
    rw [hnil, List.append_nil, hout]
    exact readOff_results hdone buf₀

/-- A `PINGRESP` and a `PUBACK`, in three pieces. -/
theorem readnb_delivers_pieces :
    ReadOff (Machine.out (nbStep 8) (Nb.init [] 0 0 0)
        ([.arrive [0xD0], .call [1, 0], .arrive [0, 0x40, 2], .call [1], .arrive [0, 7]] ++
          List.replicate 2 (.call [])))
      [Inbound.pingresp.wire, (Inbound.ack .puback 7).wire] :=
  (readnb_delivers [] 0 0 0 (by decide +kernel) (by decide +kernel)).2 (by decide +kernel) 2
    (by decide)

end IBoxClient
