import IBoxClient.Lib.Bytes

/- The configuration of the device (`IBOX_CONFIG` in `ibox_board.h`), which all threads
   share. The structure is packed, so it is kept as its bytes: a text that fills its
   field goes on into the next one when it is read, and one that is too long for it
   is written there. -/
namespace IBoxClient

open Bytes

abbrev iboxConfigSize : Nat := 191

/-- `IBOX_CONFIG`. -/
structure IboxConfig where
  bytes : List UInt8
  length_eq : bytes.length = iboxConfigSize

namespace IboxConfig

/-- The text that begins at an offset. -/
def textAt (config : IboxConfig) (off : Nat) : List UInt8 := cstring (config.bytes.drop off)

/-- The unsigned integer of `width` bytes at an offset. -/
def uintAt (config : IboxConfig) (off width : Nat) : Nat :=
  ofLittleEndian ((config.bytes.drop off).take width)

def deviceSn (config : IboxConfig) : UInt32 := UInt32.ofNat (config.uintAt 0 4)
def serverIp (config : IboxConfig) : List UInt8 := config.textAt 4
def serverDsn (config : IboxConfig) : List UInt8 := config.textAt 20
def serverPort (config : IboxConfig) : Nat := config.uintAt 40 2
def localPort (config : IboxConfig) : Nat := config.uintAt 42 2
def gsmApn (config : IboxConfig) : List UInt8 := config.textAt 44
def ethMac (config : IboxConfig) : List UInt8 := config.textAt 52
def useDns (config : IboxConfig) : Nat := config.uintAt 86 1
def period (config : IboxConfig) : Nat := config.uintAt 87 1
def wifiSsid (config : IboxConfig) : List UInt8 := config.textAt 88
def wifiPassword (config : IboxConfig) : List UInt8 := config.textAt 98

/-- The fields that are written by the state machine of the WiFi module. -/
abbrev wifiMacOffset : Nat := 109
abbrev wifiIpOffset : Nat := 127

def wifiMac (config : IboxConfig) : List UInt8 := config.textAt wifiMacOffset
def wifiIp (config : IboxConfig) : List UInt8 := config.textAt wifiIpOffset
def gprsImei (config : IboxConfig) : Nat := config.uintAt 143 8
def mqttUsername (config : IboxConfig) : List UInt8 := config.textAt 151
def mqttPassword (config : IboxConfig) : List UInt8 := config.textAt 171

/-- A text and its NUL are written from an offset on, as far as they lie in the
structure. -/
def writeText (config : IboxConfig) (off : Nat) (text : List UInt8)
    (hoff : off ≤ iboxConfigSize) : IboxConfig where
  bytes := (writeAt config.bytes off (text ++ [0])).take iboxConfigSize
  length_eq := by
    have hle := length_writeAt_ge (config.length_eq.symm ▸ hoff) (text ++ [0])
    rw [config.length_eq] at hle
    rw [List.length_take, Nat.min_eq_left hle]

/-- A text that has been written is there, if it fits with its NUL. -/
theorem textAt_writeText (config : IboxConfig) {off : Nat} {text : List UInt8} (hnul : 0 ∉ text)
    (hfit : off + text.length < iboxConfigSize) (hoff : off ≤ iboxConfigSize) :
    (config.writeText off text hoff).textAt off = text := by
  obtain ⟨k, hk⟩ : ∃ k, iboxConfigSize - off = text.length + (k + 1) :=
    ⟨iboxConfigSize - off - text.length - 1, by omega⟩
  have hlen : (config.bytes.take off).length = off := by
    rw [List.length_take, config.length_eq, Nat.min_eq_left hoff]
  simp only [textAt, writeText, writeAt, List.drop_take, List.append_assoc, hk]
  rw [List.drop_append_of_le_length (Nat.le_of_eq hlen.symm), List.drop_of_length_le (by omega),
    List.nil_append, List.take_length_add_append, cstring_append hnul, List.singleton_append,
    List.take_succ_cons, cstring, List.takeWhile_cons, if_neg (by decide), List.append_nil]

/-- One that is too long is cut off at the end of the structure. -/
theorem textAt_writeText_long (config : IboxConfig) {off : Nat} {text : List UInt8}
    (hnul : 0 ∉ text) (hlong : iboxConfigSize ≤ off + text.length) (hoff : off ≤ iboxConfigSize) :
    (config.writeText off text hoff).textAt off = text.take (iboxConfigSize - off) := by
  have hlen : (config.bytes.take off).length = off := by
    rw [List.length_take, config.length_eq, Nat.min_eq_left hoff]
  have hcut : iboxConfigSize - off ≤ text.length := by omega
  have htake : 0 ∉ text.take (iboxConfigSize - off) := fun h => hnul (List.mem_of_mem_take h)
  simp only [textAt, writeText, writeAt, List.drop_take, List.append_assoc]
  rw [List.drop_append_of_le_length (Nat.le_of_eq hlen.symm), List.drop_of_length_le (by omega),
    List.nil_append, List.take_append_of_le_length hcut,
    ← List.append_nil (text.take (iboxConfigSize - off)), cstring_append htake, cstring,
    List.takeWhile_nil]

/-- A store leaves what is in front of it. -/
theorem take_writeText (config : IboxConfig) (off : Nat) (text : List UInt8)
    (hoff : off ≤ iboxConfigSize) :
    (config.writeText off text hoff).bytes.take off = config.bytes.take off := by
  have hlen : (config.bytes.take off).length = off := by
    rw [List.length_take, config.length_eq, Nat.min_eq_left hoff]
  simp only [writeText, writeAt, List.take_take, Nat.min_eq_left hoff, List.append_assoc]
  rw [List.take_append_of_le_length (Nat.le_of_eq hlen.symm), List.take_take, Nat.min_self]

/-- And it leaves what is behind it. -/
theorem drop_writeText (config : IboxConfig) {off at_ : Nat} {text : List UInt8}
    (hoff : off ≤ iboxConfigSize) (h : off + text.length < at_) :
    (config.writeText off text hoff).bytes.drop at_ = config.bytes.drop at_ := by
  have hlen : (config.bytes.take off ++ (text ++ [0])).length = off + (text.length + 1) := by
    simp only [List.length_append, List.length_take, config.length_eq, Nat.min_eq_left hoff,
      List.length_singleton]
  have hsize : config.bytes.drop at_ = (config.bytes.drop at_).take (iboxConfigSize - at_) := by
    rw [List.take_of_length_le]
    rw [List.length_drop, config.length_eq]
  obtain ⟨k, rfl⟩ : ∃ k, at_ = off + (text.length + 1) + k :=
    ⟨at_ - (off + (text.length + 1)), by omega⟩
  rw [hsize]
  simp only [writeText, writeAt, List.drop_take, List.length_append, List.length_singleton]
  rw [← hlen, List.drop_length_add_append, List.drop_drop, hlen]

/-- An integer in front of the store. -/
theorem uintAt_writeText (config : IboxConfig) {off at_ width : Nat} (text : List UInt8)
    (hoff : off ≤ iboxConfigSize) (h : at_ + width ≤ off) :
    (config.writeText off text hoff).uintAt at_ width = config.uintAt at_ width := by
  have hfield : ∀ bytes : List UInt8,
      (bytes.drop at_).take width = ((bytes.take off).drop at_).take width := by
    intro bytes
    rw [List.drop_take, List.take_take, Nat.min_eq_left (by omega)]
  rw [uintAt, uintAt, hfield, take_writeText, ← hfield]

/-- The initial values of `ibox_config`. -/
def initial : IboxConfig where
  bytes := littleEndian 4 888888888 ++ field 16 (ascii "192.168.199.138") ++
    field 20 (ascii "lot.zxbike.cc") ++ littleEndian 2 61613 ++ littleEndian 2 8000 ++
    field 8 (ascii "CMNET") ++ field 18 (ascii "00:7B:04:AA:58:69") ++
    field 16 (ascii "114.114.114.114") ++ [0, 5] ++ field 10 (ascii "ziroom102") ++
    field 11 (ascii "4001001111") ++ field 18 (ascii "0") ++ field 16 (ascii "0") ++
    littleEndian 8 865691033833807 ++ field 20 (ascii "admin") ++ field 20 (ascii "password")
  length_eq := by decide +kernel

end IboxConfig

end IBoxClient
