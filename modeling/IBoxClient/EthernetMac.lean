import IBoxClient.IBoxConfig

/- The hardware address of the wired link (`set_w5500_mac` in `ibox_Ethernet.c`).

   `sscanf` stores every number as an `int`, four bytes from its byte of `mac` on. Each store
   but the last is mended by the ones after it, so `mac` is right in the end; the three bytes
   behind it, the first ones of `ip`, are left at 0 (`bytes_scanned`). -/
namespace IBoxClient

open Bytes

/-- `ETH_MSG`: `mac` of six bytes, then `ip`, `sub`, `gw`, `dns` and `dns_sip` of four. -/
structure EthMsg where
  bytes : List UInt8
  length_eq : bytes.length = 26

namespace EthMsg

/-- The bytes of a field. -/
def slice (m : EthMsg) (off width : Nat) : List UInt8 := (m.bytes.drop off).take width

def mac (m : EthMsg) : List UInt8 := m.slice 0 6
def ip (m : EthMsg) : List UInt8 := m.slice 6 4
def sub (m : EthMsg) : List UInt8 := m.slice 10 4
def gw (m : EthMsg) : List UInt8 := m.slice 14 4
def dns (m : EthMsg) : List UInt8 := m.slice 18 4
def dnsSip (m : EthMsg) : List UInt8 := m.slice 22 4

theorem length_storeInt (m : EthMsg) (off : Fin 6) (n : Nat) :
    (writeAt m.bytes off (littleEndian 4 n)).length = 26 := by
  have hoff := off.isLt
  have hlen := m.length_eq
  simp only [writeAt, List.length_append, List.length_take, List.length_drop, length_littleEndian]
  omega

/-- An `int` stored at the address of a byte of `mac`. -/
def storeInt (m : EthMsg) (off : Fin 6) (n : Nat) : EthMsg where
  bytes := writeAt m.bytes off (littleEndian 4 n)
  length_eq := length_storeInt m off n

end EthMsg

/-! ## `sscanf` -/

/-- The value of a hexadecimal digit. -/
def hexValue (c : UInt8) : Option Nat :=
  if 48 ≤ c ∧ c ≤ 57 then some (c.toNat - 48)
  else if 65 ≤ c ∧ c ≤ 70 then some (c.toNat - 55)
  else if 97 ≤ c ∧ c ≤ 102 then some (c.toNat - 87)
  else none

/-- The digits at the front, added to a number, and what is behind them. -/
def scanDigits (n : Nat) : List UInt8 → Nat × List UInt8
  | [] => (n, [])
  | c :: cs =>
    match hexValue c with
    | some d => scanDigits (n * 16 + d) cs
    | none => (n, c :: cs)

/-- `0x` or `0X` may stand before the digits. -/
def scanBase : List UInt8 → List UInt8
  | 48 :: 88 :: s => s
  | 48 :: 120 :: s => s
  | s => s

/-- `%X`: the number, in the 32 bits of an `int`, and what is behind it. -/
def scanHex (s : List UInt8) : Option (Nat × List UInt8) :=
  let sign := scanSign (s.dropWhile isspace)
  match scanBase sign.2 with
  | [] => none
  | c :: cs =>
    if (hexValue c).isSome then
      let r := scanDigits 0 (c :: cs)
      some ((if sign.1 then 4294967296 - r.1 % 4294967296 else r.1) % 4294967296, r.2)
    else none

/-- `sscanf` with `%X:%X:%X:%X:%X:%X`, into the bytes of `mac` that are left; it ends with the
first conversion that fails, or behind which there is no colon. -/
def sscanfMac : List (Fin 6) → List UInt8 → EthMsg → EthMsg
  | [], _, m => m
  | off :: offs, s, m =>
    match scanHex s with
    | none => m
    | some (n, rest) =>
      match rest with
      | 58 :: rest => sscanfMac offs rest (m.storeInt off n)
      | _ => m.storeInt off n

/-- `set_w5500_mac`: `eth_msg_get` after it, and what `setSHAR` is given. -/
def setW5500Mac (config : IboxConfig) (m : EthMsg) : EthMsg × List UInt8 :=
  let m := sscanfMac [0, 1, 2, 3, 4, 5] config.ethMac m
  (m, m.mac)

/-! ## Addresses -/

/-- A hexadecimal number of a byte. -/
structure HexNumber (text : List UInt8) (v : UInt8) : Prop where
  ne_nil : text ≠ []
  digits : ∀ c ∈ text, (hexValue c).isSome = true
  value : text.foldl (fun n c => n * 16 + (hexValue c).getD 0) 0 = v.toNat

/-- Hexadecimal numbers, separated by colons. -/
inductive MacText : List UInt8 → List UInt8 → Prop where
  | last {text : List UInt8} {v : UInt8} (h : HexNumber text v) : MacText text [v]
  | more {text s : List UInt8} {v : UInt8} {vs : List UInt8} (h : HexNumber text v)
    (hrest : MacText s vs) : MacText (text ++ 58 :: s) (v :: vs)

theorem MacText.ne_nil {s vs : List UInt8} (h : MacText s vs) : vs ≠ [] := by
  cases h <;> exact List.cons_ne_nil _ _

/-- The digits of a number, up to a colon or the end. -/
theorem scanDigits_append {text : List UInt8} (h : ∀ c ∈ text, (hexValue c).isSome = true)
    (n : Nat) {rest : List UInt8} (hrest : rest = [] ∨ ∃ s, rest = 58 :: s) :
    scanDigits n (text ++ rest) =
      (text.foldl (fun n c => n * 16 + (hexValue c).getD 0) n, rest) := by
  induction text generalizing n with
  | nil =>
    rcases hrest with rfl | ⟨s, rfl⟩
    · rfl
    · rfl
  | cons c cs ih =>
    obtain ⟨d, hd⟩ := Option.isSome_iff_exists.mp (h c List.mem_cons_self)
    rw [List.cons_append, scanDigits, hd, List.foldl_cons, hd, Option.getD_some]
    exact ih (fun c hc => h c (List.mem_cons_of_mem _ hc)) _

/-- Digits are neither spaces nor signs, and none is an `x`. -/
theorem hexValue_chars {c : UInt8} (h : (hexValue c).isSome = true) :
    isspace c = false ∧ c ≠ 43 ∧ c ≠ 45 ∧ c ≠ 88 ∧ c ≠ 120 := by
  refine ⟨decide_eq_false fun hspace => ?_, ?_, ?_, ?_, ?_⟩
  · rcases hspace with rfl | ⟨-, hle⟩
    · exact absurd h (by decide)
    · have hsmall : ∀ d : UInt8, 13 < d → ¬ d ≤ c := fun d hd hle' =>
        UInt8.not_le.mpr hd (UInt8.le_trans hle' hle)
      rw [hexValue, if_neg (fun hc => hsmall _ (by decide) hc.1),
        if_neg (fun hc => hsmall _ (by decide) hc.1),
        if_neg (fun hc => hsmall _ (by decide) hc.1)] at h
      cases h
  all_goals
    rintro rfl
    exact absurd h (by decide)

theorem scanHex_number {text : List UInt8} {v : UInt8} (h : HexNumber text v)
    {rest : List UInt8} (hrest : rest = [] ∨ ∃ s, rest = 58 :: s) :
    scanHex (text ++ rest) = some (v.toNat, rest) := by
  obtain ⟨hne, hdigits, hvalue⟩ := h
  obtain ⟨c, cs, rfl⟩ := List.exists_cons_of_ne_nil hne
  have hc := hdigits c List.mem_cons_self
  obtain ⟨hspace, hplus, hminus, -, -⟩ := hexValue_chars hc
  have hskip : (c :: cs ++ rest).dropWhile isspace = c :: cs ++ rest := by
    rw [List.cons_append, List.dropWhile_cons_of_neg (by rw [hspace]; decide)]
  have hsign : scanSign (c :: cs ++ rest) = (false, c :: cs ++ rest) :=
    scanSign_eq hplus hminus (cs ++ rest)
  -- behind the first digit there is another one, a colon, or nothing
  have hsecond : ∀ x s, cs ++ rest = x :: s → x ≠ 88 ∧ x ≠ 120 := by
    intro x s heq
    cases cs with
    | nil =>
      rcases hrest with rfl | ⟨s', rfl⟩
      · cases heq
      · cases heq
        decide
    | cons d ds =>
      obtain rfl := (List.cons.inj heq).1
      have hd := hexValue_chars (hdigits d (List.mem_cons_of_mem _ List.mem_cons_self))
      exact ⟨hd.2.2.2.1, hd.2.2.2.2⟩
  have hbase : scanBase (c :: cs ++ rest) = c :: cs ++ rest := by
    rw [List.cons_append]
    unfold scanBase
    split
    · next heq => exact absurd rfl (hsecond _ _ (List.cons.inj heq).2).1
    · next heq => exact absurd rfl (hsecond _ _ (List.cons.inj heq).2).2
    · rfl
  have hnumber := scanDigits_append hdigits 0 hrest
  have hlt := v.toNat_lt
  rw [hvalue] at hnumber
  rw [scanHex, hskip, hsign]
  simp only [hbase]
  rw [List.cons_append] at hnumber ⊢
  simp only [hc, if_true, hnumber, Bool.false_eq_true, if_false]
  rw [Nat.mod_eq_of_lt (by omega)]

/-! ## The stores -/

theorem littleEndian_byte (v : UInt8) : littleEndian 4 v.toNat = [v, 0, 0, 0] := by
  have hlt := v.toNat_lt
  have hmod : v.toNat % 256 = v.toNat := Nat.mod_eq_of_lt hlt
  have hdiv : v.toNat / 256 = 0 := Nat.div_eq_of_lt hlt
  simp only [littleEndian, hmod, hdiv, UInt8.ofNat_toNat]
  rfl

/-- A byte stored as an `int`. -/
theorem bytes_storeInt (m : EthMsg) (off : Fin 6) (v : UInt8) :
    (m.storeInt off v.toNat).bytes =
      m.bytes.take off ++ v :: 0 :: 0 :: 0 :: m.bytes.drop (off + 4) := by
  simp only [EthMsg.storeInt, writeAt, littleEndian_byte, List.length_cons, List.length_nil,
    List.append_assoc, List.cons_append, List.nil_append]

/-- **The stores** from a byte of `mac` on: the numbers, and three bytes of 0. -/
theorem bytes_scanned {s vs : List UInt8} (h : MacText s vs) {offs : List (Fin 6)} {k : Nat}
    (hoffs : offs.map Fin.val = List.range' k vs.length) (m : EthMsg) :
    (sscanfMac offs s m).bytes =
      m.bytes.take k ++ (vs ++ 0 :: 0 :: 0 :: m.bytes.drop (k + vs.length + 3)) := by
  induction h generalizing offs k m with
  | @last text v h =>
    obtain ⟨off, offs', rfl, rfl, -⟩ := List.map_eq_cons_iff.mp hoffs
    have hscan := scanHex_number h (.inl rfl)
    rw [List.append_nil] at hscan
    rw [sscanfMac, hscan]
    exact bytes_storeInt m off v
  | @more text s v vs h hrest ih =>
    obtain ⟨off, offs', rfl, rfl, hoffs'⟩ := List.map_eq_cons_iff.mp hoffs
    obtain ⟨w, ws, rfl⟩ := List.exists_cons_of_ne_nil hrest.ne_nil
    have hlen : (m.bytes.take off).length = off := by
      have hoff := off.isLt
      rw [List.length_take, m.length_eq]
      omega
    rw [sscanfMac, scanHex_number h (.inr ⟨s, rfl⟩)]
    simp only
    rw [ih hoffs', bytes_storeInt]
    generalize m.bytes.take off = before at hlen ⊢
    have htake : (before ++ v :: 0 :: 0 :: 0 :: m.bytes.drop (off + 4)).take (off + 1) =
        before ++ [v] := by
      rw [← hlen, List.take_length_add_append]
      rfl
    have hdrop : (before ++ v :: 0 :: 0 :: 0 :: m.bytes.drop (off + 4)).drop
        (off + 1 + (w :: ws).length + 3) = m.bytes.drop (off + (v :: w :: ws).length + 3) := by
      have hmore : off + 1 + (w :: ws).length + 3 = before.length + (ws.length + 1 + 4) := by
        rw [hlen, List.length_cons]
        omega
      rw [hmore, List.drop_length_add_append]
      simp only [List.drop_succ_cons, List.drop_drop, List.length_cons]
      congr 1
      omega
    rw [htake, hdrop, List.append_assoc]
    rfl

/-! ## The fields -/

/-- What is promised of `set_w5500_mac`, for an address. -/
structure SetsMac (m : EthMsg) (address : List UInt8) (r : EthMsg × List UInt8) : Prop where
  mac : r.1.mac = address
  shar : r.2 = address
  ip : r.1.ip = m.ip
  sub : r.1.sub = m.sub
  gw : r.1.gw = m.gw
  dns : r.1.dns = m.dns
  dnsSip : r.1.dnsSip = m.dnsSip

section Fields
variable {m m' : EthMsg} {mac : List UInt8} (hlen : mac.length = 6)
  (hbytes : m'.bytes = mac ++ 0 :: 0 :: 0 :: m.bytes.drop 9)
include hlen hbytes

theorem mac_scanned : m'.mac = mac := by
  rw [EthMsg.mac, EthMsg.slice, hbytes, List.drop_zero, ← hlen]
  exact List.take_left

/-- A field behind the stores. -/
theorem slice_scanned {off : Nat} (hoff : 9 ≤ off) (width : Nat) :
    m'.slice off width = m.slice off width := by
  obtain ⟨k, rfl⟩ : ∃ k, off = mac.length + (k + 3) := ⟨off - 9, by omega⟩
  rw [EthMsg.slice, EthMsg.slice, hbytes, List.drop_length_add_append]
  simp only [List.drop_succ_cons, List.drop_drop, hlen]
  congr 2
  omega

/-- The last store has gone over three bytes of `ip`. -/
theorem ip_scanned : m'.ip = m.ip ↔ m.ip.take 3 = [0, 0, 0] := by
  have hsix : m.bytes.drop 9 = (m.bytes.drop 6).drop 3 := by rw [List.drop_drop]
  have hlong : 4 ≤ (m.bytes.drop 6).length := by
    rw [List.length_drop, m.length_eq]
    decide
  have hip : m'.ip = (0 :: 0 :: 0 :: m.bytes.drop 9).take 4 := by
    rw [EthMsg.ip, EthMsg.slice, hbytes, ← hlen, List.drop_left]
  rw [hip, hsix, EthMsg.ip, EthMsg.slice]
  match hfield : m.bytes.drop 6, hlong with
  | a :: b :: c :: d :: rest, _ =>
    simp only [List.drop_succ_cons, List.drop_zero, List.take_succ_cons, List.take_zero,
      List.cons.injEq, and_true]
    constructor
    · rintro ⟨rfl, rfl, rfl⟩
      exact ⟨rfl, rfl, rfl⟩
    · rintro ⟨rfl, rfl, rfl⟩
      exact ⟨rfl, rfl, rfl⟩

end Fields

/-- **The hardware address.** `set_w5500_mac` sets the six bytes, hands them to the chip and
leaves all else as it was, if and only if the first three bytes of `ip` were 0. -/
theorem set_mac_iff {config : IboxConfig} {mac : List UInt8} (h : MacText config.ethMac mac)
    (hlen : mac.length = 6) (m : EthMsg) :
    SetsMac m mac (setW5500Mac config m) ↔ m.ip.take 3 = [0, 0, 0] := by
  have hoffs : ([0, 1, 2, 3, 4, 5] : List (Fin 6)).map (·.val) = List.range' 0 mac.length := by
    rw [hlen]
    rfl
  have hbytes := bytes_scanned h hoffs m
  rw [hlen, List.take_zero, List.nil_append] at hbytes
  unfold setW5500Mac
  dsimp only
  generalize sscanfMac [0, 1, 2, 3, 4, 5] config.ethMac m = m' at hbytes ⊢
  have hmac := mac_scanned hlen hbytes
  have hslice : ∀ off, 9 ≤ off → m'.slice off 4 = m.slice off 4 := fun off hoff =>
    slice_scanned hlen hbytes hoff 4
  rw [← ip_scanned hlen hbytes]
  constructor
  · intro hsets
    exact hsets.ip
  · intro hip
    exact ⟨hmac, hmac, hip, hslice 10 (by decide), hslice 14 (by decide), hslice 18 (by decide),
      hslice 22 (by decide)⟩

/-! The address of the initial configuration. -/

theorem initial_mac :
    MacText IboxConfig.initial.ethMac [0x00, 0x7B, 0x04, 0xAA, 0x58, 0x69] := by
  have htext : IboxConfig.initial.ethMac = ascii "00" ++ 58 :: (ascii "7B" ++ 58 :: (ascii "04" ++
      58 :: (ascii "AA" ++ 58 :: (ascii "58" ++ 58 :: ascii "69")))) := by decide +kernel
  rw [htext]
  refine .more ⟨?_, ?_, ?_⟩ (.more ⟨?_, ?_, ?_⟩ (.more ⟨?_, ?_, ?_⟩ (.more ⟨?_, ?_, ?_⟩
    (.more ⟨?_, ?_, ?_⟩ (.last ⟨?_, ?_, ?_⟩))))) <;> decide +kernel

/-- Before there is an address of the device, all is set rightly. -/
theorem set_mac_first :
    SetsMac ⟨List.replicate 26 0, rfl⟩ [0x00, 0x7B, 0x04, 0xAA, 0x58, 0x69]
      (setW5500Mac .initial ⟨List.replicate 26 0, rfl⟩) :=
  (set_mac_iff initial_mac rfl _).mpr (by decide)

/-- The address of the device, 192.168.1.5, becomes 0.0.0.5. -/
theorem set_mac_clears_ip : ∃ m : EthMsg, m.ip = [192, 168, 1, 5] ∧
    (setW5500Mac .initial m).1.ip = [0, 0, 0, 5] ∧
      ¬ SetsMac m [0x00, 0x7B, 0x04, 0xAA, 0x58, 0x69] (setW5500Mac .initial m) := by
  refine ⟨⟨List.replicate 6 0 ++ [192, 168, 1, 5] ++ List.replicate 16 0, rfl⟩, rfl, ?_, ?_⟩
  · decide +kernel
  · intro h
    have hip := h.ip
    revert hip
    decide +kernel

end IBoxClient
