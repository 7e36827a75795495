import IBoxClient.WifiTrap

/- The addresses of the WiFi module.

   The module reports its IP address and its hardware address in quotes. `sscanf` stores
   what it finds behind the first quote into `wifi_ip` or `wifi_mac`, however long it is,
   and whether there is a second quote or not; a text that is too long goes on into the
   fields behind. When it finds nothing, the field stays as it was, and the machine goes
   on all the same.

   So a reply is dealt with rightly if it has two quotes with a text in between that fits,
   or nothing is stored and the field happens to hold the text already:
   `address_reply_iff`. -/
namespace IBoxClient

open Bytes

/-- The text between the first two quotes. -/
def quotedText (line : List UInt8) : Option (List UInt8) :=
  match line.dropWhile (· ≠ 34) with
  | [] => none
  | _ :: rest => if 34 ∈ rest then some (rest.takeWhile (· ≠ 34)) else none

/-- The configuration is the same outside of a field. -/
structure OnlyField (off width : Nat) (config config' : IboxConfig) : Prop where
  before : config'.bytes.take off = config.bytes.take off
  behind : config'.bytes.drop (off + width) = config.bytes.drop (off + width)

/-- What a call makes of a line in `GET_IP`. -/
structure IpReply (i : WifiInput) (w w' : Wifi) : Prop where
  moves : w'.status = .getMac → i.has "+CIFSR:STAIP," = true ∧
    ∃ text, quotedText (cstring i.rxTemp) = some text ∧ text ≠ [] ∧ text.length ≤ 15 ∧
      text ≠ ascii "0.0.0.0" ∧ w'.config.wifiIp = text
  only : OnlyField IboxConfig.wifiIpOffset 16 w.config w'.config

/-- What a call makes of a line in `GET_MAC`. -/
structure MacReply (i : WifiInput) (w w' : Wifi) : Prop where
  moves : w'.status = .connectServer → i.has "+CIFSR:STAMAC," = true ∧
    ∃ text, quotedText (cstring i.rxTemp) = some text ∧ text.length ≤ 17 ∧
      w'.config.wifiMac = text
  only : OnlyField IboxConfig.wifiMacOffset 18 w.config w'.config

/-- A line updates the field of the address it reports, and nothing else. -/
def AddressReply (i : WifiInput) (w : Wifi) : Prop :=
  (w.status = .getIp → IpReply i w (esp8266AtFsm i w).1) ∧
    (w.status = .getMac → MacReply i w (esp8266AtFsm i w).1)

/-- The text behind the first quote ends at another one and fits, or is `0.0.0.0`; if there
is none to be stored, the field holds the quoted text already, or `0.0.0.0`. -/
def IpQuoted (i : WifiInput) (config : IboxConfig) : Prop :=
  match scanQuoted (cstring i.rxTemp) with
  | some text =>
    text = ascii "0.0.0.0" ∨ quotedText (cstring i.rxTemp) = some text ∧ text.length ≤ 15
  | none =>
    config.wifiIp = ascii "0.0.0.0" ∨
      quotedText (cstring i.rxTemp) = some config.wifiIp ∧ config.wifiIp ≠ [] ∧
        config.wifiIp.length ≤ 15

/-- The text behind the first quote ends at another one and fits; if there is none to be
stored, the field holds the quoted text already. -/
def MacQuoted (i : WifiInput) (config : IboxConfig) : Prop :=
  match scanQuoted (cstring i.rxTemp) with
  | some text => quotedText (cstring i.rxTemp) = some text ∧ text.length ≤ 17
  | none => quotedText (cstring i.rxTemp) = some config.wifiMac ∧ config.wifiMac.length ≤ 17

/-- A line that reports an address has it in quotes. -/
def AddressQuoted (i : WifiInput) (w : Wifi) : Prop :=
  (w.status = .getIp → i.has "+CIFSR:STAIP," = true → IpQuoted i w.config) ∧
    (w.status = .getMac → i.has "+CIFSR:STAMAC," = true → MacQuoted i w.config)

/-! ## The text -/

theorem scanQuoted_eq_some {line text : List UInt8} (h : scanQuoted line = some text) :
    text ≠ [] ∧ (∀ c ∈ text, c ∈ line) ∧
      ∀ quoted, quotedText line = some quoted → quoted = text := by
  unfold scanQuoted at h
  split at h
  · cases h
  · split at h
    · cases h
    · next rest hdrop =>
      split at h
      · cases h
      · next hne =>
        obtain rfl := Option.some.inj h
        refine ⟨hne, ?_, ?_⟩
        · intro c hc
          apply (List.dropWhile_suffix (fun c => decide (c ≠ 34))).subset
          rw [hdrop]
          exact List.mem_cons_of_mem _ ((List.takeWhile_prefix _).subset hc)
        · intro quoted hquoted
          rw [quotedText, hdrop] at hquoted
          dsimp only at hquoted
          split at hquoted
          · exact (Option.some.inj hquoted).symm
          · cases hquoted

theorem nul_not_mem_cstring (memory : List UInt8) : 0 ∉ cstring memory := by
  intro h
  have hne := List.mem_takeWhile_imp h
  simp at hne

/-! ## The store -/

section Store
variable {i : WifiInput} {config : IboxConfig} {off : Nat} (hoff : off ≤ iboxConfigSize)

theorem OnlyField.refl (off width : Nat) (config : IboxConfig) : OnlyField off width config config :=
  ⟨rfl, rfl⟩

theorem storeQuoted_none (h : scanQuoted (cstring i.rxTemp) = none) :
    storeQuoted i off hoff config = config := by
  rw [storeQuoted, h]

theorem storeQuoted_some {text : List UInt8} (h : scanQuoted (cstring i.rxTemp) = some text) :
    storeQuoted i off hoff config = config.writeText off text hoff := by
  rw [storeQuoted, h]

theorem nul_not_mem_scanned {text : List UInt8} (h : scanQuoted (cstring i.rxTemp) = some text) :
    0 ∉ text := by
  obtain ⟨-, hmem, -⟩ := scanQuoted_eq_some h
  exact fun hnul => nul_not_mem_cstring _ (hmem 0 hnul)

/-- A text that fits with its NUL is the field, and nothing else is changed. -/
theorem storeQuoted_fits (config : IboxConfig) {text : List UInt8}
    (h : scanQuoted (cstring i.rxTemp) = some text) {width : Nat} (hfit : text.length < width)
    (hwidth : off + width ≤ iboxConfigSize) :
    (storeQuoted i off hoff config).textAt off = text ∧
      OnlyField off width config (storeQuoted i off hoff config) := by
  rw [storeQuoted_some hoff h]
  refine ⟨?_, ?_, ?_⟩
  · exact config.textAt_writeText (nul_not_mem_scanned h) (by omega) hoff
  · exact config.take_writeText off text hoff
  · exact config.drop_writeText hoff (by omega)

/-- Only the text itself is read back as a short one. -/
theorem textAt_storeQuoted_eq {text short : List UInt8}
    (h : scanQuoted (cstring i.rxTemp) = some text) (hshort : off + short.length < iboxConfigSize) :
    (storeQuoted i off hoff config).textAt off = short ↔ text = short := by
  rw [storeQuoted_some hoff h]
  by_cases hfit : off + text.length < iboxConfigSize
  · rw [config.textAt_writeText (nul_not_mem_scanned h) hfit hoff]
  · have hcut := config.textAt_writeText_long (nul_not_mem_scanned h) (Nat.le_of_not_lt hfit) hoff
    rw [hcut]
    constructor
    · intro heq
      have hlen := congrArg List.length heq
      rw [List.length_take] at hlen
      omega
    · intro heq
      rw [heq] at hfit
      exact absurd hshort hfit

end Store

/-! ## The replies -/

section Reply
variable {i : WifiInput} {w : Wifi}

/-- Without its report a call leaves the configuration alone, and goes elsewhere. -/
theorem noReply_backTo (w : Wifi) (clock : Nat → UInt32) (seconds : UInt32)
    (status : Esp8266Status) :
    (w.noReply clock seconds (backTo status)).1.config = w.config ∧
      ((w.noReply clock seconds (backTo status)).1.status = w.status ∨
        (w.noReply clock seconds (backTo status)).1.status = status) := by
  obtain ⟨-, h⟩ | ⟨-, -, h⟩ | ⟨-, -, h⟩ := w.noReply_cases clock seconds (backTo status)
  · rw [h]
    exact ⟨rfl, .inl rfl⟩
  · rw [h]
    exact ⟨rfl, .inl rfl⟩
  · rw [h]
    exact ⟨rfl, .inr rfl⟩

theorem ipReply_idle (hstatus : w.status = .getIp) (h : i.has "+CIFSR:STAIP," = false) :
    IpReply i w (esp8266AtFsm i w).1 := by
  obtain ⟨hconfig, hnext⟩ := noReply_backTo w i.clock 3 .linkOk
  simp only [esp8266AtFsm, hstatus, h, Bool.false_eq_true, if_false]
  refine ⟨?_, ?_⟩
  · intro hmac
    rw [hmac, hstatus] at hnext
    rcases hnext with hnext | hnext
    · cases hnext
    · cases hnext
  · rw [hconfig]
    exact OnlyField.refl _ _ _

theorem macReply_idle (hstatus : w.status = .getMac) (h : i.has "+CIFSR:STAMAC," = false) :
    MacReply i w (esp8266AtFsm i w).1 := by
  simp only [esp8266AtFsm, hstatus, h, Bool.false_eq_true, if_false]
  split
  · exact ⟨by rintro ⟨⟩, OnlyField.refl _ _ _⟩
  · exact ⟨fun hmoves => absurd (hstatus.symm.trans hmoves) (by rintro ⟨⟩), OnlyField.refl _ _ _⟩

theorem ipReply_iff (hstatus : w.status = .getIp) (h : i.has "+CIFSR:STAIP," = true) :
    IpReply i w (esp8266AtFsm i w).1 ↔ IpQuoted i w.config := by
  have hoff : IboxConfig.wifiIpOffset ≤ iboxConfigSize := by decide
  simp only [esp8266AtFsm, hstatus, h, if_true]
  cases hscan : scanQuoted (cstring i.rxTemp) with
  | some text =>
    simp only [IpQuoted, hscan]
    obtain ⟨hne, -, hquoted⟩ := scanQuoted_eq_some hscan
    have hzero : (storeQuoted i IboxConfig.wifiIpOffset hoff w.config).wifiIp = ascii "0.0.0.0" ↔
        text = ascii "0.0.0.0" := textAt_storeQuoted_eq hoff hscan (by decide)
    constructor
    · intro hreply
      by_cases htext : text = ascii "0.0.0.0"
      · exact .inl htext
      · have hmoves := hreply.moves
        rw [if_neg (hzero.not.mpr htext)] at hmoves
        obtain ⟨-, quoted, heq, -, hlen, -⟩ := hmoves rfl
        obtain rfl := hquoted quoted heq
        exact .inr ⟨heq, hlen⟩
    · intro hcond
      have hlen : text.length < 16 := by
        rcases hcond with rfl | ⟨-, hlen⟩
        · decide
        · omega
      obtain ⟨hfield, honly⟩ := storeQuoted_fits hoff w.config hscan hlen (by decide)
      refine ⟨?_, honly⟩
      by_cases htext : text = ascii "0.0.0.0"
      · rw [if_pos (hzero.mpr htext)]
        rintro ⟨⟩
      · obtain ⟨heq, hle⟩ := hcond.resolve_left htext
        exact fun _ => ⟨h, text, heq, hne, hle, htext, hfield⟩
  | none =>
    simp only [IpQuoted, hscan]
    rw [storeQuoted_none hoff hscan]
    by_cases hzero : w.config.wifiIp = ascii "0.0.0.0"
    · rw [if_pos hzero]
      exact ⟨fun _ => .inl hzero, fun _ => ⟨by rintro ⟨⟩, OnlyField.refl _ _ _⟩⟩
    · rw [if_neg hzero]
      constructor
      · intro hreply
        obtain ⟨-, quoted, heq, hne, hlen, -, hfield⟩ := hreply.moves rfl
        have hfield : w.config.wifiIp = quoted := hfield
        rw [hfield]
        exact .inr ⟨heq, hne, hlen⟩
      · intro hcond
        obtain ⟨heq, hne, hlen⟩ := hcond.resolve_left hzero
        exact ⟨fun _ => ⟨h, _, heq, hne, hlen, hzero, rfl⟩, OnlyField.refl _ _ _⟩

theorem macReply_iff (hstatus : w.status = .getMac) (h : i.has "+CIFSR:STAMAC," = true) :
    MacReply i w (esp8266AtFsm i w).1 ↔ MacQuoted i w.config := by
  have hoff : IboxConfig.wifiMacOffset ≤ iboxConfigSize := by decide
  simp only [esp8266AtFsm, hstatus, h, if_true]
  cases hscan : scanQuoted (cstring i.rxTemp) with
  | some text =>
    simp only [MacQuoted, hscan]
    obtain ⟨-, -, hquoted⟩ := scanQuoted_eq_some hscan
    constructor
    · intro hreply
      obtain ⟨-, quoted, heq, hlen, -⟩ := hreply.moves rfl
      obtain rfl := hquoted quoted heq
      exact ⟨heq, hlen⟩
    · intro hcond
      obtain ⟨heq, hlen⟩ := hcond
      obtain ⟨hfield, honly⟩ := storeQuoted_fits hoff w.config hscan
        (Nat.lt_succ_of_le hlen) (by decide)
      exact ⟨fun _ => ⟨h, text, heq, hlen, hfield⟩, honly⟩
  | none =>
    simp only [MacQuoted, hscan]
    rw [storeQuoted_none hoff hscan]
    constructor
    · intro hreply
      obtain ⟨-, quoted, heq, hlen, hfield⟩ := hreply.moves rfl
      have hfield : w.config.wifiMac = quoted := hfield
      rw [hfield]
      exact ⟨heq, hlen⟩
    · intro hcond
      exact ⟨fun _ => ⟨h, _, hcond.1, hcond.2, rfl⟩, OnlyField.refl _ _ _⟩

end Reply

/-- **Addresses.** A line that is read in `GET_IP` or `GET_MAC` leads on only with an address
that is then in its field, and changes nothing else, if and only if the address it reports
is in quotes and fits; or there is nothing to be stored, and nothing needs to be. -/
theorem address_reply_iff (i : WifiInput) (w : Wifi) : AddressReply i w ↔ AddressQuoted i w := by
  unfold AddressReply AddressQuoted
  apply and_congr
  · apply imp_congr_right
    intro hstatus
    cases h : i.has "+CIFSR:STAIP," with
    | true => simp only [true_implies, ipReply_iff hstatus h]
    | false => simp only [Bool.false_eq_true, false_implies, ipReply_idle hstatus h]
  · apply imp_congr_right
    intro hstatus
    cases h : i.has "+CIFSR:STAMAC," with
    | true => simp only [true_implies, macReply_iff hstatus h]
    | false => simp only [Bool.false_eq_true, false_implies, macReply_idle hstatus h]

/-- A hardware address that is too long goes on into `wifi_ip`. -/
theorem long_mac_overwrites_ip :
    let w : Wifi := { Wifi.initial .initial with status := .getMac }
    let i := onLine "+CIFSR:STAMAC,\"5c:cf:7f:00:00:01:02\""
    w.config.wifiIp = ascii "0" ∧ (esp8266AtFsm i w).1.config.wifiIp = ascii "02" ∧
      ¬ AddressReply i w := by
  intro w i
  refine ⟨by decide +kernel, by decide +kernel, ?_⟩
  intro h
  have honly := (h.2 rfl).only.behind
  revert honly
  decide +kernel

end IBoxClient
