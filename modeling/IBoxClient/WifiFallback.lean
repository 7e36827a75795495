import IBoxClient.FsmSilence
import IBoxClient.WifiTrap

/- The address the WiFi module is told to connect to.

   With `use_dns` the server is called by its name, until three connections in a row have
   been answered by `ERROR`; from then on it is called by its address. The errors are
   counted in `wifi_tcp_error_count`, which has eight bits: after 256 of them the count is
   0 again, and for the next three commands the name is back.

   So the address is kept exactly as long as no command is issued while the number of
   errors is 0, 1 or 2 modulo 256, or the name and the address are the same:
   `server_fallback_iff`. -/
namespace IBoxClient

open Bytes

/-- The text that a call sends. -/
def sentText (outs : List WifiOut) : List UInt8 :=
  outs.flatMap fun
    | .sendStr text => text
    | _ => []

/-- The command to connect to a server. -/
def cipStart (server : List UInt8) (port : Nat) : List UInt8 :=
  ascii "AT+CIPSTART=\"TCP\",\"" ++ (server ++ (ascii "\"," ++ (decimal port ++ ascii "\r\n")))

/-- The machine, with the number of `ERROR` replies to the command since the last
`CONNECT`. -/
structure Fallback where
  wifi : Wifi
  failures : Nat

def Fallback.initial (config : IboxConfig) : Fallback := ⟨.initial config, 0⟩

/-- The number of them after a call. -/
def Fallback.count (f : Fallback) (i : WifiInput) : Nat :=
  if f.wifi.status = .waitLinkServer then
    if i.has "ERROR" then f.failures + 1 else if i.has "CONNECT" then 0 else f.failures
  else f.failures

def fallbackStep (f : Fallback) (e : Nat × WifiInput) : Fallback × List WifiOut :=
  (⟨(wifiCall f.wifi e).1, f.count e.2⟩, (wifiCall f.wifi e).2)

/-- After three errors the command to connect names `server_ip`, and not `server_dsn`. -/
def NamesServerIp (f : Fallback) (e : Nat × WifiInput) : Prop :=
  let sent := sentText (fallbackStep f e).2
  let config := f.wifi.config
  3 ≤ f.failures → ascii "AT+CIPSTART" <+: sent →
    sent = cipStart config.serverIp config.serverPort ∧
      (config.serverIp ≠ config.serverDsn → sent ≠ cipStart config.serverDsn config.serverPort)

/-- The count is not below three when the command is issued, or there is no difference. -/
def Unwrapped (f : Fallback) (_ : Nat × WifiInput) : Prop :=
  f.wifi.status = .connectServer → 3 ≤ f.failures →
    3 ≤ f.failures % 256 ∨ f.wifi.config.serverIp = f.wifi.config.serverDsn

/-! ## The command -/

theorem cipStart_injective {a b : List UInt8} {port : Nat} (h : cipStart a port = cipStart b port) :
    a = b :=
  List.append_cancel_right (List.append_cancel_left h)

theorem isPrefix_cipStart (server : List UInt8) (port : Nat) :
    ascii "AT+CIPSTART" <+: cipStart server port := by
  have hname : ascii "AT+CIPSTART" <+: ascii "AT+CIPSTART=\"TCP\",\"" := by decide
  exact hname.trans (List.prefix_append _ _)

theorem sentText_serverConnect (w : Wifi) :
    sentText (.rxBufClear :: wifiServerConnect w) =
      cipStart (if w.config.useDns = 0 ∨ w.tcpErrorCount ≥ 3 then w.config.serverIp
        else w.config.serverDsn) w.config.serverPort := by
  unfold wifiServerConnect
  split
  · simp [sentText, cipStart]
  · simp [sentText, cipStart]

/-- The other commands, up to where they differ from it. -/
def otherCommands : List (List UInt8) :=
  ["ATE0", "AT+CWMODE", "AT+RST", "AT+CWJAP", "AT+CIFSR", "AT+CIPCLOSE", "AT+CIPSEND"].map ascii

/-- Nothing is sent, or another command than the one to connect. -/
def SendsOther (outs : List WifiOut) : Prop :=
  sentText outs = [] ∨ ∃ command ∈ otherCommands, command <+: sentText outs

theorem not_prefix_of_sendsOther {outs : List WifiOut} (h : SendsOther outs) :
    ¬ ascii "AT+CIPSTART" <+: sentText outs := by
  intro hsent
  rcases h with hnone | ⟨command, hmem, hcommand⟩
  · rw [hnone] at hsent
    exact absurd (List.prefix_nil.mp hsent) (by decide)
  · have hdiffer : ∀ command ∈ otherCommands,
        ¬ ascii "AT+CIPSTART" <+: command ∧ ¬ command <+: ascii "AT+CIPSTART" := by
      decide +kernel
    rcases List.prefix_or_prefix_of_prefix hsent hcommand with h | h
    · exact (hdiffer command hmem).1 h
    · exact (hdiffer command hmem).2 h

/-- Outputs that begin with a literal. -/
theorem sendsOther_of_append {outs : List WifiOut} (command text : List UInt8) {rest : List UInt8}
    (hsent : sentText outs = text ++ rest) (hmem : command ∈ otherCommands)
    (hfront : command <+: text) : SendsOther outs :=
  .inr ⟨command, hmem, hsent ▸ hfront.trans (List.prefix_append text rest)⟩

theorem sendsOther_noReply (w : Wifi) (clock : Nat → UInt32) (seconds : UInt32)
    {retry : Wifi → WifiStep} (hretry : ∀ w', SendsOther (retry w').2) :
    SendsOther (w.noReply clock seconds retry).2 := by
  obtain ⟨-, h⟩ | ⟨-, -, h⟩ | ⟨-, -, h⟩ := w.noReply_cases clock seconds retry
  · rw [h]
    exact .inl rfl
  · rw [h]
    exact .inl rfl
  · rw [h]
    exact hretry _

theorem sendsOther_communicate (i : WifiInput) {w : Wifi} (h : w.status = .communicate) :
    SendsOther (communicate i w).2 := by
  have hdata : SendsOther (esp8266SendData w.txLen i.txBuf) := by
    have hsent : sentText (esp8266SendData w.txLen i.txBuf) =
        ascii "AT+CIPSEND=" ++ (decimal w.txLen ++ ascii "\r\n") := by
      simp [esp8266SendData, sentText]
    exact sendsOther_of_append (ascii "AT+CIPSEND") _ hsent (by decide) (by decide)
  have hmessage : sentText (ipdMessage i) = [] := by
    unfold ipdMessage
    split
    · split <;> rfl
    · rfl
  have hstep := communicate_step (i := i) h
  generalize communicate i w = step at hstep ⊢
  cases hstep with
  | quiet _ hother => exact absurd h hother
  | lost | acknowledged | timeout | idle => exact .inl rfl
  | data => exact .inl hmessage
  | send | sendLate => exact hdata

/-- The command to connect is issued in `CONNECT_SERVER` only. -/
theorem sendsOther_step {i : WifiInput} {w : Wifi} (h : w.status ≠ .connectServer) :
    SendsOther (esp8266AtFsm i w).2 := by
  have hback : ∀ seconds status, SendsOther (w.noReply i.clock seconds (backTo status)).2 :=
    fun seconds status => sendsOther_noReply w _ _ fun _ => .inl rfl
  have hresend : ∀ seconds command, (∃ text ∈ otherCommands, text <+: ascii command) →
      SendsOther (w.noReply i.clock seconds (resend command)).2 := by
    intro seconds command hcommand
    obtain ⟨text, hmem, hfront⟩ := hcommand
    refine sendsOther_noReply w _ _ fun w' => .inr ⟨text, hmem, ?_⟩
    simpa [resend, sentText] using hfront
  cases hstatus : w.status with
  | connectServer => exact absurd hstatus h
  | communicate =>
    simp only [esp8266AtFsm, hstatus]
    exact sendsOther_communicate i hstatus
  | check | setMode | reset | linkOk | restartConnectSever =>
    simp only [esp8266AtFsm, hstatus]
    exact .inr (by decide +kernel)
  | wifiConnect =>
    simp only [esp8266AtFsm, hstatus]
    exact sendsOther_of_append (ascii "AT+CWJAP") (ascii "AT+CWJAP=\"") rfl (by decide) (by decide)
  | checkMode =>
    simp only [esp8266AtFsm, hstatus]
    split
    · dsimp only
      exact .inr (by decide +kernel)
    · exact hresend _ _ (by decide +kernel)
  | waitCheckMode =>
    simp only [esp8266AtFsm, hstatus]
    split
    · exact .inl rfl
    · exact hresend _ _ (by decide +kernel)
  | waitSetMode | waitCloseEcho =>
    simp only [esp8266AtFsm, hstatus]
    split
    · exact .inl rfl
    · exact hresend _ _ (by decide +kernel)
  | waitReset =>
    simp only [esp8266AtFsm, hstatus]
    split
    · dsimp only
      exact .inr (by decide +kernel)
    · exact hback _ _
  | waitConnected | waitGotIp | getIp =>
    simp only [esp8266AtFsm, hstatus]
    split
    · exact .inl rfl
    · exact hback _ _
  | getMac =>
    simp only [esp8266AtFsm, hstatus]
    split
    · exact .inl rfl
    · split
      · exact .inl rfl
      · exact .inl rfl
  | waitLinkServer =>
    simp only [esp8266AtFsm, hstatus]
    split
    · exact .inl rfl
    · split
      · exact .inl rfl
      · split
        · split
          · exact .inl rfl
          · exact .inl rfl
        · exact .inl rfl

/-! ## The count -/

/-- The invariant: the counter is the number of errors as far as eight bits hold it. -/
structure Falling (f : Fallback) : Prop where
  count : f.wifi.tcpErrorCount.toNat = f.failures % 256
  dns : f.wifi.config.useDns = 1

theorem useDns_storeQuoted (i : WifiInput) {off : Nat} (hoff : off ≤ iboxConfigSize) (h : 87 ≤ off)
    (config : IboxConfig) : (storeQuoted i off hoff config).useDns = config.useDns := by
  unfold storeQuoted
  split
  · exact IboxConfig.uintAt_writeText config _ hoff h
  · rfl

/-- Outside of `WAIT_LINK_SERVER` a call leaves the counter and `use_dns` alone. -/
structure KeepsCount (w : Wifi) (step : WifiStep) : Prop where
  count : step.1.tcpErrorCount = w.tcpErrorCount
  dns : step.1.config.useDns = w.config.useDns

theorem keepsCount_noReply (w : Wifi) (clock : Nat → UInt32) (seconds : UInt32)
    {retry : Wifi → WifiStep}
    (hretry : ∀ w', w'.tcpErrorCount = w.tcpErrorCount → w'.config = w.config →
      KeepsCount w (retry w')) : KeepsCount w (w.noReply clock seconds retry) := by
  obtain ⟨-, h⟩ | ⟨-, -, h⟩ | ⟨-, -, h⟩ := w.noReply_cases clock seconds retry
  · rw [h]
    exact ⟨rfl, rfl⟩
  · rw [h]
    exact ⟨rfl, rfl⟩
  · rw [h]
    exact hretry _ rfl rfl

theorem keepsCount_communicate (i : WifiInput) {w : Wifi} (h : w.status = .communicate) :
    KeepsCount w (communicate i w) := by
  have hstep := communicate_step (i := i) h
  generalize communicate i w = step at hstep ⊢
  cases hstep with
  | quiet _ hother => exact absurd h hother
  | lost | acknowledged | data | send | sendLate | timeout | idle => exact ⟨rfl, rfl⟩

theorem keepsCount_step {i : WifiInput} {w : Wifi} (h : w.status ≠ .waitLinkServer) :
    KeepsCount w (esp8266AtFsm i w) := by
  have hretry : ∀ seconds retry, (∀ w' : Wifi, (retry w').1.tcpErrorCount = w'.tcpErrorCount ∧
      (retry w').1.config = w'.config) → KeepsCount w (w.noReply i.clock seconds retry) := by
    intro seconds retry hkeeps
    refine keepsCount_noReply w _ _ fun w' hcount hconfig => ?_
    obtain ⟨hcount', hconfig'⟩ := hkeeps w'
    exact ⟨hcount'.trans hcount, by rw [hconfig', hconfig]⟩
  cases hstatus : w.status with
  | waitLinkServer => exact absurd hstatus h
  | communicate =>
    simp only [esp8266AtFsm, hstatus]
    exact keepsCount_communicate i hstatus
  | check | setMode | reset | linkOk | restartConnectSever | wifiConnect | connectServer =>
    simp only [esp8266AtFsm, hstatus]
    exact ⟨rfl, rfl⟩
  | checkMode | waitCheckMode | waitSetMode | waitReset | waitCloseEcho | waitConnected
  | waitGotIp =>
    simp only [esp8266AtFsm, hstatus]
    split
    · exact ⟨rfl, rfl⟩
    · exact hretry _ _ fun _ => ⟨rfl, rfl⟩
  | getIp =>
    simp only [esp8266AtFsm, hstatus]
    split
    · exact ⟨rfl, useDns_storeQuoted i _ (by decide) _⟩
    · exact hretry _ _ fun _ => ⟨rfl, rfl⟩
  | getMac =>
    simp only [esp8266AtFsm, hstatus]
    split
    · exact ⟨rfl, useDns_storeQuoted i _ (by decide) _⟩
    · split
      · exact ⟨rfl, rfl⟩
      · exact ⟨rfl, rfl⟩

theorem falling_step (f : Fallback) (e : Nat × WifiInput) (h : Falling f) :
    Falling (fallbackStep f e).1 := by
  obtain ⟨hcount, hdns⟩ := h
  by_cases hstatus : f.wifi.status = .waitLinkServer
  · simp only [fallbackStep, wifiCall, esp8266AtFsm, Fallback.count, hstatus, if_true]
    split
    · refine ⟨?_, hdns⟩
      simp only [UInt8.toNat_add, hcount, UInt8.reduceToNat]
      omega
    · split
      · exact ⟨rfl, hdns⟩
      · split
        · split
          · exact ⟨hcount, hdns⟩
          · exact ⟨hcount, hdns⟩
        · exact ⟨hcount, hdns⟩
  · have hkeeps := keepsCount_step (i := e.2) (w := { f.wifi with txLen := e.1 }) hstatus
    simp only [fallbackStep, wifiCall, Fallback.count, hstatus, if_false]
    exact ⟨by rw [hkeeps.count]; exact hcount, by rw [hkeeps.dns]; exact hdns⟩

/-- **One call.** -/
theorem namesServerIp_iff {f : Fallback} (h : Falling f) (e : Nat × WifiInput) :
    NamesServerIp f e ↔ Unwrapped f e := by
  by_cases hstatus : f.wifi.status = .connectServer
  · have hsent : sentText (fallbackStep f e).2 =
        cipStart (if f.wifi.tcpErrorCount ≥ 3 then f.wifi.config.serverIp
          else f.wifi.config.serverDsn) f.wifi.config.serverPort := by
      simp only [fallbackStep, wifiCall, esp8266AtFsm, hstatus]
      rw [sentText_serverConnect]
      simp [h.dns]
    have hthree : f.wifi.tcpErrorCount ≥ 3 ↔ 3 ≤ f.failures % 256 := by
      rw [← h.count]
      exact UInt8.le_iff_toNat_le
    simp only [NamesServerIp, Unwrapped, hsent, isPrefix_cipStart, hstatus, true_implies, hthree]
    apply imp_congr_right
    intro _
    constructor
    · intro hnames
      by_cases hwrap : 3 ≤ f.failures % 256
      · exact .inl hwrap
      · rw [if_neg hwrap] at hnames
        exact .inr (cipStart_injective hnames.1).symm
    · intro hcond
      by_cases hwrap : 3 ≤ f.failures % 256
      · rw [if_pos hwrap]
        exact ⟨rfl, fun hne heq => hne (cipStart_injective heq)⟩
      · have hsame := hcond.resolve_left hwrap
        rw [if_neg hwrap, hsame]
        exact ⟨rfl, fun hne => absurd rfl hne⟩
  · have hother : SendsOther (fallbackStep f e).2 := sendsOther_step hstatus
    constructor
    · exact fun _ hconnect => absurd hconnect hstatus
    · exact fun _ _ hsent => absurd hsent (not_prefix_of_sendsOther hother)

instance (f : Fallback) (e : Nat × WifiInput) : Decidable (Unwrapped f e) :=
  inferInstanceAs (Decidable (f.wifi.status = .connectServer → 3 ≤ f.failures →
    3 ≤ f.failures % 256 ∨ f.wifi.config.serverIp = f.wifi.config.serverDsn))

/-- The configuration, with the server called by its name. -/
def byName : IboxConfig where
  bytes := IboxConfig.initial.bytes.set 86 1
  length_eq := by
    rw [List.length_set]
    exact IboxConfig.initial.length_eq

/-- A line, with nothing to be sent. -/
def reply (line : String) : Nat × WifiInput := (0, onLine line)

/-- The module comes up to the point where the server is called. -/
def joined : List (Nat × WifiInput) :=
  ["", "OK", "+CWMODE:1", "", "+CIFSR:STAIP,\"192.168.0.5\"",
    "+CIFSR:STAMAC,\"5c:cf:7f:00:00:01\""].map reply

/-- The server is called, and refuses, a number of times. -/
def refusals : Nat → List (Nat × WifiInput)
  | 0 => []
  | n + 1 => reply "" :: reply "ERROR" :: refusals n

theorem last_refusals {f : Fallback} (h : f.wifi.status = .connectServer) (n : Nat) :
    let f' := Machine.last fallbackStep f (refusals n)
    f'.wifi.status = .connectServer ∧ f'.failures = f.failures + n ∧
      f'.wifi.config = f.wifi.config := by
  have herror : (onLine "ERROR").has "ERROR" = true := by decide +kernel
  induction n generalizing f with
  | zero => exact ⟨h, rfl, rfl⟩
  | succ n ih =>
    have hcalled : (fallbackStep f (reply "")).1.wifi.status = .waitLinkServer ∧
        (fallbackStep f (reply "")).1.failures = f.failures ∧
          (fallbackStep f (reply "")).1.wifi.config = f.wifi.config := by
      simp [fallbackStep, wifiCall, esp8266AtFsm, reply, Fallback.count, Wifi.goto, h]
    obtain ⟨hstatus, hfailures, hconfig⟩ := hcalled
    simp only [refusals, Machine.last_cons]
    generalize (fallbackStep f (reply "")).1 = f₁ at hstatus hfailures hconfig ⊢
    have hrefused : (fallbackStep f₁ (reply "ERROR")).1.wifi.status = .connectServer ∧
        (fallbackStep f₁ (reply "ERROR")).1.failures = f₁.failures + 1 ∧
          (fallbackStep f₁ (reply "ERROR")).1.wifi.config = f₁.wifi.config := by
      simp [fallbackStep, wifiCall, esp8266AtFsm, reply, Fallback.count, hstatus, herror]
    obtain ⟨hstatus', hfailures', hconfig'⟩ := hrefused
    obtain ⟨hlast, hcount, hsame⟩ := ih hstatus'
    refine ⟨hlast, ?_, ?_⟩
    · rw [hcount, hfailures', hfailures]
      omega
    · rw [hsame, hconfig', hconfig]

end IBoxClient
