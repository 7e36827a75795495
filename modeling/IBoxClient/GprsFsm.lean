import IBoxClient.WifiFsm

/- The state machine of the GPRS module (`ibox_gprs.c`), which takes the place of the one
   of the WiFi module in a build without `USE_WIFI`.

   `gprsAtFsm` is one call of `gprs_at_fsm` on the line that has been read from USART3; it
   finds and does the same kinds of things as `esp8266AtFsm`. Eight states wait for a reply
   in the same way (`Gprs.noReply`). The others that wait take their timeouts from
   `RT_TICK_PER_SECOND`, but compare them with a difference of seconds. -/
namespace IBoxClient

open Bytes

/-- `RT_TICK_PER_SECOND`. -/
abbrev rtTickPerSecond : UInt32 := 100

inductive GprsStatus where
  | check
  | init
  | setMisc
  | checkCsq
  | checkReg
  | checkCgatt
  | setApn
  | setCiicr
  | getIp
  | restartTcp
  | startTcp
  | tcpConnect
  | communicate
  | rxProc
  | frameProc
  deriving DecidableEq

/-- The variables of `ibox_gprs.c`, and the configuration it reads. -/
structure Gprs where
  status : GprsStatus
  statusErrorCount : UInt8
  linkErrorCount : UInt8
  timeout : UInt32
  tcpErrorCount : UInt32
  sendFlag : Bool
  sendTimeoutFlag : Bool
  txCounter : Nat
  rxCounter : Nat
  config : IboxConfig

def Gprs.initial (config : IboxConfig) : Gprs := ⟨.init, 0, 0, 0, 0, false, false, 0, 0, config⟩

/-- What a call finds: here the line is in `gprs_rx_temp`. -/
abbrev GprsInput := WifiInput

abbrev GprsStep := Gprs × List WifiOut

namespace Gprs

/-- A reply has come: the next command is sent. -/
def goto (g : Gprs) (now : UInt32) (status : GprsStatus) : Gprs :=
  { g with statusErrorCount := 0, timeout := now, status := status }

/-- The reply has not come: after more than two seconds an error is counted, and the
command is sent once more; the sixth is counted as an error of the link instead. -/
def noReply (g : Gprs) (clock : Nat → UInt32) (command : List UInt8) : GprsStep :=
  if clock 0 - g.timeout > 2 then
    let g : Gprs := { g with timeout := clock 1, statusErrorCount := g.statusErrorCount + 1 }
    if g.statusErrorCount > 5 then
      ({ g with linkErrorCount := g.linkErrorCount + 1, statusErrorCount := 0 }, [])
    else (g, [.sendStr command])
  else (g, [])

/-- `AT+CSTT` with the name of the access point. -/
def apnCommand (g : Gprs) : List UInt8 := ascii "AT+CSTT=\"" ++ g.config.gsmApn ++ ascii "\"\r\n"

end Gprs

/-- `gprs_server_connect`. -/
def gprsServerConnect (g : Gprs) : List WifiOut :=
  [.sendStr (ascii "AT+CIPSTART=\"TCP\",\"")] ++
    (if g.config.useDns = 0 ∨ g.tcpErrorCount ≥ 3 then
      [.sendStr g.config.serverIp, .sendStr (ascii "\",\"")]
    else [.sendStr g.config.serverDsn, .sendStr (ascii "\",\"")]) ++
    [.sendStr (decimal g.config.serverPort), .sendStr (ascii "\"\r\n")]

/-- `gprs_send_data`. -/
def gprsSendData (txCounter : Nat) (txBuf : List UInt8) : List WifiOut :=
  [.sendStr (ascii "AT+CIPSEND=" ++ decimal txCounter ++ ascii "\r\n"), .delayMs 50,
    .sendData (txBuf.take txCounter)]

/-- `gprs_sq` from the two characters after `+CSQ: `, modulo the size of a `uint16_t`. -/
def gprsSq (tens ones : UInt8) : Nat :=
  if ones ≠ 44 then ((tens.toNat + 65488) * 10 + (ones.toNat + 65488)) % 65536
  else (tens.toNat + 65488) % 65536

/-- The loop that reads the length after `+CIPRXGET: 3,`, modulo the size of a `uint16_t`.
There is nothing if it finds no comma. -/
def rxLength : Nat → List UInt8 → Option Nat
  | _, [] => none
  | len, c :: cs =>
    if c = 44 then some len else rxLength ((len * 10 + c.toNat + 65488) % 65536) cs

/-- The state `COMMUNICATE`. -/
def gprsCommunicate (i : GprsInput) (g : Gprs) : GprsStep :=
  if i.has "CLOSED" then ({ g with status := .restartTcp }, [])
  else if i.has "+PDP DEACT" then ({ g with timeout := i.clock 0, status := .init }, [])
  else if i.has "+CIPRXGET: 1" then
    ({ g with tcpErrorCount := 0, status := .rxProc, timeout := i.clock 0 },
      [.sendStr (ascii "AT+CIPRXGET=2,1460\r\n")])
  else if i.has "SEND OK" then
    -- the event that should follow is commented out
    ({ g with sendFlag := true, sendTimeoutFlag := false, txCounter := 0 }, [])
  else if i.has "SEND FAIL" then
    ({ g with timeout := i.clock 0, status := .init, sendFlag := true, sendTimeoutFlag := false },
      [])
  else if i.has "ERROR" then ({ g with status := .restartTcp }, [])
  else if g.txCounter ≠ 0 ∧ g.sendFlag then
    ({ g with timeout := i.clock 0, sendFlag := false, sendTimeoutFlag := true },
      gprsSendData g.txCounter i.txBuf)
  else if i.clock 0 - g.timeout > rtTickPerSecond * 10 ∧ g.sendTimeoutFlag then
    ({ g with status := .restartTcp }, [])
  else (g, [])

/-- The state `TCP_CONNECT`: the time is also tested in a call that finds a reply. -/
def gprsTcpConnect (i : GprsInput) (g : Gprs) : Gprs :=
  let replied : Gprs × Nat :=
    if i.has "CONNECT OK" then
      ({ g with timeout := i.clock 0, status := .communicate, sendFlag := true }, 1)
    else if i.has "ALREADY CONNECT" ∨ i.has "CONNECT FAIL" then
      ({ g with timeout := i.clock 0, tcpErrorCount := g.tcpErrorCount + 1, status := .init }, 1)
    else (g, 0)
  if i.clock replied.2 - replied.1.timeout > rtTickPerSecond * 10 then
    { replied.1 with tcpErrorCount := replied.1.tcpErrorCount + 1, status := .init }
  else replied.1

/-- `gprs_at_fsm` on a line. -/
def gprsAtFsm (i : GprsInput) (g : Gprs) : GprsStep :=
  let now := i.clock 0
  match g.status with
  | .check => (g.goto now .init, [.rxBufClear, .sendStr (ascii "AT\r\n")])
  | .init =>
    if i.has "OK" then (g.goto now .setMisc, [.sendStr (ascii "AT+CPIN?\r\n")])
    else g.noReply i.clock (ascii "AT\r\n")
  | .setMisc =>
    if i.has "READY" then
      (g.goto now .checkCsq,
        [.sendStr (ascii "AT+CIPSHUT\r\n"), .delayMs 1000, .sendStr (ascii "AT+CIPRXGET=1\r\n"),
          .delayMs 200, .sendStr (ascii "AT+CIPSPRT=0\r\n"), .delayMs 200, .rxBufClear,
          .sendStr (ascii "AT+CSQ\r\n")])
    else g.noReply i.clock (ascii "AT+CPIN?\r\n")
  | .checkCsq =>
    match i.find "+CSQ:" with
    | some at_ =>
      let sq := gprsSq (i.rxTemp.getD (at_ + 6) 0) (i.rxTemp.getD (at_ + 7) 0)
      if 10 ≤ sq ∧ sq ≤ 31 then (g.goto now .checkReg, [.sendStr (ascii "AT+CREG?\r\n")])
      else (g, [])
    | none => g.noReply i.clock (ascii "AT+CSQ\r\n")
  | .checkReg =>
    match i.find "+CREG:" with
    | some at_ =>
      let registered := i.rxTemp.getD (at_ + 9) 0
      if registered = 49 ∨ registered = 53 then
        (g.goto now .checkCgatt, [.rxBufClear, .sendStr (ascii "AT+CGATT?\r\n")])
      else (g, [])
    | none => g.noReply i.clock (ascii "AT+CREG?\r\n")
  | .checkCgatt =>
    if i.has "+CGATT: 1" then (g.goto now .setApn, [.sendStr g.apnCommand])
    else g.noReply i.clock (ascii "AT+CGATT?\r\n")
  | .setApn =>
    if i.has "OK" then (g.goto now .setCiicr, [.sendStr (ascii "AT+CIICR\r\n")])
    else if i.has "ERROR" then (g.goto now .check, [])
    else g.noReply i.clock g.apnCommand
  | .setCiicr =>
    if i.has "OK" then (g.goto now .getIp, [.sendStr (ascii "AT+CIFSR\r\n")])
    else if i.has "ERROR" then ({ g with timeout := now, status := .check }, [])
    else g.noReply i.clock (ascii "AT+CIICR\r\n")
  | .getIp =>
    if i.has "." then ({ g with status := .startTcp }, [])
    else if i.has "ERROR" then ({ g with status := .init }, [])
    else g.noReply i.clock (ascii "AT+CIFSR\r\n")
  | .startTcp =>
    ({ g with timeout := now, status := .tcpConnect }, .rxBufClear :: gprsServerConnect g)
  | .restartTcp =>
    ({ g with
        tcpErrorCount := g.tcpErrorCount + 1
        status := .startTcp
        txCounter := 0
        sendFlag := false
        sendTimeoutFlag := false },
      [.sendStr (ascii "AT+CIPCLOSE\r\n"), .delayMs 1000, .rxBufClear])
  | .tcpConnect => (gprsTcpConnect i g, [])
  | .communicate => gprsCommunicate i g
  | .rxProc =>
    match i.find "+CIPRXGET: 3" with
    | some at_ =>
      match rxLength 0 (i.rxTemp.drop (at_ + 13)) with
      | some len =>
        ({ g with
          rxCounter := len
          status := if len ≠ 0 then .frameProc else .restartTcp
          timeout := now }, [])
      | none => (g, [])
    | none =>
      if now - g.timeout > rtTickPerSecond * 10 then ({ g with status := .restartTcp }, [])
      else (g, [])
  | .frameProc =>
    if i.line ≠ [] then
      if i.line.length ≠ 2 * g.rxCounter then ({ g with status := .communicate }, [])
      else
        -- the digits are handed over as they are, their decoding is commented out
        ({ g with status := .communicate },
          [.netRxWrite g.rxCounter (i.rxTemp.take g.rxCounter)])
    else if now - g.timeout > rtTickPerSecond * 2 then ({ g with status := .communicate }, [])
    else (g, [])

/-- A call, as a step of the machine. -/
abbrev gprsStep (g : Gprs) (i : GprsInput) : GprsStep := gprsAtFsm i g

/-! ## What a call does -/

/-- A call hands data over only in `FRAME_PROC`, which it is led to from `RX_PROC` by the
answer with mode 3, and sends data, and waits for a report of that, only when
`gprs_tx_counter` is set; it never sets it. -/
structure GprsCan (i : GprsInput) (g : Gprs) (step : GprsStep) : Prop where
  counter : step.1.txCounter = g.txCounter ∨ step.1.txCounter = 0
  unanswered : step.1.sendTimeoutFlag = true → g.sendTimeoutFlag = true ∨ g.txCounter ≠ 0
  frame : step.1.status = .frameProc →
    g.status = .frameProc ∨ g.status = .rxProc ∧ i.has "+CIPRXGET: 3" = true
  outs : ∀ out ∈ step.2, out.plain = true ∨ (∃ data, out = .sendData data) ∧ g.txCounter ≠ 0 ∨
    (∃ len data, out = .netRxWrite len data) ∧ g.status = .frameProc ∧ i.line ≠ []

section Can
variable {i : GprsInput} {g g' : Gprs} {outs : List WifiOut}

/-- A change of state with plain outputs, not into `FRAME_PROC`. -/
theorem can_plain (hcounter : g'.txCounter = g.txCounter ∨ g'.txCounter = 0)
    (hflag : g'.sendTimeoutFlag = true → g.sendTimeoutFlag = true) (hframe : g'.status ≠ .frameProc)
    (hplain : ∀ out ∈ outs, out.plain = true) :
    GprsCan i g (g', outs) :=
  ⟨hcounter, fun h => .inl (hflag h), fun h => absurd h hframe, fun out hout => .inl (hplain out hout)⟩

theorem plain_nil : ∀ out ∈ ([] : List WifiOut), out.plain = true :=
  fun _ h => absurd h List.not_mem_nil

theorem can_noReply (command : List UInt8) (h : g.status ≠ .frameProc) :
    GprsCan i g (g.noReply i.clock command) := by
  unfold Gprs.noReply
  split
  · dsimp only
    split
    · exact can_plain (.inl rfl) id h plain_nil
    · exact can_plain (.inl rfl) id h (fun out hout => by rw [List.mem_singleton.mp hout]; rfl)
  · exact can_plain (.inl rfl) id h plain_nil

theorem plain_gprsServerConnect (g : Gprs) : ∀ out ∈ gprsServerConnect g, out.plain = true := by
  intro out hout
  unfold gprsServerConnect at hout
  split at hout <;> simp at hout <;> rcases hout with rfl | rfl | rfl | rfl | rfl <;> rfl

theorem can_communicate (h : g.status = .communicate) : GprsCan i g (gprsCommunicate i g) := by
  have hframe : g.status ≠ .frameProc := by rw [h]; rintro ⟨⟩
  unfold gprsCommunicate
  split
  · exact can_plain (.inl rfl) id (by rintro ⟨⟩) plain_nil
  split
  · exact can_plain (.inl rfl) id (by rintro ⟨⟩) plain_nil
  split
  · exact can_plain (.inl rfl) id (by rintro ⟨⟩) (by simp [WifiOut.plain])
  split
  · exact can_plain (.inr rfl) (by rintro ⟨⟩) hframe plain_nil
  split
  · exact can_plain (.inl rfl) (by rintro ⟨⟩) (by rintro ⟨⟩) plain_nil
  split
  · exact can_plain (.inl rfl) id (by rintro ⟨⟩) plain_nil
  split
  · next hsend =>
    refine ⟨.inl rfl, fun _ => .inr hsend.1, fun h => absurd h hframe, ?_⟩
    intro out hout
    simp only [gprsSendData, List.mem_cons, List.not_mem_nil, or_false] at hout
    rcases hout with rfl | rfl | rfl
    · exact .inl rfl
    · exact .inl rfl
    · exact .inr (.inl ⟨⟨_, rfl⟩, hsend.1⟩)
  split
  · exact can_plain (.inl rfl) id (by rintro ⟨⟩) plain_nil
  · exact can_plain (.inl rfl) id hframe plain_nil

theorem can_tcpConnect (h : g.status = .tcpConnect) : GprsCan i g (gprsTcpConnect i g, []) := by
  have hframe : g.status ≠ .frameProc := by rw [h]; nofun
  unfold gprsTcpConnect
  split
  · dsimp only
    split
    · exact can_plain (.inl rfl) id nofun plain_nil
    · exact can_plain (.inl rfl) id nofun plain_nil
  split
  · dsimp only
    split
    · exact can_plain (.inl rfl) id nofun plain_nil
    · exact can_plain (.inl rfl) id nofun plain_nil
  · dsimp only
    split
    · exact can_plain (.inl rfl) id nofun plain_nil
    · exact can_plain (.inl rfl) id hframe plain_nil

theorem can_rxProc (h : g.status = .rxProc) : GprsCan i g (gprsAtFsm i g) := by
  have hframe : g.status ≠ .frameProc := by rw [h]; rintro ⟨⟩
  simp only [gprsAtFsm, h]
  split
  · next at_ hfind =>
    have hhas : i.has "+CIPRXGET: 3" = true := by rw [WifiInput.has, hfind]; rfl
    split
    · exact ⟨.inl rfl, .inl, fun _ => .inr ⟨h, hhas⟩, fun out hout => .inl (plain_nil out hout)⟩
    · exact can_plain (.inl rfl) id hframe plain_nil
  · split
    · exact can_plain (.inl rfl) id (by rintro ⟨⟩) plain_nil
    · exact can_plain (.inl rfl) id hframe plain_nil

theorem can_frameProc (h : g.status = .frameProc) : GprsCan i g (gprsAtFsm i g) := by
  simp only [gprsAtFsm, h]
  split
  · next hline =>
    split
    · exact can_plain (.inl rfl) id nofun plain_nil
    · refine ⟨.inl rfl, .inl, nofun, ?_⟩
      intro out hout
      exact .inr (.inr ⟨⟨_, _, List.mem_singleton.mp hout⟩, h, hline⟩)
  · split
    · exact can_plain (.inl rfl) id nofun plain_nil
    · exact ⟨.inl rfl, .inl, fun _ => .inl h, fun out hout => .inl (plain_nil out hout)⟩

/-- **One call** of `gprs_at_fsm`. -/
theorem gprs_can (i : GprsInput) (g : Gprs) : GprsCan i g (gprsAtFsm i g) := by
  by_cases h : g.status = .frameProc
  · exact can_frameProc h
  have hno : ∀ command, GprsCan i g (g.noReply i.clock command) := fun command =>
    can_noReply command h
  cases hstatus : g.status with
  | frameProc => exact absurd hstatus h
  | rxProc => exact can_rxProc hstatus
  | communicate =>
    simp only [gprsAtFsm, hstatus]
    exact can_communicate hstatus
  | tcpConnect =>
    simp only [gprsAtFsm, hstatus]
    exact can_tcpConnect hstatus
  | check =>
    simp only [gprsAtFsm, hstatus]
    exact can_plain (.inl rfl) id (by rintro ⟨⟩) (by simp [WifiOut.plain])
  | restartTcp =>
    simp only [gprsAtFsm, hstatus]
    exact can_plain (.inr rfl) (by rintro ⟨⟩) (by rintro ⟨⟩) (by simp [WifiOut.plain])
  | startTcp =>
    simp only [gprsAtFsm, hstatus]
    refine can_plain (.inl rfl) id (by rintro ⟨⟩) ?_
    intro out hout
    rcases List.mem_cons.mp hout with rfl | hout
    · rfl
    · exact plain_gprsServerConnect g out hout
  | init | setMisc | checkCgatt =>
    simp only [gprsAtFsm, hstatus]
    split
    · exact can_plain (.inl rfl) id (by rintro ⟨⟩) (by simp [WifiOut.plain])
    · exact hno _
  | checkCsq | checkReg =>
    simp only [gprsAtFsm, hstatus]
    split
    · split
      · exact can_plain (.inl rfl) id (by rintro ⟨⟩) (by simp [WifiOut.plain])
      · exact can_plain (.inl rfl) id h plain_nil
    · exact hno _
  | setApn | setCiicr | getIp =>
    simp only [gprsAtFsm, hstatus]
    split
    · exact can_plain (.inl rfl) id (by rintro ⟨⟩) (by simp [WifiOut.plain])
    split
    · exact can_plain (.inl rfl) id (by rintro ⟨⟩) plain_nil
    · exact hno _

end Can

/-- The lines with which a module comes up to the state `TCP_CONNECT`; the last call needs
none. -/
def gprsReplies : List (List UInt8) :=
  [ascii "OK", ascii "READY", ascii "+CSQ: 20,0", ascii "+CREG: 0,1", ascii "+CGATT: 1",
    ascii "OK", ascii "OK", ascii "10.0.0.1", []]

end IBoxClient
