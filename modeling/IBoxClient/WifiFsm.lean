import IBoxClient.IBoxConfig
import IBoxClient.Uart3

/- The state machine of the WiFi module (`ibox_wifi.c`).

   `esp8266AtFsm` is one call of `esp8266_at_fsm` on the line that has been read from
   USART3. It yields the state after it and what it does to the outside, in order.
   `wifiPoll` is the call together with `get_line_from_uart3`.

   The clock is read up to three times in a call; `clock` gives the readings one after
   another. The buffer `wifi_rx_temp` is longer than the line and filled up with zeros;
   the parsing of `+IPD` may read past it into `beyond`, the memory behind it.

   Most states wait for a reply and do the same without one (`Wifi.noReply`); the states
   `GET_MAC` and `WAIT_LINK_SERVER` differ and are written out. -/
namespace IBoxClient

open Bytes

inductive Esp8266Status where
  | check
  | checkMode
  | waitCheckMode
  | setMode
  | waitSetMode
  | reset
  | waitReset
  | waitCloseEcho
  | wifiConnect
  | waitConnected
  | waitGotIp
  | linkOk
  | getIp
  | getMac
  | restartConnectSever
  | connectServer
  | waitLinkServer
  | communicate
  deriving DecidableEq

/-- The variables of `ibox_wifi.c`, and the configuration it reads and writes. -/
structure Wifi where
  status : Esp8266Status
  statusErrorCount : UInt8
  errorCount : UInt8
  tcpErrorCount : UInt8
  timeout : UInt32
  sendFlag : Bool
  txLen : Nat
  config : IboxConfig

def Wifi.initial (config : IboxConfig) : Wifi := ⟨.check, 0, 0, 0, 0, true, 0, config⟩

/-- What a call does to the outside. -/
inductive WifiOut where
  | rxBufClear
  | sendStr (text : List UInt8)
  | sendData (data : List UInt8)
  | delayMs (delay : Nat)
  | netTxSemRelease
  | netRxWrite (len : Nat) (data : List UInt8)
  deriving DecidableEq

/-- What a call finds: the line, the memory behind `wifi_rx_temp`, the readings of the
clock, and `uart3_tx_buf`. -/
structure WifiInput where
  line : List UInt8
  beyond : List UInt8
  clock : Nat → UInt32
  txBuf : List UInt8

/-- `wifi_rx_temp` and what is behind it. -/
def WifiInput.rxTemp (i : WifiInput) : List UInt8 := field uart3RxSize i.line ++ i.beyond

/-- `strstr` in `wifi_rx_temp`. -/
def WifiInput.find (i : WifiInput) (text : String) : Option Nat :=
  strstr (ascii text) (cstring i.rxTemp)

def WifiInput.has (i : WifiInput) (text : String) : Bool := (i.find text).isSome

/-- Nothing is found without a line. -/
theorem WifiInput.find_idle {i : WifiInput} (h : i.line = []) {text : String}
    (htext : ascii text ≠ []) : i.find text = none := by
  have hempty : cstring i.rxTemp = [] := by
    rw [rxTemp, h]
    rfl
  rw [find, hempty, strstr, if_neg htext]

theorem WifiInput.has_idle {i : WifiInput} (h : i.line = []) {text : String}
    (htext : ascii text ≠ []) : i.has text = false := by
  rw [has, find_idle h htext]
  rfl

abbrev WifiStep := Wifi × List WifiOut

namespace Wifi

/-- A reply has come, or a command is sent for the first time. -/
def goto (w : Wifi) (now : UInt32) (status : Esp8266Status) : Wifi :=
  { w with statusErrorCount := 0, timeout := now, status := status }

/-- The reply has not come: after some seconds an error is counted, and `retry` done;
the sixth is counted as an error of the module instead. -/
def noReply (w : Wifi) (clock : Nat → UInt32) (seconds : UInt32) (retry : Wifi → WifiStep) :
    WifiStep :=
  if clock 0 - w.timeout > seconds then
    let w : Wifi := { w with timeout := clock 1, statusErrorCount := w.statusErrorCount + 1 }
    if w.statusErrorCount > 5 then
      ({ w with errorCount := w.errorCount + 1, statusErrorCount := 0 }, [])
    else retry w
  else (w, [])

end Wifi

/-- The command is sent once more. -/
def resend (command : String) (w : Wifi) : WifiStep := (w, [.sendStr (ascii command)])

/-- It is done once more from an earlier state. -/
def backTo (status : Esp8266Status) (w : Wifi) : WifiStep := ({ w with status := status }, [])

/-- `wifi_server_connect`. -/
def wifiServerConnect (w : Wifi) : List WifiOut :=
  [.sendStr (ascii "AT+CIPSTART=\"TCP\",\"")] ++
    (if w.config.useDns = 0 ∨ w.tcpErrorCount ≥ 3 then
      [.sendStr w.config.serverIp, .sendStr (ascii "\",")]
    else [.sendStr w.config.serverDsn, .sendStr (ascii "\",")]) ++
    [.sendStr (decimal w.config.serverPort), .sendStr (ascii "\r\n")]

/-- `esp8266_send_data`. -/
def esp8266SendData (len : Nat) (txBuf : List UInt8) : List WifiOut :=
  [.sendStr (ascii "AT+CIPSEND=" ++ decimal len ++ ascii "\r\n"), .delayMs 50,
    .sendData (txBuf.take len)]

/-- `sscanf` with `%*[^"]"%[^"]`: the text between the first two quotes. -/
def scanQuoted (s : List UInt8) : Option (List UInt8) :=
  if s.takeWhile (· ≠ 34) = [] then none
  else
    match s.dropWhile (· ≠ 34) with
    | [] => none
    | _ :: rest =>
      if rest.takeWhile (· ≠ 34) = [] then none else some (rest.takeWhile (· ≠ 34))

/-- The quoted text of the line is stored into a field of the configuration. -/
def storeQuoted (i : WifiInput) (off : Nat) (hoff : off ≤ iboxConfigSize) (config : IboxConfig) :
    IboxConfig :=
  match scanQuoted (cstring i.rxTemp) with
  | some text => config.writeText off text hoff
  | none => config

/-- The loop that reads the length after `+IPD,`: the length, modulo the size of a
`uint16_t`, and the memory behind the colon. There is nothing if it finds no colon. -/
def ipdLength : Nat → List UInt8 → Option (Nat × List UInt8)
  | _, [] => none
  | len, c :: cs =>
    if c = 58 then some (len, cs) else ipdLength ((len * 10 + c.toNat + 65488) % 65536) cs

/-- A message that has come: `net_rx_write` is given its length and its bytes. -/
def ipdMessage (i : WifiInput) : List WifiOut :=
  match i.find "+IPD," with
  | some at_ =>
    match ipdLength 0 (i.rxTemp.drop (at_ + 5)) with
    | some r => [.netRxWrite r.1 (r.2.take r.1)]
    | none => []
  | none => []

/-- The state `COMMUNICATE`. -/
def communicate (i : WifiInput) (w : Wifi) : WifiStep :=
  if i.line ≠ [] then
    -- the words are looked for anywhere in the line, also inside of a message
    if i.has "CLOSED" then ({ w with status := .restartConnectSever }, [])
    else if i.has "ERROR" then ({ w with status := .wifiConnect }, [])
    else if i.has "SEND OK" then ({ w with txLen := 0, sendFlag := true }, [.netTxSemRelease])
    else (w, ipdMessage i)
  else
    -- the test for the timeout comes after the sending, in the same call
    let sending := w.txLen ≠ 0 ∧ w.sendFlag
    let w' := if sending then { w with timeout := i.clock 0, sendFlag := false } else w
    let outs := if sending then esp8266SendData w.txLen i.txBuf else []
    let now := if sending then i.clock 1 else i.clock 0
    if now - w'.timeout > 5 ∧ ¬ w'.sendFlag then
      ({ w' with status := .restartConnectSever }, outs)
    else (w', outs)

/-- `esp8266_at_fsm` on a line. -/
def esp8266AtFsm (i : WifiInput) (w : Wifi) : WifiStep :=
  let now := i.clock 0
  match w.status with
  | .check => (w.goto now .checkMode, [.rxBufClear, .sendStr (ascii "ATE0\r\n")])
  | .checkMode =>
    if i.has "OK" then (w.goto now .waitCheckMode, [.sendStr (ascii "AT+CWMODE?\r\n")])
    else w.noReply i.clock 2 (resend "ATE0\r\n")
  | .waitCheckMode =>
    match i.find "+CWMODE:" with
    | some at_ =>
      (w.goto now (if i.rxTemp.getD (at_ + 8) 0 = 49 then .linkOk else .setMode), [])
    | none => w.noReply i.clock 2 (resend "AT+CWMODE?\r\n")
  | .setMode =>
    (w.goto now .waitSetMode, [.sendStr (ascii "AT+CWMODE=1\r\n"), .rxBufClear])
  | .waitSetMode =>
    -- the state that should follow on OK is commented out
    if i.has "OK" then (w, []) else w.noReply i.clock 3 (resend "AT+CWMODE=1\r\n")
  | .reset => (w.goto now .waitReset, [.sendStr (ascii "AT+RST\r\n")])
  | .waitReset =>
    if i.has "OK" then
      (w.goto now .waitCloseEcho, [.delayMs 2000, .rxBufClear, .sendStr (ascii "ATE0\r\n")])
    else w.noReply i.clock 4 (backTo .reset)
  | .waitCloseEcho =>
    if i.has "OK" then (w.goto now .wifiConnect, [])
    else w.noReply i.clock 3 (resend "ATE0\r\n")
  | .wifiConnect =>
    (w.goto now .waitConnected,
      [.rxBufClear, .sendStr (ascii "AT+CWJAP=\""), .sendStr w.config.wifiSsid,
        .sendStr (ascii "\",\""), .sendStr w.config.wifiPassword, .sendStr (ascii "\"\r\n")])
  | .waitConnected =>
    if i.has "WIFI CONNECTED" then (w.goto now .waitGotIp, [])
    else w.noReply i.clock 3 (backTo .wifiConnect)
  | .waitGotIp =>
    if i.has "WIFI GOT IP" then (w.goto now .linkOk, [])
    else w.noReply i.clock 4 (backTo .wifiConnect)
  | .linkOk => (w.goto now .getIp, [.rxBufClear, .sendStr (ascii "AT+CIFSR\r\n")])
  | .getIp =>
    if i.has "+CIFSR:STAIP," then
      let config := storeQuoted i IboxConfig.wifiIpOffset (by decide) w.config
      ({ w.goto now (if config.wifiIp = ascii "0.0.0.0" then .wifiConnect else .getMac) with
        config := config }, [])
    else w.noReply i.clock 3 (backTo .linkOk)
  | .getMac =>
    if i.has "+CIFSR:STAMAC," then
      ({ w.goto now .connectServer with
        config := storeQuoted i IboxConfig.wifiMacOffset (by decide) w.config }, [.rxBufClear])
    else if now - w.timeout > 5 then
      ({ w with errorCount := w.errorCount + 1, status := .reset, statusErrorCount := 0 }, [])
    else (w, [])
  | .restartConnectSever =>
    ({ w with status := .connectServer },
      [.rxBufClear, .sendStr (ascii "AT+CIPCLOSE\r\n"), .delayMs 1000])
  | .connectServer => (w.goto now .waitLinkServer, .rxBufClear :: wifiServerConnect w)
  | .waitLinkServer =>
    if i.has "ERROR" then
      ({ w with tcpErrorCount := w.tcpErrorCount + 1, status := .connectServer }, [])
    else if i.has "CONNECT" then
      ({ w.goto now .communicate with tcpErrorCount := 0 }, [.rxBufClear])
    else if now - w.timeout > 3 then
      -- here the count of errors is not set back
      let w : Wifi := { w with timeout := i.clock 1, statusErrorCount := w.statusErrorCount + 1 }
      if w.statusErrorCount > 5 then ({ w with errorCount := w.errorCount + 1 }, [])
      else ({ w with status := .connectServer }, [])
    else (w, [])
  | .communicate => communicate i w

/-! ## What a call does -/

/-- Outputs that have nothing to do with the link. -/
def WifiOut.plain : WifiOut → Bool
  | .rxBufClear | .sendStr _ | .delayMs _ => true
  | .sendData _ | .netTxSemRelease | .netRxWrite _ _ => false

/-- A step outside of `COMMUNICATE`: the variables of the transmitter are left alone,
and the link comes up only where it is waited for. -/
structure Quiet (w : Wifi) (step : WifiStep) : Prop where
  flag : step.1.sendFlag = w.sendFlag
  len : step.1.txLen = w.txLen
  plain : ∀ out ∈ step.2, out.plain = true
  enters : step.1.status = .communicate → w.status = .waitLinkServer

/-- What a call can do, and when. -/
inductive FsmStep (i : WifiInput) (w : Wifi) : WifiStep → Prop where
  | quiet (step : WifiStep) (h : w.status ≠ .communicate) (hquiet : Quiet w step) :
    FsmStep i w step
  | lost (status : Esp8266Status) (h : w.status = .communicate) (hline : i.line ≠ [])
    (hlost : i.has "CLOSED" ∨ i.has "ERROR") (hstatus : status ≠ .communicate) :
    FsmStep i w ({ w with status := status }, [])
  | acknowledged (h : w.status = .communicate) (hline : i.line ≠ []) (hsent : i.has "SEND OK") :
    FsmStep i w ({ w with txLen := 0, sendFlag := true }, [.netTxSemRelease])
  | data (h : w.status = .communicate) (hline : i.line ≠ []) : FsmStep i w (w, ipdMessage i)
  | send (h : w.status = .communicate) (hline : i.line = []) (hlen : w.txLen ≠ 0)
    (hflag : w.sendFlag = true) (hclock : ¬ i.clock 1 - i.clock 0 > 5) :
    FsmStep i w ({ w with timeout := i.clock 0, sendFlag := false },
      esp8266SendData w.txLen i.txBuf)
  | sendLate (h : w.status = .communicate) (hline : i.line = []) (hlen : w.txLen ≠ 0)
    (hflag : w.sendFlag = true) (hclock : i.clock 1 - i.clock 0 > 5) :
    FsmStep i w ({ w with
        timeout := i.clock 0
        sendFlag := false
        status := .restartConnectSever }, esp8266SendData w.txLen i.txBuf)
  | timeout (h : w.status = .communicate) (hline : i.line = []) (hflag : w.sendFlag = false)
    (hclock : i.clock 0 - w.timeout > 5) :
    FsmStep i w ({ w with status := .restartConnectSever }, [])
  | idle (h : w.status = .communicate) (hline : i.line = [])
    (hidle : w.sendFlag = true → w.txLen = 0) : FsmStep i w (w, [])

theorem communicate_step {i : WifiInput} {w : Wifi} (h : w.status = .communicate) :
    FsmStep i w (communicate i w) := by
  unfold communicate
  by_cases hline : i.line = []
  · rw [if_neg (not_not_intro hline)]
    -- no line: a packet is sent, then the timeout is tested
    by_cases hsending : w.txLen ≠ 0 ∧ w.sendFlag
    · obtain ⟨hlen, hflag⟩ := hsending
      simp only [hlen, hflag, ne_eq, not_false_eq_true, and_self, if_true, Bool.false_eq_true,
        and_true]
      by_cases hclock : i.clock 1 - i.clock 0 > 5
      · rw [if_pos hclock]
        exact .sendLate h hline hlen hflag hclock
      · rw [if_neg hclock]
        exact .send h hline hlen hflag hclock
    · simp only [hsending, if_false]
      by_cases hclock : i.clock 0 - w.timeout > 5 ∧ ¬ w.sendFlag
      · rw [if_pos hclock]
        exact .timeout h hline (by simpa using hclock.2) hclock.1
      · rw [if_neg hclock]
        refine .idle h hline fun hflag => ?_
        by_contra hlen
        exact hsending ⟨hlen, hflag⟩
  · rw [if_pos hline]
    -- a line: the tests in the order of the source
    by_cases hclosed : i.has "CLOSED"
    · rw [if_pos hclosed]
      exact .lost _ h hline (.inl hclosed) (by decide)
    rw [if_neg hclosed]
    by_cases herror : i.has "ERROR"
    · rw [if_pos herror]
      exact .lost _ h hline (.inr herror) (by decide)
    rw [if_neg herror]
    by_cases hsent : i.has "SEND OK"
    · rw [if_pos hsent]
      exact .acknowledged h hline hsent
    · rw [if_neg hsent]
      exact .data h hline

/-- What waiting for a reply can do, and when. -/
theorem Wifi.noReply_cases (w : Wifi) (clock : Nat → UInt32) (seconds : UInt32)
    (retry : Wifi → WifiStep) :
    (¬ clock 0 - w.timeout > seconds ∧ w.noReply clock seconds retry = (w, [])) ∨
      (clock 0 - w.timeout > seconds ∧ w.statusErrorCount + 1 > 5 ∧
        w.noReply clock seconds retry = ({ w with
          timeout := clock 1
          statusErrorCount := 0
          errorCount := w.errorCount + 1 }, [])) ∨
      (clock 0 - w.timeout > seconds ∧ ¬ w.statusErrorCount + 1 > 5 ∧
        w.noReply clock seconds retry =
          retry { w with timeout := clock 1, statusErrorCount := w.statusErrorCount + 1 }) := by
  unfold Wifi.noReply
  by_cases hdue : clock 0 - w.timeout > seconds
  · simp only [hdue, if_true]
    by_cases hsixth : w.statusErrorCount + 1 > 5
    · exact .inr (.inl ⟨trivial, hsixth, if_pos hsixth⟩)
    · exact .inr (.inr ⟨trivial, hsixth, if_neg hsixth⟩)
  · exact .inl ⟨hdue, if_neg hdue⟩

/-- Waiting for a reply is quiet if its repetition is. -/
theorem quiet_noReply {w : Wifi} {clock : Nat → UInt32} {seconds : UInt32}
    {retry : Wifi → WifiStep} (hstatus : w.status ≠ .communicate)
    (hretry : ∀ w', w'.sendFlag = w.sendFlag → w'.txLen = w.txLen → w'.status = w.status →
      Quiet w (retry w')) : Quiet w (w.noReply clock seconds retry) := by
  have henters : w.status = .communicate → w.status = .waitLinkServer := fun h => absurd h hstatus
  obtain ⟨-, h⟩ | ⟨-, -, h⟩ | ⟨-, -, h⟩ := w.noReply_cases clock seconds retry
  · rw [h]
    exact ⟨rfl, rfl, fun _ h => (List.not_mem_nil h).elim, henters⟩
  · rw [h]
    exact ⟨rfl, rfl, fun _ h => (List.not_mem_nil h).elim, henters⟩
  · rw [h]
    exact hretry _ rfl rfl rfl

theorem quiet_resend {w w' : Wifi} (command : String) (hstatus : w.status ≠ .communicate)
    (hflag : w'.sendFlag = w.sendFlag) (hlen : w'.txLen = w.txLen) (hw : w'.status = w.status) :
    Quiet w (resend command w') :=
  ⟨hflag, hlen, fun out hout => by rw [List.mem_singleton.mp hout]; rfl,
    fun h => absurd (hw.symm.trans h) hstatus⟩

theorem quiet_backTo {w w' : Wifi} {status : Esp8266Status} (hstatus : status ≠ .communicate)
    (hflag : w'.sendFlag = w.sendFlag) (hlen : w'.txLen = w.txLen) :
    Quiet w (backTo status w') :=
  ⟨hflag, hlen, fun _ h => (List.not_mem_nil h).elim, fun h => absurd h hstatus⟩

/-- A change of state with plain outputs, not into `COMMUNICATE`. -/
theorem quiet_to {w w' : Wifi} {outs : List WifiOut} (hflag : w'.sendFlag = w.sendFlag)
    (hlen : w'.txLen = w.txLen) (hplain : ∀ out ∈ outs, out.plain = true)
    (hstatus : w'.status ≠ .communicate) : Quiet w (w', outs) :=
  ⟨hflag, hlen, hplain, fun h => absurd h hstatus⟩

theorem plain_serverConnect (w : Wifi) : ∀ out ∈ wifiServerConnect w, out.plain = true := by
  intro out hout
  unfold wifiServerConnect at hout
  split at hout <;> simp at hout <;> rcases hout with rfl | rfl | rfl | rfl | rfl <;> rfl

theorem quiet_waitLinkServer {i : WifiInput} {w : Wifi} (h : w.status = .waitLinkServer) :
    Quiet w (esp8266AtFsm i w) := by
  have hnil : ∀ out ∈ ([] : List WifiOut), out.plain = true := fun _ h => (List.not_mem_nil h).elim
  simp only [esp8266AtFsm, h]
  split
  · exact quiet_to rfl rfl hnil nofun
  split
  · exact ⟨rfl, rfl, fun out hout => by rw [List.mem_singleton.mp hout]; rfl, fun _ => h⟩
  split
  · split
    · exact quiet_to rfl rfl hnil nofun
    · exact quiet_to rfl rfl hnil nofun
  · exact quiet_to rfl rfl hnil (by rw [h]; nofun)

theorem quiet_step {i : WifiInput} {w : Wifi} (h : w.status ≠ .communicate) :
    Quiet w (esp8266AtFsm i w) := by
  have hresend : ∀ clock seconds command,
      Quiet w (w.noReply clock seconds (resend command)) := fun clock seconds command =>
    quiet_noReply h fun _ hflag hlen hstatus => quiet_resend command h hflag hlen hstatus
  have hback : ∀ clock seconds status, status ≠ .communicate →
      Quiet w (w.noReply clock seconds (backTo status)) := fun clock seconds status hs =>
    quiet_noReply h fun _ hflag hlen _ => quiet_backTo hs hflag hlen
  have hnil : ∀ out ∈ ([] : List WifiOut), out.plain = true := fun _ h => (List.not_mem_nil h).elim
  cases hstatus : w.status with
  | communicate => exact absurd hstatus h
  | waitLinkServer => exact quiet_waitLinkServer hstatus
  | check | setMode | reset | wifiConnect | linkOk | restartConnectSever =>
    simp only [esp8266AtFsm, hstatus]
    exact quiet_to rfl rfl (by simp [WifiOut.plain]) nofun
  | connectServer =>
    simp only [esp8266AtFsm, hstatus]
    refine quiet_to rfl rfl ?_ nofun
    intro out hout
    rcases List.mem_cons.mp hout with rfl | hout
    · rfl
    · exact plain_serverConnect w out hout
  | checkMode | waitCloseEcho =>
    simp only [esp8266AtFsm, hstatus]
    split
    · exact quiet_to rfl rfl (by simp [WifiOut.plain]) nofun
    · exact hresend _ _ _
  | waitReset | waitConnected | waitGotIp =>
    simp only [esp8266AtFsm, hstatus]
    split
    · exact quiet_to rfl rfl (by simp [WifiOut.plain]) nofun
    · exact hback _ _ _ (by decide)
  | waitCheckMode =>
    simp only [esp8266AtFsm, hstatus]
    split
    · refine quiet_to rfl rfl hnil ?_
      simp only [Wifi.goto]
      split <;> nofun
    · exact hresend _ _ _
  | waitSetMode =>
    simp only [esp8266AtFsm, hstatus]
    split
    · exact quiet_to rfl rfl hnil h
    · exact hresend _ _ _
  | getIp =>
    simp only [esp8266AtFsm, hstatus]
    split
    · refine quiet_to rfl rfl hnil ?_
      simp only [Wifi.goto]
      split <;> nofun
    · exact hback _ _ _ (by decide)
  | getMac =>
    simp only [esp8266AtFsm, hstatus]
    split
    · exact quiet_to rfl rfl (by simp [WifiOut.plain]) nofun
    split
    · exact quiet_to rfl rfl hnil nofun
    · exact quiet_to rfl rfl hnil h

/-- **One call** of `esp8266_at_fsm`. -/
theorem fsm_step (i : WifiInput) (w : Wifi) : FsmStep i w (esp8266AtFsm i w) := by
  by_cases h : w.status = .communicate
  · have hcall : esp8266AtFsm i w = communicate i w := by
      simp only [esp8266AtFsm, h]
    rw [hcall]
    exact communicate_step h
  · exact .quiet _ h (quiet_step h)

/-- `esp8266_at_fsm` with the line it reads, and what becomes of the ring. -/
def wifiPoll (beyond : List UInt8) (clock : Nat → UInt32) (txBuf : List UInt8) (u : Uart3)
    (w : Wifi) : Uart3 × WifiStep :=
  let r := getLineFromUart3 u
  let step := esp8266AtFsm ⟨r.1, beyond, clock, txBuf⟩ w
  (if .rxBufClear ∈ step.2 then uart3RxBufClear r.2 else r.2, step)

end IBoxClient
