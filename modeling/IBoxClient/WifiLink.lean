import IBoxClient.WifiTrap

/- What makes the wireless thread believe that there is a connection to the server.

   `wireless_thread_entry` calls `esp8266_at_fsm` and then sets `is_wireless_link_ok` by
   its state. The module reports the connection with `CONNECT`, and so the word is looked
   for after `AT+CIPSTART`. But it is looked for anywhere in the line, and the module also
   tells about the access point with `WIFI CONNECTED` and `WIFI DISCONNECT`.

   The flag is set only with a connection reported exactly as long as no such line comes
   while the report is waited for: `link_ok_sound_iff`. -/
namespace IBoxClient

open Bytes

/-- The report of a connection: `CONNECT`, or with the number of the link before it. -/
def isConnectReport (line : List UInt8) : Bool :=
  line == ascii "CONNECT" ||
    match line with
    | id :: rest => decide (48 ≤ id ∧ id ≤ 57) && rest == ascii ",CONNECT"
    | [] => false

/-- Whether a connection is asked for. -/
def startsTcp (outs : List WifiOut) : Bool := outs.contains (.sendStr (ascii "AT+CIPSTART=\"TCP\",\""))

/-- The wireless thread. `called` says whether it is between the call and the test that
follows it. `reported` is history: a connection has been reported since one was last
asked for. -/
structure WirelessThread where
  wifi : Wifi
  isWirelessLinkOk : Bool
  called : Bool
  reported : Bool

def WirelessThread.initial (config : IboxConfig) : WirelessThread :=
  ⟨.initial config, false, false, false⟩

/-- The wireless thread goes on, or the network thread sets `wifi_tx_len`. -/
inductive WirelessEvent where
  | thread (i : WifiInput)
  | txLen (len : Nat)

/-- A call has come to `step`. -/
def WirelessThread.afterCall (t : WirelessThread) (i : WifiInput) (step : WifiStep) :
    WirelessThread :=
  { t with
    wifi := step.1
    called := true
    reported :=
      if startsTcp step.2 then false else if isConnectReport i.line then true else t.reported }

/-- The next part of the loop of `wireless_thread_entry`. -/
def wirelessStep (t : WirelessThread) : WirelessEvent → WirelessThread × List WifiOut
  | .thread i =>
    if t.called then
      ({ t with isWirelessLinkOk := decide (t.wifi.status = .communicate), called := false }, [])
    else (t.afterCall i (esp8266AtFsm i t.wifi), (esp8266AtFsm i t.wifi).2)
  | .txLen len => ({ t with wifi := { t.wifi with txLen := len } }, [])

/-- The link comes up on a report only, and the flag is set only with a connection
reported. -/
def LinkSound (t : WirelessThread) (e : WirelessEvent) : Prop :=
  (t.wifi.status = .waitLinkServer → (wirelessStep t e).1.wifi.status = .communicate →
    ∃ i, e = .thread i ∧ isConnectReport i.line = true) ∧
  ((wirelessStep t e).1.isWirelessLinkOk = true → (wirelessStep t e).1.reported = true)

/-- While the report is waited for, a line with `CONNECT` in it and without `ERROR` is the
report. -/
def ConnectIsReport (t : WirelessThread) : WirelessEvent → Prop
  | .thread i => t.called = false → t.wifi.status = .waitLinkServer → i.has "ERROR" = false →
      i.has "CONNECT" = true → isConnectReport i.line = true
  | .txLen _ => True

/-- The invariant. -/
structure Reported (t : WirelessThread) : Prop where
  up : t.wifi.status = .communicate → t.reported = true
  flag : t.isWirelessLinkOk = true → t.reported = true
  /-- Between the rounds the flag tells the state. -/
  tested : t.called = false → t.isWirelessLinkOk = true → t.wifi.status = .communicate

/-- Where the report is waited for. -/
theorem waitLinkServer_up {i : WifiInput} {w : Wifi} (h : w.status = .waitLinkServer) :
    (esp8266AtFsm i w).1.status = .communicate ↔
      i.has "ERROR" = false ∧ i.has "CONNECT" = true := by
  simp only [esp8266AtFsm, h]
  cases herror : i.has "ERROR" with
  | true => simp
  | false =>
    cases hconnect : i.has "CONNECT" with
    | true => simp [Wifi.goto]
    | false =>
      simp only [Bool.false_eq_true, if_false, and_false, iff_false]
      split
      · split
        · simp
        · simp
      · simp [h]

/-- Nothing that is done while the link is up asks for a connection. -/
theorem communicate_not_startsTcp {i : WifiInput} {w : Wifi} {step : WifiStep}
    (h : w.status = .communicate) (hstep : FsmStep i w step) : startsTcp step.2 = false := by
  have hsend : ∀ len txBuf, startsTcp (esp8266SendData len txBuf) = false := by
    intro len txBuf
    have hcommand : ascii "AT+CIPSTART=\"TCP\",\"" ≠
        ascii "AT+CIPSEND=" ++ (decimal len ++ ascii "\r\n") := by
      intro heq
      have hfront := congrArg (List.take 9) heq
      rw [List.take_append_of_le_length (by decide)] at hfront
      exact absurd hfront (by decide)
    simp [startsTcp, esp8266SendData, hcommand]
  cases hstep with
  | quiet _ hne => exact absurd h hne
  | lost => rfl
  | acknowledged => rfl
  | data =>
    unfold ipdMessage
    split
    · split <;> rfl
    · rfl
  | send => exact hsend _ _
  | sendLate => exact hsend _ _
  | timeout => rfl
  | idle => rfl

/-- A call that asks for a connection neither finds the link up nor leaves it up. -/
theorem startsTcp_down {i : WifiInput} {w : Wifi} (h : startsTcp (esp8266AtFsm i w).2 = true) :
    w.status ≠ .communicate ∧ (esp8266AtFsm i w).1.status ≠ .communicate := by
  have hdown : w.status ≠ .communicate := by
    intro hup
    rw [communicate_not_startsTcp hup (fsm_step i w)] at h
    cases h
  refine ⟨hdown, fun hnext => ?_⟩
  -- the call that brings the link up only clears the buffer
  have hwait := (quiet_step hdown).enters hnext
  obtain ⟨herror, hconnect⟩ := (waitLinkServer_up hwait).mp hnext
  simp only [esp8266AtFsm, hwait, herror, hconnect, Bool.false_eq_true, if_false, if_true] at h
  cases h

/-! ## The steps -/

theorem reported_step {t : WirelessThread} {e : WirelessEvent} (h : Reported t)
    (hreport : ConnectIsReport t e) : Reported (wirelessStep t e).1 := by
  obtain ⟨hup, hflag, htested⟩ := h
  cases e with
  | txLen len => exact ⟨hup, hflag, htested⟩
  | thread i =>
    cases hcalled : t.called with
    | true =>
      simp only [wirelessStep, hcalled, if_true]
      exact ⟨hup, fun hok => hup (of_decide_eq_true hok), fun _ hok => of_decide_eq_true hok⟩
    | false =>
      simp only [wirelessStep, hcalled, Bool.false_eq_true, if_false]
      cases hstart : startsTcp (esp8266AtFsm i t.wifi).2 with
      | true =>
        obtain ⟨hdown, hnext⟩ := startsTcp_down hstart
        refine ⟨fun h => absurd h hnext, fun hok => ?_, nofun⟩
        exact absurd (htested hcalled hok) hdown
      | false =>
        -- what was reported stays so
        have hstays : t.reported = true →
            (t.afterCall i (esp8266AtFsm i t.wifi)).reported = true := by
          intro hold
          simp only [WirelessThread.afterCall, hstart, Bool.false_eq_true, if_false]
          split
          · rfl
          · exact hold
        refine ⟨fun hnext => ?_, fun hok => hstays (hflag hok), nofun⟩
        by_cases hstatus : t.wifi.status = .communicate
        · exact hstays (hup hstatus)
        · have hwait := (quiet_step hstatus).enters hnext
          obtain ⟨herror, hconnect⟩ := (waitLinkServer_up hwait).mp hnext
          have hline := hreport hcalled hwait herror hconnect
          simp [WirelessThread.afterCall, hstart, hline]

theorem linkSound_step {t : WirelessThread} {e : WirelessEvent} (h : Reported t)
    (hreport : ConnectIsReport t e) : LinkSound t e := by
  refine ⟨fun hwait hnext => ?_, (reported_step h hreport).flag⟩
  cases e with
  | txLen len => cases hwait.symm.trans hnext
  | thread i =>
    cases hcalled : t.called with
    | true =>
      simp only [wirelessStep, hcalled, if_true] at hnext
      cases hwait.symm.trans hnext
    | false =>
      simp only [wirelessStep, hcalled, Bool.false_eq_true, if_false] at hnext
      obtain ⟨herror, hconnect⟩ := (waitLinkServer_up hwait).mp hnext
      exact ⟨i, rfl, hreport hcalled hwait herror hconnect⟩

theorem connectIsReport_of_sound {t : WirelessThread} {e : WirelessEvent} (h : LinkSound t e) :
    ConnectIsReport t e := by
  cases e with
  | txLen len => trivial
  | thread i =>
    intro hcalled hwait herror hconnect
    have hnext : (wirelessStep t (.thread i)).1.wifi.status = .communicate := by
      simp only [wirelessStep, hcalled, Bool.false_eq_true, if_false]
      exact (waitLinkServer_up hwait).mpr ⟨herror, hconnect⟩
    obtain ⟨i', hi, hline⟩ := h.1 hwait hnext
    cases hi
    exact hline

/-- **The link.** In a run the link comes up only on the report of a connection, and
`is_wireless_link_ok` is set only while one has been reported since it was last asked
for, if and only if no other line with `CONNECT` in it, and without `ERROR`, has come
while the report was waited for. -/
theorem link_ok_sound_iff (config : IboxConfig) (evs : List WirelessEvent) :
    Machine.Along wirelessStep LinkSound (.initial config) evs ↔
      Machine.Along wirelessStep ConnectIsReport (.initial config) evs := by
  have hinit : Reported (.initial config) := ⟨nofun, nofun, fun _ => nofun⟩
  constructor
  · intro h
    exact Machine.along_mono_of_invariant (I := fun _ => True) (fun _ _ _ _ => trivial)
      (fun _ _ _ hsound => connectIsReport_of_sound hsound) trivial h
  · intro h
    exact Machine.along_mono_of_invariant (fun _ _ hs hreport => reported_step hs hreport)
      (fun _ _ hs hreport => linkSound_step hs hreport) hinit h

/-! ## A run -/

/-- A round of the loop. -/
def round (line : String) : List WirelessEvent := [.thread (onLine line), .thread (onLine line)]

/-- The module is asked for a connection, and then loses the access point. -/
def accessPointLost : List WirelessEvent :=
  ["", "OK", "+CWMODE:1", "", "+CIFSR:STAIP,\"192.168.0.5\"",
    "+CIFSR:STAMAC,\"5c:cf:7f:00:00:01\"", ""].flatMap round

/-- That is taken for the report, and the flag is set. -/
theorem access_point_lost_link_ok :
    ¬ Machine.Along wirelessStep LinkSound (.initial .initial)
      (accessPointLost ++ round "WIFI DISCONNECT") ∧
    (Machine.last wirelessStep (.initial .initial)
      (accessPointLost ++ round "WIFI DISCONNECT")).isWirelessLinkOk = true ∧
    (Machine.last wirelessStep (.initial .initial)
      (accessPointLost ++ round "WIFI DISCONNECT")).reported = false := by
  refine ⟨fun h => ?_, by decide +kernel, by decide +kernel⟩
  obtain ⟨i, hi, hline⟩ := (Machine.along_at h).1 (by decide +kernel) (by decide +kernel)
  cases hi
  exact absurd hline (by decide +kernel)

end IBoxClient
