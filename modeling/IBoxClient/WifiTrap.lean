import IBoxClient.Lib.Machine
import IBoxClient.WifiFsm

/- Where the state machine of the WiFi module can get to.

   A module that reports another mode than station is told to change it, and the answer
   `OK` should have led on to a reset. The line that does so is commented out, so the
   machine stays in `WAIT_SET_MODE` for good. Every other state has a reply that leads on
   (`answer`), nearer to `COMMUNICATE` with each call (`distance`).

   So the machine can still come up exactly as long as no other mode has been reported
   where the mode is asked for: `can_come_up_iff`. -/
namespace IBoxClient

open Bytes

/-- A call on a line, as a step of the machine. -/
abbrev fsmStep (w : Wifi) (i : WifiInput) : WifiStep := esp8266AtFsm i w

/-- The link is up. -/
def Up (w : Wifi) : Prop := w.status = .communicate

/-- The mode is to be changed. -/
def Trapped (w : Wifi) : Prop := w.status = .setMode ∨ w.status = .waitSetMode

/-- The mode is asked for, and the line reports another one than 1. -/
def ReportsOtherMode (w : Wifi) (i : WifiInput) : Prop :=
  w.status = .waitCheckMode ∧ ∃ at_, i.find "+CWMODE:" = some at_ ∧ i.rxTemp.getD (at_ + 8) 0 ≠ 49

/-- A line, at whatever time it comes. -/
def onLine (line : String) : WifiInput := ⟨ascii line, [], fun _ => 0, []⟩

/-! ## The diagram -/

/-- The states in which a call can leave the machine. -/
def successors : Esp8266Status → List Esp8266Status
  | .check => [.checkMode]
  | .checkMode => [.checkMode, .waitCheckMode]
  | .waitCheckMode => [.waitCheckMode, .linkOk, .setMode]
  | .setMode => [.waitSetMode]
  | .waitSetMode => [.waitSetMode]
  | .reset => [.waitReset]
  | .waitReset => [.waitReset, .waitCloseEcho, .reset]
  | .waitCloseEcho => [.waitCloseEcho, .wifiConnect]
  | .wifiConnect => [.waitConnected]
  | .waitConnected => [.waitConnected, .waitGotIp, .wifiConnect]
  | .waitGotIp => [.waitGotIp, .linkOk, .wifiConnect]
  | .linkOk => [.getIp]
  | .getIp => [.getIp, .wifiConnect, .getMac, .linkOk]
  | .getMac => [.getMac, .connectServer, .reset]
  | .restartConnectSever => [.connectServer]
  | .connectServer => [.waitLinkServer]
  | .waitLinkServer => [.waitLinkServer, .connectServer, .communicate]
  | .communicate => [.communicate, .restartConnectSever, .wifiConnect]

theorem status_noReply (w : Wifi) (clock : Nat → UInt32) (seconds : UInt32)
    (retry : Wifi → WifiStep) {statuses : List Esp8266Status} (hstay : w.status ∈ statuses)
    (hretry : ∀ w', w'.status = w.status → (retry w').1.status ∈ statuses) :
    (w.noReply clock seconds retry).1.status ∈ statuses := by
  obtain ⟨-, h⟩ | ⟨-, -, h⟩ | ⟨-, -, h⟩ := w.noReply_cases clock seconds retry
  · rw [h]
    exact hstay
  · rw [h]
    exact hstay
  · rw [h]
    exact hretry _ rfl

theorem status_communicate (i : WifiInput) {w : Wifi} (h : w.status = .communicate) :
    (communicate i w).1.status ∈ successors .communicate := by
  have hstay : w.status ∈ successors .communicate := by
    rw [h]
    decide
  have hrestart : Esp8266Status.restartConnectSever ∈ successors .communicate := by decide
  have hconnect : Esp8266Status.wifiConnect ∈ successors .communicate := by decide
  unfold communicate
  split
  · split
    · exact hrestart
    · split
      · exact hconnect
      · split
        · exact hstay
        · exact hstay
  · -- sending leaves the status as it is
    dsimp only
    split
    · split
      · exact hrestart
      · exact hstay
    · split
      · exact hrestart
      · exact hstay

/-- **The diagram** of `esp8266_at_fsm`. -/
theorem status_mem_successors (i : WifiInput) (w : Wifi) :
    (esp8266AtFsm i w).1.status ∈ successors w.status := by
  have hresend : ∀ seconds command {statuses : List Esp8266Status}, w.status ∈ statuses →
      (w.noReply i.clock seconds (resend command)).1.status ∈ statuses :=
    fun seconds command statuses h => status_noReply w _ _ _ h fun w' hw' => by
      rw [resend, hw']
      exact h
  have hback : ∀ seconds status {statuses : List Esp8266Status}, w.status ∈ statuses →
      status ∈ statuses → (w.noReply i.clock seconds (backTo status)).1.status ∈ statuses :=
    fun seconds status statuses h hs => status_noReply w _ _ _ h fun w' _ => hs
  cases h : w.status with
  | check | setMode | reset | wifiConnect | linkOk | restartConnectSever | connectServer =>
    simp only [esp8266AtFsm, h]
    exact List.mem_singleton.mpr rfl
  | communicate =>
    simp only [esp8266AtFsm, h]
    exact status_communicate i h
  | checkMode | waitCloseEcho =>
    simp only [esp8266AtFsm, h]
    split
    · simp [successors, Wifi.goto]
    · exact hresend _ _ (by rw [h]; decide)
  | waitSetMode =>
    simp only [esp8266AtFsm, h]
    split
    · simp [successors, h]
    · exact hresend _ _ (by rw [h]; decide)
  | waitCheckMode =>
    simp only [esp8266AtFsm, h]
    split
    · simp only [Wifi.goto]
      split <;> decide
    · exact hresend _ _ (by rw [h]; decide)
  | waitReset | waitConnected | waitGotIp =>
    simp only [esp8266AtFsm, h]
    split
    · simp [successors, Wifi.goto]
    · exact hback _ _ (by rw [h]; decide) (by decide)
  | getIp =>
    simp only [esp8266AtFsm, h]
    split
    · simp only [Wifi.goto]
      split <;> decide
    · exact hback _ _ (by rw [h]; decide) (by decide)
  | getMac =>
    simp only [esp8266AtFsm, h]
    split
    · simp [successors, Wifi.goto]
    · split
      · simp [successors]
      · simp [successors, h]
  | waitLinkServer =>
    simp only [esp8266AtFsm, h]
    split
    · simp [successors]
    · split
      · simp [successors, Wifi.goto]
      · split
        · split
          · simp [successors]
          · simp [successors]
        · simp [successors, h]

/-! ## The trap -/

theorem trapped_step (w : Wifi) (i : WifiInput) (h : Trapped w) : Trapped (fsmStep w i).1 := by
  have hnext := status_mem_successors i w
  rcases h with h | h
  · rw [h] at hnext
    exact .inr (List.mem_singleton.mp hnext)
  · rw [h] at hnext
    exact .inr (List.mem_singleton.mp hnext)

theorem not_up_of_trapped (w : Wifi) (h : Trapped w) : ¬ Up w := by
  intro hup
  rcases h with h | h
  · cases h.symm.trans hup
  · cases h.symm.trans hup

/-- The trap is entered only from `WAIT_CHECK_MODE`. -/
theorem waitCheckMode_of_trapped {w : Wifi} {i : WifiInput} (h : ¬ Trapped w)
    (hnext : Trapped (fsmStep w i).1) : w.status = .waitCheckMode := by
  have hmem := status_mem_successors i w
  have hdiagram : ∀ status next, next ∈ successors status →
      next = .setMode ∨ next = .waitSetMode →
      status = .setMode ∨ status = .waitSetMode ∨ status = .waitCheckMode := by
    intro status next
    cases status <;> cases next <;> decide
  rcases hdiagram _ _ hmem hnext with hset | hset | hcheck
  · exact absurd (.inl hset) h
  · exact absurd (.inr hset) h
  · exact hcheck

theorem trapped_step_iff (w : Wifi) (i : WifiInput) (h : ¬ Trapped w) :
    Trapped (fsmStep w i).1 ↔ ReportsOtherMode w i := by
  by_cases hstatus : w.status = .waitCheckMode
  · have hstay : ¬ Trapped (w.noReply i.clock 2 (resend "AT+CWMODE?\r\n")).1 := by
      have hmem := status_noReply w i.clock 2 (resend "AT+CWMODE?\r\n")
        (List.mem_singleton.mpr rfl) fun w' hw' => List.mem_singleton.mpr hw'
      rw [Trapped, List.mem_singleton.mp hmem]
      exact h
    simp only [fsmStep, esp8266AtFsm, hstatus, ReportsOtherMode, true_and]
    cases hfind : i.find "+CWMODE:" with
    | none => simp [hstay]
    | some at_ =>
      simp only [Option.some.injEq, exists_eq_left']
      by_cases hmode : i.rxTemp.getD (at_ + 8) 0 = 49
      · simp only [Trapped, Wifi.goto, hmode, if_true, ne_eq, not_true_eq_false, reduceCtorEq, or_self]
      · simp only [Trapped, Wifi.goto, hmode, if_false, ne_eq, not_false_eq_true, reduceCtorEq,
          or_false]
  · exact ⟨fun hnext => absurd (waitCheckMode_of_trapped h hnext) hstatus,
      fun hreport => absurd hreport.1 hstatus⟩

/-! ## The way up -/

/-- The line that leads on. -/
def answer : Esp8266Status → String
  | .checkMode | .waitReset | .waitCloseEcho => "OK"
  | .waitCheckMode => "+CWMODE:1"
  | .waitConnected => "WIFI CONNECTED"
  | .waitGotIp => "WIFI GOT IP"
  | .getIp => "+CIFSR:STAIP,\"192.168.0.5\""
  | .getMac => "+CIFSR:STAMAC,\"5c:cf:7f:00:00:01\""
  | .waitLinkServer => "CONNECT"
  | _ => ""

/-- Where it leads. -/
def onward : Esp8266Status → Esp8266Status
  | .check => .checkMode
  | .checkMode => .waitCheckMode
  | .waitCheckMode | .waitGotIp => .linkOk
  | .reset => .waitReset
  | .waitReset => .waitCloseEcho
  | .waitCloseEcho => .wifiConnect
  | .wifiConnect => .waitConnected
  | .waitConnected => .waitGotIp
  | .linkOk => .getIp
  | .getIp => .getMac
  | .getMac | .restartConnectSever => .connectServer
  | .connectServer => .waitLinkServer
  | .waitLinkServer | .communicate => .communicate
  | .setMode | .waitSetMode => .waitSetMode

/-- The calls that are left on the way. -/
def distance : Esp8266Status → Nat
  | .communicate => 0
  | .waitLinkServer => 1
  | .connectServer => 2
  | .restartConnectSever | .getMac => 3
  | .getIp => 4
  | .linkOk => 5
  | .waitCheckMode | .waitGotIp => 6
  | .checkMode | .waitConnected => 7
  | .check | .wifiConnect => 8
  | .waitCloseEcho => 9
  | .waitReset => 10
  | .reset => 11
  | .setMode | .waitSetMode => 0

theorem status_answer (w : Wifi) (hup : ¬ Up w) (htrap : ¬ Trapped w) :
    (fsmStep w (onLine (answer w.status))).1.status = onward w.status := by
  cases h : w.status with
  | communicate => exact absurd h hup
  | setMode => exact absurd (.inl h) htrap
  | waitSetMode => exact absurd (.inr h) htrap
  | check | reset | wifiConnect | linkOk | restartConnectSever | connectServer =>
    simp only [fsmStep, esp8266AtFsm, h]
    rfl
  | checkMode | waitReset | waitCloseEcho =>
    have hok : (onLine "OK").has "OK" = true := by decide +kernel
    simp only [fsmStep, esp8266AtFsm, h, answer, hok, if_true]
    rfl
  | waitCheckMode =>
    have hfind : (onLine "+CWMODE:1").find "+CWMODE:" = some 0 := by decide +kernel
    have hmode : (onLine "+CWMODE:1").rxTemp.getD (0 + 8) 0 = 49 := by decide +kernel
    simp only [fsmStep, esp8266AtFsm, h, answer, hfind, hmode, if_true]
    rfl
  | waitConnected =>
    have hline : (onLine "WIFI CONNECTED").has "WIFI CONNECTED" = true := by decide +kernel
    simp only [fsmStep, esp8266AtFsm, h, answer, hline, if_true]
    rfl
  | waitGotIp =>
    have hline : (onLine "WIFI GOT IP").has "WIFI GOT IP" = true := by decide +kernel
    simp only [fsmStep, esp8266AtFsm, h, answer, hline, if_true]
    rfl
  | getIp =>
    have hline : (onLine (answer .getIp)).has "+CIFSR:STAIP," = true := by decide +kernel
    have hscan : scanQuoted (cstring (onLine (answer .getIp)).rxTemp) =
        some (ascii "192.168.0.5") := by decide +kernel
    -- the address is written into the configuration, and compared there
    have hip : (storeQuoted (onLine (answer .getIp)) IboxConfig.wifiIpOffset (by decide)
        w.config).wifiIp = ascii "192.168.0.5" := by
      simp only [storeQuoted, hscan]
      exact IboxConfig.textAt_writeText _ (by decide) (by decide) _
    have hne : ascii "192.168.0.5" ≠ ascii "0.0.0.0" := by decide
    simp only [fsmStep, esp8266AtFsm, h, hline, if_true, hip, hne, if_false]
    rfl
  | getMac =>
    have hline : (onLine (answer .getMac)).has "+CIFSR:STAMAC," = true := by decide +kernel
    simp only [fsmStep, esp8266AtFsm, h, hline, if_true]
    rfl
  | waitLinkServer =>
    have herror : (onLine "CONNECT").has "ERROR" = false := by decide +kernel
    have hline : (onLine "CONNECT").has "CONNECT" = true := by decide +kernel
    simp only [fsmStep, esp8266AtFsm, h, answer, herror, hline, if_true, Bool.false_eq_true,
      if_false]
    rfl

theorem distance_onward {status : Esp8266Status} (hup : status ≠ .communicate)
    (hset : status ≠ .setMode) (hwait : status ≠ .waitSetMode) :
    distance (onward status) < distance status ∧ onward status ≠ .setMode ∧
      onward status ≠ .waitSetMode := by
  revert hup hset hwait
  cases status <;> decide

/-- From a state outside of the trap the answers lead to `COMMUNICATE`. -/
theorem canReach_up {w : Wifi} (h : ¬ Trapped w) : Machine.CanReach fsmStep Up w := by
  apply Machine.canReach_of_rank (I := fun w => ¬ Trapped w) (fun w => distance w.status) _ h
  intro w htrap hup
  have hset : w.status ≠ .setMode := fun h => htrap (.inl h)
  have hwait : w.status ≠ .waitSetMode := fun h => htrap (.inr h)
  obtain ⟨hlt, hset', hwait'⟩ := distance_onward hup hset hwait
  refine ⟨onLine (answer w.status), ?_⟩
  simp only [Trapped, status_answer w hup htrap]
  exact ⟨fun hnext => hnext.elim hset' hwait', hlt⟩

/-- **Coming up.** After any lines, at any times, there are further ones that lead to
`COMMUNICATE`, if and only if none of them has reported another mode than 1 where the mode
was asked for. -/
theorem can_come_up_iff (config : IboxConfig) (is : List WifiInput) :
    Machine.CanReach fsmStep Up (Machine.last fsmStep (.initial config) is) ↔
      Machine.Along fsmStep (fun w i => ¬ ReportsOtherMode w i) (.initial config) is := by
  have hinit : ¬ Trapped (.initial config) := by
    rintro (h | h) <;> cases h
  rw [Machine.along_iff_not_trap trapped_step trapped_step_iff hinit]
  constructor
  · intro hreach htrap
    exact Machine.not_canReach_of_trap trapped_step not_up_of_trapped htrap hreach
  · exact canReach_up

/-- A module in the mode of an access point. -/
def accessPoint : List WifiInput := ["", "OK", "+CWMODE:2"].map onLine

/-- Whatever it answers to the change of its mode, it never comes up. -/
theorem access_point_never_up :
    ¬ Machine.CanReach fsmStep Up (Machine.last fsmStep (.initial .initial) accessPoint) := by
  have htrap : (Machine.last fsmStep (.initial .initial) accessPoint).status = .setMode := by
    decide +kernel
  exact Machine.not_canReach_of_trap trapped_step not_up_of_trapped (.inl htrap)

end IBoxClient
