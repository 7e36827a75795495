import IBoxClient.Lib.Patience
import IBoxClient.GprsFsm
import IBoxClient.WifiTrap

/- How long the two state machines wait for a module that does not answer.

   A state that waits sends its command once more, or goes to another state, when its
   timeout has run out; where the errors are counted, every sixth time it does nothing but
   take the time anew. That is the patience of `Lib.Patience`, with the timeout of the
   state. The WiFi machine is never silent for more than ten seconds, so it acts within
   every twelve.

   The timeouts of the GPRS machine are as short, save those of the three states
   that compare a difference of seconds with a number of ticks. In these it is silent until
   1000, or 200, seconds have passed: `bounded_silence_iff`. -/
namespace IBoxClient

open Patience

/-- A call that finds no line: what it reads from the clock, and what else it finds.
`txLen` is what the network thread has left in `wifi_tx_len`. -/
structure IdleCall where
  reading : Instant
  beyond : List UInt8
  txBuf : List UInt8
  txLen : Nat

def IdleCall.input (c : IdleCall) : WifiInput :=
  ⟨[], c.beyond, fun k => .ofNat (if k = 0 then c.reading.first else c.reading.second), c.txBuf⟩

def WifiOut.isCommand : WifiOut → Bool
  | .sendStr _ | .sendData _ => true
  | _ => false

/-- The calls take place in each of twelve consecutive seconds, at least. -/
def TwelveSeconds (cs : List IdleCall) : Prop :=
  Paced (cs.map (·.reading)) ∧
    ∃ c cs', cs = c :: cs' ∧ ∃ c' ∈ cs, c.reading.first + 11 ≤ c'.reading.first

section Acts
variable {σ τ : Type} (status : σ → τ) (step : σ → IdleCall → σ × List WifiOut)

/-- A call that sends a command or changes the state. -/
def Acts (s : σ) (c : IdleCall) : Prop :=
  (∃ out ∈ (step s c).2, out.isCommand = true) ∨ status (step s c).1 ≠ status s

/-- One of the calls acts. -/
def ActsWithin (s : σ) (cs : List IdleCall) : Prop :=
  ∃ pre c post, cs = pre ++ c :: post ∧ Acts status step (Machine.last step s pre) c

end Acts

/-! ## The WiFi machine -/

/-- A call of `esp8266_at_fsm` after the network thread has left a length. -/
def wifiCall (w : Wifi) (e : Nat × WifiInput) : WifiStep := esp8266AtFsm e.2 { w with txLen := e.1 }

def wifiIdle (w : Wifi) (c : IdleCall) : WifiStep := wifiCall w (c.txLen, c.input)

/-- The machine waits for a reply, or for the report of what it has sent. -/
def Wifi.Waits (w : Wifi) : Prop := ¬ (w.status = .communicate ∧ w.sendFlag = true)

/-- The timeout of a state, in seconds; some states do not wait. -/
def Esp8266Status.patience : Esp8266Status → Nat
  | .checkMode | .waitCheckMode => 2
  | .waitSetMode | .waitCloseEcho | .waitConnected | .getIp | .waitLinkServer => 3
  | .waitReset | .waitGotIp => 4
  | .getMac | .communicate => 5
  | _ => 0

/-- The next error is counted as one of the module. -/
def Wifi.once (w : Wifi) : Bool :=
  w.statusErrorCount + 1 > 5 && w.status != .getMac && w.status != .communicate

/-- In `WAIT_LINK_SERVER` no error has been counted, as each leads out of it. -/
def LinkCounted (w : Wifi) : Prop := w.status = .waitLinkServer → w.statusErrorCount = 0

/-- The result of a call sends a command or has another state. -/
def Wifi.ActsBy (w : Wifi) (step : WifiStep) : Prop :=
  (∃ out ∈ step.2, out.isCommand = true) ∨ step.1.status ≠ w.status

/-- What a call that does not act leaves behind. -/
inductive WifiStill (w : Wifi) (r : Instant) : Wifi → Prop where
  | early (h : ¬ Due w.status.patience w.timeout r) : WifiStill w r w
  | skip (h : w.once = true) (hlink : w.status ≠ .waitLinkServer) :
    WifiStill w r { w with
      timeout := .ofNat r.second
      errorCount := w.errorCount + 1
      statusErrorCount := 0 }

section Wifi
variable {w : Wifi} {c : IdleCall}

theorem due_iff {timer k : UInt32} : c.input.clock 0 - timer > k ↔ Due k.toNat timer c.reading :=
  UInt32.lt_iff_toNat_lt

/-- A state that waits for a reply in the common way. -/
theorem still_noReply (seconds : UInt32) (retry : Wifi → WifiStep)
    (hcall : esp8266AtFsm c.input w = w.noReply c.input.clock seconds retry)
    (hstatus : w.status.patience = seconds.toNat ∧ w.status ≠ .waitLinkServer ∧
      w.status ≠ .getMac ∧ w.status ≠ .communicate)
    (hretry : ∀ w', w.ActsBy (retry w')) (hquiet : ¬ w.ActsBy (esp8266AtFsm c.input w)) :
    WifiStill w c.reading (esp8266AtFsm c.input w).1 := by
  obtain ⟨hpatience, hlink, hmac, hcommunicate⟩ := hstatus
  rw [hcall] at hquiet ⊢
  obtain ⟨hdue, hnow⟩ | ⟨-, hcount, hnow⟩ | ⟨-, -, hnow⟩ :=
    w.noReply_cases c.input.clock seconds retry
  · rw [hnow]
    rw [due_iff, ← hpatience] at hdue
    exact .early hdue
  · rw [hnow]
    refine .skip ?_ hlink
    simp [Wifi.once, hcount, hmac, hcommunicate]
  · rw [hnow] at hquiet
    exact absurd (hretry _) hquiet

theorem actsBy_resend (command : String) (w' : Wifi) : w.ActsBy (resend command w') :=
  .inl ⟨_, List.mem_singleton_self _, rfl⟩

theorem actsBy_backTo {status : Esp8266Status} (h : status ≠ w.status) (w' : Wifi) :
    w.ActsBy (backTo status w') :=
  .inr h

theorem has_idle (c : IdleCall) (text : String) (htext : Bytes.ascii text ≠ []) :
    c.input.has text = false :=
  WifiInput.has_idle rfl htext

theorem find_idle (c : IdleCall) (text : String) (htext : Bytes.ascii text ≠ []) :
    c.input.find text = none :=
  WifiInput.find_idle rfl htext

theorem still_communicate (hflag : w.sendFlag = false) (hstatus : w.status = .communicate)
    (hquiet : ¬ w.ActsBy (communicate c.input w)) :
    WifiStill w c.reading (communicate c.input w).1 := by
  have hline : ¬ c.input.line ≠ [] := not_not_intro rfl
  simp only [communicate, hline, hflag, if_false, Bool.false_eq_true, and_false,
    not_false_eq_true, and_true] at hquiet ⊢
  by_cases hdue : c.input.clock 0 - w.timeout > 5
  · rw [if_pos hdue] at hquiet
    exact absurd (.inr (by rw [hstatus]; nofun)) hquiet
  · rw [if_neg hdue]
    refine .early ?_
    rw [due_iff] at hdue
    rw [hstatus]
    exact hdue

theorem still_getMac (hstatus : w.status = .getMac)
    (hquiet : ¬ w.ActsBy (esp8266AtFsm c.input w)) :
    WifiStill w c.reading (esp8266AtFsm c.input w).1 := by
  simp only [esp8266AtFsm, hstatus, has_idle c "+CIFSR:STAMAC," (by decide), Bool.false_eq_true,
    if_false] at hquiet ⊢
  by_cases hdue : c.input.clock 0 - w.timeout > 5
  · rw [if_pos hdue] at hquiet
    exact absurd (.inr (by rw [hstatus]; rintro ⟨⟩)) hquiet
  · rw [if_neg hdue]
    rw [due_iff] at hdue
    exact .early (by rw [hstatus]; exact hdue)

theorem still_waitLinkServer (hstatus : w.status = .waitLinkServer) (hcount : w.statusErrorCount = 0)
    (hquiet : ¬ w.ActsBy (esp8266AtFsm c.input w)) :
    WifiStill w c.reading (esp8266AtFsm c.input w).1 := by
  simp only [esp8266AtFsm, hstatus, hcount, has_idle c "ERROR" (by decide),
    has_idle c "CONNECT" (by decide), Bool.false_eq_true, if_false] at hquiet ⊢
  by_cases hdue : c.input.clock 0 - w.timeout > 3
  · rw [if_pos hdue, if_neg (by decide)] at hquiet
    exact absurd (.inr (by rw [hstatus]; rintro ⟨⟩)) hquiet
  · rw [if_neg hdue]
    rw [due_iff] at hdue
    exact .early (by rw [hstatus]; exact hdue)

/-- **A call** of the WiFi machine that does not act. -/
theorem still_step (hwaits : w.Waits) (hlink : LinkCounted w)
    (hquiet : ¬ w.ActsBy (esp8266AtFsm c.input w)) :
    WifiStill w c.reading (esp8266AtFsm c.input w).1 := by
  cases hstatus : w.status with
  | check | setMode | reset | wifiConnect | linkOk | restartConnectSever | connectServer =>
    refine absurd ?_ hquiet
    simp only [esp8266AtFsm, hstatus]
    exact .inr (by rw [hstatus]; rintro ⟨⟩)
  | communicate =>
    have hflag : w.sendFlag = false := by
      rw [Bool.eq_false_iff]
      exact fun h => hwaits ⟨hstatus, h⟩
    have hcall : esp8266AtFsm c.input w = communicate c.input w := by
      simp only [esp8266AtFsm, hstatus]
    rw [hcall] at hquiet ⊢
    exact still_communicate hflag hstatus hquiet
  | getMac => exact still_getMac hstatus hquiet
  | waitLinkServer => exact still_waitLinkServer hstatus (hlink hstatus) hquiet
  | checkMode =>
    refine still_noReply 2 (resend "ATE0\r\n") ?_ (by rw [hstatus]; decide)
      (fun w' => actsBy_resend _ w') hquiet
    simp only [esp8266AtFsm, hstatus, has_idle c "OK" (by decide),
      Bool.false_eq_true, if_false]
  | waitCheckMode =>
    refine still_noReply 2 (resend "AT+CWMODE?\r\n") ?_ (by rw [hstatus]; decide)
      (fun w' => actsBy_resend _ w') hquiet
    simp only [esp8266AtFsm, hstatus, find_idle c "+CWMODE:" (by decide)]
  | waitSetMode =>
    refine still_noReply 3 (resend "AT+CWMODE=1\r\n") ?_ (by rw [hstatus]; decide)
      (fun w' => actsBy_resend _ w') hquiet
    simp only [esp8266AtFsm, hstatus, has_idle c "OK" (by decide),
      Bool.false_eq_true, if_false]
  | waitReset =>
    refine still_noReply 4 (backTo .reset) ?_ (by rw [hstatus]; decide)
      (fun w' => actsBy_backTo (by rw [hstatus]; decide) w') hquiet
    simp only [esp8266AtFsm, hstatus, has_idle c "OK" (by decide),
      Bool.false_eq_true, if_false]
  | waitCloseEcho =>
    refine still_noReply 3 (resend "ATE0\r\n") ?_ (by rw [hstatus]; decide)
      (fun w' => actsBy_resend _ w') hquiet
    simp only [esp8266AtFsm, hstatus, has_idle c "OK" (by decide),
      Bool.false_eq_true, if_false]
  | waitConnected =>
    refine still_noReply 3 (backTo .wifiConnect) ?_ (by rw [hstatus]; decide)
      (fun w' => actsBy_backTo (by rw [hstatus]; decide) w') hquiet
    simp only [esp8266AtFsm, hstatus, has_idle c "WIFI CONNECTED" (by decide),
      Bool.false_eq_true, if_false]
  | waitGotIp =>
    refine still_noReply 4 (backTo .wifiConnect) ?_ (by rw [hstatus]; decide)
      (fun w' => actsBy_backTo (by rw [hstatus]; decide) w') hquiet
    simp only [esp8266AtFsm, hstatus, has_idle c "WIFI GOT IP" (by decide),
      Bool.false_eq_true, if_false]
  | getIp =>
    refine still_noReply 3 (backTo .linkOk) ?_ (by rw [hstatus]; decide)
      (fun w' => actsBy_backTo (by rw [hstatus]; decide) w') hquiet
    simp only [esp8266AtFsm, hstatus, has_idle c "+CIFSR:STAIP," (by decide),
      Bool.false_eq_true, if_false]

theorem linkCounted_of_ne (h : w.status ≠ .waitLinkServer) : LinkCounted w := fun h' => absurd h' h

theorem linkCounted_step (i : WifiInput) (h : LinkCounted w) :
    LinkCounted (esp8266AtFsm i w).1 := by
  intro hnext
  have hmem : .waitLinkServer ∈ successors w.status := hnext ▸ status_mem_successors i w
  have hdiagram : ∀ status, .waitLinkServer ∈ successors status →
      status = .connectServer ∨ status = .waitLinkServer := by
    intro status
    cases status <;> decide
  rcases hdiagram _ hmem with hstatus | hstatus
  · simp only [esp8266AtFsm, hstatus, Wifi.goto]
  · -- an error leads out of the state
    revert hnext
    simp only [esp8266AtFsm, hstatus, h hstatus]
    split
    · rintro ⟨⟩
    split
    · rintro ⟨⟩
    split
    · rw [if_neg (by decide)]
      rintro ⟨⟩
    · exact fun _ => h hstatus

end Wifi

/-- A silent run of the WiFi machine. -/
theorem wifi_waits {w : Wifi} {cs : List IdleCall} (hwaits : w.Waits) (hlink : LinkCounted w)
    (h : ¬ ActsWithin (·.status) wifiIdle w cs) :
    Patience.Waits w.status.patience w.once w.timeout (cs.map (·.reading)) := by
  have hstep : ∀ (w : Wifi) (c : IdleCall), w.Waits ∧ LinkCounted w →
      ¬ Acts (·.status) wifiIdle w c →
      ((wifiIdle w c).1.Waits ∧ LinkCounted (wifiIdle w c).1) ∧
        (wifiIdle w c).1.status.patience = w.status.patience ∧
        Still (fun w => w.status.patience) Wifi.once Wifi.timeout w (wifiIdle w c).1 c.reading := by
    intro w c h hquiet
    obtain ⟨hwaits, hlink⟩ := h
    have hstill := still_step (w := { w with txLen := c.txLen }) hwaits hlink hquiet
    generalize hnext : (esp8266AtFsm c.input { w with txLen := c.txLen }).1 = w' at hstill
    rw [show (wifiIdle w c).1 = w' from hnext]
    cases hstill with
    | early hdue => exact ⟨⟨hwaits, hlink⟩, rfl, .early hdue rfl rfl⟩
    | skip honce hne =>
      exact ⟨⟨hwaits, linkCounted_of_ne hne⟩, rfl, .skip honce rfl rfl⟩
  exact waits_of_still (·.reading) (·.status.patience) Wifi.once Wifi.timeout
    (I := fun w => w.Waits ∧ LinkCounted w) hstep ⟨hwaits, hlink⟩ (Machine.along_not_iff.mpr h)

theorem patience_le (status : Esp8266Status) : status.patience ≤ 5 := by
  cases status <;> decide

theorem patience_of_once {w : Wifi} (h : w.once = true) : w.status.patience ≤ 4 := by
  have hstatus : w.status ≠ .getMac ∧ w.status ≠ .communicate := by
    simp only [Wifi.once, Bool.and_eq_true, bne_iff_ne] at h
    exact ⟨h.1.2, h.2⟩
  revert hstatus
  cases w.status <;> decide

/-- Twelve seconds are too long for a wait of at most five with the action never put off, or
of at most four. -/
theorem not_waits_twelve {k : Nat} {once : Bool} {timer : UInt32} {cs : List IdleCall}
    (h : TwelveSeconds cs) (hk : k ≤ 5) (honce : once = true → k ≤ 4) :
    ¬ Patience.Waits k once timer (cs.map (·.reading)) := by
  obtain ⟨hpaced, c, cs', rfl, c', hmem, hlong⟩ := h
  intro hwaits
  rw [List.map_cons] at hpaced hwaits
  have hmem' : c'.reading ∈ c.reading :: cs'.map (·.reading) := List.mem_map_of_mem hmem
  cases once with
  | false =>
    have hbound := hwaits.first_add_age (by omega) hpaced _ hmem'
    omega
  | true =>
    have hfour := honce rfl
    have hbound := hwaits.first_le (by omega) hpaced _ hmem'
    omega

/-- The WiFi machine acts within twelve seconds. -/
theorem wifi_acts {w : Wifi} {cs : List IdleCall} (hwaits : w.Waits) (hlink : LinkCounted w)
    (h : TwelveSeconds cs) : ActsWithin (·.status) wifiIdle w cs := by
  by_contra hsilent
  exact not_waits_twelve h (patience_le _) patience_of_once (wifi_waits hwaits hlink hsilent)

/-! ## The GPRS machine -/

def gprsIdle (g : Gprs) (c : IdleCall) : GprsStep := gprsAtFsm c.input g

/-- The machine waits for a reply, or for the report of what it has sent. -/
def Gprs.Waits (g : Gprs) : Prop := ¬ (g.status = .communicate ∧ g.sendTimeoutFlag = false)

/-- The timeout of a state, in seconds. -/
def GprsStatus.patience : GprsStatus → Nat
  | .init | .setMisc | .checkCsq | .checkReg | .checkCgatt | .setApn | .setCiicr | .getIp => 2
  | .frameProc => 200
  | .tcpConnect | .rxProc => 1000
  | _ => 0

/-- The states with a timeout in ticks. -/
def GprsStatus.slow (status : GprsStatus) : Prop :=
  status = .tcpConnect ∨ status = .rxProc ∨ status = .frameProc

instance : DecidablePred GprsStatus.slow := fun _ => inferInstanceAs (Decidable (_ ∨ _))

/-- The next error is counted as one of the link. -/
def Gprs.once (g : Gprs) : Bool := g.statusErrorCount + 1 > 5

/-- Nothing has been sent, as nothing is to be. -/
def NothingSent (g : Gprs) : Prop := g.txCounter = 0 ∧ g.sendTimeoutFlag = false

theorem nothingSent_step (g : Gprs) (i : GprsInput) (h : NothingSent g) :
    NothingSent (gprsStep g i).1 := by
  have hcan := gprs_can i g
  refine ⟨hcan.counter.elim (fun heq => heq.trans h.1) id, ?_⟩
  rw [Bool.eq_false_iff]
  intro hflag
  rcases hcan.unanswered hflag with hflag | hcounter
  · exact Bool.false_ne_true (h.2.symm.trans hflag)
  · exact hcounter h.1

/-- The result of a call sends a command or has another state. -/
def Gprs.ActsBy (g : Gprs) (step : GprsStep) : Prop :=
  (∃ out ∈ step.2, out.isCommand = true) ∨ step.1.status ≠ g.status

/-- What a call that does not act leaves behind. -/
inductive GprsStill (g : Gprs) (r : Instant) : Gprs → Prop where
  | early (h : ¬ Due g.status.patience g.timeout r) : GprsStill g r g
  | skip (h : g.once = true) :
    GprsStill g r { g with
      timeout := .ofNat r.second
      linkErrorCount := g.linkErrorCount + 1
      statusErrorCount := 0 }

section Gprs
variable {g : Gprs} {c : IdleCall}

/-- A state that waits for a reply in the common way. -/
theorem gprs_still_noReply (command : List UInt8)
    (hcall : gprsAtFsm c.input g = g.noReply c.input.clock command)
    (hpatience : g.status.patience = 2) (hquiet : ¬ g.ActsBy (gprsAtFsm c.input g)) :
    GprsStill g c.reading (gprsAtFsm c.input g).1 := by
  rw [hcall] at hquiet ⊢
  unfold Gprs.noReply at hquiet ⊢
  by_cases hdue : c.input.clock 0 - g.timeout > 2
  · simp only [hdue, if_true] at hquiet ⊢
    by_cases hcount : g.statusErrorCount + 1 > 5
    · rw [if_pos hcount]
      exact .skip (decide_eq_true hcount)
    · rw [if_neg hcount] at hquiet
      exact absurd (.inl ⟨_, List.mem_singleton_self _, rfl⟩) hquiet
  · simp only [hdue, if_false]
    rw [due_iff] at hdue
    refine .early ?_
    rw [hpatience]
    exact hdue

/-- **A call** of the GPRS machine that does not act, in a state whose timeout is in
seconds. -/
theorem gprs_still_step (hwaits : g.Waits) (hsent : NothingSent g) (hfast : ¬ g.status.slow)
    (hquiet : ¬ g.ActsBy (gprsAtFsm c.input g)) :
    GprsStill g c.reading (gprsAtFsm c.input g).1 := by
  cases hstatus : g.status with
  | communicate => exact absurd ⟨hstatus, hsent.2⟩ hwaits
  | tcpConnect | rxProc | frameProc =>
    rw [hstatus] at hfast
    exact absurd (by decide) hfast
  | check | restartTcp | startTcp =>
    refine absurd ?_ hquiet
    simp only [gprsAtFsm, hstatus]
    exact .inr (by rw [hstatus]; rintro ⟨⟩)
  | init =>
    refine gprs_still_noReply (Bytes.ascii "AT\r\n") ?_ (by rw [hstatus]; decide) hquiet
    simp only [gprsAtFsm, hstatus, has_idle c "OK" (by decide),
      Bool.false_eq_true, if_false]
  | setMisc =>
    refine gprs_still_noReply (Bytes.ascii "AT+CPIN?\r\n") ?_ (by rw [hstatus]; decide) hquiet
    simp only [gprsAtFsm, hstatus, has_idle c "READY" (by decide),
      Bool.false_eq_true, if_false]
  | checkCsq =>
    refine gprs_still_noReply (Bytes.ascii "AT+CSQ\r\n") ?_ (by rw [hstatus]; decide) hquiet
    simp only [gprsAtFsm, hstatus, find_idle c "+CSQ:" (by decide)]
  | checkReg =>
    refine gprs_still_noReply (Bytes.ascii "AT+CREG?\r\n") ?_ (by rw [hstatus]; decide) hquiet
    simp only [gprsAtFsm, hstatus, find_idle c "+CREG:" (by decide)]
  | checkCgatt =>
    refine gprs_still_noReply (Bytes.ascii "AT+CGATT?\r\n") ?_ (by rw [hstatus]; decide) hquiet
    simp only [gprsAtFsm, hstatus, has_idle c "+CGATT: 1" (by decide),
      Bool.false_eq_true, if_false]
  | setApn =>
    refine gprs_still_noReply (g.apnCommand) ?_ (by rw [hstatus]; decide) hquiet
    simp only [gprsAtFsm, hstatus, has_idle c "OK" (by decide),
      has_idle c "ERROR" (by decide),
      Bool.false_eq_true, if_false]
  | setCiicr =>
    refine gprs_still_noReply (Bytes.ascii "AT+CIICR\r\n") ?_ (by rw [hstatus]; decide) hquiet
    simp only [gprsAtFsm, hstatus, has_idle c "OK" (by decide),
      has_idle c "ERROR" (by decide),
      Bool.false_eq_true, if_false]
  | getIp =>
    refine gprs_still_noReply (Bytes.ascii "AT+CIFSR\r\n") ?_ (by rw [hstatus]; decide) hquiet
    simp only [gprsAtFsm, hstatus, has_idle c "." (by decide),
      has_idle c "ERROR" (by decide),
      Bool.false_eq_true, if_false]

theorem slow_of_test (g' : Gprs) (ticks : UInt32)
    (hcall : gprsAtFsm c.input g =
      if c.input.clock 0 - g.timeout > ticks then (g', []) else (g, []))
    (hticks : ticks.toNat = g.status.patience) (hne : g'.status ≠ g.status) :
    (Due g.status.patience g.timeout c.reading → g.ActsBy (gprsAtFsm c.input g)) ∧
      (¬ Due g.status.patience g.timeout c.reading → gprsAtFsm c.input g = (g, [])) := by
  rw [hcall, ← hticks, ← due_iff]
  constructor
  · intro h
    rw [if_pos h]
    exact .inr hne
  · intro h
    rw [if_neg h]

/-- A call in a state whose timeout is in ticks. -/
theorem slow_call (hslow : g.status.slow) :
    (Due g.status.patience g.timeout c.reading → g.ActsBy (gprsAtFsm c.input g)) ∧
      (¬ Due g.status.patience g.timeout c.reading → gprsAtFsm c.input g = (g, [])) := by
  rcases hslow with hstatus | hstatus | hstatus
  · refine slow_of_test { g with tcpErrorCount := g.tcpErrorCount + 1, status := .init }
      (rtTickPerSecond * 10) ?_ (by rw [hstatus]; rfl) (by rw [hstatus]; rintro ⟨⟩)
    simp only [gprsAtFsm, hstatus, gprsTcpConnect, has_idle c "CONNECT OK" (by decide),
      has_idle c "ALREADY CONNECT" (by decide), has_idle c "CONNECT FAIL" (by decide),
      Bool.false_eq_true, or_self, if_false]
    split
    · rfl
    · rfl
  · refine slow_of_test { g with status := .restartTcp } (rtTickPerSecond * 10) ?_
      (by rw [hstatus]; rfl) (by rw [hstatus]; rintro ⟨⟩)
    simp only [gprsAtFsm, hstatus, find_idle c "+CIPRXGET: 3" (by decide)]
  · refine slow_of_test { g with status := .communicate } (rtTickPerSecond * 2) ?_
      (by rw [hstatus]; rfl) (by rw [hstatus]; rintro ⟨⟩)
    simp only [gprsAtFsm, hstatus]
    exact if_neg (not_not_intro rfl)

end Gprs

/-- In a state with a timeout in ticks the machine acts when it has run out, and not
before. -/
theorem slow_acts_iff {g : Gprs} (hslow : g.status.slow) (cs : List IdleCall) :
    ActsWithin (·.status) gprsIdle g cs ↔
      ∃ c ∈ cs, Due g.status.patience g.timeout c.reading := by
  induction cs with
  | nil =>
    constructor
    · intro h
      obtain ⟨pre, c, post, hcs, -⟩ := h
      exact absurd hcs.symm (by simp)
    · intro h
      obtain ⟨c, hc, -⟩ := h
      exact absurd hc List.not_mem_nil
  | cons c cs ih =>
    obtain ⟨hacts, hstays⟩ := slow_call (c := c) hslow
    by_cases hdue : Due g.status.patience g.timeout c.reading
    · exact iff_of_true ⟨[], c, cs, rfl, hacts hdue⟩ ⟨c, List.mem_cons_self .., hdue⟩
    · have hcall : gprsIdle g c = (g, []) := hstays hdue
      rw [List.exists_mem_cons_iff, or_iff_right hdue, ← ih]
      constructor
      · intro h
        obtain ⟨pre, c', post, hcs, hact⟩ := h
        cases pre with
        | nil =>
          cases hcs
          rw [Machine.last_nil, Acts, hcall] at hact
          exact absurd hact (by simp)
        | cons b pre =>
          cases hcs
          rw [Machine.last_cons, hcall] at hact
          exact ⟨pre, c', post, rfl, hact⟩
      · intro h
        obtain ⟨pre, c', post, rfl, hact⟩ := h
        refine ⟨c :: pre, c', post, rfl, ?_⟩
        rw [Machine.last_cons, hcall]
        exact hact

/-- A silent run of the GPRS machine from a state with a timeout in seconds. -/
theorem gprs_waits {g : Gprs} {cs : List IdleCall} (hwaits : g.Waits) (hsent : NothingSent g)
    (hfast : ¬ g.status.slow) (h : ¬ ActsWithin (·.status) gprsIdle g cs) :
    Patience.Waits g.status.patience g.once g.timeout (cs.map (·.reading)) := by
  have hstep : ∀ (g : Gprs) (c : IdleCall), g.Waits ∧ NothingSent g ∧ ¬ g.status.slow →
      ¬ Acts (·.status) gprsIdle g c →
      ((gprsIdle g c).1.Waits ∧ NothingSent (gprsIdle g c).1 ∧ ¬ (gprsIdle g c).1.status.slow) ∧
        (gprsIdle g c).1.status.patience = g.status.patience ∧
        Still (fun g => g.status.patience) Gprs.once Gprs.timeout g (gprsIdle g c).1 c.reading := by
    intro g c h hquiet
    obtain ⟨hwaits, hsent, hfast⟩ := h
    have hstill := gprs_still_step hwaits hsent hfast hquiet
    generalize hnext : (gprsAtFsm c.input g).1 = g' at hstill
    rw [show (gprsIdle g c).1 = g' from hnext]
    cases hstill with
    | early hdue => exact ⟨⟨hwaits, hsent, hfast⟩, rfl, .early hdue rfl rfl⟩
    | skip honce => exact ⟨⟨hwaits, hsent, hfast⟩, rfl, .skip honce rfl rfl⟩
  exact waits_of_still (·.reading) (·.status.patience) Gprs.once Gprs.timeout
    (I := fun g => g.Waits ∧ NothingSent g ∧ ¬ g.status.slow) hstep ⟨hwaits, hsent, hfast⟩
    (Machine.along_not_iff.mpr h)

theorem gprs_patience_le {status : GprsStatus} (h : ¬ status.slow) : status.patience ≤ 2 := by
  revert h
  cases status <;> decide

/-- **Silence.** From every reachable state that waits, and with calls in twelve consecutive
seconds that find no line: the WiFi machine acts. The GPRS machine acts if and only if it is
not in a state with a timeout in ticks, or this timeout has run out at one of the calls. -/
theorem bounded_silence_iff {cs : List IdleCall} (h : TwelveSeconds cs) (config : IboxConfig)
    (es : List (Nat × WifiInput)) (is : List GprsInput) :
    ((Machine.last wifiCall (.initial config) es).Waits →
      ActsWithin (·.status) wifiIdle (Machine.last wifiCall (.initial config) es) cs) ∧
    ((Machine.last gprsStep (.initial config) is).Waits →
      let g := Machine.last gprsStep (.initial config) is
      (ActsWithin (·.status) gprsIdle g cs ↔
        (g.status.slow → ∃ c ∈ cs, Due g.status.patience g.timeout c.reading))) := by
  constructor
  · intro hwaits
    have hlink : LinkCounted (Machine.last wifiCall (.initial config) es) :=
      Machine.run_invariant (fun w e h => linkCounted_step e.2 (w := { w with txLen := e.1 }) h)
        (linkCounted_of_ne (by decide : Esp8266Status.check ≠ .waitLinkServer)) es
    exact wifi_acts hwaits hlink h
  · intro hwaits g
    have hsent : NothingSent g := Machine.run_invariant nothingSent_step ⟨rfl, rfl⟩ is
    by_cases hslow : g.status.slow
    · rw [slow_acts_iff hslow]
      exact ⟨fun h _ => h, fun h => h hslow⟩
    · refine iff_of_true ?_ fun h => absurd h hslow
      by_contra hsilent
      have hle : g.status.patience ≤ 2 := gprs_patience_le hslow
      exact not_waits_twelve h (Nat.le_trans hle (by decide)) (fun _ => Nat.le_trans hle (by decide))
        (gprs_waits hwaits hsent hslow hsilent)

/-! A call in each of the first twelve seconds. -/

def secondlyCalls : List IdleCall := (List.range 12).map fun n => ⟨⟨n, n⟩, [], [], 0⟩

theorem twelveSeconds_secondlyCalls : TwelveSeconds secondlyCalls := by
  refine ⟨by decide, _, _, rfl, ⟨⟨11, 11⟩, [], [], 0⟩, ?_, by decide⟩
  exact List.mem_map_of_mem (List.mem_range.mpr (by decide : 11 < 12))

theorem bounded_silence_secondly :
    ((Machine.last wifiCall (.initial .initial) []).Waits →
      ActsWithin (·.status) wifiIdle (Machine.last wifiCall (.initial .initial) [])
        secondlyCalls) ∧
    ((Machine.last gprsStep (.initial .initial) []).Waits →
      let g := Machine.last gprsStep (.initial .initial) []
      (ActsWithin (·.status) gprsIdle g secondlyCalls ↔
        (g.status.slow → ∃ c ∈ secondlyCalls, Due g.status.patience g.timeout c.reading))) :=
  bounded_silence_iff twelveSeconds_secondlyCalls .initial [] []

/-- The module has been told to connect to the server. -/
def gprsConnecting : Gprs :=
  Machine.last gprsStep (.initial .initial) (gprsReplies.map (⟨·, [], fun _ => 0, []⟩))

/-- It does not answer, and the machine neither sends a command nor changes its state. -/
theorem connecting_silent :
    gprsConnecting.status = .tcpConnect ∧ gprsConnecting.Waits ∧ TwelveSeconds secondlyCalls ∧
      ¬ ActsWithin (·.status) gprsIdle gprsConnecting secondlyCalls := by
  have hstatus : gprsConnecting.status = .tcpConnect := by decide +kernel
  have htimeout : gprsConnecting.timeout = 0 := by decide +kernel
  refine ⟨hstatus, fun h => ?_, twelveSeconds_secondlyCalls, ?_⟩
  · rw [hstatus] at h
    nomatch h.1
  · rw [slow_acts_iff (.inl hstatus), hstatus, htimeout]
    decide +kernel

end IBoxClient
