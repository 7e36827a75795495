import IBoxClient.Lib.Endless
import IBoxClient.WifiFallback

/- The retries of the WiFi module.

   Four times a command is sent in one state and its answer awaited in the next one. When
   the answer has not come in time, an error is counted in `wifi_status_error_count`, and
   the command is sent once more; after the sixth error one is counted in
   `wifi_error_count` instead, for the module to be started anew.

   The state that sends the command, however, sets the count back to 0. So there is never
   more than one error, and the module is tried for ever: `never_escalates`. -/
namespace IBoxClient

/-- A command and the wait for its answer. -/
inductive RetryPhase where
  | reset
  | wifiConnect
  | linkOk
  | connectServer

namespace RetryPhase

/-- The state that sends the command. -/
def command : RetryPhase → Esp8266Status
  | reset => .reset
  | wifiConnect => .wifiConnect
  | linkOk => .linkOk
  | connectServer => .connectServer

/-- The state that waits for the answer. -/
def wait : RetryPhase → Esp8266Status
  | reset => .waitReset
  | wifiConnect => .waitConnected
  | linkOk => .getIp
  | connectServer => .waitLinkServer

/-- How long it waits. -/
def seconds : RetryPhase → UInt32
  | reset => 4
  | _ => 3

/-- What it waits for. -/
def awaited : RetryPhase → String
  | reset => "OK"
  | wifiConnect => "WIFI CONNECTED"
  | linkOk => "+CIFSR:STAIP,"
  | connectServer => "CONNECT"

end RetryPhase

/-- The machine is in the phase. -/
def InPhase (p : RetryPhase) (w : Wifi) : Prop := w.status = p.command ∨ w.status = p.wait

instance (p : RetryPhase) (w : Wifi) : Decidable (InPhase p w) :=
  inferInstanceAs (Decidable (w.status = p.command ∨ w.status = p.wait))

/-- A call that enters the phase. -/
def Enters (p : RetryPhase) (w : Wifi) (e : Nat × WifiInput) : Prop :=
  ¬ InPhase p w ∧ InPhase p (wifiCall w e).1

/-- The line has neither the text that is awaited nor `ERROR`. -/
def Unanswered (p : RetryPhase) (e : Nat × WifiInput) : Prop :=
  e.2.has p.awaited = false ∧ e.2.has "ERROR" = false

/-- The clock advances: whatever it has shown, again and again it is more than four
seconds later. -/
def Advances (es : Nat → Nat × WifiInput) : Prop :=
  ∀ shown, Machine.Recurs fun n => (es n).2.clock 0 - shown > 4

/-- A timeout of the phase. -/
def TimesOut (p : RetryPhase) (w : Wifi) (e : Nat × WifiInput) : Prop :=
  w.status = p.wait ∧ e.2.clock 0 - w.timeout > p.seconds

instance (p : RetryPhase) (w : Wifi) (e : Nat × WifiInput) : Decidable (TimesOut p w e) :=
  inferInstanceAs (Decidable (w.status = p.wait ∧ e.2.clock 0 - w.timeout > p.seconds))

/-- The timeouts among the first calls of an endless run. -/
def timeouts (p : RetryPhase) (w : Wifi) (es : Nat → Nat × WifiInput) (n : Nat) : Nat :=
  Nat.count (fun k => TimesOut p (Machine.trace wifiCall w es k) (es k)) n

/-- Among any seven consecutive timeouts `wifi_error_count` is incremented. -/
def Escalates (p : RetryPhase) (w : Wifi) (es : Nat → Nat × WifiInput) : Prop :=
  ∀ m n, timeouts p w es m + 7 ≤ timeouts p w es n →
    ∃ k, m ≤ k ∧ k < n ∧ (Machine.trace wifiCall w es (k + 1)).errorCount =
      (Machine.trace wifiCall w es k).errorCount + 1

/-! ## The cycle -/

/-- The invariant: no error is counted where an answer is awaited, and none has been
counted for the module. -/
structure Cycling (p : RetryPhase) (errors : UInt8) (w : Wifi) : Prop where
  inPhase : InPhase p w
  uncounted : w.status = p.wait → w.statusErrorCount = 0
  errors : w.errorCount = errors

section Step
variable {p : RetryPhase} {errors : UInt8} {w : Wifi} {e : Nat × WifiInput}

theorem RetryPhase.command_ne_wait : p.command ≠ p.wait := by
  cases p <;> decide

/-- A phase is entered at its command. -/
theorem command_of_enters (h : Enters p w e) : (wifiCall w e).1.status = p.command := by
  obtain ⟨hout, hin⟩ := h
  rcases hin with hcommand | hwait
  · exact hcommand
  · have hmem : p.wait ∈ successors w.status :=
      hwait ▸ status_mem_successors e.2 { w with txLen := e.1 }
    have hdiagram : ∀ status, p.wait ∈ successors status → status = p.command ∨ status = p.wait := by
      intro status
      cases p <;> cases status <;> decide
    exact absurd (hdiagram _ hmem) hout

/-- The command is sent. -/
theorem command_step (h : w.status = p.command) :
    (wifiCall w e).1.status = p.wait ∧ (wifiCall w e).1.statusErrorCount = 0 ∧
      (wifiCall w e).1.errorCount = w.errorCount := by
  cases p with
  | reset | wifiConnect | linkOk | connectServer =>
    simp only [RetryPhase.command] at h
    simp only [wifiCall, esp8266AtFsm, h]
    exact ⟨rfl, rfl, rfl⟩

/-- The answer has not come. The error is the first one, so the command is sent again. -/
theorem wait_step (h : w.status = p.wait) (hzero : w.statusErrorCount = 0)
    (hanswer : Unanswered p e) :
    (wifiCall w e).1 =
      if e.2.clock 0 - w.timeout > p.seconds then
        { w with
          txLen := e.1
          timeout := e.2.clock 1
          statusErrorCount := 1
          status := p.command }
      else { w with txLen := e.1 } := by
  obtain ⟨hawaited, herror⟩ := hanswer
  have hfirst : ¬ (0 : UInt8) + 1 > 5 := by decide
  cases p with
  | reset | wifiConnect | linkOk =>
    simp only [RetryPhase.wait, RetryPhase.awaited] at h hawaited
    simp only [wifiCall, esp8266AtFsm, h, hawaited, Bool.false_eq_true, if_false, Wifi.noReply,
      hzero, hfirst, backTo, RetryPhase.seconds]
    split
    · rfl
    · rfl
  | connectServer =>
    simp only [RetryPhase.wait, RetryPhase.awaited] at h hawaited
    simp only [wifiCall, esp8266AtFsm, h, hawaited, herror, Bool.false_eq_true, if_false,
      hzero, hfirst, RetryPhase.seconds]
    split
    · rfl
    · rfl

theorem cycling_step (h : Cycling p errors w) (hanswer : Unanswered p e) :
    Cycling p errors (wifiCall w e).1 := by
  obtain ⟨hin, huncounted, herrors⟩ := h
  rcases hin with hcommand | hwait
  · obtain ⟨hstatus, hzero, hsame⟩ := command_step (e := e) hcommand
    exact ⟨.inr hstatus, fun _ => hzero, hsame.trans herrors⟩
  · rw [wait_step hwait (huncounted hwait) hanswer]
    split
    · exact ⟨.inl rfl, fun h => absurd h RetryPhase.command_ne_wait, herrors⟩
    · exact ⟨.inr hwait, huncounted, herrors⟩

end Step

section Run
variable {p : RetryPhase} {w : Wifi} {es : Nat → Nat × WifiInput}

theorem cycling_of_command (h : w.status = p.command) : Cycling p w.errorCount w where
  inPhase := .inl h
  uncounted := fun hwait => absurd (h.symm.trans hwait) RetryPhase.command_ne_wait
  errors := rfl

/-- There are any number of timeouts. -/
theorem exists_timeouts_eq (h : w.status = p.command) (hanswer : ∀ n, Unanswered p (es n))
    (hclock : Advances es) (k : Nat) : ∃ n, timeouts p w es n = k := by
  have hseconds : p.seconds ≤ 4 := by
    cases p <;> decide
  refine Machine.Recurs.exists_count_eq ?_ k
  apply Machine.recurs_of_alarm (I := Cycling p w.errorCount) (W := fun w => w.status = p.wait)
    (D := fun w (e : Nat × WifiInput) => e.2.clock 0 - w.timeout > p.seconds)
  · exact fun w n hw => cycling_step hw (hanswer n)
  · intro w n hw hnot
    exact (command_step (hw.inPhase.resolve_right hnot)).1
  · intro w n hw hwait hdue
    rw [wait_step hwait (hw.uncounted hwait) (hanswer n), if_neg hdue]
    exact ⟨hwait, fun e he => he⟩
  · intro w _ n
    obtain ⟨m, hm, hlate⟩ := hclock w.timeout n
    exact ⟨m, hm, UInt32.lt_of_le_of_lt hseconds hlate⟩
  · exact cycling_of_command h

/-- From the command on, an error of the module is never counted. -/
theorem not_escalates (h : w.status = p.command) (hanswer : ∀ n, Unanswered p (es n))
    (hclock : Advances es) : ¬ Escalates p w es := by
  intro hescalates
  have herrors : ∀ n, (Machine.trace wifiCall w es n).errorCount = w.errorCount := fun n =>
    (Machine.trace_invariant (fun _ n hw => cycling_step hw (hanswer n))
      (cycling_of_command h) n).errors
  obtain ⟨n, hn⟩ := exists_timeouts_eq h hanswer hclock 7
  obtain ⟨k, -, -, hk⟩ := hescalates 0 n (by rw [hn]; exact Nat.le_refl _)
  rw [herrors, herrors] at hk
  exact absurd hk (by grind)

/-- **Escalation.** In no phase, however it is entered, does the counting of errors
come to the module, while the clock advances and no answer comes. -/
theorem never_escalates {e : Nat × WifiInput} (henters : Enters p w e)
    (hanswer : ∀ n, Unanswered p (es n)) (hclock : Advances es) :
    ¬ Escalates p (wifiCall w e).1 es :=
  not_escalates (command_of_enters henters) hanswer hclock

end Run

/-! ## A module that is silent -/

/-- A call every ten seconds, without a line. -/
def silence (n : Nat) : Nat × WifiInput := (0, ⟨[], [], fun _ => .ofNat (10 * n), []⟩)

theorem silence_unanswered (p : RetryPhase) (n : Nat) : Unanswered p (silence n) := by
  have hawaited : Bytes.ascii p.awaited ≠ [] := by
    cases p <;> decide
  exact ⟨WifiInput.has_idle rfl hawaited, WifiInput.has_idle rfl (by decide)⟩

theorem silence_advances : Advances silence := by
  intro shown n
  by_cases hlate : UInt32.ofNat (10 * n) - shown > 4
  · exact ⟨n, Nat.le_refl n, hlate⟩
  · -- then it is ten seconds later
    refine ⟨n + 1, Nat.le_succ n, ?_⟩
    have hnext : UInt32.ofNat (10 * (n + 1)) = UInt32.ofNat (10 * n) + 10 := by
      rw [Nat.mul_succ, UInt32.ofNat_add]
      rfl
    simp only [silence, hnext]
    grind

/-- The module reports its mode, and then nothing more. -/
theorem never_escalates_getIp :
    let w := Machine.last wifiCall (.initial .initial) [reply "", reply "OK"]
    ¬ Escalates .linkOk (wifiCall w (reply "+CWMODE:1")).1 silence :=
  never_escalates (by unfold Enters; decide +kernel) (silence_unanswered .linkOk) silence_advances

/-- The server is called, and there is no answer any more. -/
theorem server_never_escalates :
    let w := Machine.last wifiCall (.initial .initial) joined.dropLast
    let e := reply "+CIFSR:STAMAC,\"5c:cf:7f:00:00:01\""
    Enters .connectServer w e ∧ (∀ n, Unanswered .connectServer (silence n)) ∧
      Advances silence ∧ ¬ Escalates .connectServer (wifiCall w e).1 silence := by
  intro w e
  have hunanswered := silence_unanswered .connectServer
  refine ⟨?_, hunanswered, silence_advances, ?_⟩
  · unfold Enters
    decide +kernel
  · exact not_escalates (by decide +kernel) hunanswered silence_advances

end IBoxClient
