import IBoxClient.WifiLink

/- Two runs, in one of which the clock is set.

   `get_sys_time_s` reads the counter that `RTC_SetCounter` sets, and so do the timeouts. When
   the counter is set to `v`, all the readings that follow differ from what they would have been
   by `v` less the counter: the clock jumps by `δ`. A timer that is taken after that jumps with
   it, and the test of its timeout comes out as before. But a timer that has been taken before
   is tested with readings of another clock: there the test comes out the same only if the jump
   does not matter (`timeout_same`).

   Here the two runs are those of the wireless thread. `WirelessEvent.jump` gives a call the
   readings of the clock that has been set. -/
namespace IBoxClient

/-- A timer in the two runs. It is the same, or it has been taken after the clock was set. -/
def TimerBeside (δ : UInt32) (set : Prop) (timer timer' : UInt32) : Prop :=
  timer' = timer ∨ set ∧ timer' = timer + δ

/-- A reading of the clock in the two runs. The clock was set before `set` came true, and may
have been set when it is read. -/
def ReadingBeside (δ : UInt32) (set : Prop) (now now' : UInt32) : Prop :=
  now' = now ∧ (set → δ = 0) ∨ now' = now + δ

/-- A timer that is the same in the two runs is over in both or in none. -/
def Unmoved (limit timer timer' now now' : UInt32) : Prop :=
  timer' = timer → (now - timer > limit ↔ now' - timer > limit)

/-- A timeout is tested alike in the two runs. -/
theorem timeout_same {δ timer timer' now now' limit : UInt32} {set : Prop}
    (htimer : TimerBeside δ set timer timer') (hread : ReadingBeside δ set now now')
    (hunmoved : Unmoved limit timer timer' now now') :
    now - timer > limit ↔ now' - timer' > limit := by
  rcases htimer with rfl | ⟨hset, rfl⟩
  · exact hunmoved rfl
  · rcases hread with ⟨rfl, hzero⟩ | rfl
    · rw [hzero hset, UInt32.add_zero]
    · have hsame : now + δ - (timer + δ) = now - timer := by grind
      rw [hsame]

/-- A test of a timeout. -/
structure TimeoutTest where
  now : UInt32
  timer : UInt32
  limit : UInt32

/-- The tests that the two runs make, if they make any, come out the same if they are of the
same timer. -/
def TestsUnmoved (test test' : Option TimeoutTest) : Prop :=
  ∀ t ∈ test, ∀ t' ∈ test', Unmoved t.limit t.timer t'.timer t.now t'.now

instance (limit timer timer' now now' : UInt32) : Decidable (Unmoved limit timer timer' now now') :=
  inferInstanceAs (Decidable (_ → _))

instance (test test' : Option TimeoutTest) : Decidable (TestsUnmoved test test') :=
  inferInstanceAs (Decidable (∀ t ∈ test, ∀ t' ∈ test', _))

/-! ## The calls of the state machine -/

/-- The readings of a clock that jumps after `n` of them. -/
def jumpClock (δ : UInt32) (n : Nat) (clock : Nat → UInt32) (k : Nat) : UInt32 :=
  if k < n then clock k else clock k + δ

def WifiInput.jump (δ : UInt32) (n : Nat) (i : WifiInput) : WifiInput :=
  { i with clock := jumpClock δ n i.clock }

/-- The words that a state waits for, and its timeout. -/
def Esp8266Status.waitsFor : Esp8266Status → Option (List String × UInt32)
  | .checkMode => some (["OK"], 2)
  | .waitCheckMode => some (["+CWMODE:"], 2)
  | .waitSetMode | .waitCloseEcho => some (["OK"], 3)
  | .waitReset => some (["OK"], 4)
  | .waitConnected => some (["WIFI CONNECTED"], 3)
  | .waitGotIp => some (["WIFI GOT IP"], 4)
  | .getIp => some (["+CIFSR:STAIP,"], 3)
  | .getMac => some (["+CIFSR:STAMAC,"], 5)
  | .waitLinkServer => some (["ERROR", "CONNECT"], 3)
  | _ => none

/-- The test of a timeout that a call makes. -/
def WifiInput.timeoutTest (i : WifiInput) (w : Wifi) : Option TimeoutTest :=
  match w.status.waitsFor with
  | some (words, limit) => if words.any i.has then none else some ⟨i.clock 0, w.timeout, limit⟩
  | none =>
    if w.status ≠ .communicate ∨ i.line ≠ [] then none
    -- the timer that the sending takes is tested in the same call
    else if w.txLen ≠ 0 ∧ w.sendFlag then some ⟨i.clock 1, i.clock 0, 5⟩
    else if w.sendFlag then none
    else some ⟨i.clock 0, w.timeout, 5⟩

/-- The variables with another timer. -/
def Wifi.timed (w : Wifi) (timer : UInt32) : Wifi := { w with timeout := timer }

@[simp] theorem Wifi.timed_status (w : Wifi) (timer : UInt32) : (w.timed timer).status = w.status :=
  rfl

@[simp] theorem Wifi.timed_timeout (w : Wifi) (timer : UInt32) : (w.timed timer).timeout = timer :=
  rfl

/-- The results of the two calls: the same, but for the timer. -/
def StepBeside (δ : UInt32) (step step' : WifiStep) : Prop :=
  ∃ timer, step' = (step.1.timed timer, step.2) ∧ TimerBeside δ True step.1.timeout timer

@[simp] theorem jump_find (δ : UInt32) (n : Nat) (i : WifiInput) (text : String) :
    (i.jump δ n).find text = i.find text := rfl

section Calls
variable {δ : UInt32} {n : Nat} {i : WifiInput} {w : Wifi} {timer : UInt32}

theorem reading_jump (δ : UInt32) (n : Nat) (i : WifiInput) (k : Nat) :
    ReadingBeside δ (n = 0) (i.clock k) ((i.jump δ n).clock k) := by
  show ReadingBeside δ (n = 0) (i.clock k) (jumpClock δ n i.clock k)
  unfold jumpClock
  split
  · exact .inl ⟨rfl, fun h => by omega⟩
  · exact .inr rfl

/-- A timer that is taken in the call. -/
theorem timer_jump (δ : UInt32) (n : Nat) (i : WifiInput) (k : Nat) :
    TimerBeside δ True (i.clock k) ((i.jump δ n).clock k) := by
  show TimerBeside δ True (i.clock k) (jumpClock δ n i.clock k)
  unfold jumpClock
  split
  · exact .inl rfl
  · exact .inr ⟨trivial, rfl⟩

/-- A timer that is taken with the first reading has jumped only if the clock was set before. -/
theorem timer_first (δ : UInt32) (n : Nat) (i : WifiInput) :
    TimerBeside δ (n = 0) (i.clock 0) ((i.jump δ n).clock 0) := by
  show TimerBeside δ (n = 0) (i.clock 0) (jumpClock δ n i.clock 0)
  unfold jumpClock
  split
  · exact .inl rfl
  · exact .inr ⟨by omega, rfl⟩

theorem TimerBeside.mono {set set' : Prop} {timer' : UInt32} (h : TimerBeside δ set timer timer')
    (hset : set → set') : TimerBeside δ set' timer timer' := by
  rcases h with h | ⟨hjumped, h⟩
  · exact .inl h
  · exact .inr ⟨hset hjumped, h⟩

theorem TimerBeside.later {set : Prop} {timer' : UInt32} (h : TimerBeside δ set timer timer') :
    TimerBeside δ True timer timer' :=
  h.mono fun _ => trivial

/-- A branch that both calls take. -/
theorem StepBeside.ite {c c' : Prop} [Decidable c] [Decidable c'] (h : c ↔ c')
    {step step' other other' : WifiStep} (hstep : c → StepBeside δ step step')
    (hother : ¬ c → StepBeside δ other other') :
    StepBeside δ (if c then step else other) (if c' then step' else other') := by
  by_cases hc : c
  · rw [if_pos hc, if_pos (h.mp hc)]
    exact hstep hc
  · rw [if_neg hc, if_neg fun hc' => hc (h.mpr hc')]
    exact hother hc

/-- A state that goes on at once, or has been answered. -/
theorem goto_beside (status : Esp8266Status) (outs : List WifiOut) :
    StepBeside δ (w.goto (i.clock 0) status, outs)
      ((w.timed timer).goto ((i.jump δ n).clock 0) status, outs) :=
  ⟨(i.jump δ n).clock 0, rfl, timer_jump δ n i 0⟩

/-- What is done without a reply does not look at the timer. -/
def KeepsTimer (retry : Wifi → WifiStep) : Prop :=
  ∀ w, (retry w).1.timeout = w.timeout ∧
    ∀ timer, retry (w.timed timer) = ((retry w).1.timed timer, (retry w).2)

theorem keepsTimer_resend (command : String) : KeepsTimer (resend command) :=
  fun _ => ⟨rfl, fun _ => rfl⟩

theorem keepsTimer_backTo (status : Esp8266Status) : KeepsTimer (backTo status) :=
  fun _ => ⟨rfl, fun _ => rfl⟩

theorem noReply_beside (htimer : TimerBeside δ (n = 0) w.timeout timer) {limit : UInt32}
    (hunmoved : Unmoved limit w.timeout timer (i.clock 0) ((i.jump δ n).clock 0))
    {retry : Wifi → WifiStep} (hretry : KeepsTimer retry) :
    StepBeside δ (w.noReply i.clock limit retry)
      ((w.timed timer).noReply (i.jump δ n).clock limit retry) := by
  apply StepBeside.ite (timeout_same htimer (reading_jump δ n i 0) hunmoved)
  · intro _
    apply StepBeside.ite Iff.rfl
    · exact fun _ => ⟨(i.jump δ n).clock 1, rfl, timer_jump δ n i 1⟩
    · -- the timer is taken anew, and then the retry follows
      intro _
      obtain ⟨htime, hbeside⟩ := hretry
        { w with timeout := i.clock 1, statusErrorCount := w.statusErrorCount + 1 }
      refine ⟨(i.jump δ n).clock 1, hbeside _, ?_⟩
      rw [htime]
      exact timer_jump δ n i 1
  · exact fun _ => ⟨timer, rfl, htimer.later⟩

/-- The timer of a state that waits, and does not find its words. -/
theorem unmoved_waiting
    (hunmoved : TestsUnmoved (i.timeoutTest w) ((i.jump δ n).timeoutTest (w.timed timer)))
    {words : List String} {limit : UInt32} (hwaits : w.status.waitsFor = some (words, limit))
    (hnone : words.any i.has = false) :
    Unmoved limit w.timeout timer (i.clock 0) ((i.jump δ n).clock 0) := by
  have htest : i.timeoutTest w = some ⟨i.clock 0, w.timeout, limit⟩ := by
    simp only [WifiInput.timeoutTest, hwaits, hnone, Bool.false_eq_true, if_false]
  have hnone' : words.any (i.jump δ n).has = false := hnone
  have htest' : (i.jump δ n).timeoutTest (w.timed timer) =
      some ⟨(i.jump δ n).clock 0, timer, limit⟩ := by
    simp only [WifiInput.timeoutTest, Wifi.timed_status, hwaits, hnone', Bool.false_eq_true,
      if_false, Wifi.timed_timeout]
  exact hunmoved _ htest _ htest'

/-- A state that waits for one word. -/
theorem wait_beside (htimer : TimerBeside δ (n = 0) w.timeout timer)
    (hunmoved : TestsUnmoved (i.timeoutTest w) ((i.jump δ n).timeoutTest (w.timed timer)))
    {word : String} {limit : UInt32}
    (hwaits : w.status.waitsFor = some ([word], limit)) {step step' : WifiStep}
    (hstep : StepBeside δ step step') {retry : Wifi → WifiStep} (hretry : KeepsTimer retry) :
    StepBeside δ (if i.has word then step else w.noReply i.clock limit retry)
      (if i.has word then step' else (w.timed timer).noReply (i.jump δ n).clock limit retry) := by
  cases hword : i.has word with
  | true => exact hstep
  | false =>
    refine noReply_beside htimer (unmoved_waiting hunmoved hwaits ?_) hretry
    rw [List.any_cons, hword, List.any_nil]
    rfl

theorem communicate_beside (htimer : TimerBeside δ (n = 0) w.timeout timer)
    (hunmoved : TestsUnmoved (i.timeoutTest w) ((i.jump δ n).timeoutTest (w.timed timer)))
    (hstatus : w.status = .communicate) :
    StepBeside δ (communicate i w) (communicate (i.jump δ n) (w.timed timer)) := by
  have hkeep : StepBeside δ (w, []) (w.timed timer, []) := ⟨timer, rfl, htimer.later⟩
  have htest : ∀ {w : Wifi} {i : WifiInput}, w.status = .communicate →
      i.line = [] → i.timeoutTest w =
        if w.txLen ≠ 0 ∧ w.sendFlag then some ⟨i.clock 1, i.clock 0, 5⟩
        else if w.sendFlag then none else some ⟨i.clock 0, w.timeout, 5⟩ := by
    intro w i hstatus hline
    have hwaits : w.status.waitsFor = none := hstatus ▸ rfl
    have hdown : ¬ (w.status ≠ .communicate ∨ i.line ≠ []) := by
      intro h
      rcases h with h | h
      · exact h hstatus
      · exact h hline
    rw [WifiInput.timeoutTest, hwaits]
    exact if_neg hdown
  apply StepBeside.ite (Iff.rfl : i.line ≠ [] ↔ (i.jump δ n).line ≠ [])
  · intro _
    apply StepBeside.ite Iff.rfl
    · exact fun _ => ⟨timer, rfl, htimer.later⟩
    · intro _
      apply StepBeside.ite Iff.rfl
      · exact fun _ => ⟨timer, rfl, htimer.later⟩
      · intro _
        apply StepBeside.ite Iff.rfl
        · exact fun _ => ⟨timer, rfl, htimer.later⟩
        · exact fun _ => ⟨timer, rfl, htimer.later⟩
  · intro hline
    have hline : i.line = [] := not_not.mp hline
    have hi := htest hstatus hline
    have hi' := htest (w := w.timed timer) (i := i.jump δ n) hstatus hline
    by_cases hsending : w.txLen ≠ 0 ∧ w.sendFlag
    · -- the timer is taken and tested in this call
      have hsending' : (w.timed timer).txLen ≠ 0 ∧ (w.timed timer).sendFlag = true := hsending
      rw [if_pos hsending] at hi
      rw [if_pos hsending'] at hi'
      have hsame := timeout_same (timer_first δ n i) (reading_jump δ n i 1)
        (hunmoved _ hi _ hi')
      simp only [if_pos hsending, if_pos hsending']
      apply StepBeside.ite (and_congr_left fun _ => hsame)
      · exact fun _ => ⟨(i.jump δ n).clock 0, rfl, timer_jump δ n i 0⟩
      · exact fun _ => ⟨(i.jump δ n).clock 0, rfl, timer_jump δ n i 0⟩
    · have hsending' : ¬ ((w.timed timer).txLen ≠ 0 ∧ (w.timed timer).sendFlag = true) := hsending
      rw [if_neg hsending] at hi
      rw [if_neg hsending'] at hi'
      simp only [if_neg hsending, if_neg hsending']
      have hsame : ¬ w.sendFlag = true → (i.clock 0 - w.timeout > 5 ↔
          (i.jump δ n).clock 0 - (w.timed timer).timeout > 5) := by
        intro hflag
        rw [if_neg hflag] at hi
        rw [if_neg (show ¬ (w.timed timer).sendFlag = true from hflag)] at hi'
        exact timeout_same htimer (reading_jump δ n i 0) (hunmoved _ hi _ hi')
      apply StepBeside.ite (and_congr_left hsame)
      · exact fun _ => ⟨timer, rfl, htimer.later⟩
      · exact fun _ => hkeep

/-- **One call.** -/
theorem fsm_beside (htimer : TimerBeside δ (n = 0) w.timeout timer)
    (hunmoved : TestsUnmoved (i.timeoutTest w) ((i.jump δ n).timeoutTest (w.timed timer))) :
    StepBeside δ (esp8266AtFsm i w) (esp8266AtFsm (i.jump δ n) (w.timed timer)) := by
  have hwaits : ∀ {status words limit}, w.status = status →
      status.waitsFor = some (words, limit) → w.status.waitsFor = some (words, limit) :=
    fun hstatus h => hstatus ▸ h
  cases hstatus : w.status with
  | check | setMode | reset | wifiConnect | linkOk | connectServer =>
    simp only [esp8266AtFsm, Wifi.timed_status, hstatus]
    exact goto_beside _ _
  | checkMode | waitCloseEcho =>
    simp only [esp8266AtFsm, Wifi.timed_status, hstatus]
    exact wait_beside htimer hunmoved (hwaits hstatus rfl) (goto_beside _ _) (keepsTimer_resend _)
  | waitReset | waitConnected | waitGotIp =>
    simp only [esp8266AtFsm, Wifi.timed_status, hstatus]
    exact wait_beside htimer hunmoved (hwaits hstatus rfl) (goto_beside _ _) (keepsTimer_backTo _)
  | waitSetMode =>
    simp only [esp8266AtFsm, Wifi.timed_status, hstatus]
    exact wait_beside htimer hunmoved (hwaits hstatus rfl) ⟨timer, rfl, htimer.later⟩
      (keepsTimer_resend _)
  | waitCheckMode =>
    simp only [esp8266AtFsm, Wifi.timed_status, hstatus, jump_find]
    cases hfind : i.find "+CWMODE:" with
    | some at_ => exact goto_beside _ _
    | none =>
      refine noReply_beside htimer (unmoved_waiting hunmoved (hwaits hstatus rfl) ?_)
        (keepsTimer_resend _)
      simp [WifiInput.has, hfind]
  | getIp =>
    simp only [esp8266AtFsm, Wifi.timed_status, hstatus]
    refine wait_beside htimer hunmoved (hwaits hstatus rfl) ?_ (keepsTimer_backTo _)
    exact ⟨(i.jump δ n).clock 0, rfl, timer_jump δ n i 0⟩
  | restartConnectSever =>
    simp only [esp8266AtFsm, Wifi.timed_status, hstatus]
    exact ⟨timer, rfl, htimer.later⟩
  | getMac =>
    simp only [esp8266AtFsm, Wifi.timed_status, hstatus]
    apply StepBeside.ite Iff.rfl
    · exact fun _ => ⟨(i.jump δ n).clock 0, rfl, timer_jump δ n i 0⟩
    · intro hword
      have hnone := unmoved_waiting hunmoved (hwaits hstatus rfl) (by simp [hword])
      apply StepBeside.ite (timeout_same htimer (reading_jump δ n i 0) hnone)
      · exact fun _ => ⟨timer, rfl, htimer.later⟩
      · exact fun _ => ⟨timer, rfl, htimer.later⟩
  | waitLinkServer =>
    simp only [esp8266AtFsm, Wifi.timed_status, hstatus]
    apply StepBeside.ite Iff.rfl
    · exact fun _ => ⟨timer, rfl, htimer.later⟩
    · intro herror
      apply StepBeside.ite Iff.rfl
      · exact fun _ => ⟨(i.jump δ n).clock 0, rfl, timer_jump δ n i 0⟩
      · intro hconnect
        have hnone := unmoved_waiting hunmoved (hwaits hstatus rfl) (by simp [herror, hconnect])
        apply StepBeside.ite (timeout_same htimer (reading_jump δ n i 0) hnone)
        · intro _
          apply StepBeside.ite Iff.rfl
          · exact fun _ => ⟨(i.jump δ n).clock 1, rfl, timer_jump δ n i 1⟩
          · exact fun _ => ⟨(i.jump δ n).clock 1, rfl, timer_jump δ n i 1⟩
        · exact fun _ => ⟨timer, rfl, htimer.later⟩
  | communicate =>
    simp only [esp8266AtFsm, Wifi.timed_status, hstatus]
    exact communicate_beside htimer hunmoved hstatus

end Calls

/-! ## Two runs of the wireless thread -/

def WirelessEvent.jump (δ : UInt32) (n : Nat) : WirelessEvent → WirelessEvent
  | .thread i => .thread (i.jump δ n)
  | .txLen len => .txLen len

/-- Two wireless threads. In the second run the clock may have been set. -/
structure ThreadPair where
  left : WirelessThread
  right : WirelessThread
  set : Bool

/-- What happens, and whether the clock of the second run is set meanwhile: after so many
readings. -/
abbrev PairEvent := WirelessEvent × Option Nat

/-- The event in the second run. The clock is set once. -/
def ThreadPair.event (δ : UInt32) (r : ThreadPair) (e : PairEvent) : WirelessEvent :=
  if r.set then e.1.jump δ 0
  else
    match e.2 with
    | some n => e.1.jump δ n
    | none => e.1

/-- The two runs go on. -/
def pairStep (δ : UInt32) (r : ThreadPair) (e : PairEvent) :
    ThreadPair × List (List WifiOut × List WifiOut) :=
  (⟨(wirelessStep r.left e.1).1, (wirelessStep r.right (r.event δ e)).1, r.set || e.2.isSome⟩,
    [((wirelessStep r.left e.1).2, (wirelessStep r.right (r.event δ e)).2)])

/-- The test of a timeout in a part of the loop. -/
def WirelessThread.timeoutTest (t : WirelessThread) : WirelessEvent → Option TimeoutTest
  | .thread i => if t.called then none else i.timeoutTest t.wifi
  | .txLen _ => none

/-- No timer of before the clock was set is tested for which the jump matters. -/
def CallUnmoved (δ : UInt32) (r : ThreadPair) (e : PairEvent) : Prop :=
  TestsUnmoved (r.left.timeoutTest e.1) (r.right.timeoutTest (r.event δ e))

instance (δ : UInt32) (r : ThreadPair) (e : PairEvent) : Decidable (CallUnmoved δ r e) :=
  inferInstanceAs (Decidable (TestsUnmoved _ _))

/-- Both come to the same state, and have sent the same commands. -/
def SameCall (δ : UInt32) (r : ThreadPair) (e : PairEvent) : Prop :=
  (pairStep δ r e).1.right.wifi.status = (pairStep δ r e).1.left.wifi.status ∧
    (wirelessStep r.right (r.event δ e)).2 = (wirelessStep r.left e.1).2

/-- The invariant: the threads differ in the timer only, and that only if it has been taken
after the clock was set. -/
def PairBeside (δ : UInt32) (r : ThreadPair) : Prop :=
  ∃ timer, r.right = { r.left with wifi := r.left.wifi.timed timer } ∧
    TimerBeside δ (r.set = true) r.left.wifi.timeout timer

/-- A step of which one run has the event with the clock after `n` readings. -/
theorem wireless_beside {δ : UInt32} {n : Nat} {t : WirelessThread} {timer : UInt32}
    {e : WirelessEvent} (htimer : TimerBeside δ (n = 0) t.wifi.timeout timer)
    (hunmoved : TestsUnmoved (t.timeoutTest e)
      (({ t with wifi := t.wifi.timed timer } : WirelessThread).timeoutTest (e.jump δ n))) :
    ∃ timer', wirelessStep { t with wifi := t.wifi.timed timer } (e.jump δ n) =
        ({ (wirelessStep t e).1 with wifi := (wirelessStep t e).1.wifi.timed timer' },
          (wirelessStep t e).2) ∧
      TimerBeside δ True (wirelessStep t e).1.wifi.timeout timer' := by
  cases e with
  | txLen len => exact ⟨timer, rfl, htimer.later⟩
  | thread i =>
    obtain ⟨wifi, isWirelessLinkOk, called, reported⟩ := t
    cases called with
    | true => exact ⟨timer, rfl, htimer.later⟩
    | false =>
      obtain ⟨timer', hstep, htimer'⟩ := fsm_beside htimer hunmoved
      refine ⟨timer', ?_, htimer'⟩
      simp only [wirelessStep, WirelessEvent.jump, Bool.false_eq_true, if_false, hstep,
        WirelessThread.afterCall]
      rfl

/-- A step in or after which the clock has been set. -/
theorem pair_jumped {δ : UInt32} {n : Nat} {r : ThreadPair} {e : PairEvent} {timer : UInt32}
    (hevent : r.event δ e = e.1.jump δ n) (hset : (r.set || e.2.isSome) = true)
    (hright : r.right = { r.left with wifi := r.left.wifi.timed timer })
    (htimer : TimerBeside δ (n = 0) r.left.wifi.timeout timer) (hunmoved : CallUnmoved δ r e) :
    PairBeside δ (pairStep δ r e).1 ∧ SameCall δ r e := by
  have hunmoved : TestsUnmoved (r.left.timeoutTest e.1)
      (r.right.timeoutTest (e.1.jump δ n)) := hevent ▸ hunmoved
  rw [hright] at hunmoved
  obtain ⟨timer', hstep, htimer'⟩ := wireless_beside htimer hunmoved
  rw [← hright, ← hevent] at hstep
  refine ⟨⟨timer', ?_, ?_⟩, ?_, ?_⟩
  · exact congrArg Prod.fst hstep
  · show TimerBeside δ ((r.set || e.2.isSome) = true) _ _
    exact htimer'.mono fun _ => hset
  · show (wirelessStep r.right (r.event δ e)).1.wifi.status = _
    rw [hstep]
    rfl
  · show (wirelessStep r.right (r.event δ e)).2 = _
    rw [hstep]

theorem pair_beside {δ : UInt32} {r : ThreadPair} {e : PairEvent} (h : PairBeside δ r)
    (hunmoved : CallUnmoved δ r e) : PairBeside δ (pairStep δ r e).1 ∧ SameCall δ r e := by
  obtain ⟨timer, hright, htimer⟩ := h
  cases hset : r.set with
  | true =>
    have hevent : r.event δ e = e.1.jump δ 0 := by rw [ThreadPair.event, if_pos hset]
    refine pair_jumped hevent (by rw [hset]; rfl) hright ?_ hunmoved
    exact htimer.mono fun _ => rfl
  | false =>
    -- until the clock is set the two threads are the same
    have htimer : timer = r.left.wifi.timeout := by
      rcases htimer with h | ⟨h, -⟩
      · exact h
      · rw [hset] at h
        cases h
    cases hat : e.2 with
    | some n =>
      have hevent : r.event δ e = e.1.jump δ n := by
        rw [ThreadPair.event, if_neg (by rw [hset]; exact Bool.false_ne_true), hat]
      exact pair_jumped hevent (by rw [hset, hat]; rfl) hright (.inl htimer) hunmoved
    | none =>
      have hevent : r.event δ e = e.1 := by
        rw [ThreadPair.event, if_neg (by rw [hset]; exact Bool.false_ne_true), hat]
      have hsame : r.right = r.left := by
        rw [hright, htimer]
        rfl
      refine ⟨⟨(pairStep δ r e).1.left.wifi.timeout, ?_, .inl rfl⟩, ?_, ?_⟩
      · show (wirelessStep r.right (r.event δ e)).1 = (wirelessStep r.left e.1).1
        rw [hevent, hsame]
      · show (wirelessStep r.right (r.event δ e)).1.wifi.status = _
        rw [hevent, hsame]
        rfl
      · rw [hevent, hsame]

/-- The wireless thread is not disturbed while no such timer is tested. -/
theorem wireless_undisturbed (δ : UInt32) (t : WirelessThread) (es : List PairEvent)
    (h : Machine.Along (pairStep δ) (CallUnmoved δ) ⟨t, t, false⟩ es) :
    Machine.Along (pairStep δ) (SameCall δ) ⟨t, t, false⟩ es := by
  have hstart : PairBeside δ ⟨t, t, false⟩ := ⟨t.wifi.timeout, rfl, .inl rfl⟩
  exact Machine.along_mono_of_invariant (fun _ _ hI hok => (pair_beside hI hok).1)
    (fun _ _ hI hok => (pair_beside hI hok).2) hstart h

end IBoxClient
