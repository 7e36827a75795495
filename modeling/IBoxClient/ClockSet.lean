import IBoxClient.MqttBeside

/- The main thread in two runs, in one of which the clock is set, and both threads together.

   The loop of the main thread takes the clock in seconds for its ping and for its report. A
   round that tests a timer of before the clock was set does the same as without that only if
   the jump does not matter there; if no round does, the two runs stay side by side. -/
namespace IBoxClient

open Bytes Prog

/-! ## Readings -/

/-- Side by side, the clock perhaps set meanwhile. -/
def LaterBeside (δ : UInt32) (set : Prop) (s t : Sys MainCallback) : Prop :=
  ∃ set' : Prop, (set → set') ∧ s.Beside δ set' t

/-- And with a timer in each run. -/
def TimerTaken (δ : UInt32) (set : Prop) (timer timer' : UInt32) (s t : Sys MainCallback) : Prop :=
  ∃ set' : Prop, (set → set') ∧ s.Beside δ set' t ∧ TimerBeside δ set' timer timer'

section Readings
variable {δ : UInt32} {set : Prop} {s t : Sys MainCallback}

theorem Sys.Beside.later (h : s.Beside δ set t) : LaterBeside δ set s t :=
  ⟨set, id, h⟩

/-- The reading that comes next. -/
theorem Sys.Beside.reading (h : s.Beside δ set t) :
    ReadingBeside δ set s.interact.1.sysTimeS t.interact.1.sysTimeS := by
  obtain ⟨j, hj⟩ := h.net.clock
  have hnow : (t.net.env 0).sysTimeS = if 0 < j then (s.net.env 0).sysTimeS
    else (s.net.env 0).sysTimeS + δ := hj 0
  show ReadingBeside δ set (s.net.env 0).sysTimeS (t.net.env 0).sysTimeS
  by_cases hfirst : 0 < j
  · rw [if_pos hfirst] at hnow
    refine .inl ⟨hnow, fun hset => ?_⟩
    -- it has jumped already, and yet is the same
    have hjumped : (t.net.env 0).sysTimeS = (s.net.env 0).sysTimeS + δ := h.net.jumped hset 0
    rw [hnow] at hjumped
    grind
  · rw [if_neg hfirst] at hnow
    exact .inr hnow

/-- A timer is taken. If it has jumped, the clock has been set. -/
theorem Sys.Beside.takes (h : s.Beside δ set t) :
    TimerTaken δ set s.interact.1.sysTimeS t.interact.1.sysTimeS s.interact.2 t.interact.2 := by
  obtain ⟨-, hclient, hnet, hstrs, hlog, hbuf, htick⟩ := h.interact
  obtain ⟨j, hj⟩ := h.net.clock
  have hnow : (t.net.env 0).sysTimeS = if 0 < j then (s.net.env 0).sysTimeS
    else (s.net.env 0).sysTimeS + δ := hj 0
  by_cases hfirst : 0 < j
  · rw [if_pos hfirst] at hnow
    exact ⟨set, id, ⟨hclient, hnet, hstrs, hlog, hbuf, htick⟩, .inl hnow⟩
  · rw [if_neg hfirst] at hnow
    have hjumps : JumpsAfter δ 0 s.interact.2.net.env t.interact.2.net.env := by
      have henv : s.interact.2.net.env = fun k => s.net.env (k + 1) := Net.arrivals_env _ _
      have henv' : t.interact.2.net.env = fun k => t.net.env (k + 1) := Net.arrivals_env _ _
      rw [henv, henv']
      have hzero : j = 0 := by omega
      exact (hzero ▸ hj).next
    refine ⟨True, fun _ => trivial, ⟨hclient, ?_, hstrs, hlog, hbuf, ?_⟩, .inr ⟨trivial, hnow⟩⟩
    · exact ⟨hnet.same, hnet.env, hnet.clock, fun _ => hjumps⟩
    · exact htick.later

theorem twin_getSysTimeS :
    Twin (LaterBeside δ set) (getSysTimeS : Prog (Sys MainCallback) UInt32) getSysTimeS
      (fun now now' s t => TimerTaken δ set now now' s t) (LaterBeside δ set) := by
  refine .act fun s t h => ?_
  obtain ⟨set', hset, h⟩ := h
  obtain ⟨set'', hset', h⟩ := h.takes
  exact ⟨set'', hset' ∘ hset, h⟩

/-- What is alike however long the clock has been set. -/
theorem alike_later {α : Type} {p q : Prog (Sys MainCallback) α}
    (h : ∀ set : Prop, Alike (Sys.Beside δ set) p q) : Alike (LaterBeside δ set) p q := by
  intro s t h
  obtain ⟨set', hset, hst⟩ := h
  apply (h set' s t hst).mono
  · exact fun _ _ _ _ h => ⟨h.1, set', hset, h.2⟩
  · exact fun _ _ h => ⟨set', hset, h⟩

theorem alike_setTickPing : Alike (LaterBeside δ set) setTickPing setTickPing := by
  refine Twin.bind twin_getSysTimeS fun now now' => .act ?_
  intro s t h
  obtain ⟨set', hset, h, htimer⟩ := h
  refine ⟨rfl, set', hset, ?_, h.net, h.strs, h.log, h.bufSize, htimer⟩
  show ({ t.client with tickPing := now' } : MqttClient MainCallback) = _
  rw [h.client]
  rfl

end Readings

/-! ## The work loop -/

/-- The test of the ping, and that of the report. -/
def pingLimit (s : Sys MainCallback) : UInt32 :=
  UInt32.ofNat s.client.condata.keepAliveInterval - 20
def reportLimit (config : IboxConfig) : UInt32 := UInt32.ofNat (config.period * 60)

/-- The ping, and its timer. -/
def sendPing : Prog (Sys MainCallback) Int := do
  let ret ← keepalive
  if ret ≠ mqttSuccess then pure ret
  else do
    setTickPing
    pure ret

theorem run_workPing (s : Sys MainCallback) :
    workPing s = (if s.interact.1.sysTimeS - s.client.tickPing > pingLimit s then sendPing
      else pure mqttSuccess) s.interact.2 := rfl

/-- A round of the work loop before its report: whether it comes to that. -/
def workFront : Prog (Sys MainCallback) Bool := do
  let ret ← workPing
  if ret ≠ mqttSuccess then pure false
  else
    let ret ← mqttCycle
    pure (decide (0 ≤ ret))

/-- And the report. -/
def workBack (config : IboxConfig) (publishTime : UInt32) (polls : Nat) :
    Prog (Sys MainCallback) (MainPhase × UInt32) := do
  let r ← workPublish config publishTime polls
  if r.1 ≠ mqttSuccess then pure (.disconnect, r.2) else pure (.work, r.2)

theorem mainWork_eq (config : IboxConfig) (publishTime : UInt32) (polls : Nat) :
    mainWork config publishTime polls = workFront >>= fun report =>
      if report then workBack config publishTime polls else pure (.disconnect, publishTime) := by
  funext s
  unfold mainWork workFront
  rw [run_bind, run_bind, run_bind]
  generalize workPing s = r
  obtain ⟨ret, s⟩ := r
  cases ret with
  | none => rfl
  | some ret =>
    dsimp only
    split
    · rfl
    · rw [run_bind, run_bind]
      generalize mqttCycle s = r
      obtain ⟨ret, s⟩ := r
      cases ret with
      | none => rfl
      | some ret =>
        dsimp only
        by_cases hret : ret < 0
        · rw [if_pos hret, run_pure]
          simp [Int.not_le.mpr hret]
        · rw [if_neg hret, run_pure]
          simp [Int.not_lt.mp hret, workBack]

section Work
variable {δ : UInt32} {set : Prop} {s t : Sys MainCallback}

theorem workPing_beside (h : s.Beside δ set t)
    (hunmoved : Unmoved (pingLimit s) s.client.tickPing t.client.tickPing
      s.interact.1.sysTimeS t.interact.1.sysTimeS) :
    Both (fun ret ret' s t => ret = ret' ∧ LaterBeside δ set s t) (LaterBeside δ set)
      (workPing s) (workPing t) := by
  have hcondata := h.field MqttClient.condata fun _ _ => rfl
  have hsame := timeout_same h.tick h.reading hunmoved
  have hlimit : pingLimit t = pingLimit s := by rw [pingLimit, pingLimit, hcondata]
  obtain ⟨-, hnext⟩ := h.interact
  rw [run_workPing, run_workPing, hlimit]
  by_cases hover : s.interact.1.sysTimeS - s.client.tickPing > pingLimit s
  · rw [if_pos hover, if_pos (hsame.mp hover)]
    refine Alike.bind (alike_later fun _ => alike_keepalive) (fun ret => ?_) _ _ hnext.later
    exact .ite (fun _ => .pure _) fun _ => .bind alike_setTickPing fun _ => .pure _
  · rw [if_neg hover, if_neg fun hover' => hover (hsame.mpr hover')]
    exact .returned ⟨rfl, hnext.later⟩

theorem workFront_beside (h : s.Beside δ set t)
    (hunmoved : Unmoved (pingLimit s) s.client.tickPing t.client.tickPing
      s.interact.1.sysTimeS t.interact.1.sysTimeS) :
    Both (fun report report' s t => report = report' ∧ LaterBeside δ set s t) (LaterBeside δ set)
      (workFront s) (workFront t) := by
  refine (workPing_beside h hunmoved).bind fun ret ret' => ?_
  intro s t h
  obtain ⟨rfl, h⟩ := h
  refine Alike.ite (fun _ => .pure _) (fun _ => ?_) _ _ h
  exact .bind (alike_later fun _ => alike_mqttCycle) fun ret => .pure _

/-- The reports of the two runs, as they are made. -/
theorem twin_createMsg :
    Twin (LaterBeside δ set) createMsg createMsg
      (fun msg msg' s t => msg'.map reportFits = msg.map reportFits ∧ LaterBeside δ set s t)
      (LaterBeside δ set) := by
  refine .act fun s t h => ?_
  obtain ⟨set', hset, h⟩ := h
  exact ⟨h.interact.1.report, set', hset, h.interact.2⟩

/-- And as messages. -/
theorem reportBeside {msg msg' : List UInt8} (h : reportFits msg' = reportFits msg)
    (id id' : Nat) :
    ReportBeside ⟨1, 0, id, msg.take (msg.length % 65536)⟩
      ⟨1, 0, id', msg'.take (msg'.length % 65536)⟩ := by
  have hlen : ∀ msg : List UInt8, (msg.take (msg.length % 65536)).length = msg.length % 65536 :=
    fun msg => by rw [List.length_take, min_eq_left (Nat.mod_le _ _)]
  refine ⟨rfl, rfl, rfl, ?_⟩
  dsimp only
  rw [hlen, hlen, ← not_iff_not, Nat.not_lt, Nat.not_lt]
  exact decide_eq_decide.mp h.symm

theorem alike_mqttMsgPublish (polls : Nat) :
    Alike (LaterBeside δ set) (mqttMsgPublish polls) (mqttMsgPublish polls) := by
  apply Twin.bind twin_createMsg
  intro msg msg' s t h
  obtain ⟨hfits, h⟩ := h
  match msg, msg' with
  | none, none => exact .returned ⟨rfl, h⟩
  | some msg, some msg' =>
    refine Twin.bind twin_getSysTimeS (fun now now' => ?_) s t h
    intro s t h
    obtain ⟨set', hset, h, -⟩ := h
    have hm := reportBeside (Option.some_injective _ hfits) (now.toNat % 65536)
      (now'.toNat % 65536)
    exact alike_later (fun _ => alike_publish polls hm) s t ⟨set', hset, h⟩

/-- What a round comes to: the same, and a timer. -/
def RoundBeside {α : Type} (δ : UInt32) (set : Prop) (r r' : α × UInt32)
    (s t : Sys MainCallback) : Prop :=
  r.1 = r'.1 ∧ TimerTaken δ set r.2 r'.2 s t

/-- The report, and its timer. -/
def sendReport (publishTime : UInt32) (polls : Nat) : Prog (Sys MainCallback) (Int × UInt32) := do
  let ret ← mqttMsgPublish polls
  if ret ≠ mqttSuccess then pure (ret, publishTime)
  else do
    let now ← getSysTimeS
    pure (ret, now)

theorem run_workPublish (config : IboxConfig) (publishTime : UInt32) (polls : Nat)
    (s : Sys MainCallback) :
    workPublish config publishTime polls s =
      (if s.interact.1.sysTimeS - publishTime > reportLimit config then sendReport publishTime polls
        else pure (mqttSuccess, publishTime)) s.interact.2 := rfl

theorem twin_sendReport {publishTime publishTime' : UInt32}
    (htimer : TimerBeside δ set publishTime publishTime') (polls : Nat) :
    Twin (LaterBeside δ set) (sendReport publishTime polls) (sendReport publishTime' polls)
      (RoundBeside δ set) (LaterBeside δ set) := by
  apply Twin.bind (alike_mqttMsgPublish polls)
  intro ret ret' s t h
  obtain ⟨rfl, h⟩ := h
  by_cases hret : ret ≠ mqttSuccess
  · rw [if_pos hret, if_pos hret]
    obtain ⟨set', hset, h⟩ := h
    exact .returned ⟨rfl, set', hset, h, htimer.mono hset⟩
  · rw [if_neg hret, if_neg hret]
    refine Twin.bind twin_getSysTimeS (fun now now' => ?_) s t h
    exact .pure fun s t h => ⟨rfl, h⟩

theorem workBack_beside (h : s.Beside δ set t) (config : IboxConfig) {publishTime publishTime' : UInt32}
    (htimer : TimerBeside δ set publishTime publishTime') (polls : Nat)
    (hunmoved : Unmoved (reportLimit config) publishTime publishTime'
      s.interact.1.sysTimeS t.interact.1.sysTimeS) :
    Both (RoundBeside δ set) (LaterBeside δ set) (workBack config publishTime polls s)
      (workBack config publishTime' polls t) := by
  have hsame := timeout_same htimer h.reading hunmoved
  obtain ⟨-, hnext⟩ := h.interact
  have hpublish : Both (RoundBeside δ set) (LaterBeside δ set)
      (workPublish config publishTime polls s) (workPublish config publishTime' polls t) := by
    rw [run_workPublish, run_workPublish]
    by_cases hover : s.interact.1.sysTimeS - publishTime > reportLimit config
    · rw [if_pos hover, if_pos (hsame.mp hover)]
      exact twin_sendReport htimer polls _ _ hnext.later
    · rw [if_neg hover, if_neg fun hover' => hover (hsame.mpr hover')]
      exact .returned ⟨rfl, set, id, hnext, htimer⟩
  apply hpublish.bind
  intro r r' s t h
  obtain ⟨hret, h⟩ := h
  rw [← hret]
  split
  · exact .returned ⟨rfl, h⟩
  · exact .returned ⟨rfl, h⟩

end Work

/-! ## Rounds -/

/-- The test of the ping in a round of the work loop. -/
def MainThread.pingTest (m : MainThread) : Option TimeoutTest :=
  match m.phase with
  | .work => some ⟨m.sys.interact.1.sysTimeS, m.sys.client.tickPing, pingLimit m.sys⟩
  | _ => none

/-- The test of the report, if the round comes to it. -/
def MainThread.reportTest (m : MainThread) : Option TimeoutTest :=
  match m.phase, workFront m.sys with
  | .work, (some true, s) => some ⟨s.interact.1.sysTimeS, m.publishTime, reportLimit m.config⟩
  | _, _ => none

/-- The main threads of the two runs. -/
structure MainPair where
  left : MainThread
  right : MainThread

def mainPairStep (r : MainPair) (polls : Nat) : MainPair × List Unit :=
  (⟨(mainStep r.left polls).1, (mainStep r.right polls).1⟩, [])

/-- No timer of before the clock was set is tested for which the jump matters. -/
def RoundUnmoved (r : MainPair) (_polls : Nat) : Prop :=
  TestsUnmoved r.left.pingTest r.right.pingTest ∧ TestsUnmoved r.left.reportTest r.right.reportTest

instance (r : MainPair) (polls : Nat) : Decidable (RoundUnmoved r polls) :=
  inferInstanceAs (Decidable (_ ∧ _))

/-- Both come to the same phase, and have sent packets of the same kind. -/
def SameRound (r : MainPair) (polls : Nat) : Prop :=
  (mainPairStep r polls).1.right.phase = (mainPairStep r polls).1.left.phase ∧
    List.Forall₂ EntryBeside (mainPairStep r polls).1.left.sys.log
      (mainPairStep r polls).1.right.sys.log

/-- The invariant. -/
structure MainBeside (δ : UInt32) (m m' : MainThread) : Prop where
  sys : TimerTaken δ False m.publishTime m'.publishTime m.sys m'.sys
  config : m'.config = m.config
  phase : m'.phase = m.phase

section Rounds
variable {δ : UInt32} {set : Prop} {m m' : MainThread}

theorem TimerTaken.forget {timer timer' : UInt32} {s t : Sys MainCallback}
    (h : TimerTaken δ set timer timer' s t) : TimerTaken δ False timer timer' s t := by
  obtain ⟨set', -, h⟩ := h
  exact ⟨set', False.elim, h⟩

theorem alike_mainConnect (config : IboxConfig) (polls : Nat) :
    Alike (Sys.Beside δ set) (mainConnect config polls) (mainConnect config polls) :=
  .bind (alike_connect polls) fun _ => .pure _

theorem alike_printSubTemp (printed : Option (List UInt8)) :
    Alike (Sys.Beside δ set) (Prog.change (printSubTemp printed))
      (Prog.change (printSubTemp printed)) := by
  refine .change fun s t h => ?_
  cases printed with
  | none => exact h
  | some temp => exact ⟨h.client, h.net, rfl, h.log, h.bufSize, h.tick⟩

theorem alike_mainSubscribe (polls : Nat) (left : List Subscription) :
    Alike (LaterBeside δ set) (mainSubscribe polls left) (mainSubscribe polls left) := by
  cases left with
  | nil => exact .bind alike_setTickPing fun _ => .pure _
  | cons sub left =>
    refine alike_later fun set => .bind (alike_printSubTemp sub.printed) fun _ => ?_
    exact .bind (alike_subscribe polls sub.topicFilter sub.qos sub.callback) fun _ => .pure _

/-- What leaves `publish_time` as it is. -/
theorem keeps_publishTime {α : Type} {p : Prog (Sys MainCallback) α}
    (hp : Alike (LaterBeside δ set) p p) {publishTime publishTime' : UInt32}
    (htimer : TimerBeside δ set publishTime publishTime') :
    Twin (LaterBeside δ set) (p >>= fun a => pure (a, publishTime))
      (p >>= fun a => pure (a, publishTime')) (RoundBeside δ set) (LaterBeside δ set) := by
  refine Twin.bind hp fun a a' => .pure ?_
  intro s t h
  obtain ⟨rfl, set', hset, h⟩ := h
  exact ⟨rfl, set', hset, h, htimer.mono hset⟩

theorem reportTest_work {s s' : Sys MainCallback} (config : IboxConfig) (publishTime : UInt32)
    (h : workFront s = (some true, s')) :
    MainThread.reportTest ⟨s, config, publishTime, .work⟩ =
      some ⟨s'.interact.1.sysTimeS, publishTime, reportLimit config⟩ := by
  simp only [MainThread.reportTest, h]

theorem mainWork_beside {s t : Sys MainCallback} (h : s.Beside δ set t) {config : IboxConfig}
    {publishTime publishTime' : UInt32} (htimer : TimerBeside δ set publishTime publishTime')
    (polls : Nat)
    (hunmoved : RoundUnmoved ⟨⟨s, config, publishTime, .work⟩, ⟨t, config, publishTime', .work⟩⟩
      polls) :
    Both (RoundBeside δ set) (LaterBeside δ set) (mainWork config publishTime polls s)
      (mainWork config publishTime' polls t) := by
  obtain ⟨hping, hreport⟩ := hunmoved
  have hfront := workFront_beside h (hping _ rfl _ rfl)
  rw [mainWork_eq, mainWork_eq, run_bind, run_bind]
  generalize hs : workFront s = r at hfront ⊢
  generalize ht : workFront t = r' at hfront ⊢
  cases hfront with
  | paused h => exact .paused h
  | @returned report _ s' t' h =>
    obtain ⟨rfl, set', hset, h⟩ := h
    have htimer := htimer.mono hset
    cases report with
    | false => exact .returned ⟨rfl, set', hset, h, htimer⟩
    | true =>
      have htest := hreport _ (reportTest_work config publishTime hs) _
        (reportTest_work config publishTime' ht)
      -- what has been set since the ping has been set since the round began
      apply (workBack_beside h config htimer polls htest).mono
      · intro r r' s t h
        obtain ⟨hr, set'', hset', h⟩ := h
        exact ⟨hr, set'', hset' ∘ hset, h⟩
      · intro s t h
        obtain ⟨set'', hset', h⟩ := h
        exact ⟨set'', hset' ∘ hset, h⟩

theorem mainRound_beside {s t : Sys MainCallback} (h : s.Beside δ set t) {config : IboxConfig}
    {publishTime publishTime' : UInt32} (htimer : TimerBeside δ set publishTime publishTime')
    (phase : MainPhase) (polls : Nat)
    (hunmoved : RoundUnmoved ⟨⟨s, config, publishTime, phase⟩, ⟨t, config, publishTime', phase⟩⟩
      polls) :
    Both (RoundBeside δ set) (LaterBeside δ set) (mainRound config publishTime polls phase s)
      (mainRound config publishTime' polls phase t) := by
  cases phase with
  | start => exact keeps_publishTime (alike_later fun _ => alike_mainConnect _ _) htimer _ _ h.later
  | subscribe left => exact keeps_publishTime (alike_mainSubscribe _ _) htimer _ _ h.later
  | work => exact mainWork_beside h htimer polls hunmoved
  | disconnect =>
    have hdisconnect : Alike (LaterBeside δ set) mainDisconnect mainDisconnect :=
      .bind (alike_later fun _ => alike_disconnect) fun _ => .pure _
    exact keeps_publishTime hdisconnect htimer _ _ h.later
  | restart => exact .returned ⟨rfl, set, id, h, htimer⟩
  | blocked => exact .returned ⟨rfl, set, id, h, htimer⟩

/-- **One round.** -/
theorem mainStep_beside (h : MainBeside δ m m') (polls : Nat)
    (hunmoved : RoundUnmoved ⟨m, m'⟩ polls) :
    MainBeside δ (mainStep m polls).1 (mainStep m' polls).1 := by
  obtain ⟨s, config, publishTime, phase⟩ := m
  obtain ⟨t, config', publishTime', phase'⟩ := m'
  obtain ⟨⟨set, -, h, htimer⟩, hconfig, hphase⟩ := h
  cases hconfig
  cases hphase
  have hround := mainRound_beside h htimer phase polls hunmoved
  unfold mainStep
  dsimp only
  generalize mainRound config publishTime polls phase s = r at hround ⊢
  generalize mainRound config publishTime' polls phase t = r' at hround ⊢
  cases hround with
  | returned hr => exact ⟨hr.2.forget, rfl, hr.1.symm⟩
  | paused hr =>
    obtain ⟨set', hset, h⟩ := hr
    exact ⟨⟨set', False.elim, h, htimer.mono hset⟩, rfl, rfl⟩

end Rounds

/-! ## Two runs -/

/-- Two environments, in the second of which the clock is set. -/
structure ClockSet (δ : UInt32) (env env' : Nat → EnvStep) : Prop where
  beside : ∀ k, (env k).Beside (env' k)
  jumps : ∃ n, JumpsAfter δ n env env'

/-- The main threads of the two runs, as they start. -/
def MainPair.initial (config : IboxConfig) (readbuf temp : List UInt8)
    (env env' : Nat → EnvStep) : MainPair :=
  ⟨mainInit config (Net.initial env) readbuf temp, mainInit config (Net.initial env') readbuf temp⟩

theorem mainInit_beside {δ : UInt32} {env env' : Nat → EnvStep} (h : ClockSet δ env env')
    (config : IboxConfig) (readbuf temp : List UInt8) :
    MainBeside δ (mainInit config (Net.initial env) readbuf temp)
      (mainInit config (Net.initial env') readbuf temp) := by
  have hnet : (Net.initial env).Beside δ False (Net.initial env') :=
    ⟨rfl, h.beside, h.jumps, False.elim⟩
  exact ⟨⟨False, id, ⟨rfl, hnet, rfl, .nil, rfl, .inl rfl⟩, .inl rfl⟩, rfl, rfl⟩

/-- **The clock.** Setting it disturbs neither thread while no timeout that was begun before is
tested with a reading for which the jump matters. -/
theorem clock_set_undisturbing {δ : UInt32} {env env' : Nat → EnvStep} (h : ClockSet δ env env')
    (t : WirelessThread) (es : List PairEvent) (config : IboxConfig) (readbuf temp : List UInt8)
    (polls : List Nat)
    (hcalls : Machine.Along (pairStep δ) (CallUnmoved δ) ⟨t, t, false⟩ es)
    (hrounds : Machine.Along mainPairStep RoundUnmoved (.initial config readbuf temp env env') polls) :
    Machine.Along (pairStep δ) (SameCall δ) ⟨t, t, false⟩ es ∧
      Machine.Along mainPairStep SameRound (.initial config readbuf temp env env') polls := by
  refine ⟨wireless_undisturbed δ t es hcalls, ?_⟩
  apply Machine.along_mono_of_invariant (I := fun r => MainBeside δ r.left r.right)
  · exact fun r polls h hunmoved => mainStep_beside h polls hunmoved
  · intro r polls h hunmoved
    have hnext := mainStep_beside h polls hunmoved
    obtain ⟨set, -, hsys, -⟩ := hnext.sys
    exact ⟨hnext.phase, hsys.log⟩
  · exact mainInit_beside h config readbuf temp
  · exact hrounds

/-! ## A run -/

/-- An environment in which the clock is set after `n` interactions. -/
def jumpEnv (δ : UInt32) (n : Nat) (env : Nat → EnvStep) (k : Nat) : EnvStep :=
  { env k with sysTimeS := jumpClock δ n (fun k => (env k).sysTimeS) k }

theorem clockSet_jumpEnv (δ : UInt32) (n : Nat) (env : Nat → EnvStep) :
    ClockSet δ env (jumpEnv δ n env) :=
  ⟨fun _ => ⟨rfl, rfl, rfl, rfl, rfl⟩, n, fun _ => rfl⟩

/-- What happens while the clock is not set. -/
def unset (es : List WirelessEvent) : List PairEvent := es.map fun e => (e, none)

/-- The module connects, and is asked to send a packet. -/
def packetAsked : List WirelessEvent :=
  ["", "OK", "+CWMODE:1", "", "+CIFSR:STAIP,\"192.168.0.5\"",
    "+CIFSR:STAMAC,\"5c:cf:7f:00:00:01\"", "", "CONNECT"].flatMap round ++
  .txLen 14 :: round ""

/-- A configuration that sets the clock. -/
def clockConfig : Chunk :=
  ⟨[48, 25, 0, 11] ++ configTopic ++ ascii "\x7b\"rtc\":1000\x7d", by decide, by decide⟩

/-- It comes in the first round of the work loop, and is delivered before interaction 36. -/
def configuringBroker (k : Nat) : EnvStep :=
  match k with
  | 32 => { EnvStep.quiet with arrive := [clockConfig] }
  | _ => grantingBroker k

/-- The clock is set one second ahead. Nothing is disturbed. -/
theorem clock_set_undisturbing_second :
    Machine.Along (pairStep 1) (SameCall 1) ⟨.initial .initial, .initial .initial, false⟩
        (unset packetAsked ++ (.thread (onLine ""), some 0) :: unset (round "SEND OK")) ∧
      Machine.Along mainPairStep SameRound
        (.initial .initial (List.replicate 1024 0) [] configuringBroker
          (jumpEnv 1 36 configuringBroker))
        [1, 1, 1, 1, 1, 1, 1, 1, 1] :=
  clock_set_undisturbing (clockSet_jumpEnv 1 36 configuringBroker) (.initial .initial)
    (unset packetAsked ++ (.thread (onLine ""), some 0) :: unset (round "SEND OK")) .initial
    (List.replicate 1024 0) [] [1, 1, 1, 1, 1, 1, 1, 1, 1] (by decide +kernel) (by decide +kernel)

def MainPhase.isWork : MainPhase → Bool
  | .work => true
  | _ => false

/-- The clock is set 1000 seconds ahead. The connection that waits for `SEND OK` is given up, and
the report becomes due at once. -/
theorem clock_set_drops_connection :
    ¬ Machine.Along (pairStep 1000) (SameCall 1000)
        ⟨.initial .initial, .initial .initial, false⟩
        (unset packetAsked ++ [(.thread (onLine ""), some 0)]) ∧
      ¬ Machine.Along mainPairStep SameRound
        (.initial .initial (List.replicate 1024 0) [] configuringBroker
          (jumpEnv 1000 36 configuringBroker))
        ([1, 1, 1, 1, 1, 1] ++ [1]) := by
  constructor
  · intro h
    exact absurd (Machine.along_at h).1 (by decide +kernel)
  · intro h
    have hphase := congrArg MainPhase.isWork (Machine.along_at h).1
    exact absurd hphase (by decide +kernel)

end IBoxClient
