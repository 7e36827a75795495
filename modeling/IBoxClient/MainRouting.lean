import IBoxClient.Lib.Machine
import IBoxClient.MainThread

/- The routing of messages that the main thread sets up.

   The two topics of the device are printed into one buffer, `sub_temp`, and the
   handler table keeps a pointer to it. The second printing overwrites the text
   behind the first subscription: with the fourth subscription the table holds the
   topic of the device's configuration, and nowhere the topic of its actions. So
   once everything is subscribed, a message to `mqtt/action-<sn>` is given to the
   default callback: `device_actions_lost`.

   The invariant says what `sub_temp` holds (`Printed`) and that the table has no
   other filters than the two literals and `sub_temp`. -/
namespace IBoxClient

open Bytes

/-- The message is given to the callback, and to no other. -/
def DeliveredTo (callback : MainCallback) (s : Sys MainCallback) (message : PublishData) : Prop :=
  ∃ n, (deliverMessage message s).2.log =
    List.replicate (n + 1) (.delivered callback message) ++ s.log

/-- Every message to one of the four topics is given to the callback of the topic. -/
def RoutesTopics (config : IboxConfig) (s : Sys MainCallback) : Prop :=
  ∀ message : PublishData,
    (message.topicName = actionTopic ∨ message.topicName = config.actionTopic →
      DeliveredTo .mqttActionCallback s message) ∧
    (message.topicName = configTopic ∨ message.topicName = config.conTopic →
      DeliveredTo .mqttConfigCallback s message)

/-- All four subscriptions have been made. -/
def Subscribed : MainPhase → Prop
  | .subscribe left => left = []
  | .work => True
  | _ => False

/-! ## What the filters match -/

/-- A slot is passed over. -/
def Passes (s : Sys MainCallback) (topicName : List UInt8) (slot : MessageHandlers MainCallback) :
    Prop :=
  ∀ filter, slot.topicFilter = some filter →
    mqttPacketEquals topicName (s.strs filter) = false ∧
      isTopicMatched (s.strs filter) topicName = false

theorem mqttPacketEquals_eq_false {a b : List UInt8} (h : a ≠ b) : mqttPacketEquals a b = false := by
  rw [mqttPacketEquals, Bool.and_eq_false_iff]
  exact .inr (beq_eq_false_iff_ne.mpr h)

theorem deliver_passed {message : PublishData} {slots : List (MessageHandlers MainCallback)}
    {rc : Int} {s : Sys MainCallback} (h : ∀ slot ∈ slots, Passes s message.topicName slot) :
    slots.foldl (deliverSlot message) (rc, s) = (rc, s) := by
  induction slots with
  | nil => rfl
  | cons slot slots ih =>
    have hslot : deliverSlot message (rc, s) slot = (rc, s) := by
      have hpass := h slot (List.mem_cons_self ..)
      unfold deliverSlot
      cases hfilter : slot.topicFilter with
      | none => rfl
      | some filter =>
        obtain ⟨heq, hmatch⟩ := hpass filter hfilter
        simp [heq, hmatch]
    rw [List.foldl_cons, hslot]
    exact ih fun slot hmem => h slot (List.mem_cons_of_mem _ hmem)

/-- A message that all slots pass over goes to the default callback. -/
theorem deliver_default {message : PublishData} {s : Sys MainCallback} {callback : MainCallback}
    (h : ∀ slot ∈ s.client.messageHandlers, Passes s message.topicName slot)
    (hdefault : s.client.defaultMessageHandler = some callback) :
    DeliveredTo callback s message := by
  refine ⟨0, ?_⟩
  simp only [deliverMessage, Prog.run_act, deliver_passed h, if_true, hdefault]
  rfl

theorem DeliveredTo.unique {message : PublishData} {s : Sys MainCallback}
    {callback other : MainCallback} (h : DeliveredTo callback s message)
    (h' : DeliveredTo other s message) : callback = other := by
  obtain ⟨n, hlog⟩ := h
  obtain ⟨m, hlog'⟩ := h'
  rw [hlog, List.replicate_succ, List.replicate_succ, List.cons_append, List.cons_append] at hlog'
  have hhead := (List.cons.inj hlog').1
  cases hhead
  rfl

/-- No filter of the main thread matches the topic of the device's actions, while
`sub_temp` holds the topic of its configuration. -/
theorem action_not_matched (config : IboxConfig) {filter : Nat} (h : isFilter filter) :
    config.actionTopic ≠ filterStrings config.conTopic filter ∧
      isTopicMatched (filterStrings config.conTopic filter) config.actionTopic = false := by
  have hletter : ∀ filter rest, filterStrings config.conTopic filter = ascii "mqtt/con" ++ rest →
      config.actionTopic ≠ filterStrings config.conTopic filter ∧
        isTopicMatched (filterStrings config.conTopic filter) config.actionTopic = false := by
    -- the letter after the slash differs
    intro filter rest hrest
    rw [hrest]
    refine ⟨fun heq => ?_, rfl⟩
    exact absurd (congrArg (fun l => l[5]?) heq : some (97 : UInt8) = some 99) (by decide)
  rcases h with rfl | rfl | rfl
  · refine ⟨fun heq => ?_, rfl⟩
    -- the filter ends where the topic goes on
    exact absurd (congrArg (fun l => l[11]?) heq : some (45 : UInt8) = none) (by decide)
  · exact hletter _ (ascii "fig") rfl
  · exact hletter _ (ascii "-" ++ config.printedSn) rfl

/-! ## The run -/

/-- The invariant: what is left to subscribe, which filters the table holds, and what
is in `sub_temp` in the end. -/
structure Printed (m : MainThread) : Prop where
  left_suffix : ∀ left, m.phase = .subscribe left → left <:+ subscriptions m.config
  filters : FiltersIn isFilter m.sys
  default_eq : m.sys.client.defaultMessageHandler = some .mqttSubDefaultCallback
  strs_eq : Subscribed m.phase → m.sys.strs = filterStrings m.config.conTopic

theorem ready_client (m : MainThread) : m.ready.client = m.sys.client := by
  unfold MainThread.ready
  split
  · unfold printSubTemp
    split <;> rfl
  · rfl

theorem printed_init (config : IboxConfig) (net : Net) (readbuf temp : List UInt8) :
    Printed (mainInit config net readbuf temp) := by
  refine ⟨?_, ?_, rfl, ?_⟩
  · intro left hleft
    cases hleft
  · intro slot hslot filter hfilter
    cases (List.eq_of_mem_replicate hslot)
    cases hfilter
  · intro hsub
    cases hsub

/-- With the last subscription the topic of the device's configuration is printed. -/
theorem printed_last {config : IboxConfig} {sub : Subscription}
    (h : [sub] <:+ subscriptions config) : sub.printed = some config.conTopic := by
  obtain ⟨done, hdone⟩ := h
  have hlast := congrArg List.getLast? hdone
  rw [List.getLast?_append] at hlast
  cases hlast
  rfl

theorem printed_step {m : MainThread} (polls : Nat) (h : Printed m) :
    Printed (mainStep m polls).1 := by
  have heffects := effects_mainStep m polls
  have hphase := phase_mainStep m polls
  have hready := ready_client m
  obtain ⟨hstrs, hdefault⟩ := heffects.fixed
  refine ⟨?_, ?_, ?_, ?_⟩
  · intro left hleft
    rw [hleft] at hphase
    rw [config_mainStep]
    generalize hp : m.phase = phase at hphase
    cases hphase with
    | connected => exact List.suffix_rfl
    | subscribed sub => exact (List.suffix_cons sub left).trans (h.left_suffix _ hp)
  · apply heffects.filtersIn
    intro slot hslot
    rw [hready] at hslot
    exact h.filters slot hslot
  · rw [hdefault, hready]
    exact h.default_eq
  · intro hsub
    rw [hstrs, config_mainStep]
    generalize hp : m.phase = phase at hphase
    generalize (mainStep m polls).1.phase = phase' at hphase hsub
    -- only the subscriptions print into `sub_temp`, and none is left in these phases
    have hsame : Subscribed m.phase → m.ready.strs = filterStrings m.config.conTopic := by
      intro hs
      rw [← h.strs_eq hs]
      unfold MainThread.ready
      split
      · rename_i heq
        rw [heq] at hs
        cases hs
      · rfl
    cases hphase with
    | connected => cases hsub
    | subscribed sub left =>
      cases hsub
      simp only [MainThread.ready, hp, printSubTemp, printed_last (h.left_suffix _ hp)]
    | ready => exact hsame (by rw [hp]; rfl)
    | working => exact hsame (by rw [hp]; trivial)
    | _ => cases hsub

theorem printed_run (config : IboxConfig) (net : Net) (readbuf temp : List UInt8)
    (rounds : List Nat) :
    Printed (Machine.last mainStep (mainInit config net readbuf temp) rounds) ∧
      (Machine.last mainStep (mainInit config net readbuf temp) rounds).config = config := by
  apply Machine.run_invariant (I := fun m => Printed m ∧ m.config = config)
  · intro m polls h
    exact ⟨printed_step polls h.1, (config_mainStep m polls).trans h.2⟩
  · exact ⟨printed_init config net readbuf temp, rfl⟩

/-- **Routing.** Once everything is subscribed, in every run, a message to the topic of
the device's actions is given to the default callback, so the topics are not routed. -/
theorem device_actions_lost (config : IboxConfig) (net : Net) (readbuf temp : List UInt8)
    (rounds : List Nat)
    (hphase : Subscribed (Machine.last mainStep (mainInit config net readbuf temp) rounds).phase) :
    let s := (Machine.last mainStep (mainInit config net readbuf temp) rounds).sys
    (∀ message, message.topicName = config.actionTopic →
      DeliveredTo .mqttSubDefaultCallback s message ∧
        ¬ DeliveredTo .mqttActionCallback s message) ∧
    ¬ RoutesTopics config s := by
  intro s
  obtain ⟨hinv, hconfig⟩ := printed_run config net readbuf temp rounds
  have hlost : ∀ message, message.topicName = config.actionTopic →
      DeliveredTo .mqttSubDefaultCallback s message := by
    intro message htopic
    refine deliver_default (fun slot hslot filter hfilter => ?_) hinv.default_eq
    obtain ⟨hne, hmatch⟩ := action_not_matched config (hinv.filters slot hslot filter hfilter)
    rw [htopic, hinv.strs_eq hphase, hconfig]
    exact ⟨mqttPacketEquals_eq_false hne, hmatch⟩
  have hnot : ∀ message, message.topicName = config.actionTopic →
      ¬ DeliveredTo .mqttActionCallback s message := by
    intro message htopic haction
    exact absurd ((hlost message htopic).unique haction) (by decide)
  refine ⟨fun message htopic => ⟨hlost message htopic, hnot message htopic⟩, fun hroutes => ?_⟩
  exact hnot ⟨0, 0, 0, 0, config.actionTopic, [], none, none⟩ rfl ((hroutes _).1 (.inr rfl))

/-! ## A run -/

instance : DecidablePred Subscribed
  | .subscribe [] => .isTrue rfl
  | .subscribe (_ :: _) => .isFalse nofun
  | .work => .isTrue trivial
  | .start | .disconnect | .restart | .blocked => .isFalse id

theorem device_actions_lost_granted :
    let s := (Machine.last mainStep (someThread grantingBroker) [1, 1, 1, 1, 1, 1]).sys
    (∀ message, message.topicName = IboxConfig.initial.actionTopic →
      DeliveredTo .mqttSubDefaultCallback s message ∧
        ¬ DeliveredTo .mqttActionCallback s message) ∧
    ¬ RoutesTopics .initial s :=
  device_actions_lost .initial _ _ _ [1, 1, 1, 1, 1, 1] (by decide +kernel)

/-- The callbacks that have been called. -/
def callbacks (log : List (Entry MainCallback)) : List MainCallback :=
  log.filterMap fun e =>
    match e with
    | .delivered callback _ => some callback
    | _ => none

/-- A `PUBLISH` of an action for the device. -/
def actionPublish : List UInt8 := [48, 26, 0, 22] ++ IboxConfig.initial.actionTopic ++ ascii "\x7b\x7d"

def actionMessage : PublishData := (mqttDeserializePublish EnvStep.quiet.stale actionPublish).2

/-- An action for the device, after all four subscriptions have been granted. -/
theorem granted_action_lost :
    Subscribed (Machine.last mainStep (someThread grantingBroker) [1, 1, 1, 1, 1]).phase ∧
      ¬ RoutesTopics .initial (Machine.last mainStep (someThread grantingBroker) [1, 1, 1, 1, 1]).sys := by
  refine ⟨by decide +kernel, fun h => ?_⟩
  obtain ⟨n, hlog⟩ := (h actionMessage).1 (.inr (by decide +kernel))
  have hcalled := congrArg (fun log => (callbacks log).head?) hlog
  rw [List.replicate_succ, List.cons_append] at hcalled
  have hdefault : (callbacks (deliverMessage actionMessage
      (Machine.last mainStep (someThread grantingBroker) [1, 1, 1, 1, 1]).sys).2.log).head? =
      some .mqttSubDefaultCallback := by
    decide +kernel
  exact absurd (hdefault.symm.trans hcalled) (by simp [callbacks])

end IBoxClient
