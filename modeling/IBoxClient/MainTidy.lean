import IBoxClient.Lib.Machine
import IBoxClient.MainThread
import IBoxClient.MqttReturns

/- The handler table of the main thread.

   A filter is entered only while a session is open, and a session of the main thread is
   opened as a clean one, so closing it empties the table. The invariant (`Tidy`) ties the
   table to `isconnected` through `cleansession`, which only `MQTTConnect` sets.

   There are four subscriptions and five slots: with each subscription at most one slot
   is taken, so each finds a free one (`TidyThread`). `handlers_in_session` puts it together. -/
namespace IBoxClient

variable {κ : Type}

/-! ## The client -/

/-- The table is empty. -/
def NoHandlers (s : Sys κ) : Prop := ∀ slot ∈ s.client.messageHandlers, slot.topicFilter = none

/-- The slots that are taken. -/
def used (s : Sys κ) : Nat := s.client.messageHandlers.countP fun slot => slot.topicFilter.isSome

/-- The invariant of the client. -/
structure Tidy (s : Sys κ) : Prop where
  condata : s.client.condata.cleansession = true
  length_eq : s.client.messageHandlers.length = maxMessageHandlers
  opened : s.client.isconnected = true → s.client.cleansession = true
  closed : s.client.isconnected = false → NoHandlers s

theorem NoHandlers.used_eq {s : Sys κ} (h : NoHandlers s) : used s = 0 := by
  apply List.countP_eq_zero.mpr
  intro slot hslot
  rw [h slot hslot]
  exact Bool.false_ne_true

namespace SameSession
variable {s s' : Sys κ}

theorem used_eq (h : SameSession s s') : used s' = used s := by
  rw [used, used, h.messageHandlers]

theorem tidy (h : SameSession s s') (hs : Tidy s) : Tidy s' := by
  refine ⟨?_, ?_, ?_, ?_⟩
  · rw [h.condata]
    exact hs.condata
  · rw [h.messageHandlers]
    exact hs.length_eq
  · rw [h.isconnected, h.cleansession]
    exact hs.opened
  · rw [h.isconnected]
    intro hclosed slot hslot
    rw [h.messageHandlers] at hslot
    exact hs.closed hclosed slot hslot

end SameSession

theorem tidy_talks {α : Type} {p : Prog (Sys κ) α} (hp : Talks p) : Prog.Keeps Tidy p :=
  hp.keeps fun _ _ h hs => h.tidy hs

theorem tidy_close {s : Sys κ} (hs : Tidy s) :
    Tidy (mqttCloseSession s).2 ∧ (mqttCloseSession s).2.client.isconnected = false := by
  rw [closeSession_state]
  refine ⟨⟨hs.condata, ?_, fun h => absurd h Bool.false_ne_true, fun _ slot hslot => ?_⟩, rfl⟩
  · simp only [Sys.record_client, Sys.setClient_client]
    split
    · rw [List.length_map]
      exact hs.length_eq
    · exact hs.length_eq
  · simp only [Sys.record_client, Sys.setClient_client] at hslot
    split at hslot
    · obtain ⟨old, -, rfl⟩ := List.mem_map.mp hslot
      rfl
    · -- a session that is not clean is not open
      next hclean =>
      have hclosed : s.client.isconnected = false :=
        Bool.eq_false_iff.mpr fun hopen => hclean (hs.opened hopen)
      exact hs.closed hclosed slot hslot

theorem keeps_close : Prog.Keeps Tidy (mqttCloseSession : Prog (Sys κ) Unit) :=
  fun _ hs => (tidy_close hs).1

theorem tidy_requestExit (rc : Int) : Prog.Keeps Tidy (requestExit rc : Prog (Sys κ) Int) :=
  .ite (fun _ => keeps_close.bind fun _ => .pure _) fun _ => .pure _

/-- What is open when a connection is attempted, and what may be opened. -/
structure Opening (s : Sys κ) : Prop where
  tidy : Tidy s
  closed : s.client.isconnected = false
  clean : s.client.cleansession = true

theorem SameSession.opening {s s' : Sys κ} (h : SameSession s s') (hs : Opening s) : Opening s' :=
  ⟨h.tidy hs.tidy, h.isconnected.trans hs.closed, h.cleansession.trans hs.clean⟩

/-- What a connection leaves: an open session with an empty table, or none. -/
def Connects (rc : Int) (s : Sys κ) : Prop :=
  Tidy s ∧ (rc = mqttSuccess → used s = 0) ∧ (rc ≠ mqttSuccess → s.client.isconnected = false)

theorem spec_connectExit (rc : Int) :
    Prog.Spec Opening (connectExit rc : Prog (Sys κ) Int) Connects Tidy := by
  refine .ite (fun hrc => ?_) fun hrc => ?_
  · refine .bind (R := fun _ s => Tidy s ∧ used s = 0) (.act fun s hs => ⟨?_, ?_⟩) fun _ => ?_
    · exact ⟨hs.tidy.condata, hs.tidy.length_eq, fun _ => hs.clean, fun h => absurd h.symm
        Bool.false_ne_true⟩
    · exact NoHandlers.used_eq (s := s) (hs.tidy.closed hs.closed)
    · exact .pure _ fun s hs => ⟨hs.1, fun _ => hs.2, fun h => absurd hrc h⟩
  · exact .pure _ fun s hs => ⟨hs.tidy, fun h => absurd h hrc, fun _ => hs.closed⟩

theorem spec_opening {α : Type} {p : Prog (Sys κ) α} (hp : Talks p) :
    Prog.Spec Opening p (fun _ => Opening) Tidy :=
  (hp.spec fun _ _ h hs => h.opening hs).mono (fun _ hs => hs) (fun _ _ hs => hs)
    fun _ hs => hs.tidy

theorem spec_mqttConnect (polls : Nat) :
    Prog.Spec (fun s => Tidy s ∧ s.client.isconnected = false) (mqttConnect polls : Prog (Sys κ) Int)
      Connects Tidy := by
  refine .look fun s₀ => .look fun s => .ite (fun hopen => ?_) fun _ => ?_
  · intro s' h
    obtain ⟨⟨⟨-, hclosed⟩, -⟩, rfl⟩ := h
    exact absurd hopen (Bool.eq_false_iff.mp hclosed)
  refine .bind (R := fun _ => Opening) ?_ fun _ => ?_
  · refine .act ?_
    intro s' h
    obtain ⟨⟨⟨htidy, hclosed⟩, rfl⟩, -⟩ := h
    exact ⟨⟨htidy.condata, htidy.length_eq, fun _ => htidy.condata, htidy.closed⟩, hclosed,
      htidy.condata⟩
  cases mqttSerializeConnect s.client.bufSize ((some s₀.client.condata).getD connectDataInitializer)
    with
  | error _ => exact spec_connectExit _
  | ok packet =>
    refine .bind (spec_opening (talks_sendPacket packet)) fun rc => .ite (fun _ => ?_) fun _ => ?_
    · exact spec_connectExit rc
    refine .bind (spec_opening (talks_timeoutInit _)) fun timeout => ?_
    refine .bind (spec_opening (talks_waitfor _ _ _)) fun t => .ite (fun _ => ?_) fun _ => ?_
    · exact .look_any fun s => spec_connectExit _
    · exact spec_connectExit _

/-! ### Subscribing -/

/-- `MQTTSubscribe` up to the call of `MQTTSetMessageHandler`: nothing if it comes to that
call, else the return code. -/
def subscribeRequest (polls topicFilter qos : Nat) : Prog (Sys κ) (Option Int) := do
  let s ← Prog.look
  if ¬ s.client.isconnected then pure (some mqttFailure)
  else
    let id ← getNextPacketId
    match mqttSerializeSubscribe s.client.bufSize 0 id (.ofCString (s.strs topicFilter)) qos with
    | .error _ => pure (some mqttFailure)
    | .ok packet =>
      let rc ← sendPacket packet
      if rc ≠ mqttSuccess then pure (some rc)
      else
        let timeout ← timeoutInit replyTimeout
        let t ← waitfor SUBACK timeout polls
        if t = SUBACK then do
          let s ← Prog.look
          let r := mqttDeserializeSuback s.client.readbuf
          if r.1 = 1 ∧ r.2.1 ≠ 128 then pure none else pure (some rc)
        else pure (some mqttFailure)

/-- The rest of `MQTTSubscribe`. -/
def subscribeEnd (topicFilter : Nat) (messageHandler : κ) : Option Int → Prog (Sys κ) Int
  | some rc => requestExit rc
  | none => do
    let rc ← mqttSetMessageHandler topicFilter (some messageHandler)
    requestExit rc

theorem mqttSubscribe_eq (polls topicFilter qos : Nat) (messageHandler : κ) :
    mqttSubscribe polls topicFilter qos messageHandler =
      subscribeRequest polls topicFilter qos >>= subscribeEnd topicFilter messageHandler := by
  unfold mqttSubscribe subscribeRequest
  rw [bind_assoc]
  apply bind_congr
  intro s
  split
  · rfl
  · rw [bind_assoc]
    apply bind_congr
    intro id
    cases mqttSerializeSubscribe s.client.bufSize 0 id (.ofCString (s.strs topicFilter)) qos with
    | error _ => rfl
    | ok packet =>
      dsimp only
      rw [bind_assoc]
      apply bind_congr
      intro rc
      split
      · rfl
      · rw [bind_assoc]
        apply bind_congr
        intro timeout
        rw [bind_assoc]
        apply bind_congr
        intro t
        split
        · rw [bind_assoc]
          apply bind_congr
          intro s
          split <;> rfl
        · rfl

theorem talks_subscribeRequest (polls topicFilter qos : Nat) :
    Talks (subscribeRequest polls topicFilter qos : Prog (Sys κ) (Option Int)) := by
  refine .look fun s => .ite (.pure _) (.bind talks_getNextPacketId fun id => ?_)
  cases mqttSerializeSubscribe s.client.bufSize 0 id (.ofCString (s.strs topicFilter)) qos with
  | error _ => exact .pure _
  | ok packet =>
    refine .bind (talks_sendPacket packet) fun rc => .ite (.pure _) ?_
    refine .bind (talks_timeoutInit _) fun timeout => .bind (talks_waitfor _ _ _) fun t => ?_
    exact .ite (.look fun s => .ite (.pure _) (.pure _)) (.pure _)

/-- A handler is entered while the session is open only. -/
theorem connected_of_request {polls topicFilter qos : Nat} {s s' : Sys κ}
    (h : subscribeRequest polls topicFilter qos s = (some none, s')) :
    s'.client.isconnected = true := by
  have hopen : s.client.isconnected = true := by
    by_contra hclosed
    rw [subscribeRequest, Prog.run_look_bind, if_pos hclosed] at h
    cases h
  have hsame := talks_subscribeRequest polls topicFilter qos s
  rw [h] at hsame
  exact hsame.isconnected.trans hopen

/-- Setting a handler takes one more slot at most. -/
theorem setMessageHandler_used (filter : Nat) (callback : κ) (s : Sys κ) :
    let r := mqttSetMessageHandler filter (some callback) s
    used r.2 ≤ used s + 1 ∧ r.2.client.messageHandlers.length = s.client.messageHandlers.length ∧
      (used s < s.client.messageHandlers.length → r.1 = some mqttSuccess) := by
  have hset : ∀ i, i < s.client.messageHandlers.length →
      (s.client.messageHandlers.set i ⟨some filter, some callback⟩).countP
        (fun slot => slot.topicFilter.isSome) ≤ used s + 1 := by
    intro i hi
    rw [List.countP_set hi]
    exact Nat.add_le_add (Nat.sub_le _ _) (by split <;> omega)
  simp only [mqttSetMessageHandler, Prog.run_act]
  split
  · next heq =>
    cases heq
  · next i _ hfound heq =>
    cases heq
    obtain ⟨hi, -⟩ := List.findIdx?_eq_some_iff_getElem.mp hfound
    exact ⟨hset i hi, List.length_set, fun _ => rfl⟩
  · next heq =>
    cases heq
  · next heq =>
    cases heq
    split
    · next i hfree =>
      obtain ⟨hi, -⟩ := List.findIdx?_eq_some_iff_getElem.mp hfree
      exact ⟨hset i hi, List.length_set, fun _ => rfl⟩
    · next hfull =>
      refine ⟨Nat.le_succ _, rfl, fun hlt => absurd hlt ?_⟩
      rw [List.findIdx?_eq_none_iff] at hfull
      refine Nat.not_lt.mpr (Nat.le_of_eq (Eq.symm ?_))
      apply List.countP_eq_length.mpr
      intro slot hslot
      have hslot := hfull slot hslot
      rwa [Option.isNone_eq_false_iff] at hslot

/-- With at most `n` slots taken. -/
def TidyUpTo (n : Nat) (s : Sys κ) : Prop := Tidy s ∧ used s ≤ n

theorem spec_subscribeRequest (polls topicFilter qos n : Nat) :
    Prog.Spec (TidyUpTo n) (subscribeRequest polls topicFilter qos : Prog (Sys κ) (Option Int))
      (fun r s => TidyUpTo n s ∧ (r = none → s.client.isconnected = true)) Tidy := by
  intro s h
  obtain ⟨htidy, hused⟩ := h
  have hsame := talks_subscribeRequest polls topicFilter qos s
  cases hr : subscribeRequest polls topicFilter qos s with
  | mk r s' =>
    rw [hr] at hsame
    cases r with
    | none => exact hsame.tidy htidy
    | some r =>
      refine ⟨⟨hsame.tidy htidy, hsame.used_eq.trans_le hused⟩, ?_⟩
      rintro rfl
      exact connected_of_request hr

theorem spec_setMessageHandler_used (filter : Nat) (callback : κ) (n : Nat) :
    Prog.Spec (fun s => TidyUpTo n s ∧ s.client.isconnected = true)
      (mqttSetMessageHandler filter (some callback)) (fun _ => TidyUpTo (n + 1)) Tidy := by
  intro s h
  obtain ⟨⟨htidy, hused⟩, hopen⟩ := h
  obtain ⟨hle, hlength, -⟩ := setMessageHandler_used filter callback s
  obtain ⟨slots, hslots, -⟩ := setMessageHandler_state filter (some callback) s
  have htidy' : Tidy (mqttSetMessageHandler filter (some callback) s).2 := by
    rw [hslots] at hlength ⊢
    refine ⟨htidy.condata, hlength.trans htidy.length_eq, htidy.opened, fun hclosed => ?_⟩
    exact absurd (hopen.symm.trans hclosed) Bool.false_ne_true.symm
  exact ⟨htidy', hle.trans (Nat.succ_le_succ hused)⟩

theorem spec_requestExit_used (rc : Int) (n : Nat) :
    Prog.Spec (TidyUpTo n) (requestExit rc : Prog (Sys κ) Int)
      (fun rc s => Tidy s ∧ (rc = mqttSuccess → used s ≤ n)) Tidy := by
  refine .ite (fun hrc => ?_) fun _ => .pure _ fun s hs => ⟨hs.1, fun _ => hs.2⟩
  intro s h
  obtain ⟨htidy, -⟩ := h
  rw [Prog.run_bind_some (run_closeSession s)]
  exact ⟨(tidy_close htidy).1, fun h => absurd (hrc.symm.trans h) (by decide)⟩

/-- A subscription takes one more slot at most. -/
theorem spec_mqttSubscribe (polls topicFilter qos : Nat) (messageHandler : κ) (n : Nat) :
    Prog.Spec (TidyUpTo n) (mqttSubscribe polls topicFilter qos messageHandler)
      (fun rc s => Tidy s ∧ (rc = mqttSuccess → used s ≤ n + 1)) Tidy := by
  rw [mqttSubscribe_eq]
  refine .bind (spec_subscribeRequest polls topicFilter qos n) fun r => ?_
  cases r with
  | some rc =>
    exact (spec_requestExit_used rc (n + 1)).weaken fun s hs => ⟨hs.1.1, Nat.le_succ_of_le hs.1.2⟩
  | none =>
    refine .bind (R := fun _ => TidyUpTo (n + 1)) ?_ fun rc => spec_requestExit_used rc (n + 1)
    exact (spec_setMessageHandler_used topicFilter messageHandler n).weaken fun s hs =>
      ⟨hs.1, hs.2 rfl⟩

theorem tidy_mqttDisconnect :
    Prog.Spec Tidy (mqttDisconnect : Prog (Sys κ) Int)
      (fun _ s => Tidy s ∧ s.client.isconnected = false) Tidy := by
  have hclose : ∀ rc : Int, Prog.Spec Tidy (mqttCloseSession >>= fun _ => pure rc : Prog (Sys κ) Int)
      (fun _ s => Tidy s ∧ s.client.isconnected = false) Tidy := by
    intro rc s hs
    rw [Prog.run_bind_some (run_closeSession s)]
    exact tidy_close hs
  refine .look_any fun s => ?_
  cases mqttSerializeDisconnect s.client.bufSize with
  | error _ => exact hclose _
  | ok packet => exact .bind (tidy_talks (talks_sendPacket packet)).spec hclose

theorem tidy_mqttPublish (polls : Nat) (topicName : List UInt8) (message : MqttMessage) :
    Prog.Keeps Tidy (mqttPublish polls topicName message : Prog (Sys κ) Int) := by
  refine Prog.Keeps.look.bind fun s => .ite (fun _ => tidy_requestExit _) fun _ => ?_
  refine (tidy_talks (talks_publishId message)).bind fun id => ?_
  have hwait : ∀ ack timeout rc,
      Prog.Keeps Tidy (publishWait polls ack timeout rc : Prog (Sys κ) Int) := by
    intro ack timeout rc
    refine (tidy_talks (talks_waitfor _ _ _)).bind fun t => .ite (fun _ => ?_) fun _ => ?_
    · exact Prog.Keeps.look.bind fun s => tidy_requestExit _
    · exact tidy_requestExit _
  cases mqttSerializePublish s.client.bufSize 0 message.qos message.retained id
      (.ofCString topicName) message.payload with
  | error _ => exact tidy_requestExit _
  | ok packet =>
    refine (tidy_talks (talks_sendPacket packet)).bind fun rc => .ite (fun _ => ?_) fun _ => ?_
    · exact tidy_requestExit _
    refine (tidy_talks (talks_timeoutInit _)).bind fun timeout => ?_
    refine .ite (fun _ => hwait _ _ _) fun _ => ?_
    exact .ite (fun _ => hwait _ _ _) fun _ => tidy_requestExit _

theorem tidy_mqttCycle [Callback κ] : Prog.Keeps Tidy (mqttCycle : Prog (Sys κ) Int) := by
  refine (tidy_talks talks_readPacket).bind fun packetType => ?_
  refine (tidy_talks (talks_cycleSwitch _)).bind fun rc => .ite (fun _ => .pure _) fun _ => ?_
  refine Prog.Keeps.look.bind fun s => .ite (fun _ => ?_) fun _ => .pure _
  exact keeps_close.bind fun _ => .pure _

theorem talks_keepalive : Talks (keepalive : Prog (Sys κ) Int) := by
  refine .look fun s => .ite (.pure _) (.ite (.pure _) ?_)
  cases mqttSerializePingreq s.client.bufSize with
  | error _ => exact .pure _
  | ok packet =>
    refine .bind (talks_sendPacket packet) fun rc => .ite ?_ (.pure _)
    refine .bind talks_getSysTimeMs fun now => .bind (fun _ => ?_) fun _ => .pure _
    exact ⟨rfl, rfl, rfl, rfl, rfl⟩

/-! ## The main thread -/

theorem talks_getSysTimeS : Talks (getSysTimeS : Prog (Sys MainCallback) UInt32) :=
  fun _ => ⟨rfl, rfl, rfl, rfl, rfl⟩

theorem talks_setTickPing : Talks setTickPing :=
  .bind talks_getSysTimeS fun _ _ => ⟨rfl, rfl, rfl, rfl, rfl⟩

theorem talks_workPing : Talks workPing := by
  refine .bind talks_getSysTimeS fun now => .look fun s => .ite ?_ (.pure _)
  exact .bind talks_keepalive fun ret => .ite (.pure _) (.bind talks_setTickPing fun _ => .pure _)

theorem tidy_workPublish (config : IboxConfig) (publishTime : UInt32) (polls : Nat) :
    Prog.Keeps Tidy (workPublish config publishTime polls) := by
  have htime : Prog.Keeps Tidy (getSysTimeS : Prog (Sys MainCallback) UInt32) :=
    tidy_talks talks_getSysTimeS
  have hmsg : Prog.Keeps Tidy createMsg := tidy_talks fun _ => ⟨rfl, rfl, rfl, rfl, rfl⟩
  refine htime.bind fun now => .ite (fun _ => ?_) fun _ => .pure _
  refine Prog.Keeps.bind (hmsg.bind fun msg => ?_) fun ret => .ite (fun _ => .pure _) fun _ => ?_
  · cases msg with
    | none => exact .pure _
    | some msg => exact htime.bind fun now => tidy_mqttPublish _ _ _
  · exact htime.bind fun _ => .pure _

theorem tidy_mainWork (config : IboxConfig) (publishTime : UInt32) (polls : Nat) :
    Prog.Keeps Tidy (mainWork config publishTime polls) := by
  refine (tidy_talks talks_workPing).bind fun ret => .ite (fun _ => .pure _) fun _ => ?_
  refine tidy_mqttCycle.bind fun ret => .ite (fun _ => .pure _) fun _ => ?_
  refine (tidy_workPublish _ _ _).bind fun r => .ite (fun _ => .pure _) fun _ => .pure _

/-- The slots that the subscriptions still to be made may find taken: of five, four are
for all of them. -/
def PhaseTidy (phase : MainPhase) (s : Sys MainCallback) : Prop :=
  match phase with
  | .start | .restart => s.client.isconnected = false
  | .subscribe left => used s + left.length ≤ 4
  | .work | .disconnect | .blocked => True

/-- The invariant of the thread. -/
structure TidyThread (m : MainThread) : Prop where
  tidy : Tidy m.sys
  phase : PhaseTidy m.phase m.sys

theorem spec_mainConnect (config : IboxConfig) (polls : Nat) :
    Prog.Spec (fun s => Tidy s ∧ s.client.isconnected = false) (mainConnect config polls)
      (fun phase s => Tidy s ∧ PhaseTidy phase s) Tidy := by
  refine .bind (spec_mqttConnect polls) fun rc => .pure _ ?_
  intro s h
  obtain ⟨htidy, hopen, hclosed⟩ := h
  split
  · next hrc => exact ⟨htidy, hclosed hrc⟩
  · next hrc =>
    refine ⟨htidy, ?_⟩
    show used s + (subscriptions config).length ≤ 4
    rw [hopen (not_not.mp hrc)]
    exact Nat.le_refl 4

theorem tidy_printSubTemp (printed : Option (List UInt8)) {s : Sys MainCallback} (hs : Tidy s) :
    Tidy (printSubTemp printed s) ∧ used (printSubTemp printed s) = used s := by
  unfold printSubTemp
  split
  · exact ⟨⟨hs.condata, hs.length_eq, hs.opened, hs.closed⟩, rfl⟩
  · exact ⟨hs, rfl⟩

theorem spec_mainSubscribe (polls : Nat) (left : List Subscription) :
    Prog.Spec (fun s => Tidy s ∧ used s + left.length ≤ 4) (mainSubscribe polls left)
      (fun phase s => Tidy s ∧ PhaseTidy phase s) Tidy := by
  cases left with
  | nil =>
    refine .bind (R := fun _ => Tidy) ?_ fun _ => .pure _ fun s hs => ⟨hs, trivial⟩
    exact (tidy_talks talks_setTickPing).spec.weaken fun _ hs => hs.1
  | cons sub left =>
    intro s h
    obtain ⟨htidy, hroom⟩ := h
    obtain ⟨htidy', hused⟩ := tidy_printSubTemp sub.printed htidy
    have hspec := (spec_mqttSubscribe polls sub.topicFilter sub.qos sub.callback (used s)).bind
      (f := fun rc => pure (if rc ≠ mqttSuccess then MainPhase.disconnect else .subscribe left))
      (Q := fun phase s => Tidy s ∧ PhaseTidy phase s) fun rc => .pure _ ?_
    · exact hspec _ ⟨htidy', Nat.le_of_eq hused⟩
    · intro s' h
      obtain ⟨htidy'', hused'⟩ := h
      split
      · exact ⟨htidy'', trivial⟩
      · next hrc =>
        refine ⟨htidy'', ?_⟩
        have hle := hused' (not_not.mp hrc)
        show used s' + left.length ≤ 4
        rw [List.length_cons] at hroom
        omega

theorem spec_mainRound (config : IboxConfig) (publishTime : UInt32) (polls : Nat)
    (phase : MainPhase) :
    Prog.Spec (fun s => Tidy s ∧ PhaseTidy phase s) (mainRound config publishTime polls phase)
      (fun r s => Tidy s ∧ PhaseTidy r.1 s) Tidy := by
  cases phase with
  | start => exact (spec_mainConnect config polls).bind fun phase => .pure _ fun _ hs => hs
  | subscribe left => exact (spec_mainSubscribe polls left).bind fun phase => .pure _ fun _ hs => hs
  | work =>
    intro s h
    obtain ⟨htidy, -⟩ := h
    have htidy' := tidy_mainWork config publishTime polls s htidy
    have hphase := phase_mainRound config publishTime polls .work s trivial
    simp only [mainRound] at hphase ⊢
    generalize mainWork config publishTime polls s = r at htidy' hphase ⊢
    obtain ⟨r, s'⟩ := r
    cases r with
    | none => exact htidy'
    | some r =>
      obtain ⟨phase, time⟩ := r
      refine ⟨htidy', ?_⟩
      -- from the work loop there is no way but on or to the disconnect
      cases hphase with
      | working => trivial
      | failed => trivial
      | stuck => trivial
  | disconnect =>
    refine .bind (R := fun phase s => Tidy s ∧ PhaseTidy phase s) ?_ fun phase =>
      .pure _ fun _ hs => hs
    refine .bind (R := fun _ s => Tidy s ∧ s.client.isconnected = false) ?_ fun _ =>
      .pure _ fun s hs => hs
    exact tidy_mqttDisconnect.weaken fun _ hs => hs.1
  | restart => exact .pure _ fun s hs => hs
  | blocked => exact .pure _ fun s hs => hs

theorem tidyThread_step {m : MainThread} (polls : Nat) (h : TidyThread m) :
    TidyThread (mainStep m polls).1 := by
  have hround := spec_mainRound m.config m.publishTime polls m.phase m.sys ⟨h.tidy, h.phase⟩
  unfold mainStep
  generalize mainRound m.config m.publishTime polls m.phase m.sys = r at hround ⊢
  obtain ⟨r, s⟩ := r
  cases r with
  | none => exact ⟨hround, trivial⟩
  | some r => exact ⟨hround.1, hround.2⟩

theorem tidyThread_init (config : IboxConfig) (net : Net) (readbuf temp : List UInt8) :
    TidyThread (mainInit config net readbuf temp) := by
  refine ⟨⟨rfl, rfl, fun h => absurd h Bool.false_ne_true, fun _ slot hslot => ?_⟩, rfl⟩
  rw [List.eq_of_mem_replicate hslot]

theorem tidyThread_run (config : IboxConfig) (net : Net) (readbuf temp : List UInt8)
    (rounds : List Nat) :
    TidyThread (Machine.last mainStep (mainInit config net readbuf temp) rounds) :=
  Machine.run_invariant (fun _ polls h => tidyThread_step polls h)
    (tidyThread_init config net readbuf temp) rounds

/-- The states between the client calls of a round. -/
inductive BetweenCalls (m : MainThread) : Sys MainCallback → Prop
  | ready : BetweenCalls m m.ready
  | pinged (hphase : m.phase = .work) : BetweenCalls m (workPing m.sys).2
  | cycled (hphase : m.phase = .work) (hping : (workPing m.sys).1 = some mqttSuccess) :
    BetweenCalls m (mqttCycle (workPing m.sys).2).2

theorem tidy_betweenCalls {m : MainThread} (h : TidyThread m) {s : Sys MainCallback}
    (hs : BetweenCalls m s) : Tidy s := by
  have hpinged : Tidy (workPing m.sys).2 := tidy_talks talks_workPing m.sys h.tidy
  cases hs with
  | ready =>
    unfold MainThread.ready
    split
    · exact (tidy_printSubTemp _ h.tidy).1
    · exact h.tidy
  | pinged => exact hpinged
  | cycled => exact tidy_mqttCycle _ hpinged

/-- A subscription that comes to enter its handler finds a slot. -/
theorem slot_free {m : MainThread} (h : TidyThread m) {sub : Subscription}
    {left : List Subscription} (hphase : m.phase = .subscribe (sub :: left)) {polls : Nat}
    {s : Sys MainCallback}
    (hr : subscribeRequest polls sub.topicFilter sub.qos m.ready = (some none, s)) :
    (mqttSetMessageHandler sub.topicFilter (some sub.callback) s).1 = some mqttSuccess := by
  have hroom := h.phase
  rw [hphase] at hroom
  have hready : m.ready = printSubTemp sub.printed m.sys := by
    unfold MainThread.ready
    rw [hphase]
  obtain ⟨htidy, hused⟩ := tidy_printSubTemp sub.printed h.tidy
  rw [← hready] at htidy hused
  have hsame := talks_subscribeRequest polls sub.topicFilter sub.qos m.ready
  rw [hr] at hsame
  obtain ⟨-, -, hset⟩ := setMessageHandler_used sub.topicFilter sub.callback s
  apply hset
  have hlength := (hsame.tidy htidy).length_eq
  have heq : used s = used m.sys := hsame.used_eq.trans hused
  have hlt : used m.sys + (left.length + 1) ≤ 4 := hroom
  rw [heq, hlength, show maxMessageHandlers = 5 from rfl]
  omega

/-- **Handlers and sessions.** In every run of the main thread: between calls a client
without a session has no handlers; `MQTTConnect` is called without a session; and every
handler that is to be entered finds a slot. -/
theorem handlers_in_session (config : IboxConfig) (net : Net) (readbuf temp : List UInt8)
    (rounds : List Nat) :
    let m := Machine.last mainStep (mainInit config net readbuf temp) rounds
    (∀ s, BetweenCalls m s → s.client.isconnected = false →
      ∀ slot ∈ s.client.messageHandlers, slot.topicFilter = none) ∧
    (m.phase = .start → m.sys.client.isconnected = false) ∧
    ∀ sub left, m.phase = .subscribe (sub :: left) → ∀ polls s,
      subscribeRequest polls sub.topicFilter sub.qos m.ready = (some none, s) →
        (mqttSetMessageHandler sub.topicFilter (some sub.callback) s).1 = some mqttSuccess := by
  intro m
  have h : TidyThread m := tidyThread_run config net readbuf temp rounds
  refine ⟨fun s hs => (tidy_betweenCalls h hs).closed, fun hphase => ?_, ?_⟩
  · have hclosed := h.phase
    rw [hphase] at hclosed
    exact hclosed
  · intro sub left hphase polls s hr
    exact slot_free h hphase hr

end IBoxClient
