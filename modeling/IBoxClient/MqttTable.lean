import IBoxClient.Lib.Slots
import IBoxClient.MqttClient

/- The table of handlers as `MQTTSetMessageHandler` changes it: one of `Slots`, in which a
   filter is looked for by its text. -/
namespace IBoxClient

variable {κ : Type}

/-- The slot is for the topic filter at an address. -/
def MessageHandlers.isFor (strs : Nat → List UInt8) (topicFilter : Nat)
    (slot : MessageHandlers κ) : Bool :=
  match slot.topicFilter with
  | some filter => strs filter == strs topicFilter
  | none => false

/-- The slot is for another topic filter. -/
def MessageHandlers.IsForOther (strs : Nat → List UInt8) (topicFilter : Nat)
    (slot : MessageHandlers κ) : Prop :=
  ∃ filter, slot.topicFilter = some filter ∧ strs filter ≠ strs topicFilter

/-- The slot holds the topic filter with a handler. -/
def MessageHandlers.Holds (strs : Nat → List UInt8) (topicFilter : Nat) (messageHandler : κ)
    (slot : MessageHandlers κ) : Prop :=
  slot.isFor strs topicFilter = true ∧ slot.callback = some messageHandler

/-- The table with a handler for a topic filter, if there is a slot for it. -/
def handlersWith (strs : Nat → List UInt8) (topicFilter : Nat) (messageHandler : κ)
    (slots : List (MessageHandlers κ)) : Option (List (MessageHandlers κ)) :=
  Slots.install (MessageHandlers.isFor strs topicFilter) (fun slot => slot.topicFilter.isNone)
    ⟨some topicFilter, some messageHandler⟩ slots

/-- There is a slot for the topic filter: its own, or an empty one. -/
def HasRoom (strs : Nat → List UInt8) (topicFilter : Nat) (slots : List (MessageHandlers κ)) :
    Prop :=
  ∃ slot ∈ slots, slot.isFor strs topicFilter = true ∨ slot.topicFilter = none

/-- Behind its first slot, the topic filter is in no other one with this handler. -/
def OnceAtMost (strs : Nat → List UInt8) (topicFilter : Nat) (messageHandler : κ)
    (slots : List (MessageHandlers κ)) : Prop :=
  ∀ other ∈ (slots.dropWhile fun slot => !slot.isFor strs topicFilter).tail,
    ¬ other.Holds strs topicFilter messageHandler

/-- Setting a handler is installing it. -/
theorem setMessageHandler_eq (topicFilter : Nat) (messageHandler : κ) (s : Sys κ) :
    mqttSetMessageHandler topicFilter (some messageHandler) s =
      match handlersWith s.strs topicFilter messageHandler s.client.messageHandlers with
      | some slots => (some mqttSuccess, s.setClient fun c => { c with messageHandlers := slots })
      | none => (some mqttFailure, s) := by
  have hwith : ∀ existing,
      s.client.messageHandlers.findIdx? (MessageHandlers.isFor s.strs topicFilter) = existing →
      handlersWith s.strs topicFilter messageHandler s.client.messageHandlers =
        (existing.or (s.client.messageHandlers.findIdx? fun slot => slot.topicFilter.isNone)).map
          fun i => s.client.messageHandlers.set i ⟨some topicFilter, some messageHandler⟩ := by
    intro existing hexisting
    rw [handlersWith, Slots.install, Slots.place, hexisting]
  simp only [mqttSetMessageHandler, Prog.run_act]
  split
  · next heq => cases heq
  · next i _ hfound heq =>
    cases heq
    rw [hwith (some i) hfound]
    rfl
  · next heq => cases heq
  · next hnone heq =>
    cases heq
    rw [hwith none hnone, Option.none_or]
    split
    · next i hfree =>
      rw [hfree]
      rfl
    · next hfree =>
      rw [hfree]
      rfl

section Table
variable {strs : Nat → List UInt8} {topicFilter : Nat} {messageHandler : κ}
  {slots slots' : List (MessageHandlers κ)}

theorem holds_own (strs : Nat → List UInt8) (topicFilter : Nat) (messageHandler : κ) :
    MessageHandlers.Holds strs topicFilter messageHandler ⟨some topicFilter, some messageHandler⟩ :=
  ⟨beq_self_eq_true _, rfl⟩

theorem not_isForOther_of_isFor {slot : MessageHandlers κ}
    (h : slot.isFor strs topicFilter = true) : ¬ slot.IsForOther strs topicFilter := by
  intro hother
  obtain ⟨filter, hfilter, hne⟩ := hother
  rw [MessageHandlers.isFor, hfilter] at h
  exact hne (eq_of_beq h)

theorem handlersWith_cases (strs : Nat → List UInt8) (topicFilter : Nat) (messageHandler : κ)
    (slots : List (MessageHandlers κ)) :
    (∃ before slot after, slots = before ++ slot :: after ∧
      Slots.Chosen (MessageHandlers.isFor strs topicFilter) (fun slot => slot.topicFilter.isNone)
        before slot after ∧
      handlersWith strs topicFilter messageHandler slots =
        some (before ++ ⟨some topicFilter, some messageHandler⟩ :: after)) ∨
    (∀ slot ∈ slots, slot.isFor strs topicFilter = false ∧ slot.topicFilter.isNone = false) ∧
      handlersWith strs topicFilter messageHandler slots = none :=
  Slots.install_cases _ slots

theorem handlersWith_none (h : handlersWith strs topicFilter messageHandler slots = none) :
    ¬ HasRoom strs topicFilter slots := by
  intro hroom
  obtain ⟨slot, hmem, hslot⟩ := hroom
  rcases handlersWith_cases strs topicFilter messageHandler slots with
    ⟨_, _, _, -, -, hinstall⟩ | ⟨hfull, -⟩
  · cases hinstall.symm.trans h
  · obtain ⟨hsame, hfree⟩ := hfull slot hmem
    rcases hslot with hslot | hslot
    · exact Bool.false_ne_true (hsame.symm.trans hslot)
    · rw [hslot] at hfree
      cases hfree

/-- **The table with a handler.** There was room for it, the slots for other filters are the same,
and the handler is in exactly one slot if its filter was in no other slot with it. -/
theorem handlersWith_some (h : handlersWith strs topicFilter messageHandler slots = some slots') :
    HasRoom strs topicFilter slots ∧
      (∀ (i : Nat) (slot : MessageHandlers κ), slot.IsForOther strs topicFilter →
        (slots'[i]? = some slot ↔ slots[i]? = some slot)) ∧
      (Slots.Only (MessageHandlers.Holds strs topicFilter messageHandler) slots' ↔
        OnceAtMost strs topicFilter messageHandler slots) := by
  rcases handlersWith_cases strs topicFilter messageHandler slots with
    ⟨before, slot, after, rfl, hchosen, hinstall⟩ | ⟨-, hinstall⟩
  swap
  · cases hinstall.symm.trans h
  obtain rfl := Option.some.inj (hinstall.symm.trans h)
  rw [Slots.only_iff (holds_own strs topicFilter messageHandler)]
  have hmem : slot ∈ before ++ slot :: after := List.mem_append_right _ List.mem_cons_self
  have hown := not_isForOther_of_isFor (holds_own strs topicFilter messageHandler).1
  cases hchosen with
  | key hx hbefore =>
    refine ⟨⟨slot, hmem, .inl hx⟩, Slots.kept (not_isForOther_of_isFor hx) hown, ?_⟩
    have hfirst : (before ++ slot :: after).dropWhile
        (fun slot => !slot.isFor strs topicFilter) = slot :: after := by
      rw [List.dropWhile_append_of_pos, List.dropWhile_cons_of_neg]
      · rw [hx]
        exact Bool.false_ne_true
      · intro other hother
        rw [hbefore other hother]
        rfl
    rw [OnceAtMost, hfirst, List.tail_cons]
    constructor
    · intro honly other hother
      exact honly other (List.mem_append_right _ hother)
    · intro honce other hother hholds
      rcases List.mem_append.mp hother with hother | hother
      · exact Bool.false_ne_true ((hbefore other hother).symm.trans hholds.1)
      · exact honce other hother hholds
  | free hx hother =>
    have hempty : slot.topicFilter = none := Option.isNone_iff_eq_none.mp hx
    have hslot : ¬ slot.IsForOther strs topicFilter := by
      intro hfor
      obtain ⟨filter, hfilter, -⟩ := hfor
      cases hempty.symm.trans hfilter
    have hnone : ∀ other ∈ before ++ slot :: after,
        ¬ other.Holds strs topicFilter messageHandler := by
      intro other hmem hholds
      exact Bool.false_ne_true ((hother other hmem).symm.trans hholds.1)
    refine ⟨⟨slot, hmem, .inr hempty⟩, Slots.kept hslot hown, fun _ other hmem => ?_,
      fun _ other hmem => ?_⟩
    · exact hnone other ((List.dropWhile_sublist _).mem (List.mem_of_mem_tail hmem))
    · rcases List.mem_append.mp hmem with hmem | hmem
      · exact hnone other (List.mem_append_left _ hmem)
      · exact hnone other (List.mem_append_right _ (List.mem_cons_of_mem slot hmem))

end Table

end IBoxClient
