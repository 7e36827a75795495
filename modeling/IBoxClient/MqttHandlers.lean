import IBoxClient.Lib.Simulation
import IBoxClient.Lib.Table
import IBoxClient.MqttSubscribe

/- The table of handlers as a finite map.

   What the table is for is to map topic filters to handlers, five at most. Here it is shown to
   be one, in the terms of `Lib.Table`: whatever handlers are set and removed, and whenever the
   session is cleaned, no filter has two slots, and all return codes are those of a map
   (`handlers_are_map`). What a call does to the slots is said by `TableStep`.

   A filter is kept as a pointer. So the map is one of texts only as long as those that the
   table points to are left as they are (`KeepsFilters`). -/
namespace IBoxClient

open Table

variable {κ : Type}

/-- The calls that change the table, and what else is written into the memory of the texts. -/
inductive TableCall (κ : Type) where
  | set (topicFilter : Nat) (messageHandler : Option κ)
  | clean
  | memory (strs : Nat → List UInt8)

/-- A call, and its return code. -/
def tableStep (s : Sys κ) : TableCall κ → Sys κ × List Int
  | .set topicFilter messageHandler =>
    let r := mqttSetMessageHandler topicFilter messageHandler s
    (r.2, r.1.toList)
  | .clean => ((mqttCleanSession s).2, [])
  | .memory strs => ({ s with strs := strs }, [])

/-- The texts of the filters in the table are left as they are. -/
def KeepsFilters (s : Sys κ) : TableCall κ → Prop
  | .memory strs => ∀ slot ∈ s.client.messageHandlers, ∀ filter, slot.topicFilter = some filter →
      strs filter = s.strs filter
  | _ => True

/-- No slot has a filter. Its callbacks may be anything. -/
structure AllNull (s : Sys κ) : Prop where
  length_eq : s.client.messageHandlers.length = maxMessageHandlers
  null : ∀ slot ∈ s.client.messageHandlers, slot.topicFilter = none

/-- The text of the filter of a slot. -/
def MessageHandlers.text (strs : Nat → List UInt8) (slot : MessageHandlers κ) :
    Option (List UInt8) :=
  slot.topicFilter.map strs

/-- Some slot holds a filter, by its text, with a handler. -/
def Sys.Handles (s : Sys κ) (text : List UInt8) (messageHandler : κ) : Prop :=
  Has (MessageHandlers.text s.strs) MessageHandlers.callback s.client.messageHandlers text
    messageHandler

/-- No two slots hold the same filter. -/
def Sys.DistinctFilters (s : Sys κ) : Prop :=
  Distinct (MessageHandlers.text s.strs) s.client.messageHandlers

/-- No slot holds the filter. -/
def Sys.Lacks (s : Sys κ) (topicFilter : Nat) : Prop :=
  ∀ slot ∈ s.client.messageHandlers, slot.text s.strs ≠ some (s.strs topicFilter)

def Sys.withHandlers (s : Sys κ) (slots : List (MessageHandlers κ)) : Sys κ :=
  s.setClient fun c => { c with messageHandlers := slots }

/-- What a call does to the slots. -/
inductive TableStep (s : Sys κ) : TableCall κ → Sys κ × List Int → Prop where
  | replaces (topicFilter : Nat) (messageHandler : κ) (before after : List (MessageHandlers κ))
    (slot : MessageHandlers κ) (hslots : s.client.messageHandlers = before ++ slot :: after)
    (hslot : slot.text s.strs = some (s.strs topicFilter)) :
    TableStep s (.set topicFilter (some messageHandler))
      (s.withHandlers (before ++ ⟨some topicFilter, some messageHandler⟩ :: after), [mqttSuccess])
  | takes (topicFilter : Nat) (messageHandler : κ) (before after : List (MessageHandlers κ))
    (slot : MessageHandlers κ) (hslots : s.client.messageHandlers = before ++ slot :: after)
    (hfree : slot.topicFilter = none) (hlacks : s.Lacks topicFilter) :
    TableStep s (.set topicFilter (some messageHandler))
      (s.withHandlers (before ++ ⟨some topicFilter, some messageHandler⟩ :: after), [mqttSuccess])
  | full (topicFilter : Nat) (messageHandler : κ) (hlacks : s.Lacks topicFilter)
    (hfull : ∀ slot ∈ s.client.messageHandlers, slot.topicFilter ≠ none) :
    TableStep s (.set topicFilter (some messageHandler)) (s, [mqttFailure])
  | frees (topicFilter : Nat) (before after : List (MessageHandlers κ)) (slot : MessageHandlers κ)
    (hslots : s.client.messageHandlers = before ++ slot :: after)
    (hslot : slot.text s.strs = some (s.strs topicFilter)) :
    TableStep s (.set topicFilter none) (s.withHandlers (before ++ ⟨none, none⟩ :: after),
      [mqttSuccess])
  | absent (topicFilter : Nat) (hlacks : s.Lacks topicFilter) :
    TableStep s (.set topicFilter none) (s, [mqttFailure])
  | cleans (slots : List (MessageHandlers κ)) (hlength : slots.length = s.client.messageHandlers.length)
    (hnull : ∀ slot ∈ slots, slot.topicFilter = none) :
    TableStep s .clean (s.withHandlers slots, [])
  | memory (strs : Nat → List UInt8) : TableStep s (.memory strs) ({ s with strs := strs }, [])

/-! ## The map -/

/-- What the table is for: five handlers, by the texts of their filters. -/
structure HandlerMap (κ : Type) where
  strs : Nat → List UInt8
  handlers : Finmap fun _ : List UInt8 => κ

/-- A call on the map. -/
def mapStep (t : HandlerMap κ) : TableCall κ → HandlerMap κ × List Int
  | .set topicFilter (some messageHandler) =>
    match put maxMessageHandlers t.handlers (t.strs topicFilter) messageHandler with
    | some handlers => ({ t with handlers := handlers }, [mqttSuccess])
    | none => (t, [mqttFailure])
  | .set topicFilter none =>
    match remove t.handlers (t.strs topicFilter) with
    | some handlers => ({ t with handlers := handlers }, [mqttSuccess])
    | none => (t, [mqttFailure])
  | .clean => ({ t with handlers := ∅ }, [])
  | .memory strs => ({ t with strs := strs }, [])

/-- The table holds the map. -/
structure MapOf (s : Sys κ) (t : HandlerMap κ) : Prop where
  strs : t.strs = s.strs
  length_eq : s.client.messageHandlers.length = maxMessageHandlers
  represents : Represents (MessageHandlers.text s.strs) MessageHandlers.callback
    s.client.messageHandlers t.handlers

/-! ## The slots -/

theorem isFor_iff {strs : Nat → List UInt8} {topicFilter : Nat} {slot : MessageHandlers κ} :
    slot.isFor strs topicFilter = true ↔ slot.text strs = some (strs topicFilter) := by
  rw [MessageHandlers.isFor, MessageHandlers.text]
  cases slot.topicFilter with
  | none => simp
  | some filter => simp

theorem isFor_eq_false {strs : Nat → List UInt8} {topicFilter : Nat} {slot : MessageHandlers κ} :
    slot.isFor strs topicFilter = false ↔ slot.text strs ≠ some (strs topicFilter) := by
  rw [← Bool.not_eq_true, isFor_iff]

/-- Removing a handler frees its slot. -/
theorem removeHandler_cases (topicFilter : Nat) (s : Sys κ) :
    (∃ before slot after, s.client.messageHandlers = before ++ slot :: after ∧
      slot.text s.strs = some (s.strs topicFilter) ∧ mqttSetMessageHandler topicFilter none s =
        (some mqttSuccess, s.withHandlers (before ++ ⟨none, none⟩ :: after))) ∨
    s.Lacks topicFilter ∧ mqttSetMessageHandler topicFilter none s = (some mqttFailure, s) := by
  simp only [mqttSetMessageHandler, Prog.run_act]
  split
  · next i _ hfound heq =>
    obtain ⟨before, slot, after, hslots, rfl, hslot, -⟩ := Slots.split_of_findIdx? hfound
    refine .inl ⟨before, slot, after, hslots, isFor_iff.mp hslot, ?_⟩
    rw [hslots, Slots.set_around]
    rfl
  · next heq => cases heq
  · next hnone heq =>
    have hother := List.findIdx?_eq_none_iff.mp hnone
    exact .inr ⟨fun slot hmem => isFor_eq_false.mp (hother slot hmem), rfl⟩
  · next heq => cases heq

/-- **One call**, on any table. -/
theorem table_step (s : Sys κ) (e : TableCall κ) : TableStep s e (tableStep s e) := by
  cases e with
  | clean =>
    refine .cleans _ (List.length_map _) fun slot hslot => ?_
    obtain ⟨slot', -, rfl⟩ := List.mem_map.mp hslot
    rfl
  | memory strs => exact .memory strs
  | set topicFilter messageHandler =>
    cases messageHandler with
    | some messageHandler =>
      rw [tableStep, setMessageHandler_eq]
      rcases handlersWith_cases s.strs topicFilter messageHandler s.client.messageHandlers with
        ⟨before, slot, after, hslots, hchosen, hwith⟩ | ⟨hfull, hwith⟩
      · rw [hwith]
        cases hchosen with
        | key hx => exact .replaces topicFilter messageHandler before after slot hslots (isFor_iff.mp hx)
        | free hx hother =>
          refine .takes topicFilter messageHandler before after slot hslots
            (Option.isNone_iff_eq_none.mp hx) fun other hmem => ?_
          rw [hslots] at hmem
          exact isFor_eq_false.mp (hother other hmem)
      · rw [hwith]
        refine .full topicFilter messageHandler (fun slot hmem => isFor_eq_false.mp (hfull slot hmem).1)
          fun slot hmem hnone => ?_
        obtain ⟨-, hused⟩ := hfull slot hmem
        rw [hnone] at hused
        cases hused
    | none =>
      rw [tableStep]
      rcases removeHandler_cases topicFilter s with
        ⟨before, slot, after, hslots, hslot, hremove⟩ | ⟨hlacks, hremove⟩
      · rw [hremove]
        exact .frees topicFilter before after slot hslots hslot
      · rw [hremove]
        exact .absent topicFilter hlacks

/-! ## The simulation -/

section Map
variable {s : Sys κ} {t : HandlerMap κ}

theorem mapOf_allNull (h : AllNull s) : MapOf s ⟨s.strs, ∅⟩ := by
  refine ⟨rfl, h.length_eq, represents_empty fun slot hmem => ?_⟩
  rw [MessageHandlers.text, h.null slot hmem]
  rfl

/-- A filter that the table lacks is not in the map. -/
theorem MapOf.not_mem (h : MapOf s t) {topicFilter : Nat} (hlacks : s.Lacks topicFilter) :
    s.strs topicFilter ∉ t.handlers := by
  rw [h.represents.mem_iff]
  intro hmem
  obtain ⟨slot, hslot, htext⟩ := hmem
  exact hlacks slot hslot htext

theorem MapOf.mem {topicFilter : Nat} {before after : List (MessageHandlers κ)}
    {slot : MessageHandlers κ} (h : MapOf s t)
    (hslots : s.client.messageHandlers = before ++ slot :: after)
    (hslot : slot.text s.strs = some (s.strs topicFilter)) : s.strs topicFilter ∈ t.handlers := by
  rw [h.represents.mem_iff, hslots]
  exact ⟨slot, List.mem_append_right _ List.mem_cons_self, hslot⟩

/-- There is room in the map if the table has a free slot. -/
theorem MapOf.card_lt_iff (h : MapOf s t) : t.handlers.keys.card < maxMessageHandlers ↔
    ∃ slot ∈ s.client.messageHandlers, slot.topicFilter = none := by
  rw [← h.length_eq, h.represents.card_lt_iff]
  simp only [MessageHandlers.text, Option.map_eq_none_iff]

/-- The table after one of its slots has been written, and the map with it. -/
theorem MapOf.withHandlers (h : MapOf s t) {before after : List (MessageHandlers κ)}
    {slot slot' : MessageHandlers κ} {handlers : Finmap fun _ : List UInt8 => κ}
    (hslots : s.client.messageHandlers = before ++ slot :: after)
    (hrepresents : Represents (MessageHandlers.text s.strs) MessageHandlers.callback
      (before ++ slot' :: after) handlers) :
    MapOf (s.withHandlers (before ++ slot' :: after)) { t with handlers := handlers } := by
  refine ⟨h.strs, ?_, hrepresents⟩
  have hlength := h.length_eq
  rw [hslots] at hlength
  simp only [List.length_append, List.length_cons] at hlength
  simp only [Sys.withHandlers, Sys.setClient_client, List.length_append, List.length_cons, hlength]

/-- **One call** does to the map what it does to the table, and has its return code. -/
theorem mapOf_step (h : MapOf s t) {e : TableCall κ} (hkeeps : KeepsFilters s e) :
    (tableStep s e).2 = (mapStep t e).2 ∧ MapOf (tableStep s e).1 (mapStep t e).1 := by
  obtain ⟨strs, handlers⟩ := t
  obtain rfl : strs = s.strs := h.strs
  have hstep := table_step s e
  have hrepresents := h.represents
  generalize tableStep s e = r at hstep ⊢
  cases hstep with
  | replaces topicFilter messageHandler before after slot hslots hslot =>
    have hmem := h.mem hslots hslot
    rw [hslots] at hrepresents
    simp only [mapStep, put, hmem, true_or, if_true]
    refine ⟨trivial, h.withHandlers hslots (hrepresents.write ?_ (hrepresents.other hslot) rfl rfl)⟩
    intro text htext
    exact (Option.some.inj (hslot.symm.trans htext)).symm
  | takes topicFilter messageHandler before after slot hslots hfree hlacks =>
    have hroom := h.card_lt_iff.mpr ⟨slot, hslots ▸ List.mem_append_right _ List.mem_cons_self, hfree⟩
    rw [hslots] at hrepresents
    simp only [mapStep, put, hroom, or_true, if_true]
    have hnull : slot.text s.strs = none := by
      rw [MessageHandlers.text, hfree]
      rfl
    refine ⟨trivial, h.withHandlers hslots (hrepresents.write ?_ ?_ rfl rfl)⟩
    · intro text htext
      cases hnull.symm.trans htext
    · intro other hother
      apply hlacks other
      rw [hslots]
      rcases List.mem_append.mp hother with hother | hother
      · exact List.mem_append_left _ hother
      · exact List.mem_append_right _ (List.mem_cons_of_mem slot hother)
  | full topicFilter messageHandler hlacks hfull =>
    have hroom : ¬ handlers.keys.card < maxMessageHandlers := by
      rw [h.card_lt_iff]
      intro hfree
      obtain ⟨slot, hmem, hnone⟩ := hfree
      exact hfull slot hmem hnone
    simp only [mapStep, put, h.not_mem hlacks, hroom, or_self, if_false]
    exact ⟨trivial, h⟩
  | frees topicFilter before after slot hslots hslot =>
    have hmem := h.mem hslots hslot
    rw [hslots] at hrepresents
    simp only [mapStep, remove, hmem, if_true]
    exact ⟨trivial, h.withHandlers hslots (hrepresents.free hslot rfl)⟩
  | absent topicFilter hlacks =>
    simp only [mapStep, remove, h.not_mem hlacks, if_false]
    exact ⟨trivial, h⟩
  | cleans slots hlength hnull =>
    refine ⟨rfl, h.strs, hlength.trans h.length_eq, represents_empty fun slot hmem => ?_⟩
    rw [MessageHandlers.text, hnull slot hmem]
    rfl
  | memory strs =>
    refine ⟨rfl, rfl, h.length_eq, hrepresents.congr fun slot hmem => ?_⟩
    rw [MessageHandlers.text, MessageHandlers.text]
    cases hfilter : slot.topicFilter with
    | none => rfl
    | some filter => exact congrArg some (hkeeps slot hmem filter hfilter)

/-! ## What is promised -/

/-- A call on a table that is a map: what it does to the slots, and that it leaves the handlers
of all other filters. -/
structure CallsAsMap (s : Sys κ) (e : TableCall κ) : Prop where
  distinct : s.DistinctFilters
  step : TableStep s e (tableStep s e)
  others : ∀ topicFilter messageHandler, e = .set topicFilter messageHandler →
    ∀ text ≠ s.strs topicFilter, ∀ handler,
      (tableStep s e).1.Handles text handler ↔ s.Handles text handler
  cleaned : e = .clean → ∀ text handler, ¬ (tableStep s e).1.Handles text handler

theorem callsAsMap_of_mapOf (h : MapOf s t) {e : TableCall κ} (hkeeps : KeepsFilters s e) :
    CallsAsMap s e := by
  obtain ⟨-, hnext⟩ := mapOf_step h hkeeps
  have hlookup := h.represents.lookup_iff
  have hlookup' := hnext.represents.lookup_iff
  refine ⟨h.represents.distinct, table_step s e, ?_, ?_⟩
  · rintro topicFilter messageHandler rfl text hne handler
    have hkept : (mapStep t (.set topicFilter messageHandler)).1.handlers.lookup text =
        t.handlers.lookup text := by
      have hne' : text ≠ t.strs topicFilter := by rwa [h.strs]
      cases messageHandler with
      | some messageHandler =>
        simp only [mapStep, put]
        split_ifs
        · exact Finmap.lookup_insert_of_ne _ hne'
        · rfl
      | none =>
        simp only [mapStep, remove]
        split_ifs
        · exact Finmap.lookup_erase_ne hne'
        · rfl
    calc (tableStep s (.set topicFilter messageHandler)).1.Handles text handler
        ↔ (mapStep t (.set topicFilter messageHandler)).1.handlers.lookup text = some handler :=
          (hlookup' text handler).symm
      _ ↔ t.handlers.lookup text = some handler := by rw [hkept]
      _ ↔ s.Handles text handler := hlookup text handler
  · rintro rfl text handler hhandles
    have hnone := (hlookup' text handler).mpr hhandles
    rw [mapStep, Finmap.lookup_empty] at hnone
    cases hnone

end Map

/-- **Handlers.** In every run from a table without filters, in which the texts of the filters
in the table are left as they are, each call does to the slots what it should, the return codes
are those of a finite map with room for five handlers, and the table holds that map. -/
theorem handlers_are_map {s : Sys κ} (hnull : AllNull s) {es : List (TableCall κ)}
    (hkeeps : Machine.Along tableStep KeepsFilters s es) :
    Machine.Along tableStep CallsAsMap s es ∧
      Machine.out tableStep s es = Machine.out mapStep ⟨s.strs, ∅⟩ es ∧
      MapOf (Machine.last tableStep s es) (Machine.last mapStep ⟨s.strs, ∅⟩ es) := by
  constructor
  · apply Machine.along_mono_of_invariant (I := fun s => ∃ t, MapOf s t) _ _ _ hkeeps
    · intro s e h hk
      obtain ⟨t, ht⟩ := h
      exact ⟨_, (mapOf_step ht hk).2⟩
    · intro s e h hk
      obtain ⟨t, ht⟩ := h
      exact callsAsMap_of_mapOf ht hk
    · exact ⟨_, mapOf_allNull hnull⟩
  · exact Machine.simulates_along (fun s t e hst hk => mapOf_step hst hk) (mapOf_allNull hnull) hkeeps

/-- A table of five slots, with a filter of one byte at each address. -/
def emptyTable : Sys Unit :=
  sysInit connectDataInitializer [] () (Net.initial fun _ => EnvStep.quiet) fun address =>
    [UInt8.ofNat address]

/-- Two filters are set, one of them under another address with the same text, and one is
removed. -/
theorem handlers_are_map_twice :
    let calls : List (TableCall Unit) :=
      [.set 1 (some ()), .set 257 (some ()), .set 2 (some ()), .set 1 none, .set 1 none, .clean]
    Machine.out tableStep emptyTable calls = Machine.out mapStep ⟨emptyTable.strs, ∅⟩ calls := by
  intro calls
  have hkeeps : Machine.Along tableStep KeepsFilters emptyTable calls :=
    ⟨trivial, trivial, trivial, trivial, trivial, trivial, trivial⟩
  have hnull : AllNull emptyTable := ⟨rfl, fun _ h => by rw [List.eq_of_mem_replicate h]⟩
  exact (handlers_are_map hnull hkeeps).2.1

end IBoxClient
