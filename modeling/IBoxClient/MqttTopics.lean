import IBoxClient.Lib.Levels
import IBoxClient.MqttEffects

/- Topic filters and the dispatch of messages.

   The rules are those of the levels: `+` leaves one level open, `#` the rest. What
   `isTopicMatched` does at the front level of filter and name is `matched_literal`,
   `matched_plus` and `matched_hash`; between two levels the separators are passed together,
   so an induction on the levels of the filter compares the loop with the rules.

   It misses one thing: a wildcard is only tested while there is a symbol of the name left,
   and before that a separator ends the loop. So an empty level is never taken by `+`, and
   `#` stands for one level at least, the first of them not empty: `topic_matching_iff`.
   What is matched is right, and so is the dispatch: `dispatch_sound`. -/
namespace IBoxClient

open Levels

/-! ## The rules -/

def levels (topic : List UInt8) : List (List UInt8) := topic.splitOn 47

/-- A level of a filter: `+`, `#` or a text. -/
def pattern (l : List UInt8) : Pattern (List UInt8) :=
  if l = [43] then .one else if l = [35] then .rest else .level l

def patterns (filter : List UInt8) : List (Pattern (List UInt8)) := (levels filter).map pattern

/-- `+` and `#` are whole levels. -/
def WholeLevel (l : List UInt8) : Prop := 43 ∈ l ∨ 35 ∈ l → l = [43] ∨ l = [35]

instance (l : List UInt8) : Decidable (WholeLevel l) := inferInstanceAs (Decidable (_ → _))

/-- The wildcards are whole levels, and `#` is the last one. -/
structure ValidFilter (filter : List UInt8) : Prop where
  whole : ∀ l ∈ levels filter, WholeLevel l
  last : WellFormed (patterns filter)

/-- The filter matches the name. -/
def FilterMatches (filter name : List UInt8) : Prop := Matches (patterns filter) (levels name)

instance (filter name : List UInt8) : Decidable (FilterMatches filter name) :=
  inferInstanceAs (Decidable (Matches _ _))

/-- No level that `+` stands for is empty, and neither is the first one that `#` stands
for; there is one. -/
def WildNonEmpty (filter name : List UInt8) : Prop := Open (· ≠ []) (patterns filter) (levels name)

/-! ## The loop on a level -/

section Loop
variable {l m : List UInt8} {ls ms : List (List UInt8)}

theorem matched_nil : isTopicMatched [] (below 47 ms) = true ↔ ms = [] := by
  cases ms with
  | nil => exact iff_of_true rfl rfl
  | cons m ms => exact iff_of_false Bool.false_ne_true (List.cons_ne_nil _ _)

/-- A text is passed together with the same text. -/
theorem matched_literal (hl : 47 ∉ l) (hplus : 43 ∉ l) (hhash : 35 ∉ l) (hm : 47 ∉ m) :
    isTopicMatched (l ++ below 47 ls) (m ++ below 47 ms) = true ↔
      l = m ∧ isTopicMatched (below 47 ls) (below 47 ms) = true := by
  induction l generalizing m with
  | nil =>
    cases m with
    | nil => simp
    | cons c m =>
      have hc : c ≠ 47 := fun h => hm (h ▸ List.mem_cons_self ..)
      cases ls with
      | nil => simp [isTopicMatched]
      | cons l ls => simp [isTopicMatched, hc, hc.symm]
  | cons f l ih =>
    have hf : f ≠ 47 := fun h => hl (h ▸ List.mem_cons_self ..)
    have hf43 : f ≠ 43 := fun h => hplus (h ▸ List.mem_cons_self ..)
    have hf35 : f ≠ 35 := fun h => hhash (h ▸ List.mem_cons_self ..)
    cases m with
    | nil => cases ms <;> simp [isTopicMatched, hf]
    | cons c m =>
      have hc : c ≠ 47 := fun h => hm (h ▸ List.mem_cons_self ..)
      have hrest := ih (fun h => hl (List.mem_cons_of_mem _ h))
        (fun h => hplus (List.mem_cons_of_mem _ h)) (fun h => hhash (List.mem_cons_of_mem _ h))
        (m := m) (fun h => hm (List.mem_cons_of_mem _ h))
      by_cases hfc : f = c
      · simp [isTopicMatched, hc, hfc ▸ hf43, hfc ▸ hf35, hfc, hrest]
      · simp [isTopicMatched, hc, hf43, hf35, hfc]

/-- `+` passes a level that has a symbol. -/
theorem matched_plus (hm : 47 ∉ m) :
    isTopicMatched (43 :: below 47 ls) (m ++ below 47 ms) = true ↔
      m ≠ [] ∧ isTopicMatched (below 47 ls) (below 47 ms) = true := by
  cases m with
  | nil => cases ms <;> simp [isTopicMatched]
  | cons c m =>
    have hc : c ≠ 47 := fun h => hm (h ▸ List.mem_cons_self ..)
    have hskip : (m ++ below 47 ms).dropWhile (· ≠ 47) = below 47 ms := by
      rw [List.dropWhile_append_of_pos]
      · cases ms <;> simp
      · intro a ha
        have hne : a ≠ 47 := fun h => hm (h ▸ List.mem_cons_of_mem _ ha)
        simpa using hne
    rw [List.cons_append, isTopicMatched, if_neg (fun h => hc h.1), if_neg (fun h => h.1 rfl),
      if_pos rfl, hskip]
    simp

/-- `#` passes everything that begins with a symbol of a level. -/
theorem matched_hash (hm : 47 ∉ m) :
    isTopicMatched [35] (m ++ below 47 ms) = true ↔ m ≠ [] := by
  cases m with
  | nil => cases ms <;> simp [isTopicMatched]
  | cons c m =>
    have hc : c ≠ 47 := fun h => hm (h ▸ List.mem_cons_self ..)
    simp [isTopicMatched, hc]

/-- Nothing is left of the name, but of the filter. -/
theorem not_open_nil (p : Pattern (List UInt8)) (ps : List (Pattern (List UInt8))) :
    ¬ (Matches (p :: ps) [] ∧ Open (· ≠ []) (p :: ps) []) := by
  cases p with
  | level l => exact fun h => h.1
  | one => exact fun h => h.1
  | rest => simp [Open]

/-- A separator is passed together with a separator. -/
theorem matched_separator :
    isTopicMatched (below 47 (l :: ls)) (below 47 (m :: ms)) =
      isTopicMatched (l ++ below 47 ls) (m ++ below 47 ms) := by
  rw [below_cons, below_cons, isTopicMatched, if_neg (fun h => h.2 rfl), if_neg (fun h => h.2.2 rfl),
    if_neg (by decide), if_neg (by decide)]

/-- The front level, when the loop is right about the others. -/
theorem matched_level (hl : 47 ∉ l) (hwhole : WholeLevel l) (hm : 47 ∉ m)
    (hlast : WellFormed ((l :: ls).map pattern))
    (hrest : isTopicMatched (below 47 ls) (below 47 ms) = true ↔
      Matches (ls.map pattern) ms ∧ Open (· ≠ []) (ls.map pattern) ms) :
    isTopicMatched (l ++ below 47 ls) (m ++ below 47 ms) = true ↔
      Matches ((l :: ls).map pattern) (m :: ms) ∧
        Open (· ≠ []) ((l :: ls).map pattern) (m :: ms) := by
  rw [List.map_cons] at hlast ⊢
  by_cases hplus : l = [43]
  · rw [pattern, if_pos hplus, hplus, List.singleton_append, matched_plus hm, hrest]
    exact ⟨fun ⟨h, h1, h2⟩ => ⟨h1, h, h2⟩, fun ⟨h1, h, h2⟩ => ⟨h, h1, h2⟩⟩
  · by_cases hhash : l = [35]
    · rw [pattern, if_neg hplus, if_pos hhash] at hlast ⊢
      have hls : ls = [] := List.map_eq_nil_iff.mp hlast
      rw [hhash, hls, below_nil, List.append_nil, matched_hash hm]
      simp [Matches, Open]
    · have hnone : ¬ (43 ∈ l ∨ 35 ∈ l) := fun h => (hwhole h).elim hplus hhash
      rw [pattern, if_neg hplus, if_neg hhash,
        matched_literal hl (fun h => hnone (.inl h)) (fun h => hnone (.inr h)) hm, hrest]
      exact and_assoc.symm

/-- The loop at a separator. -/
theorem matched_below (hl : ∀ l ∈ ls, 47 ∉ l) (hwhole : ∀ l ∈ ls, WholeLevel l)
    (hm : ∀ m ∈ ms, 47 ∉ m) (hlast : WellFormed (ls.map pattern)) :
    isTopicMatched (below 47 ls) (below 47 ms) = true ↔
      Matches (ls.map pattern) ms ∧ Open (· ≠ []) (ls.map pattern) ms := by
  induction ls generalizing ms with
  | nil =>
    rw [below_nil, matched_nil]
    exact (and_iff_left trivial).symm
  | cons l ls ih =>
    cases ms with
    | nil => exact iff_of_false Bool.false_ne_true (not_open_nil _ _)
    | cons m ms =>
      rw [List.forall_mem_cons] at hl hwhole hm
      rw [matched_separator]
      exact matched_level hl.1 hwhole.1 hm.1 hlast (ih hl.2 hwhole.2 hm.2 hlast.tail)

end Loop

/-- **The loop.** It finds the matches in which no wildcard stands for an empty level. -/
theorem isTopicMatched_iff {filter name : List UInt8} (hfilter : ValidFilter filter) :
    isTopicMatched filter name = true ↔ FilterMatches filter name ∧ WildNonEmpty filter name := by
  obtain ⟨l, ls, hlevels, hl⟩ := exists_below 47 filter
  obtain ⟨m, ms, hlevels', hm⟩ := exists_below 47 name
  have hsep : ∀ x ∈ l :: ls, 47 ∉ x := fun x hx => not_mem_level (hlevels ▸ hx)
  have hsep' : ∀ x ∈ m :: ms, 47 ∉ x := fun x hx => not_mem_level (hlevels' ▸ hx)
  obtain ⟨hwhole, hlast⟩ := hfilter
  rw [patterns] at hlast
  rw [levels, hlevels] at hwhole hlast
  rw [FilterMatches, WildNonEmpty, patterns, levels, levels, hlevels, hlevels']
  have hbelow := matched_below hsep hwhole hsep' hlast
  rw [matched_separator, ← hl, ← hm] at hbelow
  exact hbelow

/-- A level is in its own place. -/
theorem pattern_self (ls : List (List UInt8)) :
    Matches (ls.map pattern) ls ∧ Open (· ≠ []) (ls.map pattern) ls := by
  induction ls with
  | nil => exact ⟨rfl, trivial⟩
  | cons l ls ih =>
    rw [List.map_cons]
    by_cases hplus : l = [43]
    · rw [pattern, if_pos hplus]
      exact ⟨ih.1, hplus ▸ List.cons_ne_nil _ _, ih.2⟩
    · by_cases hhash : l = [35]
      · rw [pattern, if_neg hplus, if_pos hhash]
        exact ⟨trivial, l, rfl, hhash ▸ List.cons_ne_nil _ _⟩
      · rw [pattern, if_neg hplus, if_neg hhash]
        exact ⟨⟨rfl, ih.1⟩, ih.2⟩

/-- One of the two comparisons of `deliverMessage` says that filter and name fit. -/
def TopicFits (filter name : List UInt8) : Prop :=
  mqttPacketEquals name filter = true ∨ isTopicMatched filter name = true

instance (filter name : List UInt8) : Decidable (TopicFits filter name) :=
  inferInstanceAs (Decidable (_ ∨ _))

theorem topicFits_iff {filter name : List UInt8} (hfilter : ValidFilter filter) :
    TopicFits filter name ↔ FilterMatches filter name ∧ WildNonEmpty filter name := by
  rw [TopicFits, isTopicMatched_iff hfilter, or_iff_right_iff_imp]
  intro hequals
  rw [mqttPacketEquals, Bool.and_eq_true, beq_iff_eq, beq_iff_eq] at hequals
  rw [hequals.2]
  exact pattern_self (levels filter)

/-! ## Dispatch -/

section Dispatch
variable {κ : Type} [Callback κ]

/-- What the loop of `deliverMessage` has come to before the slot `i`. -/
def roundState (message : PublishData) (s : Sys κ) (i : Nat) : Int × Sys κ :=
  (s.client.messageHandlers.take i).foldl (deliverSlot message) (mqttFailure, s)

/-- The callback of the slot `i` is called in its round. -/
def Invokes (message : PublishData) (s : Sys κ) (i : Nat) (callback : κ) : Prop :=
  ∃ slot, s.client.messageHandlers[i]? = some slot ∧ slot.callback = some callback ∧
    deliverSlot message (roundState message s i) slot =
      (mqttSuccess, (roundState message s i).2.call callback message)

/-- The handler table has a filter in the slot `i` that matches the topic, and the callback
with it. -/
def HoldsMatch (message : PublishData) (s : Sys κ) (i : Nat) (callback : κ) : Prop :=
  ∃ filter, s.client.messageHandlers[i]? = some ⟨some filter, some callback⟩ ∧
    FilterMatches (s.strs filter) message.topicName

/-- A message is given to the callbacks of slots that match, each once and in order, and to
the default handler if and only if there is none. -/
structure Dispatches (message : PublishData) (s : Sys κ) (calls : List (Nat × κ)) : Prop where
  invokes : ∀ i callback, (i, callback) ∈ calls ↔ Invokes message s i callback
  increasing : calls.Pairwise fun c d => c.1 < d.1
  sound : ∀ i callback, (i, callback) ∈ calls → HoldsMatch message s i callback
  log_eq : (deliverMessage message s).2.log =
    (if calls = [] then s.client.defaultMessageHandler.toList.map (.delivered · message) else []) ++
      (calls.reverse.map fun c => .delivered c.2 message) ++ s.log
  rc_iff : (deliverMessage message s).1 = some mqttSuccess ↔
    calls ≠ [] ∨ s.client.defaultMessageHandler ≠ none

theorem deliverSlot_fits {message : PublishData} {r : Int × Sys κ} {filter : Nat} (callback : κ)
    (h : TopicFits (r.2.strs filter) message.topicName) :
    deliverSlot message r ⟨some filter, some callback⟩ =
      (mqttSuccess, r.2.call callback message) :=
  if_pos h

omit [Callback κ] in
/-- The callback that a slot has for a topic. -/
def MessageHandlers.fitting (strs : Nat → List UInt8) (topicName : List UInt8) :
    MessageHandlers κ → Option κ
  | ⟨some filter, some callback⟩ =>
    if TopicFits (strs filter) topicName then some callback else none
  | _ => none

omit [Callback κ] in
theorem fitting_eq_some {strs : Nat → List UInt8} {topicName : List UInt8}
    {slot : MessageHandlers κ} {callback : κ} :
    slot.fitting strs topicName = some callback ↔
      ∃ filter, slot = ⟨some filter, some callback⟩ ∧ TopicFits (strs filter) topicName := by
  obtain ⟨topicFilter, called⟩ := slot
  cases topicFilter with
  | none => simp [MessageHandlers.fitting]
  | some filter =>
    cases called with
    | none => simp [MessageHandlers.fitting]
    | some called => simp [MessageHandlers.fitting, and_comm]

/-- A round of the loop calls the callback that its slot has. -/
theorem deliverSlot_eq (message : PublishData) (r : Int × Sys κ) (slot : MessageHandlers κ) :
    deliverSlot message r slot =
      match slot.fitting r.2.strs message.topicName with
      | some callback => (mqttSuccess, r.2.call callback message)
      | none => r := by
  obtain ⟨topicFilter, callback⟩ := slot
  cases topicFilter with
  | none => rfl
  | some filter =>
    by_cases hfits : TopicFits (r.2.strs filter) message.topicName
    · cases callback with
      | none => exact if_pos hfits
      | some callback =>
        rw [MessageHandlers.fitting, if_pos hfits]
        exact deliverSlot_fits callback hfits
    · cases callback with
      | none => exact if_neg hfits
      | some callback =>
        rw [MessageHandlers.fitting, if_neg hfits]
        exact if_neg hfits

theorem call_ne (s : Sys κ) (callback : κ) (message : PublishData) : s.call callback message ≠ s := by
  intro h
  exact List.cons_ne_self _ _ (congrArg Sys.log h)

theorem roundState_succ (message : PublishData) {s : Sys κ} {i : Nat} {slot : MessageHandlers κ}
    (h : s.client.messageHandlers[i]? = some slot) :
    roundState message s (i + 1) = deliverSlot message (roundState message s i) slot := by
  rw [roundState, List.take_add_one, h, Option.toList_some, List.foldl_append]
  rfl

/-- What the rounds before the slot `i` have done. -/
structure Rounds (message : PublishData) (s : Sys κ) (i : Nat) (calls : List (Nat × κ)) : Prop where
  invokes : ∀ j callback, (j, callback) ∈ calls ↔ j < i ∧ Invokes message s j callback
  increasing : calls.Pairwise fun c d => c.1 < d.1
  fits : ∀ j callback, (j, callback) ∈ calls →
    ∃ filter, s.client.messageHandlers[j]? = some ⟨some filter, some callback⟩ ∧
      TopicFits (s.strs filter) message.topicName
  rc_eq : (roundState message s i).1 = if calls = [] then mqttFailure else mqttSuccess
  strs_eq : (roundState message s i).2.strs = s.strs
  log_eq : (roundState message s i).2.log =
    (calls.reverse.map fun c => .delivered c.2 message) ++ s.log

theorem rounds_zero (message : PublishData) (s : Sys κ) : Rounds message s 0 [] where
  invokes _ _ := ⟨fun h => absurd h List.not_mem_nil, fun h => absurd h.1 (Nat.not_lt_zero _)⟩
  increasing := .nil
  fits _ _ h := absurd h List.not_mem_nil
  rc_eq := rfl
  strs_eq := rfl
  log_eq := rfl

section Round
variable {message : PublishData} {s : Sys κ} {i : Nat} {calls : List (Nat × κ)}

/-- A slot whose filter fits has its callback invoked, and no other. -/
theorem invokes_fitting {filter : Nat} {callback cb : κ}
    (hslot : s.client.messageHandlers[i]? = some ⟨some filter, some callback⟩)
    (hcall : deliverSlot message (roundState message s i) ⟨some filter, some callback⟩ =
      (mqttSuccess, (roundState message s i).2.call callback message)) :
    Invokes message s i cb ↔ cb = callback := by
  constructor
  · intro h
    obtain ⟨slot', hslot', hcb, -⟩ := h
    rw [hslot] at hslot'
    cases hslot'
    exact (Option.some.inj hcb).symm
  · rintro rfl
    exact ⟨_, hslot, rfl, hcall⟩

/-- A slot that is passed over invokes nothing. -/
theorem not_invokes_of_pass {slot : MessageHandlers κ}
    (hslot : s.client.messageHandlers[i]? = some slot)
    (hpass : deliverSlot message (roundState message s i) slot = roundState message s i) (cb : κ) :
    ¬ Invokes message s i cb := by
  intro h
  obtain ⟨slot', hslot', -, hcall⟩ := h
  rw [hslot] at hslot'
  cases hslot'
  rw [hpass] at hcall
  exact call_ne _ _ _ (congrArg Prod.snd hcall).symm

theorem Rounds.step_fitting (h : Rounds message s i calls) {filter : Nat} {callback : κ}
    (hslot : s.client.messageHandlers[i]? = some ⟨some filter, some callback⟩)
    (hfits : TopicFits ((roundState message s i).2.strs filter) message.topicName) :
    Rounds message s (i + 1) (calls ++ [(i, callback)]) := by
  have hround := roundState_succ message hslot
  have hcall : deliverSlot message (roundState message s i) ⟨some filter, some callback⟩ =
      (mqttSuccess, (roundState message s i).2.call callback message) :=
    deliverSlot_fits callback hfits
  rw [hcall] at hround
  rw [h.strs_eq] at hfits
  refine ⟨?_, ?_, ?_, ?_, ?_, ?_⟩
  · intro j cb
    rw [List.mem_append, h.invokes, List.mem_singleton, Prod.mk.injEq]
    constructor
    · intro h
      rcases h with ⟨hj, hinvokes⟩ | ⟨rfl, rfl⟩
      · exact ⟨Nat.lt_succ_of_lt hj, hinvokes⟩
      · exact ⟨Nat.lt_succ_self _, (invokes_fitting hslot hcall).mpr rfl⟩
    · intro h
      obtain ⟨hj, hinvokes⟩ := h
      rcases Nat.lt_succ_iff_lt_or_eq.mp hj with hj | rfl
      · exact .inl ⟨hj, hinvokes⟩
      · exact .inr ⟨rfl, (invokes_fitting hslot hcall).mp hinvokes⟩
  · refine List.pairwise_append.mpr ⟨h.increasing, List.pairwise_singleton _ _, ?_⟩
    intro h hc _ hd
    obtain ⟨j, cb⟩ := h
    rw [List.mem_singleton.mp hd]
    exact ((h.invokes j cb).mp hc).1
  · intro j cb hmem
    rcases List.mem_append.mp hmem with hmem | hmem
    · exact h.fits j cb hmem
    · cases List.mem_singleton.mp hmem
      exact ⟨filter, hslot, hfits⟩
  · rw [hround, if_neg (by simp)]
  · rw [hround]
    exact h.strs_eq
  · rw [hround, List.reverse_append]
    exact congrArg _ h.log_eq

theorem Rounds.step_pass (h : Rounds message s i calls) {slot : MessageHandlers κ}
    (hslot : s.client.messageHandlers[i]? = some slot)
    (hpass : deliverSlot message (roundState message s i) slot = roundState message s i) :
    Rounds message s (i + 1) calls := by
  have hround := roundState_succ message hslot
  rw [hpass] at hround
  refine ⟨?_, h.increasing, h.fits, ?_, ?_, ?_⟩
  · intro j cb
    rw [h.invokes]
    constructor
    · intro h
      obtain ⟨hj, hinvokes⟩ := h
      exact ⟨Nat.lt_succ_of_lt hj, hinvokes⟩
    · intro h
      obtain ⟨hj, hinvokes⟩ := h
      rcases Nat.lt_succ_iff_lt_or_eq.mp hj with hj | rfl
      · exact ⟨hj, hinvokes⟩
      · exact absurd hinvokes (not_invokes_of_pass hslot hpass cb)
  · rw [hround, h.rc_eq]
  · rw [hround, h.strs_eq]
  · rw [hround, h.log_eq]

theorem Rounds.step (h : Rounds message s i calls) {slot : MessageHandlers κ}
    (hslot : s.client.messageHandlers[i]? = some slot) :
    ∃ calls', Rounds message s (i + 1) calls' := by
  cases hfitting : slot.fitting (roundState message s i).2.strs message.topicName with
  | some callback =>
    obtain ⟨filter, rfl, hfits⟩ := fitting_eq_some.mp hfitting
    exact ⟨_, h.step_fitting hslot hfits⟩
  | none =>
    have hpass : deliverSlot message (roundState message s i) slot = roundState message s i := by
      rw [deliverSlot_eq, hfitting]
    exact ⟨calls, h.step_pass hslot hpass⟩

end Round

theorem exists_rounds (message : PublishData) (s : Sys κ) {i : Nat}
    (hi : i ≤ s.client.messageHandlers.length) : ∃ calls, Rounds message s i calls := by
  induction i with
  | zero => exact ⟨[], rounds_zero message s⟩
  | succ i ih =>
    obtain ⟨calls, hcalls⟩ := ih (Nat.le_of_succ_le hi)
    exact hcalls.step (List.getElem?_eq_getElem hi)

theorem Invokes.lt {message : PublishData} {s : Sys κ} {i : Nat} {callback : κ}
    (h : Invokes message s i callback) : i < s.client.messageHandlers.length := by
  obtain ⟨slot, hslot, -⟩ := h
  exact (List.getElem?_eq_some_iff.mp hslot).1

/-- **Dispatch.** -/
theorem dispatch_sound {message : PublishData} {s : Sys κ}
    (h : ∀ slot ∈ s.client.messageHandlers, ∀ filter, slot.topicFilter = some filter →
      ValidFilter (s.strs filter)) :
    ∃ calls, Dispatches message s calls := by
  obtain ⟨calls, hrounds⟩ := exists_rounds message s (Nat.le_refl _)
  have hloop : roundState message s s.client.messageHandlers.length =
      s.client.messageHandlers.foldl (deliverSlot message) (mqttFailure, s) := by
    rw [roundState, List.take_length]
  have hrc := hrounds.rc_eq
  have hlog := hrounds.log_eq
  rw [hloop] at hrc hlog
  refine ⟨calls, ?_, hrounds.increasing, ?_, ?_, ?_⟩
  · intro i callback
    rw [hrounds.invokes]
    exact ⟨fun hi => hi.2, fun hi => ⟨hi.lt, hi⟩⟩
  · intro i callback hmem
    obtain ⟨filter, hslot, hfits⟩ := hrounds.fits i callback hmem
    have hvalid := h _ (List.mem_of_getElem? hslot) filter rfl
    exact ⟨filter, hslot, ((topicFits_iff hvalid).mp hfits).1⟩
  · simp only [deliverMessage, Prog.run_act, hrc]
    by_cases hcalls : calls = []
    · subst hcalls
      cases hdefault : s.client.defaultMessageHandler with
      | none => simpa using hlog
      | some callback => simp [Sys.call, hlog]
    · simp [hcalls, hlog]
  · simp only [deliverMessage, Prog.run_act, hrc]
    by_cases hcalls : calls = []
    · subst hcalls
      cases hdefault : s.client.defaultMessageHandler with
      | none => simp [hrc]
      | some callback => simp
    · simp [hcalls, hrc]

/-- **Matching.** A filter that matches is found, and its callback called, if and only if its
wildcards do not stand for an empty level. -/
theorem topic_matching_iff {filter name : List UInt8} (hfilter : ValidFilter filter)
    (hmatch : FilterMatches filter name) :
    (TopicFits filter name ↔ WildNonEmpty filter name) ∧
      ∀ (message : PublishData) (s : Sys κ) (i address : Nat) (callback : κ),
        message.topicName = name →
        s.client.messageHandlers[i]? = some ⟨some address, some callback⟩ →
        s.strs address = filter →
        (Invokes message s i callback ↔ WildNonEmpty filter name) := by
  have hfits : TopicFits filter name ↔ WildNonEmpty filter name := by
    rw [topicFits_iff hfilter]
    exact and_iff_right hmatch
  refine ⟨hfits, ?_⟩
  intro message s i address callback hname hslot haddress
  rw [← hfits, ← haddress, ← hname]
  have hi := (List.getElem?_eq_some_iff.mp hslot).1
  constructor
  · intro hinvokes
    obtain ⟨calls, hrounds⟩ := exists_rounds message s (Nat.le_refl _)
    obtain ⟨filter', hslot', hfits'⟩ :=
      hrounds.fits i callback ((hrounds.invokes i callback).mpr ⟨hi, hinvokes⟩)
    rw [hslot] at hslot'
    cases hslot'
    exact hfits'
  · intro h
    obtain ⟨calls, hrounds⟩ := exists_rounds message s (Nat.le_of_lt hi)
    rw [← hrounds.strs_eq] at h
    exact ⟨_, hslot, rfl, deliverSlot_fits callback h⟩

end Dispatch

/-! A subscription to `a/+` in the second slot, and one to `a/#` in the last. -/

def twoFilters : Sys Unit :=
  let s := sysInit connectDataInitializer [] () (Net.initial fun _ => EnvStep.quiet) fun address =>
    if address = 0 then [97, 47, 43] else [97, 47, 35]
  s.setClient fun c =>
    { c with
      messageHandlers :=
        [⟨none, none⟩, ⟨some 0, some ()⟩, ⟨none, some ()⟩, ⟨some 1, none⟩, ⟨some 1, some ()⟩] }

theorem aPlus_valid : ValidFilter [97, 47, 43] := ⟨by decide, by decide⟩

theorem aHash_valid : ValidFilter [97, 47, 35] := ⟨by decide, by decide⟩

/-- A message to `a/b`. -/
def toAB : PublishData := ⟨0, 0, 0, 0, [97, 47, 98], [], none, none⟩

theorem dispatch_sound_toAB : ∃ calls, Dispatches toAB twoFilters calls := by
  apply dispatch_sound
  intro slot hslot filter hfilter
  by_cases h : filter = 0
  · rw [h]
    exact aPlus_valid
  · have hstrs : twoFilters.strs filter = [97, 47, 35] := if_neg h
    rw [hstrs]
    exact aHash_valid

theorem topic_matching_aPlus :
    (TopicFits [97, 47, 43] [97, 47, 98] ↔ WildNonEmpty [97, 47, 43] [97, 47, 98]) ∧
      ∀ (message : PublishData) (s : Sys Unit) (i address : Nat) (callback : Unit),
        message.topicName = [97, 47, 98] →
        s.client.messageHandlers[i]? = some ⟨some address, some callback⟩ →
        s.strs address = [97, 47, 43] →
        (Invokes message s i callback ↔ WildNonEmpty [97, 47, 43] [97, 47, 98]) :=
  topic_matching_iff aPlus_valid (by decide)

/-- `a/#` also matches the parent `a`, and `a/+` the empty level in `a/`; neither is found, and
the message goes to the default handler. -/
theorem parent_not_found :
    ValidFilter [97, 47, 35] ∧ FilterMatches [97, 47, 35] [97] ∧ ¬ TopicFits [97, 47, 35] [97] ∧
      ValidFilter [97, 47, 43] ∧ FilterMatches [97, 47, 43] [97, 47] ∧
      ¬ TopicFits [97, 47, 43] [97, 47] ∧
      twoFilters.client.messageHandlers[4]? = some ⟨some 1, some ()⟩ ∧
      ¬ Invokes { toAB with topicName := [97] } twoFilters 4 () := by
  refine ⟨aHash_valid, by decide, by decide, aPlus_valid, by decide, by decide, rfl, ?_⟩
  intro h
  obtain ⟨slot, hslot, -, hcall⟩ := h
  cases hslot
  exact absurd (congrArg Prod.fst hcall) (by decide)

end IBoxClient
