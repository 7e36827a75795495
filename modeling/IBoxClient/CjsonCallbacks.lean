import IBoxClient.CjsonLongest
import IBoxClient.RemoteCommands

/- What the callbacks make of a message, with the parser that they call.

   The callbacks of the main thread have been modelled for any way to read a text. `cJSON_Parse`, as
   it is written, is such a way (`cJsonParse_refines`). It stops where an object that has been
   printed is closed; so a configuration that is printed as one object sets the clock to what it
   says, whatever earlier packets have left in the read buffer (`config_sets_clock`).

   `rational` is the value of a double: of an infinite one, some value that is no `int`. -/
namespace IBoxClient.Cjson

open Bytes

/-! ## What the callbacks see -/

section Values
variable {D : Type} (rational : D → ℚ)

mutual

/-- The JSON value of an item. The parser makes no raw item; to the callbacks it would be a text. -/
def toJson : Item D → Json
  | .null => .null
  | .false => .bool false
  | .true => .bool true
  | .number d => .number (rational d)
  | .raw s | .string s => .string s
  | .array child => .array (elementsToJson child)
  | .object child => .object (membersToJson child)

def elementsToJson : Elements D → List Json
  | .nil => []
  | .cons item next => toJson item :: elementsToJson next

def membersToJson : Members D → List (List UInt8 × Json)
  | .nil => []
  | .cons string item next => (string, toJson item) :: membersToJson next

end

/-- An item, as the callbacks see it. -/
def seen (item : Item D) : CJson := (toJson rational item).cJson none

/-- The value of a text, as the callbacks see it. -/
def jsonValue (lib : Doubles D) (text : List UInt8) : Option CJson :=
  (denotes lib text).map (seen rational)

/-- **The parser is such a way** to read a text. -/
theorem cJsonParse_refines {lib : Doubles D} (hlaw : lib.Lawful) (hstable : lib.Stable)
    (memory : List UInt8) : IBoxClient.cJsonParse (jsonValue rational lib) memory =
      (cJsonParse lib memory).map (seen rational) := by
  have hlongest : IBoxClient.cJsonParse (jsonValue rational lib) memory =
      (Longest.longest (denotes lib) (cstring memory)).map (seen rational) :=
    Longest.longest_map (seen rational) (cstring memory)
  rw [hlongest, cJsonParse_eq, parseText_longest hlaw hstable (zero_not_mem_cstring memory)]

/-- What the configuration sets the clock to. -/
theorem calls_config (item : Item D) :
    MainCallback.mqttConfigCallback.calls (some (seen rational item)) =
      ((toJson rational item).memberAnyCase (ascii "rtc")).map fun m =>
        .rtcSetCounter m.2.valueint.toUInt32 := by
  rw [MainCallback.calls, seen, Json.getObjectItem_cJson, Option.map_map]
  congr 1
  funext m
  obtain ⟨name, value⟩ := m
  rw [Function.comp_apply, Json.cJsonMember, Json.valueint_cJson]

end Values

/-! ## Messages that have been printed -/

section Messages
variable {D : Type} {lib : Doubles D} [DecidableEq D] {rational : D → ℚ}

/-- What has been printed is taken as a whole. -/
theorem denotes_render (hlaw : lib.Lawful) (format : Bool) {item : Item D} (hplain : Plain item)
    (hheight : height item ≤ nestingLimit) :
    denotes lib (render lib format 0 item) = some (normal lib item) := by
  have hback := (parse_render hlaw format false hplain []).1 hheight
  change finishParse _ false (parseText lib (render lib format 0 item)) = _ at hback
  refine denotes_iff.mpr ?_
  cases hparse : parseText lib (render lib format 0 item) with
  | fail p =>
    rw [hparse] at hback
    cases hback
  | ok v p =>
    rw [hparse] at hback
    cases hback
    rfl

/-- **A configuration sets the clock** to what it says, once for each time that the callback is
called. It has been printed as one object without raw texts, nested no more deeply than the parser
allows, with `cJSON_Print`, formatted or not, and is published without the NUL; then the callback
sets the counter to the integer of the first member that is called `rtc`, and does nothing if there
is none, whatever stands behind the payload in memory. -/
theorem config_sets_clock (hlaw : lib.Lawful) (hstable : lib.Stable) {p : Publication}
    {s : Sys MainCallback} (hawaits : Awaits (Inbound.publish p).wire s) {child : Members D}
    (hplain : PlainMembers child) (hheight : height (.object child) ≤ nestingLimit) {heap : Heap}
    {format : Bool}
    (hprint : print lib heap format (.object child) = some (p.payload ++ [0]))
    (readbuf behind elsewhere : List UInt8) :
    cycleCalls (jsonValue rational lib) behind elsewhere .mqttConfigCallback (s.holding readbuf) =
      callsOf .mqttConfigCallback
        (((toJson rational (normal lib (.object child))).memberAnyCase (ascii "rtc")).map fun m =>
          .rtcSetCounter m.2.valueint.toUInt32)
        (callbacksFor s p.topicName).reverse := by
  have hpayload : p.payload = render lib format 0 (.object child) :=
    List.append_cancel_right (print_some hlaw hprint)
  have hnul : 0 ∉ p.payload := by
    rw [hpayload]
    exact render_ne_zero format hlaw 0 (.object child)
  have hdenotes : denotes lib p.payload = some (normal lib (.object child)) := by
    rw [hpayload]
    have hobject : Plain (.object child) := hplain
    exact denotes_render hlaw format hobject hheight
  have hnumber : ∀ d, normal lib (.object child) ≠ .number d := by
    intro d hd
    rw [normal] at hd
    cases hd
  apply cycleCalls_eq hawaits
  intro left
  rw [cJsonParse_refines rational hlaw hstable, parse_bracketed hlaw hnul hdenotes hnumber,
    Option.map_some, calls_config]

end Messages

/-! A broker that publishes a configuration: `rtc` is to be 15. -/

def clockObject : Members Nat := .cons (ascii "rtc") (.number 15) .nil

def clockConfig : Publication :=
  { truncatedConfig with
    payload := ascii "\x7b\"rtc\":15\x7d"
    body_lt := by decide }

def clockBroker (k : Nat) : EnvStep :=
  { EnvStep.quiet with
    arrive :=
      match k with
      | 0 => [⟨(Inbound.publish clockConfig).wire.bytes, by decide, by decide⟩]
      | _ => [] }

def clockSys : Sys MainCallback :=
  (sysInit connectDataInitializer (List.replicate 1024 0) .mqttSubDefaultCallback
    (Net.initial clockBroker) fun _ => ascii "mqtt/config").setClient fun c =>
      { c with messageHandlers := [⟨some cigSubtopic, some .mqttConfigCallback⟩] }

/-- The digits that are left in the read buffer do no harm. -/
theorem config_sets_clock_fifteen :
    (cycleCalls (jsonValue (fun n : Nat => (n : ℚ)) naturals) [] [] .mqttConfigCallback
      (clockSys.holding (List.replicate 1024 57))).map Call.counter = [some 15] := by
  have hawaits : Awaits (Inbound.publish clockConfig).wire clockSys :=
    ⟨by decide +kernel, ⟨[], by decide +kernel⟩, by decide +kernel, by decide +kernel⟩
  have hprint : print naturals ⟨false, fun _ => some fun _ => 0⟩ false (.object clockObject) =
      some (clockConfig.payload ++ [0]) := by
    decide +kernel
  have hplain : PlainMembers clockObject := ⟨trivial, trivial⟩
  rw [config_sets_clock naturals_lawful naturals_stable hawaits hplain (by decide) hprint]
  decide +kernel

end IBoxClient.Cjson
