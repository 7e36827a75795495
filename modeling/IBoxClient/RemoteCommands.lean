import Mathlib.Algebra.Order.Floor.Ring
import Mathlib.Data.Rat.Floor
import Mathlib.Tactic.Linarith
import Mathlib.Tactic.NormNum
import IBoxClient.Lib.Delimited
import IBoxClient.MainCallbacks

/- The values of remote commands.

   A payload is a JSON value here, with its types, and numbers are rational; what JSON value a
   text is remains a parameter. `Json.cJson` is the item that cJSON makes of it: a number has its
   integer part, saturated, `true` has 1, and any other value 0. The callbacks look for a member
   without regard to case, do not look at its type, and take the integer; so `{"rtc":"noon"}` sets
   the clock to 0.

   `rtc_admissible_iff` and `dac_admissible_iff` say for which payloads nothing is written that
   the payload does not say or that the DAC cannot output. -/
namespace IBoxClient

open Bytes

/-- A JSON value. Names and texts are given without their escapes. -/
inductive Json where
  | null
  | bool (b : Bool)
  | number (value : ℚ)
  | string (text : List UInt8)
  | array (items : List Json)
  | object (members : List (List UInt8 × Json))

/-- `(int)number`: towards zero. -/
def truncated (number : ℚ) : Int := if 0 ≤ number then ⌊number⌋ else ⌈number⌉

/-- The integer that `parse_number` stores. -/
def saturated (number : ℚ) : Int32 :=
  if 2147483647 ≤ number then 2147483647
  else if number ≤ -2147483648 then -2147483648
  else Int32.ofInt (truncated number)

namespace Json

def valueint : Json → Int32
  | number value => saturated value
  | bool b => if b then 1 else 0
  | null | string _ | array _ | object _ => 0

mutual

/-- The item for a value, with its name in the object that it belongs to. -/
def cJson : Json → Option (List UInt8) → CJson
  | null, name => .mk name 0 []
  | bool b, name => .mk name (if b then 1 else 0) []
  | number value, name => .mk name (saturated value) []
  | string _, name => .mk name 0 []
  | array items, name => .mk name 0 (cJsonItems items)
  | object members, name => .mk name 0 (cJsonMembers members)

def cJsonItems : List Json → List CJson
  | [] => []
  | item :: items => item.cJson none :: cJsonItems items

def cJsonMembers : List (List UInt8 × Json) → List CJson
  | [] => []
  | m :: members => cJsonMember m :: cJsonMembers members

/-- The name of an item is a C string. -/
def cJsonMember : List UInt8 × Json → CJson
  | (name, value) => value.cJson (some (cstring name))

end

theorem valueint_cJson (j : Json) (name : Option (List UInt8)) :
    (j.cJson name).valueint = j.valueint := by
  cases j <;> simp [cJson, valueint, CJson.valueint]

theorem cJsonMembers_eq (members : List (List UInt8 × Json)) :
    cJsonMembers members = members.map cJsonMember := by
  induction members with
  | nil => rfl
  | cons m members ih => rw [cJsonMembers, ih, List.map_cons]

theorem string_cJsonItems {items : List Json} {item : CJson} (h : item ∈ cJsonItems items) :
    item.string = none := by
  induction items with
  | nil => exact absurd h List.not_mem_nil
  | cons j items ih =>
    rw [cJsonItems, List.mem_cons] at h
    rcases h with rfl | h
    · cases j <;> rfl
    · exact ih h

/-! ## Members -/

def members : Json → List (List UInt8 × Json)
  | object members => members
  | _ => []

/-- The first member with a name. -/
def member (j : Json) (name : List UInt8) : Option Json :=
  (j.members.find? fun m => m.1 == name).map Prod.snd

/-- The first member whose name, as a C string, is another one up to case. -/
def memberAnyCase (j : Json) (name : List UInt8) : Option (List UInt8 × Json) :=
  j.members.find? fun m => (cstring m.1).map tolower == name.map tolower

theorem cJsonMember_string (m : List UInt8 × Json) :
    (cJsonMember m).string = some (cstring m.1) := by
  obtain ⟨name, j⟩ := m
  cases j <;> simp [cJsonMember, cJson, CJson.string]

/-- **What cJSON finds** is the first member with the name up to case. -/
theorem getObjectItem_cJson (j : Json) (name : List UInt8) :
    cJsonGetObjectItem (some (j.cJson none)) name = (j.memberAnyCase name).map cJsonMember := by
  rw [cJsonGetObjectItem, Option.bind_some]
  cases j with
  | null | bool | number | string => rfl
  | array items =>
    rw [cJson, CJson.child, List.find?_eq_none.mpr]
    · rfl
    · intro item hitem
      simp [string_cJsonItems hitem]
  | object members =>
    rw [cJson, CJson.child, cJsonMembers_eq, List.find?_map, memberAnyCase]
    congr 2
    funext m
    simp [cJsonMember_string]

/-- A member that has the name itself is the one that is meant. -/
theorem member_of_anyCase {j : Json} {name : List UInt8} {value : Json} (hname : 0 ∉ name)
    (h : j.memberAnyCase name = some (name, value)) : j.member name = some value := by
  have hsame : cstring name = name := Delimited.takeWhile_of_not_mem hname
  obtain ⟨-, before, after, hsplit, hbefore⟩ := List.find?_eq_some_iff_append.mp h
  have hexact : j.members.find? (fun m => m.1 == name) = some (name, value) := by
    apply List.find?_eq_some_iff_append.mpr
    refine ⟨beq_self_eq_true name, before, after, hsplit, ?_⟩
    intro m hm
    have hother := hbefore m hm
    rw [Bool.not_eq_true'] at hother ⊢
    by_contra hself
    rw [Bool.not_eq_false, beq_iff_eq] at hself
    rw [hself, hsame, beq_self_eq_true] at hother
    cases hother
  rw [member, hexact]
  rfl

/-- Only an object has members. -/
theorem object_of_member {j : Json} {name : List UInt8} {value : Json}
    (h : j.member name = some value) : ∃ members, j = object members := by
  cases j with
  | object members => exact ⟨members, rfl⟩
  | null | bool | number | string | array => cases h

end Json

/-! ## Integers -/

theorem toNat_toUInt32 (t : Int) : ((Int32.ofInt t).toUInt32.toNat : Int) = t % 4294967296 := by
  have hbits : (Int32.ofInt t).toUInt32.toNat = (BitVec.ofInt 32 t).toNat := rfl
  rw [hbits, BitVec.toNat_ofInt]
  omega

theorem truncated_bounds (value : ℚ) :
    (0 ≤ value → 0 ≤ truncated value ∧ (truncated value : ℚ) ≤ value ∧
      value < truncated value + 1) ∧
    (value < 0 → truncated value ≤ 0 ∧ value ≤ truncated value ∧
      (truncated value : ℚ) - 1 < value) := by
  constructor
  · intro h
    rw [truncated, if_pos h]
    exact ⟨Int.floor_nonneg.mpr h, Int.floor_le value, Int.lt_floor_add_one value⟩
  · intro h
    rw [truncated, if_neg (not_le.mpr h)]
    refine ⟨Int.ceil_le.mpr (by rw [Int.cast_zero]; exact le_of_lt h), Int.le_ceil value, ?_⟩
    have hlt := Int.ceil_lt_add_one value
    linarith

/-- **The counter** is set to the number that the payload has if and only if that is a natural
number of less than 2^31. -/
theorem counter_eq_iff (value : ℚ) :
    ((saturated value).toUInt32.toNat : ℚ) = value ↔ ∃ n : Nat, n ≤ 2147483647 ∧ value = n := by
  obtain ⟨hpos, hneg⟩ := truncated_bounds value
  constructor
  · intro h
    unfold saturated at h
    split at h
    · exact ⟨2147483647, le_rfl, h.symm⟩
    · next hhigh =>
      split at h
      · next hlow =>
        -- the most negative integer, and the number is not negative
        have hge : (0 : ℚ) ≤ value := by
          rw [← h]
          exact Nat.cast_nonneg _
        linarith
      · have hge : (0 : ℚ) ≤ value := by
          rw [← h]
          exact Nat.cast_nonneg _
        obtain ⟨ht, hle, -⟩ := hpos hge
        have hsmall : truncated value < 2147483647 := by
          have hlt : (truncated value : ℚ) < 2147483647 := lt_of_le_of_lt hle (not_le.mp hhigh)
          exact_mod_cast hlt
        refine ⟨(Int32.ofInt (truncated value)).toUInt32.toNat, ?_, h.symm⟩
        have hcast := toNat_toUInt32 (truncated value)
        omega
  · intro h
    obtain ⟨n, hn, rfl⟩ := h
    unfold saturated
    split
    · next hhigh =>
      have hge : 2147483647 ≤ n := by exact_mod_cast hhigh
      obtain rfl : n = 2147483647 := Nat.le_antisymm hn hge
      rfl
    · split
      · next hlow =>
        have hge : (0 : ℚ) ≤ n := Nat.cast_nonneg n
        linarith
      · have ht : truncated (n : ℚ) = n := by
          rw [truncated, if_pos (Nat.cast_nonneg n), Int.floor_natCast]
        have hcast := toNat_toUInt32 (n : Int)
        rw [ht]
        have hsame : (Int32.ofInt (n : Int)).toUInt32.toNat = n := by omega
        rw [hsame]

/-- What `dac_set_vol` writes into the register of the DAC, over the rationals. -/
def dacData (vol : ℚ) : Int := ⌊vol * 4096 / (33 / 10)⌋

/-- The register has 12 bits. -/
theorem dacData_range (v : Int) :
    0 ≤ dacData ((v : ℚ) / 100) ∧ dacData ((v : ℚ) / 100) ≤ 4095 ↔ 0 ≤ v ∧ v ≤ 329 := by
  have hscale : (v : ℚ) / 100 * 4096 / (33 / 10) = v * 4096 / 330 := by ring
  rw [dacData, hscale, Int.floor_nonneg, ← Int.lt_add_one_iff, Int.floor_lt]
  constructor
  · intro h
    obtain ⟨hge, hlt⟩ := h
    push_cast at hlt
    have hv : (0 : ℚ) ≤ v := by linarith
    have hv' : (v : ℚ) < 330 := by linarith
    have hnat : 0 ≤ v := by exact_mod_cast hv
    have hnat' : v < 330 := by exact_mod_cast hv'
    exact ⟨hnat, by omega⟩
  · intro h
    obtain ⟨hge, hle⟩ := h
    have hv : (0 : ℚ) ≤ v := by exact_mod_cast hge
    have hv' : (v : ℚ) ≤ 329 := by exact_mod_cast hle
    push_cast
    exact ⟨by linarith, by linarith⟩

theorem toInt_ofInt {t : Int} (hge : -2147483648 ≤ t) (hlt : t < 2147483648) :
    (Int32.ofInt t).toInt = t :=
  Int32.toInt_ofInt_of_le hge (by omega)

/-- The integer part lies in the range of the DAC if and only if the number does, but for what is
cut off. -/
theorem truncated_range (value : ℚ) :
    0 ≤ truncated value ∧ truncated value ≤ 329 ↔ -1 < value ∧ value < 330 := by
  obtain ⟨hpos, hneg⟩ := truncated_bounds value
  rcases le_or_gt 0 value with hge | hlt
  · obtain ⟨ht, hle, hlt⟩ := hpos hge
    constructor
    · intro h
      have ht' : (truncated value : ℚ) ≤ 329 := by exact_mod_cast h.2
      exact ⟨by linarith, by linarith⟩
    · intro h
      have hsmall : (truncated value : ℚ) < 330 := by linarith
      have hsmall' : truncated value < 330 := by exact_mod_cast hsmall
      exact ⟨ht, by omega⟩
  · obtain ⟨ht, hle, hgt⟩ := hneg hlt
    constructor
    · intro h
      have ht' : (0 : ℚ) ≤ truncated value := by exact_mod_cast h.1
      exact ⟨by linarith, by linarith⟩
    · intro h
      have hlarge : (-1 : ℚ) < truncated value := by linarith
      have hlarge' : -1 < truncated value := by exact_mod_cast hlarge
      exact ⟨by omega, by omega⟩

/-- What is not saturated has an integer part of 32 bits. -/
theorem truncated_fits {value : ℚ} (hhigh : value < 2147483647) (hlow : -2147483648 < value) :
    -2147483648 ≤ truncated value ∧ truncated value < 2147483648 := by
  obtain ⟨hpos, hneg⟩ := truncated_bounds value
  rcases le_or_gt 0 value with hge | hlt
  · obtain ⟨ht, hle, -⟩ := hpos hge
    have hlt : (truncated value : ℚ) < 2147483648 := by linarith
    have hlt' : truncated value < 2147483648 := by exact_mod_cast hlt
    exact ⟨by omega, hlt'⟩
  · obtain ⟨ht, hle, -⟩ := hneg hlt
    have hgt : (-2147483648 : ℚ) < truncated value := by linarith
    have hgt' : -2147483648 < truncated value := by exact_mod_cast hgt
    exact ⟨le_of_lt hgt', by omega⟩

theorem saturated_range (value : ℚ) :
    0 ≤ (saturated value).toInt ∧ (saturated value).toInt ≤ 329 ↔ -1 < value ∧ value < 330 := by
  unfold saturated
  split
  · next hhigh =>
    constructor
    · intro h
      exact absurd h.2 (by decide)
    · intro h
      linarith
  split
  · next hlow =>
    constructor
    · intro h
      exact absurd h.1 (by decide)
    · intro h
      linarith
  next hhigh hlow =>
  obtain ⟨hge, hlt⟩ := truncated_fits (not_le.mp hhigh) (not_le.mp hlow)
  rw [toInt_ofInt hge hlt]
  exact truncated_range value

/-! ## The callbacks -/

/-- `root`, for what the payload is. -/
def parsed (payload : Option Json) : Option CJson := payload.map fun j => j.cJson none

/-- What `mqtt_action_callback` has written into the register, if it calls `dac_set_vol`. -/
def actionData (root : Option CJson) : Option Int :=
  (cJsonGetObjectItem root (ascii "dac")).map fun dac => dacData ((dac.valueint.toInt : ℚ) / 100)

/-- The clock is only set to the number `rtc` of an object. -/
def ClockAsTold (payload : Option Json) : Prop :=
  ∀ v, MainCallback.mqttConfigCallback.calls (parsed payload) = some (.rtcSetCounter v) →
    ∃ members, payload = some (.object members) ∧
      (Json.object members).member (ascii "rtc") = some (.number v.toNat)

/-- The DAC is only changed for a number `dac` of an object, and to what it can output. -/
def DacInRange (payload : Option Json) : Prop :=
  ∀ vol, MainCallback.mqttActionCallback.calls (parsed payload) = some (.dacSetVol vol) →
    (∃ members value, payload = some (.object members) ∧
      (Json.object members).member (ascii "dac") = some (.number value)) ∧
    ∃ data, actionData (parsed payload) = some data ∧ 0 ≤ data ∧ data ≤ 4095

/-- Where something is called `rtc` up to case, the first such member is itself called `rtc`, and
is a natural number of less than 2^31; or else there is an `rtc` that has its integer by chance. -/
def ClockAdmissible (payload : Option Json) : Prop :=
  ∀ j, payload = some j → ∀ name item, j.memberAnyCase (ascii "rtc") = some (name, item) →
    if name = ascii "rtc" then ∃ n : Nat, n ≤ 2147483647 ∧ item = .number n
    else j.member (ascii "rtc") = some (.number item.valueint.toUInt32.toNat)

/-- Where something is called `dac` up to case, the first such member is itself called `dac`, and
is a number above -1 and below 330; or else its integer is in that range, and `dac` a number. -/
def DacAdmissible (payload : Option Json) : Prop :=
  ∀ j, payload = some j → ∀ name item, j.memberAnyCase (ascii "dac") = some (name, item) →
    if name = ascii "dac" then ∃ value, -1 < value ∧ value < 330 ∧ item = .number value
    else (∃ value, j.member (ascii "dac") = some (.number value)) ∧
      0 ≤ item.valueint.toInt ∧ item.valueint.toInt ≤ 329

/-- What the callbacks find in a payload. -/
theorem getObjectItem_parsed (payload : Option Json) (name : List UInt8) :
    cJsonGetObjectItem (parsed payload) name =
      (payload.bind fun j => j.memberAnyCase name).map Json.cJsonMember := by
  cases payload with
  | none => rfl
  | some j => exact Json.getObjectItem_cJson j name

theorem valueint_cJsonMember (name : List UInt8) (item : Json) :
    (Json.cJsonMember (name, item)).valueint = item.valueint := by
  rw [Json.cJsonMember]
  exact item.valueint_cJson _

section Found
variable {j : Json} {name : List UInt8} {item : Json}

theorem clockAsTold_found (h : j.memberAnyCase (ascii "rtc") = some (name, item)) :
    ClockAsTold (some j) ↔
      j.member (ascii "rtc") = some (.number item.valueint.toUInt32.toNat) := by
  have hcalls : MainCallback.mqttConfigCallback.calls (parsed (some j)) =
      some (.rtcSetCounter item.valueint.toUInt32) := by
    rw [MainCallback.calls, getObjectItem_parsed, Option.bind_some, h, Option.map_some,
      Option.map_some, valueint_cJsonMember]
  unfold ClockAsTold
  rw [hcalls]
  constructor
  · intro htold
    obtain ⟨members, hj, hmember⟩ := htold _ rfl
    rw [Option.some.inj hj]
    exact hmember
  · intro hmember v hv
    obtain rfl := Call.rtcSetCounter.inj (Option.some.inj hv)
    obtain ⟨members, rfl⟩ := Json.object_of_member hmember
    exact ⟨members, rfl, hmember⟩

theorem dacInRange_found (h : j.memberAnyCase (ascii "dac") = some (name, item)) :
    DacInRange (some j) ↔ (∃ value, j.member (ascii "dac") = some (.number value)) ∧
      0 ≤ item.valueint.toInt ∧ item.valueint.toInt ≤ 329 := by
  have hfound : cJsonGetObjectItem (parsed (some j)) (ascii "dac") =
      some (Json.cJsonMember (name, item)) := by
    rw [getObjectItem_parsed, Option.bind_some, h, Option.map_some]
  have hdata : actionData (parsed (some j)) =
      some (dacData ((item.valueint.toInt : ℚ) / 100)) := by
    rw [actionData, hfound, Option.map_some, valueint_cJsonMember]
  unfold DacInRange
  rw [hdata, MainCallback.calls, hfound, Option.map_some]
  constructor
  · intro hrange
    obtain ⟨⟨members, value, hj, hmember⟩, data, hsome, hge, hle⟩ := hrange _ rfl
    rw [Option.some.inj hj]
    refine ⟨⟨value, hmember⟩, (dacData_range _).mp ?_⟩
    rw [Option.some.inj hsome]
    exact ⟨hge, hle⟩
  · intro hcond vol _
    obtain ⟨⟨value, hmember⟩, hrange⟩ := hcond
    obtain ⟨members, rfl⟩ := Json.object_of_member hmember
    exact ⟨⟨members, value, rfl, hmember⟩, _, rfl, (dacData_range _).mpr hrange⟩

end Found

/-- Where no member has the name in any case, nothing is called. -/
theorem getObjectItem_absent {j : Json} {name : List UInt8} (h : j.memberAnyCase name = none) :
    cJsonGetObjectItem (parsed (some j)) name = none := by
  rw [getObjectItem_parsed, Option.bind_some, h, Option.map_none]

/-- A condition on what is called, as one on the first member with a name up to case. -/
theorem admissible_iff {told : Option Json → Prop} {exact : Json → Prop} {other : Json → Json → Prop}
    {name : List UInt8}
    (habsent : ∀ payload, cJsonGetObjectItem (parsed payload) name = none → told payload)
    (hexact : ∀ j item, j.memberAnyCase name = some (name, item) → (told (some j) ↔ exact item))
    (hother : ∀ j name' item, j.memberAnyCase name = some (name', item) →
      (told (some j) ↔ other j item)) (payload : Option Json) :
    told payload ↔ ∀ j, payload = some j → ∀ name' item, j.memberAnyCase name = some (name', item) →
      if name' = name then exact item else other j item := by
  cases payload with
  | none => exact ⟨fun _ => nofun, fun _ => habsent none rfl⟩
  | some j =>
    cases hfirst : j.memberAnyCase name with
    | none =>
      refine ⟨fun _ j' hj name' item hitem => ?_, fun _ => habsent _ (getObjectItem_absent hfirst)⟩
      rw [← Option.some.inj hj, hfirst] at hitem
      cases hitem
    | some m =>
      obtain ⟨name', item⟩ := m
      have hcases : told (some j) ↔ if name' = name then exact item else other j item := by
        split
        · next hname => exact hexact j item (hname ▸ hfirst)
        · exact hother j name' item hfirst
      rw [hcases]
      constructor
      · intro h j' hj name'' item' hitem
        rw [← Option.some.inj hj] at hitem ⊢
        obtain ⟨rfl, rfl⟩ := Prod.mk.inj (Option.some.inj (hfirst.symm.trans hitem))
        exact h
      · intro h
        exact h j rfl name' item hfirst

/-- The clock, by what the first member called `rtc` is. -/
theorem clock_admissible_iff (payload : Option Json) :
    ClockAsTold payload ↔ ClockAdmissible payload := by
  apply admissible_iff
  · intro payload habsent v hv
    rw [MainCallback.calls, habsent] at hv
    cases hv
  · intro j item hfirst
    rw [clockAsTold_found hfirst, Json.member_of_anyCase (by decide) hfirst]
    constructor
    · intro hmember
      have hnumber := Option.some.inj hmember
      have hself := congrArg Json.valueint hnumber
      rw [Json.valueint] at hself
      obtain ⟨n, hn, hvalue⟩ :=
        (counter_eq_iff (item.valueint.toUInt32.toNat : ℚ)).mp (by rw [← hself])
      exact ⟨n, hn, by rw [hnumber, hvalue]⟩
    · intro h
      obtain ⟨n, hn, rfl⟩ := h
      have hcounter := (counter_eq_iff (n : ℚ)).mpr ⟨n, hn, rfl⟩
      rw [Json.valueint, hcounter]
  · intro j name item hfirst
    exact clockAsTold_found hfirst

/-- The DAC, by what the first member called `dac` is. -/
theorem dac_admissible_iff (payload : Option Json) :
    DacInRange payload ↔ DacAdmissible payload := by
  apply admissible_iff
  · intro payload habsent vol hvol
    rw [MainCallback.calls, habsent] at hvol
    cases hvol
  · intro j item hfirst
    rw [dacInRange_found hfirst, Json.member_of_anyCase (by decide) hfirst]
    constructor
    · intro h
      obtain ⟨⟨value, hmember⟩, hrange⟩ := h
      obtain rfl := Option.some.inj hmember
      obtain ⟨hlow, hhigh⟩ := (saturated_range value).mp hrange
      exact ⟨value, hlow, hhigh, rfl⟩
    · intro h
      obtain ⟨value, hlow, hhigh, rfl⟩ := h
      exact ⟨⟨value, rfl⟩, (saturated_range value).mpr ⟨hlow, hhigh⟩⟩
  · intro j name item hfirst
    exact dacInRange_found hfirst

/-- **Remote commands.** Whatever JSON value a payload is taken for, the clock is set only to what
the payload says, and the DAC changed only to what it can output, if and only if the payload is
admissible. -/
theorem remote_commands_iff (json : List UInt8 → Option Json) (payload : List UInt8) :
    (ClockAsTold (json payload) ↔ ClockAdmissible (json payload)) ∧
      (DacInRange (json payload) ↔ DacAdmissible (json payload)) :=
  ⟨clock_admissible_iff (json payload), dac_admissible_iff (json payload)⟩

/-- Two payloads, and what they are. -/
def remoteJson (text : List UInt8) : Option Json :=
  if text = ascii "\x7b\"rtc\":\"noon\"\x7d" then
    some (.object [(ascii "rtc", .string (ascii "noon"))])
  else if text = ascii "\x7b\"dac\":330\x7d" then some (.object [(ascii "dac", .number 330)])
  else none

/-- A text sets the clock to 0; and 330 is more than the DAC can output. -/
theorem text_sets_the_clock :
    ¬ ClockAsTold (remoteJson (ascii "\x7b\"rtc\":\"noon\"\x7d")) ∧
      ¬ DacInRange (remoteJson (ascii "\x7b\"dac\":330\x7d")) := by
  constructor
  · have hpayload : remoteJson (ascii "\x7b\"rtc\":\"noon\"\x7d") =
        some (.object [(ascii "rtc", .string (ascii "noon"))]) := if_pos rfl
    rw [hpayload]
    intro htold
    obtain ⟨members, hobject, hmember⟩ := htold 0 rfl
    rw [← Option.some.inj hobject] at hmember
    have htext : (Json.object [(ascii "rtc", .string (ascii "noon"))]).member (ascii "rtc") =
        some (.string (ascii "noon")) := rfl
    cases htext.symm.trans hmember
  · have hpayload : remoteJson (ascii "\x7b\"dac\":330\x7d") =
        some (.object [(ascii "dac", .number 330)]) := by
      rw [remoteJson, if_neg (by decide), if_pos rfl]
    have hfirst : (Json.object [(ascii "dac", .number 330)]).memberAnyCase (ascii "dac") =
        some (ascii "dac", .number 330) := rfl
    rw [hpayload, dacInRange_found hfirst]
    intro hrange
    have hbound := ((saturated_range 330).mp hrange.2).2
    exact absurd hbound (lt_irrefl _)

end IBoxClient
