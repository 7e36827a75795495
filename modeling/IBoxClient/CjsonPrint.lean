import Mathlib.Algebra.Order.Ring.Nat
import IBoxClient.Lib.Bytes
import IBoxClient.Lib.Reading

/- Printing of JSON (`cJSON.c`).

   An item is printed into a buffer that `ensure` makes larger where it may. The functions store
   their text at the offset of the buffer and end it with a NUL, and some of them leave the offset
   where it was; `update_offset` then looks for the NUL. `render` is the text itself.

   `printValue_outcome` is the specification of all of this: the text of the item stands at the
   offset, or there was no room for it. So `cJSON_Print` yields the text of the item
   (`print_cases`), and `cJSON_PrintPreallocated` stores nothing outside of its buffer, whether it
   succeeds or not (`printPreallocated_inside`).

   Doubles are a parameter: the library prints them and reads them back. -/
namespace IBoxClient.Cjson

open Bytes Memory

/-! ## Items -/

mutual

/-- An item, with what `type`, `valuedouble`, `valuestring` and `child` hold. The text of a raw item
is printed as it is. -/
inductive Item (D : Type) where
  | null
  | false
  | true
  | number (valuedouble : D)
  | raw (valuestring : List UInt8)
  | string (valuestring : List UInt8)
  | array (child : Elements D)
  | object (child : Members D)

/-- The elements of an array, linked by `next`. -/
inductive Elements (D : Type) where
  | nil
  | cons (item : Item D) (next : Elements D)

/-- The members of an object, linked by `next`, each with its name. -/
inductive Members (D : Type) where
  | nil
  | cons (string : List UInt8) (item : Item D) (next : Members D)

end

def Elements.isNil {D : Type} : Elements D → Bool
  | .nil => Bool.true
  | .cons _ _ => Bool.false

def Members.isNil {D : Type} : Members D → Bool
  | .nil => Bool.true
  | .cons _ _ _ => Bool.false

/-- The characters that `parse_number` takes for a part of a number. -/
def isNumberChar (c : UInt8) : Bool :=
  isdigit c ∨ c = 43 ∨ c = 45 ∨ c = 46 ∨ c = 69 ∨ c = 101

/-- The doubles of the C library, up to `==`. -/
structure Doubles (D : Type) where
  isFinite : D → Bool
  /-- The number at the front of a text, and how many characters it takes, 0 if there is none. -/
  strtod : List UInt8 → D × Nat
  /-- With the format `%1.<precision>g`. -/
  sprintf : Nat → D → List UInt8

/-- What the C library says about them: seventeen digits are enough to get a number back, and the
text of a number with that many is no longer than this. -/
structure Doubles.Lawful {D : Type} (lib : Doubles D) : Prop where
  exact : ∀ d, lib.isFinite d = true → lib.strtod (lib.sprintf 17 d) = (d, (lib.sprintf 17 d).length)
  whole : ∀ d, lib.isFinite d = true → (lib.strtod (lib.sprintf 15 d)).2 = (lib.sprintf 15 d).length
  chars : ∀ precision d, lib.isFinite d = true → ∀ c ∈ lib.sprintf precision d, isNumberChar c = true
  head : ∀ precision d, lib.isFinite d = true →
    ∃ c cs, lib.sprintf precision d = c :: cs ∧ (c = 45 ∨ isdigit c = true)
  short : ∀ precision d, lib.isFinite d = true → precision ≤ 17 →
    (lib.sprintf precision d).length ≤ 24
  taken : ∀ text, (lib.strtod text).2 ≤ text.length

abbrev quote : UInt8 := 34
abbrev backslash : UInt8 := 92

/-! ## The buffer -/

abbrev intMax : Nat := 2147483647

structure PrintBuffer where
  buffer : Nat → UInt8
  length : Nat
  offset : Nat
  depth : Nat
  noalloc : Bool
  format : Bool

/-- The hooks: whether there is a `realloc`, and what a block of a size holds when it is allocated, if
it is. -/
structure Heap where
  reallocate : Bool
  block : Nat → Option (Nat → UInt8)

/-- A function on the buffer fails with what it leaves of it. -/
abbrev Printing := Except PrintBuffer PrintBuffer

namespace PrintBuffer

/-- Bytes are stored at the offset. -/
def store (p : PrintBuffer) (bytes : List UInt8) : PrintBuffer :=
  { p with buffer := write p.buffer p.offset bytes }

/-- Bytes are stored at the offset, which moves behind them. -/
def put (p : PrintBuffer) (bytes : List UInt8) : PrintBuffer :=
  { p.store bytes with offset := p.offset + bytes.length }

end PrintBuffer

/-- The size of a buffer that is to hold so many bytes. -/
def newSize (needed : Nat) : Option Nat :=
  if intMax / 2 < needed then if needed ≤ intMax then some intMax else none else some (needed * 2)

/-- `ensure`: without `realloc`, the bytes up to the one at the offset are copied. -/
def ensure (heap : Heap) (needed : Nat) (p : PrintBuffer) : Printing :=
  if 0 < p.length ∧ p.length ≤ p.offset then .error p
  else if intMax < needed then .error p
  else if needed + p.offset + 1 ≤ p.length then .ok p
  else if p.noalloc then .error p
  else match newSize (needed + p.offset + 1) with
    | none => .error p
    | some newsize =>
      match heap.block newsize with
      | none => .error { p with length := 0 }
      | some fresh =>
        let kept := if heap.reallocate then p.length else p.offset + 1
        .ok { p with length := newsize, buffer := fun i => if i < kept then p.buffer i else fresh i }

/-- `update_offset`. -/
def updateOffset (p : PrintBuffer) : PrintBuffer :=
  let behind := (List.range (p.length - p.offset)).map fun k => p.buffer (p.offset + k)
  { p with offset := p.offset + (cstring behind).length }

/-! ## The functions -/

section Print
variable {D : Type} (lib : Doubles D) (heap : Heap)

/-- What `sscanf` with `%lg` finds. -/
def sscanf (text : List UInt8) : Option D :=
  if (lib.strtod text).2 = 0 then none else some (lib.strtod text).1

/-- The text that `print_number` puts into `number_buffer`. The decimal point is a point. -/
def numberText [DecidableEq D] (d : D) : List UInt8 :=
  if ¬ lib.isFinite d then ascii "null"
  else if sscanf lib (lib.sprintf 15 d) = some d then lib.sprintf 15 d
  else lib.sprintf 17 d

/-- A text is stored with a NUL behind it, up to which the offset moves. -/
def printText (text : List UInt8) (p : PrintBuffer) : Printing := do
  let p ← ensure heap (text.length + 1) p
  return { p.store (text ++ [0]) with offset := p.offset + text.length }

/-- `print_number`. -/
def printNumber [DecidableEq D] (d : D) (p : PrintBuffer) : Printing :=
  let text := numberText lib d
  if 25 < text.length then .error p
  else printText heap text p

/-- The character behind a backslash that stands for another one. -/
def shortEscape (c : UInt8) : Option UInt8 :=
  if c = quote ∨ c = backslash then some c
  else if c = 8 then some 98
  else if c = 12 then some 102
  else if c = 10 then some 110
  else if c = 13 then some 114
  else if c = 9 then some 116
  else none

/-- What `print_string_ptr` makes of a character. -/
def escaped (c : UInt8) : List UInt8 :=
  if 31 < c ∧ c ≠ quote ∧ c ≠ backslash then [c]
  else match shortEscape c with
    | some e => [backslash, e]
    | none => [backslash, 117, 48, 48, hexDigit false (c.toNat / 16), hexDigit false (c.toNat % 16)]

/-- What a character adds to `escape_characters`. -/
def escapeCharacters (c : UInt8) : Nat :=
  if (shortEscape c).isSome then 1 else if c < 32 then 5 else 0

/-- `print_string_ptr`, of a C string. -/
def printStringPtr (input : List UInt8) (p : PrintBuffer) : Printing := do
  let input := cstring input
  let escapes := (input.map escapeCharacters).sum
  let outputLength := input.length + escapes
  let p ← ensure heap (outputLength + 3) p
  let text := if escapes = 0 then input else input.flatMap escaped
  let buffer := write p.buffer p.offset (quote :: text)
  return { p with buffer := write buffer (p.offset + outputLength + 1) [quote, 0] }

/-- `print_value` of `null`, `false` and `true`, and of a raw text. -/
def printLiteral (text : List UInt8) (p : PrintBuffer) : Printing := do
  let p ← ensure heap (text.length + 1) p
  return p.store (text ++ [0])

/-! What stands between the values. -/

def indent (format : Bool) (depth : Nat) : List UInt8 :=
  if format then List.replicate depth 9 else []

def objectStart (format : Bool) : List UInt8 := if format then [123, 10] else [123]

def colon (format : Bool) : List UInt8 := if format then [58, 9] else [58]

def elementEnd (format last : Bool) : List UInt8 :=
  if last then [] else if format then [44, 32] else [44]

def memberEnd (format last : Bool) : List UInt8 :=
  (if last then [] else [44]) ++ if format then [10] else []

/-- Behind an element of an array. -/
def printElementEnd (last : Bool) (p : PrintBuffer) : Printing :=
  if last then .ok p else printText heap (elementEnd p.format last) p

/-- In front of a member of an object. -/
def printIndent (p : PrintBuffer) : Printing :=
  if p.format then do
    let p ← ensure heap p.depth p
    return p.put (List.replicate p.depth 9)
  else .ok p

mutual

/-- `print_value`, with `print_array` and `print_object`. -/
def printValue [DecidableEq D] : Item D → PrintBuffer → Printing
  | .null, p => printLiteral heap (ascii "null") p
  | .false, p => printLiteral heap (ascii "false") p
  | .true, p => printLiteral heap (ascii "true") p
  | .number d, p => printNumber lib heap d p
  | .raw valuestring, p => printLiteral heap (cstring valuestring) p
  | .string valuestring, p => printStringPtr heap valuestring p
  | .array child, p => do
    let p ← ensure heap 1 p
    let p ← printElements child { p.put [91] with depth := p.depth + 1 }
    let p ← ensure heap 2 p
    return { p.store [93, 0] with depth := p.depth - 1 }
  | .object child, p => do
    let p ← ensure heap ((objectStart p.format).length + 1) p
    let p ← printMembers child { p.put (objectStart p.format) with depth := p.depth + 1 }
    let p ← ensure heap (if p.format then p.depth + 1 else 2) p
    return { p.store (indent p.format (p.depth - 1) ++ [125, 0]) with depth := p.depth - 1 }

/-- The loop of `print_array`. -/
def printElements [DecidableEq D] : Elements D → PrintBuffer → Printing
  | .nil, p => .ok p
  | .cons item next, p => do
    let p ← printValue item p
    let p ← printElementEnd heap next.isNil (updateOffset p)
    printElements next p

/-- The loop of `print_object`. -/
def printMembers [DecidableEq D] : Members D → PrintBuffer → Printing
  | .nil, p => .ok p
  | .cons string item next, p => do
    let p ← printIndent heap p
    let p ← printStringPtr heap string p
    let p := updateOffset p
    let p ← ensure heap (colon p.format).length p
    let p ← printValue item (p.put (colon p.format))
    let p ← printText heap (memberEnd p.format next.isNil) (updateOffset p)
    printMembers next p

end

/-- What `print` hands out: its buffer, cut behind the text, or a copy that ends with a NUL. -/
def handOut (p : PrintBuffer) (fresh : Nat → UInt8) : List UInt8 :=
  let copy i := if i < min p.length (p.offset + 1) then p.buffer i else fresh i
  (List.range (p.offset + 1)).map (if heap.reallocate then p.buffer else write copy p.offset [0])

/-- `print`. -/
def print [DecidableEq D] (format : Bool) (item : Item D) : Option (List UInt8) :=
  match heap.block 256 with
  | none => none
  | some fresh =>
    match printValue lib heap item ⟨fresh, 256, 0, 0, Bool.false, format⟩ with
    | .error _ => none
    | .ok p =>
      let p := updateOffset p
      (heap.block (p.offset + 1)).map (handOut heap p)

/-- `cJSON_PrintPreallocated`: whether it succeeds, and the memory that it leaves. -/
def cJsonPrintPreallocated [DecidableEq D] (item : Item D) (buf : Nat → UInt8) (len : Nat)
    (format : Bool) : Bool × (Nat → UInt8) :=
  match printValue lib heap item ⟨buf, len, 0, 0, Bool.true, format⟩ with
  | .error p => (Bool.false, p.buffer)
  | .ok p => (Bool.true, p.buffer)

end Print

/-! ## The text -/

/-- A C string in quotes. -/
def renderString (input : List UInt8) : List UInt8 :=
  quote :: (cstring input).flatMap escaped ++ [quote]

section Render
variable {D : Type} (lib : Doubles D) [DecidableEq D] (format : Bool)

mutual

/-- The text of an item at a depth. -/
def render (depth : Nat) : Item D → List UInt8
  | .null => ascii "null"
  | .false => ascii "false"
  | .true => ascii "true"
  | .number d => numberText lib d
  | .raw valuestring => cstring valuestring
  | .string valuestring => renderString valuestring
  | .array child => [91] ++ renderElements (depth + 1) child ++ [93]
  | .object child =>
    objectStart format ++ renderMembers (depth + 1) child ++ (indent format depth ++ [125])

def renderElements (depth : Nat) : Elements D → List UInt8
  | .nil => []
  | .cons item next =>
    render depth item ++ elementEnd format next.isNil ++ renderElements depth next

def renderMembers (depth : Nat) : Members D → List UInt8
  | .nil => []
  | .cons string item next =>
    indent format depth ++ renderString string ++ colon format ++ render depth item ++
      memberEnd format next.isNil ++ renderMembers depth next

end

end Render

/-! ## What printing leaves -/

/-- A buffer that may not be allocated anew stays where it is, and what is outside of it is left
alone. -/
structure Kept (p p' : PrintBuffer) : Prop where
  noalloc : p'.noalloc = p.noalloc
  inside : p.noalloc = true → p'.length = p.length ∧ ∀ i, p.length ≤ i → p'.buffer i = p.buffer i

/-- There is room for so many bytes behind the offset, where nothing else has changed. -/
structure Ready (needed : Nat) (p p' : PrintBuffer) : Prop where
  kept : Kept p p'
  format : p'.format = p.format
  depth : p'.depth = p.depth
  offset : p'.offset = p.offset
  room : needed + p.offset + 1 ≤ p'.length
  before : ∀ i < p.offset, p'.buffer i = p.buffer i

/-- A text has been put at the offset, which has moved behind it. -/
structure Extends (text : List UInt8) (p p' : PrintBuffer) : Prop where
  kept : Kept p p'
  format : p'.format = p.format
  offset : p'.offset = p.offset + text.length
  room : p'.offset < p'.length
  holds : Holds p'.buffer p.offset text
  before : ∀ i < p.offset, p'.buffer i = p.buffer i

/-- A text stands at the offset and ends with a NUL; the offset may have moved over some of it. -/
structure Printed (text : List UInt8) (p p' : PrintBuffer) : Prop where
  kept : Kept p p'
  format : p'.format = p.format
  depth : p'.depth = p.depth
  offset_ge : p.offset ≤ p'.offset
  offset_le : p'.offset ≤ p.offset + text.length
  room : p.offset + text.length + 2 ≤ p'.length
  holds : Holds p'.buffer p.offset (text ++ [0])
  before : ∀ i < p.offset, p'.buffer i = p.buffer i

/-- There may be no room for a text of a length: the buffer is too small and may not grow, or
memory is short, or the text is too long. -/
def Blocked (heap : Heap) (p : PrintBuffer) (n : Nat) : Prop :=
  p.noalloc = true ∧ p.length < p.offset + n + 2 ∨
    p.noalloc = false ∧ (∃ size ≤ intMax, heap.block size = none) ∨ intMax < p.offset + n + 2

/-- A function does what it should, or there may be no room. -/
inductive Outcome (heap : Heap) (p : PrintBuffer) (n : Nat) (R : PrintBuffer → Prop) :
    Printing → Prop where
  | ok {p' : PrintBuffer} (h : R p') : Outcome heap p n R (.ok p')
  | error {p' : PrintBuffer} (hkept : Kept p p') (hblocked : Blocked heap p n) :
    Outcome heap p n R (.error p')

section Outcomes
variable {heap : Heap} {p p' p'' : PrintBuffer} {n m needed : Nat} {R R' : PrintBuffer → Prop}
  {text more : List UInt8}

theorem Kept.refl (p : PrintBuffer) : Kept p p := ⟨rfl, fun _ => ⟨rfl, fun _ _ => rfl⟩⟩

theorem Kept.trans (h : Kept p p') (h' : Kept p' p'') : Kept p p'' where
  noalloc := h'.noalloc.trans h.noalloc
  inside hno := by
    obtain ⟨hlen, hout⟩ := h.inside hno
    obtain ⟨hlen', hout'⟩ := h'.inside (h.noalloc.trans hno)
    refine ⟨hlen'.trans hlen, fun i hi => ?_⟩
    rw [hout' i (hlen ▸ hi), hout i hi]

/-- What is stored inside of the buffer. -/
theorem Kept.write {q : PrintBuffer} (h : Kept p p') (hno : q.noalloc = p'.noalloc)
    (hlen : q.length = p'.length) {i : Nat} {bytes : List UInt8}
    (hbuffer : q.buffer = Memory.write p'.buffer i bytes) (hroom : i + bytes.length ≤ p'.length) :
    Kept p q := by
  refine h.trans ⟨hno, fun _ => ⟨hlen, fun j hj => ?_⟩⟩
  rw [hbuffer]
  exact write_after _ _ (Nat.le_trans hroom hj)

theorem Extends.trans (h : Extends text p p') (h' : Extends more p' p'') :
    Extends (text ++ more) p p'' where
  kept := h.kept.trans h'.kept
  format := h'.format.trans h.format
  offset := by rw [h'.offset, h.offset, List.length_append, Nat.add_assoc]
  room := h'.room
  holds := by
    refine holds_append.mpr ⟨h.holds.congr fun k hk => h'.before _ ?_, h.offset ▸ h'.holds⟩
    rw [h.offset]
    omega
  before i hi := by
    have hoffset := h.offset
    rw [h'.before i (by omega), h.before i hi]

theorem Extends.nil (hp : p.offset < p.length) : Extends [] p p :=
  ⟨.refl p, rfl, rfl, hp, trivial, fun _ _ => rfl⟩

/-- The depth does not matter. -/
theorem Extends.atDepth (h : Extends text p p') (depth : Nat) :
    Extends text p { p' with depth := depth } :=
  ⟨⟨h.kept.noalloc, h.kept.inside⟩, h.format, h.offset, h.room, h.holds, h.before⟩

/-- A text is printed behind another one. -/
theorem Extends.printed (h : Extends text p p') (h' : Printed more p' p'') :
    Printed (text ++ more) p { p'' with depth := p.depth } where
  kept := h.kept.trans ⟨h'.kept.noalloc, h'.kept.inside⟩
  format := h'.format.trans h.format
  depth := rfl
  offset_ge := by
    have hoffset := h.offset
    have hge := h'.offset_ge
    show p.offset ≤ p''.offset
    omega
  offset_le := by
    have hoffset := h.offset
    have hle := h'.offset_le
    show p''.offset ≤ _
    rw [List.length_append]
    omega
  room := by
    have hroom := h'.room
    rw [h.offset] at hroom
    rw [List.length_append, ← Nat.add_assoc]
    exact hroom
  holds := by
    rw [List.append_assoc]
    refine holds_append.mpr ⟨h.holds.congr fun k hk => h'.before _ ?_, h.offset ▸ h'.holds⟩
    rw [h.offset]
    omega
  before i hi := by
    have hoffset := h.offset
    show p''.buffer i = _
    rw [h'.before i (by omega), h.before i hi]

theorem Ready.put (h : Ready needed p p') (hle : text.length ≤ needed) :
    Extends text p (p'.put text) where
  kept := h.kept.write rfl rfl rfl (by rw [h.offset]; have := h.room; omega)
  format := h.format
  offset := by
    show p'.offset + text.length = _
    rw [h.offset]
  room := by
    have hroom := h.room
    show p'.offset + text.length < p'.length
    rw [h.offset]
    omega
  holds := h.offset ▸ holds_write p'.buffer p'.offset text
  before i hi := by
    have hsame : (p'.put text).buffer i = p'.buffer i :=
      write_before _ _ (by rw [h.offset]; exact hi)
    rw [hsame, h.before i hi]

theorem Ready.store (h : Ready needed p p') (hlt : text.length < needed) :
    Printed text p (p'.store (text ++ [0])) where
  kept := by
    refine h.kept.write rfl rfl rfl ?_
    have hroom := h.room
    rw [h.offset, List.length_append, List.length_singleton]
    omega
  format := h.format
  depth := h.depth
  offset_ge := Nat.le_of_eq h.offset.symm
  offset_le := Nat.le_trans (Nat.le_of_eq h.offset) (Nat.le_add_right _ _)
  room := by
    have hroom := h.room
    show p.offset + text.length + 2 ≤ p'.length
    omega
  holds := h.offset ▸ holds_write p'.buffer p'.offset (text ++ [0])
  before i hi := by
    have hsame : (p'.store (text ++ [0])).buffer i = p'.buffer i :=
      write_before _ _ (by rw [h.offset]; exact hi)
    rw [hsame, h.before i hi]

theorem Outcome.imp {x : Printing} (h : Outcome heap p n R x) (himp : ∀ p', R p' → R' p') :
    Outcome heap p n R' x := by
  cases h with
  | ok h => exact .ok (himp _ h)
  | error hkept hblocked => exact .error hkept hblocked

/-- One function after another. -/
theorem Outcome.bind {x : Printing} {f : PrintBuffer → Printing} (h : Outcome heap p n R x)
    (hf : ∀ p', R p' → Outcome heap p n R' (f p')) : Outcome heap p n R' (x >>= f) := by
  cases h with
  | ok h => exact hf _ h
  | error hkept hblocked => exact .error hkept hblocked

/-- The outcome behind a text, as that of the whole. -/
theorem Outcome.after {x : Printing} (h : Outcome heap p' m R x) (hextends : Extends text p p')
    (hle : text.length + m ≤ n) : Outcome heap p n R x := by
  cases h with
  | ok h => exact .ok h
  | error hkept hblocked =>
    refine .error (hextends.kept.trans hkept) ?_
    have hoffset := hextends.offset
    have hno := hextends.kept.noalloc
    rcases hblocked with ⟨htrue, hsmall⟩ | ⟨hfalse, hheap⟩ | hlong
    · have hlen := (hextends.kept.inside (hno ▸ htrue)).1
      exact .inl ⟨hno ▸ htrue, by omega⟩
    · exact .inr (.inl ⟨hno ▸ hfalse, hheap⟩)
    · exact .inr (.inr (by omega))

theorem newSize_spec {needed size : Nat} (h : newSize needed = some size) :
    needed ≤ size ∧ size ≤ intMax := by
  unfold newSize at h
  split_ifs at h with hbig hmax
  · rw [← Option.some.inj h]
    exact ⟨hmax, Nat.le_refl _⟩
  · rw [← Option.some.inj h]
    omega

/-- **Room** for some bytes, if there may be any. -/
theorem ensure_outcome (heap : Heap) (hp : p.offset < p.length ∨ p.offset = 0) (hle : needed ≤ n + 1) :
    Outcome heap p n (Ready needed p) (ensure heap needed p) := by
  unfold ensure
  have hvalid : ¬ (0 < p.length ∧ p.length ≤ p.offset) := by omega
  rw [if_neg hvalid]
  by_cases hmax : intMax < needed
  · rw [if_pos hmax]
    exact .error (.refl p) (.inr (.inr (by omega)))
  rw [if_neg hmax]
  by_cases hroom : needed + p.offset + 1 ≤ p.length
  · rw [if_pos hroom]
    exact .ok ⟨.refl p, rfl, rfl, rfl, hroom, fun _ _ => rfl⟩
  rw [if_neg hroom]
  by_cases hno : p.noalloc = true
  · rw [if_pos hno]
    exact .error (.refl p) (.inl ⟨hno, by omega⟩)
  rw [if_neg hno]
  cases hsize : newSize (needed + p.offset + 1) with
  | none =>
    refine .error (.refl p) (.inr (.inr ?_))
    unfold newSize at hsize
    split_ifs at hsize with hbig hfits
    omega
  | some size =>
    obtain ⟨hge, hsmall⟩ := newSize_spec hsize
    have hfree : ∀ q : PrintBuffer, q.noalloc = p.noalloc → Kept p q := fun q hq =>
      ⟨hq, fun h => absurd h hno⟩
    cases hheap : heap.block size with
    | none =>
      simp only [hheap]
      exact .error (hfree _ rfl) (.inr (.inl ⟨Bool.eq_false_iff.mpr hno, size, hsmall, hheap⟩))
    | some fresh =>
      simp only [hheap]
      refine .ok ⟨hfree _ rfl, rfl, rfl, rfl, hge, fun i hi => ?_⟩
      refine if_pos ?_
      split_ifs
      · omega
      · exact Nat.lt_succ_of_lt hi

end Outcomes

/-! ## Strings -/

/-- The short escapes. -/
theorem shortEscape_some {c e : UInt8} (h : shortEscape c = some e) :
    (c, e) ∈ [(quote, quote), (backslash, backslash), (8, 98), (12, 102), (10, 110), (13, 114),
      (9, 116)] := by
  unfold shortEscape at h
  split_ifs at h with hself hb hf hn hr ht
  · rcases hself with rfl | rfl
    · simp [← Option.some.inj h]
    · simp [← Option.some.inj h]
  all_goals simp [*, ← Option.some.inj h]

theorem shortEscape_none {c : UInt8} (h : 31 < c ∧ c ≠ quote ∧ c ≠ backslash) :
    shortEscape c = none := by
  have hcontrol : ∀ d : UInt8, d.toNat ≤ 31 → c ≠ d := by
    rintro d hd rfl
    have hlt : 31 < c.toNat := UInt8.lt_iff_toNat_lt.mp h.1
    omega
  simp [shortEscape, h.2.1, h.2.2, hcontrol]

/-- The three kinds of characters. -/
theorem escaped_cases (c : UInt8) :
    (31 < c ∧ c ≠ quote ∧ c ≠ backslash) ∧ escaped c = [c] ∧ escapeCharacters c = 0 ∨
      (∃ e, shortEscape c = some e ∧ escaped c = [backslash, e] ∧ escapeCharacters c = 1) ∨
      c < 32 ∧ escaped c = [backslash, 117, 48, 48, hexDigit false (c.toNat / 16),
        hexDigit false (c.toNat % 16)] ∧ escapeCharacters c = 5 := by
  unfold escaped escapeCharacters
  by_cases hplain : 31 < c ∧ c ≠ quote ∧ c ≠ backslash
  · have hge : ¬ c < 32 := by
      have hlt : 31 < c.toNat := UInt8.lt_iff_toNat_lt.mp hplain.1
      rw [UInt8.lt_iff_toNat_lt]
      exact Nat.not_lt.mpr hlt
    exact .inl ⟨hplain, if_pos hplain, by simp [shortEscape_none hplain, hge]⟩
  · rw [if_neg hplain]
    cases hshort : shortEscape c with
    | some e => exact .inr (.inl ⟨e, rfl, rfl, rfl⟩)
    | none =>
      have hlt : c < 32 := by
        unfold shortEscape at hshort
        split_ifs at hshort with hself
        rw [UInt8.lt_iff_toNat_lt]
        by_contra hge
        refine hplain ⟨UInt8.lt_iff_toNat_lt.mpr (Nat.not_lt.mp hge), ?_⟩
        exact ⟨fun h => hself (.inl h), fun h => hself (.inr h)⟩
      exact .inr (.inr ⟨hlt, rfl, by simp [hlt]⟩)

theorem length_escaped (c : UInt8) : (escaped c).length = 1 + escapeCharacters c := by
  rcases escaped_cases c with ⟨-, htext, hcount⟩ | ⟨e, -, htext, hcount⟩ | ⟨-, htext, hcount⟩
  all_goals
    rw [htext, hcount]
    rfl

theorem length_flatMap_escaped (input : List UInt8) :
    (input.flatMap escaped).length = input.length + (input.map escapeCharacters).sum := by
  induction input with
  | nil => rfl
  | cons c cs ih =>
    rw [List.flatMap_cons, List.length_append, ih, length_escaped, List.length_cons, List.map_cons,
      List.sum_cons]
    omega

/-- Where nothing is escaped, the string is copied. -/
theorem flatMap_escaped_self {input : List UInt8} (h : (input.map escapeCharacters).sum = 0) :
    input.flatMap escaped = input := by
  induction input with
  | nil => rfl
  | cons c cs ih =>
    rw [List.map_cons, List.sum_cons, Nat.add_eq_zero_iff] at h
    have hself : escaped c = [c] := by
      rcases escaped_cases c with ⟨-, htext, -⟩ | ⟨e, -, -, hcount⟩ | ⟨-, -, hcount⟩
      · exact htext
      · rw [hcount] at h
        exact absurd h.1 Nat.one_ne_zero
      · rw [hcount] at h
        exact absurd h.1 (Nat.succ_ne_zero 4)
    rw [List.flatMap_cons, hself, ih h.2, List.singleton_append]

theorem hexDigit_ne_zero : ∀ k < 16, hexDigit false k ≠ 0 := by decide

theorem escaped_ne_zero {c : UInt8} (hc : c ≠ 0) : 0 ∉ escaped c := by
  rcases escaped_cases c with ⟨-, htext, -⟩ | ⟨e, hshort, htext, -⟩ | ⟨hlt, htext, -⟩
  · rw [htext, List.mem_singleton]
    exact hc.symm
  · have he := shortEscape_some hshort
    simp only [List.mem_cons, Prod.mk.injEq, List.not_mem_nil, or_false] at he
    rw [htext]
    rcases he with ⟨-, rfl⟩ | ⟨-, rfl⟩ | ⟨-, rfl⟩ | ⟨-, rfl⟩ | ⟨-, rfl⟩ | ⟨-, rfl⟩ | ⟨-, rfl⟩
    all_goals decide
  · have hsmall : c.toNat < 32 := UInt8.lt_iff_toNat_lt.mp hlt
    have hhigh := hexDigit_ne_zero (c.toNat / 16) (by omega)
    have hlow := hexDigit_ne_zero (c.toNat % 16) (by omega)
    have hbackslash : (0 : UInt8) ≠ backslash := by decide
    rw [htext]
    simp [hhigh.symm, hlow.symm, hbackslash]

theorem cstring_ne_zero {l : List UInt8} {c : UInt8} (h : c ∈ cstring l) : c ≠ 0 := by
  simpa using List.mem_takeWhile_imp h

theorem renderString_ne_zero (input : List UInt8) : 0 ∉ renderString input := by
  intro hmem
  rw [renderString, List.cons_append, List.mem_cons, List.mem_append, List.mem_flatMap] at hmem
  rcases hmem with hquote | ⟨c, hc, hzero⟩ | hquote
  · revert hquote
    decide
  · exact escaped_ne_zero (cstring_ne_zero hc) hzero
  · revert hquote
    decide

/-! ## What the functions print -/

/-- The C string at an address, if it ends in time. -/
theorem cstring_of_holds {mem : Nat → UInt8} {i e : Nat} {text : List UInt8}
    (h : Holds mem i (text ++ [0])) (hnul : 0 ∉ text) (hroom : i + text.length < e) :
    cstring ((List.range (e - i)).map fun k => mem (i + k)) = text := by
  obtain ⟨n, hn⟩ : ∃ n, e - i = (text ++ [0]).length + n :=
    ⟨e - i - (text ++ [0]).length, by rw [List.length_append, List.length_singleton]; omega⟩
  rw [hn, List.range_add, List.map_append, h.read, List.append_assoc, cstring_append hnul]
  simp [cstring]

section Functions
variable {D : Type} {lib : Doubles D} [DecidableEq D] {p p' q : PrintBuffer} {n : Nat}
  {text : List UInt8}

/-- The offset may be moved behind what has been printed. -/
theorem Printed.moved (h : Printed text p p') :
    Printed text p { p' with offset := p.offset + text.length } ∧
      Extends text p { p' with offset := p.offset + text.length } := by
  refine ⟨⟨⟨h.kept.noalloc, h.kept.inside⟩, h.format, h.depth, Nat.le_add_right _ _,
    Nat.le_refl _, h.room, h.holds, h.before⟩, ?_⟩
  have hroom : p.offset + text.length < p'.length := by
    have hroom := h.room
    omega
  exact ⟨⟨h.kept.noalloc, h.kept.inside⟩, h.format, rfl, hroom, (holds_append.mp h.holds).1,
    h.before⟩

/-- **The NUL is found.** -/
theorem updateOffset_printed (h : Printed text p p') (hnul : 0 ∉ text) :
    Extends text p (updateOffset p') ∧ (updateOffset p').depth = p.depth := by
  -- the offset may have moved over `k` bytes of the text
  obtain ⟨k, hk⟩ : ∃ k, p'.offset = p.offset + k := ⟨p'.offset - p.offset, by
    have hge := h.offset_ge
    omega⟩
  have hle : k ≤ text.length := by
    have hle := h.offset_le
    omega
  have hsplit : text ++ [0] = text.take k ++ (text.drop k ++ [0]) := by
    rw [← List.append_assoc, List.take_append_drop]
  have hrest : Holds p'.buffer p'.offset (text.drop k ++ [0]) := by
    have hboth := holds_append.mp (hsplit ▸ h.holds)
    rw [List.length_take_of_le hle] at hboth
    rw [hk]
    exact hboth.2
  have hroom := h.room
  have hstring := cstring_of_holds hrest (fun hmem => hnul (List.mem_of_mem_drop hmem))
    (e := p'.length) (by rw [List.length_drop]; omega)
  have hoffset : updateOffset p' = { p' with offset := p.offset + text.length } := by
    rw [updateOffset, hstring, List.length_drop]
    congr 1
    omega
  rw [hoffset]
  exact ⟨h.moved.2, h.depth⟩

/-- A text is stored with a NUL behind it. -/
theorem printText_outcome (heap : Heap) (hp : p.offset < p.length ∨ p.offset = 0) (text : List UInt8) :
    Outcome heap p text.length
      (fun p' => Printed text p p' ∧ Extends text p p' ∧ p'.depth = p.depth)
      (printText heap text p) := by
  refine (ensure_outcome heap hp (Nat.le_refl _)).bind fun q hq => ?_
  have hstore := hq.store (Nat.lt_succ_self text.length)
  have hmoved := hstore.moved
  rw [← hq.offset] at hmoved
  exact .ok ⟨hmoved.1, hmoved.2, hstore.depth⟩

theorem printLiteral_outcome (heap : Heap) (hp : p.offset < p.length ∨ p.offset = 0) (text : List UInt8) :
    Outcome heap p text.length (Printed text p) (printLiteral heap text p) :=
  (ensure_outcome heap hp (Nat.le_refl _)).bind fun _ hq => .ok (hq.store (Nat.lt_succ_self text.length))

theorem numberText_short (hlaw : lib.Lawful) (d : D) : (numberText lib d).length ≤ 24 := by
  unfold numberText
  by_cases hfinite : lib.isFinite d = true
  · rw [if_neg (not_not_intro hfinite)]
    split
    · exact hlaw.short 15 d hfinite (by decide)
    · exact hlaw.short 17 d hfinite (by decide)
  · rw [if_pos hfinite]
    decide

theorem printNumber_outcome (heap : Heap) (hlaw : lib.Lawful) (hp : p.offset < p.length ∨ p.offset = 0) (d : D) :
    Outcome heap p (numberText lib d).length (Printed (numberText lib d) p)
      (printNumber lib heap d p) := by
  have hshort : ¬ 25 < (numberText lib d).length := by
    have hle := numberText_short hlaw d
    omega
  rw [printNumber, if_neg hshort]
  exact (printText_outcome heap hp _).imp fun _ h => h.1

theorem printStringPtr_outcome (heap : Heap) (hp : p.offset < p.length ∨ p.offset = 0) (input : List UInt8) :
    Outcome heap p (renderString input).length (Printed (renderString input) p)
      (printStringPtr heap input p) := by
  have hcount := length_flatMap_escaped (cstring input)
  have hlen : (renderString input).length =
      (cstring input).length + ((cstring input).map escapeCharacters).sum + 2 := by
    rw [renderString, List.length_append, List.length_cons, hcount]
    rfl
  refine (ensure_outcome heap hp (by omega)).bind fun q hq => ?_
  have htext : (if ((cstring input).map escapeCharacters).sum = 0 then cstring input
      else (cstring input).flatMap escaped) = (cstring input).flatMap escaped := by
    by_cases hzero : ((cstring input).map escapeCharacters).sum = 0
    · rw [if_pos hzero, flatMap_escaped_self hzero]
    · rw [if_neg hzero]
  -- the quote and the NUL come right behind the string
  have hstore : write (write q.buffer q.offset (quote :: (cstring input).flatMap escaped))
      (q.offset + ((cstring input).length + ((cstring input).map escapeCharacters).sum) + 1)
      [quote, 0] = (q.store (renderString input ++ [0])).buffer := by
    rw [PrintBuffer.store, renderString, List.append_assoc, write_append, List.length_cons, hcount]
    rfl
  simp only [htext, hstore]
  exact .ok (hq.store (by omega))

theorem printElementEnd_outcome (heap : Heap) (hp : p.offset < p.length) {format : Bool}
    (hformat : p.format = format) (last : Bool) :
    Outcome heap p (elementEnd format last).length
      (fun p' => Extends (elementEnd format last) p p' ∧ p'.depth = p.depth)
      (printElementEnd heap last p) := by
  subst hformat
  cases last with
  | true => exact .ok ⟨.nil hp, rfl⟩
  | false => exact (printText_outcome heap (.inl hp) _).imp fun _ h => h.2

theorem printIndent_outcome (heap : Heap) (hp : p.offset < p.length) {format : Bool}
    (hformat : p.format = format) :
    Outcome heap p (indent format p.depth).length
      (fun p' => Extends (indent format p.depth) p p' ∧ p'.depth = p.depth)
      (printIndent heap p) := by
  unfold printIndent
  rw [hformat]
  cases format with
  | true =>
    have hlen : (indent Bool.true p.depth).length = p.depth := List.length_replicate
    refine (ensure_outcome heap (.inl hp) (by omega)).bind fun q hq => ?_
    have hput := hq.put (Nat.le_of_eq hlen)
    rw [hq.depth]
    exact .ok ⟨hput, hq.depth⟩
  | false => exact .ok ⟨.nil hp, rfl⟩

end Functions

/-! ## NULs -/

section Nul
variable {D : Type} {lib : Doubles D} [DecidableEq D] (format : Bool)

theorem numberText_ne_zero (hlaw : lib.Lawful) (d : D) : 0 ∉ numberText lib d := by
  have hnot : isNumberChar 0 = false := by decide
  have hchars : lib.isFinite d = true → ∀ precision, 0 ∉ lib.sprintf precision d := by
    intro hfinite precision hmem
    have hchar := hlaw.chars precision d hfinite 0 hmem
    rw [hnot] at hchar
    cases hchar
  unfold numberText
  by_cases hfinite : lib.isFinite d = true
  · rw [if_neg (not_not_intro hfinite)]
    split
    · exact hchars hfinite 15
    · exact hchars hfinite 17
  · rw [if_pos hfinite]
    decide

theorem indent_ne_zero (depth : Nat) : 0 ∉ indent format depth := by
  unfold indent
  split
  · rw [List.mem_replicate]
    rintro ⟨-, hzero⟩
    revert hzero
    decide
  · exact List.not_mem_nil

theorem objectStart_ne_zero : 0 ∉ objectStart format := by
  cases format <;> decide

theorem colon_ne_zero : 0 ∉ colon format := by
  cases format <;> decide

theorem elementEnd_ne_zero (last : Bool) : 0 ∉ elementEnd format last := by
  cases format <;> cases last <;> decide

theorem memberEnd_ne_zero (last : Bool) : 0 ∉ memberEnd format last := by
  cases format <;> cases last <;> decide

mutual

/-- No text has a NUL. -/
theorem render_ne_zero (hlaw : lib.Lawful) (depth : Nat) : (item : Item D) → 0 ∉ render lib format depth item
  | .null => by
    rw [render]
    decide
  | .false => by
    rw [render]
    decide
  | .true => by
    rw [render]
    decide
  | .number d => by
    rw [render]
    exact numberText_ne_zero hlaw d
  | .raw valuestring => by
    rw [render]
    exact fun hmem => cstring_ne_zero hmem rfl
  | .string valuestring => by
    rw [render]
    exact renderString_ne_zero valuestring
  | .array child => by
    have hchild := renderElements_ne_zero hlaw (depth + 1) child
    simp [render, hchild]
  | .object child => by
    have hchild := renderMembers_ne_zero hlaw (depth + 1) child
    simp [render, hchild, objectStart_ne_zero, indent_ne_zero]

theorem renderElements_ne_zero (hlaw : lib.Lawful) (depth : Nat) :
    (child : Elements D) → 0 ∉ renderElements lib format depth child
  | .nil => List.not_mem_nil
  | .cons item next => by
    have hitem := render_ne_zero hlaw depth item
    have hnext := renderElements_ne_zero hlaw depth next
    simp [renderElements, hitem, hnext, elementEnd_ne_zero]

theorem renderMembers_ne_zero (hlaw : lib.Lawful) (depth : Nat) :
    (child : Members D) → 0 ∉ renderMembers lib format depth child
  | .nil => List.not_mem_nil
  | .cons string item next => by
    have hitem := render_ne_zero hlaw depth item
    have hnext := renderMembers_ne_zero hlaw depth next
    simp [renderMembers, hitem, hnext, memberEnd_ne_zero, colon_ne_zero, indent_ne_zero,
      renderString_ne_zero]

end

end Nul

/-! ## What is printed -/

section Outcome
variable {D : Type} {lib : Doubles D} [DecidableEq D] (heap : Heap) {format : Bool}

mutual

/-- **The specification of printing**: the text of the item is printed, if there is room. -/
theorem printValue_outcome (hlaw : lib.Lawful) : (item : Item D) → (p : PrintBuffer) →
    p.offset < p.length ∨ p.offset = 0 → p.format = format →
    Outcome heap p (render lib format p.depth item).length
      (Printed (render lib format p.depth item) p) (printValue lib heap item p)
  | .null, p, hp, _ => by
    rw [render, printValue]
    exact printLiteral_outcome heap hp _
  | .false, p, hp, _ => by
    rw [render, printValue]
    exact printLiteral_outcome heap hp _
  | .true, p, hp, _ => by
    rw [render, printValue]
    exact printLiteral_outcome heap hp _
  | .number d, p, hp, _ => by
    rw [render, printValue]
    exact printNumber_outcome heap hlaw hp d
  | .raw valuestring, p, hp, _ => by
    rw [render, printValue]
    exact printLiteral_outcome heap hp _
  | .string valuestring, p, hp, _ => by
    rw [render, printValue]
    exact printStringPtr_outcome heap hp valuestring
  | .array child, p, hp, hformat => by
    have hlen : (render lib format p.depth (.array child)).length =
        1 + (renderElements lib format (p.depth + 1) child).length + 1 := by
      rw [render, List.length_append, List.length_append]
      rfl
    rw [printValue]
    refine (ensure_outcome heap hp (by omega)).bind fun q hq => ?_
    have hopen := (hq.put (show [91].length ≤ 1 from Nat.le_refl 1)).atDepth (q.depth + 1)
    have hdepth : q.depth + 1 = p.depth + 1 := by rw [hq.depth]
    have hchild := printElements_outcome hlaw child _ hopen.room (hopen.format.trans hformat) hdepth
    have hopenLen : [91].length = 1 := rfl
    refine (hchild.after hopen (by rw [hlen]; omega)).bind fun r ⟨hr, hrdepth⟩ => ?_
    have hfront := hopen.trans hr
    have hend := ensure_outcome heap (n := 1) (.inl hr.room) (Nat.le_refl 2)
    refine (hend.after hfront ?_).bind fun t ht => ?_
    · rw [hlen, List.length_append]
      omega
    have hback : t.depth - 1 = p.depth := by
      rw [ht.depth, hrdepth]
      rfl
    have hprinted := hfront.printed (ht.store (show [93].length < 2 by decide))
    rw [hback, render]
    exact .ok hprinted
  | .object child, p, hp, hformat => by
    have hlen : (render lib format p.depth (.object child)).length = (objectStart format).length +
        (renderMembers lib format (p.depth + 1) child).length +
          ((indent format p.depth).length + 1) := by
      rw [render, List.length_append, List.length_append, List.length_append]
      rfl
    rw [printValue, hformat]
    refine (ensure_outcome heap hp (by omega)).bind fun q hq => ?_
    have hopen := (hq.put (Nat.le_succ (objectStart format).length)).atDepth (q.depth + 1)
    have hdepth : q.depth + 1 = p.depth + 1 := by rw [hq.depth]
    have hchild := printMembers_outcome hlaw child _ hopen.room (hopen.format.trans hformat) hdepth
    rw [hq.format, hformat]
    refine (hchild.after hopen (by rw [hlen]; omega)).bind fun r ⟨hr, hrdepth⟩ => ?_
    have hfront := hopen.trans hr
    have hrformat : r.format = format := hfront.format.trans hformat
    have hneeded : (if format = true then r.depth + 1 else 2) = (indent format p.depth).length + 2 := by
      rw [hrdepth]
      cases format with
      | true => simp [indent]
      | false => rfl
    rw [hrformat, hneeded]
    have hend := ensure_outcome heap (n := (indent format p.depth).length + 1) (.inl hr.room)
      (Nat.le_refl _)
    refine (hend.after hfront ?_).bind fun t ht => ?_
    · rw [hlen, List.length_append]
    have hback : t.depth - 1 = p.depth := by
      rw [ht.depth, hrdepth]
      rfl
    have hprinted := hfront.printed (ht.store
      (show (indent format p.depth ++ [125]).length < (indent format p.depth).length + 2 by simp))
    have hnul : indent format p.depth ++ [125, 0] = indent format p.depth ++ [125] ++ [0] := by simp
    rw [ht.format, hrformat, hback, render, hnul]
    exact .ok hprinted

theorem printElements_outcome (hlaw : lib.Lawful) {depth : Nat} : (child : Elements D) →
    (p : PrintBuffer) → p.offset < p.length → p.format = format → p.depth = depth →
    Outcome heap p (renderElements lib format depth child).length
      (fun p' => Extends (renderElements lib format depth child) p p' ∧ p'.depth = depth)
      (printElements lib heap child p)
  | .nil, p, hp, _, hdepth => .ok ⟨.nil hp, hdepth⟩
  | .cons item next, p, hp, hformat, hdepth => by
    have hlen : (renderElements lib format depth (.cons item next)).length =
        (render lib format depth item).length + (elementEnd format next.isNil).length +
          (renderElements lib format depth next).length := by
      rw [renderElements, List.length_append, List.length_append]
    rw [printElements]
    have hitem := printValue_outcome hlaw item p (.inl hp) hformat
    rw [hdepth] at hitem
    refine (hitem.after (.nil hp) (by rw [hlen, List.length_nil]; omega)).bind fun q hq => ?_
    obtain ⟨htext, hqdepth⟩ := updateOffset_printed hq (render_ne_zero format hlaw depth item)
    have hend := printElementEnd_outcome heap htext.room (htext.format.trans hformat)
      next.isNil
    refine (hend.after htext (by rw [hlen]; omega)).bind fun r ⟨hr, hrdepth⟩ => ?_
    have hfront := htext.trans hr
    have hnext := printElements_outcome hlaw next r hfront.room (hfront.format.trans hformat)
      (hrdepth.trans (hqdepth.trans hdepth))
    refine (hnext.after hfront (by rw [hlen, List.length_append])).imp fun t ⟨ht, htdepth⟩ => ?_
    rw [renderElements]
    exact ⟨hfront.trans ht, htdepth⟩

theorem printMembers_outcome (hlaw : lib.Lawful) {depth : Nat} : (child : Members D) →
    (p : PrintBuffer) → p.offset < p.length → p.format = format → p.depth = depth →
    Outcome heap p (renderMembers lib format depth child).length
      (fun p' => Extends (renderMembers lib format depth child) p p' ∧ p'.depth = depth)
      (printMembers lib heap child p)
  | .nil, p, hp, _, hdepth => .ok ⟨.nil hp, hdepth⟩
  | .cons string item next, p, hp, hformat, hdepth => by
    have hlen : (renderMembers lib format depth (.cons string item next)).length =
        (indent format depth).length + (renderString string).length + (colon format).length +
          (render lib format depth item).length + (memberEnd format next.isNil).length +
            (renderMembers lib format depth next).length := by
      simp only [renderMembers, List.length_append]
    rw [printMembers]
    -- the indentation
    have hindent := printIndent_outcome heap hp hformat
    rw [hdepth] at hindent
    refine (hindent.after (.nil hp) (by rw [hlen, List.length_nil]; omega)).bind
      fun q ⟨hq, hqdepth⟩ => ?_
    -- the name
    have hname := printStringPtr_outcome heap (.inl hq.room) string
    refine (hname.after hq (by rw [hlen]; omega)).bind fun r hr => ?_
    obtain ⟨htext, hrdepth⟩ := updateOffset_printed hr (renderString_ne_zero string)
    have hkey := hq.trans htext
    have hkeyformat := hkey.format.trans hformat
    -- the colon
    simp only [hkeyformat]
    have hcolon := ensure_outcome heap (n := (colon format).length) (.inl hkey.room)
      (Nat.le_succ _)
    refine (hcolon.after hkey (by rw [hlen, List.length_append]; omega)).bind fun t ht => ?_
    have hput := hkey.trans (ht.put (Nat.le_refl (colon format).length))
    have htformat : t.format = format := ht.format.trans hkeyformat
    have htdepth : (t.put (colon format)).depth = depth :=
      ht.depth.trans (hrdepth.trans hqdepth)
    -- the value
    have hitem := printValue_outcome hlaw item _ (.inl hput.room) htformat
    rw [htdepth] at hitem
    rw [htformat]
    refine (hitem.after hput (by simp only [hlen, List.length_append]; omega)).bind fun u hu => ?_
    obtain ⟨hvalue, hudepth⟩ := updateOffset_printed hu (render_ne_zero format hlaw depth item)
    have hpair := hput.trans hvalue
    -- what ends it, and the other members
    rw [hu.format, show (t.put (colon format)).format = format from htformat]
    have hend := printText_outcome heap (.inl hpair.room) (memberEnd format next.isNil)
    refine (hend.after hpair (by simp only [hlen, List.length_append]; omega)).bind
      fun v ⟨_, hv, hvdepth⟩ => ?_
    have hfront := hpair.trans hv
    have hnext := printMembers_outcome hlaw next v hfront.room (hfront.format.trans hformat)
      (hvdepth.trans (hudepth.trans htdepth))
    refine (hnext.after hfront (by simp only [hlen, List.length_append]; omega)).imp
      fun w ⟨hw, hwdepth⟩ => ?_
    rw [renderMembers]
    exact ⟨hfront.trans hw, hwdepth⟩

end

end Outcome

section Print
variable {D : Type} {lib : Doubles D} [DecidableEq D]

/-- What is handed out is what has been printed. -/
theorem handOut_printed {p : PrintBuffer} {text : List UInt8} (heap : Heap) (fresh : Nat → UInt8)
    (hoffset : p.offset = text.length) (hroom : p.offset < p.length)
    (hholds : Holds p.buffer 0 (text ++ [0])) : handOut heap p fresh = text ++ [0] := by
  have hread : ∀ mem, Holds mem 0 (text ++ [0]) →
      (List.range (p.offset + 1)).map mem = text ++ [0] := by
    intro mem hmem
    have hread := hmem.read
    simp only [List.length_append, List.length_singleton, Nat.zero_add] at hread
    rw [hoffset, hread]
  unfold handOut
  split_ifs
  · exact hread _ hholds
  · refine hread _ (holds_append.mpr ⟨(holds_append.mp hholds).1.congr fun k hk => ?_, ?_⟩)
    · rw [write_before _ _ (by omega)]
      exact if_pos (by omega)
    · rw [Nat.zero_add, hoffset]
      exact holds_write _ _ _

/-- **What `cJSON_Print` yields**, with or without format, is the text of the item and a NUL, unless
memory is short or the text too long. -/
theorem print_cases (hlaw : lib.Lawful) (heap : Heap) (format : Bool) (item : Item D) :
    print lib heap format item = some (render lib format 0 item ++ [0]) ∨
      print lib heap format item = none ∧ ((∃ size ≤ intMax, heap.block size = none) ∨
        intMax < (render lib format 0 item).length + 2) := by
  unfold print
  cases hheap : heap.block 256 with
  | none => exact .inr ⟨rfl, .inl ⟨256, by decide, hheap⟩⟩
  | some fresh =>
    have hp : (0 : Nat) < 256 ∨ (0 : Nat) = 0 := .inr rfl
    have hvalue := printValue_outcome heap hlaw item ⟨fresh, 256, 0, 0, Bool.false, format⟩ hp rfl
    simp only
    cases hprint : printValue lib heap item ⟨fresh, 256, 0, 0, Bool.false, format⟩ with
    | error p =>
      rw [hprint] at hvalue
      cases hvalue with
      | error hkept hblocked =>
        simp only [Blocked, Bool.false_eq_true, false_and, false_or, true_and,
          Nat.zero_add] at hblocked
        exact .inr ⟨rfl, hblocked⟩
    | ok p =>
      rw [hprint] at hvalue
      cases hvalue with
      | ok hprinted =>
        have htext := (updateOffset_printed hprinted (render_ne_zero format hlaw 0 item)).1
        have hoffset : (updateOffset p).offset = (render lib format 0 item).length :=
          htext.offset.trans (Nat.zero_add _)
        have hholds : Holds (updateOffset p).buffer 0 (render lib format 0 item ++ [0]) :=
          hprinted.holds
        simp only
        cases hcut : heap.block ((updateOffset p).offset + 1) with
        | some fresh => exact .inl (congrArg some (handOut_printed heap fresh hoffset htext.room hholds))
        | none =>
          refine .inr ⟨rfl, ?_⟩
          rw [hoffset] at hcut
          by_cases hle : (render lib format 0 item).length + 1 ≤ intMax
          · exact .inl ⟨_, hle, hcut⟩
          · exact .inr (by omega)

theorem print_some (hlaw : lib.Lawful) {heap : Heap} {format : Bool} {item : Item D}
    {printed : List UInt8} (h : print lib heap format item = some printed) :
    printed = render lib format 0 item ++ [0] := by
  rcases print_cases hlaw heap format item with hsome | ⟨hnone, -⟩
  · exact Option.some.inj (h.symm.trans hsome)
  · rw [hnone] at h
    cases h

/-- **Inside of the buffer.** Whatever it is given, and whether it succeeds or not,
`cJSON_PrintPreallocated` leaves everything outside of its buffer alone. It succeeds exactly if the
buffer has two bytes more than the text of the item, and then holds this text and a NUL. -/
theorem printPreallocated_inside (hlaw : lib.Lawful) (heap : Heap) (item : Item D)
    (buf : Nat → UInt8) {len : Nat} (hlen : len ≤ intMax) (format : Bool) :
    let r := cJsonPrintPreallocated lib heap item buf len format
    let text := render lib format 0 item
    (∀ i, len ≤ i → r.2 i = buf i) ∧ (r.1 = true ↔ text.length + 2 ≤ len) ∧
      (r.1 = true → Holds r.2 0 (text ++ [0])) := by
  have hp : 0 < len ∨ (0 : Nat) = 0 := .inr rfl
  have hvalue := printValue_outcome heap hlaw item ⟨buf, len, 0, 0, Bool.true, format⟩ hp rfl
  simp only [cJsonPrintPreallocated]
  cases hprint : printValue lib heap item ⟨buf, len, 0, 0, Bool.true, format⟩ with
  | error p =>
    rw [hprint] at hvalue
    cases hvalue with
    | error hkept hblocked =>
      refine ⟨(hkept.inside rfl).2, iff_of_false Bool.false_ne_true ?_, fun h => ?_⟩
      · rcases hblocked with ⟨-, hsmall⟩ | ⟨hfalse, -⟩ | hlong
        · have hlt : len < 0 + (render lib format 0 item).length + 2 := hsmall
          omega
        · cases hfalse
        · have hlt : intMax < 0 + (render lib format 0 item).length + 2 := hlong
          omega
      · cases h
  | ok p =>
    rw [hprint] at hvalue
    cases hvalue with
    | ok hprinted =>
      have hkept := hprinted.kept.inside rfl
      have hroom : 0 + (render lib format 0 item).length + 2 ≤ p.length := hprinted.room
      rw [hkept.1, Nat.zero_add] at hroom
      exact ⟨hkept.2, iff_of_true rfl hroom, fun _ => hprinted.holds⟩

end Print

/-! ## Doubles -/

/-- Natural numbers, of which those of up to fifteen digits are printed with all of them. -/
def naturals : Doubles Nat where
  isFinite n := decide (n < 10 ^ 15)
  strtod text := (ofDecimal (text.takeWhile isdigit), (text.takeWhile isdigit).length)
  sprintf _ n := decimal n

theorem isdigit_decimal {n : Nat} {c : UInt8} (h : c ∈ decimal n) : isdigit c = true :=
  isdigit_iff.mpr (mem_decimal h)

theorem naturals_lawful : naturals.Lawful := by
  have htake : ∀ n, (decimal n).takeWhile isdigit = decimal n := fun n =>
    List.takeWhile_eq_self_iff.mpr fun c hc => isdigit_decimal hc
  constructor
  · intro n _
    simp [naturals, htake, ofDecimal_decimal]
  · intro n _
    simp [naturals, htake]
  · intro _ n _ c hc
    simp [isNumberChar, isdigit_decimal hc]
  · intro _ n _
    cases hn : decimal n with
    | nil =>
      have hlast := getLast?_decimal n
      rw [hn] at hlast
      cases hlast
    | cons c cs => exact ⟨c, cs, hn, .inr (isdigit_decimal (hn ▸ List.mem_cons_self))⟩
  · intro _ n hn _
    have hlt : n < 10 ^ 24 := Nat.lt_trans (of_decide_eq_true hn) (by decide)
    exact length_decimal_le (by decide) hlt
  · intro text
    exact (List.takeWhile_prefix _).length_le

/-- A list that takes all of its buffer but one byte: `[7, null]`. -/
theorem printPreallocated_list :
    (cJsonPrintPreallocated naturals ⟨false, fun _ => none⟩ (.array (.cons (.number 7) (.cons .null .nil)))
      (fun _ => 0) 10 false).1 = true := by
  have hinside := printPreallocated_inside naturals_lawful ⟨false, fun _ => none⟩
    (.array (.cons (.number 7) (.cons .null .nil))) (fun _ => 0) (by decide : 10 ≤ intMax) false
  refine hinside.2.1.mpr ?_
  decide

end IBoxClient.Cjson
