import IBoxClient.CjsonPrint

/- Parsing of JSON (`cJSON.c`).

   The parser goes through a text that ends with a NUL, which it counts as white space, and fails
   at an offset. A string is gone through twice: once to find its end and to count what its
   escapes take, which tells how much memory is needed, and once to write it. A value is parsed
   with as many levels of nesting as are left. `malloc` is taken to succeed: a parse for which
   memory is short fails, and is not modelled. -/
namespace IBoxClient.Cjson

open Bytes Memory

/-! ## The parser -/

structure ParseBuffer where
  content : Nat → UInt8
  length : Nat

/-- A function of the parser succeeds or fails, and leaves the offset somewhere. -/
inductive Parsed (α : Type) where
  | ok (value : α) (offset : Nat)
  | fail (offset : Nat)

def Parsed.map {α β : Type} (f : α → β) : Parsed α → Parsed β
  | ok value offset => ok (f value) offset
  | fail offset => fail offset

namespace ParseBuffer

/-- There is a character at the offset, and it is this one. -/
def isAt (b : ParseBuffer) (offset : Nat) (c : UInt8) : Prop :=
  offset < b.length ∧ b.content offset = c

instance (b : ParseBuffer) (offset : Nat) (c : UInt8) : Decidable (b.isAt offset c) :=
  inferInstanceAs (Decidable (_ ∧ _))

/-- `can_read` and `strncmp`. -/
def reads (b : ParseBuffer) (offset : Nat) (text : List UInt8) : Prop :=
  offset + text.length ≤ b.length ∧ Holds b.content offset text

instance (b : ParseBuffer) (offset : Nat) (text : List UInt8) : Decidable (b.reads offset text) :=
  inferInstanceAs (Decidable (_ ∧ _))

end ParseBuffer

section Parse
variable (b : ParseBuffer)

/-- The loop of `buffer_skip_whitespace`. -/
def skipSpaces : Nat → Nat → Nat
  | 0, offset => offset
  | n + 1, offset =>
    if offset < b.length ∧ b.content offset ≤ 32 then skipSpaces n (offset + 1) else offset

/-- `buffer_skip_whitespace`. -/
def bufferSkipWhitespace (offset : Nat) : Nat :=
  let offset := skipSpaces b (b.length - offset) offset
  if offset = b.length then offset - 1 else offset

/-- `skip_utf8_bom`, at the start. -/
def skipUtf8Bom : Nat :=
  if 4 < b.length ∧ Holds b.content 0 [0xEF, 0xBB, 0xBF] then 3 else 0

/-- The characters that `parse_number` copies. -/
def numberChars : Nat → Nat → List UInt8
  | 0, _ => []
  | n + 1, offset =>
    if offset < b.length ∧ isNumberChar (b.content offset) then
      b.content offset :: numberChars n (offset + 1)
    else []

/-- `parse_number`: the value, without `valueint`. -/
def parseNumber {D : Type} (lib : Doubles D) (offset : Nat) : Parsed D :=
  let r := lib.strtod (numberChars b 63 offset)
  if r.2 = 0 then .fail offset else .ok r.1 (offset + r.2)

/-- A hexadecimal digit. -/
def hexValue (c : UInt8) : Option Nat :=
  if 48 ≤ c ∧ c ≤ 57 then some (c.toNat - 48)
  else if 65 ≤ c ∧ c ≤ 70 then some (10 + c.toNat - 65)
  else if 97 ≤ c ∧ c ≤ 102 then some (10 + c.toNat - 97)
  else none

/-- `parse_hex4`: 0 where there are other characters. -/
def parseHex4 (input : Nat) : Nat :=
  match hexValue (b.content input), hexValue (b.content (input + 1)),
    hexValue (b.content (input + 2)), hexValue (b.content (input + 3)) with
  | some h, some i, some j, some k => ((h * 16 + i) * 16 + j) * 16 + k
  | _, _, _, _ => 0

/-- Bytes of UTF-8 behind the first one, and the first one with its mark. -/
def utf8Bytes (mark : Nat) : Nat → Nat → List UInt8
  | 0, codepoint => [UInt8.ofNat (codepoint ||| mark)]
  | n + 1, codepoint =>
    utf8Bytes mark n (codepoint >>> 6) ++ [UInt8.ofNat ((codepoint ||| 0x80) &&& 0xBF)]

/-- The last part of `utf16_literal_to_utf8`. -/
def encodeUtf8 (codepoint : Nat) : Option (List UInt8) :=
  if codepoint < 0x80 then some [UInt8.ofNat (codepoint &&& 0x7F)]
  else if codepoint < 0x800 then some (utf8Bytes 0xC0 1 codepoint)
  else if codepoint < 0x10000 then some (utf8Bytes 0xE0 2 codepoint)
  else if codepoint ≤ 0x10FFFF then some (utf8Bytes 0xF0 3 codepoint)
  else none

/-- `utf16_literal_to_utf8`: the bytes, and how many characters have been read. -/
def utf16LiteralToUtf8 (input inputEnd : Nat) : Option (List UInt8 × Nat) :=
  if inputEnd - input < 6 then none
  else
    let first := parseHex4 b (input + 2)
    if 0xDC00 ≤ first ∧ first ≤ 0xDFFF then none
    else if 0xD800 ≤ first ∧ first ≤ 0xDBFF then
      if inputEnd - (input + 6) < 6 then none
      else if b.content (input + 6) ≠ backslash ∨ b.content (input + 7) ≠ 117 then none
      else
        let second := parseHex4 b (input + 8)
        if second < 0xDC00 ∨ 0xDFFF < second then none
        else
          let codepoint := 0x10000 + (((first &&& 0x3FF) <<< 10) ||| (second &&& 0x3FF))
          (encodeUtf8 codepoint).map fun bytes => (bytes, 12)
    else (encodeUtf8 first).map fun bytes => (bytes, 6)

/-- The loop of `parse_string` that finds the quote at the end, and `skipped_bytes`. -/
def scanString : Nat → Nat → Option (Nat × Nat)
  | 0, _ => none
  | n + 1, inputEnd =>
    if inputEnd < b.length ∧ b.content inputEnd ≠ quote then
      if b.content inputEnd = backslash then
        if b.length ≤ inputEnd + 1 then none
        else (scanString n (inputEnd + 2)).map fun r => (r.1, r.2 + 1)
      else scanString n (inputEnd + 1)
    else if b.length ≤ inputEnd ∨ b.content inputEnd ≠ quote then none
    else some (inputEnd, 0)

/-- The character that an escape stands for. -/
def unescape (c : UInt8) : Option UInt8 :=
  if c = 98 then some 8
  else if c = 102 then some 12
  else if c = 110 then some 10
  else if c = 114 then some 13
  else if c = 116 then some 9
  else if c = quote ∨ c = backslash ∨ c = 47 then some c
  else none

/-- What a round of the loop of `parse_string` that writes the string adds to its output, and how
far it goes. -/
def writeRound (input inputEnd : Nat) : Option (List UInt8 × Nat) :=
  if b.content input ≠ backslash then some ([b.content input], 1)
  else if inputEnd - input < 1 then none
  else if b.content (input + 1) = 117 then utf16LiteralToUtf8 b input inputEnd
  else (unescape (b.content (input + 1))).map fun c => ([c], 2)

/-- The loop that writes the string: its output, and where it has failed, if it has. -/
def writeString (inputEnd : Nat) : Nat → Nat → List UInt8 × Option Nat
  | 0, _ => ([], none)
  | n + 1, input =>
    if input < inputEnd then
      match writeRound b input inputEnd with
      | none => ([], some input)
      | some (bytes, k) =>
        let r := writeString inputEnd n (input + k)
        (bytes ++ r.1, r.2)
    else ([], none)

/-- The size of the memory that `parse_string` allocates. -/
def allocated (offset inputEnd skipped : Nat) : Nat := inputEnd - offset - skipped + 1

/-- `parse_string`; a string ends at its first NUL. -/
def parseString (offset : Nat) : Parsed (List UInt8) :=
  if b.content offset ≠ quote then .fail (offset + 1)
  else match scanString b (b.length - offset) (offset + 1) with
    | none => .fail (offset + 1)
    | some (inputEnd, _) =>
      match writeString b inputEnd (inputEnd - offset) (offset + 1) with
      | (_, some input) => .fail input
      | (output, none) => .ok (cstring output) (inputEnd + 1)

section Nested
variable {D : Type} (value : Nat → Parsed (Item D))

/-- The loop of `parse_array`, with some rounds granted. -/
def parseElements : Nat → Nat → Parsed (Elements D)
  | 0, offset => .fail offset
  | n + 1, offset =>
    match value (bufferSkipWhitespace b (offset + 1)) with
    | .fail offset => .fail offset
    | .ok item offset =>
      let offset := bufferSkipWhitespace b offset
      if b.isAt offset 44 then (parseElements n offset).map (.cons item)
      else if b.isAt offset 93 then .ok (.cons item .nil) (offset + 1)
      else .fail offset

/-- `parse_array`, where there is a level left. -/
def parseArray (offset : Nat) : Parsed (Item D) :=
  if b.content offset ≠ 91 then .fail offset
  else
    let offset := bufferSkipWhitespace b (offset + 1)
    if b.isAt offset 93 then .ok (.array .nil) (offset + 1)
    else if b.length ≤ offset then .fail (offset - 1)
    else (parseElements b value b.length (offset - 1)).map .array

/-- The loop of `parse_object`. -/
def parseMembers : Nat → Nat → Parsed (Members D)
  | 0, offset => .fail offset
  | n + 1, offset =>
    match parseString b (bufferSkipWhitespace b (offset + 1)) with
    | .fail offset => .fail offset
    | .ok string offset =>
      let offset := bufferSkipWhitespace b offset
      if ¬ b.isAt offset 58 then .fail offset
      else match value (bufferSkipWhitespace b (offset + 1)) with
        | .fail offset => .fail offset
        | .ok item offset =>
          let offset := bufferSkipWhitespace b offset
          if b.isAt offset 44 then (parseMembers n offset).map (.cons string item)
          else if b.isAt offset 125 then .ok (.cons string item .nil) (offset + 1)
          else .fail offset

/-- `parse_object`, where there is a level left. -/
def parseObject (offset : Nat) : Parsed (Item D) :=
  if ¬ b.isAt offset 123 then .fail offset
  else
    let offset := bufferSkipWhitespace b (offset + 1)
    if b.isAt offset 125 then .ok (.object .nil) (offset + 1)
    else if b.length ≤ offset then .fail (offset - 1)
    else (parseMembers b value b.length (offset - 1)).map .object

end Nested

/-- `parse_value`, with what parses a value one level deeper, if there is a level left. -/
def parseValueWith {D : Type} (lib : Doubles D) (nested : Option (Nat → Parsed (Item D)))
    (offset : Nat) : Parsed (Item D) :=
  if b.reads offset (ascii "null") then .ok .null (offset + 4)
  else if b.reads offset (ascii "false") then .ok .false (offset + 5)
  else if b.reads offset (ascii "true") then .ok .true (offset + 4)
  else if b.isAt offset quote then (parseString b offset).map .string
  else if b.isAt offset 45 ∨ offset < b.length ∧ isdigit (b.content offset) then
    (parseNumber b lib offset).map .number
  else if b.isAt offset 91 then
    match nested with
    | none => .fail offset
    | some value => parseArray b value offset
  else if b.isAt offset 123 then
    match nested with
    | none => .fail offset
    | some value => parseObject b value offset
  else .fail offset

/-- `parse_value`, where `depth` is the limit less so many levels. -/
def parseValue {D : Type} (lib : Doubles D) : Nat → Nat → Parsed (Item D)
  | 0 => parseValueWith b lib none
  | levels + 1 => parseValueWith b lib (some (parseValue lib levels))

end Parse

/-- `CJSON_NESTING_LIMIT`. -/
abbrev nestingLimit : Nat := 1000

/-- The buffer of `cJSON_ParseWithOpts`: the string with its NUL. -/
def ParseBuffer.ofMemory (memory : List UInt8) : ParseBuffer :=
  ⟨fun i => memory.getD i 0, (cstring memory).length + 1⟩

/-- The position of an error. -/
def ParseBuffer.position (b : ParseBuffer) (offset : Nat) : Nat :=
  if offset < b.length then offset else b.length - 1

/-- What `cJSON_ParseWithOpts` makes of the result of `parse_value`. -/
def finishParse {D : Type} (b : ParseBuffer) (requireNullTerminated : Bool) :
    Parsed (Item D) → Except Nat (Item D × Nat)
  | .fail offset => .error (b.position offset)
  | .ok item offset =>
    if requireNullTerminated then
      let offset := bufferSkipWhitespace b offset
      if b.length ≤ offset ∨ b.content offset ≠ 0 then .error (b.position offset)
      else .ok (item, offset)
    else .ok (item, offset)

/-- `cJSON_ParseWithOpts`: the item and the end of the parse, or the position of the error. -/
def cJsonParseWithOpts {D : Type} (lib : Doubles D) (memory : List UInt8)
    (requireNullTerminated : Bool) : Except Nat (Item D × Nat) :=
  let b := ParseBuffer.ofMemory memory
  finishParse b requireNullTerminated
    (parseValue b lib nestingLimit (bufferSkipWhitespace b (skipUtf8Bom b)))

/-- `cJSON_Parse`. -/
def cJsonParse {D : Type} (lib : Doubles D) (memory : List UInt8) : Option (Item D) :=
  (cJsonParseWithOpts lib memory false).toOption.map Prod.fst

/-! ## Strings fit -/

/-- What the first loop finds from an address on: the end of the string, and how many escapes there
are up to it. -/
inductive Scans (b : ParseBuffer) (e : Nat) : Nat → Nat → Prop where
  | done (hin : e < b.length) (hend : b.content e = quote) : Scans b e e 0
  | escape {p k : Nat} (hin : p + 1 < b.length) (hchar : b.content p = backslash)
    (hrest : Scans b e (p + 2) k) : Scans b e p (k + 1)
  | plain {p k : Nat} (hin : p < b.length) (hquote : b.content p ≠ quote)
    (hchar : b.content p ≠ backslash) (hrest : Scans b e (p + 1) k) : Scans b e p k

/-- So many escapes are ahead, at the start of one of which or in the middle of which the second
loop may be. -/
def Ahead (b : ParseBuffer) (e p k : Nat) : Prop := Scans b e p k ∨ Scans b e (p + 1) k ∧ p < e

section Strings
variable {b : ParseBuffer} {e p k n : Nat}

theorem scans_of_scanString (h : scanString b n p = some (e, k)) : Scans b e p k := by
  induction n generalizing p k with
  | zero => cases h
  | succ n ih =>
    rw [scanString] at h
    split_ifs at h with hmore hescape hshort hend
    · cases hscan : scanString b n (p + 2) with
      | none =>
        rw [hscan] at h
        cases h
      | some r =>
        rw [hscan] at h
        obtain ⟨e', j⟩ := r
        simp only [Option.map_some, Option.some.injEq, Prod.mk.injEq] at h
        obtain ⟨rfl, rfl⟩ := h
        exact .escape (Nat.not_le.mp hshort) hescape (ih hscan)
    · exact .plain hmore.1 hmore.2 hescape (ih h)
    · simp only [Option.some.injEq, Prod.mk.injEq] at h
      obtain ⟨rfl, rfl⟩ := h
      rw [not_or, Nat.not_le, not_not] at hend
      exact .done hend.1 hend.2

/-- Escapes take two characters each. -/
theorem Scans.le (h : Scans b e p k) : p + 2 * k ≤ e ∧ e < b.length := by
  induction h with
  | done hin hend => exact ⟨Nat.le_refl _, hin⟩
  | escape hin hchar hrest ih => omega
  | plain hin hquote hchar hrest ih => omega

theorem Scans.found (h : Scans b e p k) : b.content e = quote := by
  induction h with
  | done hin hend => exact hend
  | escape hin hchar hrest ih => exact ih
  | plain hin hquote hchar hrest ih => exact ih

/-- One character on: a character that is no backslash leaves all the escapes ahead. -/
theorem Ahead.step (h : Ahead b e p k) (hlt : p < e) :
    ∃ j, Ahead b e (p + 1) j ∧ k ≤ j + 1 ∧ (b.content p ≠ backslash → j = k) := by
  rcases h with hscan | ⟨hscan, -⟩
  · cases hscan with
    | done => exact absurd hlt (Nat.lt_irrefl e)
    | @escape _ j hin hchar hrest =>
      have hle := hrest.le
      exact ⟨j, .inr ⟨hrest, by omega⟩, Nat.le_refl _, fun hne => absurd hchar hne⟩
    | plain hin hquote hchar hrest => exact ⟨k, .inl hrest, Nat.le_succ k, fun _ => rfl⟩
  · exact ⟨k, .inl hscan, Nat.le_succ k, fun _ => rfl⟩

/-- Two characters on there is at most one escape less ahead. -/
theorem Ahead.pair (h : Ahead b e p k) (hle : p + 2 ≤ e) :
    ∃ j, Ahead b e (p + 2) j ∧ k ≤ j + 1 := by
  have hsecond : ∀ {k}, Scans b e (p + 1) k → ∃ j, Ahead b e (p + 2) j ∧ k ≤ j + 1 := by
    intro k hscan
    obtain ⟨j, hahead, hj, -⟩ := Ahead.step (.inl hscan) (by omega)
    exact ⟨j, hahead, hj⟩
  rcases h with hscan | ⟨hscan, -⟩
  · cases hscan with
    | done => omega
    | @escape _ j hin hchar hrest => exact ⟨j, .inl hrest, Nat.le_refl _⟩
    | plain hin hquote hchar hrest => exact hsecond hrest
  · exact hsecond hscan

theorem Ahead.pairs (h : Ahead b e p k) (n : Nat) (hle : p + 2 * n ≤ e) :
    ∃ j, Ahead b e (p + 2 * n) j ∧ k ≤ j + n := by
  induction n with
  | zero => exact ⟨k, h, Nat.le_refl k⟩
  | succ n ih =>
    obtain ⟨j, hj, hkj⟩ := ih (by omega)
    obtain ⟨i, hi, hji⟩ := hj.pair (by omega)
    exact ⟨i, hi, by omega⟩

theorem Ahead.le (h : Ahead b e p k) : p + k ≤ e := by
  rcases h with hscan | ⟨hscan, -⟩
  · have hle := hscan.le
    omega
  · have hle := hscan.le
    omega

theorem length_utf8Bytes (mark n codepoint : Nat) : (utf8Bytes mark n codepoint).length = n + 1 := by
  induction n generalizing codepoint with
  | zero => rfl
  | succ n ih => rw [utf8Bytes, List.length_append, ih, List.length_singleton]

/-- A codepoint that is no longer than sixteen bits takes three bytes at most. -/
theorem length_encodeUtf8 {codepoint : Nat} {bytes : List UInt8}
    (h : encodeUtf8 codepoint = some bytes) :
    bytes.length ≤ 4 ∧ (codepoint < 0x10000 → bytes.length ≤ 3) := by
  unfold encodeUtf8 at h
  split_ifs at h with h1 h2 h3 h4
  all_goals
    rw [← Option.some.inj h]
    simp [length_utf8Bytes]
  omega

theorem hexValue_lt {c : UInt8} {h : Nat} (hc : hexValue c = some h) : h < 16 := by
  unfold hexValue at hc
  simp only [UInt8.le_iff_toNat_le] at hc
  split_ifs at hc with h1 h2 h3
  all_goals
    rw [← Option.some.inj hc]
    simp at *
    omega

theorem parseHex4_lt (b : ParseBuffer) (p : Nat) : parseHex4 b p < 0x10000 := by
  unfold parseHex4
  split
  · next h i j k hh hi hj hk =>
    have hh := hexValue_lt hh
    have hi := hexValue_lt hi
    have hj := hexValue_lt hj
    have hk := hexValue_lt hk
    omega
  · decide

/-- A sequence of six characters gives three bytes at most, one of twelve four. -/
theorem utf16LiteralToUtf8_length {bytes : List UInt8}
    (h : utf16LiteralToUtf8 b p e = some (bytes, k)) :
    k = 6 ∧ p + 6 ≤ e ∧ bytes.length ≤ 3 ∨ k = 12 ∧ p + 12 ≤ e ∧ bytes.length ≤ 4 := by
  unfold utf16LiteralToUtf8 at h
  simp only at h
  split_ifs at h with hshort htrail hlead hshort' hpair hsecond
  · cases hencode : encodeUtf8 (0x10000 + (((parseHex4 b (p + 2) &&& 0x3FF) <<< 10) |||
        (parseHex4 b (p + 8) &&& 0x3FF))) with
    | none =>
      rw [hencode] at h
      cases h
    | some r =>
      rw [hencode] at h
      simp only [Option.map_some, Option.some.injEq, Prod.mk.injEq] at h
      obtain ⟨rfl, rfl⟩ := h
      exact .inr ⟨rfl, by omega, (length_encodeUtf8 hencode).1⟩
  · cases hencode : encodeUtf8 (parseHex4 b (p + 2)) with
    | none =>
      rw [hencode] at h
      cases h
    | some r =>
      rw [hencode] at h
      simp only [Option.map_some, Option.some.injEq, Prod.mk.injEq] at h
      obtain ⟨rfl, rfl⟩ := h
      exact .inl ⟨rfl, by omega, (length_encodeUtf8 hencode).2 (parseHex4_lt b _)⟩

/-- **A round writes no more** than has been counted for what it reads. -/
theorem Ahead.round (h : Ahead b e p k) (hlt : p < e) {bytes : List UInt8} {m : Nat}
    (hround : writeRound b p e = some (bytes, m)) :
    (p + m = e + 1 ∧ bytes.length = 1 ∧ k = 0) ∨
      ∃ j, Ahead b e (p + m) j ∧ bytes.length + k ≤ m + j := by
  unfold writeRound at hround
  split_ifs at hround with hchar hend hunicode
  · -- a character as it is
    obtain ⟨rfl, rfl⟩ := Prod.mk.inj (Option.some.inj hround)
    obtain ⟨j, hahead, -, hsame⟩ := h.step hlt
    refine .inr ⟨j, hahead, ?_⟩
    rw [hsame hchar, List.length_singleton]
  · -- a literal
    rcases utf16LiteralToUtf8_length hround with ⟨rfl, hle, hlen⟩ | ⟨rfl, hle, hlen⟩
    · obtain ⟨j, hahead, hkj⟩ := h.pairs 3 hle
      exact .inr ⟨j, hahead, by omega⟩
    · obtain ⟨j, hahead, hkj⟩ := h.pairs 6 hle
      exact .inr ⟨j, hahead, by omega⟩
  · -- another escape, of which the second character may be the quote at the end
    cases hc : unescape (b.content (p + 1)) with
    | none =>
      rw [hc] at hround
      cases hround
    | some c =>
      rw [hc] at hround
      obtain ⟨rfl, rfl⟩ := Prod.mk.inj (Option.some.inj hround)
      by_cases hle : p + 2 ≤ e
      · obtain ⟨j, hahead, hkj⟩ := h.pair hle
        refine .inr ⟨j, hahead, ?_⟩
        rw [List.length_singleton]
        omega
      · refine .inl ⟨by omega, rfl, ?_⟩
        rcases h with hscan | ⟨hscan, -⟩
        · cases hscan with
          | done => omega
          | escape hin hchar hrest =>
            have hle := hrest.le
            omega
          | plain hin hquote hne hrest => exact absurd (not_not.mp hchar) hne
        · have hle := hscan.le
          omega

/-- The second loop writes no more than what is ahead, less the escapes. -/
theorem length_writeString (h : Ahead b e p k) (n : Nat) :
    (writeString b e n p).1.length + k ≤ e - p := by
  induction n generalizing p k with
  | zero =>
    have hle := h.le
    rw [writeString, List.length_nil]
    omega
  | succ n ih =>
    have hle := h.le
    rw [writeString]
    split_ifs with hlt
    · cases hround : writeRound b p e with
      | none =>
        simp only [List.length_nil]
        omega
      | some r =>
        obtain ⟨bytes, m⟩ := r
        simp only [List.length_append]
        rcases h.round hlt hround with ⟨hend, hone, hnone⟩ | ⟨j, hahead, hcount⟩
        · -- the loop has gone over the quote at the end
          have hover : ¬ p + m < e := by omega
          have hempty : (writeString b e n (p + m)).1 = [] := by
            cases n with
            | zero => rfl
            | succ n => rw [writeString, if_neg hover]
          rw [hempty, List.length_nil]
          omega
        · have hrest := ih hahead
          have hle' := hahead.le
          omega
    · rw [List.length_nil]
      omega

end Strings

/-- **Strings fit.** Whatever text is parsed: from where a string begins, what is written into the
memory for it, with the NUL, is less than has been allocated, also where the string turns out to be
wrong. -/
theorem parseString_fits (b : ParseBuffer) (offset : Nat) {n inputEnd skipped : Nat}
    (h : scanString b n (offset + 1) = some (inputEnd, skipped)) (m : Nat) :
    (writeString b inputEnd m (offset + 1)).1.length + 1 < allocated offset inputEnd skipped := by
  have hscan := scans_of_scanString h
  have hle := hscan.le
  have hlen := length_writeString (.inl hscan) m
  unfold allocated
  omega

/-- A string with a newline: four bytes are allocated, and three are needed. -/
theorem parseString_fits_newline :
    (writeString ⟨fun i => [quote, 97, backslash, 110, quote].getD i 0, 6⟩ 4 4 1).1.length + 1 <
      allocated 0 4 1 :=
  parseString_fits ⟨fun i => [quote, 97, backslash, 110, quote].getD i 0, 6⟩ 0 (n := 6) (by decide) 4

end IBoxClient.Cjson
