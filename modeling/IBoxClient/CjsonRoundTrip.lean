import IBoxClient.CjsonParse

/- What is printed is read back.

   `cJSON_Parse` makes of the text of an item the item itself, up to what no text can say: a
   number that is not finite has been printed as `null`, and a string ends at its first NUL
   (`normal`). It does so exactly if the item is not nested more deeply than the parser allows,
   which the printer does not look at. A raw text may be anything, a bracket for one, so items
   with raw texts are left out (`Plain`). -/
namespace IBoxClient.Cjson

open Bytes Memory

/-! ## Items -/

section Items
variable {D : Type} (lib : Doubles D)

mutual

/-- What a text can say of an item without raw texts. -/
def normal : Item D → Item D
  | .number d => if lib.isFinite d then .number d else .null
  | .raw valuestring => .raw valuestring
  | .string valuestring => .string (cstring valuestring)
  | .array child => .array (normalElements child)
  | .object child => .object (normalMembers child)
  | .null => .null
  | .false => .false
  | .true => .true

def normalElements : Elements D → Elements D
  | .nil => .nil
  | .cons item next => .cons (normal item) (normalElements next)

def normalMembers : Members D → Members D
  | .nil => .nil
  | .cons string item next => .cons (cstring string) (normal item) (normalMembers next)

end

end Items

mutual

/-- No text in it is raw. -/
def Plain {D : Type} : Item D → Prop
  | .raw _ => False
  | .array child => PlainElements child
  | .object child => PlainMembers child
  | .null | .false | .true | .number _ | .string _ => True

def PlainElements {D : Type} : Elements D → Prop
  | .nil => True
  | .cons item next => Plain item ∧ PlainElements next

def PlainMembers {D : Type} : Members D → Prop
  | .nil => True
  | .cons _ item next => Plain item ∧ PlainMembers next

end

mutual

/-- How many arrays and objects are nested. -/
def height {D : Type} : Item D → Nat
  | .array child => heightElements child + 1
  | .object child => heightMembers child + 1
  | .null | .false | .true | .number _ | .raw _ | .string _ => 0

def heightElements {D : Type} : Elements D → Nat
  | .nil => 0
  | .cons item next => max (height item) (heightElements next)

def heightMembers {D : Type} : Members D → Nat
  | .nil => 0
  | .cons _ item next => max (height item) (heightMembers next)

end

/-- A parser yields a value, up to an offset, if a condition is met, and fails otherwise. -/
def Yields {α : Type} (r : Parsed α) (fits : Prop) (v : α) (offset : Nat) : Prop :=
  (fits → r = .ok v offset) ∧ (¬ fits → ∃ o, r = .fail o)

theorem Yields.map {α β : Type} {r : Parsed α} {fits : Prop} {v : α} {offset : Nat}
    (h : Yields r fits v offset) (f : α → β) : Yields (r.map f) fits (f v) offset := by
  constructor
  · intro hfits
    rw [h.1 hfits, Parsed.map]
  · intro hnot
    obtain ⟨o, ho⟩ := h.2 hnot
    exact ⟨o, by rw [ho, Parsed.map]⟩

theorem Yields.congr {α : Type} {r : Parsed α} {fits fits' : Prop} {v : α} {offset : Nat}
    (h : Yields r fits v offset) (hiff : fits' ↔ fits) : Yields r fits' v offset :=
  ⟨fun hfits => h.1 (hiff.mp hfits), fun hnot => h.2 fun hfits => hnot (hiff.mpr hfits)⟩

theorem yields_of_eq {α : Type} {r : Parsed α} {v : α} {offset : Nat} (h : r = .ok v offset)
    {fits : Prop} (hfits : fits) : Yields r fits v offset :=
  ⟨fun _ => h, fun hnot => absurd hfits hnot⟩

/-! ## White space -/

section Space
variable {b : ParseBuffer} {o n : Nat}

theorem skip_self (ho : o < b.length) (hchar : 32 < b.content o) :
    bufferSkipWhitespace b o = o := by
  have hnot : ¬ (o < b.length ∧ b.content o ≤ 32) := fun h => absurd h.2 (UInt8.not_le.mpr hchar)
  have hskip : skipSpaces b (b.length - o) o = o := by
    cases b.length - o with
    | zero => rfl
    | succ n => rw [skipSpaces, if_neg hnot]
  rw [bufferSkipWhitespace, hskip, if_neg (Nat.ne_of_lt ho)]

theorem skip_space (ho : o < b.length) (hchar : b.content o ≤ 32) :
    bufferSkipWhitespace b o = bufferSkipWhitespace b (o + 1) := by
  have hrest : b.length - o = b.length - (o + 1) + 1 := by omega
  have hskip : skipSpaces b (b.length - o) o = skipSpaces b (b.length - (o + 1)) (o + 1) := by
    rw [hrest, skipSpaces, if_pos ⟨ho, hchar⟩]
  simp only [bufferSkipWhitespace, hskip]

/-- White space in front of something. -/
theorem skip_spaces {text : List UInt8} (h : Holds b.content o text)
    (hspace : ∀ c ∈ text, c ≤ 32) (hroom : o + text.length ≤ b.length) :
    bufferSkipWhitespace b o = bufferSkipWhitespace b (o + text.length) := by
  induction text generalizing o with
  | nil => rfl
  | cons c cs ih =>
    rw [List.length_cons] at hroom ⊢
    have hfirst : b.content o ≤ 32 := by
      rw [h.1]
      exact hspace c List.mem_cons_self
    have hrest := ih h.2 (fun d hd => hspace d (List.mem_cons_of_mem c hd)) (by omega)
    rw [skip_space (by omega) hfirst, hrest, Nat.add_assoc, Nat.add_comm 1]

end Space

/-! ## Strings -/

section Strings
variable {b : ParseBuffer} {o e k n : Nat}

/-- Enough rounds of the first loop. -/
theorem Scans.scan (h : Scans b e o k) (hn : e - o < n) : scanString b n o = some (e, k) := by
  induction h generalizing n with
  | done hin hend =>
    obtain ⟨n, rfl⟩ : ∃ m, n = m + 1 := ⟨n - 1, by omega⟩
    have hnot : ¬ (e < b.length ∧ b.content e ≠ quote) := fun h => h.2 hend
    have hfound : ¬ (b.length ≤ e ∨ b.content e ≠ quote) := by
      rw [not_or, not_not]
      exact ⟨Nat.not_le.mpr hin, hend⟩
    rw [scanString, if_neg hnot, if_neg hfound]
  | @escape p k hin hchar hrest ih =>
    obtain ⟨n, rfl⟩ : ∃ m, n = m + 1 := ⟨n - 1, by omega⟩
    have hle := hrest.le
    have hquote : b.content p ≠ quote := by
      rw [hchar]
      decide
    rw [scanString, if_pos ⟨by omega, hquote⟩, if_pos hchar, if_neg (Nat.not_le.mpr hin),
      ih (by omega)]
    rfl
  | @plain p k hin hquote hchar hrest ih =>
    obtain ⟨n, rfl⟩ : ∃ m, n = m + 1 := ⟨n - 1, by omega⟩
    have hle := hrest.le
    rw [scanString, if_pos ⟨hin, hquote⟩, if_neg hchar, ih (by omega)]

/-- A hexadecimal digit is neither a quote nor a backslash, and is read back. -/
theorem hexDigit_plain : ∀ k < 16, hexDigit false k ≠ quote ∧ hexDigit false k ≠ backslash ∧
    hexValue (hexDigit false k) = some k := by
  decide

/-- The first loop goes over what has been printed for a character. -/
theorem scans_escaped {c : UInt8} (h : Holds b.content o (escaped c))
    (hrest : Scans b e (o + (escaped c).length) k) : ∃ j, Scans b e o j := by
  have hle := hrest.le
  rcases escaped_cases c with ⟨hplain, htext, -⟩ | ⟨d, -, htext, -⟩ | ⟨hlt, htext, -⟩
  · rw [htext] at h hrest hle
    obtain ⟨rfl, -⟩ := h
    exact ⟨k, .plain (by omega) hplain.2.1 hplain.2.2 hrest⟩
  · rw [htext] at h hrest hle
    simp only [List.length_cons, List.length_nil] at hle
    exact ⟨k + 1, .escape (by omega) h.1 hrest⟩
  · rw [htext] at h hrest hle
    simp only [List.length_cons, List.length_nil] at hle
    obtain ⟨hbackslash, -, hzero, hzero', hhigh, hlow, -⟩ := h
    have hsmall : c.toNat < 32 := UInt8.lt_iff_toNat_lt.mp hlt
    have hdigits := hexDigit_plain (c.toNat / 16) (by omega)
    have hdigits' := hexDigit_plain (c.toNat % 16) (by omega)
    have hplain : ∀ {p j : Nat} {d : UInt8}, p < b.length → b.content p = d → d ≠ quote →
        d ≠ backslash → Scans b e (p + 1) j → Scans b e p j := by
      rintro p j d hin rfl hquote hback hscan
      exact .plain hin hquote hback hscan
    -- from the back: the four digits, and the escape in front of them
    have h5 := hplain (by omega) hlow hdigits'.1 hdigits'.2.1 hrest
    have h4 := hplain (by omega) hhigh hdigits.1 hdigits.2.1 h5
    have h3 := hplain (by omega) hzero' (by decide) (by decide) h4
    have h2 := hplain (by omega) hzero (by decide) (by decide) h3
    exact ⟨k + 1, .escape (by omega) hbackslash h2⟩

theorem scans_flatMap {s : List UInt8} (h : Holds b.content o (s.flatMap escaped ++ [quote]))
    (hroom : o + (s.flatMap escaped).length < b.length) :
    ∃ k, Scans b (o + (s.flatMap escaped).length) o k := by
  induction s generalizing o with
  | nil => exact ⟨0, .done hroom h.1⟩
  | cons c cs ih =>
    rw [List.flatMap_cons, List.append_assoc] at h
    obtain ⟨hfirst, hrest⟩ := holds_append.mp h
    rw [List.flatMap_cons, List.length_append, ← Nat.add_assoc] at hroom ⊢
    obtain ⟨k, hk⟩ := ih hrest hroom
    exact scans_escaped hfirst hk

theorem parseHex4_control {c : UInt8} (hlt : c < 32)
    (h : Holds b.content o [48, 48, hexDigit false (c.toNat / 16), hexDigit false (c.toNat % 16)]) :
    parseHex4 b o = c.toNat := by
  obtain ⟨hzero, hzero', hhigh, hlow, -⟩ := h
  have hsmall : c.toNat < 32 := UInt8.lt_iff_toNat_lt.mp hlt
  have hdigits := (hexDigit_plain (c.toNat / 16) (by omega)).2.2
  have hdigits' := (hexDigit_plain (c.toNat % 16) (by omega)).2.2
  have hnought : hexValue 48 = some 0 := by decide
  simp only [parseHex4, hzero, hzero', hhigh, hlow, hnought, hdigits, hdigits']
  omega

/-- **A character is read back.** -/
theorem writeRound_escaped {c : UInt8} (h : Holds b.content o (escaped c))
    (hroom : o + (escaped c).length ≤ e) :
    writeRound b o e = some ([c], (escaped c).length) := by
  rcases escaped_cases c with ⟨hplain, htext, -⟩ | ⟨d, hshort, htext, -⟩ | ⟨hlt, htext, -⟩
  · rw [htext] at h ⊢
    rw [writeRound, h.1, if_pos hplain.2.2]
    rfl
  · have hpair := shortEscape_some hshort
    rw [htext] at h hroom ⊢
    simp only [List.length_cons, List.length_nil] at hroom
    have hchar : ¬ b.content o ≠ backslash := not_not_intro h.1
    rw [writeRound, if_neg hchar, if_neg (by omega), h.2.1]
    simp only [List.mem_cons, Prod.mk.injEq, List.not_mem_nil, or_false] at hpair
    rcases hpair with ⟨rfl, rfl⟩ | ⟨rfl, rfl⟩ | ⟨rfl, rfl⟩ | ⟨rfl, rfl⟩ | ⟨rfl, rfl⟩ | ⟨rfl, rfl⟩ |
      ⟨rfl, rfl⟩
    all_goals rfl
  · rw [htext] at h hroom ⊢
    simp only [List.length_cons, List.length_nil] at hroom
    have hsmall : c.toNat < 32 := UInt8.lt_iff_toNat_lt.mp hlt
    have hchar : ¬ b.content o ≠ backslash := not_not_intro h.1
    have hhex : parseHex4 b (o + 2) = c.toNat := parseHex4_control hlt h.2.2
    have hself : UInt8.ofNat (c.toNat &&& 0x7F) = c := by
      have hmod : c.toNat &&& 0x7F = c.toNat % 128 := Nat.and_two_pow_sub_one_eq_mod c.toNat 7
      rw [hmod, Nat.mod_eq_of_lt (by omega), UInt8.ofNat_toNat]
    rw [writeRound, if_neg hchar, if_neg (by omega), if_pos h.2.1]
    rw [utf16LiteralToUtf8, if_neg (by omega), hhex]
    simp only
    rw [if_neg (by omega), if_neg (by omega), encodeUtf8, if_pos (by omega), hself]
    rfl

theorem writeString_flatMap {s : List UInt8} (h : Holds b.content o (s.flatMap escaped))
    (he : o + (s.flatMap escaped).length = e) (hn : s.length < n) :
    writeString b e n o = (s, none) := by
  induction s generalizing o n with
  | nil =>
    obtain ⟨n, rfl⟩ : ∃ m, n = m + 1 := ⟨n - 1, by omega⟩
    have hend : ¬ o < e := by
      rw [← he]
      exact Nat.lt_irrefl o
    rw [writeString, if_neg hend]
  | cons c cs ih =>
    obtain ⟨n, rfl⟩ : ∃ m, n = m + 1 := ⟨n - 1, by omega⟩
    rw [List.flatMap_cons] at h he
    obtain ⟨hfirst, hrest⟩ := holds_append.mp h
    rw [List.length_append, ← Nat.add_assoc] at he
    have hlen := length_escaped c
    rw [List.length_cons] at hn
    have hround := writeRound_escaped (e := e) hfirst (by omega)
    have htail := ih (n := n) hrest he (by omega)
    rw [writeString, if_pos (by omega), hround]
    simp only [htail, List.singleton_append]

theorem cstring_cstring (s : List UInt8) : cstring (cstring s) = cstring s := by
  rw [← List.append_nil (cstring s), cstring_append, List.append_nil]
  · rw [show cstring [] = [] from rfl, List.append_nil]
  · exact fun hmem => cstring_ne_zero hmem rfl

/-- **A string is read back**, up to its NUL. -/
theorem parseString_render {s : List UInt8} (h : Holds b.content o (renderString s))
    (hroom : o + (renderString s).length ≤ b.length) :
    parseString b o = .ok (cstring s) (o + (renderString s).length) := by
  have hlen : (renderString s).length = ((cstring s).flatMap escaped).length + 2 := by
    simp [renderString]
  rw [renderString, List.cons_append] at h
  obtain ⟨hquote, hbody⟩ := h
  obtain ⟨k, hscan⟩ := scans_flatMap hbody (by omega)
  have hshort : (cstring s).length ≤ ((cstring s).flatMap escaped).length := by
    rw [length_flatMap_escaped]
    exact Nat.le_add_right _ _
  have hwrite := writeString_flatMap (e := o + 1 + ((cstring s).flatMap escaped).length)
    (n := o + 1 + ((cstring s).flatMap escaped).length - o) (holds_append.mp hbody).1 rfl (by omega)
  have hfound : ¬ b.content o ≠ quote := not_not_intro hquote
  rw [parseString, if_neg hfound, hscan.scan (by omega)]
  simp only [hwrite, cstring_cstring, hlen]
  congr 1
  omega

end Strings

/-! ## Numbers -/

section Numbers
variable {b : ParseBuffer} {o n : Nat} {D : Type} {lib : Doubles D} [DecidableEq D] {d : D}

theorem strtod_numberText (hlaw : lib.Lawful) (hd : lib.isFinite d = true) :
    lib.strtod (numberText lib d) = (d, (numberText lib d).length) := by
  unfold numberText
  rw [if_neg (not_not_intro hd)]
  by_cases hback : sscanf lib (lib.sprintf 15 d) = some d
  · rw [if_pos hback]
    unfold sscanf at hback
    split_ifs at hback with hzero
    exact Prod.ext (Option.some.inj hback) (hlaw.whole d hd)
  · rw [if_neg hback]
    exact hlaw.exact d hd

/-- The text of a finite number is `%1.15g` or `%1.17g` of it. -/
theorem numberText_finite (hd : lib.isFinite d = true) :
    ∃ precision, numberText lib d = lib.sprintf precision d := by
  unfold numberText
  rw [if_neg (not_not_intro hd)]
  split
  · exact ⟨15, rfl⟩
  · exact ⟨17, rfl⟩

theorem numberChars_text {text : List UInt8} (h : Holds b.content o text)
    (hchars : ∀ c ∈ text, isNumberChar c = true) (hroom : o + text.length < b.length)
    (hnext : isNumberChar (b.content (o + text.length)) = false) (hn : text.length < n) :
    numberChars b n o = text := by
  induction text generalizing o n with
  | nil =>
    obtain ⟨n, rfl⟩ : ∃ m, n = m + 1 := ⟨n - 1, by omega⟩
    have hend : ¬ (o < b.length ∧ isNumberChar (b.content o) = true) := by
      rintro ⟨-, hchar⟩
      exact Bool.false_ne_true (hnext.symm.trans hchar)
    rw [numberChars, if_neg hend]
  | cons c cs ih =>
    obtain ⟨n, rfl⟩ : ∃ m, n = m + 1 := ⟨n - 1, by omega⟩
    rw [List.length_cons] at hroom hnext hn
    have hfirst : isNumberChar (b.content o) = true := by
      rw [h.1]
      exact hchars c List.mem_cons_self
    have hrest := ih (n := n) h.2 (fun x hx => hchars x (List.mem_cons_of_mem c hx)) (by omega)
      (by rw [Nat.add_assoc, Nat.add_comm 1]; exact hnext) (by omega)
    rw [numberChars, if_pos ⟨by omega, hfirst⟩, hrest, h.1]

/-- **A number is read back.** -/
theorem parseNumber_render (hlaw : lib.Lawful) (hd : lib.isFinite d = true)
    (h : Holds b.content o (numberText lib d)) (hroom : o + (numberText lib d).length < b.length)
    (hnext : isNumberChar (b.content (o + (numberText lib d).length)) = false) :
    parseNumber b lib o = .ok d (o + (numberText lib d).length) := by
  obtain ⟨precision, htext⟩ := numberText_finite hd
  have hchars : ∀ c ∈ numberText lib d, isNumberChar c = true := by
    rw [htext]
    exact hlaw.chars precision d hd
  have hshort := numberText_short hlaw d
  have hcopy := numberChars_text (n := 63) h hchars hroom hnext (by omega)
  obtain ⟨c, cs, hcons, -⟩ := hlaw.head precision d hd
  have hne : (numberText lib d).length ≠ 0 := by
    rw [htext, hcons]
    exact Nat.succ_ne_zero _
  simp only [parseNumber, hcopy, strtod_numberText hlaw hd]
  rw [if_neg hne]

end Numbers

/-! ## How a text begins -/

section Heads
variable {D : Type} {lib : Doubles D} [DecidableEq D] (format : Bool)

/-- A text begins with a character that is neither white space nor a bracket that closes an
array, nor the first byte of a byte order mark. -/
def Begins (text : List UInt8) : Prop := ∃ c cs, text = c :: cs ∧ 32 < c ∧ c ≠ 93 ∧ c ≠ 0xEF

theorem Begins.append {text : List UInt8} (h : Begins text) (more : List UInt8) :
    Begins (text ++ more) := by
  obtain ⟨c, cs, rfl, hc⟩ := h
  exact ⟨c, cs ++ more, rfl, hc⟩

theorem isdigit_begins {c : UInt8} (h : c = 45 ∨ isdigit c = true) :
    32 < c ∧ c ≠ 93 ∧ c ≠ 0xEF := by
  rcases h with rfl | hdigit
  · decide
  · have hbounds := isdigit_iff.mp hdigit
    refine ⟨UInt8.lt_iff_toNat_lt.mpr ?_, ?_, ?_⟩
    · show 32 < c.toNat
      omega
    all_goals
      rintro rfl
      revert hbounds
      decide

theorem render_begins (hlaw : lib.Lawful) (depth : Nat) {item : Item D} (hplain : Plain item) :
    Begins (render lib format depth item) := by
  cases item with
  | raw s => exact hplain.elim
  | number d =>
    rw [render]
    by_cases hd : lib.isFinite d = true
    · obtain ⟨precision, htext⟩ := numberText_finite hd
      obtain ⟨c, cs, hcons, hc⟩ := hlaw.head precision d hd
      rw [htext, hcons]
      exact ⟨c, cs, rfl, isdigit_begins hc⟩
    · rw [numberText, if_pos hd]
      exact ⟨110, [117, 108, 108], by decide, by decide⟩
  | null =>
    rw [render]
    exact ⟨110, [117, 108, 108], by decide, by decide⟩
  | false =>
    rw [render]
    exact ⟨102, [97, 108, 115, 101], by decide, by decide⟩
  | true =>
    rw [render]
    exact ⟨116, [114, 117, 101], by decide, by decide⟩
  | string s =>
    rw [render, renderString]
    exact ⟨quote, _, rfl, by decide⟩
  | array child =>
    rw [render]
    exact ⟨91, _, rfl, by decide⟩
  | object child =>
    rw [render]
    cases format with
    | false => exact ⟨123, _, rfl, by decide⟩
    | true => exact ⟨123, _, rfl, by decide⟩

theorem renderElements_begins (hlaw : lib.Lawful) (depth : Nat) {child : Elements D}
    (hplain : PlainElements child) (h : child.isNil = false) :
    Begins (renderElements lib format depth child) := by
  cases child with
  | nil => cases h
  | cons item next =>
    rw [renderElements, List.append_assoc]
    exact (render_begins format hlaw depth hplain.1).append _

end Heads

/-! ## Values -/

section Values
variable {b : ParseBuffer} {o n : Nat} {D : Type} {lib : Doubles D}
  {nested : Option (Nat → Parsed (Item D))}

theorem ascii_null : ascii "null" = [110, 117, 108, 108] := by decide

theorem ascii_false : ascii "false" = [102, 97, 108, 115, 101] := by decide

theorem ascii_true : ascii "true" = [116, 114, 117, 101] := by decide

theorem not_reads_cons {c d : UInt8} {ds : List UInt8} (hc : b.content o = c) (hne : c ≠ d) :
    ¬ b.reads o (d :: ds) :=
  fun h => hne (hc.symm.trans h.2.1)

/-- Where there is another character, none of the literals is read. -/
theorem not_reads {c : UInt8} (hc : b.content o = c) (hne : c ≠ 110 ∧ c ≠ 102 ∧ c ≠ 116) :
    ¬ b.reads o (ascii "null") ∧ ¬ b.reads o (ascii "false") ∧ ¬ b.reads o (ascii "true") := by
  rw [ascii_null, ascii_false, ascii_true]
  exact ⟨not_reads_cons hc hne.1, not_reads_cons hc hne.2.1, not_reads_cons hc hne.2.2⟩

theorem not_isAt {c d : UInt8} (hc : b.content o = c) (hne : c ≠ d) : ¬ b.isAt o d :=
  fun h => hne (hc.symm.trans h.2)

theorem parseValueWith_null (h : b.reads o (ascii "null")) :
    parseValueWith b lib nested o = .ok .null (o + 4) := by
  rw [parseValueWith.eq_def, if_pos h]

theorem parseValueWith_false (h : b.reads o (ascii "false")) :
    parseValueWith b lib nested o = .ok .false (o + 5) := by
  have hchar : b.content o = 102 := (ascii_false ▸ h).2.1
  have hnull : ¬ b.reads o (ascii "null") := by
    rw [ascii_null]
    exact not_reads_cons hchar (by decide)
  rw [parseValueWith.eq_def, if_neg hnull, if_pos h]

theorem parseValueWith_true (h : b.reads o (ascii "true")) :
    parseValueWith b lib nested o = .ok .true (o + 4) := by
  have hchar : b.content o = 116 := (ascii_true ▸ h).2.1
  have hnull : ¬ b.reads o (ascii "null") := by
    rw [ascii_null]
    exact not_reads_cons hchar (by decide)
  have hfalse : ¬ b.reads o (ascii "false") := by
    rw [ascii_false]
    exact not_reads_cons hchar (by decide)
  rw [parseValueWith.eq_def, if_neg hnull, if_neg hfalse, if_pos h]

theorem parseValueWith_string (h : b.isAt o quote) :
    parseValueWith b lib nested o = (parseString b o).map .string := by
  obtain ⟨hnull, hfalse, htrue⟩ := not_reads h.2 (by decide)
  rw [parseValueWith.eq_def, if_neg hnull, if_neg hfalse, if_neg htrue, if_pos h]

theorem parseValueWith_number {c : UInt8} (hin : o < b.length) (hchar : b.content o = c)
    (hc : c = 45 ∨ isdigit c = true) :
    parseValueWith b lib nested o = (parseNumber b lib o).map .number := by
  have hother : c ≠ 110 ∧ c ≠ 102 ∧ c ≠ 116 ∧ c ≠ quote := by
    rcases hc with rfl | hdigit
    · decide
    · have hbounds := isdigit_iff.mp hdigit
      refine ⟨?_, ?_, ?_, ?_⟩
      all_goals
        rintro rfl
        revert hbounds
        decide
  obtain ⟨hnull, hfalse, htrue⟩ := not_reads hchar ⟨hother.1, hother.2.1, hother.2.2.1⟩
  have hnumber : b.isAt o 45 ∨ o < b.length ∧ isdigit (b.content o) = true := by
    rcases hc with rfl | hdigit
    · exact .inl ⟨hin, hchar⟩
    · exact .inr ⟨hin, hchar ▸ hdigit⟩
  rw [parseValueWith.eq_def, if_neg hnull, if_neg hfalse, if_neg htrue,
    if_neg (not_isAt hchar hother.2.2.2), if_pos hnumber]

/-- Where neither a literal nor a string nor a number begins. -/
theorem parseValueWith_bracket {c : UInt8} (hin : o < b.length) (hchar : b.content o = c)
    (hc : c = 91 ∨ c = 123) :
    parseValueWith b lib nested o = match nested with
      | none => .fail o
      | some value => if c = 91 then parseArray b value o else parseObject b value o := by
  have hother : c ≠ 110 ∧ c ≠ 102 ∧ c ≠ 116 ∧ c ≠ quote ∧ c ≠ 45 ∧ isdigit c = false := by
    rcases hc with rfl | rfl <;> decide
  obtain ⟨hnull, hfalse, htrue⟩ := not_reads hchar ⟨hother.1, hother.2.1, hother.2.2.1⟩
  have hnumber : ¬ (b.isAt o 45 ∨ o < b.length ∧ isdigit (b.content o) = true) := by
    rintro (hminus | ⟨-, hdigit⟩)
    · exact not_isAt hchar hother.2.2.2.2.1 hminus
    · rw [hchar, hother.2.2.2.2.2] at hdigit
      cases hdigit
  rw [parseValueWith.eq_def, if_neg hnull, if_neg hfalse, if_neg htrue,
    if_neg (not_isAt hchar hother.2.2.2.1), if_neg hnumber]
  rcases hc with rfl | rfl
  · have hopen : b.isAt o 91 := ⟨hin, hchar⟩
    rw [if_pos hopen]
    rfl
  · have hopen : b.isAt o 123 := ⟨hin, hchar⟩
    rw [if_neg (not_isAt hchar (by decide)), if_pos hopen]
    rfl

theorem parseValue_scalar (b : ParseBuffer) (lib : Doubles D) (levels : Nat) :
    ∃ nested, parseValue b lib levels = parseValueWith b lib nested := by
  cases levels with
  | zero => exact ⟨none, rfl⟩
  | succ levels => exact ⟨some (parseValue b lib levels), rfl⟩

end Values

/-! ## Items are read back -/

section Back
variable {b : ParseBuffer} {D : Type} {lib : Doubles D} [DecidableEq D] {format : Bool}

/-- White space that is printed. -/
theorem indent_space (depth : Nat) : ∀ c ∈ indent format depth, c ≤ 32 := by
  intro c hc
  unfold indent at hc
  split at hc
  · rw [(List.mem_replicate.mp hc).2]
    decide
  · exact absurd hc List.not_mem_nil

/-- Behind what separates two elements, the parser is at the next one. -/
theorem skip_elementEnd {p : Nat} {text : List UInt8} (hbegins : Begins text)
    (h : Holds b.content p (elementEnd format false ++ text))
    (hroom : p + (elementEnd format false).length < b.length) :
    b.isAt p 44 ∧ bufferSkipWhitespace b (p + 1) = p + (elementEnd format false).length := by
  obtain ⟨c, cs, rfl, hspace, -⟩ := hbegins
  cases format with
  | false =>
    obtain ⟨hcomma, hnext, -⟩ := h
    have hlt : p + 1 < b.length := hroom
    exact ⟨⟨by omega, hcomma⟩, skip_self hlt (hnext ▸ hspace)⟩
  | true =>
    obtain ⟨hcomma, hblank, hnext, -⟩ := h
    have hlt : p + 2 < b.length := hroom
    have hle : b.content (p + 1) ≤ 32 := by
      rw [hblank]
      exact UInt8.le_refl 32
    refine ⟨⟨by omega, hcomma⟩, ?_⟩
    rw [skip_space (by omega) hle]
    exact skip_self hlt (hnext ▸ hspace)

/-- Behind the colon, the parser is at the value. -/
theorem skip_colon {p : Nat} {text : List UInt8} (hbegins : Begins text)
    (h : Holds b.content p (colon format ++ text)) (hroom : p + (colon format).length < b.length) :
    b.isAt p 58 ∧ bufferSkipWhitespace b p = p ∧
      bufferSkipWhitespace b (p + 1) = p + (colon format).length := by
  obtain ⟨c, cs, rfl, hspace, -⟩ := hbegins
  have hprinted : (32 : UInt8) < 58 := by decide
  cases format with
  | false =>
    obtain ⟨hcolon, hnext, -⟩ := h
    have hlt : p + 1 < b.length := hroom
    refine ⟨⟨by omega, hcolon⟩, skip_self (by omega) (hcolon ▸ hprinted), ?_⟩
    exact skip_self hlt (hnext ▸ hspace)
  | true =>
    obtain ⟨hcolon, htab, hnext, -⟩ := h
    have hlt : p + 2 < b.length := hroom
    have hle : b.content (p + 1) ≤ 32 := by
      rw [htab]
      decide
    refine ⟨⟨by omega, hcolon⟩, skip_self (by omega) (hcolon ▸ hprinted), ?_⟩
    rw [skip_space (by omega) hle]
    exact skip_self hlt (hnext ▸ hspace)

/-- Behind a member that is not the last one. -/
theorem skip_memberEnd {p : Nat} {text : List UInt8}
    (h : Holds b.content p (memberEnd format false ++ text))
    (hroom : p + (memberEnd format false).length ≤ b.length) :
    b.isAt p 44 ∧ bufferSkipWhitespace b p = p ∧
      bufferSkipWhitespace b (p + 1) = bufferSkipWhitespace b (p + (memberEnd format false).length) := by
  have hprinted : (32 : UInt8) < 44 := by decide
  cases format with
  | false =>
    have hlt : p + 1 ≤ b.length := hroom
    exact ⟨⟨by omega, h.1⟩, skip_self (by omega) (h.1 ▸ hprinted), rfl⟩
  | true =>
    obtain ⟨hcomma, hline, -⟩ := h
    have hlt : p + 2 ≤ b.length := hroom
    have hle : b.content (p + 1) ≤ 32 := by
      rw [hline]
      decide
    refine ⟨⟨by omega, hcomma⟩, skip_self (by omega) (hcomma ▸ hprinted), ?_⟩
    exact skip_space (by omega) hle

/-- Behind the bracket that opens an object. -/
theorem skip_objectStart {p : Nat} {text : List UInt8}
    (h : Holds b.content p (objectStart format ++ text))
    (hroom : p + (objectStart format).length ≤ b.length) :
    b.isAt p 123 ∧
      bufferSkipWhitespace b (p + 1) = bufferSkipWhitespace b (p + (objectStart format).length) := by
  cases format with
  | false =>
    have hlt : p + 1 ≤ b.length := hroom
    exact ⟨⟨by omega, h.1⟩, rfl⟩
  | true =>
    obtain ⟨hopen, hline, -⟩ := h
    have hlt : p + 2 ≤ b.length := hroom
    have hle : b.content (p + 1) ≤ 32 := by
      rw [hline]
      decide
    exact ⟨⟨by omega, hopen⟩, skip_space (by omega) hle⟩

/-- White space up to the bracket that closes an object. -/
theorem skip_close {p : Nat} {space : List UInt8} (hspace : ∀ c ∈ space, c ≤ 32)
    (h : Holds b.content p (space ++ [125])) (hroom : p + space.length < b.length) :
    bufferSkipWhitespace b p = p + space.length ∧ b.isAt (p + space.length) 125 := by
  obtain ⟨hblank, hclose, -⟩ := holds_append.mp h
  have hprinted : (32 : UInt8) < 125 := by decide
  refine ⟨?_, hroom, hclose⟩
  rw [skip_spaces hblank hspace (Nat.le_of_lt hroom)]
  exact skip_self hroom (hclose ▸ hprinted)

theorem memberEnd_space : ∀ c ∈ memberEnd format true, c ≤ 32 := by
  cases format with
  | false => exact fun c hc => absurd hc List.not_mem_nil
  | true =>
    intro c hc
    rw [List.mem_singleton.mp hc]
    decide

/-- The character behind a member is not a part of a number. -/
theorem member_next (outer : Nat) {p : Nat} {last : Bool} {text : List UInt8}
    (h : Holds b.content p (memberEnd format last ++ text))
    (htext : last = true → text = indent format outer ++ [125]) :
    isNumberChar (b.content p) = false := by
  cases last with
  | false => cases format <;> rw [h.1] <;> decide
  | true =>
    rw [htext rfl] at h
    cases format <;> rw [h.1] <;> decide

/-- In front of a member, the parser is at its name. -/
theorem skip_member {p depth : Nat} {child : Members D} {text : List UInt8}
    (hne : child.isNil = false) (h : Holds b.content p (renderMembers lib format depth child ++ text))
    (hroom : p + (renderMembers lib format depth child).length ≤ b.length) :
    bufferSkipWhitespace b p = p + (indent format depth).length ∧
      b.content (p + (indent format depth).length) = quote ∧
      p + (indent format depth).length < b.length := by
  cases child with
  | nil => cases hne
  | cons string item next =>
    simp only [renderMembers, List.append_assoc, List.length_append] at h hroom
    obtain ⟨hindent, hname⟩ := holds_append.mp h
    have hpos : 0 < (renderString string).length := by
      rw [renderString]
      exact Nat.succ_pos _
    have hquote : b.content (p + (indent format depth).length) = quote :=
      (holds_append.mp hname).1.1
    have hprinted : (32 : UInt8) < quote := by decide
    refine ⟨?_, hquote, by omega⟩
    rw [skip_spaces hindent (indent_space depth) (by omega)]
    exact skip_self (by omega) (hquote ▸ hprinted)

mutual

/-- **What is printed for an item is read back**, if so many levels are left. -/
theorem parseValue_render (hlaw : lib.Lawful) (depth : Nat) : (item : Item D) → Plain item →
    (o levels : Nat) → Holds b.content o (render lib format depth item) →
    o + (render lib format depth item).length < b.length →
    isNumberChar (b.content (o + (render lib format depth item).length)) = false →
    Yields (parseValue b lib levels o) (height item ≤ levels) (normal lib item)
      (o + (render lib format depth item).length)
  | .null, _, o, levels, h, hroom, _ => by
    obtain ⟨nested, hnested⟩ := parseValue_scalar b lib levels
    rw [render] at h hroom ⊢
    have hparse : parseValueWith b lib nested o = .ok .null (o + 4) :=
      parseValueWith_null ⟨Nat.le_of_lt hroom, h⟩
    rw [hnested]
    exact yields_of_eq hparse (Nat.zero_le levels)
  | .false, _, o, levels, h, hroom, _ => by
    obtain ⟨nested, hnested⟩ := parseValue_scalar b lib levels
    rw [render] at h hroom ⊢
    have hparse : parseValueWith b lib nested o = .ok .false (o + 5) :=
      parseValueWith_false ⟨Nat.le_of_lt hroom, h⟩
    rw [hnested]
    exact yields_of_eq hparse (Nat.zero_le levels)
  | .true, _, o, levels, h, hroom, _ => by
    obtain ⟨nested, hnested⟩ := parseValue_scalar b lib levels
    rw [render] at h hroom ⊢
    have hparse : parseValueWith b lib nested o = .ok .true (o + 4) :=
      parseValueWith_true ⟨Nat.le_of_lt hroom, h⟩
    rw [hnested]
    exact yields_of_eq hparse (Nat.zero_le levels)
  | .number d, _, o, levels, h, hroom, hnext => by
    obtain ⟨nested, hnested⟩ := parseValue_scalar b lib levels
    rw [render] at h hroom hnext ⊢
    rw [hnested, normal]
    by_cases hd : lib.isFinite d = true
    · obtain ⟨precision, htext⟩ := numberText_finite hd
      obtain ⟨c, cs, hcons, hc⟩ := hlaw.head precision d hd
      have hchar : b.content o = c := by
        have hfirst := h
        rw [htext, hcons] at hfirst
        exact hfirst.1
      have hparse : parseValueWith b lib nested o =
          .ok (.number d) (o + (numberText lib d).length) := by
        rw [parseValueWith_number (by omega) hchar hc, parseNumber_render hlaw hd h hroom hnext,
          Parsed.map]
      rw [if_pos hd]
      exact yields_of_eq hparse (Nat.zero_le levels)
    · have hnull : numberText lib d = ascii "null" := if_pos hd
      rw [hnull] at h hroom ⊢
      have hparse : parseValueWith b lib nested o = .ok .null (o + 4) :=
        parseValueWith_null ⟨Nat.le_of_lt hroom, h⟩
      rw [if_neg hd]
      exact yields_of_eq hparse (Nat.zero_le levels)
  | .raw _, hplain, _, _, _, _, _ => hplain.elim
  | .string s, _, o, levels, h, hroom, _ => by
    obtain ⟨nested, hnested⟩ := parseValue_scalar b lib levels
    rw [render] at h hroom ⊢
    have hquote : b.isAt o quote := ⟨by omega, h.1⟩
    have hparse : parseValueWith b lib nested o =
        .ok (.string (cstring s)) (o + (renderString s).length) := by
      rw [parseValueWith_string hquote, parseString_render h (Nat.le_of_lt hroom), Parsed.map]
    rw [hnested]
    exact yields_of_eq hparse (Nat.zero_le levels)
  | .array child, hplain, o, levels, h, hroom, _ => by
    have hlen : (render lib format depth (.array child)).length =
        1 + (renderElements lib format (depth + 1) child).length + 1 := by
      rw [render, List.length_append, List.length_append]
      rfl
    rw [hlen] at hroom ⊢
    rw [render, List.append_assoc] at h
    obtain ⟨hopen, hbody⟩ := h
    cases levels with
    | zero =>
      refine ⟨fun hfits => absurd hfits (Nat.not_succ_le_zero _), fun _ => ⟨o, ?_⟩⟩
      exact parseValueWith_bracket (by omega) hopen (.inl rfl)
    | succ levels =>
      have hparse : parseValue b lib (levels + 1) o = parseArray b (parseValue b lib levels) o :=
        parseValueWith_bracket (by omega) hopen (.inl rfl)
      have hfirst : ¬ b.content o ≠ 91 := not_not_intro hopen
      rw [hparse, parseArray, if_neg hfirst]
      cases hnil : child.isNil with
      | true =>
        cases child with
        | cons item next => cases hnil
        | nil =>
          have hclose : b.isAt (o + 1) 93 := ⟨by omega, hbody.1⟩
          have hspace : (32 : UInt8) < 93 := by decide
          rw [skip_self (by omega) (hbody.1 ▸ hspace)]
          exact yields_of_eq (if_pos hclose) (Nat.le_add_left 1 levels)
      | false =>
        obtain ⟨c, cs, hcons, hspace, hclose, -⟩ :=
          renderElements_begins format hlaw (depth + 1) hplain hnil
        have hchar : b.content (o + 1) = c := by
          have hfirst := hbody
          rw [hcons] at hfirst
          exact hfirst.1
        have hskip : bufferSkipWhitespace b (o + 1) = o + 1 := skip_self (by omega) (hchar ▸ hspace)
        have hback := parseElements_render hlaw (depth + 1) child hplain hnil o (o + 1) b.length
          levels hskip hbody (by omega) (by omega)
        have hin : ¬ b.length ≤ o + 1 := by omega
        simp only [hskip]
        rw [if_neg (not_isAt hchar hclose), if_neg hin, Nat.add_sub_cancel]
        have hiff : height (Item.array child) ≤ levels + 1 ↔ heightElements child ≤ levels :=
          Nat.succ_le_succ_iff
        rw [← Nat.add_assoc, ← Nat.add_assoc]
        exact (hback.map Item.array).congr hiff
  | .object child, hplain, o, levels, h, hroom, _ => by
    have hlen : (render lib format depth (.object child)).length = (objectStart format).length +
        (renderMembers lib format (depth + 1) child).length + ((indent format depth).length + 1) := by
      simp only [render, List.length_append, List.length_singleton]
    rw [hlen] at hroom ⊢
    rw [render, List.append_assoc] at h
    obtain ⟨hstart, hskip⟩ := skip_objectStart h (by omega)
    have hbody := (holds_append.mp h).2
    cases levels with
    | zero =>
      refine ⟨fun hfits => absurd hfits (Nat.not_succ_le_zero _), fun _ => ⟨o, ?_⟩⟩
      exact parseValueWith_bracket (by omega) hstart.2 (.inr rfl)
    | succ levels =>
      have hparse : parseValue b lib (levels + 1) o = parseObject b (parseValue b lib levels) o :=
        parseValueWith_bracket (by omega) hstart.2 (.inr rfl)
      have hfirst := not_not_intro hstart
      rw [hparse, parseObject, if_neg hfirst, hskip]
      cases hnil : child.isNil with
      | true =>
        cases child with
        | cons _ _ _ => cases hnil
        | nil =>
          simp only [renderMembers, List.length_nil] at hroom ⊢
          obtain ⟨hclose, hbracket⟩ := skip_close (indent_space depth) hbody (by omega)
          have hsum : o + ((objectStart format).length + 0 + ((indent format depth).length + 1)) =
              o + (objectStart format).length + (indent format depth).length + 1 := by omega
          rw [hclose, if_pos hbracket, hsum]
          exact yields_of_eq rfl (Nat.le_add_left 1 levels)
      | false =>
        obtain ⟨hstay, hquote, hlt⟩ := skip_member hnil hbody (by omega)
        have hprinted : (32 : UInt8) < quote := by decide
        have hin : ¬ b.length ≤ o + (objectStart format).length +
            (indent format (depth + 1)).length := Nat.not_le.mpr hlt
        have hlong : 0 < (objectStart format).length := by
          cases format <;> exact Nat.succ_pos _
        have hback := parseMembers_render hlaw (depth + 1) depth child hplain hnil
          (o + (objectStart format).length + (indent format (depth + 1)).length - 1)
          (o + (objectStart format).length) b.length levels
          (by
            rw [Nat.sub_add_cancel (by omega), hstay]
            exact skip_self hlt (hquote ▸ hprinted))
          hbody (by omega) (by omega)
        simp only [hstay]
        rw [if_neg (not_isAt hquote (by decide)), if_neg hin]
        have hiff : height (Item.object child) ≤ levels + 1 ↔ heightMembers child ≤ levels :=
          Nat.succ_le_succ_iff
        have hsum : ∀ i j k : Nat, o + (i + j + (k + 1)) = o + i + j + k + 1 := by
          intro i j k
          omega
        rw [hsum]
        exact (hback.map Item.object).congr hiff

theorem parseElements_render (hlaw : lib.Lawful) (depth : Nat) : (child : Elements D) →
    PlainElements child → child.isNil = false → (o q n levels : Nat) →
    bufferSkipWhitespace b (o + 1) = q →
    Holds b.content q (renderElements lib format depth child ++ [93]) →
    q + (renderElements lib format depth child).length + 1 ≤ b.length →
    (renderElements lib format depth child).length ≤ n →
    Yields (parseElements b (parseValue b lib levels) n o) (heightElements child ≤ levels)
      (normalElements lib child) (q + (renderElements lib format depth child).length + 1)
  | .nil, _, hne, _, _, _, _, _, _, _, _ => by cases hne
  | .cons item next, hplain, _, o, q, n, levels, hskip, h, hroom, hn => by
    have hlen : (renderElements lib format depth (.cons item next)).length =
        (render lib format depth item).length + (elementEnd format next.isNil).length +
          (renderElements lib format depth next).length := by
      simp only [renderElements, List.length_append]
    rw [hlen] at hroom hn ⊢
    obtain ⟨c, cs, hcons, -⟩ := render_begins format hlaw depth hplain.1
    have hpos : 0 < (render lib format depth item).length := by
      rw [hcons]
      exact Nat.succ_pos _
    obtain ⟨n, rfl⟩ : ∃ m, n = m + 1 := ⟨n - 1, by omega⟩
    rw [renderElements, List.append_assoc, List.append_assoc] at h
    obtain ⟨hitem, hrest⟩ := holds_append.mp h
    -- the character behind the element
    have hend : ∃ d, b.content (q + (render lib format depth item).length) = d ∧
        (d = 44 ∨ d = 93) := by
      cases next with
      | nil => exact ⟨93, hrest.1, .inr rfl⟩
      | cons _ _ =>
        cases format with
        | false => exact ⟨44, hrest.1, .inl rfl⟩
        | true => exact ⟨44, hrest.1, .inl rfl⟩
    obtain ⟨d, hchar, hd⟩ := hend
    have hother : isNumberChar d = false ∧ 32 < d := by
      rcases hd with rfl | rfl <;> decide
    have hvalue := parseValue_render hlaw depth item hplain.1 q levels hitem (by omega)
      (by rw [hchar]; exact hother.1)
    have hstay : bufferSkipWhitespace b (q + (render lib format depth item).length) =
        q + (render lib format depth item).length :=
      skip_self (by omega) (hchar ▸ hother.2)
    have hmax : heightElements (.cons item next) ≤ levels ↔
        height item ≤ levels ∧ heightElements next ≤ levels := Nat.max_le
    rw [parseElements, hskip]
    by_cases hfits : height item ≤ levels
    · rw [hvalue.1 hfits]
      simp only [hstay]
      cases hnil : next.isNil with
      | true =>
        cases next with
        | cons _ _ => cases hnil
        | nil =>
          have hbracket : b.isAt (q + (render lib format depth item).length) 93 :=
            ⟨by omega, hrest.1⟩
          rw [if_neg (not_isAt hrest.1 (by decide)), if_pos hbracket]
          exact yields_of_eq rfl (hmax.mpr ⟨hfits, Nat.zero_le levels⟩)
      | false =>
        rw [hnil] at hrest hroom hn
        have hbegins := (renderElements_begins format hlaw depth hplain.2 hnil).append [93]
        have hlong : (elementEnd format false).length = 1 ∨ (elementEnd format false).length = 2 := by
          cases format with
          | false => exact .inl rfl
          | true => exact .inr rfl
        obtain ⟨hcomma, hnext⟩ := skip_elementEnd hbegins hrest (by omega)
        have hback := parseElements_render hlaw depth next hplain.2 hnil _ _ n levels hnext
          (holds_append.mp hrest).2 (by omega) (by omega)
        rw [if_pos hcomma]
        have hsum : q + ((render lib format depth item).length + (elementEnd format false).length +
            (renderElements lib format depth next).length) + 1 =
              q + (render lib format depth item).length + (elementEnd format false).length +
                (renderElements lib format depth next).length + 1 := by omega
        rw [hsum]
        exact (hback.map _).congr (hmax.trans (and_iff_right hfits))
    · obtain ⟨p, hp⟩ := hvalue.2 hfits
      rw [hp]
      exact ⟨fun h => absurd (hmax.mp h).1 hfits, fun _ => ⟨p, rfl⟩⟩

theorem parseMembers_render (hlaw : lib.Lawful) (depth outer : Nat) : (child : Members D) →
    PlainMembers child → child.isNil = false → (o q n levels : Nat) →
    bufferSkipWhitespace b (o + 1) = bufferSkipWhitespace b q →
    Holds b.content q (renderMembers lib format depth child ++ (indent format outer ++ [125])) →
    q + (renderMembers lib format depth child).length + (indent format outer).length + 1 ≤ b.length →
    (renderMembers lib format depth child).length ≤ n →
    Yields (parseMembers b (parseValue b lib levels) n o) (heightMembers child ≤ levels)
      (normalMembers lib child)
      (q + (renderMembers lib format depth child).length + (indent format outer).length + 1)
  | .nil, _, hne, _, _, _, _, _, _, _, _ => by cases hne
  | .cons string item next, hplain, _, o, q, n, levels, hskip, h, hroom, hn => by
    have hlen : (renderMembers lib format depth (.cons string item next)).length =
        (indent format depth).length + (renderString string).length + (colon format).length +
          (render lib format depth item).length + (memberEnd format next.isNil).length +
            (renderMembers lib format depth next).length := by
      simp only [renderMembers, List.length_append]
    have hpos : 0 < (renderString string).length := by
      rw [renderString]
      exact Nat.succ_pos _
    rw [hlen] at hroom hn ⊢
    obtain ⟨n, rfl⟩ : ∃ m, n = m + 1 := ⟨n - 1, by omega⟩
    have hstart := hskip.trans
      (@skip_member _ _ _ _ _ _ _ (.cons string item next) _ rfl h (by rw [hlen]; omega)).1
    simp only [renderMembers, List.append_assoc] at h
    obtain ⟨hname, h⟩ := holds_append.mp (holds_append.mp h).2
    obtain ⟨hcolon, hvalue⟩ := holds_append.mp h
    obtain ⟨hitem, hrest⟩ := holds_append.mp hvalue
    have hstring := parseString_render hname (by omega)
    -- the colon and the value
    obtain ⟨hat, hstay, hbehind⟩ := skip_colon ((render_begins format hlaw depth hplain.1).append _) h
      (by omega)
    have hnext := member_next outer hrest (fun hlast => by
      cases next with
      | nil => rfl
      | cons _ _ _ => cases hlast)
    have hback := parseValue_render hlaw depth item hplain.1 _ levels hitem (by omega) hnext
    have hmax : heightMembers (.cons string item next) ≤ levels ↔
        height item ≤ levels ∧ heightMembers next ≤ levels := Nat.max_le
    have hcolonat := not_not_intro hat
    rw [parseMembers, hstart, hstring]
    simp only [hstay]
    rw [if_neg hcolonat, hbehind]
    by_cases hfits : height item ≤ levels
    · rw [hback.1 hfits]
      simp only
      cases hnil : next.isNil with
      | true =>
        cases next with
        | cons _ _ _ => cases hnil
        | nil =>
          -- white space up to the bracket
          have hall := hrest
          simp only [Members.isNil, renderMembers, List.nil_append] at hall
          rw [← List.append_assoc] at hall
          have hspace : ∀ c ∈ memberEnd format true ++ indent format outer, c ≤ 32 := by
            intro c hc
            rcases List.mem_append.mp hc with hc | hc
            · exact memberEnd_space c hc
            · exact indent_space outer c hc
          obtain ⟨hclose, hbracket⟩ := skip_close hspace hall (by
            rw [List.length_append]
            simp only [Members.isNil] at hroom
            omega)
          rw [hclose, if_neg (not_isAt hbracket.2 (by decide)), if_pos hbracket]
          refine yields_of_eq ?_ (hmax.mpr ⟨hfits, Nat.zero_le levels⟩)
          rw [normalMembers, normalMembers, List.length_append]
          congr 1
          simp only [renderMembers, List.length_nil]
          omega
      | false =>
        rw [hnil] at hrest hroom hn
        obtain ⟨hcomma, hcommastay, hafter⟩ := skip_memberEnd hrest (by omega)
        have hlong : 0 < (memberEnd format false).length := by
          rw [memberEnd]
          exact Nat.succ_pos _
        have htail := parseMembers_render hlaw depth outer next hplain.2 hnil _ _ n levels hafter
          (holds_append.mp hrest).2 (by omega) (by omega)
        rw [hcommastay, if_pos hcomma]
        have hsum : ∀ i j k l m r s : Nat, q + (i + j + k + l + m + r) + s + 1 =
            q + i + j + k + l + m + r + s + 1 := by
          intro i j k l m r s
          omega
        rw [hsum]
        exact (htail.map (Members.cons (cstring string) (normal lib item))).congr
          (hmax.trans (and_iff_right hfits))
    · obtain ⟨p, hp⟩ := hback.2 hfits
      rw [hp]
      exact ⟨fun h => absurd (hmax.mp h).1 hfits, fun _ => ⟨p, rfl⟩⟩

end

end Back

/-! ## The round trip -/

section RoundTrip
variable {D : Type} {lib : Doubles D} [DecidableEq D]

theorem holds_memory (text rest : List UInt8) :
    Holds (fun i => (text ++ rest).getD i 0) 0 text := by
  refine holds_iff.mpr fun k hk => ?_
  have hleft : (text ++ rest)[k]? = some text[k] := by
    rw [List.getElem?_append_left hk, List.getElem?_eq_getElem hk]
  rw [Nat.zero_add, List.getD_eq_getElem?_getD, hleft, Option.getD_some]

/-- The text of an item in memory is read back. -/
theorem parse_render (hlaw : lib.Lawful) (format requireNul : Bool) {item : Item D}
    (hplain : Plain item) (rest : List UInt8) :
    (height item ≤ nestingLimit →
      cJsonParseWithOpts lib (render lib format 0 item ++ 0 :: rest) requireNul =
        .ok (normal lib item, (render lib format 0 item).length)) ∧
      (nestingLimit < height item → ∃ position,
        cJsonParseWithOpts lib (render lib format 0 item ++ 0 :: rest) requireNul =
          .error position) := by
  have hnul := render_ne_zero format hlaw 0 item
  obtain ⟨c, cs, hcons, hspace, -, hmark⟩ := render_begins format hlaw 0 hplain
  generalize htext : render lib format 0 item = text at *
  let b := ParseBuffer.ofMemory (text ++ 0 :: rest)
  have hlength : b.length = text.length + 1 := by
    show (cstring (text ++ 0 :: rest)).length + 1 = _
    rw [cstring_nul, ← List.append_nil text, cstring_append hnul]
    rfl
  have hholds : Holds b.content 0 (text ++ [0]) := by
    have hmemory := holds_memory (text ++ [0]) rest
    rw [List.append_assoc] at hmemory
    exact hmemory
  obtain ⟨hall, hend, -⟩ := holds_append.mp hholds
  rw [Nat.zero_add] at hend
  have hfirst : b.content 0 = c := by
    rw [hcons] at hall
    exact hall.1
  have hbom : skipUtf8Bom b = 0 := if_neg fun h => hmark (hfirst.symm.trans h.2.1)
  have hskip : bufferSkipWhitespace b 0 = 0 := skip_self (by omega) (hfirst ▸ hspace)
  have hback : Yields (parseValue b lib nestingLimit 0) (height item ≤ nestingLimit)
      (normal lib item) (0 + (render lib format 0 item).length) := by
    refine parseValue_render hlaw 0 item hplain 0 nestingLimit ?_ ?_ ?_
    · rw [htext]
      exact hall
    · rw [htext]
      omega
    · rw [htext, Nat.zero_add, hend]
      decide
  rw [htext, Nat.zero_add] at hback
  rw [cJsonParseWithOpts, show skipUtf8Bom (ParseBuffer.ofMemory (text ++ 0 :: rest)) = 0 from hbom,
    show bufferSkipWhitespace (ParseBuffer.ofMemory (text ++ 0 :: rest)) 0 = 0 from hskip]
  constructor
  · intro hfits
    have hvalue := hback.1 hfits
    rw [hvalue, finishParse]
    cases requireNul with
    | false => rfl
    | true =>
      -- the NUL is gone over as white space, and gone back to
      have hle : b.content text.length ≤ 32 := by
        rw [hend]
        decide
      have hstay : bufferSkipWhitespace b text.length = text.length := by
        rw [skip_space (by omega) hle, ← hlength]
        simp [bufferSkipWhitespace, skipSpaces, hlength]
      have hfound : ¬ (b.length ≤ text.length ∨ b.content text.length ≠ 0) := by
        rw [not_or, not_not]
        exact ⟨by omega, hend⟩
      simp only [if_true]
      rw [hstay, if_neg hfound]
  · intro hdeep
    obtain ⟨p, hp⟩ := hback.2 (Nat.not_le.mpr hdeep)
    exact ⟨_, by rw [hp, finishParse]⟩

/-- **The round trip.** Whatever item without raw texts is printed, with or without format:
`cJSON_Parse` makes of the text the item again, up to what no text can say, and leaves off where the
text ends, also where it is told to look for the NUL. It rejects the text exactly if the item is
nested more deeply than the parser allows. -/
theorem print_parse (hlaw : lib.Lawful) (heap : Heap) (format requireNul : Bool) {item : Item D}
    (hplain : Plain item) {printed : List UInt8} (h : print lib heap format item = some printed)
    (rest : List UInt8) :
    (height item ≤ nestingLimit → cJsonParseWithOpts lib (printed ++ rest) requireNul =
      .ok (normal lib item, printed.length - 1)) ∧
      (nestingLimit < height item →
        ∃ position, cJsonParseWithOpts lib (printed ++ rest) requireNul = .error position) := by
  have htext := print_some hlaw h
  subst htext
  rw [List.append_assoc, List.length_append, List.length_singleton, Nat.add_sub_cancel]
  exact parse_render hlaw format requireNul hplain rest

/-- A list, with something behind its NUL. -/
theorem print_parse_list :
    cJsonParseWithOpts naturals (ascii "[7,null]" ++ [0] ++ [65]) true =
      .ok (.array (.cons (.number 7) (.cons .null .nil)), 8) := by
  have hprint : print naturals ⟨false, fun _ => some fun _ => 0⟩ false
      (.array (.cons (.number 7) (.cons .null .nil))) = some (ascii "[7,null]" ++ [0]) := by
    decide +kernel
  have hplain : Plain (.array (.cons (.number 7) (.cons .null .nil)) : Item Nat) :=
    ⟨trivial, trivial, trivial⟩
  exact (print_parse naturals_lawful _ false true hplain hprint [65]).1 (by decide)

/-- A raw text need not be one of an item. -/
example : print naturals ⟨false, fun _ => some fun _ => 0⟩ false (.raw [91]) = some [91, 0] ∧
    cJsonParse naturals [91, 0] = none :=
  ⟨by decide +kernel, rfl⟩

end RoundTrip

end IBoxClient.Cjson
