import Mathlib.Data.List.GetD
import IBoxClient.CjsonParsed
import IBoxClient.Lib.Longest

/- `cJSON_Parse` takes the longest text that it can.

   The parser looks at nothing behind the NUL (`parse_cstring`), and leaves off in front of it or
   at it (`parse_end`). Before it, what a value takes does not depend on what stands behind, but for
   a number, which may go on there: two texts that agree up to the end of a value are parsed alike
   up to there (`Agree.parseValue`). So the parser takes the longest prefix that it would take as a
   whole (`cJsonParse_longest`), and what is written in brackets or quotes is parsed the same
   whatever stands behind it (`parse_bracketed`). -/
namespace IBoxClient.Cjson

open Bytes Memory

/-! ## Strings that agree -/

section Congr
variable {b b' : ParseBuffer} {o p e k n : Nat}

theorem parseHex4_congr (h : ∀ i, p ≤ i → i < p + 4 → b'.content i = b.content i) :
    parseHex4 b' p = parseHex4 b p := by
  simp only [parseHex4, h p (by omega) (by omega), h (p + 1) (by omega) (by omega),
    h (p + 2) (by omega) (by omega), h (p + 3) (by omega) (by omega)]

theorem utf16LiteralToUtf8_congr (h : ∀ i < e, b'.content i = b.content i) :
    utf16LiteralToUtf8 b' p e = utf16LiteralToUtf8 b p e := by
  unfold utf16LiteralToUtf8
  by_cases hshort : e - p < 6
  · rw [if_pos hshort, if_pos hshort]
  · have hfirst : parseHex4 b' (p + 2) = parseHex4 b (p + 2) :=
      parseHex4_congr fun i _ hlt => h i (by omega)
    rw [if_neg hshort, if_neg hshort, hfirst]
    by_cases hshort' : e - (p + 6) < 6
    · simp only [if_pos hshort']
    · have hsecond : parseHex4 b' (p + 8) = parseHex4 b (p + 8) :=
        parseHex4_congr fun i _ hlt => h i (by omega)
      rw [hsecond, h (p + 6) (by omega), h (p + 7) (by omega)]

theorem writeRound_congr (h : ∀ i ≤ e, b'.content i = b.content i) (hp : p < e) :
    writeRound b' p e = writeRound b p e := by
  unfold writeRound
  rw [h p (by omega), h (p + 1) (by omega), utf16LiteralToUtf8_congr fun i hi => h i (by omega)]

/-- What is written for a string depends on nothing behind its end. -/
theorem writeString_congr (h : ∀ i ≤ e, b'.content i = b.content i) :
    writeString b' e n p = writeString b e n p := by
  induction n generalizing p with
  | zero => rfl
  | succ n ih =>
    rw [writeString, writeString]
    by_cases hp : p < e
    · rw [if_pos hp, if_pos hp, writeRound_congr h hp]
      cases writeRound b p e with
      | none => rfl
      | some r => simp only [ih]
    · rw [if_neg hp, if_neg hp]

end Congr

/-! ## Behind the NUL -/

/-- Two buffers hold the same. -/
structure Same (b b' : ParseBuffer) : Prop where
  ended : NulEnded b
  length : b'.length = b.length
  content : ∀ i < b.length, b'.content i = b.content i

section Same
variable {b b' : ParseBuffer} {o n e : Nat} {D : Type} {lib : Doubles D}
  {value : Nat → Parsed (Item D)}

theorem Same.isAt (h : Same b b') (o : Nat) (c : UInt8) : b'.isAt o c ↔ b.isAt o c := by
  unfold ParseBuffer.isAt
  rw [h.length]
  refine and_congr_right fun ho => ?_
  rw [h.content o ho]

theorem Same.reads (h : Same b b') (o : Nat) (text : List UInt8) :
    b'.reads o text ↔ b.reads o text := by
  unfold ParseBuffer.reads
  rw [h.length]
  refine and_congr_right fun ho => ?_
  rw [holds_iff, holds_iff]
  refine forall_congr' fun k => forall_congr' fun hk => ?_
  rw [h.content (o + k) (by omega)]

theorem Same.skipSpaces (h : Same b b') (n o : Nat) : skipSpaces b' n o = skipSpaces b n o := by
  induction n generalizing o with
  | zero => rfl
  | succ n ih =>
    rw [Cjson.skipSpaces, Cjson.skipSpaces, h.length, ih]
    by_cases ho : o < b.length
    · rw [h.content o ho]
    · rw [if_neg fun hspace => ho hspace.1, if_neg fun hspace => ho hspace.1]

theorem Same.skip (h : Same b b') (o : Nat) :
    bufferSkipWhitespace b' o = bufferSkipWhitespace b o := by
  simp only [bufferSkipWhitespace, h.length, h.skipSpaces]

theorem skip_lt (hb : NulEnded b) (ho : o ≤ b.length) : bufferSkipWhitespace b o < b.length := by
  have hle : ∀ n o, o ≤ b.length → skipSpaces b n o ≤ b.length := by
    intro n
    induction n with
    | zero => exact fun o ho => ho
    | succ n ih =>
      intro o ho
      rw [skipSpaces]
      split_ifs with hspace
      · exact ih (o + 1) hspace.1
      · exact ho
  have hstop := hle (b.length - o) o ho
  have hpos := hb.1
  simp only [bufferSkipWhitespace]
  split_ifs with hend
  · omega
  · omega

theorem Same.numberChars (h : Same b b') (n o : Nat) :
    numberChars b' n o = numberChars b n o := by
  induction n generalizing o with
  | zero => rfl
  | succ n ih =>
    rw [Cjson.numberChars, Cjson.numberChars, h.length, ih]
    by_cases ho : o < b.length
    · rw [h.content o ho]
    · rw [if_neg fun hchar => ho hchar.1, if_neg fun hchar => ho hchar.1]

theorem Same.parseNumber (h : Same b b') (lib : Doubles D) (o : Nat) :
    parseNumber b' lib o = parseNumber b lib o := by
  simp only [Cjson.parseNumber, h.numberChars]

theorem Same.scanString (h : Same b b') (n o : Nat) : scanString b' n o = scanString b n o := by
  induction n generalizing o with
  | zero => rfl
  | succ n ih =>
    rw [Cjson.scanString, Cjson.scanString, h.length, ih, ih]
    by_cases ho : o < b.length
    · rw [h.content o ho]
    · simp only [ho, Nat.not_lt.mp ho, false_and, true_or, if_false, if_true]

theorem Same.parseString (h : Same b b') (ho : o < b.length) :
    parseString b' o = parseString b o := by
  rw [Cjson.parseString, Cjson.parseString, h.content o ho, h.length, h.scanString]
  cases hscan : Cjson.scanString b (b.length - o) (o + 1) with
  | none => rfl
  | some r =>
    obtain ⟨e, k⟩ := r
    have hend := (scans_of_scanString hscan).le.2
    have hwrite : writeString b' e (e - o) (o + 1) = writeString b e (e - o) (o + 1) :=
      writeString_congr fun i hi => h.content i (by omega)
    simp only [hwrite]

theorem Same.parseElements (h : Same b b') (n o : Nat) :
    parseElements b' value n o = parseElements b value n o := by
  induction n generalizing o with
  | zero => rfl
  | succ n ih => simp only [Cjson.parseElements, h.skip, h.isAt, ih]

theorem Same.parseArray (h : Same b b') (ho : o < b.length) :
    parseArray b' value o = parseArray b value o := by
  simp only [Cjson.parseArray, h.content o ho, h.skip, h.isAt, h.length, h.parseElements]

theorem Same.parseMembers (h : Same b b') (n : Nat) (ho : o < b.length) :
    parseMembers b' value n o = parseMembers b value n o := by
  induction n generalizing o with
  | zero => rfl
  | succ n ih =>
    have hname := h.parseString (skip_lt (o := o + 1) h.ended ho)
    simp only [Cjson.parseMembers, h.skip, hname, h.isAt]
    cases Cjson.parseString b (bufferSkipWhitespace b (o + 1)) with
    | fail p => rfl
    | ok string p =>
      simp only
      cases value (bufferSkipWhitespace b (bufferSkipWhitespace b p + 1)) with
      | fail q => rfl
      | ok item q =>
        simp only
        by_cases hcomma : b.isAt (bufferSkipWhitespace b q) 44
        · rw [if_pos hcomma, if_pos hcomma, ih hcomma.1]
        · rw [if_neg hcomma, if_neg hcomma]

theorem Same.parseObject (h : Same b b') (ho : o < b.length) :
    parseObject b' value o = parseObject b value o := by
  have hstart := skip_lt (o := o + 1) h.ended ho
  have hmembers : Cjson.parseMembers b' value b.length (bufferSkipWhitespace b (o + 1) - 1) =
      Cjson.parseMembers b value b.length (bufferSkipWhitespace b (o + 1) - 1) :=
    h.parseMembers b.length (Nat.lt_of_le_of_lt (Nat.sub_le _ 1) hstart)
  simp only [Cjson.parseObject, h.skip, h.isAt, h.length, hmembers]

theorem Same.parseValueWith (h : Same b b') (lib : Doubles D)
    (nested : Option (Nat → Parsed (Item D))) (o : Nat) :
    parseValueWith b' lib nested o = parseValueWith b lib nested o := by
  rw [parseValueWith.eq_def, parseValueWith.eq_def]
  simp only [h.reads, h.isAt, h.parseNumber, h.length]
  by_cases ho : o < b.length
  · simp only [h.content o ho, h.parseString ho, h.parseArray ho, h.parseObject ho]
  · have hnot : ∀ c, ¬ b.isAt o c := fun c hat => ho hat.1
    simp only [hnot, ho, false_and, or_self, if_false]

theorem Same.parseValue (h : Same b b') (lib : Doubles D) (levels : Nat) :
    parseValue b' lib levels = parseValue b lib levels := by
  induction levels with
  | zero => exact funext fun o => h.parseValueWith lib none o
  | succ levels ih =>
    funext o
    rw [Cjson.parseValue, Cjson.parseValue, ih]
    exact h.parseValueWith lib _ o

theorem Same.skipUtf8Bom (h : Same b b') : skipUtf8Bom b' = skipUtf8Bom b := by
  unfold Cjson.skipUtf8Bom
  rw [h.length]
  by_cases hlong : 4 < b.length
  · have hmark : Holds b'.content 0 [0xEF, 0xBB, 0xBF] ↔ Holds b.content 0 [0xEF, 0xBB, 0xBF] := by
      simp only [Holds, h.content 0 (by omega), h.content 1 (by omega), h.content 2 (by omega)]
    simp only [hmark]
  · rw [if_neg fun hin => hlong hin.1, if_neg fun hin => hlong hin.1]

theorem Same.finishParse (h : Same b b') (requireNul : Bool) (r : Parsed (Item D)) :
    finishParse b' requireNul r = finishParse b requireNul r := by
  have hposition : ∀ p, b'.position p = b.position p := by
    intro p
    rw [ParseBuffer.position, ParseBuffer.position, h.length]
  cases r with
  | fail p => rw [Cjson.finishParse, Cjson.finishParse, hposition]
  | ok item p =>
    simp only [Cjson.finishParse, h.skip, h.length, hposition]
    by_cases hin : bufferSkipWhitespace b p < b.length
    · rw [h.content _ hin]
    · simp only [Nat.not_lt.mp hin, true_or]

end Same

theorem same_cstring (memory : List UInt8) :
    Same (ParseBuffer.ofMemory (cstring memory ++ [0])) (ParseBuffer.ofMemory memory) := by
  have hstring : cstring (cstring memory ++ [0]) = cstring memory := by
    rw [cstring_nul, cstring_cstring]
  refine ⟨nulEnded_ofMemory _, ?_, fun i hi => ?_⟩
  · show (cstring memory).length + 1 = (cstring (cstring memory ++ [0])).length + 1
    rw [hstring]
  · show memory.getD i 0 = (cstring memory ++ [0]).getD i 0
    have hi : i < (cstring memory).length + 1 := by
      rw [← hstring]
      exact hi
    rcases Nat.lt_succ_iff_lt_or_eq.mp hi with hlt | rfl
    · have hfront : (cstring memory ++ memory.dropWhile (· ≠ 0)).getD i 0 = (cstring memory).getD i 0 :=
        List.getD_append _ _ _ _ hlt
      rw [cstring, List.takeWhile_append_dropWhile] at hfront
      rw [hfront, List.getD_append _ _ _ _ hlt]
      rfl
    · have hend : memory.getD (cstring memory).length 0 = 0 := (nulEnded_ofMemory memory).2
      rw [hend, List.getD_append_right _ _ _ _ (Nat.le_refl _), Nat.sub_self]
      rfl

theorem cJsonParseWithOpts_same {D : Type} (lib : Doubles D) {memory memory' : List UInt8}
    (h : Same (ParseBuffer.ofMemory memory) (ParseBuffer.ofMemory memory')) (requireNul : Bool) :
    cJsonParseWithOpts lib memory' requireNul = cJsonParseWithOpts lib memory requireNul := by
  rw [cJsonParseWithOpts, cJsonParseWithOpts]
  simp only [h.skipUtf8Bom, h.skip, h.parseValue, h.finishParse]

/-- **Nothing behind the NUL is looked at**, whatever the text is: the parser yields the same value
and the same end, or fails at the same position, as for the string alone. -/
theorem parse_cstring {D : Type} (lib : Doubles D) (memory : List UInt8) (requireNul : Bool) :
    cJsonParseWithOpts lib memory requireNul =
      cJsonParseWithOpts lib (cstring memory ++ [0]) requireNul :=
  cJsonParseWithOpts_same lib (same_cstring memory) requireNul

theorem position_le {b : ParseBuffer} (hb : NulEnded b) (p : Nat) : b.position p ≤ b.length - 1 := by
  have hpos := hb.1
  unfold ParseBuffer.position
  split_ifs <;> omega

/-- **Where a parse ends.** Whatever is in memory: the end that is handed out, and the position of an
error, are in the string or at its NUL; and if the NUL is asked for, success means that the end is
there. -/
theorem parse_end {D : Type} {lib : Doubles D} (hlaw : lib.Lawful) (memory : List UInt8)
    (requireNul : Bool) :
    (∀ item e, cJsonParseWithOpts lib memory requireNul = .ok (item, e) →
      e ≤ (cstring memory).length ∧ (requireNul = true → e = (cstring memory).length)) ∧
      ∀ p, cJsonParseWithOpts lib memory requireNul = .error p → p ≤ (cstring memory).length := by
  have hb := nulEnded_ofMemory memory
  have hlength : (ParseBuffer.ofMemory memory).length = (cstring memory).length + 1 := rfl
  have hposition : ∀ p, (ParseBuffer.ofMemory memory).position p ≤ (cstring memory).length :=
    fun p => position_le hb p
  have hcontent : ∀ i < (cstring memory).length, (ParseBuffer.ofMemory memory).content i ≠ 0 := by
    intro i hi hzero
    have hsame := (same_cstring memory).content i (by
      rw [← (same_cstring memory).length]
      exact Nat.lt_succ_of_lt hi)
    have hfront : (cstring memory ++ [0]).getD i 0 = (cstring memory)[i] := by
      rw [List.getD_append _ _ _ _ hi, List.getD_eq_getElem _ _ hi]
    have hchar : (cstring memory)[i] = 0 := hfront.symm.trans (hsame.symm.trans hzero)
    exact cstring_ne_zero (List.getElem_mem hi) hchar
  unfold cJsonParseWithOpts
  simp only
  generalize ParseBuffer.ofMemory memory = b at *
  cases hvalue : parseValue b lib nestingLimit (bufferSkipWhitespace b (skipUtf8Bom b)) with
  | fail p =>
    refine ⟨fun item e h => ?_, fun q h => ?_⟩
    · cases h
    · cases h
      exact hposition p
  | ok v p =>
    have hinside := (parseValue_taken hb hlaw hvalue).inside
    cases requireNul with
    | false =>
      refine ⟨fun item e h => ?_, fun q h => ?_⟩
      · cases h
        exact ⟨by omega, fun h => by cases h⟩
      · cases h
    | true =>
      have hskip := skip_lt hb (Nat.le_of_lt hinside)
      simp only [finishParse, if_true]
      split_ifs with hnot
      · refine ⟨fun item e h => ?_, fun q h => ?_⟩
        · cases h
        · cases h
          exact hposition _
      · rw [not_or, not_not] at hnot
        refine ⟨fun item e h => ?_, fun q h => ?_⟩
        · cases h
          have hend : bufferSkipWhitespace b p = (cstring memory).length := by
            by_contra hne
            exact hcontent _ (by omega) hnot.2
          exact ⟨Nat.le_of_eq hend, fun _ => hend⟩
        · cases h

/-- The list is taken, and the error is at what follows it. -/
theorem parse_end_list :
    cJsonParseWithOpts naturals (ascii "[7] 8") true = .error 4 ∧
      4 ≤ (cstring (ascii "[7] 8")).length := by
  have herror : cJsonParseWithOpts naturals (ascii "[7] 8") true = .error 4 := rfl
  exact ⟨herror, (parse_end naturals_lawful (ascii "[7] 8") true).2 4 herror⟩

/-! ## Up to the end of a value -/

/-- Two buffers hold the same up to an offset that is in both of them. -/
structure Agree (b b' : ParseBuffer) (e : Nat) : Prop where
  ended : NulEnded b
  ended' : NulEnded b'
  left : e < b.length
  right : e < b'.length
  same : ∀ i < e, b'.content i = b.content i

section Agree
variable {b b' : ParseBuffer} {o p e r k n m levels : Nat} {c : UInt8} {D : Type} {lib : Doubles D}

theorem Agree.symm (h : Agree b b' e) : Agree b' b e :=
  ⟨h.ended', h.ended, h.right, h.left, fun i hi => (h.same i hi).symm⟩

theorem Agree.isAt (h : Agree b b' e) (ho : o < e) (hat : b.isAt o c) : b'.isAt o c :=
  ⟨Nat.lt_trans ho h.right, (h.same o ho).trans hat.2⟩

theorem Agree.reads (h : Agree b b' e) {text : List UInt8} (ho : o + text.length ≤ e)
    (hreads : b.reads o text) : b'.reads o text := by
  refine ⟨Nat.le_trans ho (Nat.le_of_lt h.right), holds_iff.mpr fun k hk => ?_⟩
  rw [h.same (o + k) (by omega)]
  exact holds_iff.mp hreads.2 k hk

theorem Agree.skip (h : Agree b b' e) (hskip : bufferSkipWhitespace b o = r) (hr : r < e)
    (hchar : 32 < b.content r) : bufferSkipWhitespace b' o = r := by
  obtain ⟨hle, hspaces⟩ := (skip_iff h.ended (Nat.lt_trans hr h.left) hchar).mp hskip
  refine (skip_iff h.ended' (Nat.lt_trans hr h.right) ?_).mpr ⟨hle, fun i hoi hir => ?_⟩
  · rw [h.same r hr]
    exact hchar
  · rw [h.same i (by omega)]
    exact hspaces i hoi hir

/-- White space is skipped for the same character. -/
theorem Agree.skipTo (h : Agree b b' e) (hat : b.isAt (bufferSkipWhitespace b o) c) (hc : 32 < c)
    (hr : bufferSkipWhitespace b o < e) :
    bufferSkipWhitespace b' o = bufferSkipWhitespace b o ∧
      b'.isAt (bufferSkipWhitespace b' o) c := by
  have hskip := h.skip rfl hr (hat.2.symm ▸ hc)
  rw [hskip]
  exact ⟨rfl, h.isAt hr hat⟩

theorem Agree.scans (h : Agree b b' e) (hr : r < e) (hscans : Scans b r p k) :
    Scans b' r p k := by
  induction hscans with
  | done hin hend => exact .done (Nat.lt_trans hr h.right) ((h.same r hr).trans hend)
  | @escape p k hin hchar hrest ih =>
    have hle := hrest.le
    have hright := h.right
    exact .escape (by omega) ((h.same p (by omega)).trans hchar) ih
  | @plain p k hin hquote hchar hrest ih =>
    have hle := hrest.le
    have hright := h.right
    have hsame := h.same p (by omega)
    refine .plain (by omega) ?_ ?_ ih
    · rw [hsame]
      exact hquote
    · rw [hsame]
      exact hchar

theorem Agree.parseString (h : Agree b b' e) {s : List UInt8} (hle : p ≤ e)
    (hs : parseString b o = .ok s p) : parseString b' o = .ok s p := by
  obtain ⟨hquote, q, k, output, hscan, hwrite, rfl, rfl⟩ := parseString_iff.mp hs
  have hscans := scans_of_scanString hscan
  have hin := hscans.le
  have hright := h.right
  have hback := (h.scans (by omega) hscans).scan (n := b'.length - o) (by omega)
  have hsame : writeString b' q (q - o) (o + 1) = writeString b q (q - o) (o + 1) :=
    writeString_congr fun i hi => h.same i (by omega)
  exact parseString_iff.mpr
    ⟨(h.same o (by omega)).trans hquote, q, k, output, hback, hsame.trans hwrite, rfl, rfl⟩

/-- The characters of a number that is followed by something else. -/
theorem Agree.numberChars (h : Agree b b' e) (hlt : o + (numberChars b n o).length < e) :
    numberChars b' n o = numberChars b n o := by
  induction n generalizing o with
  | zero => rfl
  | succ n ih =>
    have hleft := h.left
    have hright := h.right
    have ho : o < e := by omega
    rw [Cjson.numberChars, Cjson.numberChars, h.same o ho]
    rw [Cjson.numberChars] at hlt
    by_cases hchar : isNumberChar (b.content o) = true
    · rw [if_pos ⟨by omega, hchar⟩, List.length_cons] at hlt
      rw [if_pos ⟨by omega, hchar⟩, if_pos ⟨by omega, hchar⟩, ih (by omega)]
    · rw [if_neg fun hin => hchar hin.2, if_neg fun hin => hchar hin.2]

theorem length_numberChars_le (hplain : isNumberChar (b.content (o + k)) = false) :
    (numberChars b n o).length ≤ k := by
  induction n generalizing o k with
  | zero => exact Nat.zero_le k
  | succ n ih =>
    rw [Cjson.numberChars]
    split_ifs with hchar
    · cases k with
      | zero =>
        rw [Nat.add_zero, hchar.2] at hplain
        cases hplain
      | succ k =>
        have hsum : o + (k + 1) = o + 1 + k := by omega
        rw [hsum] at hplain
        exact Nat.succ_le_succ (ih hplain)
    · exact Nat.zero_le k

theorem Agree.parseNumber (h : Agree b b' e) {d : D} (hlt : p < e)
    (hplain : isNumberChar (b.content p) = false) (hd : parseNumber b lib o = .ok d p) :
    parseNumber b' lib o = .ok d p := by
  have hp : p = o + (lib.strtod (Cjson.numberChars b 63 o)).2 := by
    simp only [Cjson.parseNumber] at hd
    split_ifs at hd
    cases hd
    rfl
  have hshort : (Cjson.numberChars b 63 o).length ≤ p - o := by
    refine length_numberChars_le ?_
    rw [Nat.add_sub_cancel' (by omega)]
    exact hplain
  rw [← hd]
  simp only [Cjson.parseNumber, h.numberChars (n := 63) (o := o) (by omega)]

/-- Behind an item in brackets there is no character of a number. -/
theorem plain_behind (hb : NulEnded b) (hat : b.isAt (bufferSkipWhitespace b p) c) (hc : 32 < c)
    (hplain : isNumberChar c = false) : isNumberChar (b.content p) = false := by
  have hchar : 32 < b.content (bufferSkipWhitespace b p) := hat.2.symm ▸ hc
  obtain ⟨hle, hspaces⟩ := (skip_iff hb hat.1 hchar).mp rfl
  rcases Nat.eq_or_lt_of_le hle with heq | hlt
  · rw [← heq] at hat
    rw [hat.2]
    exact hplain
  · have hspace := hspaces p (Nat.le_refl p) hlt
    have hsmall : ∀ k < 33, isNumberChar (UInt8.ofNat k) = false := by decide
    have hback := hsmall (b.content p).toNat (Nat.lt_succ_of_le (UInt8.le_iff_toNat_le.mp hspace))
    rw [UInt8.ofNat_toNat] at hback
    exact hback

/-- A value that is no number, or that something else follows, is parsed alike. -/
def Alike (b : ParseBuffer) (e : Nat) (value value' : Nat → Parsed (Item D)) : Prop :=
  ∀ o v p, value o = .ok v p → p ≤ e →
    (∀ d, v = .number d → p < e ∧ isNumberChar (b.content p) = false) → value' o = .ok v p

/-- What is found behind white space is found at once. -/
theorem skip_skip (hb : NulEnded b) (hin : bufferSkipWhitespace b (bufferSkipWhitespace b o) < b.length)
    (hchar : 32 < b.content (bufferSkipWhitespace b (bufferSkipWhitespace b o))) :
    bufferSkipWhitespace b o = bufferSkipWhitespace b (bufferSkipWhitespace b o) := by
  obtain ⟨hle, hspaces⟩ := (skip_iff hb hin hchar).mp rfl
  have hmore := hb.lt hin (ne_zero_of_printed hchar)
  generalize bufferSkipWhitespace b (bufferSkipWhitespace b o) = r at *
  refine (skip_iff hb hin hchar).mpr ?_
  obtain ⟨hfirst, hfirsts⟩ := skipSpaces_spec b (b.length - o) o
  simp only [bufferSkipWhitespace] at hle hspaces
  split_ifs at hle hspaces with hend
  · omega
  · refine ⟨by omega, fun i hoi hir => ?_⟩
    rcases Nat.lt_or_ge i (skipSpaces b (b.length - o) o) with hlt | hge
    · exact hfirsts i hoi hlt
    · exact hspaces i hge hir

section Nested
variable {value value' : Nat → Parsed (Item D)}

theorem parseElements_begun (hb : NulEnded b)
    (htaken : ∀ o v o', value o = .ok v o' → Taken b o o') {vs : Elements D}
    (hvs : parseElements b value n o = .ok vs p) : Taken b (bufferSkipWhitespace b (o + 1)) p := by
  cases n with
  | zero => cases hvs
  | succ n =>
    obtain ⟨item, q, hitem, hrest⟩ := parseElements_iff.mp hvs
    have hbegun := htaken _ _ _ hitem
    have honward := hbegun.onward
    have hin := (parseElements_onward hb htaken hvs).2
    rcases hrest with ⟨hcomma, next, -, hnext⟩ | ⟨hclose, -, rfl⟩
    · have hq := skip_isAt hb hcomma (by decide)
      have hmore := parseElements_onward hb htaken hnext
      exact ⟨hbegun.begun, by omega, hin⟩
    · have hq := skip_isAt hb hclose (by decide)
      exact ⟨hbegun.begun, by omega, hin⟩

theorem parseMembers_begun (hb : NulEnded b)
    (htaken : ∀ o v o', value o = .ok v o' → Taken b o o') {vs : Members D}
    (hvs : parseMembers b value n o = .ok vs p) : Taken b (bufferSkipWhitespace b (o + 1)) p := by
  cases n with
  | zero => cases hvs
  | succ n =>
    obtain ⟨string, item, q, q', hstring, hcolon, hitem, hrest⟩ := parseMembers_iff.mp hvs
    have hbegun := parseString_taken hb hstring
    have honward := hbegun.onward
    have hbetween := skip_isAt hb hcolon (by decide)
    have hvalue := htaken _ _ _ hitem
    have hbehind := hvalue.skip hb
    have hfurther := hvalue.onward
    have hin := (parseMembers_onward hb htaken hvs).2
    rcases hrest with ⟨hcomma, next, -, hnext⟩ | ⟨hclose, -, rfl⟩
    · have hq := skip_isAt hb hcomma (by decide)
      have hmore := parseMembers_onward hb htaken hnext
      exact ⟨hbegun.begun, by omega, hin⟩
    · have hq := skip_isAt hb hclose (by decide)
      exact ⟨hbegun.begun, by omega, hin⟩

/-- Where the first item of an array or an object begins. -/
theorem Agree.start (h : Agree b b' e) (ho : o + 1 < b.length) (hle : p ≤ e)
    (hfirst : Taken b (bufferSkipWhitespace b (bufferSkipWhitespace b (o + 1) - 1 + 1)) p) :
    o + 1 ≤ bufferSkipWhitespace b (o + 1) ∧ bufferSkipWhitespace b (o + 1) < e ∧
      bufferSkipWhitespace b' (o + 1) = bufferSkipWhitespace b (o + 1) := by
  have hstart := le_skip ho
  have hback : bufferSkipWhitespace b (o + 1) - 1 + 1 = bufferSkipWhitespace b (o + 1) := by omega
  have hchar := hfirst.begun
  have honward := hfirst.onward
  rw [hback] at hchar honward
  have hself := skip_skip h.ended (Nat.lt_trans honward hfirst.inside) hchar
  rw [← hself] at hchar honward
  exact ⟨hstart, by omega, h.skip rfl (by omega) hchar⟩

variable (h : Agree b b' e) (halike : Alike b e value value')
  (htaken : ∀ o v o', value o = .ok v o' → Taken b o o')
include h halike htaken

/-- What stands behind an item is in both buffers. -/
theorem Agree.item {v : Item D} (hitem : value (bufferSkipWhitespace b o) = .ok v p)
    (hat : b.isAt (bufferSkipWhitespace b p) c) (hc : 32 < c) (hplain : isNumberChar c = false)
    (hr : bufferSkipWhitespace b p < e) :
    value' (bufferSkipWhitespace b' o) = .ok v p ∧
      bufferSkipWhitespace b' p = bufferSkipWhitespace b p ∧
      b'.isAt (bufferSkipWhitespace b' p) c := by
  have hbegun := htaken _ _ _ hitem
  have honward := hbegun.onward
  have hq := (skip_isAt h.ended hat hc).1
  have hfirst := h.skip rfl (by omega) hbegun.begun
  rw [hfirst]
  refine ⟨halike _ _ _ hitem (by omega) fun d _ => ⟨by omega, ?_⟩, h.skipTo hat hc hr⟩
  exact plain_behind h.ended hat hc hplain

theorem Agree.parseElements {vs : Elements D} (ho : o < e) (hle : p ≤ e) (hm : e - o ≤ m)
    (hvs : parseElements b value n o = .ok vs p) : parseElements b' value' m o = .ok vs p := by
  induction n generalizing o m vs with
  | zero => cases hvs
  | succ n ih =>
    obtain ⟨m, rfl⟩ : ∃ k, m = k + 1 := ⟨m - 1, by omega⟩
    obtain ⟨item, q, hitem, hrest⟩ := parseElements_iff.mp hvs
    have hbegun := htaken _ _ _ hitem
    have hstart := hbegun.skip h.ended
    have honward := hbegun.onward
    rcases hrest with ⟨hcomma, next, rfl, hnext⟩ | ⟨hclose, rfl, rfl⟩
    · have hmore := parseElements_onward h.ended htaken hnext
      have hq := skip_isAt h.ended hcomma (by decide)
      obtain ⟨hitem', hskip', hcomma'⟩ :=
        h.item halike htaken hitem hcomma (by decide) (by decide) (by omega)
      have hnext' := ih (m := m) (by omega) (by omega) hnext
      rw [← hskip'] at hnext'
      exact parseElements_iff.mpr ⟨item, q, hitem', .inl ⟨hcomma', next, rfl, hnext'⟩⟩
    · obtain ⟨hitem', hskip', hclose'⟩ :=
        h.item halike htaken hitem hclose (by decide) (by decide) (by omega)
      exact parseElements_iff.mpr ⟨item, q, hitem', .inr ⟨hclose', rfl, by rw [hskip']⟩⟩

theorem Agree.parseArray {v : Item D} (hat : b.isAt o 91) (hle : p ≤ e)
    (hv : parseArray b value o = .ok v p) : parseArray b' value' o = .ok v p := by
  have hopen : b.content o ≠ 0 := by
    rw [hat.2]
    decide
  have hnext := h.ended.lt hat.1 hopen
  have hright := h.right
  obtain ⟨hfirst, hrest⟩ := parseArray_iff.mp hv
  rcases hrest with ⟨rfl, hclose, rfl⟩ | ⟨hclose, -, vs, rfl, hvs⟩
  · have hstart := le_skip hnext
    obtain ⟨hskip', hclose'⟩ := h.skipTo hclose (by decide) (by omega)
    exact parseArray_iff.mpr ⟨(h.same o (by omega)).trans hfirst,
      .inl ⟨rfl, hclose', by rw [hskip']⟩⟩
  · obtain ⟨hstart, hlt, hskip'⟩ :=
      h.start hnext hle (parseElements_begun h.ended htaken hvs)
    have hvs' := h.parseElements halike htaken (m := b'.length) (by omega) hle (by omega) hvs
    have hclose' : ¬ b'.isAt (bufferSkipWhitespace b (o + 1)) 93 :=
      fun hat' => hclose (h.symm.isAt hlt hat')
    refine parseArray_iff.mpr ⟨(h.same o (by omega)).trans hfirst, .inr ?_⟩
    rw [hskip']
    exact ⟨hclose', by omega, vs, rfl, hvs'⟩

theorem Agree.parseMembers {vs : Members D} (ho : o < e) (hle : p ≤ e) (hm : e - o ≤ m)
    (hvs : parseMembers b value n o = .ok vs p) : parseMembers b' value' m o = .ok vs p := by
  induction n generalizing o m vs with
  | zero => cases hvs
  | succ n ih =>
    obtain ⟨m, rfl⟩ : ∃ k, m = k + 1 := ⟨m - 1, by omega⟩
    obtain ⟨string, item, q, q', hstring, hcolon, hitem, hrest⟩ := parseMembers_iff.mp hvs
    have hname := parseString_taken h.ended hstring
    have hbegin := hname.skip h.ended
    have honward := hname.onward
    have hbetween := skip_isAt h.ended hcolon (by decide)
    have hvalue := htaken _ _ _ hitem
    have hbehind := hvalue.skip h.ended
    have hfurther := hvalue.onward
    -- the name and the colon, for a member that ends in both buffers
    have hfront : q' ≤ e → Cjson.parseString b' (bufferSkipWhitespace b' (o + 1)) = .ok string q ∧
        bufferSkipWhitespace b' q = bufferSkipWhitespace b q ∧
          b'.isAt (bufferSkipWhitespace b' q) 58 := by
      intro hq'
      have hskip := h.skip rfl (by omega) hname.begun
      rw [hskip]
      exact ⟨h.parseString (by omega) hstring, h.skipTo hcolon (by decide) (by omega)⟩
    rcases hrest with ⟨hcomma, next, rfl, hnext⟩ | ⟨hclose, rfl, rfl⟩
    · have hmore := parseMembers_onward h.ended htaken hnext
      have hq := skip_isAt h.ended hcomma (by decide)
      obtain ⟨hstring', hskip', hcolon'⟩ := hfront (by omega)
      obtain ⟨hitem', hskip'', hcomma'⟩ :=
        h.item halike htaken hitem hcomma (by decide) (by decide) (by omega)
      rw [← hskip'] at hitem'
      have hnext' := ih (m := m) (by omega) (by omega) hnext
      rw [← hskip''] at hnext'
      exact parseMembers_iff.mpr
        ⟨string, item, q, q', hstring', hcolon', hitem', .inl ⟨hcomma', next, rfl, hnext'⟩⟩
    · have hq := skip_isAt h.ended hclose (by decide)
      obtain ⟨hstring', hskip', hcolon'⟩ := hfront (by omega)
      obtain ⟨hitem', hskip'', hclose'⟩ :=
        h.item halike htaken hitem hclose (by decide) (by decide) (by omega)
      rw [← hskip'] at hitem'
      exact parseMembers_iff.mpr ⟨string, item, q, q', hstring', hcolon', hitem',
        .inr ⟨hclose', rfl, by rw [hskip'']⟩⟩

theorem Agree.parseObject {v : Item D} (hle : p ≤ e) (hv : parseObject b value o = .ok v p) :
    parseObject b' value' o = .ok v p := by
  obtain ⟨hat, hrest⟩ := parseObject_iff.mp hv
  have hopen : b.content o ≠ 0 := by
    rw [hat.2]
    decide
  have hnext := h.ended.lt hat.1 hopen
  have hright := h.right
  rcases hrest with ⟨rfl, hclose, rfl⟩ | ⟨hclose, -, vs, rfl, hvs⟩
  · have hstart := le_skip hnext
    obtain ⟨hskip', hclose'⟩ := h.skipTo hclose (by decide) (by omega)
    exact parseObject_iff.mpr ⟨h.isAt (by omega) hat, .inl ⟨rfl, hclose', by rw [hskip']⟩⟩
  · obtain ⟨hstart, hlt, hskip'⟩ :=
      h.start hnext hle (parseMembers_begun h.ended htaken hvs)
    have hvs' := h.parseMembers halike htaken (m := b'.length) (by omega) hle (by omega) hvs
    have hclose' : ¬ b'.isAt (bufferSkipWhitespace b (o + 1)) 125 :=
      fun hat' => hclose (h.symm.isAt hlt hat')
    refine parseObject_iff.mpr ⟨h.isAt (by omega) hat, .inr ?_⟩
    rw [hskip']
    exact ⟨hclose', by omega, vs, rfl, hvs'⟩

end Nested

/-- How a value is parsed, from how those one level deeper are. -/
theorem Agree.parseValueWith (h : Agree b b' e) {nested nested' : Option (Nat → Parsed (Item D))}
    (hnested : ∀ value, nested = some value → ∃ value', nested' = some value' ∧
      Alike b e value value' ∧ ∀ o v o', value o = .ok v o' → Taken b o o') :
    Alike b e (parseValueWith b lib nested) (parseValueWith b' lib nested') := by
  intro o v p hv hle hnumber
  refine Succeeds.parse ?_
  cases parseValueWith_ok hv with
  | null hreads => exact .null (h.reads hle hreads)
  | false hreads => exact .false (h.reads hle hreads)
  | true hreads => exact .true (h.reads hle hreads)
  | string hat hs =>
    have honward := (parseString_taken h.ended hs).onward
    exact .string (h.isAt (by omega) hat) (h.parseString hle hs)
  | @number d p hat hd =>
    obtain ⟨hlt, hplain⟩ := hnumber d rfl
    have hright := h.right
    have ho : o < e := by
      simp only [Cjson.parseNumber] at hd
      split_ifs at hd
      cases hd
      omega
    refine .number ?_ (h.parseNumber hlt hplain hd)
    rw [h.same o ho]
    rcases hat with hminus | hdigit
    · exact .inl (h.isAt ho hminus)
    · exact .inr ⟨by omega, hdigit.2⟩
  | array hat heq hvs =>
    obtain ⟨value', heq', halike, htaken⟩ := hnested _ heq
    have honward := (parseArray_taken h.ended htaken hat hvs).onward
    exact .array (h.isAt (by omega) hat) heq' (h.parseArray halike htaken hat hle hvs)
  | object hat heq hvs =>
    obtain ⟨value', heq', halike, htaken⟩ := hnested _ heq
    have honward := (parseObject_taken h.ended htaken hat hvs).onward
    exact .object (h.isAt (by omega) hat) heq' (h.parseObject halike htaken hle hvs)

/-- **Up to the end of a value** two buffers that agree are parsed alike, unless the value is a
number and goes on. -/
theorem Agree.parseValue (h : Agree b b' e) (hlaw : lib.Lawful) (levels : Nat) :
    Alike b e (parseValue b lib levels) (parseValue b' lib levels) := by
  induction levels with
  | zero =>
    refine h.parseValueWith fun value hnone => ?_
    cases hnone
  | succ levels ih =>
    refine h.parseValueWith fun value hsome => ?_
    cases hsome
    exact ⟨_, rfl, ih, fun _ _ _ hvalue => parseValue_taken h.ended hlaw hvalue⟩

end Agree

/-! ## The longest text -/

/-- What `strtod` takes does not depend on where a text ends behind it. -/
def Doubles.Stable {D : Type} (lib : Doubles D) : Prop :=
  ∀ text k, (lib.strtod text).2 ≤ k → lib.strtod (text.take k) = lib.strtod text

/-- Where the parse of a buffer starts. -/
def parseStart (b : ParseBuffer) : Nat := bufferSkipWhitespace b (skipUtf8Bom b)

/-- The buffer of a text. -/
abbrev textBuffer (text : List UInt8) : ParseBuffer := ParseBuffer.ofMemory (text ++ [0])

/-- What `parse_value` makes of a text. -/
def parseText {D : Type} (lib : Doubles D) (text : List UInt8) : Parsed (Item D) :=
  parseValue (textBuffer text) lib nestingLimit (parseStart (textBuffer text))

def Parsed.value {α : Type} : Parsed α → Option α
  | ok value _ => some value
  | fail _ => none

/-- The value of a text that is taken as a whole. -/
def denotes {D : Type} (lib : Doubles D) (text : List UInt8) : Option (Item D) :=
  match parseText lib text with
  | .ok item offset => if offset = text.length then some item else none
  | .fail _ => none

section Texts
variable {b b' : ParseBuffer} {e m n o p : Nat} {text : List UInt8} {D : Type} {lib : Doubles D}
  {v : Item D}

theorem length_textBuffer (hnul : 0 ∉ text) : (textBuffer text).length = text.length + 1 := by
  show (cstring (text ++ [0])).length + 1 = _
  rw [cstring_append hnul, show cstring [0] = [] from rfl, List.append_nil]

theorem agree_take (hnul : 0 ∉ text) (hm : m ≤ text.length) :
    Agree (textBuffer text) (textBuffer (text.take m)) m ∧
      (textBuffer (text.take m)).length = m + 1 := by
  have hlength : (textBuffer (text.take m)).length = m + 1 := by
    rw [length_textBuffer fun hmem => hnul (List.mem_of_mem_take hmem), List.length_take_of_le hm]
  refine ⟨⟨nulEnded_ofMemory _, nulEnded_ofMemory _, ?_, ?_, fun i hi => ?_⟩, hlength⟩
  · rw [length_textBuffer hnul]
    omega
  · rw [hlength]
    exact Nat.lt_succ_self m
  · show (text.take m ++ [0]).getD i 0 = (text ++ [0]).getD i 0
    have hlt : i < (text.take m).length := by
      rw [List.length_take_of_le hm]
      exact hi
    rw [List.getD_append _ _ _ _ hlt, List.getD_append _ _ _ _ (by omega),
      List.getD_eq_getElem?_getD, List.getElem?_take_of_lt hi, List.getD_eq_getElem?_getD]

/-- Values begin with characters of ASCII. -/
theorem Succeeds.begins {nested : Option (Nat → Parsed (Item D))}
    (h : Succeeds b lib nested o v p) : b.content o < 128 := by
  cases h with
  | null h => exact h.2.1 ▸ (by decide)
  | false h => exact h.2.1 ▸ (by decide)
  | true h => exact h.2.1 ▸ (by decide)
  | string hat h => exact hat.2 ▸ (by decide)
  | number hat h =>
    rcases hat with hminus | hdigit
    · exact hminus.2 ▸ (by decide)
    · have hbounds := isdigit_iff.mp hdigit.2
      refine UInt8.lt_iff_toNat_lt.mpr ?_
      show (b.content o).toNat < 128
      omega
  | array hat heq h => exact hat.2 ▸ (by decide)
  | object hat heq h => exact hat.2 ▸ (by decide)

theorem parseValue_begins {levels : Nat} (h : parseValue b lib levels o = .ok v p) :
    b.content o < 128 := by
  obtain ⟨nested, hnested⟩ := parseValue_scalar b lib levels
  rw [hnested] at h
  exact (parseValueWith_ok h).begins

theorem parseValue_number {levels : Nat} {d : D} :
    parseValue b lib levels o = .ok (.number d) p ↔
      (b.isAt o 45 ∨ o < b.length ∧ isdigit (b.content o)) ∧ parseNumber b lib o = .ok d p := by
  obtain ⟨nested, hnested⟩ := parseValue_scalar b lib levels
  rw [hnested]
  constructor
  · intro h
    cases parseValueWith_ok h with
    | number hat hd => exact ⟨hat, hd⟩
    | array hat heq hvs =>
      rcases (parseArray_iff.mp hvs).2 with ⟨hv, -⟩ | ⟨-, -, vs, hv, -⟩ <;> cases hv
    | object hat heq hvs =>
      rcases (parseObject_iff.mp hvs).2 with ⟨hv, -⟩ | ⟨-, -, vs, hv, -⟩ <;> cases hv
  · rintro ⟨hat, hd⟩
    exact (Succeeds.number hat hd).parse

theorem numberChars_take (h : Agree b b' e) (hend : b'.length = e + 1) (ho : o ≤ e) :
    numberChars b' n o = (numberChars b n o).take (e - o) := by
  induction n generalizing o with
  | zero => rw [numberChars, numberChars, List.take_nil]
  | succ n ih =>
    have hleft := h.left
    rw [numberChars, numberChars]
    rcases Nat.eq_or_lt_of_le ho with rfl | hlt
    · -- the NUL
      have hnul : b'.content o = 0 := by
        have hlast := h.ended'.2
        rw [hend, Nat.add_sub_cancel] at hlast
        exact hlast
      have hnot : ¬ (o < b'.length ∧ isNumberChar (b'.content o) = true) := by
        rw [hnul]
        exact fun hchar => absurd hchar.2 (by decide)
      rw [if_neg hnot, Nat.sub_self, List.take_zero]
    · obtain ⟨k, hk⟩ : ∃ k, e - o = k + 1 := ⟨e - o - 1, by omega⟩
      have hrest := ih (o := o + 1) hlt
      have hk' : e - (o + 1) = k := by omega
      rw [hk'] at hrest
      rw [h.same o hlt, hk]
      by_cases hchar : isNumberChar (b.content o) = true
      · rw [if_pos ⟨by omega, hchar⟩, if_pos ⟨by omega, hchar⟩, List.take_succ_cons, hrest]
      · rw [if_neg fun hin => hchar hin.2, if_neg fun hin => hchar hin.2, List.take_nil]

/-- A number that is cut behind what is taken. -/
theorem parseNumber_take (h : Agree b b' e) (hend : b'.length = e + 1) (hstable : lib.Stable) {d : D}
    (hp : p ≤ e) (hd : parseNumber b lib o = .ok d p) : parseNumber b' lib o = .ok d p := by
  simp only [parseNumber] at hd
  split_ifs at hd with hnone
  cases hd
  have hchars := numberChars_take (n := 63) (o := o) h hend (by omega)
  have hsame := hstable (numberChars b 63 o) (e - o) (by omega)
  simp only [parseNumber, hchars, hsame]
  rw [if_neg hnone]

/-- With more text, a number that has been taken goes on, if it changes. -/
theorem parseNumber_of_take (h : Agree b b' e) (hend : b'.length = e + 1) (hstable : lib.Stable)
    {d : D} (ho : o ≤ e) (hp : p ≤ e) (hd : parseNumber b' lib o = .ok d p) :
    ∃ d' p', parseNumber b lib o = .ok d' p' ∧ p ≤ p' := by
  have hchars := numberChars_take (n := 63) h hend ho
  simp only [parseNumber, hchars] at hd
  split_ifs at hd with hnone
  cases hd
  have hmore : (lib.strtod ((numberChars b 63 o).take (e - o))).2 ≤
      (lib.strtod (numberChars b 63 o)).2 := by
    by_contra hless
    have hsame := hstable (numberChars b 63 o) (e - o) (by omega)
    rw [hsame] at hless
    exact hless (Nat.le_refl _)
  refine ⟨(lib.strtod (numberChars b 63 o)).1, o + (lib.strtod (numberChars b 63 o)).2, ?_, by omega⟩
  simp only [parseNumber]
  rw [if_neg (by omega)]

/-! ### The start -/

theorem skipUtf8Bom_cases (b : ParseBuffer) : skipUtf8Bom b = 0 ∨
    skipUtf8Bom b = 3 ∧ 4 < b.length ∧ b.content 0 = 0xEF := by
  unfold skipUtf8Bom
  split_ifs with hmark
  · exact .inr ⟨rfl, hmark.1, hmark.2.1⟩
  · exact .inl rfl

theorem Agree.skipUtf8Bom (h : Agree b b' e) (he : 4 ≤ e) : skipUtf8Bom b' = skipUtf8Bom b := by
  have hleft := h.left
  have hright := h.right
  have hmark : Holds b'.content 0 [0xEF, 0xBB, 0xBF] ↔ Holds b.content 0 [0xEF, 0xBB, 0xBF] := by
    simp only [Holds, h.same 0 (by omega), h.same 1 (by omega), h.same 2 (by omega)]
  have hlong : 4 < b.length ∧ 4 < b'.length := ⟨by omega, by omega⟩
  simp only [Cjson.skipUtf8Bom, hmark, hlong.1, hlong.2]

/-- Where a value is found, it is found in the shorter buffer. -/
theorem Agree.parseStart (h : Agree b b' e) (hend : b'.length = e + 1)
    (htaken : Taken b (parseStart b) p) (hp : p ≤ e) : parseStart b' = parseStart b := by
  have honward := htaken.onward
  have hmark : Cjson.skipUtf8Bom b' = Cjson.skipUtf8Bom b := by
    by_cases he : 4 ≤ e
    · exact h.skipUtf8Bom he
    · rcases skipUtf8Bom_cases b' with hnone' | ⟨-, hlong, -⟩
      · rcases skipUtf8Bom_cases b with hnone | ⟨hthree, hlong, -⟩
        · rw [hnone, hnone']
        · have hle := le_skip (b := b) (o := 3) (by omega)
          unfold Cjson.parseStart at honward
          rw [hthree] at honward
          omega
      · omega
  rw [Cjson.parseStart, hmark]
  exact h.skip rfl (by omega) htaken.begun

/-- Where a value is found in the shorter buffer, it is found. -/
theorem Agree.parseStart_back (h : Agree b b' e) (hend : b'.length = e + 1)
    (htaken : Taken b' (Cjson.parseStart b') p) (hbegins : b'.content (Cjson.parseStart b') < 128) :
    Cjson.parseStart b = Cjson.parseStart b' := by
  have honward := htaken.onward
  have hinside := htaken.inside
  have hmark : Cjson.skipUtf8Bom b = Cjson.skipUtf8Bom b' := by
    by_cases he : 4 ≤ e
    · exact (h.skipUtf8Bom he).symm
    · rcases skipUtf8Bom_cases b' with hnone' | ⟨-, hlong, -⟩
      · rcases skipUtf8Bom_cases b with hnone | ⟨-, hlong, hfirst⟩
        · rw [hnone, hnone']
        · -- no value begins with the mark
          have hsame := (h.same 0 (by omega)).trans hfirst
          have hstay : bufferSkipWhitespace b' 0 = 0 :=
            skip_self (by omega) (hsame ▸ (by decide))
          rw [Cjson.parseStart, hnone', hstay, hsame] at hbegins
          exact absurd hbegins (by decide)
      · omega
  rw [Cjson.parseStart, hmark]
  exact h.symm.skip rfl (by omega) htaken.begun

/-! ### Prefixes -/

/-- A text can be cut behind what is taken. -/
theorem parseText_take (hlaw : lib.Lawful) (hstable : lib.Stable) (hnul : 0 ∉ text)
    (h : parseText lib text = .ok v p) (hp : p ≤ m) (hm : m ≤ text.length) :
    parseText lib (text.take m) = .ok v p := by
  obtain ⟨hagree, hend⟩ := agree_take hnul hm
  have htaken := parseValue_taken hagree.ended hlaw h
  have hstart := hagree.parseStart hend htaken hp
  unfold parseText at h ⊢
  rw [hstart]
  by_cases hnumber : ∃ d, v = .number d
  · obtain ⟨d, rfl⟩ := hnumber
    obtain ⟨hat, hd⟩ := parseValue_number.mp h
    have ho : parseStart (textBuffer text) < m := Nat.lt_of_lt_of_le htaken.onward hp
    refine parseValue_number.mpr ⟨?_, parseNumber_take hagree hend hstable hp hd⟩
    rcases hat with hminus | hdigit
    · exact .inl (hagree.isAt ho hminus)
    · refine .inr ⟨Nat.lt_trans ho hagree.right, ?_⟩
      rw [hagree.same _ ho]
      exact hdigit.2
  · exact hagree.parseValue hlaw nestingLimit _ v p h hp fun d hd => absurd ⟨d, hd⟩ hnumber

/-- With more text behind, as much is taken at least. -/
theorem parseText_of_take (hlaw : lib.Lawful) (hstable : lib.Stable) (hnul : 0 ∉ text)
    (hm : m ≤ text.length) (h : parseText lib (text.take m) = .ok v p) :
    ∃ v' p', parseText lib text = .ok v' p' ∧ p ≤ p' := by
  obtain ⟨hagree, hend⟩ := agree_take hnul hm
  have htaken := parseValue_taken hagree.ended' hlaw h
  have hstart := hagree.parseStart_back hend htaken (parseValue_begins h)
  have honward := htaken.onward
  have hinside := htaken.inside
  unfold parseText at h ⊢
  rw [hstart]
  by_cases hnumber : ∃ d, v = .number d
  · obtain ⟨d, rfl⟩ := hnumber
    obtain ⟨hat, hd⟩ := parseValue_number.mp h
    obtain ⟨d', p', hd', hle⟩ :=
      parseNumber_of_take hagree hend hstable (by omega) (by omega) hd
    have ho : parseStart (textBuffer (text.take m)) < m := by omega
    refine ⟨.number d', p', parseValue_number.mpr ⟨?_, hd'⟩, hle⟩
    rcases hat with hminus | hdigit
    · exact .inl (hagree.symm.isAt ho hminus)
    · refine .inr ⟨Nat.lt_trans ho hagree.left, ?_⟩
      rw [← hagree.same _ ho]
      exact hdigit.2
  · exact ⟨v, p, hagree.symm.parseValue hlaw nestingLimit _ v p h (by omega)
      fun d hd => absurd ⟨d, hd⟩ hnumber, Nat.le_refl p⟩

theorem denotes_iff : denotes lib text = some v ↔ parseText lib text = .ok v text.length := by
  unfold denotes
  cases hparse : parseText lib text with
  | fail p => simp
  | ok item p =>
    simp only [Parsed.ok.injEq]
    split_ifs with hend
    · simp [hend]
    · simp [hend]

theorem cJsonParse_eq (memory : List UInt8) :
    cJsonParse lib memory = (parseText lib (cstring memory)).value := by
  have hparse : cJsonParseWithOpts lib (cstring memory ++ [0]) false =
      finishParse (textBuffer (cstring memory)) false (parseText lib (cstring memory)) := rfl
  rw [cJsonParse, cJsonParseWithOpts_same lib (same_cstring memory), hparse]
  cases parseText lib (cstring memory) with
  | fail p => rfl
  | ok item p => rfl

end Texts

theorem zero_not_mem_cstring (memory : List UInt8) : 0 ∉ cstring memory :=
  fun hmem => cstring_ne_zero hmem rfl

/-- What is taken of a text is the longest prefix that would be taken as a whole. -/
theorem parseText_longest {D : Type} {lib : Doubles D} (hlaw : lib.Lawful) (hstable : lib.Stable)
    {text : List UInt8} (hnul : 0 ∉ text) :
    (parseText lib text).value = Longest.longest (denotes lib) text := by
  have hlength : ∀ m ≤ text.length, (text.take m).length = m :=
    fun m hm => List.length_take_of_le hm
  symm
  cases hparse : parseText lib text with
  | ok item p =>
    have hinside := (parseValue_taken (nulEnded_ofMemory _) hlaw hparse).inside
    rw [length_textBuffer hnul] at hinside
    have hp : p ≤ text.length := Nat.le_of_lt_succ hinside
    refine Longest.longest_take hp (denotes_iff.mpr ?_) fun m hlt hm => ?_
    · rw [hlength p hp]
      exact parseText_take hlaw hstable hnul hparse (Nat.le_refl p) hp
    · -- a longer prefix would be taken of the whole text, too
      cases hvalue : denotes lib (text.take m) with
      | none => rfl
      | some v =>
        have htake := denotes_iff.mp hvalue
        rw [hlength m hm] at htake
        obtain ⟨v', p', hparse', hle⟩ := parseText_of_take hlaw hstable hnul hm htake
        rw [hparse] at hparse'
        cases hparse'
        omega
  | fail p =>
    refine Longest.longest_none fun m hm => ?_
    cases hvalue : denotes lib (text.take m) with
    | none => rfl
    | some v =>
      obtain ⟨v', p', hparse', -⟩ :=
        parseText_of_take hlaw hstable hnul hm (denotes_iff.mp hvalue)
      rw [hparse] at hparse'
      cases hparse'

/-- **The longest text.** Whatever is in memory, `cJSON_Parse` yields the value of the longest
prefix of the string that it would take as a whole, and fails if there is none. -/
theorem cJsonParse_longest {D : Type} {lib : Doubles D} (hlaw : lib.Lawful) (hstable : lib.Stable)
    (memory : List UInt8) :
    cJsonParse lib memory = Longest.longest (denotes lib) (cstring memory) := by
  rw [cJsonParse_eq]
  exact parseText_longest hlaw hstable (zero_not_mem_cstring memory)

theorem naturals_stable : naturals.Stable := by
  intro text k hk
  have htake : (text.take k).takeWhile isdigit = text.takeWhile isdigit := by
    induction text generalizing k with
    | nil => rw [List.take_nil]
    | cons c cs ih =>
      cases hc : isdigit c with
      | false =>
        cases k with
        | zero => simp [hc]
        | succ k => simp [hc]
      | true =>
        have hlen : (naturals.strtod (c :: cs)).2 = (cs.takeWhile isdigit).length + 1 := by
          simp [naturals, hc]
        rw [hlen] at hk
        obtain ⟨k, rfl⟩ : ∃ j, k = j + 1 := ⟨k - 1, by omega⟩
        rw [List.take_succ_cons, List.takeWhile_cons_of_pos hc, List.takeWhile_cons_of_pos hc,
          ih k (Nat.le_of_succ_le_succ hk)]
  show (ofDecimal ((text.take k).takeWhile isdigit), ((text.take k).takeWhile isdigit).length) = _
  rw [htake]
  rfl

/-- In front of `, 2` there is a `1`. -/
theorem cJsonParse_longest_one :
    cJsonParse naturals [49, 44, 50] = Longest.longest (denotes naturals) [49, 44, 50] :=
  cJsonParse_longest naturals_lawful naturals_stable [49, 44, 50]

/-- **In brackets or quotes.** A text without a NUL that is taken as a whole, and is no number, is
parsed the same whatever stands behind it in memory. -/
theorem parse_bracketed {D : Type} {lib : Doubles D} (hlaw : lib.Lawful) {text : List UInt8}
    (hnul : 0 ∉ text) {item : Item D} (hparse : denotes lib text = some item)
    (hnumber : ∀ d, item ≠ .number d) (rest : List UInt8) :
    cJsonParse lib (text ++ rest) = some item := by
  have hall : 0 ∉ text ++ cstring rest := by
    intro hmem
    rcases List.mem_append.mp hmem with hleft | hright
    · exact hnul hleft
    · exact zero_not_mem_cstring rest hright
  have hm : text.length ≤ (text ++ cstring rest).length := by
    rw [List.length_append]
    exact Nat.le_add_right _ _
  have htext := denotes_iff.mp hparse
  obtain ⟨hagree, hend⟩ := agree_take hall hm
  rw [List.take_left] at hagree hend
  have htaken := parseValue_taken hagree.ended' hlaw htext
  have hstart := hagree.parseStart_back hend htaken (parseValue_begins htext)
  have hback := hagree.symm.parseValue hlaw nestingLimit _ item _ htext (Nat.le_refl _)
    fun d hd => absurd hd (hnumber d)
  rw [cJsonParse_eq, cstring_append hnul, parseText, hstart, hback]
  rfl

end IBoxClient.Cjson
