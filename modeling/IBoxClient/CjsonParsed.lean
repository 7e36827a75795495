import IBoxClient.CjsonRoundTrip

/- What `cJSON_Parse` yields, whatever it is given.

   What it yields can be printed and read again, and is the same then if its numbers are finite
   (`parse_print_parse`): the parser allows no deeper nesting, and makes nothing but C strings.
   Each function of the parser that succeeds has gone on, and not over the NUL
   (`parseValue_taken`); so its loops end by themselves, and the rounds that the model grants them
   are no limit (`parseElements_rounds`, `parseMembers_rounds`). -/
namespace IBoxClient.Cjson

open Bytes Memory

/-! ## What a success says -/

section Success
variable {b : ParseBuffer} {D : Type} {lib : Doubles D} {nested : Option (Nat → Parsed (Item D))}
  {value : Nat → Parsed (Item D)} {v : Item D} {o o' n : Nat}

theorem map_ok {α β : Type} {r : Parsed α} {f : α → β} {u : β} :
    r.map f = .ok u o ↔ ∃ a, u = f a ∧ r = .ok a o := by
  cases r with
  | fail p =>
    constructor
    · intro h
      cases h
    · rintro ⟨a, -, h⟩
      cases h
  | ok a p =>
    constructor
    · intro h
      cases h
      exact ⟨a, rfl, rfl⟩
    · rintro ⟨a, rfl, h⟩
      cases h
      rfl

/-- The ways in which `parse_value` succeeds. -/
inductive Succeeds (b : ParseBuffer) (lib : Doubles D) (nested : Option (Nat → Parsed (Item D)))
    (o : Nat) : Item D → Nat → Prop where
  | null (h : b.reads o (ascii "null")) : Succeeds b lib nested o .null (o + 4)
  | false (h : b.reads o (ascii "false")) : Succeeds b lib nested o .false (o + 5)
  | true (h : b.reads o (ascii "true")) : Succeeds b lib nested o .true (o + 4)
  | string {s : List UInt8} {o' : Nat} (hat : b.isAt o quote) (h : parseString b o = .ok s o') :
    Succeeds b lib nested o (.string s) o'
  | number {d : D} {o' : Nat} (hat : b.isAt o 45 ∨ o < b.length ∧ isdigit (b.content o))
    (h : parseNumber b lib o = .ok d o') : Succeeds b lib nested o (.number d) o'
  | array {value : Nat → Parsed (Item D)} {v : Item D} {o' : Nat} (hat : b.isAt o 91)
    (hnested : nested = some value) (h : parseArray b value o = .ok v o') :
    Succeeds b lib nested o v o'
  | object {value : Nat → Parsed (Item D)} {v : Item D} {o' : Nat} (hat : b.isAt o 123)
    (hnested : nested = some value) (h : parseObject b value o = .ok v o') :
    Succeeds b lib nested o v o'

theorem parseValueWith_ok (h : parseValueWith b lib nested o = .ok v o') :
    Succeeds b lib nested o v o' := by
  rw [parseValueWith.eq_def] at h
  split_ifs at h with hnull hfalse htrue hstring hnumber harray hobject
  · cases h
    exact .null hnull
  · cases h
    exact .false hfalse
  · cases h
    exact .true htrue
  · obtain ⟨s, rfl, hs⟩ := map_ok.mp h
    exact .string hstring hs
  · obtain ⟨d, rfl, hd⟩ := map_ok.mp h
    exact .number hnumber hd
  · cases hnested : nested with
    | none =>
      rw [hnested] at h
      cases h
    | some value =>
      rw [hnested] at h
      exact .array harray rfl h
  · cases hnested : nested with
    | none =>
      rw [hnested] at h
      cases h
    | some value =>
      rw [hnested] at h
      exact .object hobject rfl h

/-- There are no other ways, and in each of them it does. -/
theorem Succeeds.parse (h : Succeeds b lib nested o v o') :
    parseValueWith b lib nested o = .ok v o' := by
  cases h with
  | null h => exact parseValueWith_null h
  | false h => exact parseValueWith_false h
  | true h => exact parseValueWith_true h
  | string hat h => rw [parseValueWith_string hat, h, Parsed.map]
  | number hat h =>
    have hbegins : o < b.length ∧ (b.content o = 45 ∨ isdigit (b.content o) = Bool.true) := by
      rcases hat with hminus | hdigit
      · exact ⟨hminus.1, .inl hminus.2⟩
      · exact ⟨hdigit.1, .inr hdigit.2⟩
    rw [parseValueWith_number hbegins.1 rfl hbegins.2, h, Parsed.map]
  | array hat hnested h =>
    rw [parseValueWith_bracket hat.1 hat.2 (.inl rfl), hnested]
    exact h
  | object hat hnested h =>
    rw [parseValueWith_bracket hat.1 hat.2 (.inr rfl), hnested]
    exact h

/-- A string that is read: its end, and what is written for it. -/
theorem parseString_iff {s : List UInt8} : parseString b o = .ok s o' ↔
    b.content o = quote ∧ ∃ e k output, scanString b (b.length - o) (o + 1) = some (e, k) ∧
      writeString b e (e - o) (o + 1) = (output, none) ∧ s = cstring output ∧ o' = e + 1 := by
  constructor
  · intro h
    unfold parseString at h
    split_ifs at h with hquote
    cases hscan : scanString b (b.length - o) (o + 1) with
    | none =>
      rw [hscan] at h
      cases h
    | some r =>
      obtain ⟨e, k⟩ := r
      rw [hscan] at h
      simp only at h
      cases hwrite : writeString b e (e - o) (o + 1) with
      | mk output failed =>
        rw [hwrite] at h
        cases failed with
        | some p => cases h
        | none =>
          cases h
          exact ⟨not_not.mp hquote, e, k, output, rfl, hwrite, rfl, rfl⟩
  · rintro ⟨hquote, e, k, output, hscan, hwrite, rfl, rfl⟩
    have hfound : ¬ b.content o ≠ quote := not_not_intro hquote
    rw [parseString, if_neg hfound, hscan]
    simp only [hwrite]

/-- A round of the loop of `parse_array` that succeeds. -/
theorem parseElements_iff {vs : Elements D} : parseElements b value (n + 1) o = .ok vs o' ↔
    ∃ item p, value (bufferSkipWhitespace b (o + 1)) = .ok item p ∧
      (b.isAt (bufferSkipWhitespace b p) 44 ∧ (∃ next, vs = .cons item next ∧
        parseElements b value n (bufferSkipWhitespace b p) = .ok next o') ∨
      b.isAt (bufferSkipWhitespace b p) 93 ∧ vs = .cons item .nil ∧
        o' = bufferSkipWhitespace b p + 1) := by
  rw [parseElements]
  constructor
  · intro h
    cases hvalue : value (bufferSkipWhitespace b (o + 1)) with
    | fail p =>
      rw [hvalue] at h
      cases h
    | ok item p =>
      rw [hvalue] at h
      simp only at h
      refine ⟨item, p, rfl, ?_⟩
      split_ifs at h with hcomma hclose
      · exact .inl ⟨hcomma, map_ok.mp h⟩
      · cases h
        exact .inr ⟨hclose, rfl, rfl⟩
  · rintro ⟨item, p, hvalue, ⟨hcomma, hnext⟩ | ⟨hclose, rfl, rfl⟩⟩
    · rw [hvalue]
      simp only
      rw [if_pos hcomma]
      exact map_ok.mpr hnext
    · rw [hvalue]
      simp only
      rw [if_neg (not_isAt hclose.2 (by decide)), if_pos hclose]

/-- `parse_array` succeeds at once, or where its loop does. -/
theorem parseArray_iff : parseArray b value o = .ok v o' ↔
    b.content o = 91 ∧ (v = .array .nil ∧ b.isAt (bufferSkipWhitespace b (o + 1)) 93 ∧
        o' = bufferSkipWhitespace b (o + 1) + 1 ∨
      ¬ b.isAt (bufferSkipWhitespace b (o + 1)) 93 ∧ bufferSkipWhitespace b (o + 1) < b.length ∧
        ∃ vs, v = .array vs ∧
          parseElements b value b.length (bufferSkipWhitespace b (o + 1) - 1) = .ok vs o') := by
  rw [parseArray]
  constructor
  · intro h
    split_ifs at h with hopen
    refine ⟨not_not.mp hopen, ?_⟩
    simp only at h
    split_ifs at h with hclose hend
    · cases h
      exact .inl ⟨rfl, hclose, rfl⟩
    · exact .inr ⟨hclose, Nat.not_le.mp hend, map_ok.mp h⟩
  · rintro ⟨hopen, ⟨rfl, hclose, rfl⟩ | ⟨hclose, hin, hvs⟩⟩
    · rw [if_neg (not_not_intro hopen)]
      simp only
      rw [if_pos hclose]
    · rw [if_neg (not_not_intro hopen)]
      simp only
      rw [if_neg hclose, if_neg (Nat.not_le.mpr hin)]
      exact map_ok.mpr hvs

/-- A round of the loop of `parse_object` that succeeds. -/
theorem parseMembers_iff {vs : Members D} : parseMembers b value (n + 1) o = .ok vs o' ↔
    ∃ string item p q, parseString b (bufferSkipWhitespace b (o + 1)) = .ok string p ∧
      b.isAt (bufferSkipWhitespace b p) 58 ∧
      value (bufferSkipWhitespace b (bufferSkipWhitespace b p + 1)) = .ok item q ∧
      (b.isAt (bufferSkipWhitespace b q) 44 ∧ (∃ next, vs = .cons string item next ∧
        parseMembers b value n (bufferSkipWhitespace b q) = .ok next o') ∨
      b.isAt (bufferSkipWhitespace b q) 125 ∧ vs = .cons string item .nil ∧
        o' = bufferSkipWhitespace b q + 1) := by
  rw [parseMembers]
  constructor
  · intro h
    cases hstring : parseString b (bufferSkipWhitespace b (o + 1)) with
    | fail p =>
      rw [hstring] at h
      cases h
    | ok string p =>
      rw [hstring] at h
      simp only at h
      split_ifs at h with hcolon
      cases hvalue : value (bufferSkipWhitespace b (bufferSkipWhitespace b p + 1)) with
      | fail q =>
        rw [hvalue] at h
        cases h
      | ok item q =>
        rw [hvalue] at h
        simp only at h
        refine ⟨string, item, p, q, rfl, hcolon, hvalue, ?_⟩
        split_ifs at h with hcomma hclose
        · exact .inl ⟨hcomma, map_ok.mp h⟩
        · cases h
          exact .inr ⟨hclose, rfl, rfl⟩
  · rintro ⟨string, item, p, q, hstring, hcolon, hvalue, hrest⟩
    rw [hstring]
    simp only
    rw [if_neg (not_not_intro hcolon), hvalue]
    simp only
    rcases hrest with ⟨hcomma, hnext⟩ | ⟨hclose, rfl, rfl⟩
    · rw [if_pos hcomma]
      exact map_ok.mpr hnext
    · rw [if_neg (not_isAt hclose.2 (by decide)), if_pos hclose]

theorem parseObject_iff : parseObject b value o = .ok v o' ↔
    b.isAt o 123 ∧ (v = .object .nil ∧ b.isAt (bufferSkipWhitespace b (o + 1)) 125 ∧
        o' = bufferSkipWhitespace b (o + 1) + 1 ∨
      ¬ b.isAt (bufferSkipWhitespace b (o + 1)) 125 ∧ bufferSkipWhitespace b (o + 1) < b.length ∧
        ∃ vs, v = .object vs ∧
          parseMembers b value b.length (bufferSkipWhitespace b (o + 1) - 1) = .ok vs o') := by
  rw [parseObject]
  constructor
  · intro h
    split_ifs at h with hopen
    refine ⟨hopen, ?_⟩
    simp only at h
    split_ifs at h with hclose hend
    · cases h
      exact .inl ⟨rfl, hclose, rfl⟩
    · exact .inr ⟨hclose, Nat.not_le.mp hend, map_ok.mp h⟩
  · rintro ⟨hopen, ⟨rfl, hclose, rfl⟩ | ⟨hclose, hin, hvs⟩⟩
    · rw [if_neg (not_not_intro hopen)]
      simp only
      rw [if_pos hclose]
    · rw [if_neg (not_not_intro hopen)]
      simp only
      rw [if_neg hclose, if_neg (Nat.not_le.mpr hin)]
      exact map_ok.mpr hvs

/-- A string that is read is a C string, and ends in the text. -/
theorem parseString_ok {s : List UInt8} (h : parseString b o = .ok s o') :
    cstring s = s ∧ o + 1 < o' ∧ o' ≤ b.length ∧ b.content (o' - 1) = quote := by
  obtain ⟨-, e, k, output, hscan, -, rfl, rfl⟩ := parseString_iff.mp h
  have hscans := scans_of_scanString hscan
  have hle := hscans.le
  exact ⟨cstring_cstring output, by omega, hle.2, hscans.found⟩

end Success

/-! ## What has been parsed can be printed -/

section Clean
variable {D : Type} (lib : Doubles D)

mutual

/-- All numbers are finite. -/
def Finite : Item D → Prop
  | .number d => lib.isFinite d = true
  | .array child => FiniteElements child
  | .object child => FiniteMembers child
  | .null | .false | .true | .raw _ | .string _ => True

def FiniteElements : Elements D → Prop
  | .nil => True
  | .cons item next => Finite item ∧ FiniteElements next

def FiniteMembers : Members D → Prop
  | .nil => True
  | .cons _ item next => Finite item ∧ FiniteMembers next

end

mutual

/-- All texts and names are C strings, and none is raw. -/
def Clean : Item D → Prop
  | .raw _ => False
  | .string s => cstring s = s
  | .array child => CleanElements child
  | .object child => CleanMembers child
  | .null | .false | .true | .number _ => True

def CleanElements : Elements D → Prop
  | .nil => True
  | .cons item next => Clean item ∧ CleanElements next

def CleanMembers : Members D → Prop
  | .nil => True
  | .cons string item next => cstring string = string ∧ Clean item ∧ CleanMembers next

end

mutual

/-- What a text can say as it is. -/
theorem normal_clean : (item : Item D) → Finite lib item → Clean item → normal lib item = item
  | .number d, hfinite, _ => by
    rw [Finite] at hfinite
    rw [normal, if_pos hfinite]
  | .raw s, _, hclean => by
    rw [Clean] at hclean
    exact hclean.elim
  | .string s, _, hclean => by
    rw [Clean] at hclean
    rw [normal, hclean]
  | .array child, hfinite, hclean => by
    rw [Finite] at hfinite
    rw [Clean] at hclean
    rw [normal, normalElements_clean child hfinite hclean]
  | .object child, hfinite, hclean => by
    rw [Finite] at hfinite
    rw [Clean] at hclean
    rw [normal, normalMembers_clean child hfinite hclean]
  | .null, _, _ => rfl
  | .false, _, _ => rfl
  | .true, _, _ => rfl

theorem normalElements_clean : (child : Elements D) → FiniteElements lib child →
    CleanElements child → normalElements lib child = child
  | .nil, _, _ => rfl
  | .cons item next, hfinite, hclean => by
    rw [FiniteElements] at hfinite
    rw [CleanElements] at hclean
    rw [normalElements, normal_clean item hfinite.1 hclean.1,
      normalElements_clean next hfinite.2 hclean.2]

theorem normalMembers_clean : (child : Members D) → FiniteMembers lib child →
    CleanMembers child → normalMembers lib child = child
  | .nil, _, _ => rfl
  | .cons string item next, hfinite, hclean => by
    rw [FiniteMembers] at hfinite
    rw [CleanMembers] at hclean
    rw [normalMembers, hclean.1, normal_clean item hfinite.1 hclean.2.1,
      normalMembers_clean next hfinite.2 hclean.2.2]

end

variable {lib}

mutual

theorem Clean.plain : {item : Item D} → Clean item → Plain item
  | .raw _, hclean => hclean
  | .array _, hclean => CleanElements.plain hclean
  | .object _, hclean => CleanMembers.plain hclean
  | .null, _ | .false, _ | .true, _ | .number _, _ | .string _, _ => trivial

theorem CleanElements.plain : {child : Elements D} → CleanElements child → PlainElements child
  | .nil, _ => trivial
  | .cons _ _, hclean => ⟨hclean.1.plain, CleanElements.plain hclean.2⟩

theorem CleanMembers.plain : {child : Members D} → CleanMembers child → PlainMembers child
  | .nil, _ => trivial
  | .cons _ _ _, hclean => ⟨hclean.2.1.plain, CleanMembers.plain hclean.2.2⟩

end

end Clean

section Parsed
variable {b : ParseBuffer} {D : Type} {lib : Doubles D} {value : Nat → Parsed (Item D)}
  {o o' n levels : Nat}

theorem parseElements_clean (hvalue : ∀ o v o', value o = .ok v o' → height v ≤ levels ∧ Clean v)
    {vs : Elements D} (h : parseElements b value n o = .ok vs o') :
    heightElements vs ≤ levels ∧ CleanElements vs := by
  induction n generalizing o vs with
  | zero => cases h
  | succ n ih =>
    obtain ⟨item, p, hitem, ⟨-, next, rfl, hnext⟩ | ⟨-, rfl, -⟩⟩ := parseElements_iff.mp h
    · obtain ⟨hheight, hclean⟩ := hvalue _ _ _ hitem
      obtain ⟨hheights, hcleans⟩ := ih hnext
      rw [heightElements, CleanElements]
      exact ⟨Nat.max_le.mpr ⟨hheight, hheights⟩, hclean, hcleans⟩
    · obtain ⟨hheight, hclean⟩ := hvalue _ _ _ hitem
      rw [heightElements, CleanElements]
      exact ⟨Nat.max_le.mpr ⟨hheight, Nat.zero_le levels⟩, hclean, trivial⟩

theorem parseMembers_clean (hvalue : ∀ o v o', value o = .ok v o' → height v ≤ levels ∧ Clean v)
    {vs : Members D} (h : parseMembers b value n o = .ok vs o') :
    heightMembers vs ≤ levels ∧ CleanMembers vs := by
  induction n generalizing o vs with
  | zero => cases h
  | succ n ih =>
    obtain ⟨string, item, p, q, hstring, -, hitem, ⟨-, next, rfl, hnext⟩ | ⟨-, rfl, -⟩⟩ :=
      parseMembers_iff.mp h
    · obtain ⟨hheight, hclean⟩ := hvalue _ _ _ hitem
      obtain ⟨hheights, hcleans⟩ := ih hnext
      rw [heightMembers, CleanMembers]
      exact ⟨Nat.max_le.mpr ⟨hheight, hheights⟩, (parseString_ok hstring).1, hclean, hcleans⟩
    · obtain ⟨hheight, hclean⟩ := hvalue _ _ _ hitem
      rw [heightMembers, CleanMembers]
      exact ⟨Nat.max_le.mpr ⟨hheight, Nat.zero_le levels⟩, (parseString_ok hstring).1, hclean,
        trivial⟩

/-- **What is parsed** is nested no more deeply than there are levels, and its texts are C
strings. -/
theorem parseValue_clean {v : Item D} (h : parseValue b lib levels o = .ok v o') :
    height v ≤ levels ∧ Clean v := by
  induction levels generalizing o v o' with
  | zero =>
    cases parseValueWith_ok h with
    | null | false | true | number => exact ⟨Nat.le_refl 0, trivial⟩
    | string hat hs => exact ⟨Nat.le_refl 0, (parseString_ok hs).1⟩
    | array hat hnested => cases hnested
    | object hat hnested => cases hnested
  | succ levels ih =>
    cases parseValueWith_ok h with
    | null | false | true | number => exact ⟨Nat.zero_le _, trivial⟩
    | string hat hs => exact ⟨Nat.zero_le _, (parseString_ok hs).1⟩
    | array hat hnested harray =>
      cases hnested
      rcases (parseArray_iff.mp harray).2 with ⟨rfl, -, -⟩ | ⟨-, -, vs, rfl, hvs⟩
      · exact ⟨Nat.succ_le_succ (Nat.zero_le levels), trivial⟩
      · obtain ⟨hheight, hclean⟩ := parseElements_clean (fun _ _ _ => ih) hvs
        exact ⟨Nat.succ_le_succ hheight, hclean⟩
    | object hat hnested hobject =>
      cases hnested
      rcases (parseObject_iff.mp hobject).2 with ⟨rfl, -, -⟩ | ⟨-, -, vs, rfl, hvs⟩
      · exact ⟨Nat.succ_le_succ (Nat.zero_le levels), trivial⟩
      · obtain ⟨hheight, hclean⟩ := parseMembers_clean (fun _ _ _ => ih) hvs
        exact ⟨Nat.succ_le_succ hheight, hclean⟩

theorem cJsonParse_clean {memory : List UInt8} {item : Item D}
    (h : cJsonParse lib memory = some item) : height item ≤ nestingLimit ∧ Clean item := by
  unfold cJsonParse cJsonParseWithOpts at h
  simp only at h
  generalize ParseBuffer.ofMemory memory = b at h
  cases hvalue : parseValue b lib nestingLimit (bufferSkipWhitespace b (skipUtf8Bom b)) with
  | fail p =>
    rw [hvalue] at h
    cases h
  | ok v p =>
    rw [hvalue] at h
    obtain rfl : v = item := Option.some.inj h
    exact parseValue_clean hvalue

end Parsed

/-- **What has been parsed is printed and parsed again as it was**, whatever the text was, if its
numbers are finite. (A text may also say `1e999`, which is printed as `null`.) -/
theorem parse_print_parse {D : Type} {lib : Doubles D} [DecidableEq D] (hlaw : lib.Lawful)
    {memory : List UInt8} {item : Item D} (hparse : cJsonParse lib memory = some item)
    (hfinite : Finite lib item) (heap : Heap) (format : Bool) {printed : List UInt8}
    (hprint : print lib heap format item = some printed) (rest : List UInt8) :
    cJsonParse lib (printed ++ rest) = some item := by
  obtain ⟨hheight, hclean⟩ := cJsonParse_clean hparse
  have htext := print_some hlaw hprint
  have hback := (parse_render hlaw format false hclean.plain rest).1 hheight
  rw [htext, List.append_assoc, cJsonParse]
  show (cJsonParseWithOpts lib (render lib format 0 item ++ 0 :: rest) false).toOption.map Prod.fst = _
  rw [hback, normal_clean lib item hfinite hclean]
  rfl

/-- A list that is printed more densely than it has been written. -/
theorem parse_print_parse_list :
    cJsonParse naturals (ascii "[7,2]" ++ [0] ++ []) =
      some (.array (.cons (.number 7) (.cons (.number 2) .nil))) := by
  have hparse : cJsonParse naturals (ascii " [7 ,\n2]") =
      some (.array (.cons (.number 7) (.cons (.number 2) .nil))) := rfl
  have hprint : print naturals ⟨false, fun _ => some fun _ => 0⟩ false
      (.array (.cons (.number 7) (.cons (.number 2) .nil))) = some (ascii "[7,2]" ++ [0]) := by
    decide +kernel
  have hfinite : Finite naturals (.array (.cons (.number 7) (.cons (.number 2) .nil))) :=
    ⟨rfl, rfl, trivial⟩
  exact parse_print_parse naturals_lawful hparse hfinite _ false hprint []

/-! ## The parser goes on -/

section Onward
variable {b : ParseBuffer} {D : Type} {lib : Doubles D} {value : Nat → Parsed (Item D)}
  {o o' r n m levels : Nat}

/-- The buffer ends with a NUL. -/
def NulEnded (b : ParseBuffer) : Prop := 0 < b.length ∧ b.content (b.length - 1) = 0

theorem nulEnded_ofMemory (memory : List UInt8) : NulEnded (ParseBuffer.ofMemory memory) := by
  refine ⟨Nat.succ_pos _, ?_⟩
  show memory.getD (cstring memory).length 0 = 0
  induction memory with
  | nil => rfl
  | cons c cs ih =>
    by_cases hc : c = 0
    · subst hc
      rfl
    · have hlen : (cstring (c :: cs)).length = (cstring cs).length + 1 := by
        simp [cstring, hc]
      rw [hlen, List.getD_cons_succ]
      exact ih

/-- What is no NUL is not at the end. -/
theorem NulEnded.lt (hb : NulEnded b) (hin : r < b.length) (hchar : b.content r ≠ 0) :
    r + 1 < b.length := by
  by_contra hend
  have hlast : r = b.length - 1 := by omega
  rw [hlast] at hchar
  exact hchar hb.2

theorem ne_zero_of_printed {c : UInt8} (h : 32 < c) : c ≠ 0 := by
  rintro rfl
  exact absurd h (by decide)

theorem skipSpaces_spec (b : ParseBuffer) (n o : Nat) :
    o ≤ skipSpaces b n o ∧ ∀ i, o ≤ i → i < skipSpaces b n o → b.content i ≤ 32 := by
  induction n generalizing o with
  | zero =>
    refine ⟨Nat.le_refl o, fun i hle hlt => ?_⟩
    rw [skipSpaces] at hlt
    omega
  | succ n ih =>
    rw [skipSpaces]
    split_ifs with hspace
    · obtain ⟨hle, hspaces⟩ := ih (o + 1)
      refine ⟨by omega, fun i hoi hlt => ?_⟩
      rcases Nat.eq_or_lt_of_le hoi with rfl | hmore
      · exact hspace.2
      · exact hspaces i hmore hlt
    · refine ⟨Nat.le_refl o, fun i hle hlt => ?_⟩
      omega

theorem le_skip (ho : o < b.length) : o ≤ bufferSkipWhitespace b o := by
  have hle := (skipSpaces_spec b (b.length - o) o).1
  simp only [bufferSkipWhitespace]
  split_ifs with hend
  · omega
  · exact hle

theorem skip_of_spaces (k : Nat) (hin : o + k < b.length) (hchar : 32 < b.content (o + k))
    (hspaces : ∀ i, o ≤ i → i < o + k → b.content i ≤ 32) :
    bufferSkipWhitespace b o = o + k := by
  induction k generalizing o with
  | zero => exact skip_self hin hchar
  | succ k ih =>
    have hsum : o + (k + 1) = o + 1 + k := by omega
    rw [hsum] at hin hchar hspaces ⊢
    rw [skip_space (by omega) (hspaces o (Nat.le_refl o) (by omega))]
    exact ih hin hchar fun i hle hlt => hspaces i (by omega) hlt

/-- **White space.** What the parser leaves off at, if it is anything, is the first character that
is no white space. -/
theorem skip_iff (hb : NulEnded b) (hin : r < b.length) (hchar : 32 < b.content r) :
    bufferSkipWhitespace b o = r ↔ o ≤ r ∧ ∀ i, o ≤ i → i < r → b.content i ≤ 32 := by
  constructor
  · intro h
    have hspec := skipSpaces_spec b (b.length - o) o
    simp only [bufferSkipWhitespace] at h
    split_ifs at h with hend
    · have hmore := hb.lt hin (ne_zero_of_printed hchar)
      omega
    · rw [h] at hspec
      exact hspec
  · rintro ⟨hle, hspaces⟩
    obtain ⟨k, rfl⟩ := Nat.exists_eq_add_of_le hle
    exact skip_of_spaces k hin hchar hspaces

/-- What a function that succeeds has read: it has begun at something, has gone on, and has not gone
over the NUL. -/
structure Taken (b : ParseBuffer) (o o' : Nat) : Prop where
  begun : 32 < b.content o
  onward : o < o'
  inside : o' < b.length

theorem Taken.skip (hb : NulEnded b) (h : Taken b (bufferSkipWhitespace b o) o') :
    o ≤ bufferSkipWhitespace b o :=
  ((skip_iff hb (Nat.lt_trans h.onward h.inside) h.begun).mp rfl).1

/-- A character that the parser skips white space for. -/
theorem skip_isAt (hb : NulEnded b) {c : UInt8} (h : b.isAt (bufferSkipWhitespace b o) c)
    (hc : 32 < c) : o ≤ bufferSkipWhitespace b o ∧ bufferSkipWhitespace b o + 1 < b.length := by
  have hchar : 32 < b.content (bufferSkipWhitespace b o) := by
    rw [h.2]
    exact hc
  exact ⟨((skip_iff hb h.1 hchar).mp rfl).1, hb.lt h.1 (ne_zero_of_printed hchar)⟩

theorem reads_taken (hb : NulEnded b) {text : List UInt8} (h : b.reads o text)
    (hprinted : (text.all fun c => 32 < c) = true) (hpos : 0 < text.length) :
    Taken b o (o + text.length) := by
  have hall : ∀ k (hk : k < text.length), 32 < b.content (o + k) := by
    intro k hk
    rw [holds_iff.mp h.2 k hk]
    exact of_decide_eq_true (List.all_eq_true.mp hprinted _ (List.getElem_mem hk))
  have hlast := hb.lt (r := o + (text.length - 1)) (by have := h.1; omega)
    (ne_zero_of_printed (hall _ (by omega)))
  exact ⟨hall 0 hpos, by omega, by omega⟩

theorem parseString_taken (hb : NulEnded b) {s : List UInt8} (h : parseString b o = .ok s o') :
    Taken b o o' := by
  obtain ⟨-, hlt, hle, hend⟩ := parseString_ok h
  have hopen := (parseString_iff.mp h).1
  have hchar : 32 < b.content o ∧ b.content (o' - 1) ≠ 0 := by
    rw [hopen, hend]
    decide
  have hmore := hb.lt (r := o' - 1) (by omega) hchar.2
  exact ⟨hchar.1, by omega, by omega⟩

theorem numberChars_inside (hb : NulEnded b) (ho : o < b.length) :
    o + (numberChars b n o).length < b.length := by
  induction n generalizing o with
  | zero => exact ho
  | succ n ih =>
    rw [numberChars]
    split_ifs with hchar
    · have hne : b.content o ≠ 0 := by
        intro hzero
        rw [hzero] at hchar
        exact absurd hchar.2 (by decide)
      have hrest := ih (hb.lt ho hne)
      rw [List.length_cons]
      omega
    · exact ho

theorem parseNumber_taken (hb : NulEnded b) (hlaw : lib.Lawful) {d : D}
    (hat : b.isAt o 45 ∨ o < b.length ∧ isdigit (b.content o))
    (h : parseNumber b lib o = .ok d o') : Taken b o o' := by
  have hbegun : o < b.length ∧ 32 < b.content o := by
    rcases hat with hminus | hdigit
    · rw [hminus.2]
      exact ⟨hminus.1, by decide⟩
    · exact ⟨hdigit.1, (isdigit_begins (.inr hdigit.2)).1⟩
  have htaken := hlaw.taken (numberChars b 63 o)
  have hinside := numberChars_inside (n := 63) hb hbegun.1
  simp only [parseNumber] at h
  split_ifs at h with hnone
  cases h
  exact ⟨hbegun.2, by omega, by omega⟩

theorem parseElements_onward (hb : NulEnded b)
    (hvalue : ∀ o v o', value o = .ok v o' → Taken b o o') {vs : Elements D}
    (h : parseElements b value n o = .ok vs o') : o + 1 < o' ∧ o' < b.length := by
  induction n generalizing o vs with
  | zero => cases h
  | succ n ih =>
    obtain ⟨item, p, hitem, hrest⟩ := parseElements_iff.mp h
    have htaken := hvalue _ _ _ hitem
    have hstart := htaken.skip hb
    have honward := htaken.onward
    rcases hrest with ⟨hcomma, next, rfl, hnext⟩ | ⟨hclose, rfl, rfl⟩
    · have hskip := skip_isAt hb hcomma (by decide)
      have hmore := ih hnext
      omega
    · have hskip := skip_isAt hb hclose (by decide)
      omega

theorem parseMembers_onward (hb : NulEnded b)
    (hvalue : ∀ o v o', value o = .ok v o' → Taken b o o') {vs : Members D}
    (h : parseMembers b value n o = .ok vs o') : o + 1 < o' ∧ o' < b.length := by
  induction n generalizing o vs with
  | zero => cases h
  | succ n ih =>
    obtain ⟨string, item, p, q, hstring, hcolon, hitem, hrest⟩ := parseMembers_iff.mp h
    have hname := parseString_taken hb hstring
    have hstart := hname.skip hb
    have honward := hname.onward
    have hbetween := skip_isAt hb hcolon (by decide)
    have htaken := hvalue _ _ _ hitem
    have hbegin := htaken.skip hb
    have hbehind := htaken.onward
    rcases hrest with ⟨hcomma, next, rfl, hnext⟩ | ⟨hclose, rfl, rfl⟩
    · have hskip := skip_isAt hb hcomma (by decide)
      have hmore := ih hnext
      omega
    · have hskip := skip_isAt hb hclose (by decide)
      omega

theorem parseArray_taken (hb : NulEnded b)
    (hvalue : ∀ o v o', value o = .ok v o' → Taken b o o') {v : Item D} (hat : b.isAt o 91)
    (h : parseArray b value o = .ok v o') : Taken b o o' := by
  have hopen : 32 < b.content o := by
    rw [hat.2]
    decide
  have hnext := hb.lt hat.1 (ne_zero_of_printed hopen)
  have hle := le_skip hnext
  rcases (parseArray_iff.mp h).2 with ⟨-, hclose, rfl⟩ | ⟨-, -, vs, -, hvs⟩
  · have hskip := skip_isAt hb hclose (by decide)
    exact ⟨hopen, by omega, hskip.2⟩
  · have hmore := parseElements_onward hb hvalue hvs
    exact ⟨hopen, by omega, hmore.2⟩

theorem parseObject_taken (hb : NulEnded b)
    (hvalue : ∀ o v o', value o = .ok v o' → Taken b o o') {v : Item D} (hat : b.isAt o 123)
    (h : parseObject b value o = .ok v o') : Taken b o o' := by
  have hopen : 32 < b.content o := by
    rw [hat.2]
    decide
  have hnext := hb.lt hat.1 (ne_zero_of_printed hopen)
  have hle := le_skip hnext
  rcases (parseObject_iff.mp h).2 with ⟨-, hclose, rfl⟩ | ⟨-, -, vs, -, hvs⟩
  · have hskip := skip_isAt hb hclose (by decide)
    exact ⟨hopen, by omega, hskip.2⟩
  · have hmore := parseMembers_onward hb hvalue hvs
    exact ⟨hopen, by omega, hmore.2⟩

theorem parseValueWith_taken (hb : NulEnded b) (hlaw : lib.Lawful)
    {nested : Option (Nat → Parsed (Item D))}
    (hnested : ∀ value, nested = some value → ∀ o v o', value o = .ok v o' → Taken b o o')
    {v : Item D} (h : parseValueWith b lib nested o = .ok v o') : Taken b o o' := by
  cases parseValueWith_ok h with
  | null hreads => exact reads_taken hb hreads (by decide) (by decide)
  | false hreads => exact reads_taken hb hreads (by decide) (by decide)
  | true hreads => exact reads_taken hb hreads (by decide) (by decide)
  | string hat hs => exact parseString_taken hb hs
  | number hat hd => exact parseNumber_taken hb hlaw hat hd
  | array hat heq hvs => exact parseArray_taken hb (hnested _ heq) hat hvs
  | object hat heq hvs => exact parseObject_taken hb (hnested _ heq) hat hvs

/-- **The parser goes on**: a value that is read takes something, and not the NUL. -/
theorem parseValue_taken (hb : NulEnded b) (hlaw : lib.Lawful) {v : Item D}
    (h : parseValue b lib levels o = .ok v o') : Taken b o o' := by
  induction levels generalizing o v o' with
  | zero =>
    refine parseValueWith_taken hb hlaw (fun value hnone => ?_) h
    cases hnone
  | succ levels ih =>
    refine parseValueWith_taken hb hlaw (fun value hsome o v o' hvalue => ?_) h
    cases hsome
    exact ih hvalue

/-- The rounds that are granted do not matter, if there are as many as characters ahead. -/
theorem parseElements_rounds (hb : NulEnded b)
    (hvalue : ∀ o v o', value o = .ok v o' → Taken b o o') (ho : o < b.length)
    (hn : b.length - o ≤ n) (hm : b.length - o ≤ m) :
    parseElements b value n o = parseElements b value m o := by
  induction n generalizing o m with
  | zero => omega
  | succ n ih =>
    obtain ⟨m, rfl⟩ : ∃ k, m = k + 1 := ⟨m - 1, by omega⟩
    rw [parseElements, parseElements]
    cases hitem : value (bufferSkipWhitespace b (o + 1)) with
    | fail p => rfl
    | ok item p =>
      have htaken := hvalue _ _ _ hitem
      have hstart := htaken.skip hb
      have honward := htaken.onward
      simp only
      by_cases hcomma : b.isAt (bufferSkipWhitespace b p) 44
      · have hskip := skip_isAt hb hcomma (by decide)
        have hrest := ih (m := m) hcomma.1 (by omega) (by omega)
        rw [if_pos hcomma, if_pos hcomma, hrest]
      · rw [if_neg hcomma, if_neg hcomma]

theorem parseMembers_rounds (hb : NulEnded b)
    (hvalue : ∀ o v o', value o = .ok v o' → Taken b o o') (ho : o < b.length)
    (hn : b.length - o ≤ n) (hm : b.length - o ≤ m) :
    parseMembers b value n o = parseMembers b value m o := by
  induction n generalizing o m with
  | zero => omega
  | succ n ih =>
    obtain ⟨m, rfl⟩ : ∃ k, m = k + 1 := ⟨m - 1, by omega⟩
    rw [parseMembers, parseMembers]
    cases hstring : parseString b (bufferSkipWhitespace b (o + 1)) with
    | fail p => rfl
    | ok string p =>
      have hname := parseString_taken hb hstring
      have hstart := hname.skip hb
      have honward := hname.onward
      simp only
      by_cases hcolon : b.isAt (bufferSkipWhitespace b p) 58
      · have hbetween := skip_isAt hb hcolon (by decide)
        rw [if_neg (not_not_intro hcolon), if_neg (not_not_intro hcolon)]
        cases hitem : value (bufferSkipWhitespace b (bufferSkipWhitespace b p + 1)) with
        | fail q => rfl
        | ok item q =>
          have htaken := hvalue _ _ _ hitem
          have hbegin := htaken.skip hb
          have hbehind := htaken.onward
          simp only
          by_cases hcomma : b.isAt (bufferSkipWhitespace b q) 44
          · have hskip := skip_isAt hb hcomma (by decide)
            have hrest := ih (m := m) hcomma.1 (by omega) (by omega)
            rw [if_pos hcomma, if_pos hcomma, hrest]
          · rw [if_neg hcomma, if_neg hcomma]
      · rw [if_pos hcolon, if_pos hcolon]

end Onward

end IBoxClient.Cjson
