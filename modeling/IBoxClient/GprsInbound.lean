import IBoxClient.GprsFsm
import IBoxClient.WifiInbound

/- A message that comes from the server on its way through `gprs_at_fsm`.

   On `+CIPRXGET: 1` the machine asks for the message as it is (mode 2), but in `RX_PROC` it
   looks for the answer of mode 3, the one with hexadecimal digits. So what it asks for it
   never takes: `ascii_not_delivered`. Where the answer of mode 3 comes, the machine checks
   that there are two digits for each byte, and then hands over the digits, as many as there
   should be bytes: `hex_delivered_iff`. -/
namespace IBoxClient

open Bytes

/-- The calls find these lines, and otherwise none. -/
def Finds (is : List GprsInput) (lines : List (List UInt8)) : Prop :=
  (is.filter (·.line ≠ [])).map (·.line) = lines

/-- What is given to `net_rx_write`. -/
def rxWrites (outs : List WifiOut) : List (Nat × List UInt8) := outs.filterMap WifiOut.rxWrite

/-- The calls hand over the message, once, and the machine is back in `COMMUNICATE`. -/
def Delivered (g : Gprs) (is : List GprsInput) (d : List UInt8) : Prop :=
  rxWrites (Machine.out gprsStep g is) = [(d.length, d)] ∧
    (Machine.last gprsStep g is).status = .communicate

/-- The module does not leave the machine waiting for longer than any of the timeouts. -/
def InTime (g : Gprs) (i : GprsInput) : Prop :=
  i.line = [] → i.clock 0 - g.timeout ≤ rtTickPerSecond * 2

/-- The answer to `AT+CIPRXGET` in a mode, a digit. -/
def ciprxget (mode : UInt8) (len : Nat) : List UInt8 :=
  ascii "+CIPRXGET: " ++ mode :: 44 :: (decimal len ++ [44, 48])

/-- A message in the mode that is asked for. -/
def DeliversAscii (d : List UInt8) : Prop :=
  cr ∉ d → lf ∉ d → ∀ g is, g.status = .communicate →
    Finds is [ascii "+CIPRXGET: 1", ciprxget 50 d.length, d] →
    Machine.Along gprsStep InTime g is → Delivered g is d

/-- A message as hexadecimal digits. -/
def DeliversHex (d : List UInt8) : Prop :=
  ∀ upper g is, g.status = .rxProc → Finds is [ciprxget 51 d.length, hexText upper d] →
    Machine.Along gprsStep InTime g is → Delivered g is d

/-! ## The lines -/

theorem finds_cons {is : List GprsInput} {line : List UInt8} {lines : List (List UInt8)}
    (h : Finds is (line :: lines)) :
    ∃ idle i rest, is = idle ++ i :: rest ∧ (∀ j ∈ idle, j.line = []) ∧ i.line = line ∧
      Finds rest lines := by
  obtain ⟨i, is', hfilter, hi, hrest⟩ := List.map_eq_cons_iff.mp h
  obtain ⟨idle, rest, his, hidle, -, hfilter'⟩ := List.filter_eq_cons_iff.mp hfilter
  refine ⟨idle, i, rest, his, fun j hj => ?_, hi, ?_⟩
  · simpa using hidle j hj
  · rw [Finds, hfilter']
    exact hrest

theorem finds_nil {is : List GprsInput} (h : Finds is []) : ∀ i ∈ is, i.line = [] := by
  intro i hi
  have hfilter := List.filter_eq_nil_iff.mp (List.map_eq_nil_iff.mp h) i hi
  simpa using hfilter

theorem rxWrites_append (a b : List WifiOut) : rxWrites (a ++ b) = rxWrites a ++ rxWrites b :=
  List.filterMap_append

/-- Outside of `FRAME_PROC`, and without a line, nothing is handed over. -/
theorem rxWrites_call {g : Gprs} {i : GprsInput} (h : g.status ≠ .frameProc ∨ i.line = []) :
    rxWrites (gprsAtFsm i g).2 = [] := by
  apply List.filterMap_eq_nil_iff.mpr
  intro out hout
  rcases (gprs_can i g).outs out hout with hplain | ⟨⟨_, rfl⟩, -⟩ | ⟨-, hframe, hline⟩
  · cases out with
    | netRxWrite len data => exact absurd hplain Bool.false_ne_true
    | _ => rfl
  · rfl
  · exact absurd hframe (h.resolve_right hline)

theorem rxWrites_idle {is : List GprsInput} (hidle : ∀ i ∈ is, i.line = []) (g : Gprs) :
    rxWrites (Machine.out gprsStep g is) = [] := by
  induction is generalizing g with
  | nil => rfl
  | cons i is ih =>
    obtain ⟨hi, his⟩ := List.forall_mem_cons.mp hidle
    rw [Machine.out_cons, rxWrites_append, rxWrites_call (.inr hi), ih his]
    rfl

/-! ## The mode that is asked for -/

/-- The answer of mode 3 does not occur. -/
def NoMode3 (i : GprsInput) : Prop := i.has "+CIPRXGET: 3" = false

theorem noMode3_idle {i : GprsInput} (h : i.line = []) : NoMode3 i :=
  WifiInput.has_idle h (by decide)

/-- A line that begins like an answer, but of another mode. -/
theorem noMode3_line {i : GprsInput} {mode : UInt8} {rest : List UInt8}
    (hline : i.line = ascii "+CIPRXGET: " ++ mode :: rest) (hmode : mode ≠ 51)
    (hplus : 43 ∉ mode :: rest) (hsize : i.line.length < uart3RxSize) : NoMode3 i := by
  have htext : cstring i.rxTemp = ascii "+CIPRXGET: " ++ cstring (mode :: rest) := by
    rw [WifiInput.rxTemp, cstring_field hsize, hline, cstring_append (by decide)]
  have hrest : 43 ∉ ascii "CIPRXGET: " ++ cstring (mode :: rest) := by
    rw [List.mem_append, not_or]
    exact ⟨by decide, fun h => hplus ((List.takeWhile_sublist _).mem h)⟩
  rw [NoMode3, WifiInput.has, WifiInput.find, htext, Bool.eq_false_iff, ne_eq, isSome_strstr]
  intro hfound
  -- it can only begin at the plus sign
  have hhead : ascii "+CIPRXGET: " ++ [51] <+: ascii "+CIPRXGET: " ++ cstring (mode :: rest) := by
    have hnot : ¬ 43 :: ascii "CIPRXGET: 3" <:+: ascii "CIPRXGET: " ++ cstring (mode :: rest) := by
      intro h
      rw [← List.append_nil (ascii "CIPRXGET: " ++ cstring (mode :: rest)),
        infix_append_of_head hrest] at h
      cases List.infix_nil.mp h
    exact (List.infix_cons_iff.mp hfound).resolve_right hnot
  obtain ⟨tail, htail⟩ := (List.prefix_append_right_inj _).mp hhead
  cases hmem : cstring (mode :: rest) with
  | nil =>
    rw [hmem] at htail
    cases htail
  | cons c cs =>
    rw [hmem] at htail
    have hc : c = mode := by
      rw [cstring, List.takeWhile_cons] at hmem
      split at hmem
      · exact (List.cons.inj hmem).1.symm
      · cases hmem
    exact hmode (hc.symm.trans (List.cons.inj htail).1.symm)

/-- What is not led to `FRAME_PROC` hands nothing over. -/
theorem not_frame_run {is : List GprsInput} (h : ∀ i ∈ is, NoMode3 i) {g : Gprs}
    (hg : g.status ≠ .frameProc) :
    (Machine.last gprsStep g is).status ≠ .frameProc ∧
      rxWrites (Machine.out gprsStep g is) = [] := by
  induction is generalizing g with
  | nil => exact ⟨hg, rfl⟩
  | cons i is ih =>
    obtain ⟨hi, his⟩ := List.forall_mem_cons.mp h
    have hnext : (gprsStep g i).1.status ≠ .frameProc := by
      intro hframe
      rcases (gprs_can i g).frame hframe with hthere | ⟨-, hmode⟩
      · exact hg hthere
      · exact Bool.false_ne_true (hi.symm.trans hmode)
    obtain ⟨hlast, hout⟩ := ih his hnext
    refine ⟨hlast, ?_⟩
    rw [Machine.out_cons, rxWrites_append, rxWrites_call (.inl hg), hout]
    rfl

/-- An answer fits into the buffer, and its only plus sign is the first character. -/
theorem answer_line {len : Nat} {mode : UInt8} (hmode : 43 ≠ mode) (hle : len ≤ 700) :
    43 ∉ mode :: 44 :: (decimal len ++ [44, 48]) ∧ (ciprxget mode len).length < uart3RxSize := by
  have hdigits := length_decimal_le (n := len) (by decide : 0 < 3) (by omega)
  have hplus : 43 ∉ decimal len := fun h => absurd (mem_decimal h).1 (by decide)
  constructor
  · simp [hplus, hmode]
  · simp only [ciprxget, List.length_append, List.length_cons, List.length_nil]
    show 11 + _ < 1460
    omega

/-- What is asked for on `+CIPRXGET: 1` is not handed over. -/
theorem ascii_not_delivered {d : List UInt8} (hle : d.length ≤ 700) {g : Gprs}
    {is : List GprsInput} (hg : g.status = .communicate)
    (his : Finds is [ascii "+CIPRXGET: 1", ciprxget 50 d.length, d]) : ¬ Delivered g is d := by
  obtain ⟨idle, i, rest, rfl, hidle, hi, hrest⟩ := finds_cons his
  obtain ⟨idle', j, rest', rfl, hidle', hj, hrest'⟩ := finds_cons hrest
  obtain ⟨idle'', k, rest'', rfl, hidle'', hk, hrest''⟩ := finds_cons hrest'
  intro h
  obtain ⟨hwrites, -⟩ := h
  -- nothing leads to `FRAME_PROC` before the message
  have hbefore : ∀ x ∈ idle ++ i :: (idle' ++ j :: idle''), NoMode3 x := by
    have hi' : NoMode3 i := noMode3_line (hi : i.line = _ ++ 49 :: []) (by decide) (by decide)
      (by rw [hi]; decide)
    have hj' : NoMode3 j := by
      obtain ⟨hplus, hsize⟩ := answer_line (by decide : (43 : UInt8) ≠ 50) hle
      exact noMode3_line hj (by decide) hplus (by rw [hj]; exact hsize)
    intro x hx
    simp only [List.mem_append, List.mem_cons] at hx
    rcases hx with hx | rfl | hx | rfl | hx
    · exact noMode3_idle (hidle x hx)
    · exact hi'
    · exact noMode3_idle (hidle' x hx)
    · exact hj'
    · exact noMode3_idle (hidle'' x hx)
  obtain ⟨hframe, hnone⟩ := not_frame_run hbefore (g := g) (by rw [hg]; nofun)
  have hsplit : idle ++ i :: (idle' ++ j :: (idle'' ++ k :: rest'')) =
      (idle ++ i :: (idle' ++ j :: idle'')) ++ k :: rest'' := by simp
  rw [hsplit, Machine.out_append, rxWrites_append, hnone, Machine.out_cons, rxWrites_append,
    rxWrites_call (.inl hframe), rxWrites_idle (finds_nil hrest'')] at hwrites
  nomatch hwrites

/-! ## The mode that is taken -/

/-- The machine waits for the answer, or for the digits. -/
theorem run_waiting {is : List GprsInput} {g : Gprs}
    (hg : g.status = .rxProc ∨ g.status = .frameProc) (hidle : ∀ i ∈ is, i.line = [])
    (htime : Machine.Along gprsStep InTime g is) :
    Machine.last gprsStep g is = g ∧ Machine.out gprsStep g is = [] := by
  induction is with
  | nil => exact ⟨rfl, rfl⟩
  | cons i is ih =>
    obtain ⟨hi, his⟩ := List.forall_mem_cons.mp hidle
    have hsoon : i.clock 0 - g.timeout ≤ 200 := htime.1 hi
    have hcall : gprsStep g i = (g, []) := by
      have hlate : ¬ i.clock 0 - g.timeout > rtTickPerSecond * 10 :=
        UInt32.not_lt.mpr (UInt32.le_trans hsoon (by decide))
      rcases hg with hg | hg
      · simp only [gprsStep, gprsAtFsm, hg, WifiInput.find_idle hi (by decide : ascii "+CIPRXGET: 3" ≠ []),
          hlate, if_false]
      · simp only [gprsStep, gprsAtFsm, hg, hi, ne_eq, not_true_eq_false, if_false]
        exact if_neg (UInt32.not_lt.mpr hsoon)
    have htime' := htime.2
    rw [hcall] at htime'
    rw [Machine.last_cons, Machine.out_cons, hcall]
    exact ih his htime'

/-- The machine waits until the line comes, and goes on with the call on it. -/
theorem run_to_line {g : Gprs} {is : List GprsInput} {line : List UInt8}
    {lines : List (List UInt8)} (hg : g.status = .rxProc ∨ g.status = .frameProc)
    (his : Finds is (line :: lines)) (htime : Machine.Along gprsStep InTime g is) :
    ∃ i rest, i.line = line ∧ Finds rest lines ∧
      Machine.last gprsStep g is = Machine.last gprsStep (gprsStep g i).1 rest ∧
      Machine.out gprsStep g is = (gprsStep g i).2 ++ Machine.out gprsStep (gprsStep g i).1 rest ∧
      Machine.Along gprsStep InTime (gprsStep g i).1 rest := by
  obtain ⟨idle, i, rest, rfl, hidle, hi, hrest⟩ := finds_cons his
  obtain ⟨hbefore, hafter⟩ := Machine.along_append.mp htime
  obtain ⟨hlast, hout⟩ := run_waiting hg hidle hbefore
  rw [hlast] at hafter
  refine ⟨i, rest, hi, hrest, ?_, ?_, hafter.2⟩
  · calc Machine.last gprsStep g (idle ++ i :: rest)
        = Machine.last gprsStep (Machine.last gprsStep g idle) (i :: rest) :=
          Machine.last_append ..
      _ = Machine.last gprsStep (gprsStep g i).1 rest := by rw [hlast, Machine.last_cons]
  · calc Machine.out gprsStep g (idle ++ i :: rest)
        = Machine.out gprsStep g idle ++
            Machine.out gprsStep (Machine.last gprsStep g idle) (i :: rest) :=
          Machine.out_append ..
      _ = Machine.out gprsStep g (i :: rest) := by rw [hlast, hout, List.nil_append]
      _ = (gprsStep g i).2 ++ Machine.out gprsStep (gprsStep g i).1 rest := Machine.out_cons ..

/-- After the message the machine stays in `COMMUNICATE`. -/
theorem run_communicate {is : List GprsInput} {g : Gprs} (hg : g.status = .communicate)
    (hidle : ∀ i ∈ is, i.line = []) (htime : Machine.Along gprsStep InTime g is) :
    (Machine.last gprsStep g is).status = .communicate := by
  induction is generalizing g with
  | nil => exact hg
  | cons i is ih =>
    obtain ⟨hi, his⟩ := List.forall_mem_cons.mp hidle
    have hsoon : i.clock 0 - g.timeout ≤ 200 := htime.1 hi
    refine ih ?_ his htime.2
    have hlate : ¬ i.clock 0 - g.timeout > rtTickPerSecond * 10 :=
      UInt32.not_lt.mpr (UInt32.le_trans hsoon (by decide))
    have hnone : ∀ text : String, ascii text ≠ [] → i.has text = false :=
      fun _ htext => WifiInput.has_idle hi htext
    simp only [gprsStep, gprsAtFsm, hg, gprsCommunicate, hnone "CLOSED" (by decide),
      hnone "+PDP DEACT" (by decide), hnone "+CIPRXGET: 1" (by decide),
      hnone "SEND OK" (by decide), hnone "SEND FAIL" (by decide), hnone "ERROR" (by decide),
      Bool.false_eq_true, if_false, hlate, false_and]
    split
    · rfl
    · exact hg

theorem rxLength_digits {digits : List UInt8} (h : ∀ c ∈ digits, 48 ≤ c.toNat ∧ c.toNat < 58)
    (len : Nat) (rest : List UInt8) :
    rxLength (len % 65536) (digits ++ 44 :: rest) =
      some (digits.foldl (fun n c => n * 10 + (c.toNat - 48)) len % 65536) := by
  induction digits generalizing len with
  | nil => rw [List.nil_append, rxLength, if_pos rfl, List.foldl_nil]
  | cons c cs ih =>
    obtain ⟨hge, hlt⟩ := h c List.mem_cons_self
    have hcomma : c ≠ 44 := by
      rintro rfl
      exact absurd hge (by decide)
    have hstep := digit_step16 hge hlt len
    rw [List.cons_append, rxLength, if_neg hcomma, hstep, List.foldl_cons,
      ih fun c hc => h c (List.mem_cons_of_mem _ hc)]

theorem rxLength_decimal {len : Nat} (h : len < 65536) (rest : List UInt8) :
    rxLength 0 (decimal len ++ 44 :: rest) = some len := by
  have hparse := rxLength_digits (fun c hc => mem_decimal (n := len) hc) 0 rest
  rwa [← ofDecimal, ofDecimal_decimal, Nat.mod_eq_of_lt h] at hparse

/-- The answer of mode 3. -/
theorem answer_call {g : Gprs} {i : GprsInput} {len : Nat} (hg : g.status = .rxProc)
    (hpos : 1 ≤ len) (hle : len ≤ 700) (hi : i.line = ciprxget 51 len) :
    gprsAtFsm i g =
      ({ g with rxCounter := len, status := .frameProc, timeout := i.clock 0 }, []) := by
  obtain ⟨-, hsize⟩ := answer_line (by decide : (43 : UInt8) ≠ 51) hle
  rw [← hi] at hsize
  have hfind : i.find "+CIPRXGET: 3" = some 0 := by
    have htext : cstring i.rxTemp =
        ascii "+CIPRXGET: 3" ++ cstring (44 :: (decimal len ++ [44, 48])) := by
      have hsplit : i.line = ascii "+CIPRXGET: 3" ++ 44 :: (decimal len ++ [44, 48]) := hi
      rw [WifiInput.rxTemp, cstring_field hsize, hsplit, cstring_append (by decide)]
    rw [WifiInput.find, htext, strstr_append]
  have hdrop : i.rxTemp.drop (0 + 13) = decimal len ++ 44 ::
      (48 :: List.replicate (uart3RxSize - i.line.length) 0 ++ i.beyond) := by
    rw [WifiInput.rxTemp, field, hi, ciprxget]
    simp only [List.append_assoc, List.cons_append, List.nil_append]
    rfl
  have hlen : len ≠ 0 := Nat.ne_of_gt hpos
  simp only [gprsAtFsm, hg, hfind, hdrop, rxLength_decimal (by omega : len < 65536), hlen, ne_eq,
    not_false_eq_true, if_true]

/-- The digits are cut off after half of them. -/
theorem digits_call {g : Gprs} {i : GprsInput} {upper : Bool} {d : List UInt8}
    (hg : g.status = .frameProc) (hcounter : g.rxCounter = d.length) (hpos : 1 ≤ d.length)
    (hi : i.line = hexText upper d) :
    gprsAtFsm i g = ({ g with status := .communicate },
      [.netRxWrite d.length ((hexText upper d).take d.length)]) := by
  have hlength := length_hexText upper d
  have hline : hexText upper d ≠ [] := by
    intro h
    rw [h, List.length_nil] at hlength
    omega
  have htake : i.rxTemp.take d.length = (hexText upper d).take d.length := by
    rw [WifiInput.rxTemp, field, hi, List.append_assoc, List.take_append_of_le_length (by omega)]
  simp only [gprsAtFsm, hg, hi, hcounter, hline, hlength, htake, ne_eq, not_false_eq_true,
    not_true_eq_false, if_true, if_false]

/-- The digits are handed over in place of the message. -/
theorem hex_delivered_iff {d : List UInt8} (hpos : 1 ≤ d.length) (hle : d.length ≤ 700)
    {upper : Bool} {g : Gprs} {is : List GprsInput} (hg : g.status = .rxProc)
    (his : Finds is [ciprxget 51 d.length, hexText upper d])
    (htime : Machine.Along gprsStep InTime g is) :
    Delivered g is d ↔ ∀ b ∈ d, b = 51 := by
  obtain ⟨i, rest, hi, hrest, hlast, hout, htime⟩ := run_to_line (.inl hg) his htime
  have hanswer : gprsStep g i = _ := answer_call hg hpos hle hi
  rw [hanswer] at hlast hout htime
  obtain ⟨j, rest', hj, hrest', hlast', hout', htime'⟩ := run_to_line (.inr rfl) hrest htime
  have hdigits := digits_call (g := { g with
    rxCounter := d.length, status := .frameProc, timeout := i.clock 0 }) rfl rfl hpos hj
  rw [show gprsStep _ j = _ from hdigits] at hlast' hout' htime'
  have hidle := finds_nil hrest'
  have hwrites : rxWrites (Machine.out gprsStep g is) =
      [(d.length, (hexText upper d).take d.length)] := by
    rw [hout, hout', List.nil_append, rxWrites_append, rxWrites_idle hidle]
    rfl
  have hstatus : (Machine.last gprsStep g is).status = .communicate := by
    rw [hlast, hlast']
    exact run_communicate rfl hidle htime'
  calc Delivered g is d
      ↔ [(d.length, (hexText upper d).take d.length)] = [(d.length, d)] := by
        rw [Delivered, hwrites]
        exact and_iff_left hstatus
    _ ↔ (hexText upper d).take d.length = d := by simp
    _ ↔ ∀ b ∈ d, b = 51 := take_hexText_iff upper d

/-- The machine in some state. -/
def gprsIn (status : GprsStatus) : Gprs := { Gprs.initial .initial with status := status }

/-- One call for each line, with a clock that stands still. -/
def calls (lines : List (List UInt8)) : List GprsInput := lines.map (⟨·, [], fun _ => 0, []⟩)

theorem finds_calls {lines : List (List UInt8)} (h : ∀ line ∈ lines, line ≠ []) :
    Finds (calls lines) lines := by
  induction lines with
  | nil => rfl
  | cons line lines ih =>
    obtain ⟨hline, hlines⟩ := List.forall_mem_cons.mp h
    rw [Finds, calls, List.map_cons, List.filter_cons_of_pos (by simpa using hline), List.map_cons]
    exact congrArg _ (ih hlines)

theorem inTime_calls {lines : List (List UInt8)} (h : ∀ line ∈ lines, line ≠ []) (g : Gprs) :
    Machine.Along gprsStep InTime g (calls lines) := by
  induction lines generalizing g with
  | nil => trivial
  | cons line lines ih =>
    obtain ⟨hline, hlines⟩ := List.forall_mem_cons.mp h
    exact ⟨fun hempty => absurd hempty hline, ih hlines _⟩

/-- **Inbound data.** No message is delivered in both ways: none in the mode that is asked
for, and as digits only a message of `3`s. -/
theorem gprs_inbound_iff {d : List UInt8} (hpos : 1 ≤ d.length) (hle : d.length ≤ 700) :
    ¬ (DeliversAscii d ∧ DeliversHex d) ∧ (DeliversHex d ↔ ∀ b ∈ d, b = 51) ∧
      ∀ g is, g.status = .communicate →
        Finds is [ascii "+CIPRXGET: 1", ciprxget 50 d.length, d] → ¬ Delivered g is d := by
  have hd : d ≠ [] := List.ne_nil_of_length_pos hpos
  have hhex : DeliversHex d ↔ ∀ b ∈ d, b = 51 := by
    constructor
    · intro h
      have hdigits : hexText true d ≠ [] := by
        rw [← List.length_pos_iff, length_hexText]
        omega
      have hlines : ∀ line ∈ [ciprxget 51 d.length, hexText true d], line ≠ [] := by
        simp [hdigits, ciprxget]
      have htime := inTime_calls hlines (gprsIn .rxProc)
      exact (hex_delivered_iff hpos hle rfl (finds_calls hlines) htime).mp
        (h _ _ _ rfl (finds_calls hlines) htime)
    · intro h upper g is hg his htime
      exact (hex_delivered_iff hpos hle hg his htime).mpr h
  refine ⟨?_, hhex, fun g is hg his => ascii_not_delivered hle hg his⟩
  intro h
  obtain ⟨hascii, hdigits⟩ := h
  have hall := hhex.mp hdigits
  have hlines : ∀ line ∈ [ascii "+CIPRXGET: 1", ciprxget 50 d.length, d], line ≠ [] := by
    simp [hd, ciprxget]
    decide
  have hnot : ∀ c : UInt8, c ≠ 51 → c ∉ d := fun c hc hmem => hc (hall c hmem)
  exact ascii_not_delivered hle rfl (finds_calls hlines)
    (hascii (hnot cr (by decide)) (hnot lf (by decide)) (gprsIn .communicate) _ rfl
      (finds_calls hlines) (inTime_calls hlines _))

/-! The message `a`. -/

theorem gprs_inbound_a :
    ¬ (DeliversAscii [97] ∧ DeliversHex [97]) ∧
      (DeliversHex [97] ↔ ∀ b ∈ ([97] : List UInt8), b = 51) ∧
      ∀ g is, g.status = .communicate →
        Finds is [ascii "+CIPRXGET: 1", ciprxget 50 1, [97]] → ¬ Delivered g is [97] :=
  gprs_inbound_iff (d := [97]) (by decide) (by decide)

/-- As asked for it is not handed over, and of its digits the `6` is. -/
theorem a_not_delivered :
    ¬ DeliversAscii [97] ∧ ¬ DeliversHex [97] ∧
      rxWrites (Machine.out gprsStep (gprsIn .communicate)
        (calls [ascii "+CIPRXGET: 1", ciprxget 50 1, [97]])) = [] ∧
      rxWrites (Machine.out gprsStep (gprsIn .rxProc)
        (calls [ciprxget 51 1, hexText true [97]])) = [(1, [54])] := by
  have hnone : rxWrites (Machine.out gprsStep (gprsIn .communicate)
      (calls [ascii "+CIPRXGET: 1", ciprxget 50 1, [97]])) = [] := by decide +kernel
  have hsix : rxWrites (Machine.out gprsStep (gprsIn .rxProc)
      (calls [ciprxget 51 1, hexText true [97]])) = [(1, [54])] := by decide +kernel
  refine ⟨fun h => ?_, fun h => ?_, hnone, hsix⟩
  · have hlines : ∀ line ∈ [ascii "+CIPRXGET: 1", ciprxget 50 1, [97]], line ≠ [] := by
      decide +kernel
    have hwrite := (h (by decide) (by decide) (gprsIn .communicate) _ rfl (finds_calls hlines)
      (inTime_calls hlines _)).1
    exact absurd (hnone.symm.trans hwrite) (by decide)
  · have hlines : ∀ line ∈ [ciprxget 51 1, hexText true [97]], line ≠ [] := by decide +kernel
    have hwrite := (h true (gprsIn .rxProc) _ rfl (finds_calls hlines) (inTime_calls hlines _)).1
    exact absurd (hsix.symm.trans hwrite) (by decide)

end IBoxClient
