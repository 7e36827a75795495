import IBoxClient.WifiFsm

/- A message that comes from the server on its way through `esp8266_at_fsm`.

   The module puts it between `+IPD,<length>:` and CR LF. The reader of lines drops every
   LF and ends the line at a CR, also inside of the message, and the tests for `CLOSED`,
   `ERROR` and `SEND OK` come before the one for `+IPD`. `net_rx_write` is always given
   the length the module has told, so a line that is too short is filled up with zeros.

   What passes unchanged is exactly a message without CR and LF that has none of the
   three words in front of its first NUL: `inbound_transparent_iff`. -/
namespace IBoxClient

open Bytes

/-- The circumstances of a call of `esp8266_at_fsm`. -/
structure WifiCall where
  beyond : List UInt8
  clock : Nat → UInt32
  txBuf : List UInt8

/-- The ring and the state machine when no byte is received between the calls. -/
def pollStep (s : Uart3 × Wifi) (call : WifiCall) : (Uart3 × Wifi) × List WifiOut :=
  let r := wifiPoll call.beyond call.clock call.txBuf s.1 s.2
  ((r.1, r.2.1), r.2.2)

/-- What the module puts in front of a message. -/
def ipdHead (len : Nat) : List UInt8 := ascii "+IPD," ++ decimal len ++ [58]

/-- What the module sends for a message. -/
def ipdFrame (d : List UInt8) : List UInt8 := [cr, lf] ++ ipdHead d.length ++ d ++ [cr, lf]

/-- The length and the bytes of a call of `net_rx_write`. -/
def WifiOut.rxWrite : WifiOut → Option (Nat × List UInt8)
  | .netRxWrite len data => some (len, data)
  | _ => none

/-- The calls hand over the message once and unchanged, and nothing else happens. -/
def Transparent (u : Uart3) (w : Wifi) (d : List UInt8) : Prop :=
  (∀ calls, (Machine.last pollStep (u, w) calls).2.status = .communicate ∧
    (Machine.last pollStep (u, w) calls).2.txLen = 0 ∧
    (Machine.last pollStep (u, w) calls).2.sendFlag = true ∧
    .netTxSemRelease ∉ Machine.out pollStep (u, w) calls) ∧
  ∃ n, ∀ calls, n ≤ calls.length →
    (Machine.out pollStep (u, w) calls).filterMap WifiOut.rxWrite = [(d.length, d)]

/-- The link is up and nothing is waiting to be sent. -/
def Wifi.Idle (w : Wifi) : Prop :=
  w.status = .communicate ∧ w.txLen = 0 ∧ w.sendFlag = true

/-- None of the words that are tested for before `+IPD` occurs, as far as `strstr` looks. -/
def Wordless (t : List UInt8) : Prop :=
  ¬ ascii "CLOSED" <:+: cstring t ∧ ¬ ascii "ERROR" <:+: cstring t ∧
    ¬ ascii "SEND OK" <:+: cstring t

instance : DecidablePred Wordless := fun _ => inferInstanceAs (Decidable (_ ∧ _ ∧ _))

/-- Neither the reader of lines nor a test before the one for `+IPD` finds anything in
the message. -/
def Untouched (d : List UInt8) : Prop := cr ∉ d ∧ lf ∉ d ∧ Wordless d

instance : DecidablePred Untouched := fun _ => inferInstanceAs (Decidable (_ ∧ _ ∧ _))

/-! ## The length -/

theorem ipdLength_digits {digits : List UInt8} (h : ∀ c ∈ digits, 48 ≤ c.toNat ∧ c.toNat < 58)
    (len : Nat) (rest : List UInt8) :
    ipdLength (len % 65536) (digits ++ 58 :: rest) =
      some (digits.foldl (fun n c => n * 10 + (c.toNat - 48)) len % 65536, rest) := by
  induction digits generalizing len with
  | nil => rw [List.nil_append, ipdLength, if_pos rfl, List.foldl_nil]
  | cons c cs ih =>
    obtain ⟨hge, hlt⟩ := h c List.mem_cons_self
    have hcolon : c ≠ 58 := by
      rintro rfl
      exact absurd hlt (by decide)
    have hstep := digit_step16 hge hlt len
    rw [List.cons_append, ipdLength, if_neg hcolon, hstep, List.foldl_cons,
      ih fun c hc => h c (List.mem_cons_of_mem _ hc)]

theorem ipdLength_decimal {len : Nat} (h : len < 65536) (rest : List UInt8) :
    ipdLength 0 (decimal len ++ 58 :: rest) = some (len, rest) := by
  have hparse := ipdLength_digits (fun c hc => mem_decimal (n := len) hc) 0 rest
  rwa [← ofDecimal, ofDecimal_decimal, Nat.mod_eq_of_lt h] at hparse

/-- A byte in front of a message is one of `+IPD,`, a digit or the colon. -/
theorem not_mem_ipdHead {c : UInt8} (h : c ∉ ascii "+IPD,")
    (hdigit : ¬ (48 ≤ c.toNat ∧ c.toNat ≤ 58)) (len : Nat) : c ∉ ipdHead len := by
  simp only [ipdHead, List.mem_append, List.mem_singleton, not_or]
  refine ⟨⟨h, fun hc => ?_⟩, ?_⟩
  · have := mem_decimal hc
    omega
  · rintro rfl
    exact hdigit (by decide)

/-! ## A line that carries a message -/

/-- The line `+IPD,<len>:` with the text `t`, as a call finds it. -/
abbrev ipdInput (len : Nat) (t : List UInt8) (call : WifiCall) : WifiInput :=
  ⟨ipdHead len ++ t, call.beyond, call.clock, call.txBuf⟩

section Line

variable {len : Nat} {t : List UInt8} {call : WifiCall}

theorem rxTemp_ipdInput : (ipdInput len t call).rxTemp =
    ipdHead len ++ (field (uart3RxSize - (ipdHead len).length) t ++ call.beyond) := by
  simp only [WifiInput.rxTemp, field, List.length_append, List.append_assoc, Nat.sub_sub]

theorem cstring_ipdInput (h : (ipdHead len ++ t).length < uart3RxSize) :
    cstring (ipdInput len t call).rxTemp = ipdHead len ++ cstring t := by
  rw [List.length_append] at h
  rw [rxTemp_ipdInput, cstring_append (not_mem_ipdHead (by decide) (by decide) len),
    cstring_field (by omega)]

/-- A word that cannot begin in front of the message is found only in it. -/
theorem has_ipdInput (h : (ipdHead len ++ t).length < uart3RxSize) (word : String) {c : UInt8}
    {cs : List UInt8} (hword : ascii word = c :: cs) (hc : c ∉ ascii "+IPD,")
    (hdigit : ¬ (48 ≤ c.toNat ∧ c.toNat ≤ 58)) :
    (ipdInput len t call).has word = true ↔ ascii word <:+: cstring t := by
  rw [WifiInput.has, WifiInput.find, cstring_ipdInput h, isSome_strstr, hword,
    infix_append_of_head (not_mem_ipdHead hc hdigit len)]

/-- The message is what the line has after the colon, filled up to the length told. -/
theorem ipdMessage_ipdInput (hlen : len < 65536)
    (h : (ipdHead len ++ t).length < uart3RxSize)
    (hroom : (ipdHead len).length + len ≤ uart3RxSize) :
    ipdMessage (ipdInput len t call) =
      [.netRxWrite len ((field (uart3RxSize - (ipdHead len).length) t).take len)] := by
  have hfind : (ipdInput len t call).find "+IPD," = some 0 := by
    rw [WifiInput.find, cstring_ipdInput h, ipdHead, List.append_assoc, List.append_assoc,
      strstr_append]
  have hhead : ((ipdInput len t call).rxTemp).drop (0 + 5) = decimal len ++
      58 :: (field (uart3RxSize - (ipdHead len).length) t ++ call.beyond) := by
    rw [rxTemp_ipdInput]
    simp only [ipdHead, List.append_assoc]
    rfl
  have hwide : len ≤ (field (uart3RxSize - (ipdHead len).length) t).length := by
    rw [List.length_append] at h
    simp only [field, List.length_append, List.length_replicate]
    omega
  simp only [ipdMessage, hfind, hhead, ipdLength_decimal hlen, List.take_append_of_le_length hwide]

theorem wordless_iff (call : WifiCall) (h : (ipdHead len ++ t).length < uart3RxSize) :
    Wordless t ↔ (ipdInput len t call).has "CLOSED" = false ∧
      (ipdInput len t call).has "ERROR" = false ∧ (ipdInput len t call).has "SEND OK" = false := by
  simp only [Wordless, ← Bool.not_eq_true]
  rw [has_ipdInput h "CLOSED" rfl (by decide) (by decide),
    has_ipdInput h "ERROR" rfl (by decide) (by decide),
    has_ipdInput h "SEND OK" rfl (by decide) (by decide)]

theorem ipdInput_line_ne : (ipdInput len t call).line ≠ [] := by
  simp [ipdHead]

/-- A line with one of the words is not taken for a message. -/
theorem wordless_of_communicate (h : (ipdHead len ++ t).length < uart3RxSize) {w : Wifi}
    (hstatus : (communicate (ipdInput len t call) w).1.status = .communicate)
    (hsem : .netTxSemRelease ∉ (communicate (ipdInput len t call) w).2) : Wordless t := by
  rw [communicate, if_pos ipdInput_line_ne] at hstatus hsem
  rw [wordless_iff call h]
  by_cases hclosed : (ipdInput len t call).has "CLOSED" = true
  · rw [if_pos hclosed] at hstatus
    cases hstatus
  rw [if_neg hclosed] at hstatus hsem
  by_cases herror : (ipdInput len t call).has "ERROR" = true
  · rw [if_pos herror] at hstatus
    cases hstatus
  rw [if_neg herror] at hsem
  by_cases hsent : (ipdInput len t call).has "SEND OK" = true
  · rw [if_pos hsent] at hsem
    exact absurd List.mem_cons_self hsem
  · simp only [Bool.not_eq_true] at hclosed herror hsent
    exact ⟨hclosed, herror, hsent⟩

theorem communicate_ipd (hlen : len < 65536) (h : (ipdHead len ++ t).length < uart3RxSize)
    (hroom : (ipdHead len).length + len ≤ uart3RxSize) (hwordless : Wordless t) (w : Wifi) :
    communicate (ipdInput len t call) w =
      (w, [.netRxWrite len ((field (uart3RxSize - (ipdHead len).length) t).take len)]) := by
  obtain ⟨hclosed, herror, hsent⟩ := (wordless_iff call h).mp hwordless
  rw [communicate, if_pos ipdInput_line_ne]
  simp only [hclosed, herror, hsent, Bool.false_eq_true, if_false,
    ipdMessage_ipdInput hlen h hroom]

end Line

/-! ## The calls -/

theorem clear_not_mem_communicate (i : WifiInput) (w : Wifi) :
    .rxBufClear ∉ (communicate i w).2 := by
  have hmessage : .rxBufClear ∉ ipdMessage i := by
    unfold ipdMessage
    split
    · split <;> simp
    · simp
  unfold communicate
  dsimp only
  repeat' split
  all_goals simp [hmessage, esp8266SendData]

/-- A call while the link is up. -/
theorem pollStep_up {u : Uart3} {w : Wifi} (hw : w.status = .communicate) (call : WifiCall) :
    pollStep (u, w) call =
      (((getLineFromUart3 u).2,
        (communicate ⟨(getLineFromUart3 u).1, call.beyond, call.clock, call.txBuf⟩ w).1),
        (communicate ⟨(getLineFromUart3 u).1, call.beyond, call.clock, call.txBuf⟩ w).2) := by
  simp only [pollStep, wifiPoll, esp8266AtFsm, hw, if_neg (clear_not_mem_communicate _ w)]

/-- A call that finds no line. -/
theorem pollStep_empty {u : Uart3} {w : Wifi} (hw : w.Idle) (hline : (getLineFromUart3 u).1 = [])
    (call : WifiCall) : pollStep (u, w) call = (((getLineFromUart3 u).2, w), []) := by
  obtain ⟨hstatus, hlen, hflag⟩ := hw
  rw [pollStep_up hstatus]
  simp [communicate, hline, hlen, hflag]

/-- Nothing but LF is left in the ring: nothing happens any more. -/
theorem run_drained {u : Uart3} {w : Wifi} (hw : w.Idle) (hu : u.Ok) (h : ∀ b ∈ u.contents, b = lf)
    (calls : List WifiCall) : ∃ u', Machine.run pollStep (u, w) calls = ((u', w), []) := by
  induction calls generalizing u with
  | nil => exact ⟨u, rfl⟩
  | cons call calls ih =>
    obtain ⟨hline, hcontents, hok⟩ := getLine_spec hu
    have hcr : cr ∉ u.contents := fun hmem => absurd (h cr hmem) (by decide)
    rw [Delimited.takeSegment_of_not_mem hcr] at hline hcontents
    have hempty : (getLineFromUart3 u).1 = [] := by
      rw [hline, List.filter_eq_nil_iff]
      intro b hb
      simp [h b hb]
    obtain ⟨u', hrun⟩ := ih hok (by rw [hcontents]; exact fun _ hb => (List.not_mem_nil hb).elim)
    refine ⟨u', ?_⟩
    rw [Machine.run, pollStep_empty hw hempty, hrun]
    rfl

/-- The text of the line that carries a message: what is in front of its first CR,
without its LFs. -/
abbrev carried (d : List UInt8) : List UInt8 := Delimited.openText cr notLf d

theorem lf_not_mem_carried (d : List UInt8) : lf ∉ carried d := by
  intro h
  simpa using List.of_mem_filter h

theorem carried_eq {d : List UInt8} (hcr : cr ∉ d) (hlf : lf ∉ d) : carried d = d := by
  rw [carried, Delimited.openText, Delimited.takeWhile_of_not_mem hcr, List.filter_eq_self]
  intro b hb
  simp only [decide_eq_true_eq]
  exact fun h => hlf (h ▸ hb)

/-- The second line. -/
theorem takeSegment_ipd (len : Nat) (d : List UInt8) :
    ∃ rest, Delimited.takeSegment cr notLf (lf :: (ipdHead len ++ d ++ [cr, lf])) =
      (ipdHead len ++ carried d, rest) ∧ (cr ∉ d → rest = [lf]) := by
  -- the line ends at the first CR of the message, or at the one behind it
  have hsplit : ∃ rest, d ++ [cr, lf] = d.takeWhile (· ≠ cr) ++ cr :: rest ∧
      (cr ∉ d → rest = [lf]) := by
    by_cases hcr : cr ∈ d
    · obtain ⟨b, hb, -⟩ := Delimited.split_at_delim hcr
      refine ⟨b ++ [cr, lf], ?_, fun h => absurd hcr h⟩
      conv_lhs => rw [hb]
      rw [List.append_assoc, List.cons_append]
    · exact ⟨[lf], by rw [Delimited.takeWhile_of_not_mem hcr], fun _ => rfl⟩
  obtain ⟨rest, hrest, hlast⟩ := hsplit
  refine ⟨rest, ?_, hlast⟩
  have hhead : cr ∉ ipdHead len := not_mem_ipdHead (by decide) (by decide) len
  have hhead' : (ipdHead len).filter notLf = ipdHead len := by
    rw [List.filter_eq_self]
    intro b hb
    simp only [decide_eq_true_eq]
    exact fun h => not_mem_ipdHead (by decide) (by decide) len (h ▸ hb)
  have hfront : cr ∉ lf :: (ipdHead len ++ d.takeWhile (· ≠ cr)) := by
    simp only [List.mem_cons, List.mem_append, not_or]
    exact ⟨by decide, hhead, Delimited.not_mem_takeWhile d⟩
  rw [List.append_assoc, hrest, ← List.append_assoc, ← List.cons_append,
    Delimited.takeSegment_segment hfront, List.filter_cons_of_neg (by decide),
    List.filter_append, hhead', carried, Delimited.openText]

section Frame

variable {u : Uart3} {w : Wifi} {d : List UInt8} (hu : u.Ok) (hring : u.contents = ipdFrame d)
  (hw : w.Idle)

include hu hring

/-- A message that fits into the ring fits into a line. -/
theorem room_frame : (ipdHead d.length).length + d.length + 4 < uart3RxSize := by
  have hcount := hu.count_lt
  rw [← Uart3.length_contents, hring] at hcount
  simpa [ipdFrame, Nat.add_comm, Nat.add_left_comm, Nat.add_assoc] using hcount

include hw

/-- The line in front of the message is empty. -/
theorem first_call : ∃ u', u'.Ok ∧ u'.contents = lf :: (ipdHead d.length ++ d ++ [cr, lf]) ∧
    ∀ call, pollStep (u, w) call = ((u', w), []) := by
  obtain ⟨hline, hcontents, hok⟩ := getLine_spec hu
  have hfirst : u.contents = [] ++ cr :: lf :: (ipdHead d.length ++ d ++ [cr, lf]) := by
    rw [hring, ipdFrame, List.append_assoc, List.append_assoc, ← List.append_assoc (ipdHead _)]
    rfl
  rw [hfirst, Delimited.takeSegment_segment List.not_mem_nil] at hline hcontents
  exact ⟨_, hok, hcontents, pollStep_empty hw hline⟩

end Frame

/-- The next line carries the message. -/
theorem second_call {u : Uart3} {w : Wifi} {d : List UInt8} (hu : u.Ok)
    (hring : u.contents = lf :: (ipdHead d.length ++ d ++ [cr, lf])) (hw : w.Idle) :
    ∃ u', u'.Ok ∧ (cr ∉ d → u'.contents = [lf]) ∧ ∀ call, pollStep (u, w) call =
      ((u', (communicate (ipdInput d.length (carried d) call) w).1),
        (communicate (ipdInput d.length (carried d) call) w).2) := by
  obtain ⟨hline, hcontents, hok⟩ := getLine_spec hu
  obtain ⟨rest, hsegment, hrest⟩ := takeSegment_ipd d.length d
  rw [hring, hsegment] at hline hcontents
  refine ⟨_, hok, fun hcr => hcontents.trans (hrest hcr), fun call => ?_⟩
  rw [pollStep_up hw.1, hline]

section Frame

variable {u : Uart3} {w : Wifi} {d : List UInt8} (hu : u.Ok) (hring : u.contents = ipdFrame d)
  (hw : w.Idle)

include hu hring hw

theorem transparent_of_untouched (h : Untouched d) : Transparent u w d := by
  obtain ⟨hcr, hlf, hwordless⟩ := h
  have hroom := room_frame hu hring
  have hsize : uart3RxSize = 1460 := rfl
  obtain ⟨u₁, hok₁, hring₁, hfirst⟩ := first_call hu hring hw
  obtain ⟨u₂, hok₂, hring₂, hsecond⟩ := second_call hok₁ hring₁ hw
  -- after the second call only the LF behind the message is left
  have hdrained : ∀ b ∈ u₂.contents, b = lf := by
    rw [hring₂ hcr]
    exact fun b hb => List.mem_singleton.mp hb
  have hmessage : ∀ call, pollStep (u₁, w) call = ((u₂, w), [.netRxWrite d.length d]) := by
    intro call
    have hline : (ipdHead d.length ++ d).length < uart3RxSize := by
      rw [List.length_append]
      omega
    rw [hsecond, carried_eq hcr hlf, communicate_ipd (by omega) hline (by omega) hwordless,
      field, List.take_left]
  have hruns : ∀ call call' calls, ∃ u', Machine.run pollStep (u, w) (call :: call' :: calls) =
      ((u', w), [.netRxWrite d.length d]) := by
    intro call call' calls
    obtain ⟨u', hrest⟩ := run_drained hw hok₂ hdrained calls
    refine ⟨u', ?_⟩
    rw [Machine.run, hfirst, Machine.run, hmessage, hrest]
    rfl
  obtain ⟨hstatus, hlen, hflag⟩ := hw
  refine ⟨fun calls => ?_, 2, fun calls hcalls => ?_⟩
  · rcases calls with _ | ⟨call, _ | ⟨call', calls⟩⟩
    · exact ⟨hstatus, hlen, hflag, List.not_mem_nil⟩
    · rw [Machine.last_cons, Machine.out_cons, hfirst]
      exact ⟨hstatus, hlen, hflag, List.not_mem_nil⟩
    · obtain ⟨u', hrun⟩ := hruns call call' calls
      simp [Machine.last, Machine.out, hrun, hstatus, hlen, hflag]
  · obtain ⟨call, call', calls, rfl⟩ : ∃ call call' rest, calls = call :: call' :: rest := by
      rcases calls with _ | ⟨call, _ | ⟨call', calls⟩⟩
      · cases hcalls
      · cases Nat.le_of_succ_le_succ hcalls
      · exact ⟨call, call', calls, rfl⟩
    obtain ⟨u', hrun⟩ := hruns call call' calls
    rw [Machine.out, hrun]
    rfl

theorem untouched_of_transparent (h : Transparent u w d) : Untouched d := by
  obtain ⟨hsilent, n, hwrites⟩ := h
  have hroom := room_frame hu hring
  have hcarried : (carried d).length ≤ d.length := Delimited.length_openText d
  have hsize : uart3RxSize = 1460 := rfl
  obtain ⟨u₁, hok₁, hring₁, hfirst⟩ := first_call hu hring hw
  obtain ⟨u₂, -, -, hsecond⟩ := second_call hok₁ hring₁ hw
  have hline : (ipdHead d.length ++ carried d).length < uart3RxSize := by
    rw [List.length_append]
    omega
  have hout : ∀ call calls, Machine.out pollStep (u, w) (call :: call :: calls) =
      (communicate (ipdInput d.length (carried d) call) w).2 ++ Machine.out pollStep
        (u₂, (communicate (ipdInput d.length (carried d) call) w).1) calls := by
    intro call calls
    rw [Machine.out_cons, hfirst, Machine.out_cons, hsecond]
    rfl
  let call : WifiCall := ⟨[], fun _ => 0, []⟩
  -- a word would have been acted upon by the second call
  have hwordless : Wordless (carried d) := by
    obtain ⟨hstatus, -, -, hsem⟩ := hsilent [call, call]
    rw [Machine.last_cons, Machine.last_cons, hfirst, hsecond] at hstatus
    rw [hout, Machine.out_nil, List.append_nil] at hsem
    exact wordless_of_communicate hline hstatus hsem
  -- what has been written is not taken back, so it is right from the beginning
  have hmessage :
      (field (uart3RxSize - (ipdHead d.length).length) (carried d)).take d.length = d := by
    have hwrite := hwrites (call :: call :: List.replicate n call) (by simp; omega)
    rw [hout, communicate_ipd (by omega) hline (by omega) hwordless] at hwrite
    rw [List.cons_append, List.filterMap_cons] at hwrite
    have hhead := (List.cons.inj hwrite).1
    exact (Prod.mk.inj hhead).2
  -- what is written comes from the line or from the filling, neither of which has CR or LF
  have hmem : ∀ c ∈ d, c ∈ carried d ∨ c = 0 := by
    intro c hc
    rw [← hmessage] at hc
    rcases List.mem_append.mp (List.mem_of_mem_take hc) with hc | hc
    · exact .inl hc
    · exact .inr (List.eq_of_mem_replicate hc)
  have hcr : cr ∉ d := by
    intro hc
    rcases hmem cr hc with hc | hc
    · exact Delimited.not_mem_openText d hc
    · exact absurd hc (by decide)
  have hlf : lf ∉ d := by
    intro hc
    rcases hmem lf hc with hc | hc
    · exact lf_not_mem_carried d hc
    · exact absurd hc (by decide)
  rw [carried_eq hcr hlf] at hwordless
  exact ⟨hcr, hlf, hwordless⟩

end Frame

/-- **Inbound messages.** A message that the module has put into the ring passes through
the state machine once and unchanged if and only if it has no CR, no LF, and none of the
three words in front of its first NUL. -/
theorem inbound_transparent_iff {u : Uart3} {w : Wifi} {d : List UInt8} (hu : u.Ok)
    (hring : u.contents = ipdFrame d) (hw : w.Idle) : Transparent u w d ↔ Untouched d :=
  ⟨untouched_of_transparent hu hring hw, transparent_of_untouched hu hring hw⟩

/-- The module, with the link up and nothing waiting. -/
def idleWifi : Wifi := { Wifi.initial .initial with status := .communicate }

/-- The acknowledgement of a packet. -/
def pubackOf (packetId : UInt8) : List UInt8 := [0x40, 2, 0, packetId]

theorem inbound_transparent_iff_puback :
    Transparent (ringOf (ipdFrame (pubackOf 1))) idleWifi (pubackOf 1) :=
  (inbound_transparent_iff (ok_ringOf _) (by decide +kernel) ⟨rfl, rfl, rfl⟩).mpr
    (by decide +kernel)

/-- The packet 10 is an LF, so its acknowledgement does not pass. -/
theorem puback_of_lf_altered :
    (ringOf (ipdFrame (pubackOf 10))).contents = ipdFrame (pubackOf 10) ∧ idleWifi.Idle ∧
      ¬ Transparent (ringOf (ipdFrame (pubackOf 10))) idleWifi (pubackOf 10) := by
  have hring : (ringOf (ipdFrame (pubackOf 10))).contents = ipdFrame (pubackOf 10) := by
    decide +kernel
  refine ⟨hring, ⟨rfl, rfl, rfl⟩, fun h => ?_⟩
  obtain ⟨-, hlf, -⟩ := untouched_of_transparent (ok_ringOf _) hring ⟨rfl, rfl, rfl⟩ h
  exact absurd hlf (by decide)

end IBoxClient
