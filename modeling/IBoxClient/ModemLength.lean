import IBoxClient.Lib.Rounds
import IBoxClient.NetFifo
import IBoxClient.WifiInbound
import IBoxClient.GprsInbound

/- The lengths that the modules announce.

   `esp8266_at_fsm` reads the length of a message after `+IPD,`, `gprs_at_fsm` that of an answer
   after `+CIPRXGET: 3,`. The two loops are the same but for the separator. They look for nothing
   else, so a text without one leads them past the end of the line (`scan_stops_iff`), and they
   add up whatever comes before it, modulo the size of a `uint16_t` (`scanValue_eq`). What comes
   out is trusted.

   The end of a line is its first NUL here, as for `strstr`. -/
namespace IBoxClient

open Bytes

/-! ## The loop -/

/-- `p_strstr`, as an offset in the buffer of the line, and the length read so far. -/
structure LengthScan where
  p : Nat
  len : Nat

/-- One round of `while (*p_strstr != sep)`, on the memory from the buffer on. -/
def lengthRound (sep : UInt8) (memory : List UInt8) (s : LengthScan) : LengthScan ⊕ LengthScan :=
  if memory.getD s.p 0 = sep then .inl s
  else .inr ⟨s.p + 1, (s.len * 10 + (memory.getD s.p 0).toNat + 65488) % 65536⟩

/-- What a text adds up to, from `len` on. -/
def scanValue (len : Nat) (text : List UInt8) : Nat :=
  text.foldl (fun n c => (n * 10 + c.toNat + 65488) % 65536) len

/-- The same over the integers: each byte counts as a digit, whether it is one or not. -/
def digitSum (text : List UInt8) : Int := text.foldl (fun n c => n * 10 + (c.toNat - 48)) 0

def IsDigit (c : UInt8) : Prop := 48 ≤ c.toNat ∧ c.toNat < 58

instance : DecidablePred IsDigit := fun _ => inferInstanceAs (Decidable (_ ∧ _))

/-- The text is the number in decimal digits, leading zeros allowed. -/
structure Denotes (text : List UInt8) (n : Nat) : Prop where
  ne_nil : text ≠ []
  digits : ∀ c ∈ text, IsDigit c
  value : ofDecimal text = n

section Scan
variable {sep : UInt8} {memory : List UInt8}

theorem getD_of_drop {i : Nat} {c : UInt8} {cs : List UInt8} (h : memory.drop i = c :: cs) :
    memory.getD i 0 = c ∧ memory.drop (i + 1) = cs := by
  refine ⟨?_, ?_⟩
  · have hhead := congrArg List.head? h
    rw [List.head?_drop, List.head?_cons] at hhead
    rw [List.getD_eq_getElem?_getD, hhead]
    rfl
  · rw [← List.drop_drop, h]
    rfl

/-- The loop stops at the first separator. -/
theorem scan_ends {text rest : List UInt8} (hsep : sep ∉ text) {p : Nat} (len : Nat)
    (h : memory.drop p = text ++ sep :: rest) :
    Rounds.Ends (lengthRound sep memory) ⟨p, len⟩ ⟨p + text.length, scanValue len text⟩ := by
  induction text generalizing p len with
  | nil =>
    obtain ⟨hget, -⟩ := getD_of_drop h
    exact ⟨1, Rounds.ends_succ_inl (by simp only [lengthRound, hget, if_true]; rfl) 0⟩
  | cons c cs ih =>
    obtain ⟨hget, hdrop⟩ := getD_of_drop h
    have hne : c ≠ sep := fun he => hsep (he ▸ List.mem_cons_self)
    obtain ⟨n, hn⟩ := ih (fun hmem => hsep (List.mem_cons_of_mem c hmem))
      ((len * 10 + c.toNat + 65488) % 65536) hdrop
    refine ⟨n + 1, ?_⟩
    rw [Rounds.ends_succ_inr (by simp only [lengthRound, hget, hne, if_false]; rfl), hn,
      List.length_cons, scanValue, scanValue, List.foldl_cons, Nat.add_right_comm p 1]
    rfl

/-- Where the loop stops there is a separator, not before its start. -/
theorem scan_stop {s s' : LengthScan} (h : Rounds.Ends (lengthRound sep memory) s s') :
    s.p ≤ s'.p ∧ memory.getD s'.p 0 = sep := by
  obtain ⟨n, hn⟩ := h
  induction n generalizing s with
  | zero => simp [Rounds.ends] at hn
  | succ n ih =>
    by_cases hget : memory.getD s.p 0 = sep
    · rw [Rounds.ends_succ_inl (b := s) (by simp only [lengthRound, hget, if_true])] at hn
      rw [← Option.some.inj hn]
      exact ⟨Nat.le_refl _, hget⟩
    · rw [Rounds.ends_succ_inr (by simp only [lengthRound, hget, if_false]; rfl)] at hn
      obtain ⟨hle, hsep⟩ := ih hn
      exact ⟨Nat.le_of_succ_le hle, hsep⟩

/-- What is in the memory up to the first NUL, and that NUL. -/
theorem getD_cstring (memory : List UInt8) :
    memory.getD (cstring memory).length 0 = 0 ∧
      ∀ i < (cstring memory).length, memory.getD i 0 = (cstring memory).getD i 0 := by
  induction memory with
  | nil => exact ⟨rfl, fun i hi => absurd hi (Nat.not_lt_zero i)⟩
  | cons c cs ih =>
    obtain ⟨hnul, hsame⟩ := ih
    by_cases hc : c = 0
    · have hnil : cstring (c :: cs) = [] := by simp [cstring, hc]
      rw [hnil, hc]
      exact ⟨rfl, fun i hi => absurd hi (Nat.not_lt_zero i)⟩
    · have hcons : cstring (c :: cs) = c :: cstring cs := by simp [cstring, hc]
      rw [hcons]
      constructor
      · exact hnul
      · intro i hi
        cases i with
        | zero => rfl
        | succ i =>
          have hmore := hsame i (Nat.lt_of_succ_lt_succ hi)
          simpa only [List.getD_cons_succ] using hmore

/-- A text in front of the first NUL is in the memory. -/
theorem drop_of_cstring {p : Nat} {t : List UInt8} (h : (cstring memory).drop p = t)
    (hp : p ≤ (cstring memory).length) : ∃ rest, memory.drop p = t ++ rest := by
  refine ⟨memory.dropWhile (· ≠ 0), ?_⟩
  have hsplit : cstring memory ++ memory.dropWhile (· ≠ 0) = memory :=
    List.takeWhile_append_dropWhile
  rw [← hsplit, List.drop_append_of_le_length hp, h, hsplit]

/-- **Stopping in time.** The loop stops at or before the first NUL if and only if there is a
separator in front of that NUL, and behind where the loop starts. -/
theorem scan_stops_iff (hsep : sep ≠ 0) (p : Nat) :
    (∃ s, Rounds.Ends (lengthRound sep memory) ⟨p, 0⟩ s ∧ s.p ≤ (cstring memory).length) ↔
      sep ∈ (cstring memory).drop p := by
  obtain ⟨hnul, hsame⟩ := getD_cstring memory
  constructor
  · intro h
    obtain ⟨s, hends, hle⟩ := h
    obtain ⟨hp, hget⟩ := scan_stop hends
    have hlt : s.p < (cstring memory).length := by
      apply Nat.lt_of_le_of_ne hle
      intro he
      rw [he, hnul] at hget
      exact hsep hget.symm
    rw [hsame s.p hlt, List.getD_eq_getElem?_getD, List.getElem?_eq_getElem hlt] at hget
    rw [List.mem_iff_getElem?]
    refine ⟨s.p - p, ?_⟩
    rw [List.getElem?_drop, Nat.add_sub_cancel' hp, List.getElem?_eq_getElem hlt]
    exact congrArg some hget
  · intro h
    obtain ⟨text, rest, htext, hnot⟩ := List.eq_append_cons_of_mem h
    have hlen := congrArg List.length htext
    rw [List.length_drop, List.length_append, List.length_cons] at hlen
    have hp : p ≤ (cstring memory).length := by omega
    obtain ⟨behind, hdrop⟩ := drop_of_cstring htext hp
    rw [List.append_assoc, List.cons_append] at hdrop
    refine ⟨_, scan_ends hnot 0 hdrop, ?_⟩
    simp only
    omega

end Scan

/-! ## What the text adds up to -/

/-- One byte more, modulo the size of a `uint16_t`. -/
theorem scanValue_from (text : List UInt8) (n : Nat) (k : Int) (hn : (n : Int) = k % 65536) :
    (scanValue n text : Int) =
      text.foldl (fun n c => n * 10 + ((c.toNat : Int) - 48)) k % 65536 := by
  induction text generalizing n k with
  | nil => exact hn
  | cons c cs ih =>
    rw [scanValue, List.foldl_cons, List.foldl_cons]
    apply ih
    push_cast
    omega

/-- **The length that comes out** is the sum of the text, modulo the size of a `uint16_t`. -/
theorem scanValue_eq (text : List UInt8) : (scanValue 0 text : Int) = digitSum text % 65536 :=
  scanValue_from text 0 0 rfl

theorem digitSum_from {text : List UInt8} (h : ∀ c ∈ text, IsDigit c) (n : Nat) :
    text.foldl (fun n c => n * 10 + ((c.toNat : Int) - 48)) (n : Int) =
      (text.foldl (fun n c => n * 10 + (c.toNat - 48)) n : Nat) := by
  induction text generalizing n with
  | nil => rfl
  | cons c cs ih =>
    obtain ⟨hge, -⟩ := h c List.mem_cons_self
    rw [List.foldl_cons, List.foldl_cons, ← ih fun c hc => h c (List.mem_cons_of_mem _ hc)]
    congr 1
    push_cast [hge]
    rfl

/-- Digits add up to the number. -/
theorem digitSum_digits {text : List UInt8} (h : ∀ c ∈ text, IsDigit c) :
    digitSum text = (ofDecimal text : Nat) :=
  digitSum_from h 0

/-- A number below the size of a `uint16_t` is read as it is. -/
theorem Denotes.scanValue {text : List UInt8} {n : Nat} (h : Denotes text n) (hn : n < 65536) :
    scanValue 0 text = n := by
  have hsum := scanValue_eq text
  rw [digitSum_digits h.digits, h.value] at hsum
  omega

theorem scanValue_lt (text : List UInt8) : scanValue 0 text < 65536 := by
  have hsum := scanValue_eq text
  omega

theorem not_mem_digits {c : UInt8} (hc : ¬ IsDigit c) {text : List UInt8} {n : Nat}
    (h : Denotes text n) : c ∉ text :=
  fun hmem => hc (h.digits c hmem)

/-! ## The two state machines -/

theorem ipdLength_append {text : List UInt8} (h : 58 ∉ text) (len : Nat) (rest : List UInt8) :
    ipdLength len (text ++ 58 :: rest) = some (scanValue len text, rest) := by
  induction text generalizing len with
  | nil => rw [List.nil_append, ipdLength, if_pos rfl, scanValue, List.foldl_nil]
  | cons c cs ih =>
    have hc : c ≠ 58 := fun he => h (he ▸ List.mem_cons_self)
    rw [List.cons_append, ipdLength, if_neg hc, ih fun hmem => h (List.mem_cons_of_mem c hmem),
      scanValue, scanValue, List.foldl_cons]

theorem rxLength_append {text : List UInt8} (h : 44 ∉ text) (len : Nat) (rest : List UInt8) :
    rxLength len (text ++ 44 :: rest) = some (scanValue len text) := by
  induction text generalizing len with
  | nil => rw [List.nil_append, rxLength, if_pos rfl, scanValue, List.foldl_nil]
  | cons c cs ih =>
    have hc : c ≠ 44 := fun he => h (he ▸ List.mem_cons_self)
    rw [List.cons_append, rxLength, if_neg hc, ih fun hmem => h (List.mem_cons_of_mem c hmem),
      scanValue, scanValue, List.foldl_cons]

/-- Where `esp8266_at_fsm` starts to read a length, if it does. -/
def wifiScan (i : WifiInput) (w : Wifi) : Option Nat :=
  if w.status = .communicate ∧ i.line ≠ [] ∧ ¬ i.has "CLOSED" ∧ ¬ i.has "ERROR" ∧
      ¬ i.has "SEND OK" then
    (i.find "+IPD,").map (· + 5)
  else none

/-- Where `gprs_at_fsm` starts to read a length, if it does. -/
def gprsScan (i : GprsInput) (g : Gprs) : Option Nat :=
  if g.status = .rxProc then (i.find "+CIPRXGET: 3").map (· + 13) else none

/-- **The calls of `net_rx_write`** of the WiFi module: the length that is read, and as many bytes
as there are in memory. -/
theorem esp8266AtFsm_netRxWrite {i : WifiInput} {w : Wifi} :
    (∃ start, wifiScan i w = some start ∧ (esp8266AtFsm i w).2 =
      ((ipdLength 0 (i.rxTemp.drop start)).map fun r =>
        WifiOut.netRxWrite r.1 (r.2.take r.1)).toList) ∨
    wifiScan i w = none ∧ ∀ len data, .netRxWrite len data ∉ (esp8266AtFsm i w).2 := by
  by_cases hstatus : w.status = .communicate
  · have hcall : esp8266AtFsm i w = communicate i w := by
      simp only [esp8266AtFsm, hstatus]
    rw [hcall, communicate]
    by_cases hline : i.line ≠ []
    · rw [if_pos hline]
      by_cases hclosed : i.has "CLOSED"
      · rw [if_pos hclosed]
        exact .inr ⟨if_neg fun h => h.2.2.1 hclosed, fun _ _ => List.not_mem_nil⟩
      rw [if_neg hclosed]
      by_cases herror : i.has "ERROR"
      · rw [if_pos herror]
        exact .inr ⟨if_neg fun h => h.2.2.2.1 herror, fun _ _ => List.not_mem_nil⟩
      rw [if_neg herror]
      by_cases hsent : i.has "SEND OK"
      · rw [if_pos hsent]
        exact .inr ⟨if_neg fun h => h.2.2.2.2 hsent,
          fun _ _ h => by cases List.mem_singleton.mp h⟩
      rw [if_neg hsent, wifiScan, if_pos ⟨hstatus, hline, hclosed, herror, hsent⟩]
      cases hfind : i.find "+IPD," with
      | none => exact .inr ⟨rfl, by simp [ipdMessage, hfind]⟩
      | some at_ =>
        refine .inl ⟨at_ + 5, rfl, ?_⟩
        simp only [ipdMessage, hfind]
        cases ipdLength 0 (i.rxTemp.drop (at_ + 5)) <;> rfl
    · rw [if_neg hline]
      refine .inr ⟨if_neg fun h => hline h.2.1, fun len data => ?_⟩
      dsimp only
      split <;> split <;> simp [esp8266SendData]
  · have hquiet : Quiet w (esp8266AtFsm i w) := quiet_step hstatus
    refine .inr ⟨if_neg fun h => hstatus h.1, fun len data hmem => ?_⟩
    exact Bool.false_ne_true (hquiet.plain _ hmem)

/-- The length after `+IPD,` is read safely. The loop stops in time, and what is given to
`net_rx_write` is the number in the line, fits into the buffer there and is in the line. -/
structure WifiLengthSafe (i : WifiInput) (w : Wifi) : Prop where
  stops : ∀ start, wifiScan i w = some start → ∃ s,
    Rounds.Ends (lengthRound 58 i.rxTemp) ⟨start, 0⟩ s ∧ s.p ≤ (cstring i.rxTemp).length
  told : ∀ len data, .netRxWrite len data ∈ (esp8266AtFsm i w).2 → ∃ start digits rest,
    wifiScan i w = some start ∧ i.line.drop start = digits ++ 58 :: rest ∧ Denotes digits len ∧
      1 ≤ len ∧ len ≤ netRxBufSize ∧ len ≤ rest.length

/-- The length after `+CIPRXGET: 3,` is read safely: the loop stops in time, and the length that
the answer is expected with is the number in the line. -/
structure GprsLengthSafe (i : GprsInput) (g : Gprs) : Prop where
  stops : ∀ start, gprsScan i g = some start → ∃ s,
    Rounds.Ends (lengthRound 44 i.rxTemp) ⟨start, 0⟩ s ∧ s.p ≤ (cstring i.rxTemp).length
  told : ∀ start, gprsScan i g = some start → (gprsAtFsm i g).1.status = .frameProc →
    ∃ digits rest, i.line.drop start = digits ++ 44 :: rest ∧
      Denotes digits (gprsAtFsm i g).1.rxCounter

/-- A line with a message has its length in decimal digits, then the colon, then the message. -/
def IpdWellFormed (i : WifiInput) (w : Wifi) : Prop :=
  ∀ start, wifiScan i w = some start → ∃ n digits rest, i.line.drop start = digits ++ 58 :: rest ∧
    Denotes digits n ∧ 1 ≤ n ∧ n ≤ netRxBufSize ∧ n ≤ rest.length

/-- An answer has a text that a comma ends: a length in decimal digits, or one that adds up to
nothing, which is refused. -/
def RxGetWellFormed (i : GprsInput) (g : Gprs) : Prop :=
  ∀ start, gprsScan i g = some start → ∃ text rest,
    (cstring i.line).drop start = text ++ 44 :: rest ∧ 44 ∉ text ∧
      ((∃ n < 65536, Denotes text n) ∨ (65536 : Int) ∣ digitSum text)

section Safe
variable {i : WifiInput}

theorem cstring_rxTemp (hline : i.line.length < uart3RxSize) : cstring i.rxTemp = cstring i.line :=
  cstring_field hline i.beyond

/-- What is found is in front of the first NUL. -/
theorem wifiScan_le {w : Wifi} {start : Nat} (h : wifiScan i w = some start) :
    start ≤ (cstring i.rxTemp).length := by
  unfold wifiScan at h
  split at h
  · obtain ⟨at_, hfind, rfl⟩ := Option.map_eq_some_iff.mp h
    exact strstr_le hfind
  · cases h

/-- The text of a line from a place in front of the first NUL on. -/
theorem drop_line {start : Nat} (hline : i.line.length < uart3RxSize)
    (hstart : start ≤ (cstring i.rxTemp).length) :
    (cstring i.rxTemp).drop start = cstring (i.line.drop start) := by
  rw [cstring_rxTemp hline] at hstart ⊢
  exact drop_cstring hstart

/-- Digits and a separator are in front of the first NUL. -/
theorem cstring_digits {sep : UInt8} (hsep : sep ≠ 0) {digits rest : List UInt8} {n : Nat}
    (h : Denotes digits n) :
    cstring (digits ++ sep :: rest) = digits ++ sep :: cstring rest := by
  rw [cstring_append (not_mem_digits (by decide) h)]
  congr 1
  exact List.takeWhile_cons_of_pos (by simpa using hsep)

/-- Bytes are handed over with the length that is read. -/
theorem esp8266AtFsm_length {w : Wifi} {start : Nat} (hscan : wifiScan i w = some start)
    {text rest : List UInt8} (hnot : 58 ∉ text)
    (htext : (cstring i.rxTemp).drop start = text ++ 58 :: rest) :
    ∃ data, (esp8266AtFsm i w).2 = [.netRxWrite (scanValue 0 text) data] := by
  rcases esp8266AtFsm_netRxWrite (i := i) (w := w) with ⟨start', hscan', hout⟩ | ⟨hnone, -⟩
  · obtain rfl : start = start' := Option.some.inj (hscan.symm.trans hscan')
    obtain ⟨behind, hmemory⟩ := drop_of_cstring htext (wifiScan_le hscan)
    rw [List.append_assoc, List.cons_append] at hmemory
    rw [hmemory, ipdLength_append hnot, Option.map_some, Option.toList_some] at hout
    exact ⟨_, hout⟩
  · cases hscan.symm.trans hnone

theorem wifi_safe_iff (hline : i.line.length < uart3RxSize) (w : Wifi) :
    WifiLengthSafe i w ↔ IpdWellFormed i w := by
  constructor
  · intro h start hscan
    have hcolon := (scan_stops_iff (by decide) start).mp (h.stops start hscan)
    obtain ⟨text, rest, htext, hnot⟩ := List.eq_append_cons_of_mem hcolon
    obtain ⟨data, hout⟩ := esp8266AtFsm_length hscan hnot htext
    have hmem : .netRxWrite (scanValue 0 text) data ∈ (esp8266AtFsm i w).2 := by
      rw [hout]
      exact List.mem_singleton_self _
    obtain ⟨start', digits, rest', hscan', hrest⟩ := h.told _ _ hmem
    obtain rfl : start = start' := Option.some.inj (hscan.symm.trans hscan')
    exact ⟨scanValue 0 text, digits, rest', hrest⟩
  · intro h
    -- the line from where its length begins, up to its first NUL
    have htext : ∀ start, wifiScan i w = some start → ∀ digits rest n,
        i.line.drop start = digits ++ 58 :: rest → Denotes digits n →
        (cstring i.rxTemp).drop start = digits ++ 58 :: cstring rest := by
      intro start hscan digits rest n hsplit hdigits
      rw [drop_line hline (wifiScan_le hscan), hsplit, cstring_digits (by decide) hdigits]
    constructor
    · intro start hscan
      obtain ⟨n, digits, rest, hsplit, hdigits, -⟩ := h start hscan
      apply (scan_stops_iff (by decide) start).mpr
      rw [htext start hscan digits rest n hsplit hdigits]
      simp
    · intro len data hmem
      rcases esp8266AtFsm_netRxWrite (i := i) (w := w) with ⟨start, hscan, -⟩ | ⟨-, hnone⟩
      · obtain ⟨n, digits, rest, hsplit, hdigits, hpos, hsize, hrest⟩ := h start hscan
        obtain ⟨data', hout⟩ := esp8266AtFsm_length hscan (not_mem_digits (by decide) hdigits)
          (htext start hscan digits rest n hsplit hdigits)
        have hsmall : n < 65536 := by
          unfold netRxBufSize at hsize
          omega
        rw [hout, hdigits.scanValue hsmall, List.mem_singleton] at hmem
        obtain ⟨rfl, -⟩ := WifiOut.netRxWrite.inj hmem
        exact ⟨start, digits, rest, hscan, hsplit, hdigits, hpos, hsize, hrest⟩
      · exact absurd hmem (hnone len data)

theorem gprsScan_eq {g : Gprs} {start : Nat} (h : gprsScan i g = some start) :
    g.status = .rxProc ∧ ∃ at_, i.find "+CIPRXGET: 3" = some at_ ∧ at_ + 13 = start := by
  unfold gprsScan at h
  split at h
  · next hstatus => exact ⟨hstatus, Option.map_eq_some_iff.mp h⟩
  · cases h

/-- The answer is expected with the length that is read, if that is not zero. -/
theorem gprsAtFsm_length {g : Gprs} {start : Nat} (h : gprsScan i g = some start)
    {text rest : List UInt8} (hnot : 44 ∉ text)
    (hmemory : i.rxTemp.drop start = text ++ 44 :: rest) :
    (gprsAtFsm i g).1.rxCounter = scanValue 0 text ∧
      ((gprsAtFsm i g).1.status = .frameProc ↔ scanValue 0 text ≠ 0) := by
  obtain ⟨hstatus, at_, hfind, rfl⟩ := gprsScan_eq h
  simp only [gprsAtFsm, hstatus, hfind, hmemory, rxLength_append hnot, true_and]
  split <;> simp_all

/-- The text that is read, where there is one, and what is behind it in the line. -/
theorem gprs_text {start : Nat} (hline : i.line.length < uart3RxSize) {text rest : List UInt8}
    (htext : (cstring i.line).drop start = text ++ 44 :: rest) :
    (∃ behind, i.rxTemp.drop start = text ++ 44 :: behind) ∧
      ∃ behind, i.line.drop start = text ++ 44 :: behind := by
  have hlen := congrArg List.length htext
  rw [List.length_drop, List.length_append, List.length_cons] at hlen
  have hle : start ≤ (cstring i.line).length := by omega
  obtain ⟨behind, hbehind⟩ := drop_of_cstring htext hle
  rw [← cstring_rxTemp hline] at htext hle
  obtain ⟨beyond, hbeyond⟩ := drop_of_cstring htext hle
  simp only [List.append_assoc, List.cons_append] at hbehind hbeyond
  exact ⟨⟨_, hbeyond⟩, ⟨_, hbehind⟩⟩

theorem gprs_safe_iff (hline : i.line.length < uart3RxSize) (g : Gprs) :
    GprsLengthSafe i g ↔ RxGetWellFormed i g := by
  have hnul := cstring_rxTemp hline
  constructor
  · intro h start hstart
    have hcomma := (scan_stops_iff (by decide) start).mp (h.stops start hstart)
    rw [hnul] at hcomma
    obtain ⟨text, rest, htext, hnot⟩ := List.eq_append_cons_of_mem hcomma
    refine ⟨text, rest, htext, hnot, ?_⟩
    obtain ⟨⟨beyond, hbeyond⟩, behind, hbehind⟩ := gprs_text hline htext
    obtain ⟨hcounter, hframe⟩ := gprsAtFsm_length hstart hnot hbeyond
    by_cases hzero : scanValue 0 text = 0
    · right
      have hsum := scanValue_eq text
      omega
    · left
      obtain ⟨digits, rest', hsplit, hdigits⟩ := h.told start hstart (hframe.mpr hzero)
      have hsame : text = digits := Delimited.eq_of_append_delim hnot
        (not_mem_digits (by decide) hdigits) (hbehind.symm.trans hsplit)
      rw [hcounter, ← hsame] at hdigits
      exact ⟨scanValue 0 text, scanValue_lt text, hdigits⟩
  · intro h
    constructor
    · intro start hstart
      obtain ⟨text, rest, htext, -, -⟩ := h start hstart
      apply (scan_stops_iff (by decide) start).mpr
      rw [hnul, htext]
      simp
    · intro start hstart hframe
      obtain ⟨text, rest, htext, hnot, hvalue⟩ := h start hstart
      obtain ⟨⟨beyond, hbeyond⟩, behind, hbehind⟩ := gprs_text hline htext
      obtain ⟨hcounter, hnonzero⟩ := gprsAtFsm_length hstart hnot hbeyond
      rw [hcounter]
      refine ⟨text, behind, hbehind, ?_⟩
      rcases hvalue with ⟨n, hn, hdenotes⟩ | hrefused
      · rw [hdenotes.scanValue hn]
        exact hdenotes
      · have hsum := scanValue_eq text
        have hzero := hnonzero.mp hframe
        omega

end Safe

/-- **The lengths of the modules.** For a line that fits into the buffer, a length is read safely
if and only if it is well formed. -/
theorem modem_lengths_iff {i : WifiInput} (hline : i.line.length ≤ 1459) (w : Wifi) (g : Gprs) :
    (WifiLengthSafe i w ↔ IpdWellFormed i w) ∧ (GprsLengthSafe i g ↔ RxGetWellFormed i g) := by
  have hsize : i.line.length < uart3RxSize := Nat.lt_succ_of_le hline
  exact ⟨wifi_safe_iff hsize w, gprs_safe_iff hsize g⟩

/-- A call that finds a line. -/
def lineInput (line : List UInt8) : WifiInput := ⟨line, [], fun _ => 0, []⟩

theorem modem_lengths_iff_fit :
    WifiLengthSafe (lineInput (ascii "+IPD,2:ab")) idleWifi ∧
      GprsLengthSafe (lineInput (ascii "+CIPRXGET: 3,72,0")) (gprsIn .rxProc) := by
  have hshort : (lineInput (ascii "+IPD,2:ab")).line.length ≤ 1459 := by decide
  have hlong : (lineInput (ascii "+CIPRXGET: 3,72,0")).line.length ≤ 1459 := by decide
  have hscan : wifiScan (lineInput (ascii "+IPD,2:ab")) idleWifi = some 5 := by decide +kernel
  have hscan' : gprsScan (lineInput (ascii "+CIPRXGET: 3,72,0")) (gprsIn .rxProc) = some 13 := by
    decide +kernel
  constructor
  · apply (modem_lengths_iff hshort idleWifi (gprsIn .rxProc)).1.mpr
    intro start hstart
    obtain rfl : 5 = start := Option.some.inj (hscan.symm.trans hstart)
    exact ⟨2, [50], ascii "ab", rfl, ⟨by decide, List.forall_mem_singleton.mpr (by decide), rfl⟩,
      by decide, by decide, by decide⟩
  · apply (modem_lengths_iff hlong idleWifi (gprsIn .rxProc)).2.mpr
    intro start hstart
    obtain rfl : 13 = start := Option.some.inj (hscan'.symm.trans hstart)
    exact ⟨ascii "72", ascii "0", by decide, by decide,
      .inl ⟨72, by decide, ⟨by decide, by decide +kernel, rfl⟩⟩⟩

/-- A message of five bytes with a CR inside is cut off in front of it, and yet handed over with
five bytes. An answer without the second comma leads behind the line. -/
theorem cut_off_lengths :
    ¬ WifiLengthSafe (lineInput (ascii "+IPD,5:ab")) idleWifi ∧
      ¬ GprsLengthSafe (lineInput (ascii "+CIPRXGET: 3,72")) (gprsIn .rxProc) := by
  constructor
  · intro h
    have hcall : .netRxWrite 5 (ascii "ab" ++ [0, 0, 0]) ∈
        (esp8266AtFsm (lineInput (ascii "+IPD,5:ab")) idleWifi).2 := by decide +kernel
    have hscan : wifiScan (lineInput (ascii "+IPD,5:ab")) idleWifi = some 5 := by decide +kernel
    obtain ⟨start, digits, rest, hstart, hsplit, -, -, -, hrest⟩ := h.told _ _ hcall
    obtain rfl : 5 = start := Option.some.inj (hscan.symm.trans hstart)
    have hlength := congrArg List.length hsplit
    rw [List.length_append, List.length_cons] at hlength
    have hline : ((lineInput (ascii "+IPD,5:ab")).line.drop 5).length = 4 := rfl
    omega
  · intro h
    have hscan : gprsScan (lineInput (ascii "+CIPRXGET: 3,72")) (gprsIn .rxProc) = some 13 := by
      decide +kernel
    have hcomma := (scan_stops_iff (by decide) 13).mp (h.stops 13 hscan)
    exact absurd hcomma (by decide +kernel)

end IBoxClient
