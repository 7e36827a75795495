import IBoxClient.IBoxConfig
import IBoxClient.Lib.Rounds
import IBoxClient.Uart3

/- The number of the GPRS module (`gprs_get_imei`, in a build without `USE_WIFI`, the only
   one in which it is called).

   The loop reads lines until one of them has 15 bytes, which is the number. It also stops
   when a line has no bytes, as it does not tell an empty line from an empty ring; and the
   module begins its reply with an empty line.

   So the number is read exactly if no line in front of it is empty, or it is the one that
   was there before: `get_imei_iff`. -/
namespace IBoxClient

open Bytes

/-- `gprs_imei` is set. -/
def IboxConfig.setGprsImei (config : IboxConfig) (imei : Nat) : IboxConfig where
  bytes := writeAt config.bytes 143 (littleEndian 8 imei)
  length_eq := by
    simp only [writeAt, List.length_append, List.length_take, List.length_drop,
      length_littleEndian, config.length_eq]
    decide

/-- One round of the loop of `gprs_get_imei`: the length of the line is kept in eight bits,
and `imei_buf` has twenty bytes. -/
def imeiRound (s : Uart3 × IboxConfig) : (Uart3 × IboxConfig) ⊕ (Uart3 × IboxConfig) :=
  let r := getLineFromUart3 s.1
  let i := r.1.length % 256
  if i = 15 then
    .inl (r.2, s.2.setGprsImei (atoll (field 20 r.1) % 18446744073709551616).toNat)
  else if i ≠ 0 then .inr (r.2, s.2)
  else .inl (r.2, s.2)

/-- `gprs_get_imei` from its loop on, with some rounds granted. -/
def gprsGetImei (rounds : Nat) (u : Uart3) (config : IboxConfig) : Option (Uart3 × IboxConfig) :=
  (Rounds.ends imeiRound rounds (u, config)).map fun s => (uart3RxBufClear s.1, s.2)

/-- It terminates, with an IMEI. -/
def ReadsImei (u : Uart3) (config : IboxConfig) (imei : Nat) : Prop :=
  ∃ rounds u' config', gprsGetImei rounds u config = some (u', config') ∧ config'.gprsImei = imei

/-- Lines as the module sends them. -/
def crLfLines (lines : List (List UInt8)) : List UInt8 := lines.flatMap (· ++ [cr, lf])

/-- A line in front of the number. -/
structure OtherLine (line : List UInt8) : Prop where
  noCr : cr ∉ line
  noLf : lf ∉ line
  short : line.length < 20
  other : line.length ≠ 15

/-- A number of 15 digits. -/
structure ImeiDigits (digits : List UInt8) : Prop where
  length : digits.length = 15
  digits : ∀ c ∈ digits, isdigit c = true

/-! ## The number -/

theorem gprsImei_setGprsImei (config : IboxConfig) {imei : Nat} (h : imei < 18446744073709551616) :
    (config.setGprsImei imei).gprsImei = imei := by
  have hoff : 143 ≤ config.bytes.length := by
    rw [config.length_eq]
    decide
  have hfield := drop_take_writeAt hoff (littleEndian 8 imei)
  rw [length_littleEndian] at hfield
  rw [IboxConfig.gprsImei, IboxConfig.uintAt, IboxConfig.setGprsImei, hfield,
    ofLittleEndian_littleEndian h]

namespace ImeiDigits

variable {digits : List UInt8} (h : ImeiDigits digits)
include h

theorem lt : ofDecimal digits < 18446744073709551616 := by
  have hlt := ofDecimal_lt fun c hc => (isdigit_iff.mp (h.digits c hc)).2
  rw [h.length] at hlt
  omega

/-- What is read is what the digits denote. -/
theorem read : (atoll (field 20 digits) % 18446744073709551616).toNat = ofDecimal digits := by
  have hlt := h.lt
  rw [atoll_field h.digits (by rw [h.length]; decide)]
  omega

theorem not_mem {c : UInt8} (hc : isdigit c = false) : c ∉ digits := by
  intro hmem
  rw [h.digits c hmem] at hc
  cases hc

end ImeiDigits

/-! ## The loop -/

section Loop
variable {u : Uart3} {config : IboxConfig} {pre rest : List UInt8}

/-- The front line, behind what is left of the one before it. -/
theorem getLine_front (hok : u.Ok) {line : List UInt8} (hcr : cr ∉ line) (hlf : lf ∉ line)
    (hpre : pre = [] ∨ pre = [lf]) (h : u.contents = pre ++ (line ++ cr :: rest)) :
    (getLineFromUart3 u).1 = line ∧ (getLineFromUart3 u).2.contents = rest ∧
      (getLineFromUart3 u).2.Ok := by
  obtain ⟨hline, hcontents, hok'⟩ := getLine_spec hok
  have hfilter : (pre ++ line).filter notLf = line := by
    have hkeep : line.filter notLf = line := by
      refine List.filter_eq_self.mpr fun c hc => ?_
      simp only [notLf, decide_eq_true_eq]
      exact fun hc' => hlf (hc' ▸ hc)
    rcases hpre with rfl | rfl
    · exact hkeep
    · rw [List.singleton_append, List.filter_cons_of_neg (by decide), hkeep]
  have hnot : cr ∉ pre ++ line := by
    rcases hpre with rfl | rfl
    · exact hcr
    · rw [List.singleton_append, List.mem_cons, not_or]
      exact ⟨by decide, hcr⟩
  rw [h, ← List.append_assoc, Delimited.takeSegment_segment hnot, hfilter] at hline hcontents
  exact ⟨hline, hcontents, hok'⟩

/-- **The loop** ends, with the number if no line in front of it is empty. -/
theorem imeiLoop_ends (config : IboxConfig) {lines : List (List UInt8)} {digits : List UInt8}
    (hlines : ∀ line ∈ lines, OtherLine line) (hdigits : ImeiDigits digits) (hok : u.Ok)
    (hpre : pre = [] ∨ pre = [lf])
    (h : u.contents = pre ++ (crLfLines lines ++ (digits ++ cr :: rest))) :
    ∃ u', Rounds.ends imeiRound (lines.length + 1) (u, config) =
      some (u', if [] ∈ lines then config else config.setGprsImei (ofDecimal digits)) := by
  induction lines generalizing u pre with
  | nil =>
    obtain ⟨hline, -, -⟩ := getLine_front hok (hdigits.not_mem (by decide))
      (hdigits.not_mem (by decide)) hpre h
    have hround : imeiRound (u, config) =
        .inl ((getLineFromUart3 u).2, config.setGprsImei (ofDecimal digits)) := by
      simp only [imeiRound, hline, hdigits.length, Nat.reduceMod, if_true, hdigits.read]
    exact ⟨_, Rounds.ends_succ_inl hround 0⟩
  | cons line lines ih =>
    have hother := hlines line List.mem_cons_self
    have hfront : u.contents =
        pre ++ (line ++ cr :: ([lf] ++ (crLfLines lines ++ (digits ++ cr :: rest)))) := by
      rw [h, crLfLines, List.flatMap_cons]
      simp only [List.append_assoc, List.cons_append, List.nil_append, crLfLines]
    obtain ⟨hline, hcontents, hok'⟩ := getLine_front hok hother.noCr hother.noLf hpre hfront
    have hmod : line.length % 256 = line.length :=
      Nat.mod_eq_of_lt (Nat.lt_trans hother.short (by decide))
    by_cases hempty : line = []
    · -- the loop takes the line for the end of the ring
      have hround : imeiRound (u, config) = .inl ((getLineFromUart3 u).2, config) := by
        simp [imeiRound, hline, hempty]
      rw [if_pos (hempty ▸ List.mem_cons_self)]
      exact ⟨_, Rounds.ends_succ_inl hround _⟩
    · have hround : imeiRound (u, config) = .inr ((getLineFromUart3 u).2, config) := by
        simp [imeiRound, hline, hmod, hother.other, hempty]
      have hmem : [] ∈ line :: lines ↔ [] ∈ lines := by
        rw [List.mem_cons, or_iff_right (Ne.symm hempty)]
      obtain ⟨u', hu'⟩ := ih (fun l hl => hlines l (List.mem_cons_of_mem line hl)) hok'
        (.inr rfl) hcontents
      refine ⟨u', ?_⟩
      simp only [hmem]
      rw [List.length_cons, Rounds.ends_succ_inr hround, hu']

/-- What is read is what the loop ends with. -/
theorem readsImei_iff {rounds : Nat} {s : Uart3 × IboxConfig}
    (h : Rounds.ends imeiRound rounds (u, config) = some s) (imei : Nat) :
    ReadsImei u config imei ↔ s.2.gprsImei = imei := by
  constructor
  · intro hreads
    obtain ⟨rounds', u', config', heq, himei⟩ := hreads
    obtain ⟨s', hs', hresult⟩ := Option.map_eq_some_iff.mp heq
    obtain rfl := Rounds.ends_unique hs' h
    obtain ⟨-, rfl⟩ := Prod.mk.inj hresult
    exact himei
  · intro himei
    exact ⟨rounds, _, _, by rw [gprsGetImei, h, Option.map_some], himei⟩

end Loop

/-- **The IMEI.** Of lines that are short and have not 15 bytes, followed by the number,
`gprs_get_imei` reads the number if and only if none of the lines is empty, or the number was
there already. -/
theorem get_imei_iff {u : Uart3} {lines : List (List UInt8)} {digits rest : List UInt8}
    (hok : u.Ok) (hlines : ∀ line ∈ lines, OtherLine line) (hdigits : ImeiDigits digits)
    (h : u.contents = crLfLines lines ++ (digits ++ cr :: lf :: rest)) (config : IboxConfig) :
    ReadsImei u config (ofDecimal digits) ↔
      [] ∉ lines ∨ config.gprsImei = ofDecimal digits := by
  obtain ⟨u', hends⟩ := imeiLoop_ends config hlines hdigits hok (.inl rfl) h
  have hnumber := gprsImei_setGprsImei config hdigits.lt
  rw [readsImei_iff hends]
  by_cases hempty : [] ∈ lines
  · simp only [hempty, if_true, not_true_eq_false, false_or]
  · simp only [hempty, if_false, not_false_eq_true, true_or, hnumber]

/-! ## Two replies -/

theorem imeiDigits_example : ImeiDigits (ascii "861234567890123") := ⟨by decide, by decide +kernel⟩

/-- The number comes behind the echo of the command. -/
theorem get_imei_behind_echo :
    ReadsImei (ringOf (ascii "AT+GSN\r\n861234567890123\r\n\r\nOK\r\n")) .initial
      861234567890123 := by
  have hring : (ringOf (ascii "AT+GSN\r\n861234567890123\r\n\r\nOK\r\n")).contents =
      crLfLines [ascii "AT+GSN"] ++ (ascii "861234567890123" ++ cr :: lf :: ascii "\r\nOK\r\n") :=
    contents_ringOf (by decide)
  have hlines : ∀ line ∈ [ascii "AT+GSN"], OtherLine line := by
    intro line hline
    rw [List.mem_singleton.mp hline]
    exact ⟨by decide, by decide, by decide, by decide⟩
  exact (get_imei_iff (ok_ringOf _) hlines imeiDigits_example hring .initial).mpr (.inl (by decide))

/-- The reply as it is, with an empty line in front. -/
theorem get_imei_behind_empty_line :
    ¬ ReadsImei (ringOf (ascii "\r\n861234567890123\r\n\r\nOK\r\n")) .initial
      861234567890123 := by
  have hring : (ringOf (ascii "\r\n861234567890123\r\n\r\nOK\r\n")).contents =
      [] ++ (crLfLines [[]] ++ (ascii "861234567890123" ++ cr :: ascii "\n\r\nOK\r\n")) :=
    contents_ringOf (by decide)
  have hlines : ∀ line ∈ [([] : List UInt8)], OtherLine line := by
    intro line hline
    rw [List.mem_singleton.mp hline]
    exact ⟨nofun, nofun, by decide, by decide⟩
  obtain ⟨u', hends⟩ := imeiLoop_ends .initial hlines imeiDigits_example
    (ok_ringOf _) (.inl rfl) hring
  have hold : IboxConfig.initial.gprsImei ≠ 861234567890123 := by decide +kernel
  rw [readsImei_iff hends, if_pos (List.mem_singleton.mpr rfl)]
  exact hold

end IBoxClient
