import IBoxClient.DnsMessage
import IBoxClient.Ethernet
import IBoxClient.Lib.Machine

/- The DNS client (`dns.c`).

   `DNS_run` sends a query and then polls the chip. Each poll finds a reply, which ends the call,
   or looks at the time; seconds pass between the polls. So a call is a phase of a machine, begun
   by `call`. The length of what is sent again is that of what has just been found, which is
   nothing; the driver refuses to send that (`DnsOut.sent`). A reply whose names leave no room for
   a NUL has a byte stored on the stack (`DnsOut.stray`); the machine goes on as if that byte
   mattered to nobody.

   So each call sends one message (`dns_accounts`), and one that gets no reply gives up after
   nine seconds, with which it began to count in an earlier call (`dns_silent`). -/
namespace IBoxClient

open Memory

abbrev maxDnsRetry : Nat := 2
abbrev dnsWaitTime : UInt32 := 3

/-- The variables of `dns.c`, the buffer behind `pDNSMSG`, the address behind `ip_from_dns`, and
whether a call is polling. -/
structure Dns where
  tick1s : UInt32
  retryCount : Nat
  msgId : UInt16
  buf : Nat → UInt8
  ip : Ipv4
  polling : Bool

inductive DnsEvent where
  | tick
  | call (name : List UInt8)
  | poll (received : Option Received)

/-- What a call does to the outside. `stray` is a byte stored behind a `name`. -/
inductive DnsOut where
  | stray
  | socket
  | sendto (msg : List UInt8)
  | close
  | returned (ret : Int)

/-- What `sendto` sends: it refuses a length of 0. -/
def DnsOut.sent : DnsOut → Bool
  | .sendto msg => !msg.isEmpty
  | _ => false

/-- `check_DNS_timeout`. -/
def checkDnsTimeout (d : Dns) : Int × Dns :=
  if dnsWaitTime ≤ d.tick1s then
    if maxDnsRetry ≤ d.retryCount then (-1, { d with tick1s := 0, retryCount := 0 })
    else (0, { d with tick1s := 0, retryCount := d.retryCount + 1 })
  else (1, d)

/-- `DNS_run` up to its loop. -/
def dnsStart (name : List UInt8) (d : Dns) : Dns × List DnsOut :=
  let msg := dnsMakequery (d.msgId + 1).toNat name
  ({ d with msgId := d.msgId + 1, buf := write d.buf 0 msg, polling := true },
    [.socket, .sendto msg])

/-- A round of the loop of `DNS_run`. -/
def dnsPoll (received : Option Received) (d : Dns) : Dns × List DnsOut :=
  match received with
  | some r =>
    let buf := write d.buf 0 r.stored
    let parsed := parseDnsMsg buf d.ip
    ({ d with buf := buf, ip := parsed.ip, polling := false },
      (if parsed.stray then [.stray] else []) ++ [.close, .returned parsed.ret])
  | none =>
    -- `len` is what has just been found
    let len := 0
    let checked := checkDnsTimeout d
    if checked.1 < 0 then ({ checked.2 with polling := false }, [.returned 0])
    else if checked.1 = 0 then (checked.2, [.sendto (bytesAt d.buf 0 len)])
    else (checked.2, [])

/-- `DNS_time_handler` and `DNS_run`. -/
def dnsStep (d : Dns) : DnsEvent → Dns × List DnsOut
  | .tick => ({ d with tick1s := d.tick1s + 1 }, [])
  | .call name => if d.polling then (d, []) else dnsStart name d
  | .poll received => if d.polling then dnsPoll received d else (d, [])

/-- The variables after `DNS_init`. -/
def Dns.initial (buf : Nat → UInt8) : Dns := ⟨0, 0, 0x1122, buf, .zero, false⟩

/-! ## A round -/

section Rounds
variable {d : Dns}

theorem dnsPoll_early (h : d.tick1s < dnsWaitTime) : dnsPoll none d = (d, []) := by
  have hnot : ¬ dnsWaitTime ≤ d.tick1s := UInt32.not_le.mpr h
  simp [dnsPoll, checkDnsTimeout, hnot]

/-- It is tried again, with nothing to send. -/
theorem dnsPoll_again (h : dnsWaitTime ≤ d.tick1s) (hcount : d.retryCount < maxDnsRetry) :
    dnsPoll none d =
      ({ d with tick1s := 0, retryCount := d.retryCount + 1 }, [.sendto []]) := by
  have hnot : ¬ maxDnsRetry ≤ d.retryCount := Nat.not_le.mpr hcount
  simp [dnsPoll, checkDnsTimeout, h, hnot, bytesAt]

theorem dnsPoll_over (h : dnsWaitTime ≤ d.tick1s) (hcount : maxDnsRetry ≤ d.retryCount) :
    dnsPoll none d =
      ({ d with tick1s := 0, retryCount := 0, polling := false }, [.returned 0]) := by
  simp [dnsPoll, checkDnsTimeout, h, hcount]

/-- What a round without a reply does. -/
theorem dnsPoll_none (d : Dns) :
    dnsPoll none d = (d, []) ∨
      d.retryCount < maxDnsRetry ∧
        dnsPoll none d =
          ({ d with tick1s := 0, retryCount := d.retryCount + 1 }, [.sendto []]) ∨
      maxDnsRetry ≤ d.retryCount ∧
        dnsPoll none d =
          ({ d with tick1s := 0, retryCount := 0, polling := false }, [.returned 0]) := by
  by_cases hlate : dnsWaitTime ≤ d.tick1s
  · by_cases hcount : d.retryCount < maxDnsRetry
    · exact .inr (.inl ⟨hcount, dnsPoll_again hlate hcount⟩)
    · exact .inr (.inr ⟨Nat.not_lt.mp hcount, dnsPoll_over hlate (Nat.not_lt.mp hcount)⟩)
  · exact .inl (dnsPoll_early (UInt32.not_le.mp hlate))

end Rounds

/-! ## Accounts -/

def DnsOut.opened : DnsOut → Bool
  | .socket => true
  | _ => false

/-- Something is handed to `sendto` that it refuses. -/
def DnsOut.refused : DnsOut → Bool
  | .sendto msg => msg.isEmpty
  | _ => false

def DnsOut.closed : DnsOut → Bool
  | .close => true
  | _ => false

def DnsOut.isReturn : DnsOut → Bool
  | .returned _ => true
  | _ => false

section Accounts
variable {d : Dns} {e : DnsEvent}

theorem dnsMakequery_isEmpty (msgId : Nat) (name : List UInt8) :
    (dnsMakequery msgId name).isEmpty = false := by
  have hlen := dnsMakequery_length msgId name
  cases hmsg : dnsMakequery msgId name with
  | nil =>
    rw [hmsg] at hlen
    simp at hlen
    omega
  | cons => rfl

/-- What a step can put out. -/
inductive DnsMove (d : Dns) : Dns → List DnsOut → Prop where
  | nothing (d' : Dns) (hcount : d'.retryCount = d.retryCount) : DnsMove d d' []
  | start (d' : Dns) (msg : List UInt8) (hcount : d'.retryCount = d.retryCount)
    (hmsg : msg.isEmpty = false) : DnsMove d d' [.socket, .sendto msg]
  | reply (d' : Dns) (stray : List DnsOut) (ret : Int) (hcount : d'.retryCount = d.retryCount)
    (hstray : stray = [] ∨ stray = [.stray]) : DnsMove d d' (stray ++ [.close, .returned ret])
  | again (d' : Dns) (hfew : d.retryCount < maxDnsRetry)
    (hcount : d'.retryCount = d.retryCount + 1) : DnsMove d d' [.sendto []]
  | gaveUp (d' : Dns) (hmany : maxDnsRetry ≤ d.retryCount) (hcount : d'.retryCount = 0) :
    DnsMove d d' [.returned 0]

theorem dnsStep_moves (d : Dns) (e : DnsEvent) : DnsMove d (dnsStep d e).1 (dnsStep d e).2 := by
  cases e with
  | tick => exact .nothing _ rfl
  | call name =>
    by_cases hpolling : d.polling = true
    · simp only [dnsStep, if_pos hpolling]
      exact .nothing _ rfl
    · simp only [dnsStep, if_neg hpolling]
      exact .start _ _ rfl (dnsMakequery_isEmpty _ _)
  | poll received =>
    by_cases hpolling : d.polling = true
    · simp only [dnsStep, if_pos hpolling]
      cases received with
      | some r =>
        refine .reply _ _ _ rfl ?_
        split
        · exact .inr rfl
        · exact .inl rfl
      | none =>
        rcases dnsPoll_none d with hpoll | ⟨hfew, hpoll⟩ | ⟨hmany, hpoll⟩
        · rw [hpoll]
          exact .nothing _ rfl
        · rw [hpoll]
          exact .again _ hfew rfl
        · rw [hpoll]
          exact .gaveUp _ hmany rfl
    · simp only [dnsStep, if_neg hpolling]
      exact .nothing _ rfl

theorem retry_le (d : Dns) (e : DnsEvent) (h : d.retryCount ≤ maxDnsRetry) :
    (dnsStep d e).1.retryCount ≤ maxDnsRetry := by
  have hmove := dnsStep_moves d e
  generalize (dnsStep d e).1 = d' at hmove
  generalize (dnsStep d e).2 = outs at hmove
  cases hmove with
  | nothing hcount =>
    rw [hcount]
    exact h
  | start _ hcount =>
    rw [hcount]
    exact h
  | reply _ _ hcount =>
    rw [hcount]
    exact h
  | again hfew hcount =>
    rw [hcount]
    exact hfew
  | gaveUp _ hcount =>
    rw [hcount]
    exact Nat.zero_le _

/-- One message for each call. -/
theorem sent_balance (d : Dns) (e : DnsEvent) :
    (dnsStep d e).2.countP DnsOut.sent = (dnsStep d e).2.countP DnsOut.opened := by
  have hmove := dnsStep_moves d e
  generalize (dnsStep d e).1 = d' at hmove
  generalize (dnsStep d e).2 = outs at hmove ⊢
  cases hmove with
  | start msg _ hmsg => simp [List.countP_cons, DnsOut.sent, DnsOut.opened, hmsg]
  | reply _ _ _ hstray => rcases hstray with rfl | rfl <;> rfl
  | nothing | again | gaveUp => rfl

/-- Two refusals for each call that gives up. -/
theorem refused_balance (d : Dns) (e : DnsEvent) (h : d.retryCount ≤ maxDnsRetry) :
    (dnsStep d e).2.countP DnsOut.refused + 2 * (dnsStep d e).2.countP DnsOut.closed +
        d.retryCount =
      2 * (dnsStep d e).2.countP DnsOut.isReturn + (dnsStep d e).1.retryCount := by
  have hmove := dnsStep_moves d e
  generalize (dnsStep d e).1 = d' at hmove ⊢
  generalize (dnsStep d e).2 = outs at hmove ⊢
  cases hmove with
  | nothing hcount => simp [hcount]
  | start msg hcount hmsg =>
    simp [DnsOut.refused, DnsOut.closed, DnsOut.isReturn, hmsg, hcount]
  | reply stray ret hcount hstray =>
    rcases hstray with rfl | rfl <;>
      simp [List.countP_cons, DnsOut.refused, DnsOut.closed, DnsOut.isReturn, hcount]
  | again hfew hcount =>
    simp [List.countP_cons, DnsOut.refused, DnsOut.closed, DnsOut.isReturn, hcount]
    omega
  | gaveUp hmany hcount =>
    have htwo : d.retryCount = 2 := Nat.le_antisymm h hmany
    simp [List.countP_cons, DnsOut.refused, DnsOut.closed, DnsOut.isReturn, hcount, htwo]

theorem accounts_run (h : d.retryCount ≤ maxDnsRetry) (es : List DnsEvent) :
    let outs := Machine.out dnsStep d es
    outs.countP DnsOut.sent = outs.countP DnsOut.opened ∧
      outs.countP DnsOut.refused + 2 * outs.countP DnsOut.closed + d.retryCount =
        2 * outs.countP DnsOut.isReturn + (Machine.last dnsStep d es).retryCount := by
  intro outs
  induction es generalizing d with
  | nil => exact ⟨rfl, rfl⟩
  | cons e es ih =>
    have hsent := sent_balance d e
    have hrefused := refused_balance d e h
    obtain ⟨hsent', hrefused'⟩ := ih (retry_le d e h)
    simp only [outs, Machine.out_cons, Machine.last_cons, List.countP_append]
    constructor
    · omega
    · omega

end Accounts

def DnsEvent.isTick : DnsEvent → Bool
  | .tick => true
  | _ => false

/-- A second passes, or a poll finds nothing. -/
def DnsEvent.Silent : DnsEvent → Prop
  | .tick | .poll none => True
  | .call _ | .poll (some _) => False

/-- Nothing is received, and after each second there is a poll. -/
inductive Unreplied : List DnsEvent → Prop where
  | nil : Unreplied []
  | poll {es : List DnsEvent} (h : Unreplied es) : Unreplied (.poll none :: es)
  | second {es : List DnsEvent} (h : Unreplied es) : Unreplied (.tick :: .poll none :: es)

/-- The seconds that count towards the end of a call. -/
def Dns.waited (d : Dns) : Nat := 3 * d.retryCount + d.tick1s.toNat

/-- What counts of them, with some more seconds before the next poll: no more than a period. -/
def Dns.counted (d : Dns) (seconds : Nat) : Nat :=
  3 * d.retryCount + min ((d.tick1s.toNat + seconds) % 4294967296) 3

/-- A client that waits for a reply, with less than a period gone. -/
structure Waiting (d : Dns) : Prop where
  polling : d.polling = true
  early : d.tick1s < dnsWaitTime
  count : d.retryCount ≤ maxDnsRetry

section Silence
variable {d : Dns} {es : List DnsEvent}

def Dns.tick (d : Dns) : Dns := { d with tick1s := d.tick1s + 1 }

/-- A second, and a poll. -/
def secondStep (d : Dns) : Dns × List DnsOut := dnsStep d.tick (.poll none)

theorem last_second (d : Dns) (es : List DnsEvent) :
    Machine.last dnsStep d (.tick :: .poll none :: es) = Machine.last dnsStep (secondStep d).1 es :=
  rfl

theorem out_second (d : Dns) (es : List DnsEvent) :
    Machine.out dnsStep d (.tick :: .poll none :: es) =
      (secondStep d).2 ++ Machine.out dnsStep (secondStep d).1 es := rfl

theorem poll_idle (h : d.polling = false) : dnsStep d (.poll none) = (d, []) := by
  simp [dnsStep, h]

theorem poll_waiting (h : Waiting d) : dnsStep d (.poll none) = (d, []) := by
  simp only [dnsStep, if_pos h.polling]
  exact dnsPoll_early h.early

/-- After the end of a call nothing is begun. -/
theorem ended_run (h : d.polling = false) (hes : Unreplied es) :
    (Machine.last dnsStep d es).polling = false := by
  induction hes generalizing d with
  | nil => exact h
  | poll _ ih =>
    rw [Machine.last_cons, poll_idle h]
    exact ih h
  | second _ ih =>
    have hidle : d.tick.polling = false := h
    rw [last_second, secondStep, poll_idle hidle]
    exact ih hidle

/-- **A second of a call**: the client goes on waiting, or has waited for nine. -/
theorem secondStep_cases (h : Waiting d) :
    Waiting (secondStep d).1 ∧ (secondStep d).1.waited = d.waited + 1 ∧ d.waited + 1 < 9 ∧
        (∀ o ∈ (secondStep d).2, o.isReturn = false) ∨
      (secondStep d).1.polling = false ∧ d.waited + 1 = 9 ∧ .returned 0 ∈ (secondStep d).2 := by
  have hpolling : d.tick.polling = true := h.polling
  have hearly : d.tick1s.toNat < 3 := UInt32.lt_iff_toNat_lt.mp h.early
  have hcount : d.retryCount ≤ 2 := h.count
  have htick : d.tick.tick1s.toNat = d.tick1s.toNat + 1 := by
    show (d.tick1s + 1).toNat = _
    rw [UInt32.toNat_add]
    exact Nat.mod_eq_of_lt (by show d.tick1s.toNat + 1 < 4294967296; omega)
  have hwaited : d.waited = 3 * d.retryCount + d.tick1s.toNat := rfl
  simp only [secondStep, dnsStep, if_pos hpolling]
  by_cases hlate : dnsWaitTime ≤ d.tick.tick1s
  · have hthree : 3 ≤ d.tick.tick1s.toNat := UInt32.le_iff_toNat_le.mp hlate
    by_cases hfew : d.tick.retryCount < maxDnsRetry
    · left
      have hless : d.retryCount < 2 := hfew
      rw [dnsPoll_again hlate hfew]
      have hnew : (0 : UInt32) < dnsWaitTime := by decide
      refine ⟨⟨hpolling, hnew, hfew⟩, ?_, by omega, by simp [DnsOut.isReturn]⟩
      show 3 * (d.retryCount + 1) + 0 = _
      omega
    · right
      have hmany : maxDnsRetry ≤ d.tick.retryCount := Nat.not_lt.mp hfew
      have htwo : 2 ≤ d.retryCount := hmany
      rw [dnsPoll_over hlate hmany]
      exact ⟨rfl, by omega, List.mem_singleton_self _⟩
  · left
    have hlt := UInt32.not_le.mp hlate
    have hthree : d.tick.tick1s.toNat < 3 := UInt32.lt_iff_toNat_lt.mp hlt
    rw [dnsPoll_early hlt]
    refine ⟨⟨hpolling, hlt, hcount⟩, ?_, by omega, by simp⟩
    show 3 * d.retryCount + d.tick.tick1s.toNat = _
    omega

/-- A call that waits, and is polled after each second, ends after nine. -/
theorem waiting_run (h : Waiting d) (hes : Unreplied es) :
    let s := Machine.last dnsStep d es
    let outs := Machine.out dnsStep d es
    let seconds := d.waited + es.countP DnsEvent.isTick
    seconds < 9 ∧ Waiting s ∧ s.waited = seconds ∧ (∀ o ∈ outs, o.isReturn = false) ∨
      9 ≤ seconds ∧ s.polling = false ∧ .returned 0 ∈ outs := by
  simp only
  induction hes generalizing d with
  | nil =>
    have hearly : d.tick1s.toNat < 3 := UInt32.lt_iff_toNat_lt.mp h.early
    have hcount : d.retryCount ≤ 2 := h.count
    refine .inl ⟨?_, h, rfl, by simp⟩
    show 3 * d.retryCount + d.tick1s.toNat + 0 < 9
    omega
  | @poll es _ ih =>
    have hnone : (DnsEvent.poll none :: es).countP DnsEvent.isTick =
        es.countP DnsEvent.isTick := List.countP_cons_of_neg Bool.false_ne_true
    rw [Machine.last_cons, Machine.out_cons, poll_waiting h, List.nil_append, hnone]
    exact ih h
  | @second es hes ih =>
    have hone : (DnsEvent.tick :: .poll none :: es).countP DnsEvent.isTick =
        es.countP DnsEvent.isTick + 1 := by
      rw [List.countP_cons_of_pos rfl, List.countP_cons_of_neg Bool.false_ne_true]
    rw [last_second, out_second, hone]
    rcases secondStep_cases h with ⟨hwaiting, hwaited, hless, hquiet⟩ | ⟨hended, hnine, hret⟩
    · rcases ih hwaiting with ⟨hlt, hstill, hsum, hrest⟩ | ⟨hge, hended, hret⟩
      · refine .inl ⟨by omega, hstill, by omega, fun o ho => ?_⟩
        rcases List.mem_append.mp ho with hfirst | hlater
        · exact hquiet o hfirst
        · exact hrest o hlater
      · exact .inr ⟨by omega, hended, List.mem_append_right _ hret⟩
    · exact .inr ⟨by omega, ended_run hended hes, List.mem_append_left _ hret⟩

/-! ### Late polls -/

theorem counted_zero (d : Dns) : d.counted 0 = 3 * d.retryCount + min d.tick1s.toNat 3 := by
  have hmod : d.tick1s.toNat % 4294967296 = d.tick1s.toNat := Nat.mod_eq_of_lt d.tick1s.toNat_lt
  rw [Dns.counted, Nat.add_zero, hmod]

theorem counted_tick (d : Dns) : d.tick.counted 0 ≤ d.counted 0 + 1 := by
  have hone : (d.tick1s + 1).toNat ≤ d.tick1s.toNat + 1 := by
    rw [UInt32.toNat_add]
    exact Nat.mod_le _ _
  rw [counted_zero, counted_zero]
  show 3 * d.retryCount + min (d.tick1s + 1).toNat 3 ≤ _
  omega

/-- **A poll**: the call goes on, with what has been counted, or has counted nine. -/
theorem poll_counts (hpolling : d.polling = true) (hcount : d.retryCount ≤ maxDnsRetry) :
    let s := dnsStep d (.poll none)
    s.1.polling = true ∧ s.1.retryCount ≤ maxDnsRetry ∧ s.1.counted 0 = d.counted 0 ∧
        s.1.tick1s < dnsWaitTime ∧ d.counted 0 < 9 ∧ (∀ o ∈ s.2, o.isReturn = false) ∨
      s.1.polling = false ∧ d.counted 0 = 9 ∧ .returned 0 ∈ s.2 := by
  have hle : d.retryCount ≤ 2 := hcount
  have hzero : (0 : UInt32) < dnsWaitTime := by decide
  simp only [dnsStep, if_pos hpolling, counted_zero]
  by_cases hlate : dnsWaitTime ≤ d.tick1s
  · have hthree : 3 ≤ d.tick1s.toNat := UInt32.le_iff_toNat_le.mp hlate
    by_cases hfew : d.retryCount < maxDnsRetry
    · have hless : d.retryCount < 2 := hfew
      rw [dnsPoll_again hlate hfew]
      refine .inl ⟨hpolling, hfew, ?_, hzero, by omega, by simp [DnsOut.isReturn]⟩
      show 3 * (d.retryCount + 1) + min 0 3 = _
      omega
    · have hmany : maxDnsRetry ≤ d.retryCount := Nat.not_lt.mp hfew
      have htwo : 2 ≤ d.retryCount := hmany
      rw [dnsPoll_over hlate hmany]
      exact .inr ⟨rfl, by omega, List.mem_singleton_self _⟩
  · have hlt := UInt32.not_le.mp hlate
    have hthree : d.tick1s.toNat < 3 := UInt32.lt_iff_toNat_lt.mp hlt
    rw [dnsPoll_early hlt]
    exact .inl ⟨hpolling, hcount, rfl, hlt, by omega, by simp⟩

/-- A call never ends before nine seconds have been counted, whenever it is polled. -/
theorem never_early (hpolling : d.polling = true) (hcount : d.retryCount ≤ maxDnsRetry)
    (hes : ∀ e ∈ es, e.Silent) (hend : (Machine.last dnsStep d es).polling = false) :
    9 ≤ d.counted 0 + es.countP DnsEvent.isTick := by
  induction es generalizing d with
  | nil =>
    have hnot : false = true := hend.symm.trans hpolling
    cases hnot
  | cons e es ih =>
    have hfirst := hes e List.mem_cons_self
    have hrest : ∀ e ∈ es, e.Silent := fun e he => hes e (List.mem_cons_of_mem _ he)
    rw [Machine.last_cons] at hend
    cases e with
    | tick =>
      have htick := counted_tick d
      have hlater := ih (d := d.tick) hpolling hcount hrest hend
      rw [List.countP_cons_of_pos rfl]
      omega
    | poll received =>
      cases received with
      | none =>
        rw [List.countP_cons_of_neg Bool.false_ne_true]
        rcases poll_counts hpolling hcount with ⟨hgoes, hfew, hsame, -⟩ | ⟨-, hnine, -⟩
        · have hlater := ih hgoes hfew hrest hend
          omega
        · omega
      | some r => exact absurd hfirst id
    | call name => exact absurd hfirst id

/-- Some seconds without a poll. -/
theorem last_ticks (d : Dns) (k : Nat) :
    ∃ s : Dns, Machine.last dnsStep d (List.replicate k .tick) = s ∧
      Machine.out dnsStep d (List.replicate k .tick) = [] ∧ s.polling = d.polling ∧
      s.retryCount = d.retryCount ∧ s.counted 0 = d.counted k := by
  induction k generalizing d with
  | zero => exact ⟨d, rfl, rfl, rfl, rfl, rfl⟩
  | succ k ih =>
    obtain ⟨s, hlast, hout, hpolling, hcount, hcounted⟩ := ih d.tick
    refine ⟨s, hlast, hout, hpolling, hcount, hcounted.trans ?_⟩
    have hone : (d.tick1s + 1).toNat = (d.tick1s.toNat + 1) % 4294967296 := UInt32.toNat_add ..
    show 3 * d.retryCount + min (((d.tick1s + 1).toNat + k) % 4294967296) 3 =
      3 * d.retryCount + min ((d.tick1s.toNat + (k + 1)) % 4294967296) 3
    rw [hone, Nat.mod_add_mod, Nat.add_assoc, Nat.add_comm 1]

/-- **Silence.** A call that gets no reply never returns before nine seconds have been counted,
whenever it is polled. If it is polled after each second from its first poll on, it returns 0 then,
and until then it waits: after nine seconds, not after the six that the header announces. What
earlier calls have counted is counted in, and so are the seconds before the call, three at most. -/
theorem dns_silent (hpolling : d.polling = true) (hcount : d.retryCount ≤ maxDnsRetry) :
    (∀ es, (∀ e ∈ es, DnsEvent.Silent e) → (Machine.last dnsStep d es).polling = false →
      9 ≤ d.counted 0 + es.countP DnsEvent.isTick) ∧
    ∀ k es, Unreplied es →
      let run := List.replicate k .tick ++ .poll none :: es
      let outs := Machine.out dnsStep d run
      let seconds := d.counted k + es.countP DnsEvent.isTick
      seconds < 9 ∧ (Machine.last dnsStep d run).polling = true ∧ (∀ o ∈ outs, o.isReturn = false) ∨
        9 ≤ seconds ∧ (Machine.last dnsStep d run).polling = false ∧ .returned 0 ∈ outs := by
  refine ⟨fun es hes hend => never_early hpolling hcount hes hend, fun k es hes => ?_⟩
  obtain ⟨s, hlast, hout, hpolling', hcount', hcounted⟩ := last_ticks d k
  simp only [Machine.last_append, Machine.out_append, hlast, hout, List.nil_append,
    Machine.last_cons, Machine.out_cons, ← hcounted]
  rcases poll_counts (hpolling'.trans hpolling) (hcount'.symm ▸ hcount) with
    ⟨hgoes, hfew, hsame, hearly, hless, hquiet⟩ | ⟨hended, hnine, hret⟩
  · -- less than a period is left over
    have hwaited : (dnsStep s (.poll none)).1.waited = s.counted 0 := by
      have hthree : (dnsStep s (.poll none)).1.tick1s.toNat < 3 := UInt32.lt_iff_toNat_lt.mp hearly
      rw [← hsame, counted_zero, Dns.waited]
      omega
    rcases waiting_run ⟨hgoes, hearly, hfew⟩ hes with ⟨hlt, hstill, -, hrest⟩ | ⟨hge, hended, hret⟩
    · refine .inl ⟨by omega, hstill.polling, fun o ho => ?_⟩
      rcases List.mem_append.mp ho with hfirst | hlater
      · exact hquiet o hfirst
      · exact hrest o hlater
    · exact .inr ⟨by omega, hended, List.mem_append_right _ hret⟩
  · exact .inr ⟨by omega, ended_run hended hes, List.mem_append_left _ hret⟩

/-- A client that has been called late: three seconds are left over. -/
def lateCall : Dns := Machine.last dnsStep (Dns.initial fun _ => 0) [.tick, .tick, .tick, .call abName]

/-- Six seconds. -/
def sixSeconds : List DnsEvent := (List.replicate 6 [DnsEvent.tick, .poll none]).flatten

theorem dns_silent_six :
    (Machine.last dnsStep lateCall (.poll none :: sixSeconds)).polling = false ∧
      .returned 0 ∈ Machine.out dnsStep lateCall (.poll none :: sixSeconds) := by
  have hes : Unreplied sixSeconds := by
    repeat constructor
  have hrun := (dns_silent (d := lateCall) rfl (Nat.zero_le _)).2 0 sixSeconds hes
  rcases hrun with ⟨hless, -⟩ | ⟨-, hended, hret⟩
  · exact absurd hless (by decide)
  · exact ⟨hended, hret⟩

end Silence

end IBoxClient
