import IBoxClient.DhcpExchange

/- Where the address of the chip comes from.

   While a lease is kept, the address in the chip is the allocated one, and it is never changed:
   `DHCP_IP_ASSIGN` and `DHCP_IP_CHANGED` are never returned, and the callback for a changed
   address is never called (`dhcp_address_kept`).

   The address has been offered by a server, asked for, acknowledged and found to be free, in this
   order, and the chip has kept it since (`dhcp_granted`). -/
namespace IBoxClient

/-! ## While a lease is kept -/

structure DhcpOk (d : Dhcp) : Prop where
  chip : d.keeps → d.regs.sipr = d.allocatedIp ∧ d.ethMsg.ip = d.allocatedIp
  same : d.state = .rerequest → d.oldIp = d.allocatedIp
  next : d.tickNext = dhcpWaitTime
  count : d.retryCount ≤ maxDhcpRetry

section Ok
variable {d : Dhcp} {i : DhcpInput} {type : UInt8} {step : DhcpStep}

theorem dhcpOk_init (d : Dhcp) : DhcpOk (dhcpInit d) where
  chip h := by simp [dhcpInit, Dhcp.keeps] at h
  same h := by simp [dhcpInit] at h
  next := rfl
  count := Nat.zero_le _

/-- Without a lease there is nothing to be said of the addresses. -/
theorem dhcpOk_of_not_keeps (hstate : ¬ d.keeps) (hnext : d.tickNext = dhcpWaitTime)
    (hcount : d.retryCount ≤ maxDhcpRetry) : DhcpOk d where
  chip h := absurd h hstate
  same h := absurd (.inr h) hstate
  next := hnext
  count := hcount

/-- **What a move keeps.** -/
theorem DhcpMove.ok (hmove : DhcpMove i type d step) (h : DhcpOk d) : DhcpOk step.dhcp := by
  have hcount := h.count
  cases hmove with
  | start hstate => exact dhcpOk_of_not_keeps (by simp [Dhcp.keeps]) h.next hcount
  | offer hstate => exact dhcpOk_of_not_keeps (by simp [Dhcp.keeps]) h.next hcount
  | bound hstate =>
    refine ⟨fun _ => ⟨rfl, rfl⟩, fun hre => ?_, rfl, Nat.zero_le _⟩
    cases hre
  | taken hstate => exact dhcpOk_of_not_keeps (by simp [Dhcp.keeps]) rfl (Nat.zero_le _)
  | refused hstate => exact dhcpOk_of_not_keeps (by simp [Dhcp.keeps]) rfl (Nat.zero_le _)
  | renew hstate => exact ⟨fun _ => h.chip (.inl hstate), fun _ => rfl, rfl, Nat.zero_le _⟩
  | idle => exact h
  | renewed hstate =>
    refine ⟨fun _ => h.chip (.inr hstate), fun hre => ?_, rfl, Nat.zero_le _⟩
    cases hre
  | changed hstate _ hne => exact absurd (h.same hstate) hne
  | wait => exact h
  | resendDiscover hstate _ hretry =>
    refine dhcpOk_of_not_keeps ?_ rfl hretry
    simp [Dhcp.keeps, Dhcp.again, hstate]
  | resendRequest _ _ hretry => exact ⟨h.chip, h.same, rfl, hretry⟩
  | fail hstate => exact dhcpOk_of_not_keeps (by simp [Dhcp.keeps]) rfl (Nat.zero_le _)
  | restart hstate => exact dhcpOk_of_not_keeps (by simp [Dhcp.keeps]) rfl (Nat.zero_le _)

theorem dhcpOk_step (d : Dhcp) (e : DhcpEvent) (h : DhcpOk d) : DhcpOk (dhcpStep d e).1 := by
  cases e with
  | tick | dns => exact ⟨h.chip, h.same, h.next, h.count⟩
  | stop => exact dhcpOk_of_not_keeps (by simp [dhcpStep, Dhcp.keeps]) h.next h.count
  | run i =>
    by_cases hstop : d.state = .stop
    · simp only [dhcpStep, dhcpRun_stopped hstop]
      exact h
    · obtain ⟨opened, step, -, hmove, hrun⟩ := dhcpRun_moves (i := i) hstop
      obtain ⟨buf, net, hparse⟩ := parseDhcpMsg_frame i d
      simp only [dhcpStep, hrun]
      apply hmove.ok
      rw [hparse]
      exact ⟨h.chip, h.same, h.next, h.count⟩

/-- A move never changes an address that is kept. -/
theorem DhcpMove.never_changes (hmove : DhcpMove i type d step) (h : DhcpOk d) :
    step.ret ≠ .ipAssign ∧ step.ret ≠ .ipChanged := by
  cases hmove with
  | refused _ _ ret hret =>
    rcases hret with rfl | rfl
    · exact ⟨by simp, by simp⟩
    · exact ⟨by simp, by simp⟩
  | changed hstate _ hne => exact absurd (h.same hstate) hne
  | _ => exact ⟨by simp, by simp⟩

/-- What is put out by a call, is put out by its move, or says what the call returns. -/
theorem returned_mem {ret : DhcpReturn} (h : .returned ret ∈ (dhcpRun i d).2)
    (hstop : ret ≠ .stopped) :
    ∃ step, DhcpMove i (parseDhcpMsg i d).1 (parseDhcpMsg i d).2 step ∧ ret = step.ret := by
  by_cases hstate : d.state = .stop
  · rw [dhcpRun_stopped hstate] at h
    have hret : ret = .stopped := by simpa using h
    exact absurd hret hstop
  · obtain ⟨opened, step, hopened, hmove, hrun⟩ := dhcpRun_moves (i := i) hstate
    refine ⟨step, hmove, ?_⟩
    have hquiet : .returned ret ∉ step.outs := by
      cases hmove <;> simp
    rw [hrun] at h
    rcases hopened with rfl | rfl
    · simpa [hquiet] using h
    · simpa [hquiet] using h

theorem parse_ok (h : DhcpOk d) : DhcpOk (parseDhcpMsg i d).2 := by
  obtain ⟨buf, net, hparse⟩ := parseDhcpMsg_frame i d
  rw [hparse]
  exact ⟨h.chip, h.same, h.next, h.count⟩

end Ok

/-- **The address is kept.** In every run from the start: while a lease is kept, the address in the
chip is the allocated one, and no call ever returns that an address has been assigned or
changed. -/
theorem dhcp_address_kept (d : Dhcp) (es : List DhcpEvent) :
    let s := Machine.last dhcpStep (dhcpInit d) es
    (s.keeps → s.regs.sipr = s.allocatedIp ∧ s.ethMsg.ip = s.allocatedIp) ∧
      .returned .ipAssign ∉ Machine.out dhcpStep (dhcpInit d) es ∧
      .returned .ipChanged ∉ Machine.out dhcpStep (dhcpInit d) es := by
  intro s
  have hinit := dhcpOk_init d
  have hquiet : ∀ ret, ret = .ipAssign ∨ ret = .ipChanged →
      .returned ret ∉ Machine.out dhcpStep (dhcpInit d) es := by
    intro ret hret
    apply Machine.not_mem_out dhcpOk_step _ hinit
    intro s e hok hmem
    cases e with
    | tick | dns | stop => exact absurd hmem List.not_mem_nil
    | run i =>
      have hstop : ret ≠ .stopped := by
        rcases hret with rfl | rfl
        · simp
        · simp
      obtain ⟨step, hmove, rfl⟩ := returned_mem hmem hstop
      have hnever := hmove.never_changes (parse_ok hok)
      exact hret.elim hnever.1 hnever.2
  exact ⟨(Machine.run_invariant dhcpOk_step hinit es).chip, hquiet _ (.inl rfl),
    hquiet _ (.inr rfl)⟩

/-! ## How it has been got -/

/-- A reply is taken as an offer of an address, and the address is asked for. -/
structure Offered (d : Dhcp) (i : DhcpInput) (ip : Ipv4) : Prop where
  state : d.state = .discover
  type : (parseDhcpMsg i d).1 = dhcpOffer
  addr : ip = (parseDhcpMsg i d).2.yiaddr
  asked : .sendto (requestMsg (parseDhcpMsg i d).2.offered) .broadcast dhcpServerPort ∈
    (dhcpRun i d).2

/-- A reply is taken as an acknowledgement, and no other host answers for the address. -/
structure Acked (d : Dhcp) (i : DhcpInput) (ip : Ipv4) : Prop where
  state : d.state = .request
  type : (parseDhcpMsg i d).1 = dhcpAck
  addr : d.allocatedIp = ip
  probed : .sendto checkIpConflict ip 5000 ∈ (dhcpRun i d).2
  free : i.probe = sockerrTimeout

/-- An address has been offered, and asked for since. -/
def Asked (d₀ : Dhcp) (es : List DhcpEvent) (ip : Ipv4) : Prop :=
  ∃ before i waiting, es = before ++ .run i :: waiting ∧
    let d := Machine.last dhcpStep d₀ before
    Offered d i ip ∧
      Machine.Throughout dhcpStep (fun s => s.state = .request ∧ s.allocatedIp = ip)
        (dhcpRun i d).1 waiting

/-- An address has been offered, asked for until it was acknowledged, and used since. -/
def Granted (d₀ : Dhcp) (es : List DhcpEvent) (ip : Ipv4) : Prop :=
  ∃ asking j since, es = asking ++ .run j :: since ∧
    let d := Machine.last dhcpStep d₀ asking
    Asked d₀ asking ip ∧ Acked d j ip ∧
      Machine.Throughout dhcpStep (fun s => s.keeps ∧ s.regs.sipr = ip) (dhcpRun j d).1 since

section Granted
variable {d : Dhcp} {i : DhcpInput} {e : DhcpEvent} {type : UInt8} {step : DhcpStep}

/-- A lease begins with an acknowledgement. -/
theorem DhcpMove.keeps_entry (hmove : DhcpMove i type d step) (hout : ¬ d.keeps)
    (hin : step.dhcp.keeps) :
    d.state = .request ∧ type = dhcpAck ∧ i.probe = sockerrTimeout ∧
      .sendto checkIpConflict d.allocatedIp 5000 ∈ step.outs ∧
      step.dhcp.regs.sipr = d.allocatedIp := by
  have hno : ∀ s : DhcpState, s ≠ .leased → s ≠ .rerequest → ∀ d' : Dhcp, d'.state = s →
      ¬ d'.keeps := by
    intro s hleased hre d' hd' hkeeps
    rcases hkeeps with h | h
    · exact hleased (hd'.symm.trans h)
    · exact hre (hd'.symm.trans h)
  cases hmove with
  | bound hstate htype hprobe => exact ⟨hstate, htype, hprobe, List.mem_cons_self, rfl⟩
  | start | refused | restart => exact absurd hin (hno .discover (by simp) (by simp) _ rfl)
  | offer => exact absurd hin (hno .request (by simp) (by simp) _ rfl)
  | taken | fail => exact absurd hin (hno .init (by simp) (by simp) _ rfl)
  | renew hstate | idle hstate => exact absurd (.inl hstate) hout
  | renewed hstate | changed hstate => exact absurd (.inr hstate) hout
  | wait | resendDiscover | resendRequest => exact absurd hin hout

/-- The client begins to ask with an offer. -/
theorem DhcpMove.request_entry (hmove : DhcpMove i type d step) (hout : d.state ≠ .request)
    (hin : step.dhcp.state = .request) :
    d.state = .discover ∧ type = dhcpOffer ∧ step.dhcp.allocatedIp = d.yiaddr ∧
      .sendto (requestMsg d.offered) .broadcast dhcpServerPort ∈ step.outs := by
  cases hmove with
  | offer hstate htype => exact ⟨hstate, htype, rfl, List.mem_cons_self⟩
  | start | bound | refused | renew | renewed | changed | fail | restart => cases hin
  | taken => cases hin
  | idle | wait | resendDiscover | resendRequest => exact absurd hin hout

/-- As long as the client asks, it asks for the same address. -/
theorem DhcpMove.request_stays (hmove : DhcpMove i type d step) (h : d.state = .request)
    (hin : step.dhcp.state = .request) : step.dhcp.allocatedIp = d.allocatedIp := by
  cases hmove with
  | offer hstate => cases h.symm.trans hstate
  | start | bound | taken | refused | renew | renewed | changed | fail | restart => cases hin
  | idle | wait | resendDiscover | resendRequest => rfl

/-- As long as a lease is kept, the chip has the same address. -/
theorem DhcpMove.keeps_stays (hmove : DhcpMove i type d step) (hok : DhcpOk d) (h : d.keeps)
    (hin : step.dhcp.keeps) : step.dhcp.regs.sipr = d.regs.sipr := by
  cases hmove with
  | changed hstate _ hne => exact absurd (hok.same hstate) hne
  | bound hstate => simp [Dhcp.keeps, hstate] at h
  | taken hstate => simp [Dhcp.keeps, hstate] at h
  | _ => rfl

/-- A step into a set of states is a call, and a move. -/
theorem move_of_entry {P : Dhcp → Prop} (hout : ¬ P d) (hin : P (dhcpStep d e).1)
    (hother : ∀ tick buf, P { d with tick1s := tick, buf := buf } → P d)
    (hstop : ¬ P { d with state := .stop }) :
    ∃ i step, e = .run i ∧ DhcpMove i (parseDhcpMsg i d).1 (parseDhcpMsg i d).2 step ∧
      (dhcpRun i d).1 = step.dhcp ∧ ∀ out ∈ step.outs, out ∈ (dhcpRun i d).2 := by
  cases e with
  | tick => exact absurd (hother _ d.buf hin) hout
  | dns buf => exact absurd (hother d.tick1s buf hin) hout
  | stop => exact absurd hin hstop
  | run i =>
    by_cases hstate : d.state = .stop
    · simp only [dhcpStep, dhcpRun_stopped hstate] at hin
      exact absurd hin hout
    · obtain ⟨opened, step, -, hmove, hrun⟩ := dhcpRun_moves (i := i) hstate
      refine ⟨i, step, rfl, hmove, by rw [hrun], fun out hmem => ?_⟩
      rw [hrun]
      exact List.mem_append_left _ (List.mem_append_right _ hmem)

theorem acked_of_entry (hout : ¬ d.keeps) (hin : (dhcpStep d e).1.keeps) :
    ∃ i, e = .run i ∧ Acked d i d.allocatedIp ∧ (dhcpRun i d).1.regs.sipr = d.allocatedIp := by
  have hstop : ¬ Dhcp.keeps { d with state := .stop } := by simp [Dhcp.keeps]
  obtain ⟨i, step, rfl, hmove, hrun, hmem⟩ := move_of_entry hout hin (fun _ _ h => h) hstop
  obtain ⟨buf, net, hparse⟩ := parseDhcpMsg_frame i d
  have hkeeps : step.dhcp.keeps := hrun ▸ hin
  have hout' : ¬ (parseDhcpMsg i d).2.keeps := by
    rw [hparse]
    exact hout
  obtain ⟨hstate, htype, hprobe, hprobed, haddr⟩ := hmove.keeps_entry hout' hkeeps
  have hfree := hmem _ hprobed
  rw [hparse] at hstate haddr hfree
  refine ⟨i, rfl, ⟨hstate, htype, rfl, hfree, hprobe⟩, ?_⟩
  rw [hrun]
  exact haddr

theorem offered_of_entry (hout : d.state ≠ .request) (hin : (dhcpStep d e).1.state = .request) :
    ∃ i, e = .run i ∧ Offered d i (dhcpRun i d).1.allocatedIp := by
  have hstop : ¬ ({ d with state := .stop } : Dhcp).state = .request := by simp
  obtain ⟨i, step, rfl, hmove, hrun, hmem⟩ :=
    move_of_entry (P := fun d => d.state = .request) hout hin (fun _ _ h => h) hstop
  obtain ⟨buf, net, hparse⟩ := parseDhcpMsg_frame i d
  have hrequest : step.dhcp.state = .request := hrun ▸ hin
  have hout' : (parseDhcpMsg i d).2.state ≠ .request := by
    rw [hparse]
    exact hout
  obtain ⟨hstate, htype, haddr, hasked⟩ := hmove.request_entry hout' hrequest
  have hasked' := hmem _ hasked
  rw [hparse] at hstate
  refine ⟨i, rfl, hstate, htype, ?_, hasked'⟩
  rw [hrun]
  exact haddr

/-- A step within a set of states is a move, or changes nothing that matters. -/
theorem move_of_stay (hrun : d.state ≠ .stop) (hin : (dhcpStep d e).1.state ≠ .stop) :
    (∃ tick buf, (dhcpStep d e).1 = { d with tick1s := tick, buf := buf }) ∨
      ∃ i step, DhcpMove i (parseDhcpMsg i d).1 (parseDhcpMsg i d).2 step ∧
        (dhcpStep d e).1 = step.dhcp := by
  cases e with
  | tick => exact .inl ⟨_, d.buf, rfl⟩
  | dns buf => exact .inl ⟨d.tick1s, buf, rfl⟩
  | stop => exact absurd rfl hin
  | run i =>
    obtain ⟨opened, step, -, hmove, hcall⟩ := dhcpRun_moves (i := i) hrun
    right
    refine ⟨i, step, hmove, ?_⟩
    show (dhcpRun i d).1 = _
    rw [hcall]

theorem request_keeps (h : d.state = .request) (hin : (dhcpStep d e).1.state = .request) :
    (dhcpStep d e).1.allocatedIp = d.allocatedIp := by
  have hrun : d.state ≠ .stop := by simp [h]
  have hrun' : (dhcpStep d e).1.state ≠ .stop := by simp [hin]
  rcases move_of_stay hrun hrun' with ⟨tick, buf, hstep⟩ | hmoved
  · rw [hstep]
  · obtain ⟨i, step, hmove, hstep⟩ := hmoved
    obtain ⟨buf, net, hparse⟩ := parseDhcpMsg_frame i d
    rw [hstep] at hin ⊢
    rw [hparse] at hmove
    exact hmove.request_stays h hin

theorem keeps_not_stop (h : d.keeps) : d.state ≠ .stop := by
  rcases h with h | h
  · simp [h]
  · simp [h]

theorem keeps_keeps (hok : DhcpOk d) (h : d.keeps) (hin : (dhcpStep d e).1.keeps) :
    (dhcpStep d e).1.regs.sipr = d.regs.sipr := by
  rcases move_of_stay (e := e) (keeps_not_stop h) (keeps_not_stop hin) with ⟨tick, buf, hstep⟩ | hmoved
  · rw [hstep]
  · obtain ⟨i, step, hmove, hstep⟩ := hmoved
    obtain ⟨buf, net, hparse⟩ := parseDhcpMsg_frame i d
    have hok' := parse_ok (i := i) hok
    rw [hstep] at hin ⊢
    rw [hparse] at hmove hok'
    exact hmove.keeps_stays hok' h hin

/-- The address that is asked for has been offered. -/
theorem asked_of_request {d₀ : Dhcp} (es : List DhcpEvent) (hinit : d₀.state ≠ .request)
    (h : (Machine.last dhcpStep d₀ es).state = .request) :
    Asked d₀ es (Machine.last dhcpStep d₀ es).allocatedIp := by
  obtain ⟨before, e, waiting, rfl, hout, hwaiting⟩ :=
    Machine.exists_entry (P := fun s : Dhcp => s.state = .request) hinit h
  obtain ⟨i, rfl, hoffered⟩ := offered_of_entry hout hwaiting.first
  have hasked := hwaiting.mono (Q := fun s : Dhcp => s.state = .request ∧
      s.allocatedIp = (dhcpRun i (Machine.last dhcpStep d₀ before)).1.allocatedIp)
    ⟨hwaiting.first, rfl⟩ fun s e hs hin hq => ⟨hin, (request_keeps hs hin).trans hq.2⟩
  have hip : (Machine.last dhcpStep d₀ (before ++ .run i :: waiting)).allocatedIp =
      (dhcpRun i (Machine.last dhcpStep d₀ before)).1.allocatedIp := by
    rw [Machine.last_append, Machine.last_cons]
    exact hasked.last.2
  rw [hip]
  exact ⟨before, i, waiting, rfl, hoffered, hasked⟩

/-- **Where the address comes from.** In every run from the start, with whatever replies that fit
the buffer: while a lease is kept, the address in the chip is that of an offer, which the client
has then asked for until it was acknowledged, and which nobody else has answered for; and it has
been there since. -/
theorem dhcp_granted (d : Dhcp) (es : List DhcpEvent)
    (h : (Machine.last dhcpStep (dhcpInit d) es).keeps) :
    Granted (dhcpInit d) es (Machine.last dhcpStep (dhcpInit d) es).regs.sipr := by
  have hnone : ¬ (dhcpInit d).keeps := by simp [dhcpInit, Dhcp.keeps]
  have hidle : (dhcpInit d).state ≠ .request := by simp [dhcpInit]
  -- the last step that has got a lease
  obtain ⟨asking, e, since, rfl, hout, hsince⟩ := Machine.exists_entry (P := Dhcp.keeps) hnone h
  obtain ⟨j, rfl, hacked, haddr⟩ := acked_of_entry hout hsince.first
  have hasked := asked_of_request asking hidle hacked.state
  -- since then the chip has had the address
  have hok := dhcpOk_step _ (.run j) (Machine.run_invariant dhcpOk_step (dhcpOk_init d) asking)
  have hkept := hsince.mono (Q := fun s => DhcpOk s ∧ s.keeps ∧
      s.regs.sipr = (Machine.last dhcpStep (dhcpInit d) asking).allocatedIp)
    ⟨hok, hsince.first, haddr⟩
    fun s e hs hin hq => ⟨dhcpOk_step s e hq.1, hin, (keeps_keeps hq.1 hs hin).trans hq.2.2⟩
  have hip : (Machine.last dhcpStep (dhcpInit d) (asking ++ .run j :: since)).regs.sipr =
      (Machine.last dhcpStep (dhcpInit d) asking).allocatedIp := by
    rw [Machine.last_append, Machine.last_cons]
    exact hkept.last.2.2
  rw [hip]
  exact ⟨asking, j, since, rfl, hasked, hacked, hkept.imp fun s hs => hs.2⟩

theorem dhcp_granted_seven :
    ∃ es, (Machine.last dhcpStep (dhcpInit freshDhcp) es).keeps ∧
      Granted (dhcpInit freshDhcp) es (Machine.last dhcpStep (dhcpInit freshDhcp) es).regs.sipr := by
  obtain ⟨w, hwaits, hleased⟩ := last_exchange (d := discovering) rfl rfl
    (replyCall_reply ⟨10, 0, 0, 7⟩ dhcpOffer) lateAck_idle lateAck_patient
    (replyCall_reply ⟨10, 0, 0, 7⟩ dhcpAck) rfl
  have hkeeps : (Machine.last dhcpStep (dhcpInit freshDhcp)
      ([.run quietCall] ++ lateExchange ⟨10, 0, 0, 7⟩)).keeps := by
    rw [Machine.last_append, lateExchange, hleased]
    exact .inl rfl
  exact ⟨_, hkeeps, dhcp_granted freshDhcp _ hkeeps⟩

end Granted
end IBoxClient
