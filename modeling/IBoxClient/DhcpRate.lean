import IBoxClient.DhcpLease
import IBoxClient.Lib.Potential

/- How often the client sends.

   A message that is sent once more costs eleven seconds at least, and after two of them the
   client gives up, which gives the first message of the next attempt for nothing; every other
   message answers a reply. So the client never sends more than three messages in twenty-two
   seconds, but for two for each reply (`dhcp_rate`). The account is kept in `Dhcp.saved`: the
   seconds since the last message, the messages sent since, and the message that the client may
   send at once in `INIT` and `LEASED`. -/
namespace IBoxClient

/-- A message to a server. -/
def DhcpOut.toServer : DhcpOut → Bool
  | .sendto _ _ port => port == dhcpServerPort
  | _ => false

/-- A call that finds a reply. -/
def DhcpEvent.hears : DhcpEvent → Bool
  | .run i => i.received.isSome
  | _ => false

def DhcpOut.price (o : DhcpOut) : Nat := if o.toServer then 22 else 0

def DhcpEvent.income (e : DhcpEvent) : Nat :=
  (if e.isTick then 3 else 0) + if e.hears then 44 else 0

/-- The next call may send without having waited. -/
def Dhcp.ready (d : Dhcp) : Prop := d.state = .init ∨ d.state = .leased

instance (d : Dhcp) : Decidable d.ready := inferInstanceAs (Decidable (_ ∨ _))

/-- What is saved for messages to come. -/
def Dhcp.saved (d : Dhcp) : Nat :=
  11 * d.retryCount + 3 * d.tick1s.toNat + if d.ready then 22 else 0

section Rate
variable {d : Dhcp} {i : DhcpInput} {type : UInt8} {step : DhcpStep}

theorem late_iff (h : DhcpOk d) : d.tickNext < d.tick1s ↔ 11 ≤ d.tick1s.toNat := by
  rw [h.next, UInt32.lt_iff_toNat_lt]
  exact Iff.rfl

theorem saved_ready (h : d.ready) :
    d.saved = 11 * d.retryCount + 3 * d.tick1s.toNat + 22 := by
  rw [Dhcp.saved, if_pos h]

theorem saved_busy (h : ¬ d.ready) : d.saved = 11 * d.retryCount + 3 * d.tick1s.toNat := by
  rw [Dhcp.saved, if_neg h, Nat.add_zero]

theorem asks_busy (h : d.Asks) : ¬ d.ready := by
  rintro (hinit | hleased)
  · rcases h with h | h <;> simp [h] at hinit
  · rcases h with h | h <;> simp [h] at hleased

theorem discover_busy (h : d.state = .discover) : ¬ d.ready := by
  simp [Dhcp.ready, h]

/-- After the timer has been reset, no more than one message is paid for. -/
theorem saved_new (hcount : d.retryCount = 0) (htick : d.tick1s = 0) : d.saved ≤ 22 := by
  rw [Dhcp.saved, hcount, htick]
  split
  · exact Nat.le_refl _
  · exact Nat.zero_le _

theorem saved_new_busy (hcount : d.retryCount = 0) (htick : d.tick1s = 0) (h : ¬ d.ready) :
    d.saved = 0 := by
  rw [saved_busy h, hcount, htick]
  rfl

theorem spent_message (msg : List UInt8) (ip : Ipv4) :
    Machine.spent DhcpOut.price [.sendto msg ip dhcpServerPort] = 22 := rfl

theorem spent_nil : Machine.spent DhcpOut.price [] = 0 := rfl

/-- A reply pays for a message, and for one to come. -/
theorem paid (hspent : Machine.spent DhcpOut.price step.outs ≤ 22) (hsaved : step.dhcp.saved ≤ 22) :
    Machine.spent DhcpOut.price step.outs + step.dhcp.saved ≤ d.saved + 44 := by
  omega

/-- **The account of a move**: it is paid for from what has been saved, or a reply is heeded. -/
theorem DhcpMove.spends (hmove : DhcpMove i type d step) (h : DhcpOk d) :
    Machine.spent DhcpOut.price step.outs + step.dhcp.saved ≤ d.saved ∨
      d.Heeds type ∧
        Machine.spent DhcpOut.price step.outs + step.dhcp.saved ≤ d.saved + 44 := by
  cases hmove with
  | start hstate =>
    left
    rw [spent_message, saved_ready (.inl hstate), saved_busy (discover_busy rfl)]
    exact Nat.le_of_eq (Nat.add_comm _ _)
  | offer hstate htype =>
    refine .inr ⟨.inl ⟨hstate, htype⟩, ?_⟩
    rw [spent_message, saved_busy (discover_busy hstate), saved_busy (asks_busy (.inl rfl))]
    show 22 + (11 * d.retryCount + 3 * d.tick1s.toNat) ≤ _
    omega
  | bound hstate htype =>
    exact .inr ⟨.inr ⟨.inl hstate, .inl htype⟩, paid (Nat.zero_le _) (saved_new rfl rfl)⟩
  | taken hstate htype =>
    exact .inr ⟨.inr ⟨.inl hstate, .inl htype⟩, paid (Nat.le_refl _) (saved_new rfl rfl)⟩
  | refused hasks htype =>
    exact .inr ⟨.inr ⟨hasks, .inr htype⟩, paid (Nat.zero_le _) (saved_new rfl rfl)⟩
  | renew hstate =>
    left
    rw [spent_message, saved_ready (.inr hstate), saved_new_busy rfl rfl (asks_busy (.inr rfl))]
    omega
  | renewed hstate htype =>
    exact .inr ⟨.inr ⟨.inr hstate, .inl htype⟩, paid (Nat.zero_le _) (saved_new rfl rfl)⟩
  | changed hstate _ hne => exact absurd (h.same hstate) hne
  | idle | wait => exact .inl (Nat.le_of_eq (Nat.zero_add _))
  | resendDiscover hstate _ _ hlate =>
    have hlate' := (late_iff h).mp hlate
    have hagain := saved_busy (d := (d.made (discoverMsg d)).again) (discover_busy hstate)
    left
    rw [spent_message, hagain, saved_busy (discover_busy hstate)]
    show 22 + (11 * (d.retryCount + 1) + 3 * 0) ≤ _
    omega
  | resendRequest hasks _ _ hlate =>
    have hlate' := (late_iff h).mp hlate
    have hagain := saved_busy (d := (d.made (requestMsg d)).again) (asks_busy hasks)
    left
    rw [spent_message, hagain, saved_busy (asks_busy hasks)]
    show 22 + (11 * (d.retryCount + 1) + 3 * 0) ≤ _
    omega
  | fail hstate _ hcount =>
    have htwo : 2 ≤ d.retryCount := Nat.not_lt.mp hcount
    have hfull : 22 ≤ d.saved := by
      rw [saved_busy (discover_busy hstate)]
      omega
    left
    rw [spent_nil, Nat.zero_add]
    exact Nat.le_trans (saved_new rfl rfl) hfull
  | restart hasks _ hcount =>
    have htwo : 2 ≤ d.retryCount := Nat.not_lt.mp hcount
    left
    rw [spent_message, saved_busy (asks_busy hasks), saved_new_busy rfl rfl (discover_busy rfl)]
    omega

/-- Without a reply there is no type to heed. -/
theorem not_heeds (c : Dhcp) (h : i.received = none) : ¬ c.Heeds (parseDhcpMsg i d).1 := by
  have hzero : (parseDhcpMsg i d).1 = 0 := by rw [parseDhcpMsg, h]
  rw [hzero]
  rintro (⟨-, htype⟩ | ⟨-, htype | htype⟩)
  · exact absurd htype (by decide)
  · exact absurd htype (by decide)
  · exact absurd htype (by decide)

theorem spent_opened {opened : List DhcpOut} (h : opened = [] ∨ opened = [.socket dhcpClientPort]) :
    Machine.spent DhcpOut.price opened = 0 := by
  rcases h with rfl | rfl
  · rfl
  · rfl

/-- A second that passes is worth three, and may be forgotten. -/
theorem saved_tick (d : Dhcp) : ({ d with tick1s := d.tick1s + 1 } : Dhcp).saved ≤ d.saved + 3 := by
  have hone : (d.tick1s + 1).toNat ≤ d.tick1s.toNat + 1 := by
    rw [UInt32.toNat_add]
    exact Nat.mod_le _ _
  show 11 * d.retryCount + 3 * (d.tick1s + 1).toNat + (if d.ready then 22 else 0) ≤
    11 * d.retryCount + 3 * d.tick1s.toNat + (if d.ready then 22 else 0) + 3
  omega

theorem saved_stop (d : Dhcp) : ({ d with state := .stop } : Dhcp).saved ≤ d.saved := by
  have hbusy : ¬ Dhcp.ready { d with state := .stop } := by simp [Dhcp.ready]
  rw [saved_busy hbusy]
  exact Nat.le_add_right _ _

/-- **The account of a step.** -/
theorem dhcpStep_spends (d : Dhcp) (e : DhcpEvent) (h : DhcpOk d) :
    Machine.spent DhcpOut.price (dhcpStep d e).2 + (dhcpStep d e).1.saved ≤ d.saved + e.income := by
  cases e with
  | tick =>
    have htick := saved_tick d
    show 0 + _ ≤ d.saved + 3
    rw [Nat.zero_add]
    exact htick
  | dns buf => exact Nat.le_of_eq (Nat.zero_add _)
  | stop =>
    have hstop := saved_stop d
    show 0 + _ ≤ d.saved + 0
    rw [Nat.zero_add]
    exact hstop
  | run i =>
    by_cases hstop : d.state = .stop
    · simp only [dhcpStep, dhcpRun_stopped hstop]
      show 0 + d.saved ≤ _
      rw [Nat.zero_add]
      exact Nat.le_add_right _ _
    · obtain ⟨opened, step, hopened, hmove, hrun⟩ := dhcpRun_moves (i := i) hstop
      obtain ⟨buf, net, hparse⟩ := parseDhcpMsg_frame i d
      have hsaved : (parseDhcpMsg i d).2.saved = d.saved := by rw [hparse]; rfl
      have hreturn : Machine.spent DhcpOut.price [.returned step.ret] = 0 := rfl
      have hspend := hmove.spends (parse_ok h)
      rw [hsaved] at hspend
      simp only [dhcpStep, hrun, Machine.spent_append, spent_opened hopened, hreturn, Nat.zero_add,
        Nat.add_zero]
      rcases hspend with hown | ⟨hheeds, hpaid⟩
      · exact Nat.le_add_right_of_le hown
      · -- what is heeded has been heard
        have hheard : (DhcpEvent.run i).income = 44 := by
          cases hreceived : i.received with
          | none =>
            exact absurd hheeds (not_heeds _ hreceived)
          | some r => simp [DhcpEvent.income, DhcpEvent.isTick, DhcpEvent.hears, hreceived]
        rw [hheard]
        exact hpaid

end Rate

/-- **The rate.** In every run from the start, whatever is received: the client sends no more than
three messages for each twenty-two seconds, one more, and two for each reply. -/
theorem dhcp_rate (d : Dhcp) (es : List DhcpEvent) :
    22 * (Machine.out dhcpStep (dhcpInit d) es).countP DhcpOut.toServer ≤
      22 + 3 * es.countP DhcpEvent.isTick + 44 * es.countP DhcpEvent.hears := by
  have hspent := Machine.spent_le Dhcp.saved dhcpOk_step dhcpStep_spends (dhcpOk_init d) es
  have hinit : (dhcpInit d).saved = 22 := by
    rw [saved_ready (.inl rfl)]
    rfl
  have hprice : Machine.spent DhcpOut.price (Machine.out dhcpStep (dhcpInit d) es) =
      22 * (Machine.out dhcpStep (dhcpInit d) es).countP DhcpOut.toServer := Machine.sum_price _ _ _
  have hincome : (es.map DhcpEvent.income).sum =
      3 * es.countP DhcpEvent.isTick + 44 * es.countP DhcpEvent.hears := by
    rw [← Machine.sum_price, ← Machine.sum_price, ← List.sum_map_add]
    rfl
  rw [hinit, hprice, hincome] at hspent
  omega

end IBoxClient
