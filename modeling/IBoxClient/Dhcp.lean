import IBoxClient.DhcpOptions
import IBoxClient.Ethernet
import IBoxClient.Lib.Machine

/- The DHCP client (`dhcp.c`), with the callbacks that `ibox_Ethernet.c` registers.

   `dhcpRun` is one call of `DHCP_run`. A machine calls it, lets a second pass, or stops the
   client. What a call finds is its input: the status of the socket, the reply if there is
   one, the result of the probe for the address, and the registers after a reset of the chip.
   `type` has no value where a reply does not come from the port of a server; it is then part of
   the input as well.

   `recvfrom` is given the size of what has come, not that of `dhcp_dns_buf`, and stores a reply
   of more than 548 bytes over the variables behind the buffer. Such a reply is no input here: a
   `Datagram` fits the buffer. The buffer is also that of the DNS client, which may store anything
   there between two calls.

   A second passes between the calls. `dhcpRun_cases` says once what a call can do; everything
   else about the client follows from it. -/
namespace IBoxClient

open Memory

/-! ## The client -/

inductive DhcpState where
  | init
  | discover
  | request
  | leased
  | rerequest
  | stop
  deriving DecidableEq

inductive DhcpReturn where
  | failed
  | running
  | ipAssign
  | ipChanged
  | ipLeased
  | stopped
  deriving DecidableEq

abbrev maxDhcpRetry : Nat := 2
abbrev dhcpWaitTime : UInt32 := 10
abbrev dhcpServerPort : UInt16 := 67
abbrev dhcpClientPort : UInt16 := 68
abbrev infiniteLeasetime : UInt32 := 0xffffffff

abbrev flagsBroadcast : UInt8 := 0x80
abbrev flagsUnicast : UInt8 := 0x00

abbrev sockerrTimeout : Int := -13

/-- The registers of the chip that are written here. -/
structure NetRegs where
  sipr : Ipv4
  gar : Ipv4
  subr : Ipv4
  shar : Mac
  rtr : UInt16
  rcr : UInt8

/-- `eth_msg_get`, without the address of the server. -/
structure EthMsgGet where
  mac : Mac
  ip : Ipv4
  gw : Ipv4
  sub : Ipv4

/-- The variables of `dhcp.c`, `dhcp_dns_buf`, and what the callbacks write. -/
structure Dhcp where
  state : DhcpState
  retryCount : Nat
  tick1s : UInt32
  tickNext : UInt32
  xid : UInt32
  chaddr : Mac
  oldIp : Ipv4
  allocatedIp : Ipv4
  net : DhcpNet
  buf : Fin ripMsgSize → UInt8
  ethMsg : EthMsgGet
  regs : NetRegs

/-- What `recvfrom` returns, and stores into the buffer. -/
structure Datagram extends Received where
  fits : stored.length ≤ ripMsgSize

/-- What a call finds. `received` is what `recvfrom` returns and stores, and the port, if
anything is pending; `behind` is what stands behind the buffer, where options are read that are
cut off at its end. -/
structure DhcpInput where
  udp : Bool
  received : Option (Datagram × UInt16)
  behind : Nat → UInt8
  staleType : UInt8
  probe : Int
  afterReset : NetRegs

/-- What a call does to the outside. -/
inductive DhcpOut where
  | socket (port : UInt16)
  | sendto (msg : List UInt8) (ip : Ipv4) (port : UInt16)
  | setRegs (regs : NetRegs)
  | reset
  | returned (ret : DhcpReturn)

/-- A result with what has been done. -/
structure DhcpStep where
  ret : DhcpReturn
  dhcp : Dhcp
  outs : List DhcpOut

/-! ## The callbacks -/

/-- `eth_ip_assign`. -/
def ethIpAssign (d : Dhcp) : Dhcp :=
  let ethMsg : EthMsgGet := { d.ethMsg with ip := d.allocatedIp, gw := d.net.gw, sub := d.net.sn }
  { d with
    ethMsg := ethMsg
    regs := { d.regs with subr := ethMsg.sub, gar := ethMsg.gw, sipr := ethMsg.ip, rtr := 2000, rcr := 3 } }

/-- `eth_ip_update`. -/
def ethIpUpdate (afterReset : NetRegs) (d : Dhcp) : Dhcp :=
  let d := ethIpAssign { d with regs := afterReset }
  { d with regs := { d.regs with shar := d.ethMsg.mac } }

/-- `eth_ip_conflict`. -/
def ethIpConflict (afterReset : NetRegs) (d : Dhcp) : Dhcp :=
  { d with regs := { afterReset with shar := d.ethMsg.mac } }

/-! ## Sending -/

/-- A message is made in the buffer. -/
def Dhcp.made (d : Dhcp) (msg : List UInt8) : Dhcp := { d with buf := fill d.buf msg }

/-- The message of `send_DHCP_DISCOVER`. -/
def discoverMsg (d : Dhcp) : List UInt8 :=
  makeDhcpMsg d.xid d.chaddr flagsBroadcast .zero (discoverOptions d.chaddr)

/-- A lease is to be kept, not asked for. -/
def Dhcp.keeps (d : Dhcp) : Prop := d.state = .leased ∨ d.state = .rerequest

instance (d : Dhcp) : Decidable d.keeps := inferInstanceAs (Decidable (_ ∨ _))

/-- Where `send_DHCP_REQUEST` sends to. -/
def requestTo (d : Dhcp) : Ipv4 := if d.keeps then d.net.sip else .broadcast

/-- The message of `send_DHCP_REQUEST`. -/
def requestMsg (d : Dhcp) : List UInt8 :=
  makeDhcpMsg d.xid d.chaddr (if d.keeps then flagsUnicast else flagsBroadcast)
    (if d.keeps then d.allocatedIp else .zero)
    (requestOptions d.chaddr d.allocatedIp d.net.sip (requestTo d))

/-- The message of `send_DHCP_DECLINE`. -/
def declineMsg (d : Dhcp) : List UInt8 :=
  makeDhcpMsg d.xid d.chaddr flagsUnicast .zero (declineOptions d.chaddr d.allocatedIp d.net.sip)

def sendDhcpDiscover (d : Dhcp) : Dhcp × List DhcpOut :=
  (d.made (discoverMsg d), [.sendto (discoverMsg d) .broadcast dhcpServerPort])

def sendDhcpRequest (d : Dhcp) : Dhcp × List DhcpOut :=
  (d.made (requestMsg d), [.sendto (requestMsg d) (requestTo d) dhcpServerPort])

def sendDhcpDecline (d : Dhcp) : Dhcp × List DhcpOut :=
  (d.made (declineMsg d), [.sendto (declineMsg d) .broadcast dhcpServerPort])

/-! ## A call -/

/-- Offsets in a message. -/
abbrev yiaddrAt : Nat := 16
abbrev chaddrAt : Nat := 28
abbrev optionsAt : Nat := 240

/-- `parseDHCPMSG`; a code of `recvfrom` becomes a length. -/
def parseDhcpMsg (i : DhcpInput) (d : Dhcp) : UInt8 × Dhcp :=
  match i.received with
  | none => (0, d)
  | some (received, svrPort) =>
    let d := { d with buf := fill d.buf received.stored }
    let mem := extend d.buf i.behind
    let len := (received.ret % 65536).toNat
    if svrPort = dhcpServerPort then
      if Mac.read mem chaddrAt ≠ d.chaddr then (0, d)
      else
        let r := parseOptions mem optionsAt (optionsAt + (len - optionsAt))
          { toDhcpNet := d.net, type := 0 }
        (r.type, { d with net := r.toDhcpNet })
    else (i.staleType, d)

def resetDhcpTimeout (d : Dhcp) : Dhcp :=
  { d with tick1s := 0, tickNext := dhcpWaitTime, retryCount := 0 }

namespace Dhcp

/-- The client asks for an address, or asks for it again. -/
def Asks (d : Dhcp) : Prop := d.state = .request ∨ d.state = .rerequest

instance (d : Dhcp) : Decidable d.Asks := inferInstanceAs (Decidable (_ ∨ _))

/-- The client heeds a reply of this type. -/
def Heeds (d : Dhcp) (type : UInt8) : Prop :=
  d.state = .discover ∧ type = dhcpOffer ∨ d.Asks ∧ (type = dhcpAck ∨ type = dhcpNak)

instance (d : Dhcp) (type : UInt8) : Decidable (d.Heeds type) :=
  inferInstanceAs (Decidable (_ ∨ _))

/-- A lease has a time, and half of it is over. -/
def Due (d : Dhcp) : Prop := d.net.leaseTime ≠ infiniteLeasetime ∧ d.net.leaseTime / 2 < d.tick1s

instance (d : Dhcp) : Decidable d.Due := inferInstanceAs (Decidable (_ ∧ _))

/-- The address in the message in the buffer. -/
def yiaddr (d : Dhcp) : Ipv4 := ⟨d.buf 16, d.buf 17, d.buf 18, d.buf 19⟩

/-- The address is forgotten. -/
def cleared (d : Dhcp) : Dhcp := { d with allocatedIp := .zero }

/-- The offered address is taken down. -/
def offered (d : Dhcp) : Dhcp := { d with allocatedIp := d.yiaddr }

/-- The address to be kept is remembered, under a new number. -/
def renewing (d : Dhcp) : Dhcp := { d with oldIp := d.allocatedIp, xid := d.xid + 1 }

/-- A message has been sent once more, and the timer runs again. -/
def again (d : Dhcp) : Dhcp :=
  { d with tick1s := 0, tickNext := 0 + dhcpWaitTime, retryCount := d.retryCount + 1 }

end Dhcp

/-- `check_DHCP_timeout`. -/
def checkDhcpTimeout (d : Dhcp) : DhcpStep :=
  if d.retryCount < maxDhcpRetry then
    if d.tickNext < d.tick1s then
      let sent :=
        if d.state = .discover then sendDhcpDiscover d
        else if d.Asks then sendDhcpRequest d
        else (d, [])
      ⟨.running, sent.1.again, sent.2⟩
    else ⟨.running, d, []⟩
  else if d.state = .discover then ⟨.failed, resetDhcpTimeout { d with state := .init }, []⟩
  else if d.Asks then
    let sent := sendDhcpDiscover d
    ⟨.running, resetDhcpTimeout { sent.1 with state := .discover }, sent.2⟩
  else ⟨.running, resetDhcpTimeout d, []⟩

def checkIpConflict : List UInt8 := Bytes.ascii "CHECK_IP_CONFLICT"

/-- `check_DHCP_leasedIP`: whether the address is free. `RCR` is restored after the probe, and
where the address is taken two seconds are waited for. -/
def checkDhcpLeasedIp (probe : Int) (d : Dhcp) : Bool × Dhcp × List DhcpOut :=
  let out := .sendto checkIpConflict d.allocatedIp 5000
  if probe = sockerrTimeout then (true, d, [out])
  else
    let sent := sendDhcpDecline d
    (false, { sent.1 with tick1s := sent.1.tick1s + 2 }, out :: sent.2)

/-- The `switch` of `DHCP_run`. -/
def dhcpSwitch (i : DhcpInput) (type : UInt8) (d : Dhcp) : DhcpStep :=
  match d.state with
  | .init =>
    let sent := sendDhcpDiscover d.cleared
    ⟨.running, { sent.1 with state := .discover }, sent.2⟩
  | .discover =>
    if type = dhcpOffer then
      let sent := sendDhcpRequest d.offered
      ⟨.running, { sent.1 with state := .request }, sent.2⟩
    else checkDhcpTimeout d
  | .request =>
    if type = dhcpAck then
      let checked := checkDhcpLeasedIp i.probe d
      if checked.1 then
        let d := resetDhcpTimeout (ethIpAssign checked.2.1)
        ⟨.running, { d with state := .leased }, checked.2.2 ++ [.setRegs d.regs]⟩
      else
        let d := ethIpConflict i.afterReset (resetDhcpTimeout checked.2.1)
        ⟨.running, { d with state := .init }, checked.2.2 ++ [.reset, .setRegs d.regs]⟩
    else if type = dhcpNak then
      ⟨.running, { resetDhcpTimeout d with state := .discover }, []⟩
    else checkDhcpTimeout d
  | .leased =>
    if d.Due then
      let sent := sendDhcpRequest d.renewing
      ⟨.ipLeased, { resetDhcpTimeout sent.1 with state := .rerequest }, sent.2⟩
    else ⟨.ipLeased, d, []⟩
  | .rerequest =>
    if type = dhcpAck then
      let d := { d with retryCount := 0 }
      if d.oldIp ≠ d.allocatedIp then
        let d := ethIpUpdate i.afterReset d
        ⟨.ipChanged, { resetDhcpTimeout d with state := .leased }, [.reset, .setRegs d.regs]⟩
      else ⟨.ipLeased, { resetDhcpTimeout d with state := .leased }, []⟩
    else if type = dhcpNak then
      ⟨.ipLeased, { resetDhcpTimeout d with state := .discover }, []⟩
    else checkDhcpTimeout d
  | .stop => ⟨.running, d, []⟩

/-- `DHCP_run`. -/
def dhcpRun (i : DhcpInput) (d : Dhcp) : Dhcp × List DhcpOut :=
  if d.state = .stop then (d, [.returned .stopped])
  else
    let opened := if i.udp then [] else [DhcpOut.socket dhcpClientPort]
    let parsed := parseDhcpMsg i d
    let step := dhcpSwitch i parsed.1 parsed.2
    (step.dhcp, opened ++ step.outs ++ [.returned step.ret])

/-! ## Runs -/

inductive DhcpEvent where
  | tick
  | run (i : DhcpInput)
  | dns (buf : Fin ripMsgSize → UInt8)
  | stop

/-- `DHCP_time_handler`, `DHCP_run`, the DNS client with the same buffer, and `DHCP_stop`. -/
def dhcpStep (d : Dhcp) : DhcpEvent → Dhcp × List DhcpOut
  | .tick => ({ d with tick1s := d.tick1s + 1 }, [])
  | .run i => dhcpRun i d
  | .dns buf => ({ d with buf := buf }, [])
  | .stop => ({ d with state := .stop }, [])

/-- `DHCP_init`: an address of the chip that is zero is replaced. -/
def dhcpInit (d : Dhcp) : Dhcp :=
  let shar := if d.regs.shar = ⟨0, 0, 0, 0, 0, 0⟩ then ⟨0x00, 0x08, 0xdc, 0x00, 0x00, 0x00⟩
    else d.regs.shar
  { resetDhcpTimeout d with
    chaddr := shar
    regs := { d.regs with shar := shar, sipr := .zero, gar := .zero }
    xid := 1
    state := .init }

/-! ## What a call can do -/

-- the bytes of a message are looked at in one place only
attribute [irreducible] discoverMsg requestMsg declineMsg

namespace Dhcp
variable (d : Dhcp) (msg : List UInt8)

@[simp] theorem made_state : (d.made msg).state = d.state := rfl
@[simp] theorem made_retryCount : (d.made msg).retryCount = d.retryCount := rfl
@[simp] theorem made_tick1s : (d.made msg).tick1s = d.tick1s := rfl
@[simp] theorem made_tickNext : (d.made msg).tickNext = d.tickNext := rfl
@[simp] theorem made_xid : (d.made msg).xid = d.xid := rfl
@[simp] theorem made_chaddr : (d.made msg).chaddr = d.chaddr := rfl
@[simp] theorem made_oldIp : (d.made msg).oldIp = d.oldIp := rfl
@[simp] theorem made_allocatedIp : (d.made msg).allocatedIp = d.allocatedIp := rfl
@[simp] theorem made_net : (d.made msg).net = d.net := rfl
@[simp] theorem made_ethMsg : (d.made msg).ethMsg = d.ethMsg := rfl
@[simp] theorem made_regs : (d.made msg).regs = d.regs := rfl

end Dhcp

/-- What the `switch` makes of the type of a reply. -/
inductive DhcpMove (i : DhcpInput) (type : UInt8) (d : Dhcp) : DhcpStep → Prop where
  | start (h : d.state = .init) :
    DhcpMove i type d ⟨.running,
      { d.cleared.made (discoverMsg d.cleared) with state := .discover },
      [.sendto (discoverMsg d.cleared) .broadcast dhcpServerPort]⟩
  | offer (h : d.state = .discover) (htype : type = dhcpOffer) :
    DhcpMove i type d ⟨.running,
      { d.offered.made (requestMsg d.offered) with state := .request },
      [.sendto (requestMsg d.offered) .broadcast dhcpServerPort]⟩
  | bound (h : d.state = .request) (htype : type = dhcpAck) (hprobe : i.probe = sockerrTimeout) :
    DhcpMove i type d ⟨.running,
      { resetDhcpTimeout (ethIpAssign d) with state := .leased },
      [.sendto checkIpConflict d.allocatedIp 5000, .setRegs (ethIpAssign d).regs]⟩
  | taken (h : d.state = .request) (htype : type = dhcpAck) (hprobe : i.probe ≠ sockerrTimeout) :
    DhcpMove i type d ⟨.running,
      { ethIpConflict i.afterReset (resetDhcpTimeout (d.made (declineMsg d))) with state := .init },
      [.sendto checkIpConflict d.allocatedIp 5000,
        .sendto (declineMsg d) .broadcast dhcpServerPort, .reset,
        .setRegs { i.afterReset with shar := d.ethMsg.mac }]⟩
  | refused (h : d.Asks) (htype : type = dhcpNak) (ret : DhcpReturn)
    (hret : ret = .running ∨ ret = .ipLeased) :
    DhcpMove i type d ⟨ret, { resetDhcpTimeout d with state := .discover }, []⟩
  | renew (h : d.state = .leased) (hdue : d.Due) :
    DhcpMove i type d ⟨.ipLeased,
      { resetDhcpTimeout (d.renewing.made (requestMsg d.renewing)) with state := .rerequest },
      [.sendto (requestMsg d.renewing) d.net.sip dhcpServerPort]⟩
  | idle (h : d.state = .leased) (hdue : ¬ d.Due) : DhcpMove i type d ⟨.ipLeased, d, []⟩
  | renewed (h : d.state = .rerequest) (htype : type = dhcpAck) (hsame : d.oldIp = d.allocatedIp) :
    DhcpMove i type d ⟨.ipLeased, { resetDhcpTimeout d with state := .leased }, []⟩
  | changed (h : d.state = .rerequest) (htype : type = dhcpAck) (hne : d.oldIp ≠ d.allocatedIp) :
    DhcpMove i type d ⟨.ipChanged,
      { resetDhcpTimeout (ethIpUpdate i.afterReset { d with retryCount := 0 }) with
        state := .leased },
      [.reset, .setRegs (ethIpUpdate i.afterReset { d with retryCount := 0 }).regs]⟩
  | wait (h : d.state = .discover ∨ d.Asks) (hnot : ¬ d.Heeds type)
    (hcount : d.retryCount < maxDhcpRetry) (hearly : ¬ d.tickNext < d.tick1s) : DhcpMove i type d ⟨.running, d, []⟩
  | resendDiscover (h : d.state = .discover) (hnot : ¬ d.Heeds type)
    (hcount : d.retryCount < maxDhcpRetry) (hlate : d.tickNext < d.tick1s) :
    DhcpMove i type d ⟨.running, (d.made (discoverMsg d)).again,
      [.sendto (discoverMsg d) .broadcast dhcpServerPort]⟩
  | resendRequest (h : d.Asks) (hnot : ¬ d.Heeds type)
    (hcount : d.retryCount < maxDhcpRetry) (hlate : d.tickNext < d.tick1s) :
    DhcpMove i type d ⟨.running, (d.made (requestMsg d)).again,
      [.sendto (requestMsg d) (requestTo d) dhcpServerPort]⟩
  | fail (h : d.state = .discover) (hnot : ¬ d.Heeds type)
    (hcount : ¬ d.retryCount < maxDhcpRetry) :
    DhcpMove i type d ⟨.failed, { resetDhcpTimeout d with state := .init }, []⟩
  | restart (h : d.Asks) (hnot : ¬ d.Heeds type) (hcount : ¬ d.retryCount < maxDhcpRetry) :
    DhcpMove i type d ⟨.running,
      { resetDhcpTimeout (d.made (discoverMsg d)) with state := .discover },
      [.sendto (discoverMsg d) .broadcast dhcpServerPort]⟩

section Moves
variable {i : DhcpInput} {type : UInt8} {d : Dhcp}

theorem checkDhcpTimeout_moves (h : d.state = .discover ∨ d.Asks) (hnot : ¬ d.Heeds type) :
    DhcpMove i type d (checkDhcpTimeout d) := by
  unfold checkDhcpTimeout
  by_cases hcount : d.retryCount < maxDhcpRetry
  · rw [if_pos hcount]
    by_cases hlate : d.tickNext < d.tick1s
    · rw [if_pos hlate]
      by_cases hdiscover : d.state = .discover
      · rw [if_pos hdiscover]
        exact .resendDiscover hdiscover hnot hcount hlate
      · have hasks : d.Asks := h.resolve_left hdiscover
        rw [if_neg hdiscover, if_pos hasks]
        exact .resendRequest hasks hnot hcount hlate
    · rw [if_neg hlate]
      exact .wait h hnot hcount hlate
  · rw [if_neg hcount]
    by_cases hdiscover : d.state = .discover
    · rw [if_pos hdiscover]
      exact .fail hdiscover hnot hcount
    · have hasks : d.Asks := h.resolve_left hdiscover
      rw [if_neg hdiscover, if_pos hasks]
      exact .restart hasks hnot hcount

theorem resetDhcpTimeout_tick (d : Dhcp) (tick : UInt32) :
    resetDhcpTimeout { d with tick1s := tick } = resetDhcpTimeout d := rfl

theorem checkDhcpLeasedIp_free {probe : Int} (d : Dhcp) (h : probe = sockerrTimeout) :
    checkDhcpLeasedIp probe d = (true, d, [.sendto checkIpConflict d.allocatedIp 5000]) := by
  rw [checkDhcpLeasedIp, if_pos h]

theorem checkDhcpLeasedIp_taken {probe : Int} (d : Dhcp) (h : probe ≠ sockerrTimeout) :
    ∃ tick, checkDhcpLeasedIp probe d =
      (false, { d.made (declineMsg d) with tick1s := tick },
        [.sendto checkIpConflict d.allocatedIp 5000,
          .sendto (declineMsg d) .broadcast dhcpServerPort]) := by
  rw [checkDhcpLeasedIp, if_neg h]
  exact ⟨_, rfl⟩

/-- **What a call does** is one of these. -/
theorem dhcpSwitch_moves (h : d.state ≠ .stop) : DhcpMove i type d (dhcpSwitch i type d) := by
  unfold dhcpSwitch
  cases hstate : d.state with
  | init => exact .start hstate
  | discover =>
    by_cases htype : type = dhcpOffer
    · simp only [if_pos htype]
      have hto : requestTo d.offered = .broadcast := by
        simp [requestTo, Dhcp.keeps, Dhcp.offered, hstate]
      have hmove := DhcpMove.offer (i := i) hstate htype
      rw [← hto] at hmove
      exact hmove
    · simp only [if_neg htype]
      refine checkDhcpTimeout_moves (.inl hstate) ?_
      simp [Dhcp.Heeds, Dhcp.Asks, hstate, htype]
  | request =>
    by_cases hack : type = dhcpAck
    · by_cases hprobe : i.probe = sockerrTimeout
      · have hcheck := checkDhcpLeasedIp_free d hprobe
        simp only [if_pos hack, hcheck, if_true]
        exact .bound hstate hack hprobe
      · -- the two seconds are forgotten when the timer is reset
        obtain ⟨tick, hcheck⟩ := checkDhcpLeasedIp_taken d hprobe
        simp only [if_pos hack, hcheck, Bool.false_eq_true, if_false, resetDhcpTimeout_tick,
          List.cons_append, List.nil_append]
        exact .taken hstate hack hprobe
    · simp only [if_neg hack]
      by_cases hnak : type = dhcpNak
      · simp only [if_pos hnak]
        exact .refused (.inl hstate) hnak _ (.inl rfl)
      · simp only [if_neg hnak]
        refine checkDhcpTimeout_moves (.inr (.inl hstate)) ?_
        simp [Dhcp.Heeds, Dhcp.Asks, hstate, hack, hnak]
  | leased =>
    by_cases hdue : d.Due
    · have hto : requestTo d.renewing = d.net.sip := by
        simp [requestTo, Dhcp.keeps, Dhcp.renewing, hstate]
      have hmove : DhcpMove i type d _ := .renew hstate hdue
      rw [← hto] at hmove
      rw [if_pos hdue]
      exact hmove
    · rw [if_neg hdue]
      exact .idle hstate hdue
  | rerequest =>
    by_cases hack : type = dhcpAck
    · simp only [if_pos hack]
      by_cases hsame : d.oldIp = d.allocatedIp
      · have hstay : ¬ d.oldIp ≠ d.allocatedIp := not_not.mpr hsame
        simp only [if_neg hstay]
        exact .renewed hstate hack hsame
      · have hmoved : d.oldIp ≠ d.allocatedIp := hsame
        simp only [if_pos hmoved]
        exact .changed hstate hack hsame
    · simp only [if_neg hack]
      by_cases hnak : type = dhcpNak
      · simp only [if_pos hnak]
        exact .refused (.inr hstate) hnak _ (.inr rfl)
      · simp only [if_neg hnak]
        refine checkDhcpTimeout_moves (.inr (.inr hstate)) ?_
        simp [Dhcp.Heeds, Dhcp.Asks, hstate, hack, hnak]
  | stop => exact absurd hstate h

/-- A reply changes the buffer and what is known of the network. -/
theorem parseDhcpMsg_frame (i : DhcpInput) (d : Dhcp) :
    ∃ buf net, (parseDhcpMsg i d).2 = { d with buf := buf, net := net } := by
  unfold parseDhcpMsg
  cases i.received with
  | none => exact ⟨_, _, rfl⟩
  | some r =>
    simp only
    split_ifs <;> exact ⟨_, _, rfl⟩

/-- A call of a client that has not been stopped. -/
theorem dhcpRun_moves (h : d.state ≠ .stop) :
    ∃ opened step, (opened = [] ∨ opened = [DhcpOut.socket dhcpClientPort]) ∧
      DhcpMove i (parseDhcpMsg i d).1 (parseDhcpMsg i d).2 step ∧
      dhcpRun i d = (step.dhcp, opened ++ step.outs ++ [.returned step.ret]) := by
  obtain ⟨buf, net, hparse⟩ := parseDhcpMsg_frame i d
  have hstate : (parseDhcpMsg i d).2.state ≠ .stop := by
    rw [hparse]
    exact h
  have hmove : DhcpMove i (parseDhcpMsg i d).1 (parseDhcpMsg i d).2 _ := dhcpSwitch_moves hstate
  rw [dhcpRun, if_neg h]
  refine ⟨_, _, ?_, hmove, rfl⟩
  cases i.udp
  · exact .inr rfl
  · exact .inl rfl

theorem dhcpRun_stopped (h : d.state = .stop) : dhcpRun i d = (d, [.returned .stopped]) := by
  rw [dhcpRun, if_pos h]

end Moves

end IBoxClient
