import IBoxClient.Dhcp
import IBoxClient.Lib.History

/- What is exchanged with a server.

   A reply is read as it is meant if it comes from the port of a server, carries the address of
   the client, and its options are well formed (`parseDhcpMsg_reply`); all its other fields, the
   number of the transaction and the cookie among them, may be anything. It fits the buffer, so
   its options have 308 bytes at most. An offer and an acknowledgement lead to a lease of the
   offered address, whatever the client does in the 22 seconds between them (`dhcp_exchange`).

   The messages of the client are well formed in the same sense. -/
namespace IBoxClient

open Memory

/-! ## Replies -/

/-- A reply: `head` is what stands in front of `yiaddr`, `middle` what stands between `yiaddr` and
`chaddr`, `rest` what stands between `chaddr` and the options. -/
structure ServerReply where
  head : List UInt8
  yiaddr : Ipv4
  middle : List UInt8
  chaddr : Mac
  rest : List UInt8
  os : List DhcpOption
  tail : List UInt8
  head_length : head.length = 16
  middle_length : middle.length = 8
  rest_length : rest.length = 206
  ends : tail = [] ∨ ∃ padding, tail = endOption :: padding
  short : optionsAt + (encodeOptions os).length + tail.length ≤ ripMsgSize

namespace ServerReply

def fields (r : ServerReply) : List UInt8 :=
  r.head ++ r.yiaddr.toList ++ r.middle ++ r.chaddr.toList ++ r.rest

def bytes (r : ServerReply) : List UInt8 := r.fields ++ encodeOptions r.os ++ r.tail

theorem fields_length (r : ServerReply) : r.fields.length = optionsAt := by
  simp only [fields, List.length_append, r.head_length, r.middle_length, r.rest_length]
  rfl

theorem bytes_length (r : ServerReply) :
    r.bytes.length = optionsAt + (encodeOptions r.os).length + r.tail.length := by
  rw [bytes, List.length_append, List.length_append, r.fields_length]

theorem bytes_fit (r : ServerReply) : r.bytes.length ≤ ripMsgSize := by
  rw [r.bytes_length]
  exact r.short

theorem bytes_short (r : ServerReply) : r.bytes.length ≤ getSnRxMax :=
  Nat.le_trans r.bytes_fit (by decide)

/-- What `recvfrom` makes of it. -/
def received (r : ServerReply) : Datagram where
  toReceived := .bytes r.bytes r.bytes_short
  fits := r.bytes_fit

variable {mem : Nat → UInt8} (r : ServerReply)

theorem read_of_holds {ip : Ipv4} {p : Nat} (h : Holds mem p ip.toList) : Ipv4.read mem p = ip := by
  obtain ⟨h0, h1, h2, h3, -⟩ := h
  rw [Ipv4.read, h0, h1, h2, h3]

theorem mac_of_holds {mac : Mac} {p : Nat} (h : Holds mem p mac.toList) : Mac.read mem p = mac := by
  obtain ⟨h0, h1, h2, h3, h4, h5, -⟩ := h
  rw [Mac.read, h0, h1, h2, h3, h4, h5]

/-- Where the fields stand that the client reads. -/
theorem holds (h : Holds mem 0 r.bytes) :
    Holds mem yiaddrAt r.yiaddr.toList ∧ Holds mem chaddrAt r.chaddr.toList ∧
      Holds mem optionsAt (encodeOptions r.os) ∧
      Holds mem (optionsAt + (encodeOptions r.os).length) r.tail := by
  rw [bytes, fields] at h
  simp only [holds_append, List.length_append, r.head_length, r.middle_length, r.rest_length,
    Nat.zero_add] at h
  exact ⟨h.1.1.1.1.1.2, h.1.1.1.2, h.1.2, h.2⟩

/-- The options are an area that ends where the reply ends. -/
theorem area (h : Holds mem 0 r.bytes) : Area mem optionsAt r.bytes.length r.os := by
  obtain ⟨-, -, hoptions, htail⟩ := r.holds h
  have hlen := r.bytes_length
  refine ⟨hoptions, ?_⟩
  rcases r.ends with hnil | ⟨padding, hend⟩
  · left
    rw [hlen, hnil]
    rfl
  · right
    rw [hend] at htail hlen
    rw [List.length_cons] at hlen
    exact ⟨by omega, htail.1⟩

end ServerReply

/-- The type that an option names. -/
def DhcpOption.messageType (type : UInt8) : DhcpOption → UInt8
  | pad => type
  | item code data _ => if code = dhcpMessageType then data.headD 0 else type

/-- The type of a message with these options. -/
def messageType (os : List DhcpOption) : UInt8 := os.foldl DhcpOption.messageType 0

theorem apply_type (r : DhcpReply) (o : DhcpOption) :
    (o.apply r).type = o.messageType r.type := by
  cases o with
  | pad => rfl
  | item code data valid =>
    simp only [DhcpOption.apply, DhcpOption.messageType]
    split_ifs <;> rfl

theorem applyOptions_type (r : DhcpReply) (os : List DhcpOption) :
    (applyOptions r os).type = os.foldl DhcpOption.messageType r.type := by
  induction os generalizing r with
  | nil => rfl
  | cons o os ih =>
    have hrest := ih (o.apply r)
    rw [apply_type] at hrest
    exact hrest

/-- What the client knows after a reply. -/
def Dhcp.told (d : Dhcp) (r : ServerReply) : DhcpReply :=
  applyOptions { toDhcpNet := d.net, type := 0 } r.os

section Exchange
variable {i j : DhcpInput} {d : Dhcp} {r offer ack : ServerReply}

/-- **A reply is read as it is meant.** -/
theorem parseDhcpMsg_reply (hreceived : i.received = some (r.received, dhcpServerPort))
    (hmac : r.chaddr = d.chaddr) :
    parseDhcpMsg i d =
      (messageType r.os, { d with buf := fill d.buf r.bytes, net := (d.told r).toDhcpNet }) := by
  have hheld := holds_fill d.buf i.behind r.bytes_fit
  have hread := ServerReply.mac_of_holds (r.holds hheld).2.1
  have hshort : r.bytes.length ≤ 2048 := r.bytes_short
  have hge : optionsAt ≤ r.bytes.length := by
    rw [r.bytes_length]
    omega
  have hlen : ((r.received.ret % 65536).toNat) = r.bytes.length := by
    show (((r.bytes.length : Int) % 65536).toNat) = r.bytes.length
    omega
  have harea := parseOptions_area { toDhcpNet := d.net, type := 0 } (r.area hheld)
  have hsame : ¬ Mac.read (extend (fill d.buf r.bytes) i.behind) chaddrAt ≠ d.chaddr := by
    rw [hread, hmac]
    exact fun h => h rfl
  have hstored : r.received.stored = r.bytes := rfl
  have htype := applyOptions_type { toDhcpNet := d.net, type := 0 } r.os
  simp only [parseDhcpMsg, hreceived, hlen, hstored, if_true, if_neg hsame,
    Nat.add_sub_of_le hge, harea, htype]
  rfl

/-- The client after it has read a reply. -/
def Dhcp.reads (d : Dhcp) (r : ServerReply) : Dhcp :=
  { d with buf := fill d.buf r.bytes, net := (d.told r).toDhcpNet }

theorem dhcpSwitch_offer (hstate : d.state = .discover) :
    dhcpSwitch i dhcpOffer d =
      ⟨.running, { d.offered.made (requestMsg d.offered) with state := .request },
        [.sendto (requestMsg d.offered) (requestTo d.offered) dhcpServerPort]⟩ := by
  simp only [dhcpSwitch, hstate, if_true, sendDhcpRequest]

theorem dhcpSwitch_ack (hstate : d.state = .request) (hprobe : i.probe = sockerrTimeout) :
    dhcpSwitch i dhcpAck d =
      ⟨.running, { resetDhcpTimeout (ethIpAssign d) with state := .leased },
        [.sendto checkIpConflict d.allocatedIp 5000, .setRegs (ethIpAssign d).regs]⟩ := by
  simp only [dhcpSwitch, hstate, if_true, checkDhcpLeasedIp_free d hprobe]
  rfl

/-- What is said of the network does not depend on the type. -/
theorem applyOptions_net (net : DhcpNet) (type type' : UInt8) (os : List DhcpOption) :
    (applyOptions { toDhcpNet := net, type := type } os).toDhcpNet =
      (applyOptions { toDhcpNet := net, type := type' } os).toDhcpNet := by
  induction os generalizing net type type' with
  | nil => rfl
  | cons o os ih =>
    have hnet : (o.apply { toDhcpNet := net, type := type }).toDhcpNet =
        (o.apply { toDhcpNet := net, type := type' }).toDhcpNet := by
      cases o with
      | pad => rfl
      | item code data valid =>
        simp only [DhcpOption.apply]
        split_ifs <;> rfl
    have hrest := ih (o.apply { toDhcpNet := net, type := type }).toDhcpNet
      (o.apply { toDhcpNet := net, type := type }).type
      (o.apply { toDhcpNet := net, type := type' }).type
    calc (applyOptions { toDhcpNet := net, type := type } (o :: os)).toDhcpNet
        = (applyOptions (o.apply { toDhcpNet := net, type := type }) os).toDhcpNet := rfl
      _ = _ := hrest
      _ = (applyOptions (o.apply { toDhcpNet := net, type := type' }) os).toDhcpNet := by rw [hnet]
      _ = (applyOptions { toDhcpNet := net, type := type' } (o :: os)).toDhcpNet := rfl

theorem dhcpRun_offer (hstate : d.state = .discover)
    (hreceived : i.received = some (offer.received, dhcpServerPort))
    (hmac : offer.chaddr = d.chaddr) (htype : messageType offer.os = dhcpOffer) :
    (dhcpRun i d).1 =
      { (d.reads offer).offered.made (requestMsg (d.reads offer).offered) with state := .request } := by
  have hrun : d.state ≠ .stop := by simp [hstate]
  have hparse := parseDhcpMsg_reply hreceived hmac
  rw [htype] at hparse
  have hswitch := dhcpSwitch_offer (i := i) (d := d.reads offer) hstate
  rw [dhcpRun, if_neg hrun, hparse]
  show (dhcpSwitch i dhcpOffer (d.reads offer)).dhcp = _
  rw [hswitch]

theorem dhcpRun_ack (hstate : d.state = .request)
    (hreceived : j.received = some (ack.received, dhcpServerPort))
    (hmac : ack.chaddr = d.chaddr) (htype : messageType ack.os = dhcpAck)
    (hprobe : j.probe = sockerrTimeout) :
    (dhcpRun j d).1 = { resetDhcpTimeout (ethIpAssign (d.reads ack)) with state := .leased } := by
  have hrun : d.state ≠ .stop := by simp [hstate]
  have hparse := parseDhcpMsg_reply hreceived hmac
  rw [htype] at hparse
  have hswitch := dhcpSwitch_ack (i := j) (d := d.reads ack) hstate hprobe
  rw [dhcpRun, if_neg hrun, hparse]
  show (dhcpSwitch j dhcpAck (d.reads ack)).dhcp = _
  rw [hswitch]

/-- The address that an offer makes the client take down. -/
theorem offered_reads : (d.reads r).offered.allocatedIp = r.yiaddr :=
  ServerReply.read_of_holds (r.holds (holds_fill d.buf (fun _ => 0) r.bytes_fit)).1

/-- The client that has been offered an address, and asks for it. -/
def Dhcp.asking (d : Dhcp) (offer : ServerReply) : Dhcp :=
  { (d.reads offer).offered.made (requestMsg (d.reads offer).offered) with state := .request }

/-- A reply for the client, of a type. -/
structure Reply (i : DhcpInput) (r : ServerReply) (mac : Mac) (type : UInt8) : Prop where
  received : i.received = some (r.received, dhcpServerPort)
  chaddr : r.chaddr = mac
  type : messageType r.os = type

/-! ### Waiting -/

/-- A second passes, the buffer is used for a name, or a call finds no reply. -/
def DhcpEvent.Idle : DhcpEvent → Prop
  | .tick | .dns _ => True
  | .run i => i.received = none
  | .stop => False

def DhcpEvent.isTick : DhcpEvent → Bool
  | .tick => true
  | _ => false

def DhcpEvent.isRun : DhcpEvent → Bool
  | .run _ => true
  | _ => false

/-- What the timer has counted, with eleven seconds for each message that was sent once more. -/
def Dhcp.waited (d : Dhcp) : Nat := 11 * d.retryCount + d.tick1s.toNat

/-- The client does not give up: it is not called, or for less than 22 seconds, the wait for the
offer among them. -/
def Dhcp.Patient (d : Dhcp) (waiting : List DhcpEvent) : Prop :=
  (∀ e ∈ waiting, e.isRun = false) ∨ d.waited + waiting.countP DhcpEvent.isTick < 22

/-- The client still asks for the address that it has been offered. -/
structure Waits (d s : Dhcp) : Prop where
  state : s.state = .request
  next : s.tickNext = dhcpWaitTime
  chaddr : s.chaddr = d.chaddr
  allocatedIp : s.allocatedIp = d.allocatedIp
  net : s.net = d.net

theorem parseDhcpMsg_none (h : i.received = none) : parseDhcpMsg i d = (0, d) := by
  rw [parseDhcpMsg, h]

/-- A call without a reply, before the client gives up: it waits, or asks once more. -/
theorem waits_run {s : Dhcp} (h : Waits d s) (hnone : i.received = none) (htime : s.waited < 22) :
    Waits d (dhcpRun i s).1 ∧ (dhcpRun i s).1.waited ≤ s.waited := by
  have hstop : s.state ≠ .stop := by simp [h.state]
  obtain ⟨opened, step, -, hmove, hrun⟩ := dhcpRun_moves (i := i) hstop
  rw [parseDhcpMsg_none hnone] at hmove
  rw [hrun]
  cases hmove with
  | wait => exact ⟨h, Nat.le_refl _⟩
  | resendRequest _ _ hcount hlate =>
    have hlate' : 11 ≤ s.tick1s.toNat := by
      rw [h.next, UInt32.lt_iff_toNat_lt] at hlate
      exact hlate
    refine ⟨⟨h.state, rfl, h.chaddr, h.allocatedIp, h.net⟩, ?_⟩
    show 11 * (s.retryCount + 1) + 0 ≤ 11 * s.retryCount + s.tick1s.toNat
    omega
  | restart _ _ hcount =>
    have hfull : 2 ≤ s.retryCount := Nat.not_lt.mp hcount
    rw [Dhcp.waited] at htime
    omega
  | start hstate | offer hstate | renew hstate | idle hstate | renewed hstate | changed hstate
  | resendDiscover hstate | fail hstate => cases h.state.symm.trans hstate
  -- no reply, no type
  | bound _ htype | taken _ htype => exact absurd htype (by decide : (0 : UInt8) ≠ dhcpAck)
  | refused _ htype => exact absurd htype (by decide : (0 : UInt8) ≠ dhcpNak)

theorem waited_tick (s : Dhcp) : ({ s with tick1s := s.tick1s + 1 } : Dhcp).waited ≤ s.waited + 1 := by
  have hone : (s.tick1s + 1).toNat ≤ s.tick1s.toNat + 1 := by
    rw [UInt32.toNat_add]
    exact Nat.mod_le _ _
  show 11 * s.retryCount + (s.tick1s + 1).toNat ≤ 11 * s.retryCount + s.tick1s.toNat + 1
  omega

theorem waits_quiet {s : Dhcp} {waiting : List DhcpEvent} (h : Waits d s)
    (hidle : ∀ e ∈ waiting, e.Idle) (hquiet : ∀ e ∈ waiting, e.isRun = false) :
    Waits d (Machine.last dhcpStep s waiting) := by
  induction waiting generalizing s with
  | nil => exact h
  | cons e es ih =>
    have hrest : ∀ e ∈ es, e.Idle := fun e he => hidle e (List.mem_cons_of_mem _ he)
    have hquiet' : ∀ e ∈ es, e.isRun = false := fun e he => hquiet e (List.mem_cons_of_mem _ he)
    have hfirst := hidle e List.mem_cons_self
    have hcall := hquiet e List.mem_cons_self
    cases e with
    | tick | dns => exact ih ⟨h.state, h.next, h.chaddr, h.allocatedIp, h.net⟩ hrest hquiet'
    | run i => cases hcall
    | stop => exact absurd hfirst id

theorem waits_soon {s : Dhcp} {waiting : List DhcpEvent} (h : Waits d s)
    (hidle : ∀ e ∈ waiting, e.Idle) (htime : s.waited + waiting.countP DhcpEvent.isTick < 22) :
    Waits d (Machine.last dhcpStep s waiting) := by
  induction waiting generalizing s with
  | nil => exact h
  | cons e es ih =>
    have hrest : ∀ e ∈ es, e.Idle := fun e he => hidle e (List.mem_cons_of_mem _ he)
    have hfirst := hidle e List.mem_cons_self
    rw [Machine.last_cons]
    rw [List.countP_cons] at htime
    cases e with
    | tick =>
      have hone := waited_tick s
      have htick : DhcpEvent.isTick .tick = true := rfl
      rw [if_pos htick] at htime
      refine ih ⟨h.state, h.next, h.chaddr, h.allocatedIp, h.net⟩ hrest ?_
      show ({ s with tick1s := s.tick1s + 1 } : Dhcp).waited + _ < 22
      omega
    | dns buf => exact ih ⟨h.state, h.next, h.chaddr, h.allocatedIp, h.net⟩ hrest htime
    | run i =>
      obtain ⟨hwaits, hle⟩ := waits_run h hfirst (Nat.lt_of_le_of_lt (Nat.le_add_right _ _) htime)
      exact ih hwaits hrest (Nat.lt_of_le_of_lt (Nat.add_le_add_right hle _) htime)
    | stop => exact absurd hfirst id

/-- **As long as the client does not give up, it waits.** -/
theorem waits_last {s : Dhcp} {waiting : List DhcpEvent} (h : Waits d s)
    (hidle : ∀ e ∈ waiting, e.Idle) (hpatient : s.Patient waiting) :
    Waits d (Machine.last dhcpStep s waiting) :=
  hpatient.elim (waits_quiet h hidle) (waits_soon h hidle)

/-- An offer, and an acknowledgement. -/
theorem last_exchange {waiting : List DhcpEvent} (hstate : d.state = .discover)
    (hnext : d.tickNext = dhcpWaitTime) (hoffer : Reply i offer d.chaddr dhcpOffer)
    (hidle : ∀ e ∈ waiting, e.Idle) (hpatient : d.Patient waiting)
    (hack : Reply j ack d.chaddr dhcpAck) (hprobe : j.probe = sockerrTimeout) :
    ∃ s, Waits (d.asking offer) s ∧
      Machine.last dhcpStep d (.run i :: waiting ++ [.run j]) =
        { resetDhcpTimeout (ethIpAssign (s.reads ack)) with state := .leased } := by
  have hfirst : (dhcpRun i d).1 = d.asking offer :=
    dhcpRun_offer hstate hoffer.received hoffer.chaddr hoffer.type
  have hwaits : Waits (d.asking offer) (d.asking offer) := ⟨rfl, hnext, rfl, rfl, rfl⟩
  have hlast := waits_last hwaits hidle hpatient
  have hmac : ack.chaddr = (Machine.last dhcpStep (d.asking offer) waiting).chaddr :=
    hack.chaddr.trans hlast.chaddr.symm
  have hsecond := dhcpRun_ack (j := j) hlast.state hack.received hmac hack.type hprobe
  refine ⟨_, hlast, ?_⟩
  rw [List.cons_append, Machine.last_cons, Machine.last_append]
  show (dhcpRun j (Machine.last dhcpStep (dhcpRun i d).1 waiting)).1 = _
  rw [hfirst, hsecond]

/-- **A lease.** A client that waits for an offer, gets one, and has it acknowledged before it
gives up, whatever the number of the transaction, and finds the address free, has the chip use the
address of the offer, with the network as the options of both replies describe it. -/
theorem dhcp_exchange {waiting : List DhcpEvent} (hstate : d.state = .discover)
    (hnext : d.tickNext = dhcpWaitTime) (hoffer : Reply i offer d.chaddr dhcpOffer)
    (hidle : ∀ e ∈ waiting, e.Idle) (hpatient : d.Patient waiting)
    (hack : Reply j ack d.chaddr dhcpAck) (hprobe : j.probe = sockerrTimeout) :
    let s := Machine.last dhcpStep d (.run i :: waiting ++ [.run j])
    let net := (applyOptions { toDhcpNet := d.net, type := 0 } (offer.os ++ ack.os)).toDhcpNet
    s.state = .leased ∧ s.net = net ∧ s.allocatedIp = offer.yiaddr ∧ s.regs.sipr = offer.yiaddr ∧
      s.regs.gar = net.gw ∧ s.regs.subr = net.sn := by
  intro s net
  obtain ⟨w, hwaits, hlast⟩ := last_exchange hstate hnext hoffer hidle hpatient hack hprobe
  have hs : s = _ := hlast
  have haddr : w.allocatedIp = offer.yiaddr := hwaits.allocatedIp.trans offered_reads
  have hnet : net = (w.told ack).toDhcpNet := by
    rw [Dhcp.told, hwaits.net]
    show (applyOptions _ (offer.os ++ ack.os)).toDhcpNet = _
    rw [applyOptions, List.foldl_append]
    exact applyOptions_net (d.told offer).toDhcpNet (d.told offer).type 0 ack.os
  rw [hs, hnet]
  exact ⟨rfl, rfl, haddr, haddr, rfl, rfl⟩

end Exchange

/-! ## The messages of the client -/

/-- A code that the client does not look for. -/
theorem optionValid_other {code : UInt8} {data : List UInt8} (hshort : data.length < 256)
    (hcode : code ∉ [padOption, endOption, dhcpMessageType, subnetMask, dhcpIPaddrLeaseTime,
      routersOnSubnet, dnsOption, dhcpServerIdentifier]) : OptionValid code data := by
  simp only [List.mem_cons, List.not_mem_nil, or_false, not_or] at hcode
  obtain ⟨hpad, hend, htype, hsn, htime, hgw, hdns, hsip⟩ := hcode
  refine ⟨hpad, hend, hshort, fun h => absurd h htype, fun h => ?_, fun h => ?_⟩
  · rcases h with h | h | h
    · exact absurd h hsn
    · exact absurd h htime
    · exact absurd h hsip
  · rcases h with h | h
    · exact absurd h hgw
    · exact absurd h hdns

theorem optionValid_type (type : UInt8) : OptionValid dhcpMessageType [type] :=
  ⟨by decide, by decide, by simp, fun _ => rfl, fun h => absurd h (by decide),
    fun h => absurd h (by decide)⟩

theorem optionValid_server (sip : Ipv4) : OptionValid dhcpServerIdentifier sip.toList :=
  ⟨by decide, by decide, by simp [Ipv4.toList], fun h => absurd h (by decide), fun _ => rfl,
    fun h => absurd h (by decide)⟩

theorem optionValid_client (mac : Mac) : OptionValid dhcpClientIdentifier (1 :: mac.toList) :=
  optionValid_other (by simp [Mac.toList]) (by decide)

theorem optionValid_host : OptionValid hostName dhcpHostName :=
  optionValid_other (by decide +kernel) (by decide)

theorem optionValid_requested (ip : Ipv4) : OptionValid dhcpRequestedIPaddr ip.toList :=
  optionValid_other (by simp [Ipv4.toList]) (by decide)

theorem optionValid_params {ps : List UInt8} (h : ps.length < 256) :
    OptionValid dhcpParamRequest ps := optionValid_other h (by decide)

/-- What `send_DHCP_DISCOVER` and `send_DHCP_REQUEST` want to know. -/
def discoverParams : List UInt8 :=
  [subnetMask, routersOnSubnet, dnsOption, domainName, dhcpT1value, dhcpT2value]

def requestParams : List UInt8 := discoverParams ++ [performRouterDiscovery, staticRoute]

theorem discoverParams_short : discoverParams.length < 256 := by decide

theorem requestParams_short : requestParams.length < 256 := by decide

def typeItem (type : UInt8) : DhcpOption := .item dhcpMessageType [type] (optionValid_type type)

def clientItem (mac : Mac) : DhcpOption :=
  .item dhcpClientIdentifier (1 :: mac.toList) (optionValid_client mac)

def hostItem : DhcpOption := .item hostName dhcpHostName optionValid_host

def requestedItem (ip : Ipv4) : DhcpOption :=
  .item dhcpRequestedIPaddr ip.toList (optionValid_requested ip)

def serverItem (sip : Ipv4) : DhcpOption :=
  .item dhcpServerIdentifier sip.toList (optionValid_server sip)

def discoverItems (mac : Mac) : List DhcpOption :=
  [typeItem dhcpDiscover, clientItem mac, hostItem,
    .item dhcpParamRequest discoverParams (optionValid_params discoverParams_short)]

def requestItems (mac : Mac) (ip sip dst : Ipv4) : List DhcpOption :=
  [typeItem dhcpRequest, clientItem mac] ++
    (if dst.b3 = 255 then [requestedItem ip, serverItem sip] else []) ++
    [hostItem, .item dhcpParamRequest requestParams (optionValid_params requestParams_short)]

def declineItems (mac : Mac) (ip sip : Ipv4) : List DhcpOption :=
  [typeItem dhcpDecline, clientItem mac, requestedItem ip, serverItem sip]

theorem discoverOptions_eq (mac : Mac) :
    discoverOptions mac = encodeOptions (discoverItems mac) ++ [endOption] := rfl

theorem requestOptions_eq (mac : Mac) (ip sip dst : Ipv4) :
    requestOptions mac ip sip dst = encodeOptions (requestItems mac ip sip dst) ++ [endOption] := by
  unfold requestOptions requestItems
  split <;> rfl

theorem declineOptions_eq (mac : Mac) (ip sip : Ipv4) :
    declineOptions mac ip sip = encodeOptions (declineItems mac ip sip) ++ [endOption] := rfl

/-- A message as memory. -/
def inMemory (msg : List UInt8) : Nat → UInt8 := fun k => msg.getD k 0

/-- A message of the client: its length, its fixed fields, and its options. -/
structure DhcpMessage (msg : List UInt8) (mac : Mac) (ciaddr : Ipv4) (os : List DhcpOption) :
    Prop where
  size : msg.length = ripMsgSize
  fixed : Holds (inMemory msg) 0 [dhcpBootrequest, dhcpHtype10mb, dhcpHlenEthernet, dhcpHops]
  ciaddr : Ipv4.read (inMemory msg) 12 = ciaddr
  chaddr : Mac.read (inMemory msg) chaddrAt = mac
  cookie : Holds (inMemory msg) 236 magicCookie
  options : Area (inMemory msg) optionsAt ripMsgSize os

theorem holds_inMemory (msg : List UInt8) : Holds (inMemory msg) 0 msg := by
  rw [holds_iff]
  intro k hk
  rw [Nat.zero_add, inMemory, List.getD_eq_getElem?_getD, List.getElem?_eq_getElem hk]
  rfl

/-- **A message is well formed** where its options fit in. -/
theorem wellFormed_make (xid : UInt32) (mac : Mac) (flags : UInt8) (ciaddr : Ipv4)
    {os : List DhcpOption} (hfits : (encodeOptions os).length + 5 ≤ optSize) :
    DhcpMessage (makeDhcpMsg xid mac flags ciaddr (encodeOptions os ++ [endOption])) mac ciaddr
      os := by
  have hheld := holds_inMemory
    (makeDhcpMsg xid mac flags ciaddr (encodeOptions os ++ [endOption]))
  have hle : (encodeOptions os).length + 5 ≤ 312 := hfits
  have hsize : (makeDhcpMsg xid mac flags ciaddr (encodeOptions os ++ [endOption])).length =
      ripMsgSize := by
    simp only [makeDhcpMsg, List.length_append, List.length_replicate, List.length_cons,
      List.length_nil, magicCookie, Ipv4.toList, Mac.toList, ripMsgSize, optSize]
    omega
  generalize hmem : inMemory _ = mem at hheld
  simp only [makeDhcpMsg, holds_append, List.length_append, List.length_replicate,
    List.length_cons, List.length_nil, Nat.zero_add, Ipv4.toList, Mac.toList, magicCookie] at hheld
  obtain ⟨⟨⟨⟨⟨⟨⟨⟨⟨⟨⟨⟨⟨hfixed, -⟩, -⟩, -⟩, hciaddr⟩, -⟩, -⟩, -⟩, hmac, -⟩, -⟩, -⟩, hcookie⟩,
    hoptions, hend⟩, -⟩ := hheld
  rw [← hmem] at hfixed hciaddr hmac hcookie hoptions hend
  refine ⟨hsize, hfixed, ServerReply.read_of_holds hciaddr, ServerReply.mac_of_holds hmac, hcookie,
    hoptions, .inr ⟨?_, hend.1⟩⟩
  show 240 + (encodeOptions os).length < 548
  omega

theorem discoverMsg_wellFormed (d : Dhcp) :
    DhcpMessage (discoverMsg d) d.chaddr .zero (discoverItems d.chaddr) := by
  have hlen : (encodeOptions (discoverItems d.chaddr)).length = 54 := rfl
  unfold discoverMsg
  rw [discoverOptions_eq]
  apply wellFormed_make
  rw [hlen]
  decide

theorem requestItems_fit (mac : Mac) (ip sip dst : Ipv4) :
    (encodeOptions (requestItems mac ip sip dst)).length + 5 ≤ optSize := by
  have hlen : (encodeOptions (requestItems mac ip sip dst)).length ≤ 68 := by
    unfold requestItems
    split
    · exact Nat.le_refl 68
    · exact Nat.le_add_right 56 12
  exact Nat.le_trans (Nat.add_le_add_right hlen 5) (by decide)

/-- An address is asked for. -/
theorem requestMsg_ask {d : Dhcp} (h : ¬ d.keeps) :
    DhcpMessage (requestMsg d) d.chaddr .zero
      (requestItems d.chaddr d.allocatedIp d.net.sip .broadcast) := by
  unfold requestMsg requestTo
  rw [if_neg h, if_neg h, if_neg h, requestOptions_eq]
  exact wellFormed_make _ _ _ _ (requestItems_fit _ _ _ _)

/-- An address is to be kept. -/
theorem requestMsg_keep {d : Dhcp} (h : d.keeps) :
    DhcpMessage (requestMsg d) d.chaddr d.allocatedIp
      (requestItems d.chaddr d.allocatedIp d.net.sip d.net.sip) := by
  unfold requestMsg requestTo
  rw [if_pos h, if_pos h, if_pos h, requestOptions_eq]
  exact wellFormed_make _ _ _ _ (requestItems_fit _ _ _ _)

theorem declineMsg_wellFormed (d : Dhcp) :
    DhcpMessage (declineMsg d) d.chaddr .zero (declineItems d.chaddr d.allocatedIp d.net.sip) := by
  have hlen : (encodeOptions (declineItems d.chaddr d.allocatedIp d.net.sip)).length = 24 := rfl
  unfold declineMsg
  rw [declineOptions_eq]
  apply wellFormed_make
  rw [hlen]
  decide

/-- What a message to a server says, in terms of the client that has sent it. -/
inductive Sends (d : Dhcp) (msg : List UInt8) (ip : Ipv4) : Prop where
  | discover (hto : ip = .broadcast)
    (h : DhcpMessage msg d.chaddr .zero (discoverItems d.chaddr))
  | ask (hto : ip = .broadcast)
    (h : DhcpMessage msg d.chaddr .zero (requestItems d.chaddr d.allocatedIp d.net.sip ip))
  | keep (hto : ip = d.net.sip) (hkeeps : d.keeps)
    (h : DhcpMessage msg d.chaddr d.allocatedIp (requestItems d.chaddr d.allocatedIp d.net.sip ip))
  | decline (hto : ip = .broadcast)
    (h : DhcpMessage msg d.chaddr .zero (declineItems d.chaddr d.allocatedIp d.net.sip))

section Messages
variable {i : DhcpInput} {type : UInt8} {d : Dhcp} {step : DhcpStep} {msg : List UInt8} {ip : Ipv4}

/-- **The messages of a move.** -/
theorem DhcpMove.sends (hmove : DhcpMove i type d step)
    (h : .sendto msg ip dhcpServerPort ∈ step.outs) : Sends step.dhcp msg ip := by
  have hport : dhcpServerPort ≠ 5000 := by decide
  cases hmove with
  | start =>
    obtain ⟨rfl, rfl⟩ : msg = discoverMsg d.cleared ∧ ip = .broadcast := by simpa using h
    exact .discover rfl (discoverMsg_wellFormed d.cleared)
  | offer hstate =>
    obtain ⟨rfl, rfl⟩ : msg = requestMsg d.offered ∧ ip = .broadcast := by simpa using h
    have hasks : ¬ d.offered.keeps := by simp [Dhcp.keeps, Dhcp.offered, hstate]
    exact .ask rfl (requestMsg_ask hasks)
  | taken =>
    obtain ⟨rfl, rfl⟩ : msg = declineMsg d ∧ ip = .broadcast := by simpa [hport] using h
    exact .decline rfl (declineMsg_wellFormed d)
  | renew hstate =>
    obtain ⟨rfl, rfl⟩ : msg = requestMsg d.renewing ∧ ip = d.net.sip := by simpa using h
    exact .keep rfl (.inr rfl) (requestMsg_keep (d := d.renewing) (.inl hstate))
  | resendDiscover | restart =>
    obtain ⟨rfl, rfl⟩ : msg = discoverMsg d ∧ ip = .broadcast := by simpa using h
    exact .discover rfl (discoverMsg_wellFormed d)
  | resendRequest =>
    obtain ⟨rfl, rfl⟩ : msg = requestMsg d ∧ ip = requestTo d := by simpa using h
    by_cases hkeeps : d.keeps
    · have hto : requestTo d = d.net.sip := if_pos hkeeps
      rw [hto]
      exact .keep rfl hkeeps (requestMsg_keep hkeeps)
    · have hto : requestTo d = .broadcast := if_neg hkeeps
      rw [hto]
      exact .ask rfl (requestMsg_ask hkeeps)
  | bound => simp [hport] at h
  | refused | idle | renewed | changed | wait | fail => simp at h

/-- The messages of a step of a run. -/
theorem dhcpStep_sends {e : DhcpEvent} (h : .sendto msg ip dhcpServerPort ∈ (dhcpStep d e).2) :
    Sends (dhcpStep d e).1 msg ip := by
  cases e with
  | tick | dns | stop => exact absurd h List.not_mem_nil
  | run i =>
    by_cases hstop : d.state = .stop
    · simp [dhcpStep, dhcpRun_stopped hstop] at h
    · obtain ⟨opened, step, hopened, hmove, hrun⟩ := dhcpRun_moves (i := i) hstop
      simp only [dhcpStep, hrun] at h ⊢
      apply hmove.sends
      rcases hopened with rfl | rfl
      · simpa using h
      · simpa using h

end Messages

/-! ## An exchange -/

/-- A client that has just been started, with the address of the hardware as it is set. -/
def freshDhcp : Dhcp where
  state := .init
  retryCount := 0
  tick1s := 0
  tickNext := 10
  xid := 0
  chaddr := ⟨0, 0, 0, 0, 0, 0⟩
  oldIp := .zero
  allocatedIp := .zero
  net := ⟨.zero, .zero, .zero, .zero, infiniteLeasetime⟩
  buf := fun _ => 0
  ethMsg := ⟨⟨2, 0, 0, 0, 0, 1⟩, .zero, .zero, .zero⟩
  regs := ⟨.zero, .zero, .zero, ⟨2, 0, 0, 0, 0, 1⟩, 2000, 8⟩

theorem plainReply_short (type : UInt8) :
    optionsAt + (encodeOptions [typeItem type]).length + [endOption].length ≤ ripMsgSize := by
  show 240 + 3 + 1 ≤ 548
  omega

/-- A reply of a type to that client, with an address and nothing else. -/
def plainReply (ip : Ipv4) (type : UInt8) : ServerReply where
  head := List.replicate 16 0
  yiaddr := ip
  middle := List.replicate 8 0
  chaddr := ⟨2, 0, 0, 0, 0, 1⟩
  rest := List.replicate 206 0
  os := [typeItem type]
  tail := [endOption]
  head_length := List.length_replicate
  middle_length := List.length_replicate
  rest_length := List.length_replicate
  ends := .inr ⟨[], rfl⟩
  short := plainReply_short type

/-- A call that finds nothing, and one that finds a reply and a free address. -/
def quietCall : DhcpInput := ⟨true, none, fun _ => 0, 0, sockerrTimeout, freshDhcp.regs⟩

def replyCall (ip : Ipv4) (type : UInt8) : DhcpInput :=
  ⟨true, some ((plainReply ip type).received, dhcpServerPort), fun _ => 0, 0, sockerrTimeout,
    freshDhcp.regs⟩

theorem replyCall_reply (ip : Ipv4) (type : UInt8) :
    Reply (replyCall ip type) (plainReply ip type) ⟨2, 0, 0, 0, 0, 1⟩ type :=
  ⟨rfl, rfl, rfl⟩

/-- The client after its first call. -/
abbrev discovering : Dhcp := Machine.last dhcpStep (dhcpInit freshDhcp) [.run quietCall]

/-- Eleven seconds without a reply: the client asks once more. -/
def lateAck : List DhcpEvent :=
  .run quietCall :: List.replicate 11 .tick ++ [.run quietCall, .dns fun _ => 0]

theorem lateAck_idle : ∀ e ∈ lateAck, e.Idle := by
  simp [lateAck, DhcpEvent.Idle, quietCall]

theorem lateAck_patient : discovering.Patient lateAck := .inr (by decide +kernel)

/-- An address is offered, and acknowledged late. -/
def lateExchange (ip : Ipv4) : List DhcpEvent :=
  .run (replyCall ip dhcpOffer) :: lateAck ++ [.run (replyCall ip dhcpAck)]

theorem dhcp_exchange_seven :
    let s := Machine.last dhcpStep discovering (lateExchange ⟨10, 0, 0, 7⟩)
    s.state = .leased ∧ s.regs.sipr = ⟨10, 0, 0, 7⟩ := by
  have hlease := dhcp_exchange (d := discovering) rfl rfl
    (replyCall_reply ⟨10, 0, 0, 7⟩ dhcpOffer) lateAck_idle lateAck_patient
    (replyCall_reply ⟨10, 0, 0, 7⟩ dhcpAck) rfl
  obtain ⟨hstate, -, -, hsipr, -⟩ := hlease
  rw [lateExchange]
  exact ⟨hstate, hsipr⟩

end IBoxClient
