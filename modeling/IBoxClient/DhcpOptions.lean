import IBoxClient.Lib.Bytes
import IBoxClient.Lib.Reading

/- The messages of the DHCP client (`dhcp.c`).

   A message is 236 bytes of fixed fields and 312 bytes of options, behind a magic cookie.
   `parseOptions` is the loop of `parseDHCPMSG` over the options of a reply. It reads memory, so
   an option that is cut off at the end of the reply is completed by what the buffer held before.
   It moves forward in every round, also where a length is smaller than the field that it reads
   (`parseOption_advances`), so the rounds it is granted are enough (`parseOptions_eq`). What it
   reads from an area of well-formed options is what they say, one after another
   (`parseOptions_area`).

   The messages that are sent are written in the order of the source. -/
namespace IBoxClient

open Memory

/-! ## Addresses -/

structure Ipv4 where
  b0 : UInt8
  b1 : UInt8
  b2 : UInt8
  b3 : UInt8
  deriving DecidableEq

namespace Ipv4

def zero : Ipv4 := ⟨0, 0, 0, 0⟩

def broadcast : Ipv4 := ⟨255, 255, 255, 255⟩

def toList (ip : Ipv4) : List UInt8 := [ip.b0, ip.b1, ip.b2, ip.b3]

/-- The four bytes at an address of memory. -/
def read (mem : Nat → UInt8) (p : Nat) : Ipv4 := ⟨mem p, mem (p + 1), mem (p + 2), mem (p + 3)⟩

end Ipv4

structure Mac where
  b0 : UInt8
  b1 : UInt8
  b2 : UInt8
  b3 : UInt8
  b4 : UInt8
  b5 : UInt8
  deriving DecidableEq

namespace Mac

def toList (mac : Mac) : List UInt8 := [mac.b0, mac.b1, mac.b2, mac.b3, mac.b4, mac.b5]

def read (mem : Nat → UInt8) (p : Nat) : Mac :=
  ⟨mem p, mem (p + 1), mem (p + 2), mem (p + 3), mem (p + 4), mem (p + 5)⟩

end Mac

/-- Four bytes of a number, the highest first. -/
def be32 (b0 b1 b2 b3 : UInt8) : UInt32 :=
  (((b0.toUInt32 <<< 8) + b1.toUInt32) <<< 8 + b2.toUInt32) <<< 8 + b3.toUInt32

/-! ## Options -/

abbrev padOption : UInt8 := 0
abbrev subnetMask : UInt8 := 1
abbrev routersOnSubnet : UInt8 := 3
abbrev dnsOption : UInt8 := 6
abbrev hostName : UInt8 := 12
abbrev domainName : UInt8 := 15
abbrev performRouterDiscovery : UInt8 := 31
abbrev staticRoute : UInt8 := 33
abbrev dhcpRequestedIPaddr : UInt8 := 50
abbrev dhcpIPaddrLeaseTime : UInt8 := 51
abbrev dhcpMessageType : UInt8 := 53
abbrev dhcpServerIdentifier : UInt8 := 54
abbrev dhcpParamRequest : UInt8 := 55
abbrev dhcpT1value : UInt8 := 58
abbrev dhcpT2value : UInt8 := 59
abbrev dhcpClientIdentifier : UInt8 := 61
abbrev endOption : UInt8 := 255

abbrev dhcpDiscover : UInt8 := 1
abbrev dhcpOffer : UInt8 := 2
abbrev dhcpRequest : UInt8 := 3
abbrev dhcpDecline : UInt8 := 4
abbrev dhcpAck : UInt8 := 5
abbrev dhcpNak : UInt8 := 6

/-- What the server says of the network: `DHCP_allocated_sn`, `DHCP_allocated_gw`,
`DHCP_allocated_dns`, `DHCP_SIP` and `dhcp_lease_time`. -/
structure DhcpNet where
  sn : Ipv4
  gw : Ipv4
  dns : Ipv4
  sip : Ipv4
  leaseTime : UInt32

/-- What the loop writes: these, and `type`. -/
structure DhcpReply extends DhcpNet where
  type : UInt8

/-- One round of `while (p < e)`: where `p` is moved to, and what is read. -/
def parseOption (mem : Nat → UInt8) (p e : Nat) (r : DhcpReply) : Nat × DhcpReply :=
  let optLen := (mem (p + 1)).toNat
  if mem p = endOption then (e, r)
  else if mem p = padOption then (p + 1, r)
  else if mem p = dhcpMessageType then (p + 3, { r with type := mem (p + 2) })
  else if mem p = subnetMask then (p + 6, { r with sn := .read mem (p + 2) })
  else if mem p = routersOnSubnet then (p + 6 + optLen - 4, { r with gw := .read mem (p + 2) })
  else if mem p = dnsOption then (p + 6 + optLen - 4, { r with dns := .read mem (p + 2) })
  else if mem p = dhcpIPaddrLeaseTime then
    (p + 6, { r with leaseTime := be32 (mem (p + 2)) (mem (p + 3)) (mem (p + 4)) (mem (p + 5)) })
  else if mem p = dhcpServerIdentifier then (p + 6, { r with sip := .read mem (p + 2) })
  else (p + 2 + optLen, r)

/-- `while (p < e)`, with some rounds granted. -/
def optionsWithin (mem : Nat → UInt8) (e : Nat) : Nat → Nat → DhcpReply → DhcpReply
  | 0, _, r => r
  | n + 1, p, r =>
    if p < e then optionsWithin mem e n (parseOption mem p e r).1 (parseOption mem p e r).2 else r

def parseOptions (mem : Nat → UInt8) (p e : Nat) (r : DhcpReply) : DhcpReply :=
  optionsWithin mem e (e - p) p r

section Loop
variable {mem : Nat → UInt8} {p e : Nat}

/-- Each round moves on, whatever the length says. -/
theorem parseOption_advances (r : DhcpReply) (h : p < e) : p < (parseOption mem p e r).1 := by
  unfold parseOption
  split_ifs <;> simp only <;> omega

theorem optionsWithin_of_le {n m : Nat} (r : DhcpReply) (hn : e - p ≤ n) (hm : e - p ≤ m) :
    optionsWithin mem e n p r = optionsWithin mem e m p r := by
  induction n generalizing m p r with
  | zero =>
    have hend : ¬ p < e := by omega
    cases m with
    | zero => rfl
    | succ m => rw [optionsWithin, optionsWithin, if_neg hend]
  | succ n ih =>
    by_cases h : p < e
    · obtain ⟨m, rfl⟩ : ∃ k, m = k + 1 := ⟨m - 1, by omega⟩
      have hlt : p < (parseOption mem p e r).1 := parseOption_advances r h
      rw [optionsWithin, optionsWithin, if_pos h, if_pos h]
      exact ih _ (by omega) (by omega)
    · cases m with
      | zero => rw [optionsWithin, optionsWithin, if_neg h]
      | succ m => rw [optionsWithin, optionsWithin, if_neg h, if_neg h]

/-- **The loop ends**: as many rounds as there are bytes are enough. -/
theorem parseOptions_eq (mem : Nat → UInt8) (p e : Nat) (r : DhcpReply) :
    parseOptions mem p e r =
      if p < e then parseOptions mem (parseOption mem p e r).1 e (parseOption mem p e r).2
      else r := by
  by_cases h : p < e
  · obtain ⟨n, hn⟩ : ∃ n, e - p = n + 1 := ⟨e - p - 1, by omega⟩
    have hlt : p < (parseOption mem p e r).1 := parseOption_advances r h
    rw [parseOptions, hn, optionsWithin, if_pos h, if_pos h]
    exact optionsWithin_of_le _ (by omega) (Nat.le_refl _)
  · have hzero : e - p = 0 := by omega
    rw [parseOptions, hzero, optionsWithin, if_neg h]

end Loop

/-! ## What the options say -/

/-- A code that is followed by a length and so many bytes, as many as the loop relies on. -/
structure OptionValid (code : UInt8) (data : List UInt8) : Prop where
  notPad : code ≠ padOption
  notEnd : code ≠ endOption
  short : data.length < 256
  one : code = dhcpMessageType → data.length = 1
  four : code = subnetMask ∨ code = dhcpIPaddrLeaseTime ∨ code = dhcpServerIdentifier →
    data.length = 4
  more : code = routersOnSubnet ∨ code = dnsOption → 4 ≤ data.length

/-- An option. -/
inductive DhcpOption where
  | pad
  | item (code : UInt8) (data : List UInt8) (valid : OptionValid code data)

namespace DhcpOption

def encode : DhcpOption → List UInt8
  | pad => [padOption]
  | item code data _ => code :: UInt8.ofNat data.length :: data

/-- The four bytes that a field of the client is filled with. -/
def address : List UInt8 → Ipv4
  | b0 :: b1 :: b2 :: b3 :: _ => ⟨b0, b1, b2, b3⟩
  | _ => .zero

/-- What an option says: of several routers, or servers, the first counts. -/
def apply (r : DhcpReply) : DhcpOption → DhcpReply
  | pad => r
  | item code data _ =>
    if code = dhcpMessageType then { r with type := data.headD 0 }
    else if code = subnetMask then { r with sn := address data }
    else if code = routersOnSubnet then { r with gw := address data }
    else if code = dnsOption then { r with dns := address data }
    else if code = dhcpIPaddrLeaseTime then
      let t := address data
      { r with leaseTime := be32 t.b0 t.b1 t.b2 t.b3 }
    else if code = dhcpServerIdentifier then { r with sip := address data }
    else r

end DhcpOption

/-- The bytes of some options. -/
def encodeOptions (os : List DhcpOption) : List UInt8 := os.flatMap DhcpOption.encode

section Area
variable {mem : Nat → UInt8} {p e : Nat}

theorem read_address {data : List UInt8} (hlen : 4 ≤ data.length) (h : Holds mem p data) :
    Ipv4.read mem p = DhcpOption.address data := by
  rcases data with _ | ⟨b0, _ | ⟨b1, _ | ⟨b2, _ | ⟨b3, rest⟩⟩⟩⟩
  case cons.cons.cons.cons =>
    obtain ⟨h0, h1, h2, h3, -⟩ := h
    rw [Ipv4.read, h0, h1, h2, h3]
    rfl
  all_goals simp at hlen

/-- **A round takes an option**, and moves behind it. -/
theorem parseOption_encode (o : DhcpOption) (r : DhcpReply) (h : Holds mem p o.encode) :
    parseOption mem p e r = (p + o.encode.length, o.apply r) := by
  cases o with
  | pad =>
    have hpad : mem p = padOption := h.1
    have hend : padOption ≠ endOption := by decide
    rw [parseOption, hpad, if_neg hend, if_pos rfl]
    rfl
  | item code data valid =>
    obtain ⟨hcode, hsize, hdata⟩ := h
    have hlen : (mem (p + 1)).toNat = data.length := by
      rw [hsize]
      exact UInt8.toNat_ofNat_of_lt' valid.short
    have hmove : p + (DhcpOption.item code data valid).encode.length = p + 2 + data.length := by
      show p + (data.length + 1 + 1) = _
      omega
    rw [hmove, parseOption, hcode, hlen, if_neg valid.notEnd, if_neg valid.notPad,
      DhcpOption.apply]
    by_cases htype : code = dhcpMessageType
    · have hone := valid.one htype
      obtain ⟨b, rfl⟩ := List.length_eq_one_iff.mp hone
      rw [if_pos htype, if_pos htype, hdata.1]
      rfl
    rw [if_neg htype, if_neg htype]
    by_cases hsn : code = subnetMask
    · have hfour := valid.four (.inl hsn)
      rw [if_pos hsn, if_pos hsn, hfour, read_address (Nat.le_of_eq hfour.symm) hdata]
    rw [if_neg hsn, if_neg hsn]
    by_cases hgw : code = routersOnSubnet
    · have hmore := valid.more (.inl hgw)
      rw [if_pos hgw, if_pos hgw, read_address hmore hdata, Nat.sub_eq_of_eq_add]
      omega
    rw [if_neg hgw, if_neg hgw]
    by_cases hdns : code = dnsOption
    · have hmore := valid.more (.inr hdns)
      rw [if_pos hdns, if_pos hdns, read_address hmore hdata, Nat.sub_eq_of_eq_add]
      omega
    rw [if_neg hdns, if_neg hdns]
    by_cases htime : code = dhcpIPaddrLeaseTime
    · have hfour := valid.four (.inr (.inl htime))
      have haddr := read_address (Nat.le_of_eq hfour.symm) hdata
      rw [if_pos htime, if_pos htime, hfour, ← haddr]
      rfl
    rw [if_neg htime, if_neg htime]
    by_cases hsip : code = dhcpServerIdentifier
    · have hfour := valid.four (.inr (.inr hsip))
      rw [if_pos hsip, if_pos hsip, hfour, read_address (Nat.le_of_eq hfour.symm) hdata]
    rw [if_neg hsip, if_neg hsip]

/-- An area of options: it ends where the reply ends, or with the end option. -/
structure Area (mem : Nat → UInt8) (p e : Nat) (os : List DhcpOption) : Prop where
  holds : Holds mem p (encodeOptions os)
  ends : p + (encodeOptions os).length = e ∨
    p + (encodeOptions os).length < e ∧ mem (p + (encodeOptions os).length) = endOption

/-- What the options say, one after another; of two that say the same the last one counts. -/
def applyOptions (r : DhcpReply) (os : List DhcpOption) : DhcpReply := os.foldl DhcpOption.apply r

theorem encode_length_pos (o : DhcpOption) : 0 < o.encode.length := by
  cases o <;> exact Nat.succ_pos _

/-- **Reading an area of options.** -/
theorem parseOptions_area {os : List DhcpOption} (r : DhcpReply) (h : Area mem p e os) :
    parseOptions mem p e r = applyOptions r os := by
  induction os generalizing p r with
  | nil =>
    rcases h.ends with hend | ⟨hlt, hend⟩
    · have hover : ¬ p < e := by
        rw [← hend]
        exact Nat.lt_irrefl p
      rw [parseOptions_eq, if_neg hover]
      rfl
    · have hover : ¬ e < e := Nat.lt_irrefl e
      have hfirst : parseOption mem p e r = (e, r) := if_pos hend
      rw [parseOptions_eq, if_pos (show p < e from hlt), hfirst, parseOptions_eq, if_neg hover]
      rfl
  | cons o os ih =>
    have hbytes : encodeOptions (o :: os) = o.encode ++ encodeOptions os := List.flatMap_cons
    obtain ⟨hholds, hends⟩ := h
    have hpos := encode_length_pos o
    rw [hbytes, holds_append] at hholds
    rw [hbytes, List.length_append, ← Nat.add_assoc] at hends
    have hlt : p < e := by omega
    have hrest := ih (o.apply r) ⟨hholds.2, hends⟩
    rw [parseOptions_eq, if_pos hlt, parseOption_encode o r hholds.1, hrest]
    rfl

end Area

/-! ## The messages that are sent -/

abbrev optSize : Nat := 312
abbrev ripMsgSize : Nat := 236 + optSize

abbrev dhcpBootrequest : UInt8 := 1
abbrev dhcpHtype10mb : UInt8 := 1
abbrev dhcpHlenEthernet : UInt8 := 6
abbrev dhcpHops : UInt8 := 0

def magicCookie : List UInt8 := [0x63, 0x82, 0x53, 0x63]

/-- `HOST_NAME`. The macro makes a text of the name of the variable, not of the serial number. -/
def dhcpHostName : List UInt8 := Bytes.ascii "iBoxClient-ibox_config.device_sn"

/-- The fields of a message, `makeDHCPMSG`, with the high byte of the flags, `ciaddr`, and the
options behind the cookie. -/
def makeDhcpMsg (xid : UInt32) (chaddr : Mac) (flags : UInt8) (ciaddr : Ipv4)
    (opt : List UInt8) : List UInt8 :=
  [dhcpBootrequest, dhcpHtype10mb, dhcpHlenEthernet, dhcpHops] ++
    [(xid >>> 24).toUInt8, (xid >>> 16).toUInt8, (xid >>> 8).toUInt8, xid.toUInt8] ++
    [0, 0] ++ [flags, 0] ++ ciaddr.toList ++ Ipv4.zero.toList ++ Ipv4.zero.toList ++
    Ipv4.zero.toList ++ (chaddr.toList ++ List.replicate 10 0) ++ List.replicate 64 0 ++
    List.replicate 128 0 ++ magicCookie ++ opt ++ List.replicate (optSize - 4 - opt.length) 0

/-- The options of `send_DHCP_DISCOVER`. -/
def discoverOptions (chaddr : Mac) : List UInt8 :=
  [dhcpMessageType, 1, dhcpDiscover] ++
    ([dhcpClientIdentifier, 7, 1] ++ chaddr.toList) ++
    ([hostName, .ofNat dhcpHostName.length] ++ dhcpHostName) ++
    [dhcpParamRequest, 6, subnetMask, routersOnSubnet, dnsOption, domainName, dhcpT1value,
      dhcpT2value] ++
    [endOption]

/-- The address asked for and the server it is asked of. -/
def addressOptions (ip sip : Ipv4) : List UInt8 :=
  [dhcpRequestedIPaddr, 4] ++ ip.toList ++ ([dhcpServerIdentifier, 4] ++ sip.toList)

/-- The options of `send_DHCP_REQUEST`, to an address. -/
def requestOptions (chaddr : Mac) (ip sip dst : Ipv4) : List UInt8 :=
  [dhcpMessageType, 1, dhcpRequest] ++
    ([dhcpClientIdentifier, 7, 1] ++ chaddr.toList) ++
    (if dst.b3 = 255 then addressOptions ip sip else []) ++
    ([hostName, .ofNat dhcpHostName.length] ++ dhcpHostName) ++
    [dhcpParamRequest, 8, subnetMask, routersOnSubnet, dnsOption, domainName, dhcpT1value,
      dhcpT2value, performRouterDiscovery, staticRoute] ++
    [endOption]

/-- The options of `send_DHCP_DECLINE`. -/
def declineOptions (chaddr : Mac) (ip sip : Ipv4) : List UInt8 :=
  [dhcpMessageType, 1, dhcpDecline] ++
    ([dhcpClientIdentifier, 7, 1] ++ chaddr.toList) ++
    addressOptions ip sip ++
    [endOption]

end IBoxClient
