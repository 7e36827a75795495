import IBoxClient.Lib.Memory
import IBoxClient.Lib.Rounds
import IBoxClient.NetFifo
import IBoxClient.IBoxConfig

/- The wired link (`ibox_Ethernet.c`), on the driver of the W5500 (`socket.c`).

   `recv` is the function of that name, on what it reads from the chip round by round;
   `ethernetRun` is one call of `ethernet_run`. The result of `recv` is a count or a negative code
   in 32 bits. It is put into a `uint16_t` before its sign is looked at, so a code becomes a
   length, and a count may exceed the buffer behind `net_rx_write`. What is passed on rightly is
   exactly a count that fits: `ethernet_passes_on_iff`.

   `rt_malloc` is taken to succeed, and `getsockopt` does, for the number of the socket is valid. -/
namespace IBoxClient

/-! ## The driver -/

abbrev sockClosed : UInt8 := 0x00
abbrev sockInit : UInt8 := 0x13
abbrev sockEstablished : UInt8 := 0x17
abbrev sockCloseWait : UInt8 := 0x1C

abbrev snMrTcp : UInt8 := 0x01

abbrev sockerrSockmode : Int := -5
abbrev sockerrSockstatus : Int := -7
abbrev sockerrDatalen : Int := -14

/-- `getSn_RxMAX` and `getSn_TxMAX`, with the two kilobytes that every socket has been given. -/
abbrev getSnRxMax : Nat := 2 * 1024
abbrev getSnTxMax : Nat := 2 * 1024

/-- What `recv` returns, and what it has stored into the buffer: as many bytes as it counts, and
none where it fails. -/
structure Received where
  ret : Int
  stored : List UInt8
  counts : 0 ≤ ret → (stored.length : Int) = ret
  fails : ret < 0 → stored = []
  ret_le : ret ≤ getSnRxMax
  int32 : -2147483648 ≤ ret

namespace Received

/-- A failure, or `SOCK_BUSY`. -/
def code (ret : Int) (hle : ret ≤ 0) (hint : -2147483648 ≤ ret) : Received where
  ret := ret
  stored := []
  counts hge := Int.le_antisymm hge hle
  fails _ := rfl
  ret_le := Int.le_trans hle (by decide)
  int32 := hint

/-- Bytes that have been stored. -/
def bytes (stored : List UInt8) (hle : stored.length ≤ getSnRxMax) : Received where
  ret := stored.length
  stored := stored
  counts _ := rfl
  fails hneg := absurd hneg (by omega)
  ret_le := Int.ofNat_le.mpr hle
  int32 := by omega

end Received

/-- What is read from the chip: `Sn_MR`, in every round of a loop `Sn_RX_RSR`, `Sn_SR` and
`Sn_TX_FSR`, and its receive buffer. -/
structure Chip where
  mr : UInt8
  rxRsr : Nat → UInt16
  sr : Nat → UInt8
  txFsr : Nat → UInt16
  nonblocking : Bool
  rxBuf : Nat → UInt8

/-- `wiz_recv_data`, of no more than is there. -/
def Chip.read (c : Chip) (recvsize len : Nat) (hlen : len ≤ getSnRxMax) : Received :=
  .bytes ((List.range (min recvsize len)).map c.rxBuf) (by
    rw [List.length_map, List.length_range]
    exact Nat.le_trans (Nat.min_le_right _ _) hlen)

/-- One round of the loop of `recv`. -/
def recvRound (c : Chip) (len : Nat) (hlen : len ≤ getSnRxMax) (k : Nat) : Received ⊕ Nat :=
  let recvsize := (c.rxRsr k).toNat
  let wait : Received ⊕ Nat :=
    if c.nonblocking ∧ recvsize = 0 then .inl (.code 0 (by decide) (by decide))
    else if recvsize ≠ 0 then .inl (c.read recvsize len hlen)
    else .inr (k + 1)
  if c.sr k ≠ sockEstablished then
    if c.sr k = sockCloseWait then
      if recvsize ≠ 0 then .inl (c.read recvsize len hlen)
      else if (c.txFsr k).toNat = getSnTxMax then
        .inl (.code sockerrSockstatus (by decide) (by decide))
      else wait
    else .inl (.code sockerrSockstatus (by decide) (by decide))
  else wait

/-- `recv` of at most `len` bytes, with some rounds granted. -/
def recv (rounds : Nat) (c : Chip) (len : Nat) : Option Received :=
  if c.mr &&& 0x0F ≠ snMrTcp then some (.code sockerrSockmode (by decide) (by decide))
  else if len = 0 then some (.code sockerrDatalen (by decide) (by decide))
  else Rounds.ends (recvRound c (min len getSnRxMax) (Nat.min_le_right _ _)) rounds 0

/-! ## The link -/

/-- The variables of `ibox_Ethernet.c`, and the configuration it reads. -/
structure Eth where
  sockStatus : UInt8
  txLen : UInt16
  config : IboxConfig

/-- What a call finds: the status of the socket, the size that `SO_RECVBUF` tells, the outcome of
`recv` if it is called, the memory behind `data_ptr`, `net_tx_buf`, and the address of the
server. -/
structure EthInput where
  sr : UInt8
  arg : UInt16
  received : Received
  heap : Nat → UInt8
  txBuf : List UInt8
  dnsSip : List UInt8

/-- What a call does to the outside. -/
inductive EthOut where
  | setKeepaliveAuto (arg : Nat)
  | connect (ip : List UInt8) (port : Nat)
  | recv (len : Nat)
  | netRxWrite (len : Nat) (data : List UInt8)
  | send (data : List UInt8)
  | close
  | socket (port : Nat)

namespace EthInput

/-- `data_len`. -/
def dataLen (i : EthInput) : Nat := (i.received.ret % 65536).toNat

/-- The bytes at `data_ptr`. -/
def data (i : EthInput) : List UInt8 :=
  (List.range i.dataLen).map (Memory.write i.heap 0 i.received.stored)

end EthInput

/-- The part of `SOCK_ESTABLISHED` that receives. -/
def ethernetReceive (i : EthInput) : List EthOut :=
  if 0 < i.arg then
    .recv i.arg.toNat :: if 0 < i.dataLen then [.netRxWrite i.dataLen i.data] else []
  else []

/-- The part of `SOCK_ESTABLISHED` that sends. -/
def ethernetSend (i : EthInput) (e : Eth) : Eth × List EthOut :=
  if e.txLen ≠ 0 then ({ e with txLen := 0 }, [.send (i.txBuf.take e.txLen.toNat)]) else (e, [])

/-- `ethernet_run`; it returns the status of the socket. -/
def ethernetRun (i : EthInput) (e : Eth) : Eth × List EthOut :=
  let e : Eth := { e with sockStatus := i.sr }
  if i.sr = sockInit then
    (e, [.setKeepaliveAuto 2, .connect i.dnsSip e.config.serverPort])
  else if i.sr = sockEstablished then
    ((ethernetSend i e).1, ethernetReceive i ++ (ethernetSend i e).2)
  else if i.sr = sockCloseWait then (e, [.close])
  else if i.sr = sockClosed then (e, [.socket e.config.localPort])
  else (e, [])

/-! ## What is passed on -/

/-- The length of a call of `net_rx_write`. -/
def EthOut.rxLen : EthOut → Option Nat
  | .netRxWrite len _ => some len
  | _ => none

/-- What has been received is passed on: in calls that fit, of bytes that `recv` has stored, all
of them if it counts some, and none if it fails. -/
structure PassesOn (received : Received) (outs : List EthOut) : Prop where
  fits : ∀ len data, .netRxWrite len data ∈ outs → len ≤ netRxBufSize
  stored : ∀ len data, .netRxWrite len data ∈ outs →
    len ≤ received.stored.length ∧ data = received.stored.take len
  all : (∃ len, .recv len ∈ outs) → 0 < received.ret →
    ((outs.filterMap EthOut.rxLen).sum : Int) = received.ret
  nothing : received.ret < 0 → ∀ len data, .netRxWrite len data ∉ outs

section Established
variable {i : EthInput} {e : Eth}

theorem ethernetRun_established (h : i.sr = sockEstablished) :
    (ethernetRun i e).2 =
      ethernetReceive i ++ (ethernetSend i { e with sockStatus := i.sr }).2 := by
  have hinit : sockEstablished ≠ sockInit := by decide
  simp only [ethernetRun, h, hinit, if_false, if_true]

/-- Sending is neither of the calls that matter here. -/
theorem mem_ethernetSend {out : EthOut} (h : out ∈ (ethernetSend i e).2) :
    ∃ data, out = .send data := by
  unfold ethernetSend at h
  split at h
  · exact ⟨_, List.mem_singleton.mp h⟩
  · exact absurd h List.not_mem_nil

theorem rxLen_ethernetSend : (ethernetSend i e).2.filterMap EthOut.rxLen = [] := by
  unfold ethernetSend
  split <;> rfl

/-- **The only call** of `net_rx_write`: if anything is pending, and the result of `recv` is not a
multiple of 2^16. -/
theorem netRxWrite_mem (h : i.sr = sockEstablished) (len : Nat) (data : List UInt8) :
    .netRxWrite len data ∈ (ethernetRun i e).2 ↔
      0 < i.arg ∧ 0 < i.dataLen ∧ len = i.dataLen ∧ data = i.data := by
  have hsend : .netRxWrite len data ∉ (ethernetSend i { e with sockStatus := i.sr }).2 := by
    intro hmem
    obtain ⟨data', hdata⟩ := mem_ethernetSend hmem
    cases hdata
  rw [ethernetRun_established h, List.mem_append, or_iff_left hsend, ethernetReceive]
  by_cases harg : 0 < i.arg
  · by_cases hlen : 0 < i.dataLen <;> simp [harg, hlen]
  · simp [harg]

theorem recv_mem (h : i.sr = sockEstablished) :
    (∃ len, .recv len ∈ (ethernetRun i e).2) ↔ 0 < i.arg := by
  have hsend : ∀ len, .recv len ∉ (ethernetSend i { e with sockStatus := i.sr }).2 := by
    intro len hmem
    obtain ⟨data', hdata⟩ := mem_ethernetSend hmem
    cases hdata
  simp only [ethernetRun_established h, List.mem_append, hsend, or_false, ethernetReceive]
  by_cases harg : 0 < i.arg
  · by_cases hlen : 0 < i.dataLen <;> simp [harg, hlen]
  · simp [harg]

theorem sum_rxLen (h : i.sr = sockEstablished) (harg : 0 < i.arg) :
    ((ethernetRun i e).2.filterMap EthOut.rxLen).sum = i.dataLen := by
  rw [ethernetRun_established h, List.filterMap_append, rxLen_ethernetSend, List.append_nil,
    ethernetReceive, if_pos harg]
  by_cases hlen : 0 < i.dataLen
  · simp only [if_pos hlen, List.filterMap_cons, EthOut.rxLen, List.filterMap_nil,
      List.sum_cons, List.sum_nil, Nat.add_zero]
  · simp only [if_neg hlen, List.filterMap_cons, EthOut.rxLen, List.filterMap_nil, List.sum_nil]
    omega

/-- A count is the length of what has been stored, also in 16 bits. -/
theorem dataLen_of_count (h : 0 ≤ i.received.ret) : i.dataLen = i.received.stored.length := by
  have hcount := i.received.counts h
  have hle : i.received.ret ≤ 2048 := i.received.ret_le
  unfold EthInput.dataLen
  omega

/-- The bytes that have been stored are at `data_ptr`. -/
theorem data_of_count (h : 0 ≤ i.received.ret) : i.data = i.received.stored := by
  have hlen := dataLen_of_count h
  have hfront := Memory.read_front i.heap i.received.stored []
  rw [List.append_nil] at hfront
  rw [EthInput.data, hlen, hfront]

/-- The code that vanishes in 16 bits. -/
theorem dataLen_eq_zero : i.dataLen = 0 ↔ (65536 : Int) ∣ i.received.ret := by
  unfold EthInput.dataLen
  omega

/-- Without a call everything is passed on, unless something has been counted. -/
theorem passesOn_of_none {received : Received} {outs : List EthOut}
    (hnone : ∀ len data, .netRxWrite len data ∉ outs)
    (hcount : (∃ len, .recv len ∈ outs) → ¬ 0 < received.ret) : PassesOn received outs where
  fits len data hcall := absurd hcall (hnone len data)
  stored len data hcall := absurd hcall (hnone len data)
  all hcalled hpos := absurd hpos (hcount hcalled)
  nothing _ := hnone

/-- A count that fits is passed on as it is. -/
theorem passesOn_of_count (h : i.sr = sockEstablished) (hge : 0 ≤ i.received.ret)
    (hle : i.received.ret ≤ netRxBufSize) : PassesOn i.received (ethernetRun i e).2 := by
  have hcount := i.received.counts hge
  have hlen := dataLen_of_count hge
  constructor
  · intro len data hcall
    obtain ⟨-, -, rfl, -⟩ := (netRxWrite_mem h len data).mp hcall
    omega
  · intro len data hcall
    obtain ⟨-, -, rfl, rfl⟩ := (netRxWrite_mem h len data).mp hcall
    refine ⟨Nat.le_of_eq hlen, ?_⟩
    rw [data_of_count hge, hlen, List.take_length]
  · intro hcalled _
    rw [sum_rxLen h ((recv_mem h).mp hcalled), hlen, hcount]
  · intro hneg
    exact absurd hneg (Int.not_lt.mpr hge)

/-- **What is passed on.** With the link up, what has been received is passed on as it is if and
only if there is nothing to receive, or `recv` counts no more than the buffer behind `net_rx_write`
holds, or its code vanishes in 16 bits. -/
theorem ethernet_passes_on_iff (h : i.sr = sockEstablished) :
    PassesOn i.received (ethernetRun i e).2 ↔ i.arg = 0 ∨
      0 ≤ i.received.ret ∧ i.received.ret ≤ netRxBufSize ∨
      i.received.ret < 0 ∧ (65536 : Int) ∣ i.received.ret := by
  have hmem := fun len data => netRxWrite_mem (e := e) h len data
  constructor
  · intro hpass
    by_cases harg : i.arg = 0
    · exact .inl harg
    have hpos : 0 < i.arg := UInt16.pos_iff_ne_zero.mpr harg
    right
    by_cases hneg : i.received.ret < 0
    · right
      refine ⟨hneg, dataLen_eq_zero.mp ?_⟩
      by_contra hlen
      have hcall := (hmem i.dataLen i.data).mpr ⟨hpos, Nat.pos_of_ne_zero hlen, rfl, rfl⟩
      exact hpass.nothing hneg _ _ hcall
    · left
      have hge : 0 ≤ i.received.ret := Int.not_lt.mp hneg
      refine ⟨hge, ?_⟩
      have hcount := i.received.counts hge
      have hlen := dataLen_of_count hge
      by_contra hgt
      have hcall := (hmem i.dataLen i.data).mpr ⟨hpos, by omega, rfl, rfl⟩
      have hfits := hpass.fits _ _ hcall
      omega
  · intro hcond
    rcases hcond with harg | ⟨hge, hle⟩ | ⟨hneg, hdvd⟩
    · -- nothing is pending, so nothing is called
      have hidle : ¬ 0 < i.arg := by
        rw [harg]
        decide
      apply passesOn_of_none
      · intro len data hcall
        exact hidle ((hmem len data).mp hcall).1
      · intro hcalled
        exact absurd ((recv_mem h).mp hcalled) hidle
    · exact passesOn_of_count h hge hle
    · have hzero := dataLen_eq_zero.mpr hdvd
      apply passesOn_of_none
      · intro len data hcall
        have hpos := ((hmem len data).mp hcall).2.1
        omega
      · intro _
        exact Int.not_lt.mpr (Int.le_of_lt hneg)

end Established

/-- A chip with `n` bytes in its receive buffer, on a socket in a status. -/
def chipWith (n : UInt16) (sr : UInt8) : Chip :=
  ⟨snMrTcp, fun _ => n, fun _ => sr, fun _ => 2048, false, fun _ => 0⟩

/-- The link up, with some bytes pending, and what `recv` makes of them. -/
def ethUp (arg : UInt16) (received : Received) : EthInput :=
  ⟨sockEstablished, arg, received, fun _ => 0, [], [10, 0, 0, 1]⟩

/-- The link up, with nothing to send. -/
def ethIdle : Eth := ⟨sockEstablished, 0, .initial⟩

theorem ethernet_passes_on_iff_two :
    ∃ received, recv 1 (chipWith 2 sockEstablished) 2 = some received ∧
      PassesOn received (ethernetRun (ethUp 2 received) ethIdle).2 := by
  refine ⟨.bytes [0, 0] (by decide), rfl, ?_⟩
  have hcount : (0 : Int) ≤ 2 ∧ (2 : Int) ≤ netRxBufSize := by decide
  exact (ethernet_passes_on_iff (i := ethUp 2 (.bytes [0, 0] (by decide))) rfl).mpr
    (.inr (.inl hcount))

/-- Bytes are pending, but the socket is closed when `recv` looks at it. Its code -7 is passed on
as 65529 bytes, of which none has been stored. -/
theorem sockstatus_passed_on :
    ∃ received, recv 1 (chipWith 2 sockClosed) 2 = some received ∧
      ¬ PassesOn received (ethernetRun (ethUp 2 received) ethIdle).2 := by
  refine ⟨.code sockerrSockstatus (by decide) (by decide), rfl, fun hpass => ?_⟩
  have hcall := (netRxWrite_mem (i := ethUp 2 (.code sockerrSockstatus (by decide) (by decide)))
    (e := ethIdle) rfl 65529 _).mpr ⟨by decide, by decide, rfl, rfl⟩
  exact hpass.nothing (by decide) _ _ hcall

end IBoxClient
