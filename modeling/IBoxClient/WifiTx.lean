import IBoxClient.Lib.Machine
import IBoxClient.WifiFsm

/- The way of a packet from `net_tx_write` to the WiFi module (`network.c` and
   `ibox_wifi.c`).

   Three threads take part. The main thread takes `net_tx_sem`, sets `net_tx_len`,
   copies the packet into `net_tx_buf` and sends an event. The network thread receives
   the event, sets `wifi_tx_len` and copies the packet on into `uart3_tx_buf`. The
   wireless thread calls `esp8266_at_fsm`, which sends the packet when `wifi_tx_len` is
   set, and releases the semaphore on `SEND OK`. `txStep` is one statement of the first
   two threads or one call of the third, so a list of events is an interleaving.

   The network thread sets `wifi_tx_len` before it copies the packet. A call that comes
   between the two sends what the buffer held before. And a message from the server that
   has the text `SEND OK` in it is taken for the report of the module. Apart from that the
   packet is handed on through the stages of `Stage`, and the packets leave in the order
   in which they were accepted: `tx_hands_over`. -/
namespace IBoxClient

open Bytes

/-- `NET_TX_BUF_SIZE`. -/
abbrev netTxBufSize : Nat := 1460

/-- A packet for `net_tx_write`. -/
structure TxPacket where
  bytes : List UInt8
  length_le : bytes.length ≤ netTxBufSize

/-- Where the main thread is in `net_tx_write`. -/
inductive MainPc where
  | idle
  | taken (packet : TxPacket)
  | lenSet (packet : TxPacket)
  | copied (packet : TxPacket)

/-- Where the network thread is in its branch for the event. -/
inductive NetworkPc where
  | idle
  | received
  | lenSet
  deriving DecidableEq

/-- What the three threads share. `accepted`, `transmitted`, `sendOks` and `silent` are
history: the packets accepted, how many have been sent, how many `SEND OK` the module has
reported, and whether nothing has been sent since the link last came up. -/
structure TxSys where
  wifi : Wifi
  uart3TxBuf : List UInt8
  netTxSem : Nat
  netTxLen : Nat
  netTxBuf : List UInt8
  txEvent : Bool
  main : MainPc
  network : NetworkPc
  accepted : List (List UInt8)
  transmitted : Nat
  sendOks : Nat
  silent : Bool

def TxSys.initial (config : IboxConfig) : TxSys :=
  ⟨.initial config, List.replicate netTxBufSize 0, 1, 0, List.replicate netTxBufSize 0, false,
    .idle, .idle, [], 0, 0, false⟩

/-- Where a line comes from: the module itself, or a message of the server that it
passes on. The state machine does not know. -/
inductive LineOrigin where
  | modem
  | message
  deriving DecidableEq

/-- A thread goes on. The packet is the one the main thread comes with, if it is not in
`net_tx_write` already. -/
inductive TxEvent where
  | main (packet : TxPacket)
  | network
  | wireless (origin : LineOrigin) (line beyond : List UInt8) (clock : Nat → UInt32)

/-- The next statement of `net_tx_write`; without the semaphore it fails in the end. -/
def TxSys.netTxWrite (s : TxSys) (packet : TxPacket) : TxSys :=
  match s.main with
  | .idle =>
    if 0 < s.netTxSem then { s with netTxSem := s.netTxSem - 1, main := .taken packet } else s
  | .taken p => { s with netTxLen := p.bytes.length, main := .lenSet p }
  | .lenSet p => { s with netTxBuf := field netTxBufSize p.bytes, main := .copied p }
  | .copied p => { s with txEvent := true, accepted := s.accepted ++ [p.bytes], main := .idle }

/-- The next statement of the network thread. -/
def TxSys.networkThread (s : TxSys) : TxSys :=
  match s.network with
  | .idle => if s.txEvent then { s with txEvent := false, network := .received } else s
  | .received =>
    { s with wifi := { s.wifi with txLen := s.netTxLen }, network := .lenSet }
  | .lenSet =>
    { s with
      uart3TxBuf := writeAt s.uart3TxBuf 0 (s.netTxBuf.take s.netTxLen)
      network := .idle }

def WifiOut.isSendData : WifiOut → Bool
  | .sendData _ => true
  | _ => false

/-- What a call of the state machine finds. -/
def TxSys.input (s : TxSys) (line beyond : List UInt8) (clock : Nat → UInt32) : WifiInput :=
  ⟨line, beyond, clock, s.uart3TxBuf⟩

/-- A call of the state machine has come to `step`. -/
def TxSys.called (s : TxSys) (origin : LineOrigin) (i : WifiInput) (step : WifiStep) : TxSys :=
  { s with
    wifi := step.1
    netTxSem := s.netTxSem + step.2.count .netTxSemRelease
    transmitted := s.transmitted + step.2.countP WifiOut.isSendData
    sendOks := if origin = .modem ∧ i.has "SEND OK" then s.sendOks + 1 else s.sendOks
    silent :=
      if s.wifi.status ≠ .communicate ∧ step.1.status = .communicate then true
      else s.silent && step.2.countP WifiOut.isSendData == 0 }

/-- A step, and what the call of the state machine does to the outside. -/
def txStep (s : TxSys) : TxEvent → TxSys × List (List WifiOut)
  | .main packet => (s.netTxWrite packet, [])
  | .network => (s.networkThread, [])
  | .wireless origin line beyond clock =>
    let i := s.input line beyond clock
    (s.called origin i (esp8266AtFsm i s.wifi), [(esp8266AtFsm i s.wifi).2])

/-! ## Handing over -/

/-- A call that sends announces and transmits the oldest packet that has not been
transmitted, and the semaphore stays at 1. -/
def HandsOver (s : TxSys) (e : TxEvent) : Prop :=
  (∀ outs ∈ (txStep s e).2, (∃ data, .sendData data ∈ outs) →
    ∃ p rest, s.accepted.drop s.transmitted = p :: rest ∧ outs = esp8266SendData p.length p) ∧
  (txStep s e).1.netTxSem ≤ 1

/-- The module reports `SEND OK` only for a packet sent. -/
def ModemOk (s : TxSys) : TxEvent → Prop
  | .wireless origin line beyond clock =>
    origin = .modem ∧ (s.input line beyond clock).has "SEND OK" = true → s.sendOks < s.transmitted
  | _ => True

/-- A call that can send does not come between the two statements of the network
thread. -/
def NotTorn (s : TxSys) : TxEvent → Prop
  | .wireless _ line _ _ => ¬ (s.network = .lenSet ∧ s.wifi.status = .communicate ∧ line = [] ∧
      s.wifi.txLen ≠ 0 ∧ s.wifi.sendFlag = true)
  | _ => True

/-- While the link is up, no message is taken for a report. -/
def NotForged (s : TxSys) : TxEvent → Prop
  | .wireless origin line beyond clock =>
    s.wifi.status = .communicate → (s.input line beyond clock).has "SEND OK" = true →
      origin = .modem
  | _ => True

/-- The packet is in `net_tx_buf`. -/
def InNetBuf (s : TxSys) (p : TxPacket) : Prop :=
  s.netTxLen = p.bytes.length ∧ s.netTxBuf = field netTxBufSize p.bytes

/-- Where the main thread is with a packet, and what it has done so far. -/
def Writing (s : TxSys) (p : TxPacket) : Prop :=
  s.main = .taken p ∨ s.main = .lenSet p ∧ s.netTxLen = p.bytes.length ∨
    s.main = .copied p ∧ InNetBuf s p

/-- No packet is on its way in the network thread. -/
def NetworkFree (s : TxSys) : Prop := s.txEvent = false ∧ s.network = .idle

/-- How far the packet has come. There is one at most, and with it goes the
semaphore. -/
inductive Stage (s : TxSys) : Prop where
  | free (hsem : s.netTxSem = 1) (hmain : s.main = .idle) (hnet : NetworkFree s)
    (hlen : s.wifi.txLen = 0) (hflag : s.wifi.sendFlag = true)
    (hall : s.accepted.length = s.transmitted) (hoks : s.sendOks = s.transmitted)
  | writing (p : TxPacket) (hsem : s.netTxSem = 0) (hmain : Writing s p) (hnet : NetworkFree s)
    (hlen : s.wifi.txLen = 0) (hflag : s.wifi.sendFlag = true)
    (hall : s.accepted.length = s.transmitted) (hoks : s.sendOks = s.transmitted)
  | handed (p : TxPacket) (hsem : s.netTxSem = 0) (hmain : s.main = .idle)
    (hnet : s.txEvent = true ∧ s.network = .idle ∨ s.txEvent = false ∧ s.network = .received)
    (hbuf : InNetBuf s p) (hlen : s.wifi.txLen = 0) (hflag : s.wifi.sendFlag = true)
    (hnext : s.accepted.drop s.transmitted = [p.bytes]) (hoks : s.sendOks = s.transmitted)
  | torn (p : TxPacket) (hsem : s.netTxSem = 0) (hmain : s.main = .idle)
    (hnet : s.txEvent = false ∧ s.network = .lenSet) (hbuf : InNetBuf s p)
    (hlen : s.wifi.txLen = p.bytes.length) (hflag : s.wifi.sendFlag = true)
    (hnext : s.accepted.drop s.transmitted = [p.bytes]) (hoks : s.sendOks = s.transmitted)
  | ready (p : TxPacket) (hsem : s.netTxSem = 0) (hmain : s.main = .idle) (hnet : NetworkFree s)
    (hlen : s.wifi.txLen = p.bytes.length) (htx : s.uart3TxBuf.take p.bytes.length = p.bytes)
    (hflag : s.wifi.sendFlag = true)
    (hnext : s.accepted.drop s.transmitted = [p.bytes]) (hoks : s.sendOks = s.transmitted)
  | sent (hsem : s.netTxSem = 0) (hmain : s.main = .idle) (hnet : NetworkFree s)
    (hflag : s.wifi.sendFlag = false) (hall : s.accepted.length = s.transmitted)
    (hoks : s.transmitted ≤ s.sendOks + 1)

theorem stage_initial (config : IboxConfig) : Stage (TxSys.initial config) :=
  .free rfl rfl ⟨rfl, rfl⟩ rfl rfl rfl rfl

theorem Stage.sem_le {s : TxSys} (h : Stage s) : s.netTxSem ≤ 1 := by
  cases h with
  | free hsem => omega
  | writing _ hsem => omega
  | handed _ hsem => omega
  | torn _ hsem => omega
  | ready _ hsem => omega
  | sent hsem => omega

/-! ## The steps -/

/-- A main thread that finds no semaphore stays where it is. -/
theorem netTxWrite_refused {s : TxSys} (hmain : s.main = .idle) (hsem : s.netTxSem = 0)
    (packet : TxPacket) : s.netTxWrite packet = s := by
  simp only [TxSys.netTxWrite, hmain, hsem, Nat.lt_irrefl, if_false]

theorem drop_accepted {accepted : List (List UInt8)} {n : Nat} (h : accepted.length = n)
    (packet : List UInt8) : (accepted ++ [packet]).drop n = [packet] := by
  rw [← h, List.drop_left]

theorem stage_netTxWrite {s : TxSys} (h : Stage s) (packet : TxPacket) :
    Stage (s.netTxWrite packet) := by
  cases h with
  | free hsem hmain hnet hlen hflag hall hoks =>
    have hpos : 0 < s.netTxSem := by omega
    simp only [TxSys.netTxWrite, hmain, hpos, if_true]
    exact .writing packet (by simp [hsem]) (.inl rfl) hnet hlen hflag hall hoks
  | writing p hsem hmain hnet hlen hflag hall hoks =>
    rcases hmain with hmain | ⟨hmain, hnetlen⟩ | ⟨hmain, hbuf⟩
    · simp only [TxSys.netTxWrite, hmain]
      exact .writing p hsem (.inr (.inl ⟨rfl, rfl⟩)) hnet hlen hflag hall hoks
    · simp only [TxSys.netTxWrite, hmain]
      exact .writing p hsem (.inr (.inr ⟨rfl, hnetlen, rfl⟩)) hnet hlen hflag hall hoks
    · simp only [TxSys.netTxWrite, hmain]
      exact .handed p hsem rfl (.inl ⟨rfl, hnet.2⟩) hbuf hlen hflag
        (drop_accepted hall p.bytes) hoks
  | handed p hsem hmain hnet hbuf hlen hflag hnext hoks =>
    rw [netTxWrite_refused hmain hsem]
    exact .handed p hsem hmain hnet hbuf hlen hflag hnext hoks
  | torn p hsem hmain hnet hbuf hlen hflag hnext hoks =>
    rw [netTxWrite_refused hmain hsem]
    exact .torn p hsem hmain hnet hbuf hlen hflag hnext hoks
  | ready p hsem hmain hnet hlen htx hflag hnext hoks =>
    rw [netTxWrite_refused hmain hsem]
    exact .ready p hsem hmain hnet hlen htx hflag hnext hoks
  | sent hsem hmain hnet hflag hall hoks =>
    rw [netTxWrite_refused hmain hsem]
    exact .sent hsem hmain hnet hflag hall hoks

theorem networkThread_idle {s : TxSys} (h : NetworkFree s) : s.networkThread = s := by
  simp only [TxSys.networkThread, h.2, h.1, Bool.false_eq_true, if_false]

/-- The copy of the packet. -/
theorem take_copied {s : TxSys} {p : TxPacket} (h : InNetBuf s p) :
    (writeAt s.uart3TxBuf 0 (s.netTxBuf.take s.netTxLen)).take p.bytes.length = p.bytes := by
  have hpacket : s.netTxBuf.take s.netTxLen = p.bytes := by
    rw [h.1, h.2, field, List.take_left]
  rw [hpacket, take_writeAt]

theorem stage_networkThread {s : TxSys} (h : Stage s) : Stage s.networkThread := by
  cases h with
  | free hsem hmain hnet hlen hflag hall hoks =>
    rw [networkThread_idle hnet]
    exact .free hsem hmain hnet hlen hflag hall hoks
  | writing p hsem hmain hnet hlen hflag hall hoks =>
    rw [networkThread_idle hnet]
    exact .writing p hsem hmain hnet hlen hflag hall hoks
  | handed p hsem hmain hnet hbuf hlen hflag hnext hoks =>
    rcases hnet with ⟨hevent, hnet⟩ | ⟨hevent, hnet⟩
    · simp only [TxSys.networkThread, hnet, hevent, if_true]
      exact .handed p hsem hmain (.inr ⟨rfl, rfl⟩) hbuf hlen hflag hnext hoks
    · simp only [TxSys.networkThread, hnet]
      exact .torn p hsem hmain ⟨hevent, rfl⟩ hbuf hbuf.1 hflag hnext hoks
  | torn p hsem hmain hnet hbuf hlen hflag hnext hoks =>
    obtain ⟨hevent, hnet⟩ := hnet
    simp only [TxSys.networkThread, hnet]
    exact .ready p hsem hmain ⟨hevent, rfl⟩ hlen (take_copied hbuf) hflag hnext hoks
  | ready p hsem hmain hnet hlen htx hflag hnext hoks =>
    rw [networkThread_idle hnet]
    exact .ready p hsem hmain hnet hlen htx hflag hnext hoks
  | sent hsem hmain hnet hflag hall hoks =>
    rw [networkThread_idle hnet]
    exact .sent hsem hmain hnet hflag hall hoks

/-- A call that neither sends nor acknowledges leaves the packet where it is. -/
theorem stage_called_other {s : TxSys} {origin : LineOrigin} {i : WifiInput} {step : WifiStep}
    (h : Stage s) (hflag : step.1.sendFlag = s.wifi.sendFlag)
    (hlen : step.1.txLen = s.wifi.txLen) (hsends : step.2.countP WifiOut.isSendData = 0)
    (hreleases : step.2.count .netTxSemRelease = 0)
    (hmodem : origin = .modem ∧ i.has "SEND OK" = true → s.sendOks < s.transmitted) :
    Stage (s.called origin i step) := by
  have hsem : (s.called origin i step).netTxSem = s.netTxSem := by
    simp only [TxSys.called, hreleases, Nat.add_zero]
  have htransmitted : (s.called origin i step).transmitted = s.transmitted := by
    simp only [TxSys.called, hsends, Nat.add_zero]
  -- the modem reports nothing while nothing is sent
  have hsame : s.sendOks = s.transmitted →
      (s.called origin i step).sendOks = (s.called origin i step).transmitted := by
    intro hoks
    rw [htransmitted, ← hoks]
    simp only [TxSys.called]
    rw [if_neg fun hok => Nat.lt_irrefl _ (hoks ▸ hmodem hok)]
  cases h with
  | free hs hmain hnet hl hf hall hoks =>
    exact .free (hsem.trans hs) hmain hnet (hlen.trans hl) (hflag.trans hf)
      (hall.trans htransmitted.symm) (hsame hoks)
  | writing p hs hmain hnet hl hf hall hoks =>
    exact .writing p (hsem.trans hs) hmain hnet (hlen.trans hl) (hflag.trans hf)
      (hall.trans htransmitted.symm) (hsame hoks)
  | handed p hs hmain hnet hbuf hl hf hnext hoks =>
    exact .handed p (hsem.trans hs) hmain hnet hbuf (hlen.trans hl) (hflag.trans hf)
      (htransmitted ▸ hnext) (hsame hoks)
  | torn p hs hmain hnet hbuf hl hf hnext hoks =>
    exact .torn p (hsem.trans hs) hmain hnet hbuf (hlen.trans hl) (hflag.trans hf)
      (htransmitted ▸ hnext) (hsame hoks)
  | ready p hs hmain hnet hl htx hf hnext hoks =>
    exact .ready p (hsem.trans hs) hmain hnet (hlen.trans hl) htx (hflag.trans hf)
      (htransmitted ▸ hnext) (hsame hoks)
  | sent hs hmain hnet hf hall hoks =>
    refine .sent (hsem.trans hs) hmain hnet (hflag.trans hf) (hall.trans htransmitted.symm) ?_
    rw [htransmitted]
    simp only [TxSys.called]
    split <;> omega

/-- `SEND OK` makes room for the next packet. -/
theorem stage_called_acknowledged {s : TxSys} {i : WifiInput} (h : Stage s)
    (hsent : i.has "SEND OK" = true) (hmodem : s.sendOks < s.transmitted) :
    Stage (s.called .modem i ({ s.wifi with txLen := 0, sendFlag := true }, [.netTxSemRelease])) := by
  cases h with
  | sent hsem hmain hnet hflag hall hoks =>
    refine .free ?_ hmain hnet rfl rfl hall ?_
    · simp [TxSys.called, hsem]
    · have hlast : s.sendOks + 1 = s.transmitted := by omega
      simpa [TxSys.called, hsent, WifiOut.isSendData] using hlast
  | free | writing | handed | torn | ready => omega

/-- Where a call may send, the packet is ready. -/
theorem Stage.ready_of_send {s : TxSys} (h : Stage s) (hlen : s.wifi.txLen ≠ 0)
    (hflag : s.wifi.sendFlag = true) (hnet : s.network ≠ .lenSet) :
    ∃ p : TxPacket, s.netTxSem = 0 ∧ s.main = .idle ∧ NetworkFree s ∧
      s.wifi.txLen = p.bytes.length ∧ s.uart3TxBuf.take p.bytes.length = p.bytes ∧
      s.accepted.drop s.transmitted = [p.bytes] ∧ s.sendOks = s.transmitted := by
  cases h with
  | free _ _ _ h0 => exact absurd h0 hlen
  | writing _ _ _ _ h0 => exact absurd h0 hlen
  | handed _ _ _ _ _ h0 => exact absurd h0 hlen
  | torn _ _ _ h => exact absurd h.2 hnet
  | ready p hsem hmain hfree hl htx _ hnext hoks =>
    exact ⟨p, hsem, hmain, hfree, hl, htx, hnext, hoks⟩
  | sent _ _ _ hf =>
    rw [hf] at hflag
    cases hflag

/-- The packet is sent. -/
theorem stage_called_send {s : TxSys} {origin : LineOrigin} {i : WifiInput} {w : Wifi}
    {p : TxPacket}
    (hsem : s.netTxSem = 0) (hmain : s.main = .idle) (hnet : NetworkFree s)
    (hnext : s.accepted.drop s.transmitted = [p.bytes]) (hoks : s.sendOks = s.transmitted)
    (hflag : w.sendFlag = false) (len : Nat) (txBuf : List UInt8) :
    Stage (s.called origin i (w, esp8266SendData len txBuf)) := by
  have hsends : (esp8266SendData len txBuf).countP WifiOut.isSendData = 1 := rfl
  have hreleases : (esp8266SendData len txBuf).count .netTxSemRelease = 0 := rfl
  have hlast := congrArg List.length hnext
  rw [List.length_drop, List.length_singleton] at hlast
  refine .sent ?_ hmain hnet hflag ?_ ?_
  · simp only [TxSys.called, hreleases, hsem]
  · simp only [TxSys.called, hsends]
    omega
  · simp only [TxSys.called, hsends]
    split <;> omega

/-- Neither sends nor releases: plain outputs, and messages that have come. -/
theorem count_plain {outs : List WifiOut} (h : ∀ out ∈ outs, out.plain = true) :
    outs.countP WifiOut.isSendData = 0 ∧ outs.count .netTxSemRelease = 0 := by
  constructor
  · rw [List.countP_eq_zero]
    intro out hout
    have hplain := h out hout
    cases out <;> simp_all [WifiOut.plain, WifiOut.isSendData]
  · rw [List.count_eq_zero]
    intro hout
    cases h _ hout

theorem count_ipdMessage (i : WifiInput) :
    (ipdMessage i).countP WifiOut.isSendData = 0 ∧ (ipdMessage i).count .netTxSemRelease = 0 := by
  unfold ipdMessage
  split
  · split <;> exact ⟨rfl, rfl⟩
  · exact ⟨rfl, rfl⟩

/-- A call keeps the packet on its way, and if it sends, it sends the packet. -/
theorem stage_called {s : TxSys} {origin : LineOrigin} {line beyond : List UInt8}
    {clock : Nat → UInt32} (h : Stage s) (hmodem : ModemOk s (.wireless origin line beyond clock))
    (htorn : NotTorn s (.wireless origin line beyond clock))
    (hforged : NotForged s (.wireless origin line beyond clock)) {step : WifiStep}
    (hstep : FsmStep (s.input line beyond clock) s.wifi step) :
    Stage (s.called origin (s.input line beyond clock) step) ∧
      ((∃ data, .sendData data ∈ step.2) → ∃ p rest,
        s.accepted.drop s.transmitted = p :: rest ∧ step.2 = esp8266SendData p.length p) := by
  -- the two ways to send, in time and too late, hand over the same packet
  have hsend : s.wifi.status = .communicate → line = [] → s.wifi.txLen ≠ 0 →
      s.wifi.sendFlag = true →
      (∀ w : Wifi, w.sendFlag = false → Stage (s.called origin (s.input line beyond clock)
        (w, esp8266SendData s.wifi.txLen s.uart3TxBuf))) ∧
      ∃ p rest, s.accepted.drop s.transmitted = p :: rest ∧
        esp8266SendData s.wifi.txLen s.uart3TxBuf = esp8266SendData p.length p := by
    intro hstatus hline hlen hflag
    obtain ⟨p, hsem, hmain, hfree, hl, htx, hnext, hoks⟩ :=
      h.ready_of_send hlen hflag fun hnet => htorn ⟨hnet, hstatus, hline, hlen, hflag⟩
    refine ⟨fun w hw => stage_called_send hsem hmain hfree hnext hoks hw _ _, p.bytes, [], hnext, ?_⟩
    rw [hl, esp8266SendData, esp8266SendData, htx, List.take_length]
  have hnone : ∀ outs : List WifiOut, outs.countP WifiOut.isSendData = 0 →
      ¬ ∃ data, .sendData data ∈ outs := by
    intro outs hcount h
    obtain ⟨data, hdata⟩ := h
    exact absurd rfl (List.countP_eq_zero.mp hcount _ hdata)
  cases hstep with
  | quiet _ _ hquiet =>
    obtain ⟨hsends, hreleases⟩ := count_plain hquiet.plain
    exact ⟨stage_called_other h hquiet.flag hquiet.len hsends hreleases hmodem,
      fun hdata => absurd hdata (hnone _ hsends)⟩
  | lost =>
    exact ⟨stage_called_other h rfl rfl rfl rfl hmodem, fun hdata => absurd hdata (hnone _ rfl)⟩
  | acknowledged hstatus _ hsent =>
    obtain rfl := hforged hstatus hsent
    exact ⟨stage_called_acknowledged h hsent (hmodem ⟨rfl, hsent⟩),
      fun hdata => absurd hdata (hnone _ rfl)⟩
  | data =>
    obtain ⟨hsends, hreleases⟩ := count_ipdMessage (s.input line beyond clock)
    exact ⟨stage_called_other h rfl rfl hsends hreleases hmodem,
      fun hdata => absurd hdata (hnone _ hsends)⟩
  | send hstatus hline hlen hflag =>
    obtain ⟨hstage, hsent⟩ := hsend hstatus hline hlen hflag
    exact ⟨hstage _ rfl, fun _ => hsent⟩
  | sendLate hstatus hline hlen hflag =>
    obtain ⟨hstage, hsent⟩ := hsend hstatus hline hlen hflag
    exact ⟨hstage _ rfl, fun _ => hsent⟩
  | timeout =>
    exact ⟨stage_called_other h rfl rfl rfl rfl hmodem, fun hdata => absurd hdata (hnone _ rfl)⟩
  | idle =>
    exact ⟨stage_called_other h rfl rfl rfl rfl hmodem, fun hdata => absurd hdata (hnone _ rfl)⟩

theorem stage_step {s : TxSys} {e : TxEvent} (h : Stage s) (hmodem : ModemOk s e)
    (htorn : NotTorn s e) (hforged : NotForged s e) : Stage (txStep s e).1 := by
  cases e with
  | main packet => exact stage_netTxWrite h packet
  | network => exact stage_networkThread h
  | wireless origin line beyond clock =>
    exact (stage_called h hmodem htorn hforged (fsm_step _ _)).1

theorem handsOver_step {s : TxSys} {e : TxEvent} (h : Stage s) (hmodem : ModemOk s e)
    (htorn : NotTorn s e) (hforged : NotForged s e) : HandsOver s e := by
  refine ⟨?_, (stage_step h hmodem htorn hforged).sem_le⟩
  cases e with
  | main packet => exact fun _ houts => (List.not_mem_nil houts).elim
  | network => exact fun _ houts => (List.not_mem_nil houts).elim
  | wireless origin line beyond clock =>
    intro outs houts
    rw [List.mem_singleton.mp houts]
    exact (stage_called h hmodem htorn hforged (fsm_step _ _)).2

/-- The state machine is called when a line has come, or none, while the clock stands. -/
def callOn (line : String) : TxEvent := .wireless .modem (ascii line) [] fun _ => 0

/-- The module answers until there is a connection to the server. -/
def linkUp : List TxEvent :=
  ["", "OK", "+CWMODE:1", "", "+CIFSR:STAIP,\"192.168.0.5\"",
    "+CIFSR:STAMAC,\"5c:cf:7f:00:00:01\"", "", "CONNECT"].map callOn

/-- A `PINGREQ`. -/
def pingPacket : TxPacket := ⟨[192, 0], by decide⟩

/-- The main thread writes the packet. -/
def written : List TxEvent := List.replicate 4 (.main pingPacket)

instance (s : TxSys) : DecidablePred (ModemOk s)
  | .wireless origin line beyond clock => inferInstanceAs (Decidable
      (origin = .modem ∧ (s.input line beyond clock).has "SEND OK" = true →
        s.sendOks < s.transmitted))
  | .main _ | .network => .isTrue trivial

instance (s : TxSys) : DecidablePred (NotTorn s)
  | .wireless _ line _ _ => inferInstanceAs (Decidable (¬ (s.network = .lenSet ∧
      s.wifi.status = .communicate ∧ line = [] ∧ s.wifi.txLen ≠ 0 ∧ s.wifi.sendFlag = true)))
  | .main _ | .network => .isTrue trivial

instance (s : TxSys) : DecidablePred (NotForged s)
  | .wireless origin line beyond clock => inferInstanceAs (Decidable
      (s.wifi.status = .communicate → (s.input line beyond clock).has "SEND OK" = true →
        origin = .modem))
  | .main _ | .network => .isTrue trivial

/-- The packet goes all the way, and is acknowledged. -/
def handedOver : List TxEvent :=
  linkUp ++ written ++ [.network, .network, .network, callOn "", callOn "SEND OK"]

/-- The state machine is called between the two statements of the network thread. -/
def tornRun : List TxEvent := linkUp ++ written ++ [.network, .network]

/-- A message of seven bytes, while nothing is sent. -/
def forgedReport : TxEvent := .wireless .message (ascii "+IPD,7:SEND OK") [] fun _ => 0

end IBoxClient
