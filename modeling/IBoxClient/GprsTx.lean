import IBoxClient.GprsFsm
import IBoxClient.WifiTx

/- The way of a packet in a build for the GPRS module.

   `net_tx_write` and the network thread are those of `WifiTx`: the network thread hands
   the packet over in `uart3_tx_buf` and its length in `wifi_tx_len`. But `gprs_at_fsm`
   looks at a length of its own, `gprs_tx_counter`, which nothing sets, and the report
   `SEND OK` does not release `net_tx_sem`. So no packet is ever sent, and after the first
   one that `net_tx_write` accepts none is accepted any more: `gprs_never_transmits`. -/
namespace IBoxClient

open Bytes

/-- What the threads share: the state of `WifiTx`, of which the WiFi machine is not called,
and the one of the GPRS module. -/
structure GprsTxSys where
  tx : TxSys
  gprs : Gprs

def GprsTxSys.initial (config : IboxConfig) : GprsTxSys := ⟨.initial config, .initial config⟩

/-- A thread goes on. -/
inductive GprsTxEvent where
  | main (packet : TxPacket)
  | network
  | wireless (line beyond : List UInt8) (clock : Nat → UInt32)

/-- A step, and what the call of the state machine does to the outside. -/
def gprsTxStep (s : GprsTxSys) : GprsTxEvent → GprsTxSys × List (List WifiOut)
  | .main packet => ({ s with tx := s.tx.netTxWrite packet }, [])
  | .network => ({ s with tx := s.tx.networkThread }, [])
  | .wireless line beyond clock =>
    let step := gprsAtFsm (s.tx.input line beyond clock) s.gprs
    ({ tx := { s.tx with netTxSem := s.tx.netTxSem + step.2.count .netTxSemRelease }
       gprs := step.1 }, [step.2])

/-- The network thread has handled the packet that was accepted last. -/
def Handled (s : GprsTxSys) (p : TxPacket) : Prop :=
  s.tx.accepted.getLast? = some p.bytes ∧ s.tx.main = .idle ∧ NetworkFree s.tx

/-- The packet is announced and sent. -/
def SendsPacket (p : TxPacket) (outs : List WifiOut) : Prop :=
  outs = [.sendStr (ascii "AT+CIPSEND=" ++ decimal p.bytes.length ++ ascii "\r\n"), .delayMs 50,
    .sendData p.bytes]

/-- The state after a call that finds a line. -/
abbrev GprsTxSys.poll (s : GprsTxSys) (line beyond : List UInt8) (clock : Nat → UInt32) :
    GprsTxSys :=
  (gprsTxStep s (.wireless line beyond clock)).1

/-! ## Nothing is sent -/

/-- Nothing is to be sent; the semaphore is there until the first packet is written, and not
any more after that. -/
structure Unsent (s : GprsTxSys) : Prop where
  counter : s.gprs.txCounter = 0
  sem : s.tx.netTxSem = 1 ∧ s.tx.main = .idle ∧ s.tx.accepted = [] ∨
    s.tx.netTxSem = 0 ∧ (s.tx.accepted = [] ∨ s.tx.main = .idle)

/-- A call does not release the semaphore. -/
theorem count_release (i : GprsInput) (g : Gprs) :
    (gprsAtFsm i g).2.count .netTxSemRelease = 0 := by
  apply List.count_eq_zero.mpr
  intro hmem
  rcases (gprs_can i g).outs _ hmem with h | ⟨⟨_, h⟩, _⟩ | ⟨⟨_, _, h⟩, _⟩
  · exact Bool.false_ne_true h
  · nomatch h
  · nomatch h

/-- As long as nothing is to be sent, a call sends no data. -/
theorem not_sendData {g : Gprs} (h : g.txCounter = 0) (i : GprsInput) (data : List UInt8) :
    .sendData data ∉ (gprsAtFsm i g).2 := by
  intro hmem
  rcases (gprs_can i g).outs _ hmem with hplain | ⟨_, hcounter⟩ | ⟨⟨_, _, hout⟩, _⟩
  · exact Bool.false_ne_true hplain
  · exact hcounter h
  · nomatch hout

theorem tx_poll (s : GprsTxSys) (line beyond : List UInt8) (clock : Nat → UInt32) :
    (s.poll line beyond clock).tx = s.tx := by
  simp only [GprsTxSys.poll, gprsTxStep, count_release, Nat.add_zero]

theorem unsent_initial (config : IboxConfig) : Unsent (.initial config) :=
  ⟨rfl, .inl ⟨rfl, rfl, rfl⟩⟩

theorem unsent_main {s : GprsTxSys} (h : Unsent s) (packet : TxPacket) :
    Unsent { s with tx := s.tx.netTxWrite packet } := by
  refine ⟨h.counter, ?_⟩
  unfold TxSys.netTxWrite
  cases hmain : s.tx.main with
  | idle =>
    rcases h.sem with ⟨hsem, -, haccepted⟩ | ⟨hsem, -⟩
    · rw [if_pos (by omega), hsem]
      exact .inr ⟨rfl, .inl haccepted⟩
    · rw [if_neg (by omega)]
      exact .inr ⟨hsem, .inr hmain⟩
  | taken p | lenSet p =>
    rcases h.sem with ⟨-, hidle, -⟩ | ⟨hsem, haccepted | hidle⟩
    · exact absurd (hmain.symm.trans hidle) nofun
    · exact .inr ⟨hsem, .inl haccepted⟩
    · exact absurd (hmain.symm.trans hidle) nofun
  | copied p =>
    rcases h.sem with ⟨-, hidle, -⟩ | ⟨hsem, -⟩
    · exact absurd (hmain.symm.trans hidle) nofun
    · exact .inr ⟨hsem, .inr rfl⟩

theorem unsent_network {s : GprsTxSys} (h : Unsent s) :
    Unsent { s with tx := s.tx.networkThread } := by
  refine ⟨h.counter, ?_⟩
  unfold TxSys.networkThread
  cases s.tx.network with
  | idle =>
    dsimp only
    split
    · exact h.sem
    · exact h.sem
  | received => exact h.sem
  | lenSet => exact h.sem

theorem unsent_step (s : GprsTxSys) (e : GprsTxEvent) (h : Unsent s) :
    Unsent (gprsTxStep s e).1 := by
  cases e with
  | main packet => exact unsent_main h packet
  | network => exact unsent_network h
  | wireless line beyond clock =>
    refine ⟨?_, ?_⟩
    · exact (gprs_can _ s.gprs).counter.elim (fun heq => heq.trans h.counter) id
    · rw [show (gprsTxStep s (.wireless line beyond clock)).1.tx = s.tx from tx_poll ..]
      exact h.sem

/-- **The GPRS build.** In whatever state the machine is, a packet that has been accepted and
handled is not sent by the next call that finds no line, and the report `SEND OK` does not let
`net_tx_write` accept another one. -/
theorem gprs_never_transmits {config : IboxConfig} {es : List GprsTxEvent} {p : TxPacket}
    (hhandled : Handled (Machine.last gprsTxStep (.initial config) es) p)
    (beyond beyond' : List UInt8) (clock clock' : Nat → UInt32) :
    let s := Machine.last gprsTxStep (.initial config) es
    (∀ outs ∈ (gprsTxStep s (.wireless [] beyond clock)).2, ¬ SendsPacket p outs) ∧
      ((s.poll [] beyond clock).poll (ascii "SEND OK") beyond' clock').tx.netTxSem = 0 := by
  have hunsent : Unsent (Machine.last gprsTxStep (.initial config) es) :=
    Machine.run_invariant unsent_step (unsent_initial config) es
  intro s
  constructor
  · intro outs houts hsends
    rw [List.mem_singleton.mp houts] at hsends
    have hdata : .sendData p.bytes ∈ (gprsAtFsm (s.tx.input [] beyond clock) s.gprs).2 := by
      rw [hsends]
      simp
    exact not_sendData hunsent.counter _ _ hdata
  · rw [tx_poll, tx_poll]
    rcases hunsent.sem with ⟨-, -, haccepted⟩ | ⟨hsem, -⟩
    · have hlast := hhandled.1
      rw [haccepted] at hlast
      nomatch hlast
    · exact hsem

/-! The module connects, and a packet is written and handled. -/

def letterPacket : TxPacket := ⟨[97], by decide⟩

def gprsConnects : List GprsTxEvent :=
  (gprsReplies ++ [ascii "CONNECT OK"]).map (.wireless · [] fun _ => 0) ++
    List.replicate 4 (.main letterPacket) ++ List.replicate 3 .network

def gprsConnected : GprsTxSys := Machine.last gprsTxStep (.initial .initial) gprsConnects

theorem handled_letterPacket : Handled gprsConnected letterPacket :=
  ⟨by decide +kernel, rfl, by decide +kernel, by decide +kernel⟩

theorem gprs_never_transmits_letter :
    let s := Machine.last gprsTxStep (.initial .initial) gprsConnects
    (∀ outs ∈ (gprsTxStep s (.wireless [] [] fun _ => 0)).2, ¬ SendsPacket letterPacket outs) ∧
      ((s.poll [] [] fun _ => 0).poll (ascii "SEND OK") [] fun _ => 0).tx.netTxSem = 0 :=
  gprs_never_transmits handled_letterPacket [] [] (fun _ => 0) fun _ => 0

/-- The module is connected and may be sent to, and nothing happens. -/
theorem letter_not_sent :
    Handled gprsConnected letterPacket ∧ gprsConnected.gprs.status = .communicate ∧
      gprsConnected.gprs.sendFlag = true ∧
      (gprsTxStep gprsConnected (.wireless [] [] fun _ => 0)).2 = [[]] ∧
      ((gprsConnected.poll [] [] fun _ => 0).poll (ascii "SEND OK") [] fun _ => 0).tx.netTxSem =
        0 :=
  ⟨handled_letterPacket, by decide +kernel, by decide +kernel, by decide +kernel, by decide +kernel⟩

end IBoxClient
