import IBoxClient.WifiTx

/- How often a packet is transmitted.

   Each step on the way of a packet uses up what the step before it has left: the network
   thread an event, the state machine `wifi_tx_len` together with `wifi_send_flag`. Lines
   of the module, whether true or not, only take away from that: `SEND OK` sets the flag,
   but clears the length. So nothing is transmitted more often than it was handed over,
   and nothing is handed over more often than it was written: `sent_at_most_once`. -/
namespace IBoxClient

/-- The three threads, with the number of times `wifi_tx_len` has been set by the network
thread. -/
structure TxCount where
  sys : TxSys
  handed : Nat

def TxCount.initial (config : IboxConfig) : TxCount := ⟨.initial config, 0⟩

/-- Whether the step executes `wifi_tx_len = net_tx_len`. -/
def TxSys.handsLength (s : TxSys) : TxEvent → Bool
  | .network => s.network == .received
  | _ => false

def countStep (c : TxCount) (e : TxEvent) : TxCount × List (List WifiOut) :=
  (⟨(txStep c.sys e).1, if c.sys.handsLength e then c.handed + 1 else c.handed⟩,
    (txStep c.sys e).2)

/-- A packet is waiting in `uart3_tx_buf` for the state machine. -/
def Wifi.waiting (w : Wifi) : Nat := if w.txLen ≠ 0 ∧ w.sendFlag = true then 1 else 0

/-- The events that the network thread has not answered yet. -/
def TxSys.pending (s : TxSys) : Nat :=
  (if s.txEvent then 1 else 0) + if s.network = .received then 1 else 0

/-- The invariant. -/
structure Counted (c : TxCount) : Prop where
  sent : c.sys.transmitted + c.sys.wifi.waiting ≤ c.handed
  handed : c.handed + c.sys.pending ≤ c.sys.accepted.length

theorem Wifi.waiting_le (w : Wifi) : w.waiting ≤ 1 := by
  unfold waiting
  split <;> omega

/-- A call transmits at most what is waiting. -/
theorem waiting_step {i : WifiInput} {w : Wifi} {step : WifiStep} (hstep : FsmStep i w step) :
    step.2.countP WifiOut.isSendData + step.1.waiting ≤ w.waiting := by
  have hcleared : ∀ w' : Wifi, w'.sendFlag = false → w'.waiting = 0 := by
    intro w' hflag
    simp [Wifi.waiting, hflag]
  have hready : w.txLen ≠ 0 → w.sendFlag = true → w.waiting = 1 := by
    intro hlen hflag
    simp [Wifi.waiting, hlen, hflag]
  have hsend : ∀ len txBuf, (esp8266SendData len txBuf).countP WifiOut.isSendData = 1 :=
    fun _ _ => rfl
  cases hstep with
  | quiet _ _ hquiet =>
    have hsame : step.1.waiting = w.waiting := by
      simp only [Wifi.waiting, hquiet.len, hquiet.flag]
    rw [(count_plain hquiet.plain).1, hsame, Nat.zero_add]
  | lost => exact Nat.le_of_eq (Nat.zero_add _)
  | acknowledged => exact Nat.zero_le _
  | data =>
    rw [(count_ipdMessage i).1, Nat.zero_add]
  | send _ _ hlen hflag =>
    rw [hsend, hready hlen hflag, hcleared _ rfl]
  | sendLate _ _ hlen hflag =>
    rw [hsend, hready hlen hflag, hcleared _ rfl]
  | timeout => exact Nat.le_of_eq (Nat.zero_add _)
  | idle => exact Nat.le_of_eq (Nat.zero_add _)

theorem counted_main {c : TxCount} (h : Counted c) (packet : TxPacket) :
    Counted (countStep c (.main packet)).1 := by
  obtain ⟨hsent, hhanded⟩ := h
  simp only [countStep, txStep, TxSys.handsLength, Bool.false_eq_true, if_false, TxSys.netTxWrite]
  split
  · split
    · exact ⟨hsent, hhanded⟩
    · exact ⟨hsent, hhanded⟩
  · exact ⟨hsent, hhanded⟩
  · exact ⟨hsent, hhanded⟩
  · refine ⟨hsent, ?_⟩
    -- one more packet, and at most one more event: two of them may have become one
    simp only [TxSys.pending, List.length_append, List.length_singleton, if_true] at hhanded ⊢
    split at hhanded <;> omega

theorem counted_network {c : TxCount} (h : Counted c) : Counted (countStep c .network).1 := by
  obtain ⟨hsent, hhanded⟩ := h
  cases hnet : c.sys.network with
  | idle =>
    simp only [TxSys.pending, hnet] at hhanded
    cases hevent : c.sys.txEvent with
    | false =>
      simp only [countStep, txStep, TxSys.handsLength, TxSys.networkThread, hnet, hevent]
      exact ⟨hsent, by simpa [TxSys.pending, hnet] using hhanded⟩
    | true =>
      simp only [countStep, txStep, TxSys.handsLength, TxSys.networkThread, hnet, hevent]
      exact ⟨hsent, by simpa [TxSys.pending, hevent] using hhanded⟩
  | received =>
    simp only [TxSys.pending, hnet, if_true] at hhanded
    simp only [countStep, txStep, TxSys.handsLength, TxSys.networkThread, hnet]
    refine ⟨?_, ?_⟩
    · -- whatever was waiting before, now it is one packet at most
      simp only [beq_self_eq_true, if_true]
      exact Nat.add_le_add (Nat.le_trans (Nat.le_add_right _ _) hsent) (Wifi.waiting_le _)
    · simp only [TxSys.pending, beq_self_eq_true, if_true, reduceCtorEq, if_false]
      omega
  | lenSet =>
    simp only [TxSys.pending, hnet] at hhanded
    simp only [countStep, txStep, TxSys.handsLength, TxSys.networkThread, hnet]
    exact ⟨hsent, by simpa [TxSys.pending] using hhanded⟩

theorem counted_step (c : TxCount) (e : TxEvent) (h : Counted c) : Counted (countStep c e).1 := by
  cases e with
  | main packet => exact counted_main h packet
  | network => exact counted_network h
  | wireless origin line beyond clock =>
    obtain ⟨hsent, hhanded⟩ := h
    have hwaiting := waiting_step (fsm_step (c.sys.input line beyond clock) c.sys.wifi)
    refine ⟨?_, hhanded⟩
    simp only [countStep, txStep, TxSys.handsLength, TxSys.called, Bool.false_eq_true, if_false]
    omega

end IBoxClient
