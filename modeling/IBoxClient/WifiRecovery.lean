import IBoxClient.WifiTx

/- The transmitter after the link has been lost.

   `wifi_send_flag` is cleared when a packet is sent and set again on `SEND OK`, nowhere
   else: the line that set it on a send timeout is commented out. If the link is given
   up while a packet is unacknowledged, it comes up again with the flag cleared, and
   nothing is ever sent again.

   As long as the link is not given up in such a moment (`Muting`), it comes up with the
   flag set, and what is pending is sent: `link_recovers`. -/
namespace IBoxClient

open Bytes

/-- The link is given up while a packet is unacknowledged: on `CLOSED` or `ERROR`, on a
send timeout, or in the call that sends, if the clock has run on by then. -/
def Muting (s : TxSys) : TxEvent → Prop
  | .wireless _ line beyond clock =>
    s.wifi.status = .communicate ∧
      (line ≠ [] ∧ s.wifi.sendFlag = false ∧ ((s.input line beyond clock).has "CLOSED" ∨
          (s.input line beyond clock).has "ERROR") ∨
        line = [] ∧ s.wifi.sendFlag = false ∧ clock 0 - s.wifi.timeout > 5 ∨
        line = [] ∧ s.wifi.sendFlag = true ∧ s.wifi.txLen ≠ 0 ∧ clock 1 - clock 0 > 5)
  | _ => False

/-- The link comes up with the flag set, and the first call after it that finds no line
sends the packet that is pending. -/
def Recovers (s : TxSys) : TxEvent → Prop
  | .wireless _ line beyond clock =>
    (s.wifi.status = .waitLinkServer →
      (esp8266AtFsm (s.input line beyond clock) s.wifi).1.status = .communicate →
      (esp8266AtFsm (s.input line beyond clock) s.wifi).1.sendFlag = true) ∧
    (s.wifi.status = .communicate → s.silent = true → line = [] → s.wifi.txLen ≠ 0 →
      (esp8266AtFsm (s.input line beyond clock) s.wifi).2 =
        esp8266SendData s.wifi.txLen s.uart3TxBuf)
  | _ => True

/-- The invariant: the flag is cleared only while the link is up and something has been
sent over it. -/
def Audible (s : TxSys) : Prop :=
  s.wifi.sendFlag = false → s.wifi.status = .communicate ∧ s.silent = false

theorem audible_called {s : TxSys} {origin : LineOrigin} {line beyond : List UInt8}
    {clock : Nat → UInt32} (h : Audible s)
    (hnot : ¬ Muting s (.wireless origin line beyond clock)) {step : WifiStep}
    (hstep : FsmStep (s.input line beyond clock) s.wifi step) :
    Audible (s.called origin (s.input line beyond clock) step) := by
  intro hflag
  cases hstep with
  | quiet _ hstatus hquiet => exact absurd (h (hquiet.flag.symm.trans hflag)).1 hstatus
  | lost _ hstatus hline hlost => exact absurd ⟨hstatus, .inl ⟨hline, hflag, hlost⟩⟩ hnot
  | acknowledged => cases hflag
  | data hstatus =>
    obtain ⟨-, hsilent⟩ := h hflag
    exact ⟨hstatus, by simp [TxSys.called, hstatus, hsilent]⟩
  | send hstatus =>
    exact ⟨hstatus, by simp [TxSys.called, hstatus, esp8266SendData, WifiOut.isSendData]⟩
  | sendLate hstatus hline hlen hf hclock =>
    exact absurd ⟨hstatus, .inr (.inr ⟨hline, hf, hlen, hclock⟩)⟩ hnot
  | timeout hstatus hline hf hclock =>
    exact absurd ⟨hstatus, .inr (.inl ⟨hline, hf, hclock⟩)⟩ hnot
  | idle hstatus =>
    -- the link is up before and after, so it stays as silent as it was
    obtain ⟨-, hsilent⟩ := h hflag
    exact ⟨hstatus, by simp [TxSys.called, hstatus, hsilent]⟩

theorem audible_step {s : TxSys} {e : TxEvent} (h : Audible s) (hnot : ¬ Muting s e) :
    Audible (txStep s e).1 := by
  cases e with
  | main packet =>
    have hsame : (s.netTxWrite packet).wifi = s.wifi ∧ (s.netTxWrite packet).silent = s.silent := by
      unfold TxSys.netTxWrite
      split
      · split <;> exact ⟨rfl, rfl⟩
      all_goals exact ⟨rfl, rfl⟩
    simp only [txStep, Audible, hsame]
    exact h
  | network =>
    have hsame : s.networkThread.wifi.sendFlag = s.wifi.sendFlag ∧
        s.networkThread.wifi.status = s.wifi.status ∧ s.networkThread.silent = s.silent := by
      unfold TxSys.networkThread
      split
      · split <;> exact ⟨rfl, rfl, rfl⟩
      all_goals exact ⟨rfl, rfl, rfl⟩
    simp only [txStep, Audible, hsame]
    exact h
  | wireless origin line beyond clock => exact audible_called h hnot (fsm_step _ _)

theorem recovers_step {s : TxSys} {e : TxEvent} (h : Audible s) : Recovers s e := by
  cases e with
  | main packet => trivial
  | network => trivial
  | wireless origin line beyond clock =>
    have hstep := fsm_step (s.input line beyond clock) s.wifi
    constructor
    · intro hstatus _
      have hstay : s.wifi.status ≠ .communicate := by
        rw [hstatus]
        decide
      have hflag : s.wifi.sendFlag = true := by
        rw [← Bool.not_eq_false]
        exact fun hf => hstay (h hf).1
      rw [(quiet_step hstay).flag, hflag]
    · intro hstatus hsilent hline hlen
      have hflag : s.wifi.sendFlag = true := by
        rw [← Bool.not_eq_false]
        intro hf
        rw [(h hf).2] at hsilent
        cases hsilent
      generalize esp8266AtFsm (s.input line beyond clock) s.wifi = step at hstep ⊢
      cases hstep with
      | quiet _ hne => exact absurd hstatus hne
      | lost _ _ hne => exact absurd hline hne
      | acknowledged _ hne => exact absurd hline hne
      | data _ hne => exact absurd hline hne
      | send => rfl
      | sendLate => rfl
      | timeout _ _ hf =>
        rw [hf] at hflag
        cases hflag
      | idle _ _ hidle => exact absurd (hidle hflag) hlen

instance (s : TxSys) : DecidablePred (Muting s)
  | .wireless _ line beyond clock => inferInstanceAs (Decidable (s.wifi.status = .communicate ∧
      (line ≠ [] ∧ s.wifi.sendFlag = false ∧ ((s.input line beyond clock).has "CLOSED" ∨
          (s.input line beyond clock).has "ERROR") ∨
        line = [] ∧ s.wifi.sendFlag = false ∧ clock 0 - s.wifi.timeout > 5 ∨
        line = [] ∧ s.wifi.sendFlag = true ∧ s.wifi.txLen ≠ 0 ∧ clock 1 - clock 0 > 5)))
  | .main _ | .network => .isFalse id

/-- A packet is sent. -/
def pingSent : List TxEvent := linkUp ++ written ++ [.network, .network, .network, callOn ""]

/-- The server closes the connection, and it is made again. -/
def reconnect : List TxEvent := [callOn "CLOSED", callOn "", callOn "", callOn "CONNECT"]

end IBoxClient
