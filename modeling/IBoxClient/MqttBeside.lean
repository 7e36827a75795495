import IBoxClient.ClockJump
import IBoxClient.Lib.Twin
import IBoxClient.MainThread
import IBoxClient.MqttQos2

/- The MQTT client in two runs, in one of which the clock is set.

   The client takes its timeouts from the ticks of the system, which nobody sets, and leaves the
   clock in seconds to the main thread. So its functions do the same in both runs: each of them
   is `Alike` with itself for the relation `Sys.Beside`, in which the environments differ in the
   readings of the clock and in the number of it that a report carries. -/
namespace IBoxClient

open Bytes Prog

/-! ## Environments -/

/-- A report fits into the send buffer. -/
def reportFits (msg : List UInt8) : Bool :=
  decide (mqttPacketLen (mqttSerializePublishLength 1 (.ofCString (ascii "mqtt/msg"))
    (msg.length % 65536)) ≤ 1024)

/-- The same but for the clock. The text of a report may be another, as the number of the clock
is in it, but it fits in both runs or in none. -/
structure EnvStep.Beside (e e' : EnvStep) : Prop where
  arrive : e'.arrive = e.arrive
  txOk : e'.txOk = e.txOk
  sysTimeMs : e'.sysTimeMs = e.sysTimeMs
  stale : e'.stale = e.stale
  report : e'.msg.map reportFits = e.msg.map reportFits

/-- The clock jumps after `n` interactions. -/
def JumpsAfter (δ : UInt32) (n : Nat) (env env' : Nat → EnvStep) : Prop :=
  ∀ k, (env' k).sysTimeS = jumpClock δ n (fun k => (env k).sysTimeS) k

theorem JumpsAfter.next {δ : UInt32} {n : Nat} {env env' : Nat → EnvStep}
    (h : JumpsAfter δ n env env') :
    JumpsAfter δ (n - 1) (fun k => env (k + 1)) fun k => env' (k + 1) := by
  intro k
  rw [h (k + 1), jumpClock, jumpClock]
  by_cases hk : k + 1 < n
  · rw [if_pos hk, if_pos (by omega)]
  · rw [if_neg hk, if_neg (by omega)]

/-- The network in the two runs. When `set` holds, the clock has been set. -/
structure Net.Beside (δ : UInt32) (set : Prop) (n n' : Net) : Prop where
  same : n' = { n with env := n'.env }
  env : ∀ k, (n.env k).Beside (n'.env k)
  clock : ∃ j, JumpsAfter δ j n.env n'.env
  jumped : set → JumpsAfter δ 0 n.env n'.env

section Network
variable {δ : UInt32} {set : Prop} {n n' : Net}

theorem foldl_arrive_env (chunks : List Chunk) (n : Net) (env : Nat → EnvStep) :
    chunks.foldl Net.arrive { n with env := env } =
      { chunks.foldl Net.arrive n with env := env } := by
  induction chunks generalizing n with
  | nil => rfl
  | cons c cs ih => exact ih (n.arrive c)

theorem Net.Beside.interact (h : n.Beside δ set n') :
    n.interact.1.Beside n'.interact.1 ∧ n.interact.2.Beside δ set n'.interact.2 := by
  obtain ⟨hsame, henv, ⟨j, hclock⟩, hjumped⟩ := h
  have hnext : n.interact.2.env = fun k => n.env (k + 1) := Net.arrivals_env _ _
  have hnext' : n'.interact.2.env = fun k => n'.env (k + 1) := Net.arrivals_env _ _
  refine ⟨henv 0, ?_, ?_, ⟨j - 1, ?_⟩, ?_⟩
  · have hbase : ({ n' with env := fun k => n'.env (k + 1) } : Net) =
        { n with env := fun k => n'.env (k + 1) } := by rw [hsame]
    calc n'.interact.2
        = (n'.env 0).arrive.foldl Net.arrive { n' with env := fun k => n'.env (k + 1) } := rfl
      _ = (n.env 0).arrive.foldl Net.arrive { n with env := fun k => n'.env (k + 1) } := by
          rw [(henv 0).arrive, hbase]
      _ = { n.interact.2 with env := fun k => n'.env (k + 1) } :=
          foldl_arrive_env (n.env 0).arrive { n with env := fun k => n.env (k + 1) } _
      _ = { n.interact.2 with env := n'.interact.2.env } := by rw [hnext']
  · intro k
    rw [hnext, hnext']
    exact henv (k + 1)
  · rw [hnext, hnext']
    exact hclock.next
  · intro hset
    rw [hnext, hnext']
    exact (hjumped hset).next

theorem Net.Beside.read (h : n.Beside δ set n') (count : Nat) :
    (n'.read count).1 = (n.read count).1 ∧ (n.read count).2.Beside δ set (n'.read count).2 := by
  obtain ⟨-, hsame, henv, hclock, hjumped⟩ := h.interact
  have hqueue : n'.interact.2.queue = n.interact.2.queue := by rw [hsame]
  refine ⟨?_, ?_, henv, hclock, hjumped⟩
  · show (n'.interact.2.queue.read count).1.map Cell.byte = _
    rw [hqueue]
    rfl
  · show ({ n'.interact.2 with
      queue := (n'.interact.2.queue.read count).2
      taken := n'.interact.2.taken ++ (n'.interact.2.queue.read count).1 } : Net) = _
    rw [hqueue, hsame]
    rfl

/-- A token is taken. -/
theorem Net.Beside.token (h : n.Beside δ set n') :
    ({ n with fifoSem := n.fifoSem - 1, taken := [] } : Net).Beside δ set
      { n' with fifoSem := n'.fifoSem - 1, taken := [] } :=
  ⟨by rw [h.same], h.env, h.clock, h.jumped⟩

end Network

/-! ## Reading a packet -/

section Reading
variable {σ : Type} {getfn : GetFn σ} {R : σ → σ → Prop}

/-- The results of two reads: the same values, and sources that are related. -/
def ReadBeside {α β : Type} (R : σ → σ → Prop) (r r' : α × β × σ) : Prop :=
  r'.1 = r.1 ∧ r'.2.1 = r.2.1 ∧ R r.2.2 r'.2.2

/-- Related sources yield the same bytes. -/
def YieldsAlike (getfn : GetFn σ) (R : σ → σ → Prop) : Prop :=
  ∀ s t n, R s t → (getfn t n).1 = (getfn s n).1 ∧ R (getfn s n).2 (getfn t n).2

theorem decodeLoop_beside (hget : YieldsAlike getfn R) (rounds len value multiplier : Nat) {s t : σ}
    (h : R s t) :
    ReadBeside R (decodeLoop getfn rounds len value multiplier s)
      (decodeLoop getfn rounds len value multiplier t) := by
  induction rounds generalizing len value multiplier s t with
  | zero => exact ⟨rfl, rfl, h⟩
  | succ rounds ih =>
    obtain ⟨hbytes, hnext⟩ := hget s t 1 h
    rw [decodeLoop, decodeLoop]
    generalize getfn s 1 = r at hbytes hnext ⊢
    generalize getfn t 1 = r' at hbytes hnext ⊢
    obtain ⟨bytes, s'⟩ := r
    obtain ⟨_, t'⟩ := r'
    cases hbytes
    rcases bytes with _ | ⟨c, _ | ⟨c', bytes⟩⟩
    · exact ⟨rfl, rfl, hnext⟩
    · dsimp only
      split
      · exact ih _ _ _ hnext
      · exact ⟨rfl, rfl, hnext⟩
    · exact ⟨rfl, rfl, hnext⟩

theorem readRest_beside (hget : YieldsAlike getfn R) (buf : List UInt8) (buflen : Nat)
    (header : UInt8) (remLen len : Nat) {s t : σ} (h : R s t) :
    ReadBeside R (readRest getfn buf buflen header remLen len s)
      (readRest getfn buf buflen header remLen len t) := by
  obtain ⟨hbytes, hnext⟩ := hget s t remLen h
  unfold readRest
  split
  · exact ⟨rfl, rfl, h⟩
  · split
    · dsimp only
      rw [hbytes]
      split
      · exact ⟨rfl, rfl, hnext⟩
      · exact ⟨rfl, rfl, hnext⟩
    · exact ⟨rfl, rfl, h⟩

/-- A packet is read alike from related sources. -/
theorem mqttPacketRead_beside (hget : YieldsAlike getfn R) (buf : List UInt8) (buflen : Nat)
    {s t : σ} (h : R s t) :
    ReadBeside R (mqttPacketRead getfn buf buflen s) (mqttPacketRead getfn buf buflen t) := by
  obtain ⟨hbytes, hnext⟩ := hget s t 1 h
  unfold mqttPacketRead
  generalize getfn s 1 = r at hbytes hnext ⊢
  generalize getfn t 1 = r' at hbytes hnext ⊢
  obtain ⟨bytes, s'⟩ := r
  obtain ⟨_, t'⟩ := r'
  cases hbytes
  match bytes with
  | [] => exact ⟨rfl, rfl, hnext⟩
  | [header] =>
    obtain ⟨-, hvalue, hdecoded⟩ := decodeLoop_beside hget 4 0 0 1 hnext
    have hvalue : (mqttPacketDecode getfn t').2.1 = (mqttPacketDecode getfn s').2.1 := hvalue
    dsimp only
    rw [hvalue]
    exact readRest_beside hget _ _ _ _ _ hdecoded
  | _ :: _ :: _ => exact ⟨rfl, rfl, hnext⟩

end Reading

/-! ## The client -/

variable {κ : Type}

/-- The entries of the two logs. Of packets that are sent, the first byte is the same. -/
inductive EntryBeside : Entry κ → Entry κ → Prop where
  | same (e : Entry κ) : EntryBeside e e
  | sent {packet packet' : List UInt8} (h : packet'.head? = packet.head?) (accepted : Bool)
    (arrived : Nat) (queued : List Cell) :
    EntryBeside (.sent packet accepted arrived queued) (.sent packet' accepted arrived queued)

/-- The system in the two runs. -/
structure Sys.Beside (δ : UInt32) (set : Prop) (s t : Sys κ) : Prop where
  client : t.client = { s.client with tickPing := t.client.tickPing }
  net : s.net.Beside δ set t.net
  strs : t.strs = s.strs
  log : List.Forall₂ EntryBeside s.log t.log
  bufSize : s.client.bufSize = 1024
  tick : TimerBeside δ set s.client.tickPing t.client.tickPing

/-- A change of the client that has nothing to do with the ping timer. -/
structure Timeless (f : MqttClient κ → MqttClient κ) : Prop where
  tick : ∀ c, (f c).tickPing = c.tickPing
  bufSize : ∀ c, (f c).bufSize = c.bufSize
  apart : ∀ c tick, f { c with tickPing := tick } = { f c with tickPing := tick }

namespace Sys.Beside

variable {δ : UInt32} {set : Prop} {s t : Sys κ}

/-- What is looked up in the client. -/
theorem field (h : s.Beside δ set t) {α : Type} (f : MqttClient κ → α)
    (hf : ∀ c tick, f { c with tickPing := tick } = f c) : f t.client = f s.client := by
  rw [h.client, hf]

theorem interact (h : s.Beside δ set t) :
    s.interact.1.Beside t.interact.1 ∧ s.interact.2.Beside δ set t.interact.2 := by
  obtain ⟨hstep, hnet⟩ := h.net.interact
  exact ⟨hstep, h.client, hnet, h.strs, h.log, h.bufSize, h.tick⟩

theorem setClient (h : s.Beside δ set t) {f : MqttClient κ → MqttClient κ} (hf : Timeless f) :
    (s.setClient f).Beside δ set (t.setClient f) where
  client := by
    show f t.client = { f s.client with tickPing := (f t.client).tickPing }
    rw [hf.tick, ← hf.apart, ← h.client]
  net := h.net
  strs := h.strs
  log := h.log
  bufSize := (hf.bufSize s.client).trans h.bufSize
  tick := by
    show TimerBeside δ set (f s.client).tickPing (f t.client).tickPing
    rw [hf.tick, hf.tick]
    exact h.tick

theorem record (h : s.Beside δ set t) {e e' : Entry κ} (he : EntryBeside e e') :
    (s.record e).Beside δ set (t.record e') :=
  ⟨h.client, h.net, h.strs, .cons he h.log, h.bufSize, h.tick⟩

end Sys.Beside

section Client
variable {δ : UInt32} {set : Prop}

theorem alike_getSysTimeMs :
    Alike (Sys.Beside δ set) (getSysTimeMs : Prog (Sys κ) UInt32) getSysTimeMs :=
  .act fun _ _ h => ⟨h.interact.1.sysTimeMs.symm, h.interact.2⟩

theorem alike_timeoutInit (count : UInt32) :
    Alike (Sys.Beside δ set) (timeoutInit count : Prog (Sys κ) UInt32) (timeoutInit count) :=
  .bind alike_getSysTimeMs fun _ => .pure _

theorem alike_getNextPacketId :
    Alike (Sys.Beside δ set) (getNextPacketId : Prog (Sys κ) Nat) getNextPacketId := by
  apply Alike.act
  intro s t h
  have hid := h.field MqttClient.nextPacketid fun _ _ => rfl
  dsimp only
  rw [hid]
  exact ⟨rfl, h.setClient ⟨fun _ => rfl, fun _ => rfl, fun _ _ => rfl⟩⟩

/-- Two packets with the same first byte are sent. -/
theorem alike_sendPacket {packet packet' : List UInt8} (hhead : packet'.head? = packet.head?) :
    Alike (Sys.Beside δ set) (sendPacket packet : Prog (Sys κ) Int) (sendPacket packet') := by
  apply Alike.act
  intro s t h
  obtain ⟨hstep, hnext⟩ := h.interact
  have hsame := hnext.net.same
  have hstream : t.interact.2.net.stream = s.interact.2.net.stream := by rw [hsame]
  have hqueue : t.interact.2.net.queue = s.interact.2.net.queue := by rw [hsame]
  dsimp only
  rw [hstep.txOk, hstream, hqueue]
  exact ⟨rfl, hnext.record (.sent hhead _ _ _)⟩

/-- What a read of a packet leaves behind. -/
def Sys.store (s : Sys κ) (r : Int × List UInt8 × Net) : Sys κ :=
  { s with
    client := { s.client with readbuf := r.2.1 }
    net := r.2.2
    log := .read r.2.2.taken r.1 :: s.log }

theorem Sys.Beside.store {s t : Sys κ} (h : s.Beside δ set t) {r r' : Int × List UInt8 × Net}
    (hr : ReadBeside (fun n n' => n.Beside δ set n') r r') :
    (s.store r).Beside δ set (t.store r') := by
  obtain ⟨rc, buf, n⟩ := r
  obtain ⟨_, _, n'⟩ := r'
  obtain ⟨hrc, hbuf, hnet⟩ := hr
  cases hrc
  cases hbuf
  have hset := h.setClient (f := fun c => { c with readbuf := buf })
    ⟨fun _ => rfl, fun _ => rfl, fun _ _ => rfl⟩
  have hsame : n' = { n with env := n'.env } := hnet.same
  have htaken : n'.taken = n.taken := by rw [hsame]
  refine ⟨hset.client, hnet, h.strs, ?_, h.bufSize, h.tick⟩
  show List.Forall₂ EntryBeside (.read n.taken rc :: s.log) (.read n'.taken rc :: t.log)
  rw [htaken]
  exact .cons (.same _) h.log

theorem alike_readPacket :
    Alike (Sys.Beside δ set) (readPacket : Prog (Sys κ) Int) readPacket := by
  intro s t h
  obtain ⟨-, hnext⟩ := h.interact
  have hsem : t.interact.2.net.fifoSem = s.interact.2.net.fifoSem := by rw [hnext.net.same]
  have hreadbuf := h.field MqttClient.readbuf fun _ _ => rfl
  have hsize := h.field MqttClient.readbufSize fun _ _ => rfl
  rcases Nat.eq_zero_or_pos s.interact.2.net.fifoSem with hidle | htoken
  · rw [readPacket_idle hidle, readPacket_idle (hsem.trans hidle)]
    exact .returned ⟨rfl, hnext⟩
  · have hyields : YieldsAlike Net.read fun n n' => n.Beside δ set n' := fun _ _ n h => h.read n
    have hread := mqttPacketRead_beside hyields s.client.readbuf s.client.readbufSize hnext.net.token
    have hright : mqttPacketRead Net.read s.client.readbuf s.client.readbufSize
        { t.interact.2.net with fifoSem := t.interact.2.net.fifoSem - 1, taken := [] } =
        mqttPacketRead Net.read t.client.readbuf t.client.readbufSize
          { t.interact.2.net with fifoSem := t.interact.2.net.fifoSem - 1, taken := [] } := by
      rw [hreadbuf, hsize]
    rw [hright] at hread
    have hrc := hread.1
    rw [readPacket_token htoken, readPacket_token (hsem ▸ htoken)]
    exact .returned ⟨hrc.symm, h.store hread⟩

theorem alike_closeSession :
    Alike (Sys.Beside δ set) (mqttCloseSession : Prog (Sys κ) Unit) mqttCloseSession := by
  intro s t h
  have hsame := h.net.same
  have hstream : t.net.stream = s.net.stream := by rw [hsame]
  have hqueue : t.net.queue = s.net.queue := by rw [hsame]
  rw [run_closeSession s, run_closeSession t, closeSession_state, closeSession_state, hstream,
    hqueue]
  refine .returned ⟨rfl, Sys.Beside.record ?_ (.same _)⟩
  exact h.setClient ⟨fun _ => rfl, fun _ => rfl, fun _ _ => rfl⟩

theorem alike_setMessageHandler (topicFilter : Nat) (messageHandler : Option κ) :
    Alike (Sys.Beside δ set) (mqttSetMessageHandler topicFilter messageHandler)
      (mqttSetMessageHandler topicFilter messageHandler) := by
  apply Alike.act
  intro s t h
  have hslots := h.field MqttClient.messageHandlers fun _ _ => rfl
  have hset : ∀ slots : List (MessageHandlers κ),
      (s.setClient fun c => { c with messageHandlers := slots }).Beside δ set
        (t.setClient fun c => { c with messageHandlers := slots }) :=
    fun slots => h.setClient ⟨fun _ => rfl, fun _ => rfl, fun _ _ => rfl⟩
  dsimp only
  rw [hslots, h.strs]
  split
  · exact ⟨rfl, hset _⟩
  · exact ⟨rfl, hset _⟩
  · exact ⟨rfl, h⟩
  · split
    · exact ⟨rfl, hset _⟩
    · exact ⟨rfl, h⟩

theorem alike_keepalive :
    Alike (Sys.Beside δ set) (keepalive : Prog (Sys κ) Int) keepalive := by
  apply Alike.look
  intro s t h
  have hinterval := h.field MqttClient.keepAliveInterval fun _ _ => rfl
  have hping := h.field MqttClient.pingOutstanding fun _ _ => rfl
  have hbuf := h.field MqttClient.bufSize fun _ _ => rfl
  rw [hinterval, hping, hbuf]
  refine .ite (fun _ => .pure _) fun _ => .ite (fun _ => .pure _) fun _ => ?_
  cases mqttSerializePingreq s.client.bufSize with
  | error _ => exact .pure _
  | ok packet =>
    refine .bind (alike_sendPacket rfl) fun rc => .ite (fun _ => ?_) fun _ => .pure _
    refine .bind alike_getSysTimeMs fun now => .bind (.change fun s t h => ?_) fun _ => .pure _
    -- the ticks are the same in both runs
    exact ⟨by
      show ({ t.client with tickPing := now, pingOutstanding := 0 } : MqttClient κ) = _
      rw [h.client]
      rfl, h.net, h.strs, h.log, h.bufSize, .inl rfl⟩

theorem alike_waitfor (packetType : Nat) (timeout : UInt32) (polls : Nat) :
    Alike (Sys.Beside δ set) (waitfor packetType timeout polls : Prog (Sys κ) Int)
      (waitfor packetType timeout polls) := by
  induction polls with
  | zero => exact .pause
  | succ polls ih =>
    refine .bind alike_readPacket fun rc => .ite (fun _ => .pure _) fun _ => ?_
    exact .bind alike_getSysTimeMs fun now => .ite (fun _ => ih) fun _ => .pure _

theorem alike_requestExit (rc : Int) :
    Alike (Sys.Beside δ set) (requestExit rc : Prog (Sys κ) Int) (requestExit rc) :=
  .ite (fun _ => .bind alike_closeSession fun _ => .pure _) fun _ => .pure _

theorem alike_connectExit (rc : Int) :
    Alike (Sys.Beside δ set) (connectExit rc : Prog (Sys κ) Int) (connectExit rc) := by
  refine .ite (fun _ => .bind (.change fun s t h => ?_) fun _ => .pure _) fun _ => .pure _
  refine Sys.Beside.record ?_ (.same _)
  exact h.setClient ⟨fun _ => rfl, fun _ => rfl, fun _ _ => rfl⟩

theorem alike_connectWithResults (polls : Nat) (options : Option ConnectData) :
    Alike (Sys.Beside δ set) (mqttConnectWithResults polls options : Prog (Sys κ) Int)
      (mqttConnectWithResults polls options) := by
  apply Alike.look
  intro s t h
  have hopen := h.field MqttClient.isconnected fun _ _ => rfl
  have hbuf := h.field MqttClient.bufSize fun _ _ => rfl
  rw [hopen, hbuf]
  refine .ite (fun _ => alike_connectExit _) fun _ => .bind (.change fun s t h => ?_) fun _ => ?_
  · exact h.setClient ⟨fun _ => rfl, fun _ => rfl, fun _ _ => rfl⟩
  · cases mqttSerializeConnect s.client.bufSize (options.getD connectDataInitializer) with
    | error _ => exact alike_connectExit _
    | ok packet =>
      refine .bind (alike_sendPacket rfl) fun rc => .ite (fun _ => alike_connectExit _) fun _ => ?_
      refine .bind (alike_timeoutInit _) fun timeout => .bind (alike_waitfor _ _ _) fun type => ?_
      refine .ite (fun _ => .look fun s t h => ?_) fun _ => alike_connectExit _
      have hreadbuf := h.field MqttClient.readbuf fun _ _ => rfl
      rw [hreadbuf]
      exact alike_connectExit _

theorem alike_connect (polls : Nat) :
    Alike (Sys.Beside δ set) (mqttConnect polls : Prog (Sys κ) Int) (mqttConnect polls) := by
  apply Alike.look
  intro s t h
  have hcondata := h.field MqttClient.condata fun _ _ => rfl
  rw [hcondata]
  exact alike_connectWithResults _ _

theorem alike_subscribe (polls topicFilter qos : Nat) (messageHandler : κ) :
    Alike (Sys.Beside δ set) (mqttSubscribe polls topicFilter qos messageHandler)
      (mqttSubscribe polls topicFilter qos messageHandler) := by
  apply Alike.look
  intro s t h
  have hopen := h.field MqttClient.isconnected fun _ _ => rfl
  have hbuf := h.field MqttClient.bufSize fun _ _ => rfl
  rw [hopen, hbuf, h.strs]
  refine .ite (fun _ => alike_requestExit _) fun _ => .bind alike_getNextPacketId fun id => ?_
  cases mqttSerializeSubscribe s.client.bufSize 0 id (.ofCString (s.strs topicFilter)) qos with
  | error _ => exact alike_requestExit _
  | ok packet =>
    refine .bind (alike_sendPacket rfl) fun rc => .ite (fun _ => alike_requestExit _) fun _ => ?_
    refine .bind (alike_timeoutInit _) fun timeout => .bind (alike_waitfor _ _ _) fun type => ?_
    refine .ite (fun _ => .look fun s t h => ?_) fun _ => alike_requestExit _
    have hreadbuf := h.field MqttClient.readbuf fun _ _ => rfl
    rw [hreadbuf]
    refine .ite (fun _ => ?_) fun _ => alike_requestExit _
    exact .bind (alike_setMessageHandler _ _) fun rc => alike_requestExit _

theorem alike_disconnect :
    Alike (Sys.Beside δ set) (mqttDisconnect : Prog (Sys κ) Int) mqttDisconnect := by
  apply Alike.look
  intro s t h
  have hbuf := h.field MqttClient.bufSize fun _ _ => rfl
  rw [hbuf]
  cases mqttSerializeDisconnect s.client.bufSize with
  | error _ => exact .bind alike_closeSession fun _ => .pure _
  | ok packet =>
    exact .bind (alike_sendPacket rfl) fun rc => .bind alike_closeSession fun _ => .pure _

theorem alike_publishWait (polls ack : Nat) (timeout : UInt32) (rc : Int) :
    Alike (Sys.Beside δ set) (publishWait polls ack timeout rc : Prog (Sys κ) Int)
      (publishWait polls ack timeout rc) := by
  refine .bind (alike_waitfor _ _ _) fun type => .ite (fun _ => .look fun s t h => ?_) fun _ =>
    alike_requestExit _
  have hreadbuf := h.field MqttClient.readbuf fun _ _ => rfl
  have hstale : (t.net.env 0).stale = (s.net.env 0).stale := (h.net.env 0).stale
  rw [hreadbuf, hstale]
  exact alike_requestExit _

/-- The reports of the two runs, as messages: they differ in their text. -/
structure ReportBeside (m m' : MqttMessage) : Prop where
  qos : m.qos = 1
  qos' : m'.qos = 1
  retained : m'.retained = m.retained
  fits : mqttPacketLen (mqttSerializePublishLength 1 (.ofCString (ascii "mqtt/msg"))
      m.payload.length) > 1024 ↔
    mqttPacketLen (mqttSerializePublishLength 1 (.ofCString (ascii "mqtt/msg"))
      m'.payload.length) > 1024

theorem alike_publish (polls : Nat) {m m' : MqttMessage} (hm : ReportBeside m m') :
    Alike (Sys.Beside δ set) (mqttPublish polls (ascii "mqtt/msg") m : Prog (Sys κ) Int)
      (mqttPublish polls (ascii "mqtt/msg") m') := by
  obtain ⟨hqos, hqos', hretained, hfits⟩ := hm
  apply Alike.look
  intro s t h
  have hopen := h.field MqttClient.isconnected fun _ _ => rfl
  have hbuf := h.field MqttClient.bufSize fun _ _ => rfl
  have hid : ∀ {m : MqttMessage}, m.qos = 1 →
      (publishId m : Prog (Sys κ) Nat) = getNextPacketId := fun h => if_pos (.inl h)
  rw [hopen, hbuf, h.bufSize, hqos, hqos', hretained, hid hqos, hid hqos']
  refine .ite (fun _ => alike_requestExit _) fun _ => .bind alike_getNextPacketId fun id => ?_
  unfold mqttSerializePublish
  dsimp only
  by_cases htoo : mqttPacketLen (mqttSerializePublishLength 1 (.ofCString (ascii "mqtt/msg"))
      m.payload.length) > 1024
  · rw [if_pos htoo, if_pos (hfits.mp htoo)]
    exact alike_requestExit _
  · rw [if_neg htoo, if_neg fun h => htoo (hfits.mpr h)]
    refine .bind (alike_sendPacket rfl) fun rc => .ite (fun _ => alike_requestExit _) fun _ => ?_
    apply Alike.bind (alike_timeoutInit _)
    intro timeout
    rw [if_pos rfl]
    exact alike_publishWait _ _ _ _

section Cycle
variable [Callback κ]

theorem Sys.Beside.call {s t : Sys κ} (h : s.Beside δ set t) (callback : κ)
    (message : PublishData) : (s.call callback message).Beside δ set (t.call callback message) := by
  refine Sys.Beside.record ?_ (.same _)
  exact h.setClient ⟨fun _ => rfl, fun _ => rfl, fun _ _ => rfl⟩

theorem deliverSlots_beside (message : PublishData) (slots : List (MessageHandlers κ)) (rc : Int)
    {s t : Sys κ} (h : s.Beside δ set t) :
    (slots.foldl (deliverSlot message) (rc, t)).1 = (slots.foldl (deliverSlot message) (rc, s)).1 ∧
      (slots.foldl (deliverSlot message) (rc, s)).2.Beside δ set
        (slots.foldl (deliverSlot message) (rc, t)).2 := by
  induction slots generalizing rc s t with
  | nil => exact ⟨rfl, h⟩
  | cons slot slots ih =>
    rw [List.foldl_cons, List.foldl_cons, deliverSlot_eq, deliverSlot_eq, h.strs]
    cases slot.fitting s.strs message.topicName with
    | none => exact ih rc h
    | some callback => exact ih mqttSuccess (h.call callback message)

theorem alike_deliverMessage (message : PublishData) :
    Alike (Sys.Beside δ set) (deliverMessage message : Prog (Sys κ) Int)
      (deliverMessage message) := by
  apply Alike.act
  intro s t h
  have hslots := h.field MqttClient.messageHandlers fun _ _ => rfl
  have hdefault := h.field MqttClient.defaultMessageHandler fun _ _ => rfl
  obtain ⟨hrc, hnext⟩ := deliverSlots_beside message s.client.messageHandlers mqttFailure h
  dsimp only
  rw [hslots, hdefault, hrc]
  split
  · split
    · exact ⟨rfl, hnext.call _ _⟩
    · exact ⟨hrc.symm, hnext⟩
  · exact ⟨hrc.symm, hnext⟩

omit [Callback κ] in
theorem alike_sendAck (packettype packetid : Nat) :
    Alike (Sys.Beside δ set) (sendAck packettype packetid : Prog (Sys κ) Int)
      (sendAck packettype packetid) := by
  apply Alike.look
  intro s t h
  have hbuf := h.field MqttClient.bufSize fun _ _ => rfl
  rw [hbuf]
  cases mqttSerializeAck s.client.bufSize packettype 0 packetid with
  | error _ => exact .pure _
  | ok packet => exact alike_sendPacket rfl

theorem alike_cyclePublish :
    Alike (Sys.Beside δ set) (cyclePublish : Prog (Sys κ) Int) cyclePublish := by
  apply Alike.look
  intro s t h
  have hreadbuf := h.field MqttClient.readbuf fun _ _ => rfl
  have hstale : (t.net.env 0).stale = (s.net.env 0).stale := (h.net.env 0).stale
  rw [hreadbuf, hstale]
  refine .ite (fun _ => .pure _) fun _ => .bind (alike_deliverMessage _) fun rc => ?_
  refine .ite (fun _ => .pure _) fun _ => .ite (fun _ => alike_sendAck _ _) fun _ => ?_
  exact .ite (fun _ => alike_sendAck _ _) fun _ => .pure _

omit [Callback κ] in
theorem alike_cycleAck (packetType : Int) :
    Alike (Sys.Beside δ set) (cycleAck packetType : Prog (Sys κ) Int) (cycleAck packetType) := by
  apply Alike.look
  intro s t h
  have hreadbuf := h.field MqttClient.readbuf fun _ _ => rfl
  have hstale : (t.net.env 0).stale = (s.net.env 0).stale := (h.net.env 0).stale
  rw [hreadbuf, hstale]
  exact .ite (fun _ => .pure _) fun _ => alike_sendAck _ _

theorem alike_cycleSwitch (packetType : Int) :
    Alike (Sys.Beside δ set) (cycleSwitch packetType : Prog (Sys κ) Int)
      (cycleSwitch packetType) := by
  refine .ite (fun _ => .pure _) fun _ => .ite (fun _ => .pure _) fun _ => ?_
  refine .ite (fun _ => alike_cyclePublish) fun _ => .ite (fun _ => alike_cycleAck _) fun _ => ?_
  refine .ite (fun _ => .pure _) fun _ => .ite (fun _ => ?_) fun _ => .pure _
  refine .bind (.change fun s t h => ?_) fun _ => .pure _
  exact h.setClient ⟨fun _ => rfl, fun _ => rfl, fun _ _ => rfl⟩

theorem alike_mqttCycle :
    Alike (Sys.Beside δ set) (mqttCycle : Prog (Sys κ) Int) mqttCycle := by
  refine .bind alike_readPacket fun packetType => .bind (alike_cycleSwitch _) fun rc => ?_
  refine .ite (fun _ => .pure _) fun _ => .look fun s t h => ?_
  have hopen := h.field MqttClient.isconnected fun _ _ => rfl
  rw [hopen]
  exact .ite (fun _ => .bind alike_closeSession fun _ => .pure _) fun _ => .pure _

end Cycle

end Client

end IBoxClient
