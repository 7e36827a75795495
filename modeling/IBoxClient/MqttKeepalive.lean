import IBoxClient.Lib.Machine
import IBoxClient.MqttEffects

/- The keepalive of the MQTT client.

   `keepalive` is meant to send a `PINGREQ` and to remember in `ping_outstanding` that
   it waits for the answer; a call that finds it set reports a dead peer. But after
   sending it stores 0 there, so nothing ever sets `ping_outstanding`
   (`setUp_step`), and every call pings again. A missing answer therefore
   goes unnoticed unless the packet cannot be sent: `keepalive_detects_iff`.

   A run is a list of client calls. Along with it goes what has become of the last
   `PINGREQ` of the session. -/
namespace IBoxClient

variable {κ : Type} [Callback κ]

/-- What has become of the last `PINGREQ` of the session, if there was one. -/
inductive Ping where
  | none
  | unanswered
  | answered
  deriving DecidableEq

/-- A client in use. A call that has not come back keeps it `waiting` for good. -/
structure PingRun (κ : Type) where
  sys : Sys κ
  ping : Ping
  waiting : Bool

/-- The two bytes of a `PINGREQ`. -/
def pingreq : List UInt8 := [192, 0]

/-- A `PINGREQ` is sent by a keepalive and answered in a cycle; the end of a session
is the end of its pings. -/
def pingAfter (call : ClientCall κ) (s s' : Sys κ) (rc : Int) (ping : Ping) : Ping :=
  if ¬ s'.client.isconnected then .none
  else
    match call with
    | .keepalive =>
      if packetsSent s'.log = pingreq :: packetsSent s.log then .unanswered else ping
    | .cycle => if rc = PINGRESP ∧ ping = .unanswered then .answered else ping
    | _ => ping

def pingStep (r : PingRun κ) (call : ClientCall κ) : PingRun κ × List Unit :=
  if r.waiting then (r, [])
  else
    match call.run r.sys with
    | (some rc, s) => (⟨s, pingAfter call r.sys s rc r.ping, false⟩, [])
    | (none, s) => (⟨s, r.ping, true⟩, [])

/-- A client that has not been used yet. -/
def pingStart (condata : ConnectData) (readbuf : List UInt8) (defaultMessageHandler : κ)
    (net : Net) (strs : Nat → List UInt8) : PingRun κ :=
  ⟨sysInit condata readbuf defaultMessageHandler net strs, .none, false⟩

/-- A keepalive of a connected client with a keepalive interval. -/
def KeepaliveCall (r : PingRun κ) (call : ClientCall κ) : Prop :=
  match call with
  | .keepalive =>
    r.waiting = false ∧ r.sys.client.isconnected = true ∧ r.sys.client.keepAliveInterval ≠ 0
  | _ => False

/-- What a keepalive should do: fail and send nothing while a `PINGREQ` is
unanswered; ping again when the last one has been answered. -/
def DetectsDeadPeer (r : PingRun κ) (call : ClientCall κ) : Prop :=
  KeepaliveCall r call →
    (r.ping = .unanswered → (keepalive r.sys).1 = some mqttFailure ∧
      packetsSent (keepalive r.sys).2.log = packetsSent r.sys.log) ∧
    (r.ping = .answered → (sendPacket pingreq r.sys).1 = some mqttSuccess →
      (keepalive r.sys).1 = some mqttSuccess ∧
        packetsSent (keepalive r.sys).2.log = pingreq :: packetsSent r.sys.log)

/-- No keepalive comes while a `PINGREQ` is unanswered, except where the transmitter
takes no packet. -/
def NoPingPending (r : PingRun κ) (call : ClientCall κ) : Prop :=
  KeepaliveCall r call → r.ping = .unanswered → (r.sys.net.env 0).txOk = false

theorem setUp_step {r : PingRun κ} (call : ClientCall κ) (hr : SetUp r.sys) :
    SetUp (pingStep r call).1.sys := by
  have hkeep := (does_run call).keeps (fun _ _ => Effect.setUp) r.sys hr
  unfold pingStep
  split
  · exact hr
  · split
    · rename_i heq
      rw [heq] at hkeep
      exact hkeep
    · rename_i heq
      rw [heq] at hkeep
      exact hkeep

omit [Callback κ] in
/-- A keepalive sends a `PINGREQ` whenever it can. -/
theorem keepalive_spec {s : Sys κ} (hs : SetUp s)
    (hinterval : s.client.keepAliveInterval ≠ 0) :
    ((s.net.env 0).txOk = true → (keepalive s).1 = some mqttSuccess ∧
      packetsSent (keepalive s).2.log = pingreq :: packetsSent s.log) ∧
    ((s.net.env 0).txOk = false → (keepalive s).1 = some mqttFailure ∧
      packetsSent (keepalive s).2.log = packetsSent s.log) := by
  -- the buffer has room, and `ping_outstanding` is 0: the packet is always tried
  have hpacket : mqttSerializePingreq s.client.bufSize = .ok pingreq := by
    rw [mqttSerializePingreq, mqttSerializeZero, hs.bufSize]
    rfl
  unfold keepalive
  rw [Prog.run_look_bind, if_neg hinterval, if_neg (by rw [hs.ping]; decide), hpacket]
  constructor
  · intro hok
    have hsend := run_sendPacket_ok pingreq hok
    simp only [Prog.run_bind_some hsend]
    exact ⟨rfl, rfl⟩
  · intro hok
    have hsend := run_sendPacket_refused pingreq hok
    simp only [Prog.run_bind_some hsend]
    exact ⟨rfl, rfl⟩

omit [Callback κ] in
theorem detects_iff_step {r : PingRun κ} {call : ClientCall κ} (hr : SetUp r.sys) :
    DetectsDeadPeer r call ↔ NoPingPending r call := by
  cases call with
  | keepalive =>
    constructor
    · rintro h hcall hping
      obtain ⟨hfail, -⟩ := (h hcall).1 hping
      cases htx : (r.sys.net.env 0).txOk with
      | false => rfl
      | true =>
        -- the transmitter takes the packet, so the call succeeds
        rw [((keepalive_spec hr hcall.2.2).1 htx).1] at hfail
        cases hfail
    · intro h hcall
      refine ⟨fun hping => (keepalive_spec hr hcall.2.2).2 (h hcall hping), fun _ hsend => ?_⟩
      cases htx : (r.sys.net.env 0).txOk with
      | true => exact (keepalive_spec hr hcall.2.2).1 htx
      | false =>
        rw [run_sendPacket_refused pingreq htx] at hsend
        cases hsend
  | _ => exact ⟨fun _ hcall => hcall.elim, fun _ hcall => hcall.elim⟩

/-- **Keepalive.** In every run of a fresh client each keepalive does what it should
if and only if none comes while a `PINGREQ` is unanswered, except where the
transmitter takes no packet. -/
theorem keepalive_detects_iff (condata : ConnectData) (readbuf : List UInt8)
    (defaultMessageHandler : κ) (net : Net) (strs : Nat → List UInt8)
    (calls : List (ClientCall κ)) :
    Machine.Along pingStep DetectsDeadPeer
        (pingStart condata readbuf defaultMessageHandler net strs) calls ↔
      Machine.Along pingStep NoPingPending
        (pingStart condata readbuf defaultMessageHandler net strs) calls := by
  have hstart := setUp_init condata readbuf defaultMessageHandler net strs
  constructor
  · exact Machine.along_mono_of_invariant (fun _ call hr _ => setUp_step call hr)
      (fun _ _ hr => (detects_iff_step hr).mp) hstart
  · exact Machine.along_mono_of_invariant (fun _ call hr _ => setUp_step call hr)
      (fun _ _ hr => (detects_iff_step hr).mpr) hstart

/-! A client whose peer answers the `CONNECT` and then falls silent. -/

/-- A `CONNACK` is there when the client connects, and nothing comes after it. -/
def silentPeer (k : Nat) : EnvStep :=
  if k = 0 then { EnvStep.quiet with arrive := [connackChunk] }
  else EnvStep.quiet

def silentRun : PingRun Unit :=
  pingStart { connectDataInitializer with keepAliveInterval := 300 } (List.replicate 1024 0) ()
    (Net.initial silentPeer) fun _ => []

/-- The second keepalive succeeds although the `PINGREQ` of the first is unanswered. -/
theorem keepalive_misses_dead_peer :
    ¬ Machine.Along pingStep DetectsDeadPeer silentRun [.connect 1, .keepalive, .keepalive] := by
  intro h
  have hsecond := @Machine.along_at _ _ _ pingStep _ silentRun [.connect 1, .keepalive] [] _ h
  have hcall : KeepaliveCall (Machine.last pingStep silentRun [.connect 1, .keepalive])
      .keepalive := by
    refine ⟨?_, ?_, ?_⟩ <;> decide +kernel
  have hfails := ((hsecond hcall).1 (by decide +kernel)).1
  have hsucceeds : (keepalive (Machine.last pingStep silentRun [.connect 1, .keepalive]).sys).1 =
      some mqttSuccess := by decide +kernel
  rw [hsucceeds] at hfails
  cases hfails

end IBoxClient
