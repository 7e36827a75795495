import IBoxClient.MqttWait

/- How long a wait lasts.

   `timeout_init` keeps the tick at which the time is up, and `is_timeout` takes the clock
   from it. The difference is right also where the counter wraps around in between. But it
   is returned as a `uint8_t`, so of the ticks that are left only the low byte counts:
   wherever they are a multiple of 256 the time seems to be up.

   A wait that polls at such a tick gives up too early; otherwise it lasts as long as asked
   for and ends at the first poll after that: `reply_timeout_iff`. -/
namespace IBoxClient

variable {κ : Type}

/-- The ticks since `t0`. -/
def elapsed (t0 now : UInt32) : Nat := (now - t0).toNat

/-- The time is not up yet, but of the ticks that are left the low byte is zero. -/
def LowByteZero (count : UInt32) (e : Nat) : Prop := e < count.toNat ∧ (count.toNat - e) % 256 = 0

/-- The readings of the clock in a wait, one for each poll that has not read the packet. -/
def waitReadings (packetType : Nat) (timeout : UInt32) : Nat → Sys κ → List UInt32
  | 0, _ => []
  | polls + 1, s =>
    match readPacket s with
    | (some rc, s') =>
      if rc = packetType then []
      else s'.interact.1.sysTimeMs ::
        if isTimeout timeout s'.interact.1.sysTimeMs ≠ 0 then
          waitReadings packetType timeout polls s'.interact.2
        else []
    | (none, _) => []

/-- A wait from `t0` on that does not get its packet goes on as long as no poll has come
after `count` ticks. -/
def LastsFor (packetType : Nat) (t0 count : UInt32) (polls : Nat) (s : Sys κ) : Prop :=
  (waitfor packetType (t0 + count) polls s).1 ≠ some (packetType : Int) →
    ((waitfor packetType (t0 + count) polls s).1 = none ↔
      ∀ now ∈ waitReadings packetType (t0 + count) polls s, elapsed t0 now < count.toNat)

theorem elapsed_add (t0 e : UInt32) : elapsed t0 (t0 + e) = e.toNat := by
  have he := e.toNat_lt
  have ht0 := t0.toNat_lt
  rw [elapsed, UInt32.toNat_sub, UInt32.toNat_add]
  omega

theorem left_eq (t0 count now : UInt32) :
    (t0 + count - now).toNat = (4294967296 - elapsed t0 now + count.toNat) % 4294967296 := by
  have hcount := count.toNat_lt
  have hnow := now.toNat_lt
  have ht0 := t0.toNat_lt
  rw [elapsed, UInt32.toNat_sub, UInt32.toNat_add, UInt32.toNat_sub]
  omega

/-- **The test.** -/
theorem isTimeout_ne_zero_iff {t0 count now : UInt32} (hcount : count.toNat < 2147483648)
    (hnow : elapsed t0 now < 2147483648) :
    isTimeout (t0 + count) now ≠ 0 ↔
      elapsed t0 now < count.toNat ∧ ¬ LowByteZero count (elapsed t0 now) := by
  have hleft := left_eq t0 count now
  unfold isTimeout LowByteZero
  generalize (t0 + count - now).toNat = left at hleft
  generalize elapsed t0 now = e at hleft hnow
  dsimp only
  split
  · omega
  · omega

/-! ## Waiting -/

section Waiting
variable {packetType : Nat} {t0 count : UInt32}

/-- A poll: it reads the packet, or the clock. -/
theorem waitfor_succ (packetType : Nat) (timeout : UInt32) (polls : Nat) (s : Sys κ) :
    ∃ rc s', readPacket s = (some rc, s') ∧
      waitfor packetType timeout (polls + 1) s =
        if rc = packetType then (some rc, s')
        else if isTimeout timeout s'.interact.1.sysTimeMs ≠ 0 then
          waitfor packetType timeout polls s'.interact.2
        else (some rc, s'.interact.2) := by
  obtain ⟨rc, hrun, -⟩ := run_readPacket s
  refine ⟨rc, _, hrun, ?_⟩
  rw [waitfor, Prog.run_bind_some hrun]
  split
  · rfl
  · rw [getSysTimeMs, Prog.run_act_bind]
    split <;> rfl

/-- Where no poll finds the low byte zero, a wait lasts for the time asked for. -/
theorem lastsFor_of_readings (hcount : count.toNat < 2147483648) {polls : Nat} {s : Sys κ}
    (hclock : ∀ now ∈ waitReadings packetType (t0 + count) polls s,
      elapsed t0 now < 2147483648)
    (h : ∀ now ∈ waitReadings packetType (t0 + count) polls s,
      ¬ LowByteZero count (elapsed t0 now)) :
    LastsFor packetType t0 count polls s := by
  induction polls generalizing s with
  | zero => exact fun _ => ⟨fun _ _ hnow => absurd hnow List.not_mem_nil, fun _ => rfl⟩
  | succ polls ih =>
    obtain ⟨rc, s', hread, hwait⟩ := waitfor_succ packetType (t0 + count) polls s
    unfold LastsFor
    rw [hwait]
    simp only [waitReadings, hread] at hclock h ⊢
    by_cases hrc : rc = packetType
    · rw [if_pos hrc]
      intro hne
      exact absurd (congrArg some hrc) hne
    · simp only [if_neg hrc, List.forall_mem_cons] at hclock h ⊢
      have htest := isTimeout_ne_zero_iff hcount hclock.1
      by_cases hleft : isTimeout (t0 + count) s'.interact.1.sysTimeMs ≠ 0
      · simp only [if_pos hleft] at hclock h ⊢
        intro hne
        rw [ih hclock.2 h.2 hne]
        exact ⟨fun hall => ⟨(htest.mp hleft).1, hall⟩, fun hall => hall.2⟩
      · simp only [if_neg hleft, reduceCtorEq, false_iff] at hclock h ⊢
        rintro - ⟨hlt, -⟩
        exact hleft (htest.mpr ⟨hlt, h.1⟩)

/-- A poll that finds the low byte zero is the last one. -/
theorem lowByte_of_lastsFor (hcount : count.toNat < 2147483648) {polls : Nat} {s : Sys κ}
    (hclock : ∀ now ∈ waitReadings packetType (t0 + count) polls s,
      elapsed t0 now < 2147483648)
    (h : LastsFor packetType t0 count polls s) :
    ∀ now ∈ waitReadings packetType (t0 + count) polls s,
      ¬ LowByteZero count (elapsed t0 now) := by
  induction polls generalizing s with
  | zero => exact fun _ hnow => absurd hnow List.not_mem_nil
  | succ polls ih =>
    obtain ⟨rc, s', hread, hwait⟩ := waitfor_succ packetType (t0 + count) polls s
    unfold LastsFor at h
    rw [hwait] at h
    simp only [waitReadings, hread] at hclock h ⊢
    by_cases hrc : rc = packetType
    · rw [if_pos hrc]
      exact fun _ hnow => absurd hnow List.not_mem_nil
    · simp only [if_neg hrc, List.forall_mem_cons] at hclock h ⊢
      have htest := isTimeout_ne_zero_iff hcount hclock.1
      by_cases hleft : isTimeout (t0 + count) s'.interact.1.sysTimeMs ≠ 0
      · simp only [if_pos hleft] at hclock h ⊢
        obtain ⟨hlt, hlow⟩ := htest.mp hleft
        refine ⟨hlow, ih hclock.2 fun hne => ?_⟩
        rw [h hne]
        exact ⟨fun hall => hall.2, fun hall => ⟨hlt, hall⟩⟩
      · simp only [if_neg hleft, reduceCtorEq, false_iff] at hclock h ⊢
        refine ⟨fun hlow => ?_, fun _ hnow => absurd hnow List.not_mem_nil⟩
        have hne : (some rc : Option Int) ≠ some (packetType : Int) :=
          fun heq => hrc (Option.some.inj heq)
        exact h hne ⟨hlow.1, fun _ hnow => absurd hnow List.not_mem_nil⟩

end Waiting

/-- **Timeouts.** The test of the time is right, and a wait lasts as long as asked for and
ends at the first poll after that, if and only if it is not made while the ticks that are
left are a multiple of 256. -/
theorem reply_timeout_iff {count : UInt32} (hcount : count < 2147483648) :
    (∀ t0 e : UInt32, e < 2147483648 →
      ((isTimeout (t0 + count) (t0 + e) ≠ 0 ↔ e < count) ↔ ¬ LowByteZero count e.toNat)) ∧
    ∀ (packetType : Nat) (t0 : UInt32) (polls : Nat) (s : Sys κ),
      (∀ now ∈ waitReadings packetType (t0 + count) polls s, elapsed t0 now < 2147483648) →
      (LastsFor packetType t0 count polls s ↔
        ∀ now ∈ waitReadings packetType (t0 + count) polls s,
          ¬ LowByteZero count (elapsed t0 now)) := by
  have hcount' : count.toNat < 2147483648 := UInt32.lt_iff_toNat_lt.mp hcount
  constructor
  · intro t0 e he
    have he' : e.toNat < 2147483648 := UInt32.lt_iff_toNat_lt.mp he
    have helapsed := elapsed_add t0 e
    have hnow : elapsed t0 (t0 + e) < 2147483648 := by
      rw [helapsed]
      exact he'
    have htest := isTimeout_ne_zero_iff hcount' hnow
    rw [htest, helapsed, UInt32.lt_iff_toNat_lt]
    constructor
    · intro h hlow
      exact (h.mpr hlow.1).2 hlow
    · intro hlow
      exact ⟨fun h => h.1, fun h => ⟨h, hlow⟩⟩
  · intro packetType t0 polls s hclock
    exact ⟨lowByte_of_lastsFor hcount' hclock, lastsFor_of_readings hcount' hclock⟩

/-! A wait of 500 ticks. -/

theorem reply_timeout_poll :
    (∀ t0 e : UInt32, e < 2147483648 →
      ((isTimeout (t0 + 500) (t0 + e) ≠ 0 ↔ e < 500) ↔ ¬ LowByteZero 500 e.toNat)) ∧
    ∀ (packetType : Nat) (t0 : UInt32) (polls : Nat) (s : Sys Unit),
      (∀ now ∈ waitReadings packetType (t0 + 500) polls s, elapsed t0 now < 2147483648) →
      (LastsFor packetType t0 500 polls s ↔
        ∀ now ∈ waitReadings packetType (t0 + 500) polls s,
          ¬ LowByteZero 500 (elapsed t0 now)) :=
  reply_timeout_iff (by decide)

/-- Nothing comes, and 244 ticks have passed. -/
def after244 (_ : Nat) : EnvStep := { EnvStep.quiet with sysTimeMs := 244 }

/-- With 256 ticks left the time seems to be up, and the wait ends without its packet. -/
theorem ends_at_244 :
    ¬ (isTimeout (0 + 500) (0 + 244) ≠ 0 ↔ (244 : UInt32) < 500) ∧
      waitReadings PUBACK (0 + 500) 2 (quietInit after244) = [244] ∧
      (waitfor PUBACK (0 + 500) 2 (quietInit after244)).1 = some (-1) := by
  decide +kernel

end IBoxClient
