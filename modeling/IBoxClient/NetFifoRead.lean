import IBoxClient.NetFifo
import IBoxClient.Lib.Rounds
import IBoxClient.Lib.Memory

/- `net_fifo_read` with the caller's buffer. The loop pops before it looks whether there is
   anything left, so it relies on the test before the mutex is taken; it stores at
   `buf[rec_count++]` and counts `count` down.

   `netFifoRead` says which bytes it takes. Here the rounds run on the memory, and
   `read_ends` says that they come to an end with those bytes stored, and nothing else
   written. -/
namespace IBoxClient

variable {α : Type}

/-- The FIFO, the memory at `buf`, `rec_count` and what is left of `count`. -/
structure NetRead (α : Type) where
  fifo : NetFifo α
  buf : Nat → α
  recCount : Nat
  count : Int

/-- `buf[rec_count++] = fifo_pop(&net_rx_fifo); count--`. -/
def NetRead.pop (r : NetRead α) : NetRead α :=
  { fifo := (fifoPop r.fifo).2
    buf := Function.update r.buf r.recCount (fifoPop r.fifo).1
    recCount := r.recCount + 1
    count := r.count - 1 }

/-- One round of the `while (count > 0)` of `net_fifo_read`. -/
def netReadRound (r : NetRead α) : NetRead α ⊕ NetRead α :=
  if r.count > 0 then
    if isFifoEmpty r.pop.fifo then .inl r.pop else .inr r.pop
  else .inl r

/-- `net_fifo_read` on the memory at `buf`, its loop granted a number of rounds.
`rec_count` is the return value. -/
def netFifoReadInto (rounds : Nat) (mutexTaken : Bool) (f : NetFifo α) (buf : Nat → α)
    (count : Int) : Option (NetRead α) :=
  if isFifoEmpty f then some ⟨f, buf, 0, count⟩
  else if mutexTaken then Rounds.ends netReadRound rounds ⟨f, buf, 0, count⟩
  else some ⟨f, buf, 0, count⟩

namespace NetRead

/-- The loop has stored `done` in `buf`. -/
structure Stored (buf : Nat → α) (done : List α) (r : NetRead α) : Prop where
  buf_eq : r.buf = Memory.write buf 0 done
  recCount_eq : r.recCount = done.length

/-- What the loop is to return: what `netFifoReadLoop` takes, behind `done`, stored. -/
def Returns (buf : Nat → α) (r b : NetRead α) : Prop :=
  ∀ done, Stored buf done r →
    Stored buf (netFifoReadLoop r.count.toNat r.fifo done).1 b ∧
      b.fifo = (netFifoReadLoop r.count.toNat r.fifo done).2

variable {buf : Nat → α} {done : List α} {r : NetRead α}

theorem Stored.pop (h : Stored buf done r) : Stored buf (done ++ [(fifoPop r.fifo).1]) r.pop := by
  refine ⟨?_, ?_⟩
  · simp only [NetRead.pop, h.buf_eq, h.recCount_eq, Memory.write_snoc]
  · simp only [NetRead.pop, h.recCount_eq, List.length_append, List.length_singleton]

/-- A round pops and stores a byte, and the loop ends with the last one. -/
theorem round_returns (buf : Nat → α) (r : NetRead α) :
    (∃ b, netReadRound r = .inl b ∧ Returns buf r b) ∨
      ∃ r', netReadRound r = .inr r' ∧ True ∧ r'.count.toNat < r.count.toNat ∧
        ∀ b, Returns buf r' b → Returns buf r b := by
  by_cases hcount : r.count > 0
  · have hsucc : r.count.toNat = r.pop.count.toNat + 1 := by
      simp only [NetRead.pop]
      omega
    by_cases hempty : isFifoEmpty r.pop.fifo = true
    · left
      refine ⟨r.pop, by rw [netReadRound, if_pos hcount, if_pos hempty], ?_⟩
      intro done h
      have hloop : netFifoReadLoop r.count.toNat r.fifo done =
          (done ++ [(fifoPop r.fifo).1], r.pop.fifo) := by
        rw [hsucc, netFifoReadLoop]
        exact if_pos hempty
      rw [hloop]
      exact ⟨h.pop, rfl⟩
    · right
      refine ⟨r.pop, by rw [netReadRound, if_pos hcount, if_neg hempty], trivial, by omega, ?_⟩
      intro b hb done h
      have hloop : netFifoReadLoop r.count.toNat r.fifo done =
          netFifoReadLoop r.pop.count.toNat r.pop.fifo (done ++ [(fifoPop r.fifo).1]) := by
        rw [hsucc, netFifoReadLoop]
        exact if_neg hempty
      rw [hloop]
      exact hb _ h.pop
  · left
    refine ⟨r, by rw [netReadRound, if_neg hcount], ?_⟩
    intro done h
    have hzero : r.count.toNat = 0 := by omega
    rw [hzero, netFifoReadLoop]
    exact ⟨h, rfl⟩

end NetRead

/-- **The read ends.** The bytes `netFifoRead` takes are stored, and the FIFO is left as it
leaves it. -/
theorem read_ends (f : NetFifo α) (buf : Nat → α) (count : Int) :
    ∃ rounds r, netFifoReadInto rounds true f buf count = some r ∧
      r.recCount = (netFifoRead true f count.toNat).1.length ∧
      r.buf = Memory.write buf 0 (netFifoRead true f count.toNat).1 ∧
      r.fifo = (netFifoRead true f count.toNat).2 := by
  by_cases hempty : isFifoEmpty f = true
  · refine ⟨0, ⟨f, buf, 0, count⟩, ?_, ?_, ?_, ?_⟩
    all_goals simp [netFifoReadInto, netFifoRead, hempty]
  · obtain ⟨b, hends, hret⟩ := Rounds.ends_of_rank (I := fun _ => True)
      (fun r : NetRead α => r.count.toNat) (fun r _ => NetRead.round_returns buf r)
      (s := ⟨f, buf, 0, count⟩) trivial
    obtain ⟨hstored, hfifo⟩ := hret [] ⟨rfl, rfl⟩
    refine ⟨count.toNat + 1, b, ?_, ?_, ?_, ?_⟩
    · rw [netFifoReadInto, if_neg hempty, if_pos rfl]
      exact hends
    · rw [netFifoRead, if_neg hempty, if_pos rfl]
      exact hstored.recCount_eq
    · rw [netFifoRead, if_neg hempty, if_pos rfl]
      exact hstored.buf_eq
    · rw [netFifoRead, if_neg hempty, if_pos rfl]
      exact hfifo

/-- **Queue read.** From a well-formed FIFO and with the mutex taken, `net_fifo_read` returns
with as many bytes as asked for or as there are; these are the front of the queue, stored in
order with nothing behind them touched, and the rest of the queue is what is left. -/
theorem net_fifo_read_is_queue_read (f : NetFifo α) (h : NetFifo.Ok netFifoSize f)
    (buf : Nat → α) (count : Int) :
    ∃ rounds r, netFifoReadInto rounds true f buf count = some r ∧
      r.recCount = min count.toNat f.contents.length ∧
      (∀ i < r.recCount, f.contents[i]? = some (r.buf i)) ∧
      (∀ i, r.recCount ≤ i → r.buf i = buf i) ∧
      r.fifo.contents = f.contents.drop r.recCount ∧
      NetFifo.Ok netFifoSize r.fifo ∧ r.fifo.endIx = f.endIx ∧ r.fifo.data = f.data := by
  obtain ⟨hbytes, hrest, hok, hend, hdata⟩ := netFifoRead_spec h count.toNat
  obtain ⟨rounds, r, hr, hcount, hbuf, hfifo⟩ := read_ends f buf count
  rw [hbytes] at hcount hbuf
  have hn : r.recCount = min count.toNat f.contents.length := by
    rw [hcount, List.length_take]
  rw [← hfifo] at hrest hok hend hdata
  refine ⟨rounds, r, hr, hn, ?_, ?_, ?_, hok, hend, hdata⟩
  · intro i hi
    have hlt : i < (f.contents.take count.toNat).length := by omega
    have hat := Memory.write_at buf 0 hlt
    rw [Nat.zero_add, List.getElem_take] at hat
    rw [hbuf, hat]
    exact List.getElem?_eq_getElem _
  · intro i hi
    rw [hbuf]
    exact Memory.write_after _ _ (by omega)
  · rw [hrest, hn]
    by_cases hle : count.toNat ≤ f.contents.length
    · rw [Nat.min_eq_left hle]
    · rw [Nat.min_eq_right (by omega), List.drop_length, List.drop_of_length_le (by omega)]

/-- Two bytes, in the last and the first cell, of which two are taken although three are
asked for. -/
def wrappedFifo : NetFifo UInt8 := ⟨2046, 0, fun i => if i = 2047 then 0x30 else 0x31, 2048⟩

theorem net_fifo_read_wrapped :
    ∃ rounds r, netFifoReadInto rounds true wrappedFifo (fun _ => 0) 3 = some r ∧
      r.recCount = min (3 : Int).toNat wrappedFifo.contents.length ∧
      (∀ i < r.recCount, wrappedFifo.contents[i]? = some (r.buf i)) ∧
      (∀ i, r.recCount ≤ i → r.buf i = 0) ∧
      r.fifo.contents = wrappedFifo.contents.drop r.recCount ∧
      NetFifo.Ok netFifoSize r.fifo ∧ r.fifo.endIx = wrappedFifo.endIx ∧
      r.fifo.data = wrappedFifo.data :=
  net_fifo_read_is_queue_read wrappedFifo ⟨rfl, by decide, by decide⟩ (fun _ => 0) 3

end IBoxClient
