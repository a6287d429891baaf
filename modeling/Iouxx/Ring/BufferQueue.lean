import Iouxx.Lib.Fifo
import Iouxx.Lib.Simulation
import Iouxx.Ring.BufferRing

/-!
# Buffer rings as queues (`iouringxx.hpp`, `ring::buffer_ring`)

The program inserts buffers behind the tail of a buffer ring while the kernel takes them at its head;
both are 16-bit counters that wrap, and the array is used in a circle. `insert` and `insert_range`
say of themselves that the user has to ensure that the total amount of added buffers does not exceed
the capacity (`Room`).

* `contents_insert`, `contents_take`: what one event does to the entries between head and tail;
* `simulates_fifo`: as long as there is room, a buffer ring simulates a queue;
* `takes_in_order`: **the kernel takes exactly the buffers that were inserted, in the order of their
  insertion**, and those it has not taken are still in the ring.
-/

namespace Iouxx.Ring.IoUringBufRing

open Iouxx.Lib Iouxx.Lib.Trace Iouxx.Utility

/-- A buffer ring with the head of the kernel. -/
structure Shared (k : ℕ) where
  ring : IoUringBufRing k
  head : UInt16
  deriving DecidableEq, Repr

/-- What happens to a buffer ring. -/
inductive Event
  | insert (buffer : Buffer) (bid : UInt16)
  | insertRange (buffers : List Buffer) (bufbids : List UInt16) (allocBufs allocBids : Bool)
  | take
  deriving DecidableEq, Repr

/-- The entry for a buffer. -/
def entryOf (buffer : Buffer) (bid : UInt16) : IoUringBuf := ⟨buffer.data, buffer.size.toUInt32, bid⟩

namespace Shared

variable {k : ℕ}

/-- **One event**: `insert` or `insert_range`, which asserts that there are as many ids as buffers, or
the kernel takes the entry at its head. -/
def step (st : Shared k) : Event → Option (Shared k)
  | .insert buffer bid => some { st with ring := st.ring.insert buffer bid }
  | .insertRange buffers bufbids allocBufs allocBids =>
    if buffers.length = bufbids.length then
      some { st with ring := (st.ring.insertRange buffers bufbids allocBufs allocBids).1 }
    else none
  | .take => if st.ring.tail = st.head then none else some { st with head := st.head + 1 }

/-- The buffers an event inserts: none where a vector cannot be allocated. -/
def buffersOf : Event → List (Buffer × UInt16)
  | .insert buffer bid => [(buffer, bid)]
  | .insertRange buffers bufbids allocBufs allocBids =>
    if allocBufs = false ∨ allocBids = false then [] else buffers.zip bufbids
  | .take => []

/-- The entries an event inserts. -/
def inserts (e : Event) : List IoUringBuf := (buffersOf e).map fun b => entryOf b.1 b.2

/-- The entries the kernel reads. -/
def takes (st : Shared k) : Event → List IoUringBuf
  | .take => [Fifo.entry st.ring.bufs st.head.toNat]
  | _ => []

/-- The entry at the head. -/
def front (st : Shared k) : IoUringBuf := Fifo.entry st.ring.bufs st.head.toNat

/-- The entries the kernel has not taken, from its head on. -/
def contents (st : Shared k) : List IoUringBuf :=
  Fifo.window st.ring.bufs st.head.toNat (st.ring.occupied st.head)

/-- **What the user has to ensure**: the ring has room for what is inserted. -/
def Room (st : Shared k) (e : Event) : Prop :=
  st.ring.occupied st.head + (buffersOf e).length ≤ 2 ^ k

/-! ### One insertion -/

variable {st : Shared k}

theorem le_sixteen (hk : 2 ^ k ≤ 32768) : k ≤ 16 := by
  by_contra hlt
  have := Nat.pow_lt_pow_right (show 1 < 2 by decide) (show 15 < k by omega)
  omega

theorem tail_modEq (hk : k ≤ 16) (st : Shared k) :
    st.ring.tail.toNat ≡ st.head.toNat + st.ring.occupied st.head [MOD 2 ^ k] := by
  have hdvd : 2 ^ k ∣ 2 ^ 16 := pow_dvd_pow 2 hk
  have h : st.head.toNat + st.ring.occupied st.head ≡ st.ring.tail.toNat [MOD 2 ^ 16] := by
    rw [Nat.ModEq, head_add_occupied, Nat.mod_eq_of_lt (UInt16.toNat_lt _)]
  exact (h.of_dvd hdvd).symm

theorem occupied_insert (hk : 2 ^ k ≤ 32768) (hroom : st.ring.occupied st.head < 2 ^ k)
    (buffer : Buffer) (bid : UInt16) :
    (st.ring.insert buffer bid).occupied st.head = st.ring.occupied st.head + 1 := by
  have htail : (st.ring.insert buffer bid).tail = st.ring.tail + 1 := rfl
  have h1 := UInt16.toNat_lt st.ring.tail
  have h2 := UInt16.toNat_lt st.head
  unfold occupied at hroom ⊢
  simp only [htail, UInt16.toNat_sub, UInt16.toNat_add, UInt16.toNat_one] at hroom ⊢
  omega

/-- **An insertion appends** to what the kernel has not taken. -/
theorem contents_insert (hk : 2 ^ k ≤ 32768) (hroom : st.ring.occupied st.head < 2 ^ k)
    (buffer : Buffer) (bid : UInt16) :
    contents { st with ring := st.ring.insert buffer bid } =
      contents st ++ [entryOf buffer bid] := by
  have hk16 : k ≤ 16 := le_sixteen hk
  have hbufs : (st.ring.insert buffer bid).bufs = st.ring.bufs.setIfInBounds
      ((st.head.toNat + st.ring.occupied st.head) % 2 ^ k) (entryOf buffer bid) := by
    have hindex : st.ring.index 0 = (st.head.toNat + st.ring.occupied st.head) % 2 ^ k := by
      rw [index_eq]
      exact tail_modEq hk16 st
    rw [← hindex]
    rfl
  unfold contents
  rw [occupied_insert hk hroom, hbufs]
  exact Fifo.window_set _ _ hroom _

theorem contents_insertAll (hk : 2 ^ k ≤ 32768) : ∀ (l : List (Buffer × UInt16)) (st : Shared k),
    st.ring.occupied st.head + l.length ≤ 2 ^ k →
    contents { st with ring := st.ring.insertAll l } =
        contents st ++ l.map (fun b => entryOf b.1 b.2) ∧
      (st.ring.insertAll l).occupied st.head = st.ring.occupied st.head + l.length
  | [], st, _ => ⟨(List.append_nil _).symm, rfl⟩
  | b :: l, st, h => by
    rw [List.length_cons] at h
    have hroom : st.ring.occupied st.head < 2 ^ k := by omega
    have hocc := occupied_insert hk hroom b.1 b.2
    obtain ⟨hcontents, hocc'⟩ := contents_insertAll hk l
      { st with ring := st.ring.insert b.1 b.2 } (by
        show (st.ring.insert b.1 b.2).occupied st.head + l.length ≤ 2 ^ k
        omega)
    rw [contents_insert hk hroom, List.append_assoc] at hcontents
    refine ⟨hcontents, hocc'.trans ?_⟩
    show (st.ring.insert b.1 b.2).occupied st.head + l.length = _
    rw [hocc, List.length_cons]; omega

/-- `insert_range` inserts its buffers one after the other, or nothing. -/
theorem insertRange_cases (hk : 2 ^ k ≤ 32768) {r : IoUringBufRing k} {buffers : List Buffer}
    {bufbids : List UInt16} {allocBufs allocBids : Bool} (hlen : buffers.length = bufbids.length)
    (hcap : (buffersOf (.insertRange buffers bufbids allocBufs allocBids)).length ≤ 2 ^ k) :
    (r.insertRange buffers bufbids allocBufs allocBids).1 =
      r.insertAll (buffersOf (.insertRange buffers bufbids allocBufs allocBids)) := by
  unfold insertRange
  simp only [buffersOf] at hcap ⊢
  by_cases halloc : allocBufs = false ∨ allocBids = false
  · rw [if_pos halloc, if_pos halloc]
    rfl
  · rw [if_neg halloc] at hcap
    rw [if_neg halloc, if_neg halloc]
    have hzip : (buffers.zip bufbids).length = buffers.length := by
      rw [List.length_zip]; omega
    obtain ⟨total, htotal, hfold⟩ :=
      foldl_insertRangeStep buffers bufbids r 0 hlen (by rw [UInt16.toNat_zero]; omega)
    rw [UInt16.toNat_zero, zero_add] at htotal
    rw [UInt16.toNat_zero] at hfold
    have hall := addAll_advance (le_sixteen hk) (buffers.zip bufbids) r 0
    rw [hzip, zero_add, show r.advance 0 = r by simp [advance]] at hall
    rw [hfold, ← hall, ← htotal]

/-! ### One buffer taken -/

theorem occupied_eq_zero_iff (r : IoUringBufRing k) (head : UInt16) :
    r.occupied head = 0 ↔ r.tail = head := by
  have h1 := UInt16.toNat_lt r.tail
  have h2 := UInt16.toNat_lt head
  unfold occupied
  rw [UInt16.toNat_sub, ← UInt16.toNat_inj]
  omega

theorem succ_modEq (hk : k ≤ 16) (i : UInt16) : i.toNat + 1 ≡ (i + 1).toNat [MOD 2 ^ k] := by
  have hdvd : 2 ^ k ∣ 2 ^ 16 := pow_dvd_pow 2 hk
  have h : i.toNat + 1 ≡ (i + 1).toNat [MOD 2 ^ 16] := by
    rw [UInt16.toNat_add, UInt16.toNat_one]
    exact (Nat.mod_modEq _ _).symm
  exact h.of_dvd hdvd

/-- **The kernel takes the first entry**, and the others stay. -/
theorem contents_take (hk : 2 ^ k ≤ 32768) (h : st.ring.tail ≠ st.head) :
    contents st = st.front :: contents { st with head := st.head + 1 } ∧
      st.ring.occupied st.head = st.ring.occupied (st.head + 1) + 1 := by
  have hocc : st.ring.occupied st.head = st.ring.occupied (st.head + 1) + 1 := by
    have h0 : st.ring.occupied st.head ≠ 0 := fun h0 => h ((occupied_eq_zero_iff _ _).mp h0)
    have h1 := UInt16.toNat_lt st.ring.tail
    have h2 := UInt16.toNat_lt st.head
    unfold occupied at h0 ⊢
    simp only [UInt16.toNat_sub, UInt16.toNat_add, UInt16.toNat_one] at h0 ⊢
    omega
  refine ⟨?_, hocc⟩
  unfold contents
  rw [hocc, Fifo.window_succ, Fifo.window_congr _ (succ_modEq (le_sixteen hk) _)]
  rfl

/-! ### Runs -/

/-- The events of a queue that one event is. -/
def asFifo (st : Shared k) (e : Event) : List (Fifo.Event IoUringBuf) :=
  (inserts e).map .push ++ (takes st e).map .pop

theorem asFifo_of_takes {e : Event} (h : takes st e = []) :
    asFifo st e = ((buffersOf e).map fun b => entryOf b.1 b.2).map .push := by
  rw [asFifo, h, List.map_nil, List.append_nil, inserts]

theorem pushed_asFifo (st : Shared k) (e : Event) :
    (asFifo st e).flatMap Fifo.Event.pushed = inserts e := by
  simp [asFifo, List.flatMap_append, List.flatMap_map, Fifo.Event.pushed]

theorem popped_asFifo (st : Shared k) (e : Event) :
    (asFifo st e).flatMap Fifo.Event.popped = takes st e := by
  simp [asFifo, List.flatMap_append, List.flatMap_map, Fifo.Event.popped]

/-- The queue of a ring. -/
def Represents (st : Shared k) (q : List IoUringBuf) : Prop :=
  contents st = q ∧ st.ring.occupied st.head ≤ 2 ^ k

theorem represents_insertAll (hk : 2 ^ k ≤ 32768) {q : List IoUringBuf} (hR : Represents st q)
    {l : List (Buffer × UInt16)} (hroom : st.ring.occupied st.head + l.length ≤ 2 ^ k) :
    ∃ q', run (Fifo.step (2 ^ k)) q ((l.map fun b => entryOf b.1 b.2).map .push) = some q' ∧
      Represents { st with ring := st.ring.insertAll l } q' := by
  obtain ⟨rfl, hcap⟩ := hR
  obtain ⟨hcontents, hocc⟩ := contents_insertAll hk l st hroom
  refine ⟨_, Fifo.run_push ?_, hcontents, ?_⟩
  · rw [List.length_map, contents, Fifo.length_window]
    exact hroom
  · show (st.ring.insertAll l).occupied st.head ≤ 2 ^ k
    omega

/-- **A buffer ring with room simulates a queue** of its capacity. -/
theorem simulates_fifo (hk : 2 ^ k ≤ 32768) :
    Simulation.Simulates (step (k := k)) (Fifo.step (2 ^ k)) Room asFifo Represents := by
  intro st e st' q hR hroom hstep
  unfold Room at hroom
  cases e with
  | insert buffer bid =>
    obtain rfl := Option.some.inj hstep
    exact represents_insertAll hk hR hroom
  | insertRange buffers bufbids allocBufs allocBids =>
    obtain ⟨hlen, hstep⟩ := Option.ite_none_right_eq_some.mp hstep
    obtain rfl := Option.some.inj hstep
    rw [insertRange_cases hk hlen (by omega), asFifo_of_takes rfl]
    exact represents_insertAll hk hR hroom
  | take =>
    obtain ⟨hne, hstep⟩ := Option.ite_none_left_eq_some.mp hstep
    obtain rfl := Option.some.inj hstep
    obtain ⟨rfl, hcap⟩ := hR
    obtain ⟨hcontents, hocc⟩ := contents_take hk hne
    refine ⟨contents { st with head := st.head + 1 }, ?_, rfl, ?_⟩
    · refine (run_cons_eq_some_iff _).mpr ⟨_, ?_, rfl⟩
      rw [hcontents]
      exact if_pos rfl
    · show st.ring.occupied (st.head + 1) ≤ 2 ^ k
      omega

/-- The entries the kernel took in a run. -/
def taken (st : Shared k) (es : List Event) : List IoUringBuf := Simulation.trace step takes st es

/-- **The kernel takes the buffers in the order of their insertion.** In a ring that starts empty,
and as long as the user ensures that there is room, what was inserted is what the kernel took and what
is still between head and tail, in this order. -/
theorem takes_in_order (hk : 2 ^ k ≤ 32768) {es : List Event} {st st' : Shared k}
    (hempty : st.ring.tail = st.head) (hroom : EveryStep step Room st es)
    (hrun : run step st es = some st') :
    es.flatMap inserts = taken st es ++ contents st' ∧ (contents st').length ≤ 2 ^ k := by
  have hR : Represents st [] := by
    have h0 := (occupied_eq_zero_iff st.ring st.head).mpr hempty
    refine ⟨?_, h0 ▸ Nat.zero_le _⟩
    rw [contents, h0]
    rfl
  obtain ⟨q, hq, rfl, hcap⟩ := (simulates_fifo hk).run hR hroom hrun
  obtain ⟨heq, -⟩ := Fifo.run_eq hq
  rw [Simulation.flatMap_trace, Simulation.flatMap_trace] at heq
  simp only [pushed_asFifo, popped_asFifo, List.nil_append] at heq
  rw [Simulation.trace_eq_flatMap inserts hrun] at heq
  refine ⟨heq, ?_⟩
  rw [contents, Fifo.length_window]
  exact hcap

/-- A ring of four entries whose counters are about to wrap. -/
def aboutToWrap : Shared 2 := ⟨⟨Vector.replicate (2 ^ 2) ⟨0, 0, 0⟩, 65535⟩, 65535⟩

/-- One buffer, a failed and a successful range, and two of them taken. -/
def wrappingRun : List Event :=
  [.insert ⟨4096, 64⟩ 0, .insertRange [⟨0, 1⟩] [7] true false,
    .insertRange [⟨8192, 64⟩, ⟨12288, 64⟩] [1, 2] true true, .take, .take]

theorem takes_in_order_wrappingRun : ∃ st', run step aboutToWrap wrappingRun = some st' ∧
    wrappingRun.flatMap inserts = taken aboutToWrap wrappingRun ++ contents st' ∧
    (contents st').length ≤ 2 ^ 2 := by
  have hroom : EveryStep step Room aboutToWrap wrappingRun := by
    refine everyStep_of_cons (by unfold Room; decide) fun t ht => ?_
    obtain rfl := Option.some.inj ht
    refine everyStep_of_cons (by unfold Room; decide) fun t ht => ?_
    obtain rfl := Option.some.inj ht
    refine everyStep_of_cons (by unfold Room; decide) fun t ht => ?_
    obtain rfl := Option.some.inj ht
    refine everyStep_of_cons (by unfold Room; decide) fun t ht => ?_
    obtain rfl := Option.some.inj ht
    refine everyStep_of_cons (by unfold Room; decide) fun t ht => everyStep_nil t
  exact ⟨_, rfl, takes_in_order (by decide) rfl hroom rfl⟩

end Shared

end Iouxx.Ring.IoUringBufRing
