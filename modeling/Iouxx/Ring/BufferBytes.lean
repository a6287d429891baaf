import Iouxx.Ring.BufferQueue

/-!
# Buffers consumed piece by piece (`iouringxx.hpp`, `ring::register_buffer_group`)

With `IOU_PBUF_RING_INC` a kernel does not take whole buffers. It takes bytes from the front of the
buffer at its head and writes to the entry what is left of it; the head moves when the buffer is used
up. `insert` and `insert_range` write to the same array behind the tail. The length of an entry
has 32 bits, the size of a buffer 64.

* `bytesOf_split`: the bytes of an entry are those taken and those of what is left;
* `bytes_step`: what one event does to the bytes between head and tail;
* `consumes_in_order`: **the kernel gives each byte of the inserted buffers once, in the order of
  their insertion, exactly when their sizes fit into 32 bits**.
-/

namespace Iouxx.Ring.IoUringBufRing

open Iouxx.Lib Iouxx.Lib.Trace Iouxx.Utility

/-! ### The bytes of an entry -/

/-- The bytes of an entry: their addresses, with the id of the buffer. -/
def bytesOf (buf : IoUringBuf) : List (UInt64 × UInt16) :=
  (List.range buf.len.toNat).map fun i => (buf.addr + UInt64.ofNat i, buf.bid)

/-- What is left of an entry when `n` bytes were taken. -/
def shrink (buf : IoUringBuf) (n : UInt32) : IoUringBuf :=
  ⟨buf.addr + n.toUInt64, buf.len - n, buf.bid⟩

theorem bytesOf_split {buf : IoUringBuf} {n : UInt32} (h : n ≤ buf.len) :
    bytesOf buf = (bytesOf buf).take n.toNat ++ bytesOf (shrink buf n) := by
  have hle : n.toNat ≤ buf.len.toNat := UInt32.le_iff_toNat_le.mp h
  have hlen : buf.len.toNat = n.toNat + (buf.len - n).toNat := by
    rw [UInt32.toNat_sub_of_le _ _ h]; omega
  unfold bytesOf shrink
  rw [hlen, List.range_add, List.map_append, List.map_map]
  congr 1
  · rw [List.take_left' (by rw [List.length_map, List.length_range])]
  · refine List.map_congr_left fun i _ => ?_
    have hadd : UInt64.ofNat (n.toNat + i) = n.toUInt64 + UInt64.ofNat i := by
      rw [UInt64.ofNat_add, ← UInt32.toNat_toUInt64, UInt64.ofNat_toNat]
    rw [Function.comp_apply, hadd, UInt64.add_assoc]

theorem length_bytesOf (buf : IoUringBuf) : (bytesOf buf).length = buf.len.toNat := by
  simp [bytesOf]

/-- The bytes of a buffer of the user, with its id. -/
def userBytes (b : Buffer × UInt16) : List (UInt64 × UInt16) :=
  (List.range b.1.size.toNat).map fun i => (b.1.data + UInt64.ofNat i, b.2)

theorem length_userBytes (b : Buffer × UInt16) : (userBytes b).length = b.1.size.toNat := by
  simp [userBytes]

theorem length_bytesOf_entryOf (b : Buffer × UInt16) :
    (bytesOf (entryOf b.1 b.2)).length = b.1.size.toNat % 2 ^ 32 := by
  rw [length_bytesOf]
  exact UInt64.toNat_toUInt32 _

theorem length_bytesOf_le (b : Buffer × UInt16) :
    (bytesOf (entryOf b.1 b.2)).length ≤ (userBytes b).length := by
  rw [length_bytesOf_entryOf, length_userBytes]
  exact Nat.mod_le _ _

theorem length_flatMap_bytesOf_le : ∀ l : List (Buffer × UInt16),
    (l.flatMap fun b => bytesOf (entryOf b.1 b.2)).length ≤ (l.flatMap userBytes).length
  | [] => Nat.le_refl _
  | b :: l => by
    rw [List.flatMap_cons, List.flatMap_cons, List.length_append, List.length_append]
    exact Nat.add_le_add (length_bytesOf_le b) (length_flatMap_bytesOf_le l)

/-- **An entry has the bytes of its buffer** exactly when the size fits into 32 bits. -/
theorem bytesOf_entryOf_eq_iff (b : Buffer × UInt16) :
    bytesOf (entryOf b.1 b.2) = userBytes b ↔ b.1.size.toNat < 2 ^ 32 := by
  constructor
  · intro h
    have hlen := congrArg List.length h
    rw [length_bytesOf_entryOf, length_userBytes] at hlen
    omega
  · intro h
    have hlen : (entryOf b.1 b.2).len.toNat = b.1.size.toNat :=
      (UInt64.toNat_toUInt32 _).trans (Nat.mod_eq_of_lt h)
    unfold bytesOf userBytes
    rw [hlen]
    rfl

/-- Entries after each other have the bytes of their buffers only where each of them has. -/
theorem flatMap_bytesOf_eq_iff : ∀ l : List (Buffer × UInt16),
    (l.flatMap fun b => bytesOf (entryOf b.1 b.2)) = l.flatMap userBytes ↔
      ∀ b ∈ l, b.1.size.toNat < 2 ^ 32
  | [] => by simp
  | b :: l => by
    rw [List.flatMap_cons, List.flatMap_cons, List.forall_mem_cons, ← bytesOf_entryOf_eq_iff,
      ← flatMap_bytesOf_eq_iff l]
    refine ⟨fun h => List.append_inj h ?_, fun h => by rw [h.1, h.2]⟩
    -- neither the first entry nor the others can make up for what is missing
    have hlen := congrArg List.length h
    have hfirst := length_bytesOf_le b
    have hrest := length_flatMap_bytesOf_le l
    rw [List.length_append, List.length_append] at hlen
    omega

namespace Shared

/-! ### One event -/

/-- What happens to a ring that is consumed piece by piece: one of the two insertions of the program,
or `n` bytes of the buffer at the head. -/
inductive PieceEvent
  | add (e : Event)
  | consume (n : UInt32)
  deriving DecidableEq, Repr

variable {k : ℕ}

/-- `st` with what is left at the head. -/
def shrinkFront (st : Shared k) (n : UInt32) : Shared k :=
  { st with ring.bufs := st.ring.bufs.setIfInBounds (st.head.toNat % 2 ^ k) (shrink st.front n) }

/-- **One event.** The kernel writes the rest of the buffer back as long as there is one. -/
def stepPieces (st : Shared k) : PieceEvent → Option (Shared k)
  | .add e => if e = .take then none else step st e
  | .consume n =>
    if st.ring.tail = st.head ∨ n = 0 ∨ st.front.len < n then none
    else if n = st.front.len then some { st with head := st.head + 1 }
    else some (st.shrinkFront n)

/-- The buffers an event inserts. -/
def buffersIn : PieceEvent → List (Buffer × UInt16)
  | .add e => buffersOf e
  | .consume _ => []

/-- The bytes of the buffers an event inserts. -/
def bytesIn (e : PieceEvent) : List (UInt64 × UInt16) := (buffersIn e).flatMap userBytes

/-- The bytes of the entries an event writes. -/
def bytesWritten (e : PieceEvent) : List (UInt64 × UInt16) :=
  (buffersIn e).flatMap fun b => bytesOf (entryOf b.1 b.2)

/-- The bytes the kernel gives. -/
def bytesOut (st : Shared k) : PieceEvent → List (UInt64 × UInt16)
  | .add _ => []
  | .consume n => (bytesOf st.front).take n.toNat

/-- The bytes the kernel has not given. -/
def bytesLeft (st : Shared k) : List (UInt64 × UInt16) := (contents st).flatMap bytesOf

/-- What the user has to ensure: there is room for what is inserted. -/
def RoomForPiece (st : Shared k) : PieceEvent → Prop
  | .add e => Room st e
  | .consume _ => True

variable {st st' : Shared k}

theorem contents_add (hk : 2 ^ k ≤ 32768) {e : Event} (he : e ≠ .take) (hroom : Room st e)
    (hcap : st.ring.occupied st.head ≤ 2 ^ k) (h : step st e = some st') :
    contents st' = contents st ++ inserts e ∧ st'.ring.occupied st'.head ≤ 2 ^ k := by
  have htakes : takes st e = [] := by
    cases e with
    | take => exact absurd rfl he
    | _ => rfl
  obtain ⟨q, hq, rfl, hcap'⟩ := simulates_fifo hk st e st' _ ⟨rfl, hcap⟩ hroom h
  refine ⟨?_, hcap'⟩
  obtain ⟨heq, -⟩ := Fifo.run_eq hq
  rw [pushed_asFifo, popped_asFifo, htakes, List.nil_append] at heq
  exact heq.symm

/-- What is left at the head takes the place of the buffer. -/
theorem contents_shrinkFront (hk : 2 ^ k ≤ 32768) (h : st.ring.tail ≠ st.head)
    (hcap : st.ring.occupied st.head ≤ 2 ^ k) (n : UInt32) :
    contents (st.shrinkFront n) = shrink st.front n :: contents { st with head := st.head + 1 } := by
  obtain ⟨-, hocc⟩ := contents_take hk h
  have hsame : (st.shrinkFront n).ring.occupied (st.shrinkFront n).head =
      st.ring.occupied (st.head + 1) + 1 := hocc
  unfold contents
  rw [hsame]
  refine (Fifo.window_set_head _ _ (by omega) _).trans ?_
  rw [Fifo.window_congr _ (succ_modEq (le_sixteen hk) _)]

/-- **One event, as bytes**: what is written comes behind what is left, and what the kernel gives
comes off the front. -/
theorem bytes_step (hk : 2 ^ k ≤ 32768) {e : PieceEvent} (hroom : RoomForPiece st e)
    (hcap : st.ring.occupied st.head ≤ 2 ^ k) (h : stepPieces st e = some st') :
    bytesLeft st ++ bytesWritten e = bytesOut st e ++ bytesLeft st' ∧
      st'.ring.occupied st'.head ≤ 2 ^ k := by
  cases e with
  | add e =>
    obtain ⟨he, h⟩ := Option.ite_none_left_eq_some.mp h
    obtain ⟨hcontents, hcap'⟩ := contents_add hk he hroom hcap h
    refine ⟨?_, hcap'⟩
    rw [bytesLeft, bytesLeft, hcontents, List.flatMap_append, inserts, List.flatMap_map]
    rfl
  | consume n =>
    obtain ⟨hn, h⟩ := Option.ite_none_left_eq_some.mp h
    obtain ⟨hne, -, hle⟩ : st.ring.tail ≠ st.head ∧ n ≠ 0 ∧ n ≤ st.front.len := by
      simpa [not_or] using hn
    obtain ⟨hcontents, hocc⟩ := contents_take hk hne
    have hleft : bytesLeft st = bytesOf st.front ++ bytesLeft { st with head := st.head + 1 } := by
      rw [bytesLeft, hcontents]
      rfl
    have hnone : bytesWritten (.consume n) = [] := rfl
    rw [hnone, List.append_nil, hleft]
    split_ifs at h with hall
    · -- the buffer is used up
      obtain rfl := Option.some.inj h
      refine ⟨?_, by show st.ring.occupied (st.head + 1) ≤ 2 ^ k; omega⟩
      rw [bytesOut, hall, ← length_bytesOf, List.take_length]
    · obtain rfl := Option.some.inj h
      refine ⟨?_, hcap⟩
      have hrest : bytesLeft (st.shrinkFront n) =
          bytesOf (shrink st.front n) ++ bytesLeft { st with head := st.head + 1 } := by
        rw [bytesLeft, contents_shrinkFront hk hne hcap]
        rfl
      rw [bytesOut, hrest, ← List.append_assoc, ← bytesOf_split hle]

/-! ### Runs -/

/-- The bytes the kernel gave in a run. -/
def given (st : Shared k) (es : List PieceEvent) : List (UInt64 × UInt16) :=
  Simulation.trace stepPieces bytesOut st es

theorem bytes_run (hk : 2 ^ k ≤ 32768) : ∀ {es : List PieceEvent} {st st' : Shared k},
    st.ring.occupied st.head ≤ 2 ^ k → EveryStep stepPieces RoomForPiece st es →
    run stepPieces st es = some st' →
    bytesLeft st ++ es.flatMap bytesWritten = given st es ++ bytesLeft st'
  | [], st, st', _, _, hrun => by
    rw [run_nil, Option.some.injEq] at hrun
    subst hrun
    exact List.append_nil _
  | e :: es, st, st', hcap, hroom, hrun => by
    obtain ⟨t, ht, hrun⟩ := (run_cons_eq_some_iff _).mp hrun
    obtain ⟨hroom, hroom'⟩ := everyStep_cons hroom ht
    obtain ⟨hstep, hcap'⟩ := bytes_step hk hroom hcap ht
    have ih := bytes_run hk hcap' hroom' hrun
    have hgiven : given st (e :: es) = bytesOut st e ++ given t es := Simulation.trace_cons ht es
    rw [List.flatMap_cons, ← List.append_assoc, hstep, List.append_assoc, ih, hgiven,
      List.append_assoc]

/-- **The kernel gives the bytes in the order of their insertion**, however it cuts the buffers into
pieces. In a ring that starts empty, and as long as the user ensures that there is room, the bytes of
the inserted buffers are those the kernel gave and those still between head and tail, in this order,
exactly when the sizes of these buffers fit into 32 bits. -/
theorem consumes_in_order (hk : 2 ^ k ≤ 32768) {es : List PieceEvent} {st st' : Shared k}
    (hempty : st.ring.tail = st.head) (hroom : EveryStep stepPieces RoomForPiece st es)
    (hrun : run stepPieces st es = some st') :
    es.flatMap bytesIn = given st es ++ bytesLeft st' ↔
      ∀ e ∈ es, ∀ b ∈ buffersIn e, b.1.size.toNat < 2 ^ 32 := by
  have h0 := (occupied_eq_zero_iff st.ring st.head).mpr hempty
  have hnone : bytesLeft st = [] := by
    rw [bytesLeft, contents, h0]
    rfl
  have h := bytes_run hk (by rw [h0]; exact Nat.zero_le _) hroom hrun
  rw [hnone, List.nil_append] at h
  have hwritten : es.flatMap bytesWritten =
      (es.flatMap buffersIn).flatMap fun b => bytesOf (entryOf b.1 b.2) := List.flatMap_assoc.symm
  have hin : es.flatMap bytesIn = (es.flatMap buffersIn).flatMap userBytes := List.flatMap_assoc.symm
  rw [← h, hwritten, hin, eq_comm, flatMap_bytesOf_eq_iff]
  simp only [List.mem_flatMap]
  refine ⟨fun hall e he b hb => hall b ⟨e, he, hb⟩, ?_⟩
  rintro hall b ⟨e, he, hb⟩
  exact hall e he b hb

/-- Two buffers, given in pieces while a third one is inserted. -/
def piecesRun (size : UInt64) : List PieceEvent :=
  [.add (.insertRange [⟨4096, 3⟩, ⟨8192, 2⟩] [0, 1] true true), .consume 2,
    .add (.insert ⟨12288, size⟩ 2), .consume 1, .consume 1]

theorem consumes_in_order_pieces :
    (∃ st', run stepPieces aboutToWrap (piecesRun 1) = some st' ∧
      (piecesRun 1).flatMap bytesIn = given aboutToWrap (piecesRun 1) ++ bytesLeft st') ∧
    ∃ st', run stepPieces aboutToWrap (piecesRun 4294967296) = some st' ∧
      (piecesRun 4294967296).flatMap bytesIn ≠
        given aboutToWrap (piecesRun 4294967296) ++ bytesLeft st' := by
  have hroom : ∀ size, EveryStep stepPieces RoomForPiece aboutToWrap (piecesRun size) := by
    intro size
    refine everyStep_of_cons (by unfold RoomForPiece Room; decide) fun t ht => ?_
    obtain rfl := Option.some.inj ht
    refine everyStep_of_cons trivial fun t ht => ?_
    obtain rfl := Option.some.inj ht
    refine everyStep_of_cons (Nat.add_le_add_right (show _ ≤ 3 by decide) 1) fun t _ => ?_
    refine everyStep_of_cons trivial fun t _ => ?_
    exact everyStep_of_cons trivial fun t ht => everyStep_nil t
  refine ⟨⟨_, rfl, (consumes_in_order (by decide) rfl (hroom 1) rfl).mpr (by decide)⟩, _, rfl, ?_⟩
  intro h
  have hfit := (consumes_in_order (by decide) rfl (hroom 4294967296) rfl).mp h
    (.add (.insert ⟨12288, 4294967296⟩ 2)) (by simp [piecesRun]) (⟨12288, 4294967296⟩, 2)
    List.mem_cons_self
  exact absurd hfit (by decide)

end Shared

end Iouxx.Ring.IoUringBufRing
