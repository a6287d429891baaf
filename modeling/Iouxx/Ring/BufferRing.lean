import Iouxx.Utility
import Mathlib.Data.Nat.ModEq

/-!
# Inserting buffers (`iouringxx.hpp`, `ring::buffer_ring`)

A buffer ring is an array of `2 ^ k` entries that the program fills behind its 16-bit tail and the
kernel consumes from its head. `insert` writes one entry and advances the tail; `insert_range` writes
all its entries at growing offsets from the tail and advances it once.

* `addAll_advance`: the entries that `insert_range` writes are those that `insert` writes;
* `insertRange_eq`: **`insert_range` does what inserting the buffers one by one does**, and keeps
  what the kernel has not consumed.
-/

namespace Iouxx.Ring

open Iouxx.Cpp.Error Iouxx.Utility

/-- `io_uring_buf`. -/
structure IoUringBuf where
  addr : UInt64
  len : UInt32
  bid : UInt16
  deriving DecidableEq, Repr

/-- `io_uring_buf_ring`, with `2 ^ k` entries. -/
structure IoUringBufRing (k : ℕ) where
  bufs : Vector IoUringBuf (2 ^ k)
  tail : UInt16
  deriving DecidableEq, Repr

namespace IoUringBufRing

variable {k : ℕ}

/-- `io_uring_buf_ring_mask` for the number of entries. -/
def mask (k : ℕ) : ℕ := 2 ^ k - 1

/-- The index of an entry: `(tail + offset) & mask`. -/
def index (r : IoUringBufRing k) (offset : ℕ) : ℕ := (r.tail.toNat + offset) &&& mask k

/-- `io_uring_buf_ring_add`. -/
def add (r : IoUringBufRing k) (addr : UInt64) (len : UInt32) (bid : UInt16) (bufOffset : ℕ) :
    IoUringBufRing k :=
  { r with bufs := r.bufs.setIfInBounds (r.index bufOffset) ⟨addr, len, bid⟩ }

/-- `io_uring_buf_ring_advance`. -/
def advance (r : IoUringBufRing k) (count : ℕ) : IoUringBufRing k :=
  { r with tail := r.tail + UInt16.ofNat count }

/-- `buffer_ring::insert`. -/
def insert (r : IoUringBufRing k) (buffer : Buffer) (bid : UInt16) : IoUringBufRing k :=
  (r.add buffer.data buffer.size.toUInt32 bid 0).advance 1

/-- The loop body of `insert_range`. -/
def insertRangeStep (st : IoUringBufRing k × UInt16) (bufBid : Iovec × UInt16) :
    IoUringBufRing k × UInt16 :=
  (st.1.add bufBid.1.iovBase bufBid.1.iovLen.toUInt32 bufBid.2 st.2.toNat, st.2 + 1)

/-- `buffer_ring::insert_range`, where `allocBufs` and `allocBids` say whether the two vectors can be
allocated. -/
def insertRange (r : IoUringBufRing k) (buffers : List Buffer) (bufbids : List UInt16)
    (allocBufs allocBids : Bool) : IoUringBufRing k × ErrorCode :=
  if allocBufs = false ∨ allocBids = false then (r, makeErrorCode .notEnoughMemory)
  else
    let (r, total) := ((buffers.map toIovec).zip bufbids).foldl insertRangeStep (r, 0)
    (r.advance total.toNat, .none)

/-- `insert` for one buffer after the other. -/
def insertAll (r : IoUringBufRing k) (l : List (Buffer × UInt16)) : IoUringBufRing k :=
  l.foldl (fun r bufBid => r.insert bufBid.1 bufBid.2) r

/-- How many entries the kernel has not consumed, for its head. -/
def occupied (r : IoUringBufRing k) (head : UInt16) : ℕ := (r.tail - head).toNat

/-! ### The position of an entry -/

theorem index_eq (r : IoUringBufRing k) (offset : ℕ) :
    r.index offset = (r.tail.toNat + offset) % 2 ^ k := Nat.and_two_pow_sub_one_eq_mod _ _

/-- **An advanced tail moves all positions**, also where it wraps. -/
theorem index_advance (hk : k ≤ 16) (r : IoUringBufRing k) (count offset : ℕ) :
    (r.advance count).index offset = r.index (count + offset) := by
  have hdvd : 2 ^ k ∣ 2 ^ 16 := pow_dvd_pow 2 hk
  have htail : (r.advance count).tail.toNat = (r.tail.toNat + count) % 2 ^ 16 := by
    simp [advance, UInt16.toNat_add]
  rw [index_eq, index_eq, htail, Nat.add_mod, Nat.mod_mod_of_dvd _ hdvd, ← Nat.add_mod, add_assoc]

theorem offset_inj {a i j : ℕ} (hi : i < 2 ^ k) (hj : j < 2 ^ k)
    (h : (a + i) % 2 ^ k = (a + j) % 2 ^ k) : i = j := by
  have hmod : i ≡ j [MOD 2 ^ k] := Nat.ModEq.add_left_cancel' a h
  exact Nat.ModEq.eq_of_lt_of_lt hmod hi hj

/-! ### Both ways to insert -/

theorem advance_advance (r : IoUringBufRing k) (m n : ℕ) :
    (r.advance m).advance n = r.advance (m + n) := by
  simp [advance, UInt16.add_assoc]

/-- The entries of `insert_range`, at the offsets from `n` on. -/
def addAll (r : IoUringBufRing k) : ℕ → List (Buffer × UInt16) → IoUringBufRing k
  | _, [] => r
  | n, b :: l => (r.add b.1.data b.1.size.toUInt32 b.2 n).addAll (n + 1) l

/-- **Inserting behind `n` entries that are not published yet.** -/
theorem addAll_advance (hk : k ≤ 16) : ∀ (l : List (Buffer × UInt16)) (r : IoUringBufRing k) (n : ℕ),
    (r.addAll n l).advance (n + l.length) = (r.advance n).insertAll l
  | [], r, n => rfl
  | b :: l, r, n => by
    have hadd : ((r.advance n).add b.1.data b.1.size.toUInt32 b.2 0).advance 1 =
        (r.add b.1.data b.1.size.toUInt32 b.2 n).advance (n + 1) := by
      have hindex := index_advance hk r n 0
      rw [← advance_advance]
      unfold add
      rw [hindex]
      rfl
    have ih := addAll_advance hk l (r.add b.1.data b.1.size.toUInt32 b.2 n) (n + 1)
    rw [← hadd] at ih
    rw [List.length_cons, show n + (l.length + 1) = n + 1 + l.length by omega]
    exact ih

theorem foldl_insertRangeStep : ∀ (buffers : List Buffer) (bufbids : List UInt16)
    (r : IoUringBufRing k) (total : UInt16),
    buffers.length = bufbids.length → total.toNat + buffers.length < 2 ^ 16 →
    ∃ total' : UInt16, total'.toNat = total.toNat + buffers.length ∧
      ((buffers.map toIovec).zip bufbids).foldl insertRangeStep (r, total) =
        (r.addAll total.toNat (buffers.zip bufbids), total')
  | [], [], r, total, _, _ => ⟨total, rfl, rfl⟩
  | [], _ :: _, _, _, h, _ => by cases h
  | _ :: _, [], _, _, h, _ => by cases h
  | b :: buffers, bid :: bufbids, r, total, hlen, hlt => by
    rw [List.length_cons] at hlt
    have hsucc : (total + 1).toNat = total.toNat + 1 := by
      rw [UInt16.toNat_add, UInt16.toNat_one]; omega
    obtain ⟨total', htotal, hfold⟩ := foldl_insertRangeStep buffers bufbids
      (r.add b.data b.size.toUInt32 bid total.toNat) (total + 1) (by simpa using hlen) (by omega)
    refine ⟨total', ?_, ?_⟩
    · rw [htotal, hsucc, List.length_cons]; omega
    · rw [hsucc] at hfold
      exact hfold

/-! ### What is not consumed -/

theorem getElem?_addAll {i : ℕ} : ∀ (l : List (Buffer × UInt16)) (r : IoUringBufRing k) (n : ℕ),
    (∀ j < l.length, r.index (n + j) ≠ i) → (r.addAll n l).bufs[i]? = r.bufs[i]?
  | [], r, n, _ => rfl
  | b :: l, r, n, h => by
    have h0 : r.index n ≠ i := h 0 (Nat.succ_pos _)
    have ih := getElem?_addAll l (r.add b.1.data b.1.size.toUInt32 b.2 n) (n + 1) fun j hj => by
      have := h (j + 1) (Nat.succ_lt_succ hj)
      rwa [show n + (j + 1) = n + 1 + j by omega] at this
    show ((r.add b.1.data b.1.size.toUInt32 b.2 n).addAll (n + 1) l).bufs[i]? = _
    rw [ih]
    unfold add
    rw [Vector.getElem?_setIfInBounds_ne h0]

theorem head_add_occupied (r : IoUringBufRing k) (head : UInt16) :
    (head.toNat + r.occupied head) % 2 ^ 16 = r.tail.toNat := by
  have h1 := UInt16.toNat_lt head
  have h2 := UInt16.toNat_lt r.tail
  unfold occupied
  rw [UInt16.toNat_sub]
  omega

/-- The entry `i` behind the head is none of those that start at the tail, as long as all fit. -/
theorem index_ne (hk : k ≤ 16) (r : IoUringBufRing k) {head : UInt16} {i j : ℕ}
    (hi : i < r.occupied head) (hj : r.occupied head + j < 2 ^ k) :
    r.index j ≠ (head.toNat + i) &&& mask k := by
  have hdvd : 2 ^ k ∣ 2 ^ 16 := pow_dvd_pow 2 hk
  intro h
  unfold mask at h
  rw [index_eq, Nat.and_two_pow_sub_one_eq_mod, ← head_add_occupied r head, Nat.add_mod,
    Nat.mod_mod_of_dvd _ hdvd, ← Nat.add_mod, add_assoc] at h
  have := offset_inj hj (by omega) h
  omega

/-- **`insert_range` against `insert`**: where there is room for all buffers it does what inserting
them one by one does, no entry that the kernel has not consumed is overwritten, and where it returns
an error nothing has changed. -/
theorem insertRange_eq (hk : 2 ^ k ≤ 32768) (r : IoUringBufRing k) (head : UInt16)
    (buffers : List Buffer) (bufbids : List UInt16) (hlen : buffers.length = bufbids.length)
    (hroom : r.occupied head + buffers.length ≤ 2 ^ k) :
    r.insertRange buffers bufbids true true = (r.insertAll (buffers.zip bufbids), .none) ∧
    (∀ i < r.occupied head, (r.insertAll (buffers.zip bufbids)).bufs[(head.toNat + i) &&& mask k]? =
      r.bufs[(head.toNat + i) &&& mask k]?) ∧
    ∀ allocBufs allocBids r' ec, r.insertRange buffers bufbids allocBufs allocBids = (r', ec) →
      ec.isError = true → r' = r := by
  have hk16 : k ≤ 16 := by
    by_contra hlt
    have := Nat.pow_lt_pow_right (show 1 < 2 by decide) (show 15 < k by omega)
    omega
  have hzip : (buffers.zip bufbids).length = buffers.length := by
    rw [List.length_zip]; omega
  obtain ⟨total, htotal, hfold⟩ :=
    foldl_insertRangeStep buffers bufbids r 0 hlen (by rw [UInt16.toNat_zero]; omega)
  rw [UInt16.toNat_zero, zero_add] at htotal
  rw [UInt16.toNat_zero] at hfold
  have hall : (r.addAll 0 (buffers.zip bufbids)).advance buffers.length =
      r.insertAll (buffers.zip bufbids) := by
    have h := addAll_advance hk16 (buffers.zip bufbids) r 0
    rw [hzip, zero_add, show r.advance 0 = r by simp [advance]] at h
    exact h
  have hok : r.insertRange buffers bufbids true true = (r.insertAll (buffers.zip bufbids), .none) := by
    unfold insertRange
    rw [if_neg (by simp), hfold]
    show ((r.addAll 0 (buffers.zip bufbids)).advance total.toNat, ErrorCode.none) = _
    rw [htotal, hall]
  refine ⟨hok, fun i hi => ?_, fun allocBufs allocBids r' ec h herr => ?_⟩
  · rw [← hall]
    refine getElem?_addAll (buffers.zip bufbids) r 0 fun j hj => ?_
    rw [zero_add]
    exact index_ne hk16 r hi (by omega)
  · by_cases halloc : allocBufs = false ∨ allocBids = false
    · unfold insertRange at h
      rw [if_pos halloc, Prod.mk.injEq] at h
      exact h.1.symm
    · -- both allocations succeed, and there is no error
      rw [not_or, Bool.not_eq_false, Bool.not_eq_false] at halloc
      rw [halloc.1, halloc.2, hok, Prod.mk.injEq] at h
      rw [← h.2] at herr
      cases herr

/-- A ring of four entries whose tail is about to wrap. -/
def wrapping : IoUringBufRing 2 := ⟨Vector.replicate (2 ^ 2) ⟨0, 0, 0⟩, 65535⟩

/-- Two buffers for it, where one entry is occupied. -/
theorem insertRange_eq_wrapping :
    wrapping.insertRange [⟨4096, 64⟩, ⟨8192, 64⟩] [0, 1] true true =
      (wrapping.insertAll [(⟨4096, 64⟩, 0), (⟨8192, 64⟩, 1)], .none) :=
  (insertRange_eq (by decide) wrapping 65534 _ _ rfl (by decide)).1

end IoUringBufRing

end Iouxx.Ring
