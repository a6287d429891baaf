import Iouxx.Ops.Operation

/-!
# Lengths and counts (`fileio.hpp`, `sendrecv.hpp`, `timeout.hpp`)

The operations keep the size of a buffer and the count of a timeout as `std::size_t`; the functions
that prepare an entry take 32 bits of them.

* `len_build`, `off_build`: what an entry says of the buffer and of the count;
* `carriesLength_iff`, `carriesCount_iff`: **when that is not changed**.
-/

namespace Iouxx.Ops

open Iouxx.Uring

variable {I V : Type} {prep : Prep → Sqe}

/-! ### The setters -/

namespace Operation

/-- **`buffer`**: the operation keeps the address and the size of the buffer; `none` where the class
has no buffer. The operations on files have no `bufIndex` here. -/
def setBuffer (buf len : UInt64) (bufIndex : Int32) : Operation I V → Option (Operation I V)
  | fileRead op => some (fileRead { op with buf := buf, len := len })
  | fileReadFixed op => some (fileReadFixed { op with buf := buf, len := len })
  | fileWrite op => some (fileWrite { op with buf := buf, len := len })
  | fileWriteFixed op => some (fileWriteFixed { op with buf := buf, len := len })
  | socketSend op => some (socketSend { op with buf := buf, len := len, bufIndex := bufIndex })
  | socketSendZc op => some (socketSendZc { op with buf := buf, len := len, bufIndex := bufIndex })
  | socketRecv op => some (socketRecv { op with buf := buf, len := len, bufIndex := bufIndex })
  | _ => none

/-- The size of the buffer that an operation was given. -/
def bufferSize? : Operation I V → Option UInt64
  | fileRead op => some op.len
  | fileReadFixed op => some op.len
  | fileWrite op => some op.len
  | fileWriteFixed op => some op.len
  | socketSend op => some op.len
  | socketSendZc op => some op.len
  | socketRecv op => some op.len
  | _ => none

/-- **`repeat`** of a multishot timeout; 0 means infinite. -/
def setRepeat (n : UInt64) : Operation I V → Option (Operation I V)
  | multishotTimeout op => some (multishotTimeout { op with count := n })
  | _ => none

/-- How often a multishot timeout is to be repeated. -/
def repeatCount? : Operation I V → Option UInt64
  | multishotTimeout op => some op.count
  | _ => none

variable {op op' : Operation I V} {buf n : UInt64} {i : Int32}

theorem bufferSize?_setBuffer (h : op.setBuffer buf n i = some op') : op'.bufferSize? = some n := by
  cases op <;> cases h <;> rfl

theorem repeatCount?_setRepeat (h : op.setRepeat n = some op') : op'.repeatCount? = some n := by
  cases op <;> cases h
  rfl

end Operation

/-! ### What is to arrive -/

/-- The length of an entry suits a buffer: not longer, and not empty for a buffer that is not. -/
def CarriesLength (sqe : Sqe) (n : UInt64) : Prop :=
  sqe.len.toNat ≤ n.toNat ∧ (n ≠ 0 → sqe.len ≠ 0)

/-- The count of an entry is the one that was asked for. -/
def CarriesCount (sqe : Sqe) (n : UInt64) : Prop := sqe.off = n

/-! ### What arrives -/

theorem len_markFixed (sqe : Sqe) (isFixed : Bool) : (sqe.markFixed isFixed).len = sqe.len := by
  cases isFixed <;> rfl

theorem len_useFixedBuf (sqe : Sqe) (bufIndex : Int32) :
    (useFixedBuf sqe bufIndex).len = sqe.len := by
  unfold useFixedBuf
  split_ifs <;> rfl

theorem len_build (h : WritesLength prep) {op : Operation I V} {n : UInt64}
    (hn : op.bufferSize? = some n) : (op.build prep).len = n.toUInt32 := by
  cases op <;> cases hn
  case fileRead op => exact (len_markFixed _ _).trans (h.length _ _ rfl)
  case fileReadFixed op => exact (len_markFixed _ _).trans (h.length _ _ rfl)
  case fileWrite op => exact (len_markFixed _ _).trans (h.length _ _ rfl)
  case fileWriteFixed op => exact (len_markFixed _ _).trans (h.length _ _ rfl)
  case socketSend op =>
    refine (len_useFixedBuf _ _).trans ((len_markFixed _ _).trans ?_)
    exact h.length (.send op.fd op.buf op.len op.flags) _ rfl
  case socketSendZc op =>
    refine (len_useFixedBuf _ _).trans ((len_markFixed _ _).trans ?_)
    exact h.length _ _ rfl
  case socketRecv op =>
    refine (len_useFixedBuf _ _).trans ((len_markFixed _ _).trans ?_)
    exact h.length _ _ rfl

theorem off_build (h : WritesLength prep) {op : Operation I V} {n : UInt64}
    (hn : op.repeatCount? = some n) : (op.build prep).off = n.toUInt32.toUInt64 := by
  cases op <;> cases hn
  exact h.count _ _ _

theorem toUInt32_eq_zero_iff (n : UInt64) : n.toUInt32 = 0 ↔ 4294967296 ∣ n.toNat := by
  rw [← UInt32.toNat_inj, UInt64.toNat_toUInt32]
  exact (Nat.dvd_iff_mod_eq_zero).symm

/-- **When a length arrives**: the buffer is empty, or its size is no multiple of 2³². -/
theorem carriesLength_iff (h : WritesLength prep) {op : Operation I V} {n : UInt64}
    (hn : op.bufferSize? = some n) :
    CarriesLength (op.build prep) n ↔ n = 0 ∨ ¬ 4294967296 ∣ n.toNat := by
  have hle : n.toUInt32.toNat ≤ n.toNat := by
    rw [UInt64.toNat_toUInt32]
    exact Nat.mod_le _ _
  rw [CarriesLength, len_build h hn, ← toUInt32_eq_zero_iff]
  constructor
  · rintro ⟨-, hzero⟩
    by_cases h0 : n = 0
    · exact Or.inl h0
    · exact Or.inr (hzero h0)
  · intro hcond
    exact ⟨hle, fun h0 => hcond.resolve_left h0⟩

/-- **When a count arrives**: it is below 2³². -/
theorem carriesCount_iff (h : WritesLength prep) {op : Operation I V} {n : UInt64}
    (hn : op.repeatCount? = some n) : CarriesCount (op.build prep) n ↔ n.toNat < 4294967296 := by
  have hlt : n.toNat % 4294967296 < 4294967296 := Nat.mod_lt _ (by omega)
  rw [CarriesCount, off_build h hn, ← UInt64.toNat_inj, UInt32.toNat_toUInt64,
    UInt64.toNat_toUInt32]
  change n.toNat % 4294967296 = n.toNat ↔ _
  omega

/-- **Lengths and counts are not changed**: for every operation and size of its buffer, if and only if
the buffer is empty or its size is no multiple of 2³²; for every count, if and only if it is below
2³². -/
theorem lengths_iff (h : WritesLength prep) :
    (∀ (op : Operation I V) n, op.bufferSize? = some n →
      (CarriesLength (op.build prep) n ↔ n = 0 ∨ ¬ 4294967296 ∣ n.toNat)) ∧
    (∀ (op : Operation I V) n, op.repeatCount? = some n →
      (CarriesCount (op.build prep) n ↔ n.toNat < 4294967296)) :=
  ⟨fun _ _ hn => carriesLength_iff h hn, fun _ _ hn => carriesCount_iff h hn⟩

/-- A page is read. -/
theorem lengths_iff_documented :
    CarriesLength ((.fileRead { len := 4096 } : Operation Unit Unit).build documented) 4096 ↔
      (4096 : UInt64) = 0 ∨ ¬ 4294967296 ∣ (4096 : UInt64).toNat :=
  (lengths_iff writesLength_documented).1 (.fileRead { len := 4096 } : Operation Unit Unit) _ rfl

/-- **A buffer of 4 GiB becomes an empty one**, and 2³² repetitions become infinitely many. -/
theorem not_carries :
    (∃ op : Operation Unit Unit, (.fileRead { fd := 3 } : Operation Unit Unit).setBuffer 4096
        4294967296 (-1) = some op ∧ ¬ CarriesLength (op.build documented) 4294967296) ∧
    (∃ op : Operation Unit Unit, (.multishotTimeout { ts := ⟨1, 0⟩ } :
        Operation Unit Unit).setRepeat 4294967296 = some op ∧
      ¬ CarriesCount (op.build documented) 4294967296) := by
  refine ⟨⟨_, rfl, fun hc => hc.2 (by decide) rfl⟩, ⟨_, rfl, fun hc => ?_⟩⟩
  unfold CarriesCount at hc
  exact absurd hc (by decide)

end Iouxx.Ops
