import Iouxx.Lib.Fill
import Iouxx.Ops.Results

/-!
# Registering a list of files (`fixed_file_register_batch_operation`)

The kernel registers a prefix of the list and returns its length. Where it chooses the indexes itself
it writes them over the descriptors of this prefix; with an explicit offset the callback writes the
indexes, over the whole list.
-/

namespace Iouxx.Ops

open Iouxx.Cpp.Error Iouxx.Lib.Fill Iouxx.Utility

namespace FixedFileRegisterBatchOperation

/-- What the kernel leaves in the span when it registers the first `k` descriptors: the indexes it has
allocated, in this mode. -/
def kernelWrites (op : FixedFileRegisterBatchOperation) (k : ℕ) (allocated : ℕ → Int32) :
    List Int32 :=
  if op.off = allocIndex then op.fds.mapIdx fun i fd => if i < k then allocated i else fd else op.fds

/-- The operation when its completion is delivered. -/
def registered (op : FixedFileRegisterBatchOperation) (k : ℕ) (allocated : ℕ → Int32) :
    FixedFileRegisterBatchOperation :=
  { op with fds := op.kernelWrites k allocated }

/-- The index of the fixed file that the `i`-th descriptor became. -/
def fixedIndex (op : FixedFileRegisterBatchOperation) (allocated : ℕ → Int32) (i : ℕ) : Int32 :=
  if op.off = allocIndex then allocated i else op.off + Int32.ofNat i

/-- **The indexes of the prefix, and the descriptors of the rest.** -/
def ReportsPrefix (op : FixedFileRegisterBatchOperation) (k : ℕ) (allocated : ℕ → Int32)
    (fileIndex : List Int32) : Prop :=
  ∀ i, fileIndex[i]? = if i < k then some (op.fixedIndex allocated i) else op.fds[i]?

/-- The descriptors that were not registered already are the indexes they would have. -/
def RestIsIndexed (op : FixedFileRegisterBatchOperation) (k : ℕ) : Prop :=
  ∀ i, k ≤ i → i < op.fds.length → op.fds[i]? = some (op.off + Int32.ofNat i)

variable {op : FixedFileRegisterBatchOperation} {k : ℕ} {allocated : ℕ → Int32}

theorem getElem?_writeIndexes (fds : List Int32) (off : Int32) (i : ℕ) :
    (writeIndexes fds off)[i]? = if i < fds.length then some (off + Int32.ofNat i) else none := by
  unfold writeIndexes
  rw [getElem?_foldl_set fds (fun i => off + Int32.ofNat i) le_rfl]
  split
  case isTrue => rfl
  case isFalse h => exact List.getElem?_eq_none (by omega)

theorem reportsPrefix_alloc (hk : k ≤ op.fds.length) (hoff : op.off = allocIndex) :
    op.ReportsPrefix k allocated (op.kernelWrites k allocated) := by
  intro i
  unfold kernelWrites fixedIndex
  rw [if_pos hoff, if_pos hoff, List.getElem?_mapIdx]
  rcases Nat.lt_or_ge i op.fds.length with hi | hi
  · rw [List.getElem?_eq_getElem hi]
    by_cases h : i < k
    · simp [h]
    · simp [h]
  · rw [List.getElem?_eq_none hi, if_neg (by omega)]
    rfl

/-- **With an offset**, the whole span is overwritten. -/
theorem reportsPrefix_writeIndexes_iff (hk : k ≤ op.fds.length) (hoff : op.off ≠ allocIndex) :
    op.ReportsPrefix k allocated (writeIndexes op.fds op.off) ↔ op.RestIsIndexed k := by
  unfold ReportsPrefix RestIsIndexed fixedIndex
  refine ⟨fun h i hki hi => ?_, fun h i => ?_⟩
  · rw [← (h i).trans (if_neg (by omega)), getElem?_writeIndexes, if_pos hi]
  · rw [getElem?_writeIndexes, if_neg hoff]
    by_cases hik : i < k
    · rw [if_pos (by omega), if_pos hik]
    · rw [if_neg hik]
      by_cases hi : i < op.fds.length
      · rw [if_pos hi, h i (by omega) hi]
      · rw [if_neg hi, List.getElem?_eq_none (by omega)]

/-- **When a partial registration is reported as it is.** For every list, offset and number `k` of
descriptors that were registered, the callback gets `k` and a list that has the indexes of the prefix
and the descriptors of the rest exactly when the kernel allocated, or the rest is indexed already. -/
theorem reportsPrefix_iff {I V : Type} (op : FixedFileRegisterBatchOperation) (k : ℕ)
    (hk : k ≤ op.fds.length) (allocated : ℕ → Int32) (ev : Int32) (hev : ev.toInt = k) :
    ((op.registered k allocated).doCallback ev : List (Delivery I V)) =
        [.value (.registerBatch k ((op.registered k allocated).afterCallback ev))] ∧
      (op.ReportsPrefix k allocated ((op.registered k allocated).afterCallback ev) ↔
        op.off = allocIndex ∨ op.RestIsIndexed k) := by
  have hge : ev ≥ 0 := ge_zero_iff.mpr (by omega)
  refine ⟨?_, ?_⟩
  · unfold doCallback invokeValue
    rw [if_pos hge, hev]
    rfl
  · unfold afterCallback
    rw [if_pos hge]
    by_cases hoff : op.off = allocIndex
    · rw [if_neg (fun h => h hoff)]
      exact iff_of_true (reportsPrefix_alloc hk hoff) (.inl hoff)
    · have hfds : (op.registered k allocated).fds = op.fds := if_neg hoff
      have hoff' : (op.registered k allocated).off ≠ allocIndex := hoff
      rw [if_pos hoff', hfds]
      exact (reportsPrefix_writeIndexes_iff hk hoff).trans ⟨.inr, fun h => h.resolve_left hoff⟩

/-- All three descriptors registered from index 4. -/
theorem reportsPrefix_iff_full : ReportsPrefix ⟨[10, 11, 12], 4⟩ 3 (fun _ => 0) [4, 5, 6] :=
  (reportsPrefix_iff (I := Unit) (V := Unit) ⟨[10, 11, 12], 4⟩ 3 (by decide) (fun _ => 0) 3
    rfl).2.mpr (.inr fun i h h' => absurd (Nat.lt_of_le_of_lt h h') (lt_irrefl _))

/-- **One of three registered, and the other descriptors are lost.** -/
theorem not_reportsPrefix_partial :
    (registered ⟨[10, 11, 12], 4⟩ 1 fun _ => 0).afterCallback 1 = [4, 5, 6] ∧
      ¬ ReportsPrefix ⟨[10, 11, 12], 4⟩ 1 (fun _ => 0) [4, 5, 6] :=
  ⟨by decide, fun h => absurd (h 1) (by decide)⟩

end FixedFileRegisterBatchOperation

end Iouxx.Ops
