import Iouxx.Ring.Registration

/-!
# The end of a registration (`ring::register_buffers`, `ring::update_buffer_table`)

A buffer can be registered together with a `ring_management_operation`, whose address is the tag of the
entry in the buffer table. An entry that was replaced is kept by the kernel as long as a request uses it;
then the kernel posts an entry with the tag, and the callback of the operation is invoked. The operation
has to outlive the use of the buffers, and what the caller knows of that are the return codes.

* `count_callTables`: what a call does to the tags in the table;
* `balanced_step`: what one event preserves;
* `refers_iff`: **the kernel refers to an operation exactly as long as it was told less often than
  buffers were registered with it, as the return codes say**.
-/

namespace Iouxx.Ring.Registration

open Iouxx.Cpp.Error Iouxx.Lib.Fill Iouxx.Lib.Trace Iouxx.Utility

/-! ### Tags -/

/-- The operation that an entry refers to. -/
def tag? (e : Entry) : Option UInt64 := e.bind fun p => if p.2 = 0 then none else some p.2

def tags (l : List Entry) : List UInt64 := l.filterMap tag?

/-- The operations that the buffer table refers to. -/
def Tables.tags (t : Tables) : List UInt64 := Registration.tags (t.buffers.getD [])

/-- The entries that a call takes out of the buffer table. -/
def replaced (t : Tables) : TableCall → List Entry
  | .updateBufferTable offset buffers unregOp a ev =>
    if (entries buffers unregOp a).isSome then
      ((t.buffers.getD []).drop offset.toUInt32.toNat).take ev.toNat
    else []
  | _ => []

/-- **What the return code says was registered**: everything where there is no error, and the first `n`
buffers where `update_buffer_table` returns the number `-n`. -/
def reported (ec : ErrorCode) : TableCall → List Entry
  | .registerBuffers buffers unregOp a _ =>
    if ec.isError then [] else (entries buffers unregOp a).getD []
  | .updateBufferTable _ buffers unregOp a _ =>
    ((entries buffers unregOp a).getD []).take (-ec.value).toNat
  | _ => []

/-! ### One kernel ring -/

/-- The tables of a kernel ring, with what refers to operations. -/
structure Notices where
  tables : Tables
  /-- Of entries that were replaced, and for which nothing is posted yet. -/
  retired : List UInt64
  /-- Of entries in the completion queue. -/
  cq : List UInt64
  -- the history
  told : List UInt64
  registered : List UInt64

namespace Notices

/-- A new ring. -/
def init : Notices := ⟨.empty, [], [], [], []⟩

/-- A call; the last use of a replaced entry ends; an entry is taken and its callback is invoked. -/
inductive Event
  | call (c : TableCall)
  | done (i : ℕ)
  | fetch
  deriving DecidableEq, Repr

/-- **One event.** -/
def step (st : Notices) : Event → Option Notices
  | .call c => do
    let (t, ec) ← callTables st.tables c
    some { st with
      tables := t
      retired := st.retired ++ Registration.tags (replaced st.tables c)
      registered := st.registered ++ Registration.tags (reported ec c) }
  | .done i => do
    let tag ← st.retired[i]?
    some { st with retired := st.retired.eraseIdx i, cq := st.cq ++ [tag] }
  | .fetch =>
    match st.cq with
    | [] => none
    | tag :: rest => some { st with cq := rest, told := st.told ++ [tag] }

/-- The references of the kernel to operations. -/
def references (st : Notices) : List UInt64 := st.tables.tags ++ st.retired ++ st.cq

/-- **What was registered is referred to or was told.** -/
def Balanced (st : Notices) : Prop := ∀ op,
  st.registered.count op = st.references.count op + st.told.count op

end Notices

variable {t t' : Tables} {ec : ErrorCode}

/-! ### One call -/

theorem buffers_registerDirectDescriptorTable {size : UInt64} {allAlloc : Bool} {ev range : ℤ}
    (h : registerDirectDescriptorTable t size allAlloc ev range = some (t', ec)) :
    t'.buffers = t.buffers := by
  obtain ⟨t₁, hsparse, h⟩ := Option.bind_eq_some_iff.mp h
  have h₁ : t₁.buffers = t.buffers := by
    rcases Tables.registerFilesSparse_cases hsparse with ⟨-, rfl⟩ | ⟨-, -, rfl⟩
    · rfl
    · rfl
  split at h
  · obtain ⟨t₂, hrange, h⟩ := Option.bind_eq_some_iff.mp h
    obtain ⟨rfl, -⟩ := Prod.mk.inj (Option.some.inj h)
    rcases Tables.registerFileAllocRange_cases hrange with ⟨-, rfl⟩ | ⟨-, f, -, rfl⟩
    · exact h₁
    · exact h₁
  · obtain ⟨rfl, -⟩ := Prod.mk.inj (Option.some.inj h)
    exact h₁

theorem tags_registerBufferTable {size : UInt64} {ev : ℤ}
    (h : registerBufferTable t size ev = some (t', ec)) : t'.tags = t.tags := by
  obtain ⟨t₁, hreg, h⟩ := Option.bind_eq_some_iff.mp h
  obtain ⟨rfl, -⟩ := Prod.mk.inj (Option.some.inj h)
  rcases Tables.registerBuffers_cases hreg with ⟨-, rfl⟩ | ⟨-, hnone, rfl⟩
  · rfl
  · unfold Tables.tags tags
    rw [hnone]
    exact List.filterMap_eq_nil_iff.mpr fun e he => by rw [List.eq_of_mem_replicate he]; rfl

theorem tags_registerBuffers {buffers : List Iovec} {unregOp : Option UInt64} {a : Allocs} {ev : ℤ}
    (h : registerBuffers t buffers unregOp a ev = some (t', ec)) :
    t'.tags = t.tags ++ tags (reported ec (.registerBuffers buffers unregOp a ev)) := by
  unfold registerBuffers at h
  unfold reported
  dsimp only
  rcases hnew : entries buffers unregOp a with _ | new
  · rw [hnew] at h
    obtain ⟨rfl, rfl⟩ := Prod.mk.inj (Option.some.inj h)
    exact (List.append_nil _).symm
  · rw [hnew] at h
    obtain ⟨t₁, hreg, h⟩ := Option.bind_eq_some_iff.mp h
    obtain ⟨rfl, rfl⟩ := Prod.mk.inj (Option.some.inj h)
    rcases Tables.registerBuffers_cases hreg with ⟨hev, rfl⟩ | ⟨rfl, hnone, rfl⟩
    · rw [if_pos (isError_neg_iff.mpr (by omega))]
      exact (List.append_nil _).symm
    · unfold Tables.tags
      rw [hnone]
      rfl

/-- **An update** takes out what is replaced and puts in what is reported. -/
theorem count_updateBufferTable {offset : UInt64} {buffers : List Iovec} {unregOp : Option UInt64}
    {a : Allocs} {ev : ℤ} (h : updateBufferTable t offset buffers unregOp a ev = some (t', ec))
    (op : UInt64) :
    t'.tags.count op + (tags (replaced t (.updateBufferTable offset buffers unregOp a ev))).count op =
      t.tags.count op +
        (tags (reported ec (.updateBufferTable offset buffers unregOp a ev))).count op := by
  unfold updateBufferTable at h
  unfold reported replaced
  dsimp only
  rcases hnew : entries buffers unregOp a with _ | new
  · rw [hnew] at h
    obtain ⟨rfl, rfl⟩ := Prod.mk.inj (Option.some.inj h)
    rw [Option.getD_none, List.take_nil]
    rfl
  · rw [hnew] at h
    obtain ⟨t₁, hupdate, h⟩ := Option.bind_eq_some_iff.mp h
    obtain ⟨rfl, rfl⟩ := Prod.mk.inj (Option.some.inj h)
    rw [value_makeSystemErrorCode, Int.neg_neg, if_pos (Option.isSome_some)]
    rcases Tables.registerBuffersUpdateTag_cases hupdate with ⟨hev, rfl⟩ |
      ⟨-, table, htable, hlen, rfl⟩
    · rw [Int.toNat_of_nonpos (by omega), List.take_zero, List.take_zero]
    · have hperm := splice_perm table (new.take ev.toNat) offset.toUInt32.toNat
      rw [List.length_take_of_le hlen] at hperm
      have hcount := (hperm.filterMap tag?).count_eq op
      rw [List.filterMap_append, List.filterMap_append, List.count_append, List.count_append]
        at hcount
      unfold Tables.tags
      rw [htable]
      exact hcount

/-- **One call**: the tags that are in the table, or were taken out, are those that were there and those
that are reported. -/
theorem count_callTables {c : TableCall} (h : callTables t c = some (t', ec)) (op : UInt64) :
    t'.tags.count op + (tags (replaced t c)).count op =
      t.tags.count op + (tags (reported ec c)).count op := by
  cases c with
  | registerDirectDescriptorTable size allAlloc ev range =>
    unfold Tables.tags
    rw [buffers_registerDirectDescriptorTable h]
    rfl
  | registerBufferTable size ev =>
    rw [tags_registerBufferTable h]
    rfl
  | updateBufferTable offset buffers unregOp a ev => exact count_updateBufferTable h op
  | registerBuffers buffers unregOp a ev =>
    rw [tags_registerBuffers h, List.count_append]
    rfl

/-! ### Runs -/

namespace Notices

variable {st st' : Notices}

theorem balanced_step {e : Event} (h : Balanced st) (hs : st.step e = some st') : Balanced st' := by
  intro op
  have hop := h op
  unfold references at hop ⊢
  rw [List.count_append, List.count_append] at hop ⊢
  cases e with
  | call c =>
    obtain ⟨⟨t, ec⟩, hcall, hs⟩ := Option.bind_eq_some_iff.mp hs
    obtain rfl := Option.some.inj hs
    have hcount := count_callTables hcall op
    simp only [List.count_append]
    omega
  | done i =>
    obtain ⟨tag, htag, hs⟩ := Option.bind_eq_some_iff.mp hs
    obtain rfl := Option.some.inj hs
    obtain ⟨hi, rfl⟩ := List.getElem?_eq_some_iff.mp htag
    have hperm := (List.getElem_cons_eraseIdx_perm hi).count_eq op
    rw [List.count_cons] at hperm
    simp only [List.count_append, List.count_singleton]
    omega
  | fetch =>
    unfold step at hs
    rcases hcq : st.cq with _ | ⟨tag, rest⟩
    · rw [hcq] at hs; cases hs
    · rw [hcq] at hs hop
      obtain rfl := Option.some.inj hs
      rw [List.count_cons] at hop
      simp only [List.count_append, List.count_singleton]
      omega

theorem balanced_of_reachable (h : Reachable step init st) : Balanced st :=
  h.induction (fun _ _ _ hI hs => balanced_step hI hs) fun _ => rfl

/-- **How long an operation has to live.** In every state of a ring, whatever was registered and updated,
with whatever part of it the kernel accepted, and whichever entries are still used by requests: the
kernel refers to an operation exactly as long as its callback was invoked less often than buffers were
registered with it, as the return codes of the calls say; and it is never invoked more often. -/
theorem refers_iff (h : Reachable step init st) (op : UInt64) :
    (op ∈ st.references ↔ st.told.count op < st.registered.count op) ∧
      st.told.count op ≤ st.registered.count op := by
  have hop := balanced_of_reachable h op
  rw [← List.count_pos_iff]
  omega

/-- Two buffers are registered with an operation; an update replaces the first one, which was in use. -/
def replacedOne : List Event :=
  [.call (.registerBuffers [⟨4096, 64⟩, ⟨8192, 64⟩] (some 7) ⟨true, true⟩ 0),
    .call (.updateBufferTable 0 [⟨12288, 64⟩] none ⟨true, true⟩ 1), .done 0, .fetch]

/-- The operation was told once, and is still referred to. -/
theorem refers_iff_replacedOne : ∃ st, run step init replacedOne = some st ∧ st.told = [7] ∧
    st.registered = [7, 7] ∧ 7 ∈ st.references :=
  ⟨_, rfl, rfl, rfl, (refers_iff ⟨replacedOne, rfl⟩ 7).1.mpr (by decide)⟩

end Notices

end Iouxx.Ring.Registration
