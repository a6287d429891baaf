import Iouxx.Lib.Fill
import Iouxx.Ring.BufferGroups

/-!
# Registration of tables (`ring`, the `register_*` and `update_*` calls)

A kernel ring has a table of descriptors and a table of buffers. The calls that make or fill one may
throw away what the kernel has done already: `register_direct_descriptor_table` leaves the table where
it cannot be put under allocation, and `update_buffer_table` takes the number of entries that were
updated for an error.

* `registerDirectDescriptorTable_cases`, `updateBufferTable_cases`: what a call does;
* `unchanged_iff`: **a call that returns an error has changed nothing, exactly when it is not one of
  these two**;
* `refused_of_left`: no call makes the descriptor table that was left again.
-/

namespace Iouxx.Ring

open Iouxx.Cpp.Error Iouxx.Lib.Fill Iouxx.Utility

namespace Registration

/-! ### The tables of a kernel ring -/

/-- `iovec`, the base as its address. -/
structure Iovec where
  base : UInt64
  len : UInt64
  deriving DecidableEq, Repr

/-- An entry of the buffer table with its tag; `none` is an empty one. -/
abbrev Entry := Option (Iovec × UInt64)

/-- A descriptor table, and the range the kernel allocates its slots from. -/
structure FileTable where
  slots : List (Option ℕ)
  allocRange : ℕ × ℕ
  deriving DecidableEq, Repr

/-- What is registered with a kernel ring, apart from buffer rings. -/
structure Tables where
  files : Option FileTable
  buffers : Option (List Entry)
  deriving DecidableEq, Repr

namespace Tables

/-- Nothing is registered. -/
def empty : Tables := ⟨none, none⟩

/-- `io_uring_register_files_sparse`, where it returns `ev`: there is at most one table, and a new one
is all under allocation. -/
def registerFilesSparse (t : Tables) (nr : UInt32) (ev : ℤ) : Option Tables :=
  if ev < 0 then some t
  else if ev = 0 ∧ t.files = none then
    some { t with files := some ⟨List.replicate nr.toNat none, 0, nr.toNat⟩ }
  else none

/-- `io_uring_register_file_alloc_range`, where it returns `ev`. -/
def registerFileAllocRange (t : Tables) (off len : UInt32) (ev : ℤ) : Option Tables :=
  if ev < 0 then some t
  else if ev = 0 then do
    let f ← t.files
    if off.toNat + len.toNat ≤ f.slots.length then
      some { t with files := some { f with allocRange := (off.toNat, len.toNat) } }
    else none
  else none

/-- `io_uring_register_buffers_tags` and its likes, where they return `ev`. -/
def registerBuffers (t : Tables) (new : List Entry) (ev : ℤ) : Option Tables :=
  if ev < 0 then some t
  else if ev = 0 ∧ t.buffers = none then some { t with buffers := some new }
  else none

/-- `io_uring_register_buffers_update_tag`, where it returns `ev`: the number of entries that were
updated, which may be less than what was asked for. -/
def registerBuffersUpdateTag (t : Tables) (off : UInt32) (new : List Entry) (ev : ℤ) :
    Option Tables :=
  if ev < 0 then some t
  else do
    let table ← t.buffers
    if ev.toNat ≤ new.length ∧ off.toNat + new.length ≤ table.length then
      some { t with buffers := some (splice table off.toNat (new.take ev.toNat)) }
    else none

end Tables

/-! ### The calls of a ring -/

/-- Whether the two vectors of a call can be allocated. -/
structure Allocs where
  iovecs : Bool
  tags : Bool
  deriving DecidableEq, Repr

/-- What the kernel reads of the vectors of a call: as many entries as fit an `unsigned`. The tag is the
address of the operation that is told of the end of a registration, where there is one, and a null base
is an empty entry. `none` is an exception. -/
def entries (buffers : List Iovec) (unregOp : Option UInt64) (a : Allocs) : Option (List Entry) :=
  if a.iovecs && (unregOp.isNone || a.tags) then
    let nr := UInt32.ofNat buffers.length
    some ((buffers.take nr.toNat).map fun iov =>
      if iov.base = 0 then none else some (iov, unregOp.getD 0))
  else none

/-- `ring::register_direct_descriptor_table_alloc_range`. -/
def registerDirectDescriptorTableAllocRange (t : Tables) (offset length : UInt64) (ev : ℤ) :
    Option (Tables × ErrorCode) := do
  let t ← t.registerFileAllocRange offset.toUInt32 length.toUInt32 ev
  some (t, makeSystemErrorCode (-ev))

/-- `ring::register_direct_descriptor_table`; `range` is what the second call returns, where it is
made. -/
def registerDirectDescriptorTable (t : Tables) (size : UInt64) (allAlloc : Bool) (ev range : ℤ) :
    Option (Tables × ErrorCode) := do
  let t ← t.registerFilesSparse size.toUInt32 ev
  if ev ≥ 0 && allAlloc then registerDirectDescriptorTableAllocRange t 0 size range
  else some (t, makeSystemErrorCode (-ev))

/-- `ring::register_buffer_table`. -/
def registerBufferTable (t : Tables) (size : UInt64) (ev : ℤ) : Option (Tables × ErrorCode) := do
  let t ← t.registerBuffers (List.replicate size.toUInt32.toNat none) ev
  some (t, makeSystemErrorCode (-ev))

/-- `ring::update_buffer_table`, with or without an operation. -/
def updateBufferTable (t : Tables) (offset : UInt64) (buffers : List Iovec)
    (unregOp : Option UInt64) (a : Allocs) (ev : ℤ) : Option (Tables × ErrorCode) :=
  match entries buffers unregOp a with
  | some new => do
    let t ← t.registerBuffersUpdateTag offset.toUInt32 new ev
    some (t, makeSystemErrorCode (-ev))
  | none => some (t, makeErrorCode .notEnoughMemory)

/-- `ring::register_buffers`, with or without an operation. -/
def registerBuffers (t : Tables) (buffers : List Iovec) (unregOp : Option UInt64) (a : Allocs)
    (ev : ℤ) : Option (Tables × ErrorCode) :=
  match entries buffers unregOp a with
  | some new => do
    let t ← t.registerBuffers new ev
    some (t, makeSystemErrorCode (-ev))
  | none => some (t, makeErrorCode .notEnoughMemory)

/-- A call about the tables, with what liburing and the allocator return to it. -/
inductive TableCall
  | registerDirectDescriptorTable (size : UInt64) (allAlloc : Bool) (ev range : ℤ)
  | registerBufferTable (size : UInt64) (ev : ℤ)
  | updateBufferTable (offset : UInt64) (buffers : List Iovec) (unregOp : Option UInt64) (a : Allocs)
    (ev : ℤ)
  | registerBuffers (buffers : List Iovec) (unregOp : Option UInt64) (a : Allocs) (ev : ℤ)
  deriving DecidableEq, Repr

def callTables (t : Tables) : TableCall → Option (Tables × ErrorCode)
  | .registerDirectDescriptorTable size allAlloc ev range =>
    registerDirectDescriptorTable t size allAlloc ev range
  | .registerBufferTable size ev => registerBufferTable t size ev
  | .updateBufferTable offset buffers unregOp a ev => updateBufferTable t offset buffers unregOp a ev
  | .registerBuffers buffers unregOp a ev => registerBuffers t buffers unregOp a ev

/-- A call that registers something. -/
inductive Call
  | tables (c : TableCall)
  | registerBufferGroup (entries bgid : UInt16) (incConsume : Bool) (err : ℤ)
  deriving DecidableEq, Repr

/-- The ring objects, and the tables of each kernel ring. -/
structure State where
  objects : Objects
  tables : ℕ → Tables

/-- The error code of a result. -/
def errorOf : Except ErrorCode BufferGroup → ErrorCode
  | .ok _ => .none
  | .error ec => ec

/-- **One call** on the ring at an address; those about the tables assert that it is valid. -/
def call (s : State) (x : Addr) : Call → Option (State × ErrorCode)
  | .tables c => do
    let k ← s.objects.rawRing x
    let (t, ec) ← callTables (s.tables k) c
    some ({ s with tables := Function.update s.tables k t }, ec)
  | .registerBufferGroup entries bgid incConsume err => do
    let r ← s.objects.objects x
    let (objects, res) ← s.objects.registerBufferGroup x r entries bgid incConsume err
    some ({ s with objects }, errorOf res)

/-- **What is left behind** by a call that returns an error: a descriptor table that cannot be put under
allocation, or entries of the buffer table that were others before. -/
def Leaves (t : Tables) : TableCall → Prop
  | .registerDirectDescriptorTable _ allAlloc ev range => allAlloc = true ∧ 0 ≤ ev ∧ range < 0
  | .updateBufferTable offset buffers unregOp a ev => 0 < ev ∧
    ∃ table new, t.buffers = some table ∧ entries buffers unregOp a = some new ∧
      (table.drop offset.toUInt32.toNat).take ev.toNat ≠ new.take ev.toNat
  | .registerBufferTable .. | .registerBuffers .. => False

/-! ### What the kernel does -/

variable {t t' : Tables} {ec : ErrorCode}

namespace Tables

theorem registerFilesSparse_cases {nr : UInt32} {ev : ℤ}
    (h : t.registerFilesSparse nr ev = some t') :
    (ev < 0 ∧ t' = t) ∨ (ev = 0 ∧ t.files = none ∧
      t' = { t with files := some ⟨List.replicate nr.toNat none, 0, nr.toNat⟩ }) := by
  unfold registerFilesSparse at h
  split_ifs at h with hev hok
  · exact .inl ⟨hev, (Option.some.inj h).symm⟩
  · exact .inr ⟨hok.1, hok.2, (Option.some.inj h).symm⟩

theorem registerFileAllocRange_cases {off len : UInt32} {ev : ℤ}
    (h : t.registerFileAllocRange off len ev = some t') :
    (ev < 0 ∧ t' = t) ∨ (ev = 0 ∧ ∃ f, t.files = some f ∧
      t' = { t with files := some { f with allocRange := (off.toNat, len.toNat) } }) := by
  unfold registerFileAllocRange at h
  split_ifs at h with hev hok
  · exact .inl ⟨hev, (Option.some.inj h).symm⟩
  · obtain ⟨f, hf, h⟩ := Option.bind_eq_some_iff.mp h
    split_ifs at h
    exact .inr ⟨hok, f, hf, (Option.some.inj h).symm⟩

theorem registerBuffers_cases {new : List Entry} {ev : ℤ}
    (h : t.registerBuffers new ev = some t') :
    (ev < 0 ∧ t' = t) ∨ (ev = 0 ∧ t.buffers = none ∧ t' = { t with buffers := some new }) := by
  unfold registerBuffers at h
  split_ifs at h with hev hok
  · exact .inl ⟨hev, (Option.some.inj h).symm⟩
  · exact .inr ⟨hok.1, hok.2, (Option.some.inj h).symm⟩

/-- A buffer table is made whole, or not at all. -/
theorem registerBuffers_unchanged {new : List Entry} {ev : ℤ}
    (h : t.registerBuffers new ev = some t') (hev : ev ≠ 0) : t' = t := by
  rcases registerBuffers_cases h with ⟨-, rfl⟩ | ⟨h0, -⟩
  · rfl
  · exact absurd h0 hev

/-- Some first ones of the entries are written. -/
theorem registerBuffersUpdateTag_cases {off : UInt32} {new : List Entry} {ev : ℤ}
    (h : t.registerBuffersUpdateTag off new ev = some t') :
    (ev < 0 ∧ t' = t) ∨ (0 ≤ ev ∧ ∃ table, t.buffers = some table ∧ ev.toNat ≤ new.length ∧
      t' = { t with buffers := some (splice table off.toNat (new.take ev.toNat)) }) := by
  unfold registerBuffersUpdateTag at h
  split_ifs at h with hev
  · exact .inl ⟨hev, (Option.some.inj h).symm⟩
  · obtain ⟨table, htable, h⟩ := Option.bind_eq_some_iff.mp h
    split_ifs at h with hlen
    exact .inr ⟨by omega, table, htable, hlen.1, (Option.some.inj h).symm⟩

end Tables

/-! ### What the calls do -/

theorem isError_neg_iff {ev : ℤ} : (makeSystemErrorCode (-ev)).isError = true ↔ ev ≠ 0 := by
  rw [isError_makeSystemErrorCode, decide_eq_true_iff]
  omega

/-- **The cases of `register_direct_descriptor_table`**: nothing is done, or there is a table where
there was none, with an error where it cannot be put under allocation. -/
theorem registerDirectDescriptorTable_cases {size : UInt64} {allAlloc : Bool} {ev range : ℤ}
    (h : registerDirectDescriptorTable t size allAlloc ev range = some (t', ec)) :
    (ev < 0 ∧ t' = t ∧ ec.isError = true) ∨
    (ev = 0 ∧ t.files = none ∧ t'.files.isSome = true ∧
      (ec.isError = true ↔ allAlloc = true ∧ range < 0)) := by
  obtain ⟨t₁, hsparse, h₁⟩ := Option.bind_eq_some_iff.mp h
  rcases Tables.registerFilesSparse_cases hsparse with ⟨hev, rfl⟩ | ⟨rfl, hnone, rfl⟩
  · left
    rw [decide_eq_false (show ¬ ev ≥ 0 by omega), if_neg (by simp)] at h₁
    obtain ⟨rfl, rfl⟩ := Prod.mk.inj (Option.some.inj h₁)
    exact ⟨hev, rfl, isError_neg_iff.mpr (by omega)⟩
  · right
    refine ⟨rfl, hnone, ?_⟩
    rcases allAlloc with _ | _
    · rw [if_neg (by simp)] at h₁
      obtain ⟨rfl, rfl⟩ := Prod.mk.inj (Option.some.inj h₁)
      exact ⟨rfl, by simp⟩
    · rw [if_pos (by simp)] at h₁
      obtain ⟨t₂, hrange, h₁⟩ := Option.bind_eq_some_iff.mp h₁
      obtain ⟨rfl, rfl⟩ := Prod.mk.inj (Option.some.inj h₁)
      rw [isError_neg_iff]
      rcases Tables.registerFileAllocRange_cases hrange with ⟨hlt, rfl⟩ | ⟨rfl, f, -, rfl⟩
      · exact ⟨rfl, iff_of_true (by omega) ⟨rfl, hlt⟩⟩
      · exact ⟨rfl, by simp⟩

/-- **The cases of `update_buffer_table`**: nothing is done, or some entries are overwritten, which is an
error where there is one at least. -/
theorem updateBufferTable_cases {offset : UInt64} {buffers : List Iovec} {unregOp : Option UInt64}
    {a : Allocs} {ev : ℤ} (h : updateBufferTable t offset buffers unregOp a ev = some (t', ec)) :
    ((entries buffers unregOp a = none ∨ ev ≤ 0) ∧ t' = t) ∨
    (0 < ev ∧ ec.isError = true ∧ ∃ table new, t.buffers = some table ∧
      entries buffers unregOp a = some new ∧ ev.toNat ≤ new.length ∧ t' = { t with
        buffers := some (splice table offset.toUInt32.toNat (new.take ev.toNat)) }) := by
  unfold updateBufferTable at h
  rcases hnew : entries buffers unregOp a with _ | new
  · rw [hnew] at h
    exact .inl ⟨.inl rfl, (congrArg Prod.fst (Option.some.inj h)).symm⟩
  · rw [hnew] at h
    obtain ⟨t₁, hupdate, h⟩ := Option.bind_eq_some_iff.mp h
    obtain ⟨rfl, rfl⟩ := Prod.mk.inj (Option.some.inj h)
    rcases Tables.registerBuffersUpdateTag_cases hupdate with ⟨hev, rfl⟩ |
      ⟨hev, table, htable, hlen, rfl⟩
    · exact .inl ⟨.inr (by omega), rfl⟩
    · rcases Int.le_iff_eq_or_lt.mp hev with rfl | hpos
      · refine .inl ⟨.inr (Int.le_refl 0), ?_⟩
        -- nothing is written
        have hself : splice table offset.toUInt32.toNat (new.take (0 : ℤ).toNat) = table :=
          splice_eq_self_iff.mpr (by simp)
        rw [hself, ← htable]
      · exact .inr ⟨hpos, isError_neg_iff.mpr (by omega), table, new, htable, rfl, hlen, rfl⟩

theorem splice_buffers_eq_iff {table written : List Entry} {off : ℕ} (h : t.buffers = some table) :
    { t with buffers := some (splice table off written) } = t ↔
      (table.drop off).take written.length = written := by
  rw [← splice_eq_self_iff]
  refine ⟨fun he => ?_, fun he => ?_⟩
  · exact Option.some.inj ((congrArg Tables.buffers he).trans h)
  · rw [he, ← h]

theorem registerDirectDescriptorTable_unchanged_iff {size : UInt64} {allAlloc : Bool}
    {ev range : ℤ} (h : registerDirectDescriptorTable t size allAlloc ev range = some (t', ec)) :
    (ec.isError = true → t' = t) ↔ ¬ (allAlloc = true ∧ 0 ≤ ev ∧ range < 0) := by
  rcases registerDirectDescriptorTable_cases h with ⟨hev, rfl, -⟩ | ⟨rfl, hnone, hsome, herr⟩
  · exact iff_of_true (fun _ => rfl) (fun hl => absurd hl.2.1 (by omega))
  · have hne : t' ≠ t := by
      rintro rfl
      rw [hnone] at hsome
      cases hsome
    rw [herr]
    exact ⟨fun hun hl => hne (hun ⟨hl.1, hl.2.2⟩), fun hl he => absurd ⟨he.1, Int.le_refl 0, he.2⟩ hl⟩

theorem updateBufferTable_unchanged_iff {offset : UInt64} {buffers : List Iovec}
    {unregOp : Option UInt64} {a : Allocs} {ev : ℤ}
    (h : updateBufferTable t offset buffers unregOp a ev = some (t', ec)) :
    (ec.isError = true → t' = t) ↔ ¬ Leaves t (.updateBufferTable offset buffers unregOp a ev) := by
  unfold Leaves
  rcases updateBufferTable_cases h with ⟨hnot, rfl⟩ |
    ⟨hpos, herr, table, new, htable, hnew, hlen, rfl⟩
  · refine iff_of_true (fun _ => rfl) ?_
    rintro ⟨hpos, table, new, -, hnew, -⟩
    rcases hnot with hnone | hle
    · rw [hnone] at hnew
      cases hnew
    · omega
  · rw [splice_buffers_eq_iff htable, List.length_take_of_le hlen]
    refine ⟨?_, fun hl _ => ?_⟩
    · rintro hun ⟨-, table', new', htable', hnew', hne⟩
      obtain rfl := Option.some.inj (htable.symm.trans htable')
      obtain rfl := Option.some.inj (hnew.symm.trans hnew')
      exact hne (hun herr)
    · by_contra hne
      exact hl ⟨hpos, table, new, htable, hnew, hne⟩

theorem registerBufferTable_unchanged {size : UInt64} {ev : ℤ}
    (h : registerBufferTable t size ev = some (t', ec)) (hec : ec.isError = true) : t' = t := by
  obtain ⟨t₁, hreg, h⟩ := Option.bind_eq_some_iff.mp h
  obtain ⟨rfl, rfl⟩ := Prod.mk.inj (Option.some.inj h)
  exact Tables.registerBuffers_unchanged hreg (isError_neg_iff.mp hec)

theorem registerBuffers_unchanged {buffers : List Iovec} {unregOp : Option UInt64} {a : Allocs}
    {ev : ℤ} (h : registerBuffers t buffers unregOp a ev = some (t', ec))
    (hec : ec.isError = true) : t' = t := by
  unfold registerBuffers at h
  rcases hnew : entries buffers unregOp a with _ | new
  · rw [hnew] at h
    exact (congrArg Prod.fst (Option.some.inj h)).symm
  · rw [hnew] at h
    obtain ⟨t₁, hreg, h⟩ := Option.bind_eq_some_iff.mp h
    obtain ⟨rfl, rfl⟩ := Prod.mk.inj (Option.some.inj h)
    exact Tables.registerBuffers_unchanged hreg (isError_neg_iff.mp hec)

/-- **A call about the tables that returns an error has changed nothing**, exactly when it leaves nothing
behind. -/
theorem callTables_unchanged_iff {c : TableCall} (h : callTables t c = some (t', ec)) :
    (ec.isError = true → t' = t) ↔ ¬ Leaves t c := by
  cases c with
  | registerDirectDescriptorTable size allAlloc ev range =>
    exact registerDirectDescriptorTable_unchanged_iff h
  | registerBufferTable size ev => exact iff_of_true (registerBufferTable_unchanged h) id
  | updateBufferTable offset buffers unregOp a ev => exact updateBufferTable_unchanged_iff h
  | registerBuffers buffers unregOp a ev => exact iff_of_true (registerBuffers_unchanged h) id

/-! ### Calls on a ring -/

/-- A call leaves something behind in the tables of the kernel ring. -/
def State.Leaves (s : State) (x : Addr) : Call → Prop
  | .tables c => ∃ k, s.objects.rawRing x = some k ∧ Registration.Leaves (s.tables k) c
  | .registerBufferGroup .. => False

/-- A ring that was just initialised. -/
def State.opened (x : Addr) : State where
  objects := { Objects.init with
    objects := Function.update (fun _ => none) x (some ⟨some 0, some 1, .empty⟩)
    acquired := [.ring 0, .probe 1] }
  tables := fun _ => .empty

variable {s s' : State} {x : Addr}

theorem call_tables {c : TableCall} (h : call s x (.tables c) = some (s', ec)) :
    ∃ k t, s.objects.rawRing x = some k ∧ callTables (s.tables k) c = some (t, ec) ∧
      s' = { s with tables := Function.update s.tables k t } := by
  obtain ⟨k, hk, h⟩ := Option.bind_eq_some_iff.mp h
  obtain ⟨⟨t, ec'⟩, hc, h⟩ := Option.bind_eq_some_iff.mp h
  obtain ⟨rfl, rfl⟩ := Prod.mk.inj (Option.some.inj h)
  exact ⟨k, t, hk, hc, rfl⟩

theorem updateTables_eq_self_iff {k : ℕ} :
    { s with tables := Function.update s.tables k t } = s ↔ t = s.tables k := by
  refine ⟨fun h => ?_, ?_⟩
  · exact Function.update_eq_self_iff.mp (congrArg State.tables h)
  · rintro rfl
    rw [Function.update_eq_self]

theorem registerBufferGroup_unchanged {entries bgid : UInt16} {incConsume : Bool} {err : ℤ}
    (h : call s x (.registerBufferGroup entries bgid incConsume err) = some (s', ec))
    (hec : ec.isError = true) : s' = s := by
  obtain ⟨r, hx, h⟩ := Option.bind_eq_some_iff.mp h
  obtain ⟨⟨objects, res⟩, hreg, h⟩ := Option.bind_eq_some_iff.mp h
  obtain ⟨rfl, rfl⟩ := Prod.mk.inj (Option.some.inj h)
  rcases Objects.registerBufferGroup_spec hx hreg with ⟨br, -, rfl, -⟩ | ⟨-, -, rfl, -⟩ |
    ⟨-, -, rfl, -⟩
  · rfl
  · rfl
  · cases hec

/-- **When a failed registration leaves no residue.** For every state, every call and every success or
failure of liburing and of the allocations: what is registered with the kernel and the tables of the
ring object are as before where the call returns an error, exactly when it neither makes a descriptor
table that cannot be put under allocation nor changes an entry of the buffer table. -/
theorem unchanged_iff {c : Call} (h : call s x c = some (s', ec)) :
    (ec.isError = true → s' = s) ↔ ¬ s.Leaves x c := by
  rcases c with c | ⟨entries, bgid, incConsume, err⟩
  · obtain ⟨k, t, hk, hc, rfl⟩ := call_tables h
    rw [updateTables_eq_self_iff, callTables_unchanged_iff hc]
    refine not_congr ⟨fun hl => ⟨k, hk, hl⟩, ?_⟩
    rintro ⟨k', hk', hl⟩
    obtain rfl := Option.some.inj (hk.symm.trans hk')
    exact hl
  · exact iff_of_true (registerBufferGroup_unchanged h) id

/-- The kernel refuses a descriptor table. -/
theorem unchanged_iff_refused :
    { State.opened 0 with tables := Function.update (State.opened 0).tables 0 .empty } =
      State.opened 0 := by
  have hcall : call (State.opened 0) 0 (.tables (.registerDirectDescriptorTable 16 true (-12) 0)) =
      some (_, makeSystemErrorCode 12) := rfl
  refine (unchanged_iff hcall).mpr ?_ rfl
  rintro ⟨k, -, -, h0, -⟩
  exact absurd h0 (by decide)

/-- **A descriptor table that cannot be put under allocation stays, and an updated entry is an error.** -/
theorem not_unchanged :
    (∃ s', call (State.opened 0) 0 (.tables (.registerDirectDescriptorTable 16 true 0 (-22))) =
      some (s', makeSystemErrorCode 22) ∧ s' ≠ State.opened 0) ∧
    (∃ s s', s.objects = (State.opened 0).objects ∧
      call s 0 (.tables (.updateBufferTable 0 [⟨4096, 64⟩] none ⟨true, true⟩ 1)) =
        some (s', makeSystemErrorCode (-1)) ∧ s' ≠ s) := by
  refine ⟨⟨_, rfl, fun h => ?_⟩, ⟨(State.opened 0).objects, fun _ => ⟨none, some [none, none]⟩⟩, _,
    rfl, rfl, fun h => ?_⟩
  · have hfiles := congrArg (fun s : State => (s.tables 0).files) h
    exact absurd hfiles (by decide)
  · have hbuffers := congrArg (fun s : State => (s.tables 0).buffers) h
    exact absurd hbuffers (by decide)

/-- **No call makes the descriptor table that was left again**: the kernel has it already. -/
theorem refused_of_left {size size' : UInt64} {allAlloc allAlloc' : Bool} {ev ev' range range' : ℤ}
    {s'' : State} {ec' : ErrorCode}
    (h : call s x (.tables (.registerDirectDescriptorTable size allAlloc ev range)) = some (s', ec))
    (hl : s.Leaves x (.tables (.registerDirectDescriptorTable size allAlloc ev range)))
    (h' : call s' x (.tables (.registerDirectDescriptorTable size' allAlloc' ev' range')) =
      some (s'', ec')) : ec'.isError = true ∧ s'' = s' := by
  obtain ⟨k, t, hk, hc, rfl⟩ := call_tables h
  obtain ⟨k', t', hk', hc', rfl⟩ := call_tables h'
  obtain rfl := Option.some.inj (hk.symm.trans hk')
  obtain ⟨k', hk', -, hev, -⟩ := hl
  rcases registerDirectDescriptorTable_cases hc with ⟨hlt, -⟩ | ⟨-, -, hsome, -⟩
  · omega
  · have hself : Function.update s.tables k t k = t := Function.update_self ..
    have hc'' : registerDirectDescriptorTable t size' allAlloc' ev' range' = some (t', ec') :=
      (congrArg (registerDirectDescriptorTable · size' allAlloc' ev' range') hself).symm.trans hc'
    rcases registerDirectDescriptorTable_cases hc'' with ⟨-, ht, herr⟩ | ⟨-, hnone, -⟩
    · refine ⟨herr, updateTables_eq_self_iff.mpr ?_⟩
      exact ht.trans hself.symm
    · rw [hnone] at hsome
      cases hsome

end Registration

end Iouxx.Ring
