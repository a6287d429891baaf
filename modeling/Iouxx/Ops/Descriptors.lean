import Iouxx.Ops.Targets
import Mathlib.Data.Finset.Erase
import Mathlib.Data.Finset.Lattice.Lemmas

/-!
# Descriptors that are opened and closed (`openclose.hpp`, `sockprep.hpp`, `connection.hpp`)

The classes that open a descriptor tell their callback a handle made of the result of the kernel, and
the handle is closed with `file_close_operation` or `socket_close_operation`. The kernel returns a new
descriptor, or the slot it chose in the table of direct descriptors; for a slot that the caller asked
for with `index` it returns 0.

* `told_eq_opened_iff`: whether the handle that the callback is told names what the kernel opened;
* `accounted_step`: what one completion or one close preserves;
* `accounted_iff`: **in a run the open descriptors are those that handles name, exactly when every slot
  asked for is told and every handle is closed by a class that can name it**.
-/

namespace Iouxx.Ops

open Iouxx.Lib.Trace Iouxx.Uring

variable {I V : Type} {prep : Prep → Sqe}

/-! ### What the kernel opens -/

/-- **The descriptor that the kernel opens** for an entry, where the result is `ev`. -/
def kernelOpens (sqe : Sqe) (ev : Int32) : Target :=
  if sqe.fileIndex = 0 then ⟨ev, false⟩
  else if sqe.fileIndex = fileIndexAlloc then ⟨ev, true⟩
  else ⟨(sqe.fileIndex - 1).toInt32, true⟩

/-- What the kernel may return where it opens a descriptor: 0 for a slot it was told. -/
def CanOpen (sqe : Sqe) (ev : Int32) : Prop :=
  0 ≤ ev ∧ (sqe.fileIndex ≠ 0 → sqe.fileIndex ≠ fileIndexAlloc → ev = 0)

instance (sqe : Sqe) (ev : Int32) : Decidable (CanOpen sqe ev) := by unfold CanOpen; infer_instance

/-! ### What the callback is told -/

/-- The handle that a callback is told. -/
def Delivery.handle? : Delivery I V → Option Handle
  | value (.file f) => some (.file f)
  | value (.directory d) => some (.file d.toFile)
  | value (.fixedFile f) => some (.fixedFile f)
  | value (.socket s) => some (.socket s)
  | value (.fixedSocket s) => some (.fixedSocket s)
  | value (.connection c) => some (.connection c)
  | value (.fixedConnection c) => some (.fixedConnection c)
  | value (.accept conn _) => some (.connection conn)
  | value (.fixedAccept conn _) => some (.fixedConnection conn)
  | value (.multishotAccept conn _) => some (.connection conn)
  | value (.multishotFixedAccept conn _) => some (.fixedConnection conn)
  | _ => none

namespace Operation

/-- The classes that open a descriptor. -/
def opens : Operation I V → Bool
  | fileOpen _ | fixedFileOpen _ | directoryOpen _ | fixedFileInstall _ | socketOpen _
  | fixedSocketOpen _ | socketAccept .. | socketAcceptOperation _ | fixedSocketAccept ..
  | fixedSocketAcceptOperation _ | socketMultishotAccept _ | fixedSocketMultishotAccept _ => true
  | _ => false

/-- What was set with `index`, where the class has it. -/
def index? : Operation I V → Option Int32
  | fixedFileOpen op => some op.fileIndex
  | fixedSocketOpen op => some op.fileIndex
  | fixedSocketAccept _ op => some op.fileIndex
  | fixedSocketAcceptOperation op => some op.fileIndex
  | _ => none

/-- The field `file_index` of the entry of an opening class. -/
def slot : Operation I V → UInt32
  | fixedSocketMultishotAccept _ => fileIndexAlloc
  | op => op.index?.elim 0 fun i => slotField i.toUInt32

/-- **When the slot is told**: the class has no `index`, or it is `alloc_index` or 0, or -2, which is
written to the entry as `alloc_index` is. -/
def TellsSlot (op : Operation I V) : Prop :=
  ∀ i, op.index? = some i → i = allocIndex ∨ i = 0 ∨ i = -2

/-- The descriptors named by what the callback is told. -/
def told (ev : Int32) (cqeFlags : UInt32) (op : Operation I V) : Finset Target :=
  ((op.doCallback ev cqeFlags).filterMap fun d => d.handle?.map Handle.target).toFinset

variable {op : Operation I V} {ev : Int32}

theorem fileIndex_build (hindex : WritesFileIndex prep) (hop : op.opens = true) :
    (op.build prep).fileIndex = op.slot := by
  have hmark : ∀ (sqe : Sqe) isFixed, (sqe.markFixed isFixed).fileIndex = sqe.fileIndex := by
    intro sqe isFixed
    cases isFixed <;> rfl
  cases op with
  | fixedSocketAccept info op | fixedSocketAcceptOperation op | fixedSocketMultishotAccept op =>
    exact (hmark _ _).trans (hindex _ _ rfl)
  | fileOpen op | fixedFileOpen op | directoryOpen op | fixedFileInstall op | socketOpen op
  | fixedSocketOpen op | socketAccept info op | socketAcceptOperation op
  | socketMultishotAccept op => exact hindex _ _ rfl
  | _ => cases hop

theorem slotField_ne_zero (i : UInt32) : slotField i ≠ 0 := by
  unfold slotField fileIndexAlloc
  split
  · decide
  · rename_i hne
    intro h0
    refine hne ?_
    rw [← UInt32.add_sub_cancel i 1, h0]
    rfl

/-- A class that opens a descriptor makes a handle of the result, as a descriptor or as a slot. -/
theorem doCallback_of_opens (hop : op.opens = true) (ev : Int32) (cqeFlags : UInt32) :
    ∃ v : Option (Value I V), op.doCallback ev cqeFlags = invokeDecoded ev v ∧
      v.isSome = op.decodes ∧
      ∀ w, v = some w → (Delivery.value w).handle?.map Handle.target = some ⟨ev, op.slot ≠ 0⟩ := by
  have hslot : ∀ i : UInt32, some (Target.mk ev true) = some ⟨ev, decide (slotField i ≠ 0)⟩ := by
    intro i
    rw [decide_eq_true (slotField_ne_zero i)]
  cases op with
  | fixedFileOpen op | fixedSocketOpen op | fixedSocketAcceptOperation op =>
    refine ⟨some _, rfl, rfl, fun w hw => ?_⟩
    rw [← Option.some.inj hw]
    exact hslot _
  | fileOpen op | directoryOpen op | fixedFileInstall op | socketOpen op
  | socketAcceptOperation op | socketMultishotAccept op | fixedSocketMultishotAccept op =>
    refine ⟨some _, rfl, rfl, fun w hw => ?_⟩
    rw [← Option.some.inj hw]
    rfl
  | socketAccept info op =>
    refine ⟨_, rfl, Option.isSome_map .., fun w hw => ?_⟩
    obtain ⟨peer, -, rfl⟩ := Option.map_eq_some_iff.mp hw
    rfl
  | fixedSocketAccept info op =>
    refine ⟨_, rfl, Option.isSome_map .., fun w hw => ?_⟩
    obtain ⟨peer, -, rfl⟩ := Option.map_eq_some_iff.mp hw
    exact hslot _
  | _ => cases hop

theorem told_of_nonneg (hop : op.opens = true) (hev : 0 ≤ ev) (hdec : op.decodes = true)
    (cqeFlags : UInt32) : op.told ev cqeFlags = {⟨ev, op.slot ≠ 0⟩} := by
  obtain ⟨v, hv, hsome, ht⟩ := doCallback_of_opens hop ev cqeFlags
  obtain ⟨w, rfl⟩ := Option.isSome_iff_exists.mp (hsome.trans hdec)
  unfold told
  rw [hv, invokeDecoded, if_pos hev, Option.map_some, Option.toList_some, List.filterMap_cons,
    ht w rfl]
  rfl

theorem told_of_neg (hop : op.opens = true) (hev : ¬ 0 ≤ ev) (cqeFlags : UInt32) :
    op.told ev cqeFlags = ∅ := by
  obtain ⟨v, hv, -⟩ := doCallback_of_opens hop ev cqeFlags
  unfold told
  rw [hv, invokeDecoded, if_neg hev]
  rfl

theorem slot_of_index {i : Int32} (hi : op.index? = some i) : op.slot = slotField i.toUInt32 := by
  cases op with
  | fixedFileOpen op | fixedSocketOpen op | fixedSocketAccept info op
  | fixedSocketAcceptOperation op => rw [← Option.some.inj hi]; rfl
  | _ => cases hi

theorem slot_of_index_none (hi : op.index? = none) : op.slot = 0 ∨ op.slot = fileIndexAlloc := by
  unfold slot
  split
  · exact .inr rfl
  · rw [hi]
    exact .inl rfl

end Operation

/-! ### Whether it is the same -/

theorem kernelOpens_zero {sqe : Sqe} (h : sqe.fileIndex = 0) (ev : Int32) :
    kernelOpens sqe ev = ⟨ev, false⟩ := if_pos h

theorem kernelOpens_alloc {sqe : Sqe} (h : sqe.fileIndex = fileIndexAlloc) (ev : Int32) :
    kernelOpens sqe ev = ⟨ev, true⟩ := by
  unfold kernelOpens
  rw [h, if_neg (by decide), if_pos rfl]

theorem slotField_eq_alloc_iff (i : Int32) :
    slotField i.toUInt32 = fileIndexAlloc ↔ i = allocIndex ∨ i = -2 := by
  have hinj : ∀ n : UInt32, i.toUInt32 = n → i = n.toInt32 := by
    intro n hn
    rw [← hn, Int32.toInt32_toUInt32]
  unfold slotField
  constructor
  · intro h
    split at h
    · rename_i halloc
      exact .inl (hinj _ halloc)
    · have hminus : (fileIndexAlloc - 1).toInt32 = -2 := by decide
      rw [← hminus]
      refine .inr (hinj _ ?_)
      rw [← h, UInt32.add_sub_cancel]
  · rintro (rfl | rfl)
    · rfl
    · rfl

theorem kernelOpens_index {sqe : Sqe} {i : Int32} (hsqe : sqe.fileIndex = slotField i.toUInt32)
    (hi : slotField i.toUInt32 ≠ fileIndexAlloc) (ev : Int32) : kernelOpens sqe ev = ⟨i, true⟩ := by
  have hslot : slotField i.toUInt32 = i.toUInt32 + 1 := by
    unfold slotField at hi ⊢
    split
    · rename_i halloc
      rw [if_pos halloc] at hi
      exact absurd rfl hi
    · rfl
  unfold kernelOpens
  rw [hsqe, if_neg (Operation.slotField_ne_zero _), if_neg hi, hslot, UInt32.add_sub_cancel,
    Int32.toInt32_toUInt32]

/-- **What the callback is told**: what the kernel opened or, instead of a slot that was asked for,
the slot 0. -/
theorem told_eq {op : Operation I V} {ev : Int32} (hindex : WritesFileIndex prep)
    (hop : op.opens = true) (hopen : CanOpen (op.build prep) ev) (hdec : op.decodes = true)
    (cqeFlags : UInt32) :
    (op.TellsSlot ∧ op.told ev cqeFlags = {kernelOpens (op.build prep) ev}) ∨
      ¬ op.TellsSlot ∧ op.told ev cqeFlags = {⟨0, true⟩} ∧
        ∃ i, op.index? = some i ∧ i ≠ 0 ∧ kernelOpens (op.build prep) ev = ⟨i, true⟩ := by
  obtain ⟨hev, hexplicit⟩ := hopen
  have hslot := Operation.fileIndex_build hindex hop
  have htold := Operation.told_of_nonneg hop hev hdec cqeFlags
  rw [hslot] at hexplicit
  rcases hi : op.index? with _ | i
  · refine .inl ⟨fun i hi' => ?_, ?_⟩
    · rw [hi] at hi'
      cases hi'
    · rcases Operation.slot_of_index_none hi with h0 | halloc
      · rw [htold, kernelOpens_zero (hslot.trans h0), h0]
        rfl
      · rw [htold, kernelOpens_alloc (hslot.trans halloc), halloc]
        rfl
  · have hfield := Operation.slot_of_index hi
    have hfixed : op.told ev cqeFlags = {⟨ev, true⟩} := by
      rw [htold, hfield, decide_eq_true (Operation.slotField_ne_zero _)]
    have htells : (i = allocIndex ∨ i = 0 ∨ i = -2) → op.TellsSlot := by
      intro h i' hi'
      rw [hi, Option.some.injEq] at hi'
      exact hi' ▸ h
    by_cases halloc : slotField i.toUInt32 = fileIndexAlloc
    · refine .inl ⟨htells ?_, ?_⟩
      · rcases (slotField_eq_alloc_iff i).mp halloc with h | h
        · exact .inl h
        · exact .inr (.inr h)
      · rw [hfixed, kernelOpens_alloc (hslot.trans (hfield.trans halloc))]
    · have hopened := kernelOpens_index (hslot.trans hfield) halloc ev
      have hev0 : ev = 0 := by
        rw [hfield] at hexplicit
        exact hexplicit (Operation.slotField_ne_zero _) halloc
      by_cases hi0 : i = 0
      · exact .inl ⟨htells (.inr (.inl hi0)), by rw [hfixed, hopened, hev0, hi0]⟩
      · refine .inr ⟨fun h => ?_, by rw [hfixed, hev0], i, rfl, hi0, hopened⟩
        rcases h i hi with h | h | h
        · exact halloc ((slotField_eq_alloc_iff i).mpr (.inl h))
        · exact hi0 h
        · exact halloc ((slotField_eq_alloc_iff i).mpr (.inr h))

/-! ### A table of descriptors -/

/-- The descriptors that are open, and those named by handles that were told and not closed. -/
structure Descriptors where
  opened : Finset Target
  held : Finset Target
  deriving DecidableEq

namespace Descriptors

/-- What happens to descriptors: an operation that opens one completes, or a handle is closed with an
operation of a class that closes. -/
inductive Event (I V : Type)
  | complete (op : Operation I V) (ev : Int32) (cqeFlags : UInt32)
  | close (op : Operation I V) (h : Handle)

/-- **One event.** A slot that is asked for may be in use, and is used for the new file then. Where the
address of a peer is not decoded the program has ended. -/
def step (prep : Prep → Sqe) (st : Descriptors) : Event I V → Option Descriptors
  | .complete op ev cqeFlags =>
    if op.opens = true ∧ ¬ 0 ≤ ev then some { st with held := st.held ∪ op.told ev cqeFlags }
    else if op.opens = true ∧ CanOpen (op.build prep) ev ∧ op.decodes = true then
      some ⟨insert (kernelOpens (op.build prep) ev) st.opened, st.held ∪ op.told ev cqeFlags⟩
    else none
  | .close op h =>
    if op.isClose = true ∧ h.target ∈ st.held then
      (op.setHandle {} h).map fun op =>
        ⟨st.opened.erase (kernelTarget (op.build prep)), st.held.erase h.target⟩
    else none

/-- **The open descriptors are those that handles name.** -/
def Accounted (st : Descriptors) : Prop := st.opened = st.held

/-- The completion tells the slot that was opened, or both this one and the slot 0 were in use; the
class of the close can name the handle. -/
def NamesOpened (st : Descriptors) : Event I V → Prop
  | .complete op ev _ => 0 ≤ ev → op.TellsSlot ∨
      ∀ i, op.index? = some i → (⟨0, true⟩ : Target) ∈ st.held ∧ (⟨i, true⟩ : Target) ∈ st.held
  | .close op h => op.Names h

variable {st st' : Descriptors} {e : Event I V}

section Prep
variable (hindex : WritesFileIndex prep) (hop : WritesOpcode prep) (hprep : WritesHandle prep)
  (hcancel : WritesCancel prep)
include hindex hop hprep hcancel

/-- **One event** keeps the accounts exactly when it names what was opened. -/
theorem accounted_step (h : st.Accounted) (hs : st.step prep e = some st') :
    st'.Accounted ↔ st.NamesOpened e := by
  obtain ⟨opened, held⟩ := st
  obtain rfl : opened = held := h
  cases e with
  | complete op ev cqeFlags =>
    unfold step at hs
    simp only at hs
    split_ifs at hs with hfail hopen
    · obtain rfl := Option.some.inj hs
      refine iff_of_true ?_ fun hev => absurd hev hfail.2
      unfold Accounted
      rw [Operation.told_of_neg hfail.1 hfail.2, Finset.union_empty]
    · obtain rfl := Option.some.inj hs
      show insert (kernelOpens (op.build prep) ev) opened = opened ∪ op.told ev cqeFlags ↔
        (0 ≤ ev → op.TellsSlot ∨ ∀ i, op.index? = some i →
          (⟨0, true⟩ : Target) ∈ opened ∧ (⟨i, true⟩ : Target) ∈ opened)
      rcases told_eq hindex hopen.1 hopen.2.1 hopen.2.2 cqeFlags with
        ⟨htells, htold⟩ | ⟨hnot, htold, i, hi, hi0, hopened⟩
      · refine iff_of_true ?_ fun _ => .inl htells
        rw [htold, Finset.union_comm, ← Finset.insert_eq]
      · have hne : (⟨0, true⟩ : Target) ≠ ⟨i, true⟩ := fun h => hi0 (congrArg Target.fd h).symm
        rw [htold, hopened, Finset.union_comm, ← Finset.insert_eq, hi]
        constructor
        · intro heq _
          refine .inr fun i' hi' => ?_
          obtain rfl := Option.some.inj hi'
          have h0 : (⟨0, true⟩ : Target) ∈ insert ⟨i, true⟩ opened := heq ▸ Finset.mem_insert_self _ _
          have h1 : (⟨i, true⟩ : Target) ∈ insert ⟨0, true⟩ opened := heq ▸ Finset.mem_insert_self _ _
          exact ⟨(Finset.mem_insert.mp h0).resolve_left hne,
            (Finset.mem_insert.mp h1).resolve_left hne.symm⟩
        · intro h
          obtain ⟨h0, h1⟩ := (h hopen.2.1.1).resolve_left hnot i rfl
          rw [Finset.insert_eq_of_mem h0, Finset.insert_eq_of_mem h1]
  | close op h =>
    obtain ⟨⟨hclose, hheld⟩, hs⟩ := Option.ite_none_right_eq_some.mp hs
    obtain ⟨op', hset, rfl⟩ := Option.map_eq_some_iff.mp hs
    have htarget := Operation.kernelTarget_setHandle hop hprep hcancel hset
    show opened.erase (kernelTarget (op'.build prep)) = opened.erase h.target ↔ op.Names h
    rw [htarget, ← Operation.written_given_iff, eq_comm, Finset.erase_inj _ hheld, eq_comm]

/-! ### Runs -/

/-- **When no descriptor is lost.** Whatever operations open descriptors, whatever the kernel may return
for them, and whatever handles are closed by whatever classes, the open descriptors are those that
handles name, in every state reached, if and only if every slot that is asked for is 0 or is chosen by
the kernel (or this slot and the slot 0 were both in use before), and every handle is closed by a class
that can name it. -/
theorem accounted_iff {es : List (Event I V)} (hrun : run (step prep) ⟨∅, ∅⟩ es = some st') :
    AlwaysHolds (step prep) Accounted ⟨∅, ∅⟩ es ↔ EveryStep (step prep) NamesOpened ⟨∅, ∅⟩ es :=
  alwaysHolds_iff (I := Accounted)
    (fun _ _ _ hI hC hs => (accounted_step hindex hop hprep hcancel hI hs).mpr hC)
    (fun _ hI => hI)
    (fun _ _ _ hI hs hP => (accounted_step hindex hop hprep hcancel hI hs).mp hP) rfl hrun

end Prep

/-- A socket is opened in the slot 3 and what the callback was told is closed. -/
def socketInSlot : List (Event Unit Unit) :=
  [.complete (.fixedSocketOpen { fileIndex := 3 }) 0 0,
    .close (.socketClose .stdexpected {}) (.fixedSocket ⟨⟨0⟩, {}⟩)]

/-- **The socket stays open**, and nothing names it. -/
theorem accounted_iff_socketInSlot : ∃ st', run (step documentedSlots) ⟨∅, ∅⟩ socketInSlot = some st' ∧
    st' = ⟨{⟨3, true⟩}, ∅⟩ ∧
    ¬ EveryStep (step documentedSlots) NamesOpened ⟨∅, ∅⟩ socketInSlot := by
  refine ⟨_, rfl, by decide, fun hE => ?_⟩
  have hA := (accounted_iff writesFileIndex_documentedSlots writesOpcode_documentedSlots
    writesHandle_documentedSlots writesCancel_documentedSlots rfl).mpr hE
  exact absurd (hA socketInSlot [] _ rfl rfl) (by unfold Accounted; decide)

end Descriptors

end Iouxx.Ops
