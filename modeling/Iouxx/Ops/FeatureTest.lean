import Iouxx.Ops.Operation
import Iouxx.Ring.Queue

/-!
# The feature test (`operation_base::feature_test`)

`do_submit` asks the probe of the ring for the static `opcode` of the operation's class, and refuses
before it builds the entry. The refusal is right where `build` writes that opcode. All classes but
`fixed_file_install_operation` do, whatever their members are.
-/

namespace Iouxx.Ops

open Iouxx.Cpp.Error Iouxx.Utility Iouxx.Uring
open Iouxx.Ring (OpId Operations Queue)

variable {I V : Type} {prep : Prep → Sqe}

/-- `io_uring_opcode_supported` of the ring's probe. -/
abbrev Probe := Opcode → Bool

/-- What `do_submit` asks of the objects at given addresses, with feature tests enabled. -/
def operations {Res : Type} (probe : Probe) (objects : OpId → Operation I V)
    (doCallback : OpId → ℤ → UInt32 → Except ErrorCode Res) : Operations Res where
  featureTest x := probe (objects x).opcode
  doCallback := doCallback

/-- **The gate is right** for an operation and the error code that `do_submit` returned: refused
exactly when the opcode that is built is not supported. -/
def Gated (prep : Prep → Sqe) (probe : Probe) (op : Operation I V) (res : ErrorCode) : Prop :=
  res = makeErrorCode .functionNotSupported ↔ probe (op.build prep).opcode = false

/-- The operation is a `fixed_file_install_operation`. -/
def Operation.isInstall : Operation I V → Bool
  | .fixedFileInstall _ => true
  | _ => false

/-! ### The opcode that is built -/

theorem opcode_buildClose (hprep : WritesOpcode prep) (target : Target) :
    (buildClose prep target).opcode = .close := by
  unfold buildClose
  cases target.isFixed
  · exact hprep _
  · exact hprep _

theorem opcode_buildVariant (hprep : WritesOpcode prep) (sock : SocketVariant)
    {call : Int32 → Prep} {opcode : Opcode} (hcall : ∀ fd, (call fd).opcode = opcode) :
    (buildVariant prep sock call).opcode = opcode := by
  cases sock with
  | socket s => exact (hprep _).trans (hcall _)
  | fixedSocket s =>
    unfold buildVariant
    rw [Sqe.opcode_markFixed, hprep, hcall]

@[simp] theorem opcode_useFixedBuf (sqe : Sqe) (bufIndex : Int32) :
    (useFixedBuf sqe bufIndex).opcode = sqe.opcode := by
  unfold useFixedBuf
  split
  · rfl
  · rfl

theorem opcode_buildNoop (hprep : WritesOpcode prep) (op : NoopOperation) :
    (op.build prep).opcode = .nop := by
  unfold NoopOperation.build
  simp only
  split
  · exact hprep _
  · exact hprep _

/-- **The opcode of the entry**, for every class and all values of its members: the static one, but
for `fixed_file_install_operation`. -/
theorem opcode_build (hprep : WritesOpcode prep) (op : Operation I V) :
    (op.build prep).opcode = if op.isInstall then .fixedFdInstall else op.opcode := by
  -- one call in most classes, with or without `IOSQE_FIXED_FILE`; the others have a lemma
  cases op with
  | noop callback op => exact opcode_buildNoop hprep op
  | fileClose callback op => exact opcode_buildClose hprep _
  | socketClose callback op => exact opcode_buildClose hprep _
  | socketBind info callback op => exact opcode_buildVariant hprep _ fun _ => rfl
  | socketListen callback op => exact opcode_buildVariant hprep _ fun _ => rfl
  | socketConnect info callback op => exact opcode_buildVariant hprep _ fun _ => rfl
  | socketSend op => exact (opcode_useFixedBuf _ _).trans ((Sqe.opcode_markFixed _ _).trans (hprep _))
  | socketSendZc op =>
    exact (opcode_useFixedBuf _ _).trans ((Sqe.opcode_markFixed _ _).trans (hprep _))
  | socketRecv op => exact (opcode_useFixedBuf _ _).trans ((Sqe.opcode_markFixed _ _).trans (hprep _))
  | socketMultishotRecv op =>
    exact (opcode_useFixedBuf _ _).trans ((Sqe.opcode_markFixed _ _).trans (hprep _))
  | _ => first | exact hprep _ | exact (Sqe.opcode_markFixed _ _).trans (hprep _)

/-! ### The refusal -/

theorem makeSystemErrorCode_ne (ev : ℤ) (ec : Errc) : makeSystemErrorCode ev ≠ makeErrorCode ec := by
  intro h
  unfold makeSystemErrorCode at h
  split at h
  · exact absurd (congrArg ErrorCode.category h) (by simp [makeErrorCode])
  · exact absurd (congrArg ErrorCode.category h) (by simp [makeErrorCode, ErrorCode.none])

/-- **`do_submit` refuses exactly when the static opcode is not supported.** -/
theorem doSubmit_eq_refusal_iff {Res : Type} (ops : Operations Res) (st : Queue Res) (x : OpId)
    (ev : ℤ) :
    (st.doSubmit ops x ev).2 = makeErrorCode .functionNotSupported ↔ ops.featureTest x = false := by
  unfold Queue.doSubmit
  by_cases hf : ops.featureTest x = false
  · rw [if_pos hf]
    exact iff_of_true rfl hf
  · rw [if_neg hf]
    refine iff_of_false (fun h => ?_) hf
    unfold Queue.submit at h
    split at h
    · cases h
    · split at h
      · exact makeSystemErrorCode_ne _ _ h
      · cases h

/-- **When the gate is sound and complete.** For every operation, probe and state of the queue,
`do_submit` refuses exactly the entries that are not supported, except for an install where only one
of the declared and the built opcode is supported; and the declared opcode is the built one for every
operation but an install. -/
theorem gated_iff {Res : Type} (hprep : WritesOpcode prep) (probe : Probe)
    (objects : OpId → Operation I V) (doCallback : OpId → ℤ → UInt32 → Except ErrorCode Res)
    (st : Queue Res) (x : OpId) (ev : ℤ) :
    (Gated prep probe (objects x) (st.doSubmit (operations probe objects doCallback) x ev).2 ↔
      ((objects x).isInstall = true → probe .filesUpdate = probe .fixedFdInstall)) ∧
    ((objects x).opcode = ((objects x).build prep).opcode ↔ (objects x).isInstall = false) := by
  have hres := doSubmit_eq_refusal_iff (operations probe objects doCallback) st x ev
  have hbuild := opcode_build hprep (objects x)
  unfold Gated
  rw [hres, hbuild]
  change ((probe (objects x).opcode = false ↔ _) ↔ _) ∧ _
  rcases hi : (objects x).isInstall with _ | _
  · simp
  · have hop : (objects x).opcode = .filesUpdate := by
      revert hi
      cases objects x with
      | fixedFileInstall op => exact fun _ => rfl
      | _ => exact fun hi => by cases hi
    rw [hop, if_pos rfl]
    cases probe .filesUpdate <;> cases probe .fixedFdInstall <;> simp

/-- A kernel before `IORING_OP_FIXED_FD_INSTALL`. -/
def olderKernel : Probe := fun opcode => opcode ≠ .fixedFdInstall

/-- The gate is right on a new ring of such a kernel, where one slot is taken. -/
def GatedOnOlder (op : Operation Unit Unit) : Prop :=
  Gated documented olderKernel op
    ((Queue.init 8).doSubmit (operations olderKernel (fun _ => op) fun _ _ _ => .ok ()) 1 1).2

theorem gated_iff_read : GatedOnOlder (.fileRead { fd := 3 }) :=
  (gated_iff writesOpcode_documented olderKernel (fun _ => .fileRead { fd := 3 })
    (fun _ _ _ => .ok ()) (Queue.init 8) 1 1).1.mpr fun h => by cases h

/-- **An install is submitted where the kernel does not know it**: the opcode that is tested is the
one of a registration. -/
theorem not_gated_install : ¬ GatedOnOlder (.fixedFileInstall { fileIndex := 3 }) := by
  intro h
  unfold GatedOnOlder Gated at h
  exact absurd (h.mpr rfl) (by decide)

end Iouxx.Ops
