import Iouxx.Lib.Flags
import Iouxx.Lib.Trace
import Iouxx.Ops.FeatureTest

/-!
# Whose descriptor an operation uses

The setters for the handle are `file`, `socket` and `target`. Those of the network classes have
overloads for connections, the others take the classes a connection is derived from: a connection is
passed to them as the socket it was accepted on, and `native_handle` and `index` of the base are
called. What the kernel takes for the file of a request is read off the entry.
-/

namespace Iouxx.Ops

open Iouxx.Lib.Flags Iouxx.Lib.Trace Iouxx.Uring

variable {I V : Type} {prep : Prep → Sqe}

/-! ### The setters -/

/-- `IOUXX_ASSERT`, which does nothing where assertions are not enabled; `none` is the abort. -/
def iouxxAssert (enabled : Bool) (cond : Prop) [Decidable cond] : Option Unit :=
  if enabled = true ∧ ¬ cond then none else some ()

namespace Handle

/-- `IOUXX_ASSERT(info_type::domain == s.socket_domain())`. -/
def assertDomain (asserts : Bool) (info : SocketInfo I) (h : Handle) : Option Unit :=
  iouxxAssert asserts (h.socketDomain? = some info.domain)

end Handle

namespace Operation

/-- **The handle setter of an operation**: `none` where the class has no overload for the handle, where
the call does not compile, or where its assertion fails. -/
def setHandle (cfg : BuildConfig) (h : Handle) : Operation I V → Option (Operation I V)
  | fileClose callback _ => some (fileClose callback ⟨h.setFile⟩)
  | fixedFileRegister op => do
    let f ← h.toFile?
    some (fixedFileRegister { op with fd := f.nativeHandle })
  | fixedFileInstall op => do
    let f ← h.toFixedFile?
    some (fixedFileInstall { op with fileIndex := f.index })
  | fileRead op => some (fileRead { op with toTarget := h.setFile })
  | fileReadFixed op => some (fileReadFixed { op with toTarget := h.setFile })
  | fileReadv op => some (fileReadv { op with toTarget := h.setFile })
  | fileReadvFixed op => some (fileReadvFixed { op with toTarget := h.setFile })
  | fileWrite op => some (fileWrite { op with toTarget := h.setFile })
  | fileWriteFixed op => some (fileWriteFixed { op with toTarget := h.setFile })
  | fileWritev op => some (fileWritev { op with toTarget := h.setFile })
  | fileWritevFixed op => some (fileWritevFixed { op with toTarget := h.setFile })
  | filePollAdd op => some (filePollAdd { op with toTarget := h.setFile })
  | filePollMultishot op => some (filePollMultishot { op with toTarget := h.setFile })
  | cancelFd op => do
    let op ← op.target cfg h
    some (cancelFd op)
  | cancelFdVoid op => do
    let op ← op.target cfg h
    some (cancelFdVoid op)
  | socketClose callback _ => do
    let t ← h.setSocket
    some (socketClose callback ⟨t⟩)
  | socketBind info callback op => do
    h.assertDomain cfg.asserts info
    let v ← h.setVariant
    some (socketBind info callback { op with sock := v })
  | socketListen callback op => do
    let v ← h.setVariant
    some (socketListen callback { op with sock := v })
  | socketConnect info callback op => do
    h.assertDomain cfg.asserts info
    let v ← h.setVariant
    some (socketConnect info callback { op with sock := v })
  | socketAccept info op => do
    h.assertDomain cfg.asserts info
    let s ← h.toSocket?
    some (socketAccept info { op with sock := s })
  | socketAcceptOperation _ => do
    let s ← h.toSocket?
    some (socketAcceptOperation ⟨s⟩)
  | fixedSocketAccept info op => do
    h.assertDomain cfg.asserts info
    let s ← h.toFixedSocket?
    some (fixedSocketAccept info { op with sock := s })
  | fixedSocketAcceptOperation op => do
    let s ← h.toFixedSocket?
    some (fixedSocketAcceptOperation { op with sock := s })
  | socketMultishotAccept _ => do
    let s ← h.toSocket?
    some (socketMultishotAccept ⟨s⟩)
  | fixedSocketMultishotAccept _ => do
    let s ← h.toFixedSocket?
    some (fixedSocketMultishotAccept ⟨s⟩)
  | socketShutdown callback op => do
    let t ← h.setSocket
    some (socketShutdown callback { op with toTarget := t })
  | socketSend op => do
    let t ← h.setSocket
    some (socketSend { op with toTarget := t })
  | socketSendZc op => do
    let t ← h.setSocket
    some (socketSendZc { op with toTarget := t })
  | socketSendmsg op => do
    let t ← h.setSocket
    some (socketSendmsg { op with toTarget := t })
  | socketSendmsgZc op => do
    let t ← h.setSocket
    some (socketSendmsgZc { op with toTarget := t })
  | socketRecv op => do
    let t ← h.setSocket
    some (socketRecv { op with toTarget := t })
  | socketMultishotRecv op => do
    let t ← h.setSocket
    some (socketMultishotRecv { op with toTarget := t })
  | socketSetoption opt op => do
    let t ← h.setSocket
    some (socketSetoption opt { op with toTarget := t })
  | socketGetoption opt op => do
    let t ← h.setSocket
    some (socketGetoption opt { op with toTarget := t })
  | socketGetsockname info op => do
    h.assertDomain cfg.asserts info
    let t ← h.setSocket
    some (socketGetsockname info { op with toTarget := t })
  | _ => none

end Operation

/-! ### What is read off an entry -/

/-- **The file of a request**, as the kernel finds it: a close has the index of a fixed file in
`file_index` with one added, a cancellation has its own flag, a registration reads its descriptor from
memory, and the others have `IOSQE_FIXED_FILE`. -/
def kernelTarget (sqe : Sqe) : Target :=
  match sqe.opcode with
  | .close =>
    if sqe.fileIndex ≠ 0 then ⟨(sqe.fileIndex - 1).toInt32, true⟩ else ⟨sqe.fd, false⟩
  | .asyncCancel => ⟨sqe.fd, sqe.opFlags &&& asyncCancelFdFixed ≠ 0⟩
  | .filesUpdate => ⟨sqe.fds.headD (-1), false⟩
  | _ => ⟨sqe.fd, sqe.flags &&& iosqeFixedFile ≠ 0⟩

/-- The requests whose file is given by `fd` and a flag that the operation sets. -/
def usesFdAndFlag : Opcode → Bool
  | .close | .asyncCancel | .filesUpdate | .fixedFdInstall => false
  | _ => true

theorem kernelTarget_of_usesFdAndFlag {sqe : Sqe} (h : usesFdAndFlag sqe.opcode = true) :
    kernelTarget sqe = ⟨sqe.fd, sqe.flags &&& iosqeFixedFile ≠ 0⟩ := by
  unfold kernelTarget
  split
  case h_1 heq => rw [heq] at h; cases h
  case h_2 heq => rw [heq] at h; cases h
  case h_3 heq => rw [heq] at h; cases h
  case h_4 => rfl

/-- What is closed where an index is written with one added: not the fixed file `-1`. -/
def closed (t : Target) : Target := if t = ⟨-1, true⟩ then ⟨0, false⟩ else t

theorem eq_neg_one_of_succ_eq_zero {fd : Int32} (h : fd.toUInt32 + 1 = 0) : fd = -1 := by
  have h1 : fd.toUInt32 = -1 := by
    rw [← UInt32.add_sub_cancel fd.toUInt32 1, h]
    rfl
  rw [← Int32.toInt32_toUInt32 fd, h1]
  rfl

section Prep
variable (hop : WritesOpcode prep) (hprep : WritesHandle prep)
include hop hprep

theorem kernelTarget_markFixed {p : Prep} {t : Target} (hfd : p.fd? = some t.fd)
    (hp : usesFdAndFlag p.opcode = true) : kernelTarget ((prep p).markFixed t.isFixed) = t := by
  have hflags : (prep p).flags = 0 := by
    refine hprep.flags p fun fd flags h => ?_
    rw [h] at hp
    cases hp
  rw [kernelTarget_of_usesFdAndFlag (by rw [Sqe.opcode_markFixed, hop]; exact hp)]
  obtain ⟨fd, isFixed⟩ := t
  cases isFixed
  · exact Target.mk.injEq .. |>.mpr ⟨hprep.fd p fd hfd, by simp [Sqe.markFixed, hflags]⟩
  · refine Target.mk.injEq .. |>.mpr ⟨hprep.fd p fd hfd, ?_⟩
    simp [Sqe.markFixed, hflags, iosqeFixedFile]

theorem kernelTarget_prep {p : Prep} {fd : Int32} (hfd : p.fd? = some fd)
    (hp : usesFdAndFlag p.opcode = true) : kernelTarget (prep p) = ⟨fd, false⟩ :=
  kernelTarget_markFixed hop hprep (t := ⟨fd, false⟩) hfd hp

theorem kernelTarget_buildClose (t : Target) : kernelTarget (buildClose prep t) = closed t := by
  obtain ⟨fd, isFixed⟩ := t
  have hne : ∀ fd, (⟨fd, false⟩ : Target) ≠ ⟨-1, true⟩ := by simp
  cases isFixed
  · change kernelTarget (prep (.close fd)) = _
    have hop' : (prep (.close fd)).opcode = .close := hop _
    unfold kernelTarget closed
    rw [hop', if_neg (hne fd)]
    change (if (prep (.close fd)).fileIndex ≠ 0 then _ else _) = _
    rw [hprep.close, if_neg (by simp), hprep.fd _ fd rfl]
  · change kernelTarget (prep (.closeDirect fd.toUInt32)) = _
    have hop' : (prep (.closeDirect fd.toUInt32)).opcode = .close := hop _
    obtain ⟨hfd, hindex⟩ := hprep.closeDirect fd.toUInt32
    unfold kernelTarget closed
    rw [hop']
    change (if (prep (.closeDirect fd.toUInt32)).fileIndex ≠ 0 then _ else _) = _
    rw [hindex, hfd]
    by_cases h : fd = -1
    · subst h
      rfl
    · have h0 : fd.toUInt32 + 1 ≠ 0 := fun h0 => h (eq_neg_one_of_succ_eq_zero h0)
      rw [if_pos h0, if_neg (by simpa using h), UInt32.add_sub_cancel, Int32.toInt32_toUInt32]

end Prep

@[simp] theorem kernelTarget_useFixedBuf (sqe : Sqe) (bufIndex : Int32) :
    kernelTarget (useFixedBuf sqe bufIndex) = kernelTarget sqe := by
  unfold useFixedBuf
  split
  · rfl
  · rfl

theorem kernelTarget_markFixed_ioprio (sqe : Sqe) (ioprio : UInt16) (isFixed : Bool) :
    kernelTarget (({ sqe with ioprio := ioprio } : Sqe).markFixed isFixed) =
      kernelTarget (sqe.markFixed isFixed) := by
  cases isFixed <;> rfl

/-- The descriptor of the socket that is named. -/
def SocketVariant.target : SocketVariant → Target
  | socket s => ⟨s.nativeHandle, false⟩
  | fixedSocket s => ⟨s.index, true⟩

section Classes
variable (hop : WritesOpcode prep) (hprep : WritesHandle prep)
include hop hprep

theorem kernelTarget_buildVariant {call : Int32 → Prep} (v : SocketVariant)
    (hfd : ∀ fd, (call fd).fd? = some fd) (hp : ∀ fd, usesFdAndFlag (call fd).opcode = true) :
    kernelTarget (buildVariant prep v call) = v.target := by
  cases v with
  | socket s => exact kernelTarget_prep hop hprep (hfd _) (hp _)
  | fixedSocket s =>
    exact kernelTarget_markFixed hop hprep (t := ⟨s.index, true⟩) (hfd _) (hp _)

theorem kernelTarget_register (op : FixedFileRegisterOperation) :
    kernelTarget (op.build prep) = ⟨op.fd, false⟩ := by
  have hop' : (op.build prep).opcode = .filesUpdate := hop _
  unfold kernelTarget
  rw [hop']
  change (⟨(prep _).fds.headD (-1), false⟩ : Target) = _
  rw [hprep.filesUpdate]
  rfl

theorem kernelTarget_install (op : FixedFileInstallOperation) :
    kernelTarget (op.build prep) = ⟨op.fileIndex, true⟩ := by
  have hop' : (op.build prep).opcode = .fixedFdInstall := hop _
  unfold kernelTarget
  rw [hop']
  change (⟨(prep _).fd, (prep _).flags &&& iosqeFixedFile ≠ 0⟩ : Target) = _
  rw [hprep.fixedFdInstall, hprep.fd _ op.fileIndex rfl]
  rfl

end Classes

theorem kernelTarget_buildCancelFd (hop : WritesOpcode prep) (hcancel : WritesCancel prep)
    (op : CancelFdOperation) :
    kernelTarget (op.build prep) = ⟨op.fd, op.flags &&& asyncCancelFdFixed ≠ 0⟩ := by
  have hop' : (op.build prep).opcode = .asyncCancel := hop _
  obtain ⟨hfd, -, hflags⟩ := hcancel.cancelFd op.fd op.flags
  unfold kernelTarget
  rw [hop']
  change (⟨(prep _).fd, (prep _).opFlags &&& asyncCancelFdFixed ≠ 0⟩ : Target) = _
  rw [hfd, hflags, set_test_of_disjoint _ (by decide)]

theorem kernelTarget_cancelFd (hop : WritesOpcode prep) (hcancel : WritesCancel prep)
    {cfg : BuildConfig} {op op' : CancelFdOperation} {h : Handle} (hset : op.target cfg h = some op') :
    kernelTarget (op'.build prep) = h.setFile := by
  have hfile : ∀ f : File, kernelTarget ((op.targetFile f).build prep) = ⟨f.nativeHandle, false⟩ := by
    intro f
    rw [kernelTarget_buildCancelFd hop hcancel]
    simp [CancelFdOperation.targetFile]
  have hfixed : ∀ f : FixedFile, kernelTarget ((op.targetFixedFile f).build prep) =
      ⟨f.index, true⟩ := by
    intro f
    rw [kernelTarget_buildCancelFd hop hcancel]
    simp [CancelFdOperation.targetFixedFile, asyncCancelFdFixed]
  obtain ⟨-, hset⟩ := Option.ite_none_right_eq_some.mp hset
  cases h with
  | file f => exact Option.some.inj hset ▸ hfile f
  | fixedFile f => exact Option.some.inj hset ▸ hfixed f
  | socket s => exact Option.some.inj hset ▸ hfile s.toFile
  | fixedSocket s => exact Option.some.inj hset ▸ hfixed s.toFixedFile
  | connection c => exact Option.some.inj hset ▸ hfile c.toFile
  | fixedConnection c => exact Option.some.inj hset ▸ hfixed c.toFixedFile

/-! ### What the setters are given -/

namespace Handle

variable {h : Handle}

/-- The accepted descriptor of a connection is the one of the socket it was accepted on. -/
def AcceptedIsListening : Handle → Prop
  | connection c => c.connFd = c.fd
  | fixedConnection c => c.connIndex = c.fdIndex
  | file _ | fixedFile _ | socket _ | fixedSocket _ => True

instance : DecidablePred AcceptedIsListening := fun h => by
  cases h <;> unfold AcceptedIsListening <;> infer_instance

/-- With overloads for connections, the descriptor is the one of the handle. -/
theorem setSocket_eq {t : Target} (ht : h.setSocket = some t) : t = h.target := by
  cases h <;> first | exact (Option.some.inj ht).symm | cases ht

theorem setVariant_eq {v : SocketVariant} (hv : h.setVariant = some v) : v.target = h.setFile := by
  cases h <;> first | exact Option.some.inj hv ▸ rfl | cases hv

theorem toFile?_eq {f : File} (hf : h.toFile? = some f) :
    (⟨f.nativeHandle, false⟩ : Target) = h.setFile := by
  cases h <;> first | exact Option.some.inj hf ▸ rfl | cases hf

theorem toFixedFile?_eq {f : FixedFile} (hf : h.toFixedFile? = some f) :
    (⟨f.index, true⟩ : Target) = h.setFile := by
  cases h <;> first | exact Option.some.inj hf ▸ rfl | cases hf

theorem toSocket?_eq {s : Socket} (hs : h.toSocket? = some s) :
    (⟨s.nativeHandle, false⟩ : Target) = h.setFile := by
  cases h <;> first | exact Option.some.inj hs ▸ rfl | cases hs

theorem toFixedSocket?_eq {s : FixedSocket} (hs : h.toFixedSocket? = some s) :
    (⟨s.index, true⟩ : Target) = h.setFile := by
  cases h <;> first | exact Option.some.inj hs ▸ rfl | cases hs

theorem isFixed_setFile (h : Handle) : h.setFile.isFixed = h.target.isFixed := by
  cases h <;> rfl

/-- Without them, it is the one of the socket a connection was accepted on. -/
theorem setFile_eq_target_iff (h : Handle) : h.setFile = h.target ↔ h.AcceptedIsListening := by
  cases h with
  | connection c =>
    exact ⟨fun h => (congrArg Target.fd h).symm, fun h => congrArg (Target.mk · false) h.symm⟩
  | fixedConnection c =>
    exact ⟨fun h => (congrArg Target.fd h).symm, fun h => congrArg (Target.mk · true) h.symm⟩
  | file f => exact iff_of_true rfl trivial
  | fixedFile f => exact iff_of_true rfl trivial
  | socket s => exact iff_of_true rfl trivial
  | fixedSocket s => exact iff_of_true rfl trivial

end Handle

namespace Operation

/-- The classes whose setter has overloads for connections. -/
def takesConnections : Operation I V → Bool
  | socketClose .. | socketShutdown .. | socketSend _ | socketSendZc _ | socketSendmsg _
  | socketSendmsgZc _ | socketRecv _ | socketMultishotRecv _ | socketSetoption .. | socketGetoption ..
  | socketGetsockname .. => true
  | _ => false

/-- The classes that close their file. -/
def isClose : Operation I V → Bool
  | fileClose .. | socketClose .. => true
  | _ => false

/-- What a setter is given. -/
def given (op : Operation I V) (h : Handle) : Target :=
  if op.takesConnections then h.target else h.setFile

/-- What the entry of the class names when a setter is given the target. -/
def written (op : Operation I V) (t : Target) : Target := if op.isClose then closed t else t

variable {op op' : Operation I V} {h : Handle} {cfg : BuildConfig}

theorem of_bind {α : Type} {x : Option α} {f : α → Operation I V}
    (hset : (x >>= fun a => some (f a)) = some op') : ∃ a, x = some a ∧ op' = f a := by
  obtain ⟨a, ha, hset⟩ := Option.bind_eq_some_iff.mp hset
  exact ⟨a, ha, (Option.some.inj hset).symm⟩

theorem of_assert {α : Type} {u : Option Unit} {x : Option α} {f : α → Operation I V}
    (hset : (u >>= fun _ => x >>= fun a => some (f a)) = some op') :
    ∃ a, x = some a ∧ op' = f a := by
  obtain ⟨-, -, hset⟩ := Option.bind_eq_some_iff.mp hset
  exact of_bind hset

/-- **One call of a setter**: the entry names what the setter is given. -/
theorem kernelTarget_setHandle (hop : WritesOpcode prep) (hprep : WritesHandle prep)
    (hcancel : WritesCancel prep) (hset : op.setHandle cfg h = some op') :
    kernelTarget (op'.build prep) = op.written (op.given h) := by
  cases op with
  | fileClose callback op =>
    obtain rfl := Option.some.inj hset
    exact kernelTarget_buildClose hop hprep _
  | fileRead op | fileReadFixed op | fileReadv op | fileReadvFixed op | fileWrite op
  | fileWriteFixed op | fileWritev op | fileWritevFixed op | filePollAdd op
  | filePollMultishot op =>
    obtain rfl := Option.some.inj hset
    exact kernelTarget_markFixed hop hprep rfl rfl
  | cancelFd op | cancelFdVoid op =>
    obtain ⟨op', ht, rfl⟩ := of_bind hset
    exact kernelTarget_cancelFd hop hcancel ht
  | fixedFileRegister op =>
    obtain ⟨f, hf, rfl⟩ := of_bind hset
    exact (kernelTarget_register hop hprep _).trans (h.toFile?_eq hf)
  | fixedFileInstall op =>
    obtain ⟨f, hf, rfl⟩ := of_bind hset
    exact (kernelTarget_install hop hprep _).trans (h.toFixedFile?_eq hf)
  | socketClose callback op =>
    obtain ⟨t, ht, rfl⟩ := of_bind hset
    obtain rfl := h.setSocket_eq ht
    exact kernelTarget_buildClose hop hprep _
  | socketBind info callback op | socketConnect info callback op =>
    obtain ⟨v, hv, rfl⟩ := of_assert hset
    exact (kernelTarget_buildVariant hop hprep v (fun _ => rfl) fun _ => rfl).trans
      (h.setVariant_eq hv)
  | socketListen callback op =>
    obtain ⟨v, hv, rfl⟩ := of_bind hset
    exact (kernelTarget_buildVariant hop hprep v (fun _ => rfl) fun _ => rfl).trans
      (h.setVariant_eq hv)
  | socketAccept info op =>
    obtain ⟨s, hs, rfl⟩ := of_assert hset
    exact (kernelTarget_prep hop hprep rfl rfl).trans (h.toSocket?_eq hs)
  | socketAcceptOperation op | socketMultishotAccept op =>
    obtain ⟨s, hs, rfl⟩ := of_bind hset
    exact (kernelTarget_prep hop hprep rfl rfl).trans (h.toSocket?_eq hs)
  | fixedSocketAccept info op =>
    obtain ⟨s, hs, rfl⟩ := of_assert hset
    exact (kernelTarget_markFixed hop hprep (t := ⟨s.index, true⟩) rfl rfl).trans
      (h.toFixedSocket?_eq hs)
  | fixedSocketAcceptOperation op | fixedSocketMultishotAccept op =>
    obtain ⟨s, hs, rfl⟩ := of_bind hset
    exact (kernelTarget_markFixed hop hprep (t := ⟨s.index, true⟩) rfl rfl).trans
      (h.toFixedSocket?_eq hs)
  | socketShutdown callback op =>
    obtain ⟨t, ht, rfl⟩ := of_bind hset
    exact (kernelTarget_markFixed hop hprep rfl rfl).trans (h.setSocket_eq ht)
  | socketSend op =>
    obtain ⟨t, ht, rfl⟩ := of_bind hset
    obtain rfl := h.setSocket_eq ht
    refine (kernelTarget_useFixedBuf _ _).trans ?_
    rw [kernelTarget_markFixed_ioprio]
    exact kernelTarget_markFixed hop hprep rfl rfl
  | socketSendZc op | socketRecv op | socketMultishotRecv op =>
    obtain ⟨t, ht, rfl⟩ := of_bind hset
    obtain rfl := h.setSocket_eq ht
    exact (kernelTarget_useFixedBuf _ _).trans (kernelTarget_markFixed hop hprep rfl rfl)
  | socketSendmsg op | socketSendmsgZc op =>
    obtain ⟨t, ht, rfl⟩ := of_bind hset
    exact (kernelTarget_markFixed hop hprep rfl rfl).trans (h.setSocket_eq ht)
  | socketSetoption opt op | socketGetoption opt op =>
    obtain ⟨t, ht, rfl⟩ := of_bind hset
    exact (kernelTarget_markFixed hop hprep rfl rfl).trans (h.setSocket_eq ht)
  | socketGetsockname info op =>
    obtain ⟨t, ht, rfl⟩ := of_assert hset
    exact (kernelTarget_markFixed hop hprep rfl rfl).trans (h.setSocket_eq ht)
  | _ => cases hset

theorem class_setHandle (hset : op.setHandle cfg h = some op') :
    op'.takesConnections = op.takesConnections ∧ op'.isClose = op.isClose := by
  cases op <;>
    first
    | (obtain rfl := Option.some.inj hset; exact ⟨rfl, rfl⟩)
    | (obtain ⟨-, -, rfl⟩ := of_bind hset; exact ⟨rfl, rfl⟩)
    | (obtain ⟨-, -, rfl⟩ := of_assert hset; exact ⟨rfl, rfl⟩)
    | cases hset

theorem class_run {hs : List Handle}
    (hrun : run (fun op h => Operation.setHandle cfg h op) op hs = some op') :
    op'.takesConnections = op.takesConnections ∧ op'.isClose = op.isClose :=
  run_induction (I := fun o : Operation I V =>
      o.takesConnections = op.takesConnections ∧ o.isClose = op.isClose)
    (fun _ _ _ ho hset => ⟨(class_setHandle hset).1.trans ho.1, (class_setHandle hset).2.trans ho.2⟩)
    ⟨rfl, rfl⟩ hrun

/-- **When an operation uses the descriptor of a handle**: its setter has overloads for connections or
the handle is not a connection with a descriptor of its own, and the class does not close the fixed
file `-1`. -/
def Names (op : Operation I V) (h : Handle) : Prop :=
  (op.takesConnections = true ∨ h.AcceptedIsListening) ∧
    (op.isClose = true → h.target ≠ ⟨-1, true⟩)

instance (op : Operation I V) (h : Handle) : Decidable (op.Names h) := by
  unfold Names; infer_instance

theorem given_eq_target_iff (op : Operation I V) (h : Handle) :
    op.given h = h.target ↔ op.takesConnections = true ∨ h.AcceptedIsListening := by
  unfold given
  cases op.takesConnections
  · rw [if_neg (by decide), h.setFile_eq_target_iff]
    simp
  · simp

theorem isFixed_given (op : Operation I V) (h : Handle) :
    (op.given h).isFixed = h.target.isFixed := by
  unfold given
  split
  · rfl
  · exact h.isFixed_setFile

theorem written_given_iff (op : Operation I V) (h : Handle) :
    op.written (op.given h) = h.target ↔ op.Names h := by
  have hiff := given_eq_target_iff op h
  have hfixed := isFixed_given op h
  unfold written Names
  rw [← hiff]
  cases op.isClose
  · simp
  · rw [if_pos rfl]
    unfold closed
    by_cases hg : op.given h = ⟨-1, true⟩
    · -- descriptor 0 is closed instead
      rw [if_pos hg]
      rw [hg] at hfixed
      refine iff_of_false (fun h0 => ?_) (fun h' => h'.2 rfl (h'.1.symm.trans hg))
      rw [← h0] at hfixed
      cases hfixed
    · rw [if_neg hg]
      exact ⟨fun he => ⟨he, fun _ ht => hg (he.trans ht)⟩, fun h' => h'.1⟩

/-- **Whose descriptor is used.** For every operation and every calls of its handle setters, the entry
names the last handle exactly when the class can name it. -/
theorem kernelTarget_iff (hop : WritesOpcode prep) (hprep : WritesHandle prep)
    (hcancel : WritesCancel prep) (op : Operation I V) (cfg : BuildConfig) (hs : List Handle)
    (h : Handle) {op' : Operation I V}
    (hrun : run (fun op h => Operation.setHandle cfg h op) op (hs ++ [h]) = some op') :
    kernelTarget (op'.build prep) = h.target ↔ op.Names h := by
  obtain ⟨last, hlast, hset⟩ := (run_append_eq_some_iff _).mp hrun
  obtain ⟨t, ht, hset⟩ := (run_cons_eq_some_iff _).mp hset
  obtain rfl := Option.some.inj hset
  obtain ⟨hc, hclose⟩ := class_run hlast
  rw [kernelTarget_setHandle hop hprep hcancel ht, written_given_iff]
  unfold Names
  rw [hc, hclose]

end Operation

/-- A connection with descriptor 7 that was accepted on the socket 3. -/
def accepted : Handle := .connection ⟨⟨⟨3⟩, {}⟩, 7⟩

/-- A setter for sockets keeps the last handle. -/
theorem kernelTarget_iff_send : ∃ op' : Operation Unit Unit,
    run (fun op h => Operation.setHandle {} h op) (.socketSend {})
      [.fixedSocket ⟨⟨5⟩, {}⟩, accepted] = some op' ∧
    kernelTarget (op'.build documented) = ⟨7, false⟩ :=
  ⟨_, rfl, (Operation.kernelTarget_iff writesOpcode_documented writesHandle_documented
    writesCancel_documented (.socketSend {}) {} [.fixedSocket ⟨⟨5⟩, {}⟩] accepted rfl).mpr
      (by decide)⟩

/-- **A read of a connection reads the listening socket.** -/
theorem not_kernelTarget_read : ∃ op' : Operation Unit Unit,
    run (fun op h => Operation.setHandle {} h op) (.fileRead {}) [accepted] = some op' ∧
    kernelTarget (op'.build documented) = ⟨3, false⟩ ∧
    kernelTarget (op'.build documented) ≠ accepted.target :=
  ⟨_, rfl, by decide, by decide⟩

end Iouxx.Ops
