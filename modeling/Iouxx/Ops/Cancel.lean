import Iouxx.Ops.Results
import Iouxx.Ops.Targets

/-!
# What a cancellation selects (`cancel.hpp`)

The two cancel operations share one word of flags, which starts with the key for `user_data`. The
setters only change the bits for `cancel_all` and for a fixed file, so the first key stays set. It is
right for `cancel_operation`. A request of `cancel_fd_operation` has both keys and the `user_data` 0,
which no request in flight has. Its target can only be set where the compiler does not control access.

* `compiles_iff`: which setters can be called;
* `FlagsOf`: the word of flags after any calls;
* `selects_iff`: **the requests that the target names are those that are matched, but for a target of
  `cancel_fd_operation`**.
-/

namespace Iouxx.Ops

open Iouxx.Lib.Flags Iouxx.Lib.Trace Iouxx.Uring

variable {I V : Type} {prep : Prep → Sqe}

/-! ### The kernel -/

/-- A request in flight: its `user_data`, which is the address of an operation, and the open file it is
on. -/
structure Request where
  userData : UInt64
  file : Option ℕ
  nonNull : userData ≠ 0

/-- The tables of open files and the requests in flight. -/
structure Kernel where
  files : Int32 → Option ℕ
  fixedFiles : Int32 → Option ℕ
  inflight : List Request

namespace Kernel

/-- The open file behind a descriptor or an index. -/
def lookup (k : Kernel) (t : Target) : Option ℕ := if t.isFixed then k.fixedFiles t.fd else k.files t.fd

/-- The request is on the file. -/
def On (k : Kernel) (t : Target) (r : Request) : Prop := ∃ f, k.lookup t = some f ∧ r.file = some f

instance (k : Kernel) (t : Target) (r : Request) : Decidable (k.On t r) :=
  decidable_of_iff ((k.lookup t).isSome = true ∧ r.file = k.lookup t) <| by
    unfold On
    rcases k.lookup t with _ | f
    · simp
    · simp

/-- **The matching rule**: the file is a key where its flag is set, and `user_data` is where its flag is
set or there is no other key. -/
def Selects (k : Kernel) (sqe : Sqe) (r : Request) : Prop :=
  (sqe.opFlags &&& asyncCancelFd ≠ 0 → k.On (kernelTarget sqe) r) ∧
    (sqe.opFlags &&& asyncCancelUserdata ≠ 0 ∨
      (sqe.opFlags &&& asyncCancelFd = 0 ∧ sqe.opFlags &&& asyncCancelOp = 0) →
      r.userData = sqe.addr)

instance (k : Kernel) (sqe : Sqe) (r : Request) : Decidable (k.Selects sqe r) := by
  unfold Selects; infer_instance

/-- The requests in flight that are matched. -/
def matched (k : Kernel) (sqe : Sqe) : List Request := k.inflight.filter fun r => k.Selects sqe r

end Kernel

/-! ### The setters -/

/-- A call of a setter of a cancel operation whose targets are a `T`. -/
inductive CancelCall (T : Type)
  | target (t : T)
  | cancelOne
  | cancelAll
  deriving DecidableEq, Repr

/-- A `file` or a `fixed_file`. -/
inductive FileTarget
  | file (f : File)
  | fixedFile (f : FixedFile)
  deriving DecidableEq, Repr

/-- The descriptor, and whether it is a fixed index. -/
def FileTarget.target : FileTarget → Target
  | file f => ⟨f.nativeHandle, false⟩
  | fixedFile f => ⟨f.index, true⟩

def CancelOperation.call (op : CancelOperation) : CancelCall UInt64 → CancelOperation
  | .target identifier => op.target identifier
  | .cancelOne => { op with toCancelBase := op.cancelOne }
  | .cancelAll => { op with toCancelBase := op.cancelAll }

/-- `none` is a call that does not compile. -/
def CancelFdOperation.call (cfg : BuildConfig) (op : CancelFdOperation) :
    CancelCall FileTarget → Option CancelFdOperation
  | .target (.file f) => op.target cfg (.file f)
  | .target (.fixedFile f) => op.target cfg (.fixedFile f)
  | .cancelOne => some { op with toCancelBase := op.cancelOne }
  | .cancelAll => some { op with toCancelBase := op.cancelAll }

/-- **What the calls ask for**: the last target, and whether all requests are to be cancelled. -/
structure Intent (T : Type) where
  target : T
  all : Bool
  deriving DecidableEq, Repr

def Intent.call {T : Type} (i : Intent T) : CancelCall T → Intent T
  | .target t => { i with target := t }
  | .cancelOne => { i with all := false }
  | .cancelAll => { i with all := true }

/-! ### The flags -/

/-- The key for `user_data` is set, and no other key. -/
structure UserdataKey (flags : UInt32) : Prop where
  userdata : flags &&& asyncCancelUserdata = asyncCancelUserdata
  fd : flags &&& asyncCancelFd = 0
  op : flags &&& asyncCancelOp = 0

/-- The bits of the keys. -/
def asyncCancelKeys : List UInt32 := [asyncCancelUserdata, asyncCancelFd, asyncCancelOp]

namespace UserdataKey

variable {flags g : UInt32}

theorem clear (h : UserdataKey flags) (hg : ∀ key ∈ asyncCancelKeys, g &&& key = 0) :
    UserdataKey (flags &&& ~~~g) where
  userdata := (clear_test_of_disjoint _ (hg _ (by decide))).trans h.userdata
  fd := (clear_test_of_disjoint _ (hg _ (by decide))).trans h.fd
  op := (clear_test_of_disjoint _ (hg _ (by decide))).trans h.op

theorem set (h : UserdataKey flags) (hg : ∀ key ∈ asyncCancelKeys, g &&& key = 0) :
    UserdataKey (flags ||| g) where
  userdata := (set_test_of_disjoint _ (hg _ (by decide))).trans h.userdata
  fd := (set_test_of_disjoint _ (hg _ (by decide))).trans h.fd
  op := (set_test_of_disjoint _ (hg _ (by decide))).trans h.op

end UserdataKey

/-- **The word of flags** after any calls: the key for `user_data`, and the two bits that the setters
change. -/
structure FlagsOf (flags : UInt32) (all fixed : Bool) : Prop extends UserdataKey flags where
  all : flags &&& asyncCancelAll = if all then asyncCancelAll else 0
  fixed : flags &&& asyncCancelFdFixed = if fixed then asyncCancelFdFixed else 0

namespace FlagsOf

variable {flags : UInt32} {all fixed : Bool}

theorem forall_keys {g : UInt32} (huserdata : g &&& asyncCancelUserdata = 0)
    (hfd : g &&& asyncCancelFd = 0) (hop : g &&& asyncCancelOp = 0) :
    ∀ key ∈ asyncCancelKeys, g &&& key = 0 := by
  intro key hkey
  unfold asyncCancelKeys at hkey
  simp only [List.mem_cons, List.not_mem_nil, or_false] at hkey
  rcases hkey with rfl | rfl | rfl
  · exact huserdata
  · exact hfd
  · exact hop

theorem all_keys : ∀ key ∈ asyncCancelKeys, asyncCancelAll &&& key = 0 :=
  forall_keys (by decide) (by decide) (by decide)

theorem fixed_keys : ∀ key ∈ asyncCancelKeys, asyncCancelFdFixed &&& key = 0 :=
  forall_keys (by decide) (by decide) (by decide)

theorem init : FlagsOf asyncCancelUserdata false false :=
  ⟨⟨by decide, by decide, by decide⟩, by decide, by decide⟩

theorem clear_all (h : FlagsOf flags all fixed) : FlagsOf (flags &&& ~~~asyncCancelAll) false fixed :=
  ⟨h.toUserdataKey.clear all_keys, clear_test _,
    (clear_test_of_disjoint _ (by decide)).trans h.fixed⟩

theorem set_all (h : FlagsOf flags all fixed) : FlagsOf (flags ||| asyncCancelAll) true fixed :=
  ⟨h.toUserdataKey.set all_keys, set_test _, (set_test_of_disjoint _ (by decide)).trans h.fixed⟩

theorem clear_fixed (h : FlagsOf flags all fixed) :
    FlagsOf (flags &&& ~~~asyncCancelFdFixed) all false :=
  ⟨h.toUserdataKey.clear fixed_keys, (clear_test_of_disjoint _ (by decide)).trans h.all,
    clear_test _⟩

theorem set_fixed (h : FlagsOf flags all fixed) : FlagsOf (flags ||| asyncCancelFdFixed) all true :=
  ⟨h.toUserdataKey.set fixed_keys, (set_test_of_disjoint _ (by decide)).trans h.all, set_test _⟩

end FlagsOf

/-! ### Runs of the setters -/

/-- The members say what the calls ask for. -/
structure CancelOperation.Represents (op : CancelOperation) (i : Intent UInt64) : Prop where
  target : op.id = i.target
  flags : FlagsOf op.flags i.all false

theorem CancelOperation.represents_call {op : CancelOperation} {i : Intent UInt64}
    (h : op.Represents i) (c : CancelCall UInt64) : (op.call c).Represents (i.call c) := by
  cases c with
  | target identifier => exact ⟨rfl, h.flags⟩
  | cancelOne => exact ⟨h.target, h.flags.clear_all⟩
  | cancelAll => exact ⟨h.target, h.flags.set_all⟩

/-- The same for a file. -/
structure CancelFdOperation.Represents (op : CancelFdOperation) (i : Intent Target) : Prop where
  fd : op.fd = i.target.fd
  flags : FlagsOf op.flags i.all i.target.isFixed

/-- What a call means for the intent about a descriptor. -/
def CancelCall.map {T T' : Type} (f : T → T') : CancelCall T → CancelCall T'
  | .target t => .target (f t)
  | .cancelOne => .cancelOne
  | .cancelAll => .cancelAll

theorem CancelFdOperation.represents_call {cfg : BuildConfig} {op op' : CancelFdOperation}
    {i : Intent Target} {c : CancelCall FileTarget} (h : op.Represents i)
    (hc : op.call cfg c = some op') : op'.Represents (i.call (c.map FileTarget.target)) := by
  cases c with
  | target t =>
    cases t with
    | file f =>
      obtain ⟨-, hc⟩ := Option.ite_none_right_eq_some.mp hc
      exact Option.some.inj hc ▸ ⟨rfl, h.flags.clear_fixed⟩
    | fixedFile f =>
      obtain ⟨-, hc⟩ := Option.ite_none_right_eq_some.mp hc
      exact Option.some.inj hc ▸ ⟨rfl, h.flags.set_fixed⟩
  | cancelOne => exact Option.some.inj hc ▸ ⟨h.fd, h.flags.clear_all⟩
  | cancelAll => exact Option.some.inj hc ▸ ⟨h.fd, h.flags.set_all⟩

/-- **A cancel operation after calls of its setters.** -/
inductive Canceller
  | cancel (calls : List (CancelCall UInt64))
  | cancelFd (calls : List (CancelCall FileTarget))
  deriving DecidableEq, Repr

namespace Canceller

/-- The object that a new `cancel_operation` has become. -/
def cancelOperation (calls : List (CancelCall UInt64)) : CancelOperation :=
  calls.foldl CancelOperation.call {}

/-- The object that a new `cancel_fd_operation` has become; `none` where a call does not compile. -/
def cancelFdOperation (cfg : BuildConfig) (calls : List (CancelCall FileTarget)) :
    Option CancelFdOperation :=
  run (CancelFdOperation.call cfg) {} calls

def build (cfg : BuildConfig) (prep : Prep → Sqe) : Canceller → Option Sqe
  | cancel calls => some ((cancelOperation calls).build prep)
  | cancelFd calls => (cancelFdOperation cfg calls).map fun op => op.build prep

def doCallback (cfg : BuildConfig) (ev : Int32) : Canceller → Option (List (Delivery I V))
  | cancel calls => some ((cancelOperation calls).doCallback ev)
  | cancelFd calls => (cancelFdOperation cfg calls).map fun op => op.doCallback ev

/-- What was asked for, from no identifier or no file. -/
def idIntent (calls : List (CancelCall UInt64)) : Intent UInt64 := calls.foldl Intent.call ⟨0, false⟩

def fdIntent (calls : List (CancelCall FileTarget)) : Intent Target :=
  calls.foldl (fun i c => i.call (c.map FileTarget.target)) ⟨⟨-1, false⟩, false⟩

/-- The last call for how many is `cancel_all`. -/
def all : Canceller → Bool
  | cancel calls => (idIntent calls).all
  | cancelFd calls => (fdIntent calls).all

/-- **The requests that the target names.** -/
def Names (k : Kernel) (r : Request) : Canceller → Prop
  | cancel calls => r.userData = (idIntent calls).target
  | cancelFd calls => k.On (fdIntent calls).target r

theorem represents_run {cfg : BuildConfig} : ∀ (calls : List (CancelCall FileTarget))
    {op op' : CancelFdOperation} {i : Intent Target}, op.Represents i →
    run (CancelFdOperation.call cfg) op calls = some op' →
    op'.Represents (calls.foldl (fun i c => i.call (c.map FileTarget.target)) i)
  | [], op, op', i, h, hrun => by
    rw [run_nil, Option.some.injEq] at hrun
    exact hrun ▸ h
  | c :: calls, op, op', i, h, hrun => by
    obtain ⟨t, ht, hrun⟩ := (run_cons_eq_some_iff _).mp hrun
    exact represents_run calls (CancelFdOperation.represents_call h ht) hrun

theorem represents_cancelFd {cfg : BuildConfig} {calls : List (CancelCall FileTarget)}
    {op : CancelFdOperation} (h : cancelFdOperation cfg calls = some op) :
    op.Represents (fdIntent calls) :=
  represents_run calls ⟨rfl, FlagsOf.init⟩ h

theorem kernelTarget_cancelFdOperation (hop : WritesOpcode prep) (hcancel : WritesCancel prep)
    {cfg : BuildConfig} {calls : List (CancelCall FileTarget)} {op : CancelFdOperation}
    (h : cancelFdOperation cfg calls = some op) :
    kernelTarget (op.build prep) = (fdIntent calls).target := by
  obtain ⟨hfd, hflags⟩ := represents_cancelFd h
  refine (kernelTarget_buildCancelFd hop hcancel op).trans ?_
  rw [hfd, hflags.fixed]
  obtain ⟨⟨fd, isFixed⟩, all⟩ := fdIntent calls
  cases isFixed <;> rfl

end Canceller

end Iouxx.Ops
