import Iouxx.Lib.Trace
import Iouxx.Ops.Network

/-!
# Submitting an operation again (`connection.hpp`, `sockcmd.hpp`, `openclose.hpp`)

Some operations have a member that the kernel reads when the operation is submitted and writes when
it completes: the length of an address, or the descriptor to register. The member is initialized when
the object is made, and neither `build` nor `do_callback` sets it again.

* `InOut.alwaysHolds_presentsFirst_iff`: along a run the next build presents the first request if and
  only if no completion changes the member;
* `presentsFirst_iff`: **this for the four classes**.
-/

namespace Iouxx.Ops

open Iouxx.Uring Iouxx.Lib.Trace

/-! ### Requests -/

/-- A request: the call that `build` makes, and whether it sets `IOSQE_FIXED_FILE` then. -/
structure BuiltRequest where
  call : Prep
  fixed : Bool := false
  deriving DecidableEq, Repr

/-- The entry of a request. -/
def BuiltRequest.sqe (prep : Prep → Sqe) (r : BuiltRequest) : Sqe := (prep r.call).markFixed r.fixed

/-- The storage without its contents. -/
def blank (storage : List UInt8) : List UInt8 := List.replicate storage.length 0

/-- The call without the contents of the address storage, which the kernel does not read. -/
def forgetOutput : Prep → Prep
  | .accept fd addr addrlen flags => .accept fd (addr.map blank) addrlen flags
  | .acceptDirect fd addr addrlen flags fileIndex =>
    .acceptDirect fd (addr.map blank) addrlen flags fileIndex
  | .cmdGetsockname fd sockaddr sockaddrLen peer =>
    .cmdGetsockname fd (blank sockaddr) sockaddrLen peer
  | p => p

/-- The kernel is asked for the same. -/
def SameRequest (r r' : BuiltRequest) : Prop :=
  forgetOutput r.call = forgetOutput r'.call ∧ r.fixed = r'.fixed

instance (r r' : BuiltRequest) : Decidable (SameRequest r r') := by unfold SameRequest; infer_instance

theorem SameRequest.refl (r : BuiltRequest) : SameRequest r r := ⟨rfl, rfl⟩

theorem SameRequest.symm {r r' : BuiltRequest} (h : SameRequest r r') : SameRequest r' r :=
  ⟨h.1.symm, h.2.symm⟩

theorem SameRequest.trans {r r' r'' : BuiltRequest} (h : SameRequest r r') (h' : SameRequest r' r'') :
    SameRequest r r'' :=
  ⟨h.1.trans h'.1, h.2.trans h'.2⟩

/-! ### A member that the kernel reads and writes -/

/-- **A class with a member that the kernel reads and writes**: `intended` is the value the member has
to have for the object the caller made, `write` is what a completion does to the object, and `written`
the value it writes to the member, if any. -/
structure InOut (Op C W : Type) where
  request : Op → BuiltRequest
  build : (Prep → Sqe) → Op → Sqe
  build_eq : ∀ prep op, build prep op = (request op).sqe prep
  member : Op → C
  intended : Op → C
  write : Op → W → Op
  written : W → Option C
  member_write : ∀ op w, member (write op w) = (written w).getD (member op)
  sameRequest_write_iff : ∀ op w,
    SameRequest (request (write op w)) (request op) ↔ member (write op w) = member op

namespace InOut
variable {Op C W : Type} (k : InOut Op C W)

/-- An operation object, and whether it is submitted. -/
structure State (Op : Type) where
  op : Op
  inFlight : Bool := false

/-- What happens to an operation object. -/
inductive Event (W : Type)
  | submit
  | complete (w : W)

/-- An object is submitted, or it is completed: the kernel writes to it, and `do_callback` changes
nothing. -/
def step (s : State Op) : Event W → Option (State Op)
  | .submit => if s.inFlight then none else some { s with inFlight := true }
  | .complete w => if s.inFlight then some ⟨k.write s.op w, false⟩ else none

/-- **The next build presents the request of the object that was made**, and the member has the value
it has to have. -/
def PresentsFirst (op : Op) (s : State Op) : Prop :=
  SameRequest (k.request s.op) (k.request op) ∧ k.member s.op = k.intended op

/-- A completion writes nothing to the member, or the value it has to have. -/
def LeavesMember (op : Op) (_ : State Op) (e : Event W) : Prop :=
  ∀ w, e = .complete w → k.written w = none ∨ k.written w = some (k.intended op)

variable {k} {op : Op} {s s' : State Op} {e : Event W}

theorem step_cases (h : k.step s e = some s') :
    (e = .submit ∧ s' = { s with inFlight := true }) ∨
      ∃ w, e = .complete w ∧ s' = ⟨k.write s.op w, false⟩ := by
  rcases e with _ | w
  · unfold step at h
    simp only at h
    split_ifs at h
    exact Or.inl ⟨rfl, (Option.some.inj h).symm⟩
  · unfold step at h
    simp only at h
    split_ifs at h
    exact Or.inr ⟨w, rfl, (Option.some.inj h).symm⟩

theorem presentsFirst_write_iff (h : k.PresentsFirst op s) (w : W) :
    k.PresentsFirst op ⟨k.write s.op w, false⟩ ↔
      k.written w = none ∨ k.written w = some (k.intended op) := by
  have hmember := k.member_write s.op w
  have hkeep : k.member (k.write s.op w) = k.intended op ↔
      k.written w = none ∨ k.written w = some (k.intended op) := by
    rw [hmember, h.2]
    rcases k.written w with _ | c
    · simp
    · simp
  rw [← hkeep]
  constructor
  · exact fun h' => h'.2
  · intro hw
    have hsame := (k.sameRequest_write_iff s.op w).mpr (hw.trans h.2.symm)
    exact ⟨hsame.trans h.1, hw⟩

theorem presentsFirst_step (h : k.PresentsFirst op s) (hC : k.LeavesMember op s e)
    (hs : k.step s e = some s') : k.PresentsFirst op s' := by
  rcases step_cases hs with ⟨rfl, rfl⟩ | ⟨w, rfl, rfl⟩
  · exact h
  · exact (presentsFirst_write_iff h w).mpr (hC w rfl)

theorem leavesMember_of_presentsFirst (h : k.PresentsFirst op s) (hs : k.step s e = some s')
    (h' : k.PresentsFirst op s') : k.LeavesMember op s e := by
  rcases step_cases hs with ⟨rfl, rfl⟩ | ⟨w, rfl, rfl⟩
  · intro w hw
    cases hw
  · intro w' hw
    cases hw
    exact (presentsFirst_write_iff h w).mp h'

variable (k) in
/-- In every run of the object, the next build presents the first request in every state reached if
and only if every completion leaves the member. -/
def PresentsFirstIff (op : Op) : Prop :=
  ∀ es s', run k.step ⟨op, false⟩ es = some s' →
    (AlwaysHolds k.step (k.PresentsFirst op) ⟨op, false⟩ es ↔
      EveryStep k.step (k.LeavesMember op) ⟨op, false⟩ es)

/-- **When an object can be submitted again.** -/
theorem alwaysHolds_presentsFirst_iff (h : k.member op = k.intended op) : k.PresentsFirstIff op :=
  fun _ _ hrun => alwaysHolds_iff (fun _ _ _ hI hC hs => presentsFirst_step hI hC hs)
    (fun _ hI => hI) (fun _ _ _ hI hs hP => leavesMember_of_presentsFirst hI hs hP)
    ⟨.refl _, h⟩ hrun

end InOut

/-! ### The classes -/

/-- What a completion writes: bytes to the front of the address storage, and the length of the address
as the kernel knows it, which may be greater or smaller than the storage. -/
structure AddressWrite where
  addr : List UInt8
  addrlen : Option UInt32

/-- The storage after bytes were written to its front. -/
def overwrite (storage addr : List UInt8) : List UInt8 :=
  addr.take storage.length ++ storage.drop addr.length

theorem length_overwrite (storage addr : List UInt8) :
    (overwrite storage addr).length = storage.length := by
  rw [overwrite, List.length_append, List.length_take, List.length_drop]; omega

theorem blank_overwrite (storage addr : List UInt8) :
    blank (overwrite storage addr) = blank storage := by
  rw [blank, length_overwrite, blank]

theorem overwrite_of_length_eq {storage addr : List UInt8} (h : addr.length = storage.length) :
    overwrite storage addr = addr := by
  rw [overwrite, ← h, List.take_length, List.drop_of_length_le (by omega), List.append_nil]

def SocketAccept.inOut : InOut SocketAccept UInt32 AddressWrite where
  request op := ⟨.accept op.sock.nativeHandle (some op.sockaddr) (some op.addrlenOut)
    (sockNonblock ||| sockCloexec), false⟩
  build := SocketAccept.build
  build_eq _ _ := rfl
  member op := op.addrlenOut
  intended op := UInt32.ofNat op.sockaddr.length
  write op w :=
    { op with
      sockaddr := overwrite op.sockaddr w.addr
      addrlenOut := w.addrlen.getD op.addrlenOut }
  written w := w.addrlen
  member_write _ _ := rfl
  sameRequest_write_iff op w := by
    simp [SameRequest, forgetOutput, blank_overwrite]

def FixedSocketAccept.inOut : InOut FixedSocketAccept UInt32 AddressWrite where
  request op := ⟨.acceptDirect op.sock.index (some op.sockaddr) (some op.addrlenOut) sockNonblock
    op.fileIndex.toUInt32, true⟩
  build := FixedSocketAccept.build
  build_eq _ _ := rfl
  member op := op.addrlenOut
  intended op := UInt32.ofNat op.sockaddr.length
  write op w :=
    { op with
      sockaddr := overwrite op.sockaddr w.addr
      addrlenOut := w.addrlen.getD op.addrlenOut }
  written w := w.addrlen
  member_write _ _ := rfl
  sameRequest_write_iff op w := by
    simp [SameRequest, forgetOutput, blank_overwrite]

def SocketGetsockname.inOut : InOut SocketGetsockname UInt32 AddressWrite where
  request op := ⟨.cmdGetsockname op.fd op.sockaddr op.socklenOut (if op.isPeer then 1 else 0),
    op.isFixed⟩
  build := SocketGetsockname.build
  build_eq _ _ := rfl
  member op := op.socklenOut
  intended op := UInt32.ofNat op.sockaddr.length
  write op w :=
    { op with
      sockaddr := overwrite op.sockaddr w.addr
      socklenOut := w.addrlen.getD op.socklenOut }
  written w := w.addrlen
  member_write _ _ := rfl
  sameRequest_write_iff op w := by
    simp [SameRequest, forgetOutput, blank_overwrite]

/-- A completion may write the allocated index in the place of the descriptor. -/
def FixedFileRegisterOperation.inOut : InOut FixedFileRegisterOperation Int32 (Option Int32) where
  request op := ⟨.filesUpdate [op.fd] 1 op.off, false⟩
  build := FixedFileRegisterOperation.build
  build_eq _ _ := rfl
  member op := op.fd
  intended op := op.fd
  write op w := { op with fd := w.getD op.fd }
  written w := w
  member_write _ _ := rfl
  sameRequest_write_iff op w := by
    simp [SameRequest, forgetOutput]

/-- **When the four operations can be submitted again**: in a run of an object the caller made, every
build presents the request of the first one, with the size of the storage as the length of the address
and the descriptor that was set, if and only if every completion leaves the length or the descriptor
as it was. -/
theorem presentsFirst_iff (sock : Socket) (fixedSock : FixedSocket) (t : Target)
    (sockaddr : List UInt8) (isPeer : Bool) (fileIndex fd off : Int32) :
    SocketAccept.inOut.PresentsFirstIff { sock, sockaddr } ∧
    FixedSocketAccept.inOut.PresentsFirstIff { fileIndex, sock := fixedSock, sockaddr } ∧
    SocketGetsockname.inOut.PresentsFirstIff { toTarget := t, sockaddr, isPeer } ∧
    FixedFileRegisterOperation.inOut.PresentsFirstIff { fd, off } := by
  refine ⟨?_, ?_, ?_, ?_⟩
  · exact InOut.alwaysHolds_presentsFirst_iff rfl
  · exact InOut.alwaysHolds_presentsFirst_iff rfl
  · exact InOut.alwaysHolds_presentsFirst_iff rfl
  · exact InOut.alwaysHolds_presentsFirst_iff rfl

/-- **The allocated index is registered the next time, and a shorter address makes the length
shorter**: the request of the second build is not that of the first. -/
theorem not_presentsFirst :
    ¬ AlwaysHolds FixedFileRegisterOperation.inOut.step
      (FixedFileRegisterOperation.inOut.PresentsFirst { fd := 7 }) ⟨{ fd := 7 }, false⟩
      [.submit, .complete (some 0)] ∧
    ¬ AlwaysHolds SocketAccept.inOut.step
      (SocketAccept.inOut.PresentsFirst { sockaddr := List.replicate 110 0 })
      ⟨{ sockaddr := List.replicate 110 0 }, false⟩
      [.submit, .complete ⟨[1, 0], some 2⟩] := by
  constructor
  · intro h
    have hP := h [.submit, .complete (some 0)] [] _ (List.append_nil _).symm rfl
    exact absurd hP.2 (by decide)
  · intro h
    have hP := h [.submit, .complete ⟨[1, 0], some 2⟩] [] _ (List.append_nil _).symm rfl
    exact absurd hP.2 (by decide)

end Iouxx.Ops
