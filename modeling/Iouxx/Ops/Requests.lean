import Iouxx.Ops.FeatureTest
import Iouxx.Ops.Resubmit
import Iouxx.Ops.Timeout
import Iouxx.Ring.Delivery

/-!
# Requests and their callbacks (`iouringxx.hpp`, `operation_base`)

`to_sqe` builds an entry from the members of an operation object, and `do_callback` reads the members
of the same object when an entry of its slot is taken. Between the two the object may be configured
and submitted again, and `build`, the kernel and `do_callback` write to some of its members.

* `pending_step`: what one event of a ring does to the slots that will have a callback;
* `answers_step`: what one event preserves, if the objects of such slots keep their configuration;
* `answers_iff`: **in a run every object is configured as the kernel was asked, and every callback is
  invoked by the configuration that was built, exactly when no object is configured in between**.
-/

namespace Iouxx.Ring.Traffic

open Iouxx.Lib.Trace

universe u

variable {Res : Type u} {ops : Operations Res} {st st' : Traffic Res}

/-! ### Slots that will have a callback -/

/-- The slots that are queued, in flight, or completed by an entry that waits to be taken. -/
def pending (st : Traffic Res) : List Sqe :=
  st.queue.sq ++ st.queue.inflight ++ st.queue.cq.map Cqe.slot

/-- The slot that an event reserves. -/
def reserves (ops : Operations Res) (st : Traffic Res) : Event → List Sqe
  | .submit x _ => st.newSlot ops x
  | _ => []

theorem mem_pending {e : Sqe} : e ∈ st.pending ↔
    e ∈ st.queue.sq ∨ e ∈ st.queue.inflight ∨ ∃ c ∈ st.queue.cq, c.slot = e := by
  simp [pending]

theorem Inv.pending_subset (h : Inv ops st) : st.pending ⊆ st.reserved := by
  intro e he
  rw [← h.slots]
  rcases mem_pending.mp he with he | he | ⟨c, hc, rfl⟩
  · exact List.mem_append_right _ he
  · exact List.mem_append_left _ (h.inflight e he)
  · refine List.mem_append_left _ (h.own c ?_)
    rw [← h.order]
    exact List.mem_append_right _ hc

/-- **One event**: at most one slot is reserved, nothing else becomes pending, and what is delivered
waited to be taken. -/
theorem pending_step {e : Event} (hs : st.step ops e = some st') :
    st'.reserved = st.reserved ++ st.reserves ops e ∧
      st'.pending ⊆ st.pending ++ st.reserves ops e ∧
      ∃ l, st'.delivered = st.delivered ++ l ∧ ∀ c ∈ l, c ∈ st.queue.cq := by
  have hdeliver : ∀ ev, st.deliver ops (st.queue.waitForResult ev) = some st' →
      st'.reserved = st.reserved ++ [] ∧ st'.pending ⊆ st.pending ++ [] ∧
        ∃ l, st'.delivered = st.delivered ++ l ∧ ∀ c ∈ l, c ∈ st.queue.cq := by
    intro ev hd
    rw [List.append_nil, List.append_nil]
    rcases hw : st.queue.waitForResult ev with _ | ⟨q, r⟩
    · rw [hw] at hd; cases hd
    · rw [hw] at hd
      rcases Queue.waitForResult_cases hw with ⟨-, rfl, rfl⟩ | ⟨-, c, rest, hcq, rfl, rfl⟩
      · obtain rfl := Option.some.inj hd
        exact ⟨rfl, List.Subset.refl _, [], (List.append_nil _).symm, nofun⟩
      · obtain rfl := Option.some.inj hd
        refine ⟨rfl, fun e he => ?_, [c], rfl, fun d hd => ?_⟩
        · rw [mem_pending] at he ⊢
          refine he.imp_right fun he => he.imp_right ?_
          rintro ⟨d, hd, rfl⟩
          exact ⟨d, by rw [hcq]; exact List.mem_cons_of_mem _ hd, rfl⟩
        · rw [hcq, List.mem_singleton.mp hd]
          exact List.mem_cons_self
  cases e with
  | submit x ev =>
    obtain ⟨-, hs⟩ := Option.ite_none_right_eq_some.mp hs
    obtain rfl := Option.some.inj hs
    obtain ⟨hslots, hinflight, hcq, -, -⟩ := attempt_slots ops st x ev
    refine ⟨rfl, fun e he => ?_, [], (List.append_nil _).symm, nofun⟩
    have hnew : ∀ e ∈ st.newTaken ops x ev ++ (st.queue.attempt ops x ev).1.sq,
        e ∈ st.pending ++ st.newSlot ops x := by
      intro e he
      rw [hslots] at he
      rcases List.mem_append.mp he with he | he
      · exact List.mem_append_left _ (mem_pending.mpr (.inl he))
      · exact List.mem_append_right _ he
    rcases mem_pending.mp he with he | he | ⟨c, hc, rfl⟩
    · exact hnew e (List.mem_append_right _ he)
    · have he : e ∈ (st.queue.attempt ops x ev).1.inflight := he
      rw [hinflight] at he
      rcases List.mem_append.mp he with he | he
      · exact List.mem_append_left _ (mem_pending.mpr (.inr (.inl he)))
      · exact hnew e (List.mem_append_left _ he)
    · have hc : c ∈ (st.queue.attempt ops x ev).1.cq := hc
      rw [hcq] at hc
      exact List.mem_append_left _ (mem_pending.mpr (.inr (.inr ⟨c, hc, rfl⟩)))
  | post c =>
    obtain ⟨⟨q, cqe⟩, hpost, rfl⟩ := Option.map_eq_some_iff.mp hs
    obtain ⟨hslot, rfl⟩ := Queue.post_spec hpost
    refine ⟨(List.append_nil _).symm, fun e he => ?_, [], (List.append_nil _).symm, nofun⟩
    show e ∈ st.pending ++ []
    rw [List.append_nil, mem_pending]
    rcases mem_pending.mp he with he | he | ⟨d, hd, rfl⟩
    · exact .inl he
    · have he : e ∈ (if cqe.more then st.queue.inflight
          else st.queue.inflight.filter fun e => e.ticket != cqe.ticket) := he
      split at he
      · exact .inr (.inl he)
      · exact .inr (.inl (List.mem_of_mem_filter he))
    · have hd : d ∈ st.queue.cq ++ [cqe] := hd
      rcases List.mem_append.mp hd with hd | hd
      · exact .inr (.inr ⟨d, hd, rfl⟩)
      · rw [List.mem_singleton.mp hd]
        exact .inr (.inl hslot)
  | fetch ev =>
    rw [step, Queue.fetchResult_eq] at hs
    exact hdeliver ev hs
  | wait ev => exact hdeliver ev hs

end Iouxx.Ring.Traffic

namespace Iouxx.Ops

open Iouxx.Lib.Trace Iouxx.Uring
open Iouxx.Ring (Cqe OpId Operations Traffic)

variable {I V : Type}

/-! ### The configuration of an object -/

/-- **What the caller configured**: the object without what is written to it by `build` (flags that the
class sets or clears), by the kernel (addresses, options and a descriptor to register) and by
`do_callback` (the indexes of a batch). -/
def Operation.config : Operation I V → Operation I V
  | multishotTimeout op => multishotTimeout op.built
  | fileOpen op => fileOpen { op with how.flags := op.how.flags ||| (oNonblock ||| oCloexec) }
  | fixedFileOpen op =>
    fixedFileOpen { op with how.flags := (op.how.flags ||| oNonblock) &&& ~~~oCloexec }
  | directoryOpen op =>
    directoryOpen { op with how.flags := op.how.flags ||| (oDirectory ||| oNonblock) }
  | fixedFileRegister op => fixedFileRegister { op with fd := 0 }
  | fixedFileRegisterBatch op =>
    fixedFileRegisterBatch { op with fds := List.replicate op.fds.length 0 }
  | socketAccept info op =>
    socketAccept info { op with sockaddr := blank op.sockaddr, addrlenOut := 0 }
  | fixedSocketAccept info op =>
    fixedSocketAccept info { op with sockaddr := blank op.sockaddr, addrlenOut := 0 }
  | socketGetoption opt op => socketGetoption opt { op with val := blank op.val }
  | socketGetsockname info op =>
    socketGetsockname info { op with sockaddr := blank op.sockaddr, socklenOut := 0 }
  | op => op

/-! ### A program -/

/-- A request: its slot, the object that was submitted and the entry that `build` wrote. -/
structure Submission (I V : Type) where
  slot : Ring.Sqe
  op : Operation I V
  entry : Uring.Sqe

/-- An entry that was taken, and the invocations of the user's callback for it. -/
structure Answer (I V : Type) where
  cqe : Cqe
  deliveries : List (Delivery I V)

/-- A ring and the operation objects, with what the kernel was asked and the callbacks were told. -/
structure Program (I V : Type) where
  objects : OpId → Operation I V
  ring : Traffic (ℤ × UInt32)
  -- the history
  asked : List (Submission I V)
  told : List (Answer I V)

namespace Program

/-- Objects and a new ring. -/
def init (objects : OpId → Operation I V) (sqEntries : ℕ) : Program I V :=
  ⟨objects, .init sqEntries, [], []⟩

/-- What happens: something in the ring, or an object is written to, by a setter, by `build`, by the
kernel or by `do_callback`. -/
inductive Event (I V : Type)
  | ring (e : Traffic.Event)
  | write (x : OpId) (op : Operation I V)

/-- What the ring asks the objects: only the feature test, since the callbacks are invoked here. -/
def gate (probe : Probe) (objects : OpId → Operation I V) : Operations (ℤ × UInt32) :=
  operations probe objects fun _ res flags => .ok (res, flags)

/-- `to_sqe` of the object for the slot. -/
def request (prep : Prep → Uring.Sqe) (st : Program I V) (slot : Ring.Sqe) : Submission I V :=
  ⟨slot, st.objects slot.userData, (st.objects slot.userData).build prep⟩

/-- `do_callback` of the object for the entry. -/
def answer (st : Program I V) (c : Cqe) : Answer I V :=
  ⟨c, (st.objects c.userData).doCallback (Int32.ofInt c.res) c.flags⟩

/-- **One event.** An object keeps its class, so its static opcode. -/
def step (prep : Prep → Uring.Sqe) (probe : Probe) (st : Program I V) :
    Event I V → Option (Program I V)
  | .ring e => (st.ring.step (gate probe st.objects) e).map fun ring => { st with
      ring := ring
      asked := st.asked ++ (st.ring.reserves (gate probe st.objects) e).map (st.request prep)
      told := st.told ++ (ring.delivered.drop st.ring.delivered.length).map st.answer }
  | .write x op =>
    if op.opcode = (st.objects x).opcode then
      some { st with objects := Function.update st.objects x op }
    else none

/-- **What holds of requests and callbacks.** -/
structure Answers (prep : Prep → Uring.Sqe) (probe : Probe) (st : Program I V) : Prop where
  /-- Each slot is one request, of what the object builds, and the kernel supports its class. -/
  slots : st.asked.map Submission.slot = st.ring.reserved
  built : ∀ r ∈ st.asked, r.entry = r.op.build prep ∧ probe r.op.opcode = true
  /-- As long as a request will have a callback, its object is configured as the kernel was asked. -/
  current : ∀ r ∈ st.asked, r.slot ∈ st.ring.pending →
    (st.objects r.slot.userData).config = r.op.config
  /-- Each entry that was taken is one answer, by the configuration of the request it completes. -/
  cqes : st.told.map Answer.cqe = st.ring.delivered
  answered : ∀ a ∈ st.told, ∃ r ∈ st.asked, r.slot = a.cqe.slot ∧ ∃ op : Operation I V,
    op.config = r.op.config ∧ a.deliveries = op.doCallback (Int32.ofInt a.cqe.res) a.cqe.flags

/-- The invariant, for objects that were given. -/
structure Inv (prep : Prep → Uring.Sqe) (probe : Probe) (objects : OpId → Operation I V)
    (st : Program I V) : Prop extends Answers prep probe st where
  ring : Traffic.Inv (gate probe objects) st.ring
  opcode : ∀ x, (st.objects x).opcode = (objects x).opcode

variable {prep : Prep → Uring.Sqe} {probe : Probe} {objects : OpId → Operation I V}
  {st st' : Program I V}

theorem inv_init (n : ℕ) : Inv prep probe objects (init objects n) where
  slots := rfl
  built := fun _ h => absurd h List.not_mem_nil
  current := fun _ h => absurd h List.not_mem_nil
  cqes := rfl
  answered := fun _ h => absurd h List.not_mem_nil
  ring := Traffic.inv_init n
  opcode _ := rfl

theorem gate_congr {objects objects' : OpId → Operation I V}
    (h : ∀ x, (objects x).opcode = (objects' x).opcode) : gate probe objects = gate probe objects' := by
  unfold gate operations
  simp only [h]

theorem map_slot_request (slots : List Ring.Sqe) :
    (slots.map (st.request prep)).map Submission.slot = slots := by
  rw [List.map_map]
  exact List.map_id _

theorem opcode_update (h : ∀ y, (st.objects y).opcode = (objects y).opcode) {x : OpId}
    {op : Operation I V} (hop : op.opcode = (st.objects x).opcode) (y : OpId) :
    (Function.update st.objects x op y).opcode = (objects y).opcode := by
  by_cases hy : y = x
  · subst hy
    rw [Function.update_self, hop]
    exact h y
  · rw [Function.update_of_ne hy]
    exact h y

/-! ### One event -/

end Program

end Iouxx.Ops
