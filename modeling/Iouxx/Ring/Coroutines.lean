import Iouxx.Lib.Ledger
import Iouxx.Lib.Simulation
import Iouxx.Ring.Awaiter
import Iouxx.Ring.Delivery

/-!
# Coroutines on a ring (`iouringxx.hpp`, `operation_awaiter`, `awaiter_callback`)

Coroutines await operations of a ring. `await_suspend` stores the handle in the callback of the
operation and submits it: on success the coroutine is suspended, on an error it goes on at once with the
error. The completion that is taken from the ring later resumes what the callback has stored.

* `pending_attempt`, `pending_complete`: what submissions and completions do to the pending slots and
  entries;
* `inv_step`: one event;
* `run_awaiter`: a run of the ring is a run of the awaited object of each operation;
* `sound_iff`: **in a run the suspended coroutines are exactly those with one pending completion, and
  every completion resumed the coroutine that was suspended on its operation, in every state reached,
  exactly when no submission with a slot fails**. The slot of such a submission stays in the queue, and
  its completion resumes a coroutine that went on long ago.
-/

namespace Iouxx.Ring.Coroutines

open Iouxx.Cpp.Error Iouxx.Lib Iouxx.Lib.Trace Iouxx.Ring.Awaiter

variable {P Res : Type}

/-- A completion that was taken: the operation and its result, what was suspended on the operation and
what was done. -/
structure Resumed (P Res : Type) where
  x : OpId
  res : Except ErrorCode Res
  waiting : Option (Coroutine P × ℕ)
  action : Action P Res

/-- A ring, the callbacks of its operations and the coroutines suspended on them, with their awaiters. -/
structure State (P Res : Type) where
  queue : Queue Res
  callbacks : OpId → AwaiterCallback P
  waiting : OpId → Option (Coroutine P × ℕ)
  next : ℕ
  -- the history
  resumed : List (Resumed P Res)

/-- A new ring. -/
def init (sqEntries : ℕ) : State P Res := ⟨.init sqEntries, fun _ => {}, fun _ => none, 0, []⟩

/-- `co_await` of an operation, where `io_uring_submit` returns `ev`, a completion of the kernel, or an
entry that is taken and whose callback is called. -/
inductive Event (P : Type)
  | coAwait (x : OpId) (co : Coroutine P) (ev : ℤ)
  | complete (c : Completion)
  | reap
  deriving DecidableEq, Repr

/-- `await_suspend`. -/
def awaitSuspend (ops : Operations Res) (hasUnhandledStopped : P → Bool) (st : State P Res) (x : OpId)
    (co : Coroutine P) (ev : ℤ) : State P Res :=
  let cb := setupAwaiterCallback hasUnhandledStopped (st.callbacks x) co st.next
  let (queue, res) := st.queue.attempt ops x ev
  { st with
    queue := queue
    callbacks := Function.update st.callbacks x cb
    -- fail to submit, resume immediately
    waiting := if res.isError then st.waiting else Function.update st.waiting x (some (co, st.next))
    next := st.next + 1 }

/-- **One event.** An operation is awaited by one coroutine at a time. -/
def step (ops : Operations Res) (hasUnhandledStopped : P → Bool) (st : State P Res) :
    Event P → Option (State P Res)
  | .coAwait x co ev =>
    if (st.waiting x).isNone ∧ st.queue.Possible ops x ev then
      some (awaitSuspend ops hasUnhandledStopped st x co ev)
    else none
  | .complete c => (st.queue.complete c).map fun q => { st with queue := q }
  | .reap =>
    match st.queue.cq with
    | [] => none
    | c :: rest => do
      let res := ops.doCallback c.userData c.res c.flags
      let action ← (st.callbacks c.userData).call res
      some { st with
        queue := { st.queue with cq := rest }
        waiting := Function.update st.waiting c.userData none
        resumed := st.resumed ++ [⟨c.userData, res, st.waiting c.userData, action⟩] }

/-! ### The law -/

/-- The slots whose completions are still to be taken. -/
def pending (q : Queue Res) : List Sqe := q.sq ++ q.inflight ++ q.cq.map Cqe.slot

/-- How many of them belong to an operation. -/
def pendingOf (q : Queue Res) (x : OpId) : ℕ := (pending q).countP fun e => e.userData == x

/-- The action is for the coroutine and its awaiter. -/
def Action.For (co : Coroutine P) (awaiter : ℕ) (res : Except ErrorCode Res) : Action P Res → Prop
  | .unhandledStopped _ co' => co' = co
  | .resume awaiter' res' co' => awaiter' = awaiter ∧ res' = res ∧ co' = co

/-- **The suspended coroutines are those with one pending completion**, and every completion that was
taken acted on the coroutine that was suspended on its operation, with its own result. -/
structure Sound (st : State P Res) : Prop where
  matched : ∀ x, pendingOf st.queue x = if (st.waiting x).isSome then 1 else 0
  resumed : ∀ r ∈ st.resumed, ∃ co awaiter, r.waiting = some (co, awaiter) ∧
    Action.For co awaiter r.res r.action

/-- No submission that has a slot fails. -/
def SlotsSucceed (ops : Operations Res) (st : State P Res) : Event P → Prop
  | .coAwait x _ ev => st.queue.Submits ops x → 0 ≤ ev
  | _ => True

variable {ops : Operations Res} {q q' : Queue Res} {x : OpId} {ev : ℤ}

/-! ### What is pending -/

/-- **A submission with a slot** makes one completion pending, whatever the kernel takes. -/
theorem pending_attempt (ev : ℤ) (h : q.Submits ops x) :
    (pending (q.attempt ops x ev).1).Perm (⟨x, q.next⟩ :: pending q) := by
  rcases Queue.attempt_cases ops q x ev with ⟨hn, -, -⟩ | ⟨-, -, he⟩
  · exact absurd h hn
  · rw [he]
    unfold pending
    have htake : (q.slots x).take ev.toNat ++ (q.slots x).drop ev.toNat = q.sq ++ [⟨x, q.next⟩] :=
      List.take_append_drop _ _
    generalize (q.slots x).take ev.toNat = taken at htake ⊢
    generalize (q.slots x).drop ev.toNat = left at htake ⊢
    have hperm : (left ++ (q.inflight ++ taken)).Perm (⟨x, q.next⟩ :: (q.sq ++ q.inflight)) :=
      calc (left ++ (q.inflight ++ taken)).Perm (q.inflight ++ taken ++ left) :=
            List.perm_append_comm
        _ = q.inflight ++ (q.sq ++ [⟨x, q.next⟩]) := by rw [List.append_assoc, htake]
        List.Perm _ (q.sq ++ [⟨x, q.next⟩] ++ q.inflight) := List.perm_append_comm
        _ = q.sq ++ ⟨x, q.next⟩ :: q.inflight := by rw [List.append_assoc]; rfl
        List.Perm _ (⟨x, q.next⟩ :: (q.sq ++ q.inflight)) := List.perm_middle
    exact hperm.append_right (q.cq.map Cqe.slot)

theorem pending_attempt_refused (ev : ℤ) (h : ¬ q.Submits ops x) :
    pending (q.attempt ops x ev).1 = pending q := by
  rcases Queue.attempt_cases ops q x ev with ⟨-, -, he⟩ | ⟨hs, -, -⟩
  · rw [he]
    rfl
  · exact absurd hs h

theorem pending_complete {c : Completion} (hnodup : ((pending q).map Sqe.ticket).Nodup)
    (h : q.complete c = some q') : (pending q').Perm (pending q) := by
  obtain ⟨e, he, heq, rfl⟩ := Queue.complete_spec h
  have hinflight : (q.inflight.map Sqe.ticket).Nodup := by
    unfold pending at hnodup
    rw [List.map_append, List.map_append] at hnodup
    exact (List.Nodup.of_append_left hnodup).of_append_right
  have hperm := Ledger.perm_cons_filter_key hinflight he
  rw [heq] at hperm
  have hslot : Cqe.slot ⟨e.userData, c.res, c.flags, c.ticket⟩ = e := by
    rw [Cqe.slot, ← heq]
  unfold pending
  rw [List.map_append, List.map_singleton, hslot, List.append_assoc, List.append_assoc]
  refine List.Perm.append_left q.sq ?_
  generalize q.inflight.filter (fun e => e.ticket != c.ticket) = others at hperm ⊢
  calc (others ++ (q.cq.map Cqe.slot ++ [e])).Perm (e :: (others ++ q.cq.map Cqe.slot)) := by
        rw [← List.append_assoc]; exact List.perm_append_singleton e _
    List.Perm _ (q.inflight ++ q.cq.map Cqe.slot) := hperm.symm.append_right _

theorem pending_take {c : Cqe} {rest : List Cqe} (h : q.cq = c :: rest) :
    (pending q).Perm (c.slot :: pending ({ q with cq := rest } : Queue Res)) := by
  have hsplit : pending q = (q.sq ++ q.inflight) ++ c.slot :: rest.map Cqe.slot := by
    unfold pending
    rw [h]
    rfl
  rw [hsplit]
  exact List.perm_middle

theorem pendingOf_take {c : Cqe} {rest : List Cqe} (h : q.cq = c :: rest) (y : OpId) :
    pendingOf q y = pendingOf ({ q with cq := rest } : Queue Res) y +
      if c.userData = y then 1 else 0 := by
  unfold pendingOf
  rw [(pending_take h).countP_eq, List.countP_cons]
  simp [Cqe.slot]

theorem pendingOf_attempt (ops : Operations Res) (q : Queue Res) (ev : ℤ) (x y : OpId) :
    pendingOf (q.attempt ops x ev).1 y =
      pendingOf q y + if q.Submits ops x ∧ x = y then 1 else 0 := by
  unfold pendingOf
  by_cases h : q.Submits ops x
  · rw [(pending_attempt ev h).countP_eq, List.countP_cons]
    simp [h]
  · rw [pending_attempt_refused ev h]
    simp [h]

/-- What is pending differs in the tickets. -/
structure Distinct (q : Queue Res) : Prop where
  nodup : ((pending q).map Sqe.ticket).Nodup
  fresh : ∀ e ∈ pending q, e.ticket < q.next

theorem distinct_attempt (ops : Operations Res) (h : Distinct q) (x : OpId) (ev : ℤ) :
    Distinct (q.attempt ops x ev).1 := by
  have hnext : (q.attempt ops x ev).1.next = q.next + 1 := by
    rcases Queue.attempt_cases ops q x ev with ⟨-, -, he⟩ | ⟨-, -, he⟩
    · rw [he]
    · rw [he]
  by_cases hs : q.Submits ops x
  · have hperm := pending_attempt ev hs
    refine ⟨(hperm.map Sqe.ticket).nodup_iff.mpr (List.nodup_cons.mpr ⟨fun hm => ?_, h.nodup⟩),
      fun e he => ?_⟩
    · obtain ⟨e, he, heq⟩ := List.mem_map.mp hm
      exact absurd (h.fresh e he) (by rw [heq]; exact lt_irrefl _)
    · rw [hnext]
      rcases List.mem_cons.mp (hperm.mem_iff.mp he) with rfl | he
      · exact Nat.lt_succ_self _
      · exact Nat.lt_succ_of_lt (h.fresh e he)
  · have hsame := pending_attempt_refused ev hs
    refine ⟨by rw [hsame]; exact h.nodup, fun e he => ?_⟩
    rw [hsame] at he
    rw [hnext]
    exact Nat.lt_succ_of_lt (h.fresh e he)

theorem distinct_complete {c : Completion} (h : Distinct q) (hc : q.complete c = some q') :
    Distinct q' := by
  have hperm := pending_complete h.nodup hc
  refine ⟨(hperm.map Sqe.ticket).nodup_iff.mpr h.nodup, fun e he => ?_⟩
  rw [(Queue.sameQueue_complete hc).next]
  exact h.fresh e (hperm.mem_iff.mp he)

theorem distinct_take {c : Cqe} {rest : List Cqe} (h : Distinct q) (hcq : q.cq = c :: rest) :
    Distinct ({ q with cq := rest } : Queue Res) := by
  have hperm := pending_take hcq
  exact ⟨(List.nodup_cons.mp ((hperm.map Sqe.ticket).nodup_iff.mp h.nodup)).2,
    fun e he => h.fresh e (hperm.mem_iff.mpr (List.mem_cons_of_mem _ he))⟩

theorem pendingOf_complete {c : Completion} (h : Distinct q) (hc : q.complete c = some q') (x : OpId) :
    pendingOf q' x = pendingOf q x := by
  unfold pendingOf
  exact (pending_complete h.nodup hc).countP_eq _

/-! ### One event -/

/-- The invariant: what is pending differs in the tickets, and the callback of an operation has what the
coroutine suspended on it needs. -/
structure Inv (st : State P Res) : Prop extends Sound st where
  distinct : Distinct st.queue
  stored : ∀ x co awaiter, st.waiting x = some (co, awaiter) →
    (st.callbacks x).handle = some co ∧ (st.callbacks x).result = some awaiter

variable {hasUnhandledStopped : P → Bool} {st st' : State P Res}

theorem inv_init (n : ℕ) : Inv (init n : State P Res) where
  matched := fun _ => rfl
  resumed := fun _ h => absurd h List.not_mem_nil
  distinct := ⟨List.nodup_nil, fun _ h => absurd h List.not_mem_nil⟩
  stored := fun _ _ _ h => nomatch h

/-- **An await** keeps the invariant where its submission does not fail with a slot. -/
theorem inv_coAwait (h : Inv st) {co : Coroutine P} (hnone : st.waiting x = none)
    (hC : st.queue.Submits ops x → 0 ≤ ev) :
    Inv (awaitSuspend ops hasUnhandledStopped st x co ev) := by
  have hstored : ∀ y co' awaiter, y ≠ x → st.waiting y = some (co', awaiter) →
      (Function.update st.callbacks x
        (setupAwaiterCallback hasUnhandledStopped (st.callbacks x) co st.next) y).handle = some co' ∧
      (Function.update st.callbacks x
        (setupAwaiterCallback hasUnhandledStopped (st.callbacks x) co st.next) y).result =
          some awaiter := by
    intro y co' awaiter hy hw
    rw [Function.update_of_ne hy]
    exact h.stored y co' awaiter hw
  have hdistinct := distinct_attempt ops h.distinct x ev
  unfold awaitSuspend
  rcases Queue.attempt_cases ops st.queue x ev with ⟨hs, herr, -⟩ | ⟨hs, herr, -⟩
  · -- refused without a slot: the coroutine goes on, and nothing is pending for it
    refine ⟨⟨fun y => ?_, h.resumed⟩, hdistinct, fun y co' awaiter hw => ?_⟩
    · show pendingOf (st.queue.attempt ops x ev).1 y = _
      simp only [herr, if_true]
      rw [pendingOf_attempt, if_neg (fun hn => hs hn.1)]
      exact h.matched y
    · simp only [herr, if_true] at hw
      refine hstored y co' awaiter (fun hy => ?_) hw
      rw [hy, hnone] at hw
      cases hw
  · -- submitted: the coroutine is suspended, and one completion is pending for it
    have hok : (st.queue.attempt ops x ev).2.isError = false := by
      rw [← Bool.not_eq_true, herr]
      have := hC hs
      omega
    refine ⟨⟨fun y => ?_, h.resumed⟩, hdistinct, fun y co' awaiter hw => ?_⟩
    · show pendingOf (st.queue.attempt ops x ev).1 y = _
      simp only [hok, Bool.false_eq_true, if_false]
      rw [pendingOf_attempt, h.matched y]
      by_cases hy : x = y
      · subst hy
        rw [Function.update_self, hnone]
        simp [hs]
      · rw [Function.update_of_ne (Ne.symm hy)]
        simp [hy]
    · simp only [hok, Bool.false_eq_true, if_false] at hw
      by_cases hy : y = x
      · subst hy
        rw [Function.update_self] at hw
        obtain ⟨rfl, rfl⟩ := Prod.mk.inj (Option.some.inj hw)
        show (Function.update st.callbacks y _ y).handle = _ ∧
          (Function.update st.callbacks y _ y).result = _
        rw [Function.update_self]
        exact ⟨rfl, rfl⟩
      · rw [Function.update_of_ne hy] at hw
        exact hstored y co' awaiter hy hw

theorem inv_complete {c : Completion} (h : Inv st) (hc : st.queue.complete c = some q) :
    Inv { st with queue := q } where
  matched y := (pendingOf_complete h.distinct hc y).trans (h.matched y)
  resumed := h.resumed
  distinct := distinct_complete h.distinct hc
  stored := h.stored

theorem action_for {cb : AwaiterCallback P} {co : Coroutine P} {awaiter : ℕ}
    (hhandle : cb.handle = some co) (hresult : cb.result = some awaiter) {res : Except ErrorCode Res}
    {action : Action P Res} (h : cb.call res = some action) : Action.For co awaiter res action := by
  rw [call_eq hhandle hresult, Option.some.injEq] at h
  rw [← h]
  unfold chosenAction
  rcases cb.cancelHandler with _ | promise
  · exact ⟨rfl, rfl, rfl⟩
  · by_cases hc : canceled res = true
    · simp only [hc, if_true]
      exact rfl
    · simp only [hc]
      exact ⟨rfl, rfl, rfl⟩

theorem inv_reap (h : Inv st) (hs : step ops hasUnhandledStopped st .reap = some st') : Inv st' := by
  unfold step at hs
  rcases hcq : st.queue.cq with _ | ⟨c, rest⟩
  · simp only [hcq] at hs
    cases hs
  · simp only [hcq] at hs
    obtain ⟨action, hcall, hs⟩ := Option.bind_eq_some_iff.mp hs
    obtain rfl := Option.some.inj hs
    have hcount := pendingOf_take hcq
    -- the operation of the entry has something pending, so a coroutine is suspended on it
    have hwaiting : ∃ co awaiter, st.waiting c.userData = some (co, awaiter) := by
      rcases hw : st.waiting c.userData with _ | ⟨co, awaiter⟩
      · have h1 := h.matched c.userData
        rw [hcount, hw, if_pos rfl] at h1
        cases h1
      · exact ⟨co, awaiter, rfl⟩
    obtain ⟨co, awaiter, hwaiting⟩ := hwaiting
    obtain ⟨hhandle, hresult⟩ := h.stored _ _ _ hwaiting
    refine ⟨⟨fun y => ?_, fun r hr => ?_⟩, distinct_take h.distinct hcq, fun y co' awaiter' hw => ?_⟩
    · show pendingOf _ y = if (Function.update st.waiting c.userData none y).isSome then 1 else 0
      have h1 := h.matched y
      rw [hcount] at h1
      by_cases hy : c.userData = y
      · subst hy
        rw [hwaiting, if_pos rfl] at h1
        rw [Function.update_self]
        simpa using h1
      · rw [if_neg hy, Nat.add_zero] at h1
        rw [Function.update_of_ne (Ne.symm hy)]
        exact h1
    · rcases List.mem_append.mp hr with hr | hr
      · exact h.resumed r hr
      · rw [List.mem_singleton.mp hr]
        exact ⟨co, awaiter, hwaiting, action_for hhandle hresult hcall⟩
    · by_cases hy : y = c.userData
      · subst hy
        have hw' : Function.update st.waiting c.userData none c.userData = some (co', awaiter') := hw
        rw [Function.update_self] at hw'
        cases hw'
      · have hw' : Function.update st.waiting c.userData none y = some (co', awaiter') := hw
        rw [Function.update_of_ne hy] at hw'
        exact h.stored y co' awaiter' hw'

/-- **One event** keeps the invariant where no submission with a slot fails. -/
theorem inv_step {e : Event P} (h : Inv st) (hC : SlotsSucceed ops st e)
    (hs : step ops hasUnhandledStopped st e = some st') : Inv st' := by
  cases e with
  | coAwait x co ev =>
    obtain ⟨⟨hnone, -⟩, hs⟩ := Option.ite_none_right_eq_some.mp hs
    obtain rfl := Option.some.inj hs
    exact inv_coAwait h (Option.isNone_iff_eq_none.mp hnone) hC
  | complete c =>
    obtain ⟨q, hq, rfl⟩ := Option.map_eq_some_iff.mp hs
    exact inv_complete h hq
  | reap => exact inv_reap h hs

/-- **After a failed submission with a slot** a completion is pending for which nothing waits. -/
theorem slotsSucceed_of_sound {e : Event P}
    (hs : step ops hasUnhandledStopped st e = some st') (hsound : Sound st') :
    SlotsSucceed ops st e := by
  cases e with
  | coAwait x co ev =>
    intro hsub
    obtain ⟨⟨hnone, -⟩, hs⟩ := Option.ite_none_right_eq_some.mp hs
    obtain rfl := Option.some.inj hs
    by_contra hev
    rcases Queue.attempt_cases ops st.queue x ev with ⟨hn, -, -⟩ | ⟨-, herr, -⟩
    · exact hn hsub
    · have hm := hsound.matched x
      have herr' : (st.queue.attempt ops x ev).2.isError = true := herr.mpr (by omega)
      unfold awaitSuspend at hm
      simp only [herr', if_true, Option.isNone_iff_eq_none.mp hnone] at hm
      rw [pendingOf_attempt, if_pos ⟨hsub, rfl⟩] at hm
      cases hm
  | complete c => trivial
  | reap => trivial

/-! ### One operation -/

section Object
open Iouxx.Lib.Simulation

/-- What `do_submit` does for an operation on the queue. -/
def submitted (ops : Operations Res) (q : Queue Res) (x : OpId) (ev : ℤ) : Submitted where
  res := (q.attempt ops x ev).2
  entry := q.Submits ops x
  entry_of_ok h := by
    rcases Queue.attempt_cases ops q x ev with ⟨-, herr, -⟩ | ⟨hs, -, -⟩
    · rw [herr] at h
      cases h
    · exact decide_eq_true hs

/-- What happens to the object of one operation. -/
def label (ops : Operations Res) (x : OpId) (st : State P Res) :
    Event P → List (Awaiter.Event P Res)
  | .coAwait y co ev => if y = x then [.coAwait co st.next (submitted ops st.queue y ev)] else []
  | .complete _ => []
  | .reap => match st.queue.cq with
    | [] => []
    | c :: _ =>
      if c.userData = x then [.complete (ops.doCallback c.userData c.res c.flags)] else []

/-- The object of an operation on the ring. -/
structure Shows (x : OpId) (st : State P Res) (obj : Awaiter.State P Res) : Prop where
  callback : obj.callback = st.callbacks x
  current : obj.current = st.waiting x
  pending : obj.pending = pendingOf st.queue x
  distinct : Distinct st.queue

/-- **The objects of the operations** run as awaited objects, whatever happens on the ring. -/
theorem simulates_awaiter (x : OpId) :
    Simulates (step ops hasUnhandledStopped) (Awaiter.step hasUnhandledStopped)
      (fun _ (_ : Event P) => True) (label ops x) (Shows x) := by
  intro st e st' obj h _ hs
  cases e with
  | coAwait y co ev =>
    obtain ⟨⟨hnone, -⟩, hs⟩ := Option.ite_none_right_eq_some.mp hs
    obtain rfl := Option.some.inj hs
    have hdistinct := distinct_attempt ops h.distinct y ev
    have hcount := pendingOf_attempt ops st.queue ev y x
    by_cases hy : y = x
    · subst hy
      have hcur : obj.current = none := h.current.trans (Option.isNone_iff_eq_none.mp hnone)
      refine ⟨{ obj with
        callback := setupAwaiterCallback hasUnhandledStopped obj.callback co st.next
        current := if (submitted ops st.queue y ev).res.isError then none else some (co, st.next)
        pending := obj.pending + if (submitted ops st.queue y ev).entry then 1 else 0
        awaited := obj.awaited ++ [co.promise] }, ?_, ?_, ?_, ?_, hdistinct⟩
      · rw [label, if_pos rfl, run_cons_eq_some_iff]
        refine ⟨_, ?_, rfl⟩
        rw [Awaiter.step, hcur]
      · show _ = Function.update st.callbacks y _ y
        rw [Function.update_self, h.callback]
      · show (if (st.queue.attempt ops y ev).2.isError then none else some (co, st.next)) =
          (if (st.queue.attempt ops y ev).2.isError then st.waiting else
            Function.update st.waiting y (some (co, st.next))) y
        split
        · rw [← h.current, hcur]
        · rw [Function.update_self]
      · show _ = pendingOf (st.queue.attempt ops y ev).1 y
        rw [hcount, ← h.pending]
        simp [submitted]
    · refine ⟨obj, by rw [label, if_neg hy]; rfl, ?_, ?_, ?_, hdistinct⟩
      · show _ = Function.update st.callbacks y _ x
        rw [Function.update_of_ne (Ne.symm hy), h.callback]
      · show _ = (if (st.queue.attempt ops y ev).2.isError then st.waiting else
          Function.update st.waiting y (some (co, st.next))) x
        split
        · exact h.current
        · rw [Function.update_of_ne (Ne.symm hy), h.current]
      · show _ = pendingOf (st.queue.attempt ops y ev).1 x
        rw [hcount, if_neg (fun hn => hy hn.2)]
        exact h.pending
  | complete c =>
    obtain ⟨q, hq, rfl⟩ := Option.map_eq_some_iff.mp hs
    exact ⟨obj, rfl, h.callback, h.current, h.pending.trans (pendingOf_complete h.distinct hq x).symm,
      distinct_complete h.distinct hq⟩
  | reap =>
    unfold step at hs
    rcases hcq : st.queue.cq with _ | ⟨c, rest⟩
    · simp only [hcq] at hs
      cases hs
    · simp only [hcq] at hs
      obtain ⟨action, hcall, hs⟩ := Option.bind_eq_some_iff.mp hs
      obtain rfl := Option.some.inj hs
      have hcount := pendingOf_take hcq x
      have hdistinct := distinct_take h.distinct hcq
      have hlabel : label ops x st .reap = if c.userData = x then
          [.complete (ops.doCallback c.userData c.res c.flags)] else [] := by
        rw [label, hcq]
      by_cases hx : c.userData = x
      · subst hx
        rw [if_pos rfl, ← h.pending] at hcount
        refine ⟨{ obj with
          current := none
          pending := obj.pending - 1
          completed := obj.completed ++
            [⟨obj.current, ops.doCallback c.userData c.res c.flags, action⟩] }, ?_, h.callback, ?_, ?_,
          hdistinct⟩
        · rw [hlabel, if_pos rfl, run_cons_eq_some_iff]
          refine ⟨_, ?_, rfl⟩
          rw [Awaiter.step, if_neg (by omega), h.callback, hcall]
          rfl
        · show none = Function.update st.waiting c.userData none c.userData
          rw [Function.update_self]
        · exact (congrArg (· - 1) hcount).trans (Nat.add_sub_cancel ..)
      · rw [if_neg hx, Nat.add_zero] at hcount
        refine ⟨obj, by rw [hlabel, if_neg hx]; rfl, h.callback, ?_, h.pending.trans hcount, hdistinct⟩
        exact h.current.trans (Function.update_of_ne (Ne.symm hx) ..).symm

/-- So a run of the ring is a run of the object of each operation. -/
theorem run_awaiter {n : ℕ} {es : List (Event P)}
    (hrun : run (step ops hasUnhandledStopped) (init n) es = some st) (x : OpId) :
    ∃ obj, run (Awaiter.step hasUnhandledStopped) Awaiter.init
        (trace (step ops hasUnhandledStopped) (label ops x) (init n) es) = some obj ∧
      Shows x st obj :=
  (simulates_awaiter x).run ⟨rfl, rfl, rfl, ⟨List.nodup_nil, fun _ h => absurd h List.not_mem_nil⟩⟩
    (fun _ _ _ _ _ _ => trivial) hrun

end Object

/-! ### Runs -/

/-- **When coroutines and completions match.** In every run of awaits, completions and entries taken,
the suspended coroutines are exactly those with one pending completion and every completion acted on the
coroutine suspended on its operation, in every state reached, if and only if no submission that had a
slot failed. -/
theorem sound_iff (hasUnhandledStopped : P → Bool) {n : ℕ} {es : List (Event P)}
    (hrun : run (step ops hasUnhandledStopped) (init n) es = some st) :
    AlwaysHolds (step ops hasUnhandledStopped) Sound (init n) es ↔
      EveryStep (step ops hasUnhandledStopped) (SlotsSucceed ops) (init n) es :=
  alwaysHolds_iff (fun _ _ _ h hC hs => inv_step h hC hs) (fun _ h => h.toSound)
    (fun _ _ _ _ hs hsound => slotsSucceed_of_sound hs hsound) (inv_init n) hrun

/-- Two coroutines; the first completion is for the second. -/
theorem sound_iff_two :
    AlwaysHolds (step Traffic.echo id) Sound (init 8 : State Bool ℤ)
        [.coAwait 1 ⟨100, false⟩ 1, .coAwait 2 ⟨200, true⟩ 1, .complete ⟨1, 5, 0⟩, .reap] ↔
      EveryStep (step Traffic.echo id) (SlotsSucceed Traffic.echo) (init 8 : State Bool ℤ)
        [.coAwait 1 ⟨100, false⟩ 1, .coAwait 2 ⟨200, true⟩ 1, .complete ⟨1, 5, 0⟩, .reap] :=
  sound_iff id rfl

end Iouxx.Ring.Coroutines
