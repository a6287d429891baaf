import Iouxx.Lib.Trace
import Iouxx.Utility
import Mathlib.Data.List.Infix
import Mathlib.Logic.Function.Basic

/-!
# The submission and completion queues (`iouringxx.hpp`, `ring`, `operation_base`)

A ring is its reserved submission slots, the operations in flight and the completion queue. The
kernel takes the oldest slots when `io_uring_submit` is called and completes what is in flight in
any order; an entry of the completion queue carries the `user_data` of its submission, the address
of the operation object.

An operation object can be submitted again and again, so each call of `do_submit` gets a ticket,
which its slot and its completion carry. Tickets, and the lists of what happened to them, are not in
the source; no function reads them.
-/

namespace Iouxx.Ring

open Iouxx.Cpp.Error Iouxx.Lib.Trace Iouxx.Utility

universe u

/-- The address of an operation object: its `user_data`. -/
abbrev OpId := ℕ

/-- A submission queue entry. -/
structure Sqe where
  userData : OpId
  ticket : ℕ
  deriving DecidableEq, Repr

/-- A completion queue entry. -/
structure Cqe where
  userData : OpId
  res : ℤ
  flags : UInt32
  ticket : ℕ
  deriving DecidableEq, Repr

/-- What the operation objects do: whether their opcode passes the feature test, and what their
`do_callback` computes. -/
structure Operations (Res : Type u) where
  featureTest : OpId → Bool
  doCallback : OpId → ℤ → UInt32 → Except ErrorCode Res

/-- The state of a ring and of the results stored in the callbacks. -/
structure Queue (Res : Type u) where
  sqEntries : ℕ
  sq : List Sqe
  inflight : List Sqe
  cq : List Cqe
  results : OpId → Except ErrorCode Res
  -- the history
  next : ℕ
  consumed : List ℕ
  posted : List ℕ
  reports : List (ℕ × ErrorCode)

/-- A completion of what has the ticket. -/
structure Completion where
  ticket : ℕ
  res : ℤ
  flags : UInt32
  deriving DecidableEq, Repr

namespace Queue

variable {Res : Type u}

/-- A new ring; a callback starts with `std::unexpected(std::error_code())`. -/
def init (sqEntries : ℕ) : Queue Res :=
  ⟨sqEntries, [], [], [], fun _ => .error .none, 0, [], [], []⟩

/-! ### Submitting -/

/-- The reserved slots with one more for `x`. -/
def slots (st : Queue Res) (x : OpId) : List Sqe := st.sq ++ [⟨x, st.next⟩]

/-- `to_sqe`: the next slot, or a null pointer where the queue is full. -/
def toSqe (st : Queue Res) (x : OpId) : Option (Queue Res) :=
  if st.sq.length < st.sqEntries then some { st with sq := st.slots x } else none

/-- `io_uring_submit` with the return value `ev`: as many of the oldest slots are taken, none for a
negative value. -/
def ioUringSubmit (st : Queue Res) (ev : ℤ) : Queue Res :=
  { st with
    sq := st.sq.drop ev.toNat
    inflight := st.inflight ++ st.sq.take ev.toNat
    consumed := st.consumed ++ (st.sq.take ev.toNat).map Sqe.ticket }

/-- `ring::submit`. -/
def submit (st : Queue Res) (sqe : Option (Queue Res)) (ev : ℤ) : Queue Res × ErrorCode :=
  match sqe with
  | none => (st, makeErrorCode .resourceUnavailableTryAgain)
  | some st =>
    if ev < 0 then (st.ioUringSubmit ev, makeSystemErrorCode (-ev))
    else (st.ioUringSubmit ev, .none)

/-- `operation_base::do_submit`. -/
def doSubmit (ops : Operations Res) (st : Queue Res) (x : OpId) (ev : ℤ) :
    Queue Res × ErrorCode :=
  if ops.featureTest x = false then (st, makeErrorCode .functionNotSupported)
  else st.submit (st.toSqe x) ev

/-- `do_submit` with its entry in the history. -/
def attempt (ops : Operations Res) (st : Queue Res) (x : OpId) (ev : ℤ) :
    Queue Res × ErrorCode :=
  let r := st.doSubmit ops x ev
  ({ r.1 with next := st.next + 1, reports := st.reports ++ [(st.next, r.2)] }, r.2)

/-- `do_submit` gets to `io_uring_submit`. -/
def Submits (ops : Operations Res) (st : Queue Res) (x : OpId) : Prop :=
  ops.featureTest x = true ∧ st.sq.length < st.sqEntries

instance (ops : Operations Res) (st : Queue Res) (x : OpId) : Decidable (st.Submits ops x) := by
  unfold Submits; infer_instance

/-- What `io_uring_submit` may return: an error, or the number of slots taken. -/
def Possible (ops : Operations Res) (st : Queue Res) (x : OpId) (ev : ℤ) : Prop :=
  st.Submits ops x → ev ≤ st.sq.length + 1

instance (ops : Operations Res) (st : Queue Res) (x : OpId) (ev : ℤ) :
    Decidable (st.Possible ops x ev) := by unfold Possible; infer_instance

/-! ### Completing and waiting -/

/-- The kernel completes what is in flight with this ticket. -/
def complete (st : Queue Res) (c : Completion) : Option (Queue Res) :=
  match st.inflight.find? fun e => e.ticket == c.ticket with
  | none => none
  | some e =>
    some { st with
      inflight := st.inflight.filter fun e => e.ticket != c.ticket
      cq := st.cq ++ [⟨e.userData, c.res, c.flags, c.ticket⟩]
      posted := st.posted ++ [c.ticket] }

/-- `operation_result::callback`: the object at `user_data` computes its result and stores it. -/
def callback (ops : Operations Res) (st : Queue Res) (c : Cqe) : Queue Res :=
  { st with
    results := Function.update st.results c.userData (ops.doCallback c.userData c.res c.flags) }

/-- `wait_for_result`, where `io_uring_wait_cqe` returns `ev`; it does not return a value as long as
there is nothing in the completion queue. -/
def waitForResult (st : Queue Res) (ev : ℤ) : Option (Queue Res × Except ErrorCode Cqe) :=
  if ev < 0 then some (st, fail (-ev))
  else
    match st.cq with
    | [] => none
    | c :: rest => some ({ st with cq := rest }, .ok c)

/-- What `submit_and_wait` returns, the state after it and the entry it took from the queue. -/
structure WaitReturn (Res : Type u) where
  state : Queue Res
  value : Except ErrorCode Res
  reaped : Option Cqe

/-- `submit_and_wait`, where `io_uring_submit` returns `ev`, the kernel then completes `during` and
`io_uring_wait_cqe` returns `waitEv`. -/
def submitAndWait (ops : Operations Res) (st : Queue Res) (x : OpId) (ev : ℤ)
    (during : List Completion) (waitEv : ℤ) : Option (WaitReturn Res) :=
  let (st, res) := st.attempt ops x ev
  if res.isError then some ⟨st, .error res, none⟩
  else do
    -- submit success, wait
    let st ← run complete st during
    let (st, cqeResult) ← st.waitForResult waitEv
    match cqeResult with
    | .ok c =>
      let st := st.callback ops c
      some ⟨st, st.results x, some c⟩
    | .error ec => some ⟨st, .error ec, none⟩

/-! ### Runs -/

/-- What happens to a ring. -/
inductive Event
  | submit (x : OpId) (ev : ℤ)
  | coAwait (x : OpId) (ev : ℤ)
  | submitAndWait (x : OpId) (ev : ℤ) (during : List Completion) (waitEv : ℤ)
  | complete (c : Completion)
  | reap
  deriving DecidableEq, Repr

/-- **One event.** -/
def step (ops : Operations Res) (st : Queue Res) : Event → Option (Queue Res)
  | .submit x ev => if st.Possible ops x ev then some (st.attempt ops x ev).1 else none
  | .coAwait x ev =>
    if st.Possible ops x ev then
      let (st, res) := st.attempt ops x ev
      if res.isError then
        -- fail to submit, resume immediately
        some { st with results := Function.update st.results x (.error res) }
      else some st
    else none
  | .submitAndWait x ev during waitEv =>
    if st.Possible ops x ev then (st.submitAndWait ops x ev during waitEv).map WaitReturn.state
    else none
  | .complete c => st.complete c
  | .reap =>
    match st.cq with
    | [] => none
    | c :: rest => some ({ st with cq := rest }.callback ops c)

/-! ### What a call of `do_submit` does -/

variable {ops : Operations Res} {st : Queue Res} {x : OpId} {ev : ℤ}

theorem doSubmit_refused (ev : ℤ) (h : ¬ st.Submits ops x) :
    ∃ ec : ErrorCode, ec.isError = true ∧ st.doSubmit ops x ev = (st, ec) := by
  unfold doSubmit
  by_cases hf : ops.featureTest x = false
  · exact ⟨_, isError_makeErrorCode _, if_pos hf⟩
  · have hlen : ¬ st.sq.length < st.sqEntries := fun hlen => h ⟨by simpa using hf, hlen⟩
    refine ⟨_, isError_makeErrorCode .resourceUnavailableTryAgain, ?_⟩
    rw [if_neg hf, toSqe, if_neg hlen]
    rfl

theorem doSubmit_submits (h : st.Submits ops x) :
    st.doSubmit ops x ev = (({ st with sq := st.slots x } : Queue Res).ioUringSubmit ev,
      if ev < 0 then makeSystemErrorCode (-ev) else .none) := by
  unfold doSubmit
  rw [if_neg (by simp [h.1]), toSqe, if_pos h.2]
  by_cases hev : ev < 0
  · rw [if_pos hev]; exact if_pos hev
  · rw [if_neg hev]; exact if_neg hev

/-- **The cases of `do_submit`**: refused without a slot, failed with the slot left in the queue, or
submitted with the oldest slots taken. -/
theorem attempt_cases (ops : Operations Res) (st : Queue Res) (x : OpId) (ev : ℤ) :
    (¬ st.Submits ops x ∧ (st.attempt ops x ev).2.isError = true ∧
      (st.attempt ops x ev).1 = { st with
        next := st.next + 1
        reports := st.reports ++ [(st.next, (st.attempt ops x ev).2)] }) ∨
    (st.Submits ops x ∧ ((st.attempt ops x ev).2.isError = true ↔ ev < 0) ∧
      (st.attempt ops x ev).1 = { st with
        sq := (st.slots x).drop ev.toNat
        inflight := st.inflight ++ (st.slots x).take ev.toNat
        consumed := st.consumed ++ ((st.slots x).take ev.toNat).map Sqe.ticket
        next := st.next + 1
        reports := st.reports ++ [(st.next, (st.attempt ops x ev).2)] }) := by
  by_cases h : st.Submits ops x
  · right
    unfold attempt
    rw [doSubmit_submits h]
    refine ⟨h, ?_, rfl⟩
    by_cases hev : ev < 0
    · have h0 : ev ≠ 0 := by omega
      simp [hev, h0]
    · simp [hev]
  · left
    obtain ⟨ec, hec, hd⟩ := doSubmit_refused ev h
    unfold attempt
    rw [hd]
    exact ⟨h, hec, rfl⟩

theorem attempt_reports : (st.attempt ops x ev).1.reports =
    st.reports ++ [(st.next, (st.attempt ops x ev).2)] := rfl

theorem attempt_frame : (st.attempt ops x ev).1.cq = st.cq ∧
    (st.attempt ops x ev).1.posted = st.posted := by
  rcases attempt_cases ops st x ev with ⟨-, -, h⟩ | ⟨-, -, h⟩
  · rw [h]; exact ⟨rfl, rfl⟩
  · rw [h]; exact ⟨rfl, rfl⟩

/-! ### What completions do -/

theorem complete_spec {st' : Queue Res} {c : Completion} (h : st.complete c = some st') :
    ∃ e ∈ st.inflight, e.ticket = c.ticket ∧ st' = { st with
      inflight := st.inflight.filter fun e => e.ticket != c.ticket
      cq := st.cq ++ [⟨e.userData, c.res, c.flags, c.ticket⟩]
      posted := st.posted ++ [c.ticket] } := by
  unfold complete at h
  rcases hfind : st.inflight.find? (fun e => e.ticket == c.ticket) with _ | e
  · rw [hfind] at h; cases h
  · rw [hfind] at h
    have heq := List.find?_some hfind
    exact ⟨e, List.mem_of_find?_eq_some hfind, by simpa using heq, (Option.some.inj h).symm⟩

/-- What completions leave alone. -/
structure SameQueue (st st' : Queue Res) : Prop where
  sqEntries : st'.sqEntries = st.sqEntries
  sq : st'.sq = st.sq
  next : st'.next = st.next
  consumed : st'.consumed = st.consumed
  reports : st'.reports = st.reports

theorem sameQueue_complete {st' : Queue Res} {c : Completion} (h : st.complete c = some st') :
    SameQueue st st' := by
  obtain ⟨e, -, -, rfl⟩ := complete_spec h
  exact ⟨rfl, rfl, rfl, rfl, rfl⟩

theorem sameQueue_run {st' : Queue Res} {cs : List Completion} (h : run complete st cs = some st') :
    SameQueue st st' :=
  run_induction (fun s e s' hs he => by
    have hc := sameQueue_complete he
    exact ⟨hc.1.trans hs.1, hc.2.trans hs.2, hc.3.trans hs.3, hc.4.trans hs.4, hc.5.trans hs.5⟩)
    ⟨rfl, rfl, rfl, rfl, rfl⟩ h

theorem subset_inflight_run {st' : Queue Res} {cs : List Completion}
    (h : run complete st cs = some st') : st'.inflight ⊆ st.inflight :=
  run_induction (I := fun s : Queue Res => s.inflight ⊆ st.inflight) (fun s e s' hs he => by
    obtain ⟨e, -, -, rfl⟩ := complete_spec he
    exact fun e he => hs (List.mem_of_mem_filter he)) (List.Subset.refl _) h

theorem posted_run {st' : Queue Res} {cs : List Completion} (h : run complete st cs = some st') :
    st.posted ⊆ st'.posted :=
  run_induction (I := fun s : Queue Res => st.posted ⊆ s.posted) (fun s e s' hs he => by
    obtain ⟨e, -, -, rfl⟩ := complete_spec he
    exact List.subset_append_of_subset_left _ hs) (List.Subset.refl _) h

theorem cq_run {st' : Queue Res} {cs : List Completion} (h : run complete st cs = some st') :
    st.cq <+: st'.cq :=
  run_induction (I := fun s : Queue Res => st.cq <+: s.cq) (fun s e s' hs he => by
    obtain ⟨e, -, -, rfl⟩ := complete_spec he
    exact hs.trans (List.prefix_append _ _)) (List.prefix_refl _) h

/-- **The cases of `submit_and_wait`**: the submission fails, the wait fails, or the head of the
completion queue is taken and its callback called. -/
theorem submitAndWait_cases {during : List Completion} {waitEv : ℤ} {r : WaitReturn Res}
    (h : st.submitAndWait ops x ev during waitEv = some r) :
    ((st.attempt ops x ev).2.isError = true ∧
      r = ⟨(st.attempt ops x ev).1, .error (st.attempt ops x ev).2, none⟩) ∨
    ((st.attempt ops x ev).2.isError = false ∧
      ∃ st1, run complete (st.attempt ops x ev).1 during = some st1 ∧
        ((waitEv < 0 ∧ r = ⟨st1, fail (-waitEv), none⟩) ∨
          (0 ≤ waitEv ∧ ∃ c rest, st1.cq = c :: rest ∧
            r = ⟨({ st1 with cq := rest } : Queue Res).callback ops c,
              (({ st1 with cq := rest } : Queue Res).callback ops c).results x, some c⟩))) := by
  unfold submitAndWait at h
  simp only at h
  by_cases he : (st.attempt ops x ev).2.isError = true
  · left
    rw [if_pos he] at h
    exact ⟨he, (Option.some.inj h).symm⟩
  · right
    rw [if_neg he] at h
    obtain ⟨st1, hrun, h⟩ := Option.bind_eq_some_iff.mp h
    refine ⟨by simpa using he, st1, hrun, ?_⟩
    obtain ⟨w, hw, h⟩ := Option.bind_eq_some_iff.mp h
    unfold waitForResult at hw
    by_cases hev : waitEv < 0
    · left
      rw [if_pos hev, Option.some.injEq] at hw
      subst hw
      exact ⟨hev, (Option.some.inj h).symm⟩
    · right
      rw [if_neg hev] at hw
      rcases hcq : st1.cq with _ | ⟨c, rest⟩
      · rw [hcq] at hw; cases hw
      · rw [hcq] at hw
        obtain rfl := Option.some.inj hw
        exact ⟨by omega, c, rest, rfl, (Option.some.inj h).symm⟩

/-! ### Tickets -/

/-- **Tickets are fresh**: every ticket that occurs was drawn before. -/
structure Fresh (st : Queue Res) : Prop where
  sq : ∀ e ∈ st.sq, e.ticket < st.next
  inflight : ∀ e ∈ st.inflight, e.ticket < st.next
  cq : ∀ c ∈ st.cq, c.ticket < st.next
  consumed : ∀ t ∈ st.consumed, t < st.next
  posted : ∀ t ∈ st.posted, t < st.next
  reports : ∀ r ∈ st.reports, r.1 < st.next

theorem fresh_init (n : ℕ) : Fresh (init n : Queue Res) :=
  ⟨by simp [init], by simp [init], by simp [init], by simp [init], by simp [init], by simp [init]⟩

theorem fresh_attempt (h : Fresh st) : Fresh (st.attempt ops x ev).1 := by
  have hreports : ∀ ec, ∀ r ∈ st.reports ++ [(st.next, ec)], r.1 < st.next + 1 := by
    intro ec r hr
    rcases List.mem_append.mp hr with hr | hr
    · exact Nat.lt_succ_of_lt (h.reports r hr)
    · rw [List.mem_singleton.mp hr]; exact Nat.lt_succ_self _
  have hslot : ∀ e ∈ st.slots x, e.ticket < st.next + 1 := by
    intro e he
    rcases List.mem_append.mp he with he | he
    · exact Nat.lt_succ_of_lt (h.sq e he)
    · rw [List.mem_singleton.mp he]; exact Nat.lt_succ_self _
  rcases attempt_cases ops st x ev with ⟨-, -, he⟩ | ⟨-, -, he⟩
  · rw [he]
    exact ⟨fun e he => Nat.lt_succ_of_lt (h.sq e he),
      fun e he => Nat.lt_succ_of_lt (h.inflight e he),
      fun c hc => Nat.lt_succ_of_lt (h.cq c hc), fun t ht => Nat.lt_succ_of_lt (h.consumed t ht),
      fun t ht => Nat.lt_succ_of_lt (h.posted t ht), hreports _⟩
  · rw [he]
    refine ⟨fun e he => hslot e (List.mem_of_mem_drop he), fun e he => ?_,
      fun c hc => Nat.lt_succ_of_lt (h.cq c hc), fun t ht => ?_,
      fun t ht => Nat.lt_succ_of_lt (h.posted t ht), hreports _⟩
    · rcases List.mem_append.mp he with he | he
      · exact Nat.lt_succ_of_lt (h.inflight e he)
      · exact hslot e (List.mem_of_mem_take he)
    · rcases List.mem_append.mp ht with ht | ht
      · exact Nat.lt_succ_of_lt (h.consumed t ht)
      · obtain ⟨e, he, rfl⟩ := List.mem_map.mp ht
        exact hslot e (List.mem_of_mem_take he)

theorem fresh_complete {st' : Queue Res} {c : Completion} (h : Fresh st)
    (hc : st.complete c = some st') : Fresh st' := by
  obtain ⟨e, he, heq, rfl⟩ := complete_spec hc
  have hlt : c.ticket < st.next := heq ▸ h.inflight e he
  refine ⟨h.sq, fun e he => h.inflight e (List.mem_of_mem_filter he), fun d hd => ?_, h.consumed,
    fun t ht => ?_, h.reports⟩
  · rcases List.mem_append.mp hd with hd | hd
    · exact h.cq d hd
    · rw [List.mem_singleton.mp hd]; exact hlt
  · rcases List.mem_append.mp ht with ht | ht
    · exact h.posted t ht
    · rw [List.mem_singleton.mp ht]; exact hlt

theorem fresh_run {st' : Queue Res} {cs : List Completion} (h : Fresh st)
    (hr : run complete st cs = some st') : Fresh st' :=
  run_induction (fun _ _ _ hs he => fresh_complete hs he) h hr

end Queue

end Iouxx.Ring
