import Iouxx.Ring.Queue

/-!
# Waiting for one operation

`submit_and_wait` waits for one entry of the completion queue, calls the callback of the operation
this entry belongs to, and returns what is stored in its own callback. This is its own result only
if the entry is its own.

* `fresh_step`: tickets are fresh in every reachable state;
* `returnsOwn_iff`: **a call returns its own result exactly when there was nothing to reap, the wait
  did not fail and the kernel completed the operation first**.
-/

namespace Iouxx.Ring.Queue

open Iouxx.Cpp.Error Iouxx.Lib.Trace Iouxx.Utility

universe u

variable {Res : Type u} {ops : Operations Res} {st st' : Queue Res} {x : OpId} {ev : ℤ}

/-! ### Tickets along runs -/

theorem fresh_of_eq (h : Fresh st) {cq : List Cqe} {results : OpId → Except ErrorCode Res}
    (hcq : ∀ c ∈ cq, c ∈ st.cq) : Fresh { st with cq := cq, results := results } :=
  ⟨h.sq, h.inflight, fun c hc => h.cq c (hcq c hc), h.consumed, h.posted, h.reports⟩

theorem fresh_step {e : Event} (h : Fresh st) (hstep : st.step ops e = some st') : Fresh st' := by
  rcases e with ⟨x, ev⟩ | ⟨x, ev⟩ | ⟨x, ev, during, waitEv⟩ | c | _
  · simp only [step] at hstep
    split_ifs at hstep
    exact Option.some.inj hstep ▸ fresh_attempt h
  · simp only [step] at hstep
    split_ifs at hstep
    · exact Option.some.inj hstep ▸ fresh_of_eq (fresh_attempt h) fun _ hc => hc
    · exact Option.some.inj hstep ▸ fresh_attempt h
  · simp only [step] at hstep
    split_ifs at hstep
    obtain ⟨r, hr, rfl⟩ := Option.map_eq_some_iff.mp hstep
    rcases submitAndWait_cases hr with ⟨-, rfl⟩ | ⟨-, st1, hrun, h1⟩
    · exact fresh_attempt h
    · have hs1 := fresh_run (fresh_attempt h) hrun
      rcases h1 with ⟨-, rfl⟩ | ⟨-, c, rest, hcq, rfl⟩
      · exact hs1
      · exact fresh_of_eq hs1 fun d hd => by rw [hcq]; exact List.mem_cons_of_mem c hd
  · exact fresh_complete h hstep
  · simp only [step] at hstep
    rcases hcq : st.cq with _ | ⟨c, rest⟩
    · rw [hcq] at hstep; cases hstep
    · rw [hcq] at hstep
      exact Option.some.inj hstep ▸
        fresh_of_eq h fun d hd => by rw [hcq]; exact List.mem_cons_of_mem c hd

theorem fresh_of_reachable {n : ℕ} (h : Reachable (step ops) (init n) st) : Fresh st :=
  h.induction (fun _ _ _ hs he => fresh_step hs he) (fresh_init n)

/-! ### The entry at the head -/

/-- Slots and operations in flight with the ticket `t` belong to `x`. -/
def Owns (x : OpId) (t : ℕ) (st : Queue Res) : Prop :=
  ∀ e ∈ st.sq ++ st.inflight, e.ticket = t → e.userData = x

theorem owns_attempt (ops : Operations Res) (x : OpId) (ev : ℤ) (h : Fresh st) :
    Owns x st.next (st.attempt ops x ev).1 := by
  have hold : ∀ e ∈ st.sq ++ st.inflight, e.ticket = st.next → e.userData = x := by
    intro e he ht
    rcases List.mem_append.mp he with he | he
    · exact absurd ht (h.sq e he).ne
    · exact absurd ht (h.inflight e he).ne
  have hslot : ∀ e ∈ st.slots x, e.ticket = st.next → e.userData = x := by
    intro e he ht
    rcases List.mem_append.mp he with he | he
    · exact hold e (List.mem_append_left _ he) ht
    · rw [List.mem_singleton.mp he]
  unfold Owns
  rcases attempt_cases ops st x ev with ⟨-, -, he⟩ | ⟨-, -, he⟩
  · rw [he]; exact hold
  · rw [he]
    intro e he ht
    rcases List.mem_append.mp he with he | he
    · exact hslot e (List.mem_of_mem_drop he) ht
    · rcases List.mem_append.mp he with he | he
      · exact hold e (List.mem_append_right _ he) ht
      · exact hslot e (List.mem_of_mem_take he) ht

/-- **The first completion** of a ring with nothing to reap is the head of the completion queue. -/
theorem head_of_run {c : Completion} {cs : List Completion} (hcq : st.cq = [])
    (h : run complete st (c :: cs) = some st') :
    ∃ e ∈ st.inflight, e.ticket = c.ticket ∧
      st'.cq.head? = some ⟨e.userData, c.res, c.flags, c.ticket⟩ ∧
      ∀ e ∈ st'.inflight, e.ticket ≠ c.ticket := by
  obtain ⟨st1, h1, hrun⟩ := (run_cons_eq_some_iff _).mp h
  obtain ⟨e, he, heq, rfl⟩ := complete_spec h1
  obtain ⟨rest, hrest⟩ := cq_run hrun
  refine ⟨e, he, heq, ?_, fun e he => ?_⟩
  · rw [← hrest]
    simp only [hcq]
    rfl
  · have := subset_inflight_run hrun he
    simpa using (List.mem_filter.mp this).2

/-! ### What is returned -/

/-- **The call returns its own result**: the operation is no longer in flight, and the value is what
its `do_callback` computed from its own entry, which the call took from the queue. -/
structure ReturnsOwn (ops : Operations Res) (x : OpId) (t : ℕ) (r : WaitReturn Res) : Prop where
  done : ∀ e ∈ r.state.inflight, e.ticket ≠ t
  own : ∃ c, r.reaped = some c ∧ c.ticket = t ∧ r.value = ops.doCallback x c.res c.flags

/-- The condition: nothing to reap, the wait succeeds, and the operation completes first. -/
def CompletesFirst (st : Queue Res) (during : List Completion) (waitEv : ℤ) : Prop :=
  st.cq = [] ∧ 0 ≤ waitEv ∧ during.head?.map Completion.ticket = some st.next

/-- **When `submit_and_wait` returns its own result**, in every reachable state and after a
successful submission. -/
theorem returnsOwn_iff {n : ℕ} (hr : Reachable (step ops) (init n) st) {during : List Completion}
    {waitEv : ℤ} {r : WaitReturn Res} (h : st.submitAndWait ops x ev during waitEv = some r)
    (hok : (st.attempt ops x ev).2.isError = false) :
    ReturnsOwn ops x st.next r ↔ st.CompletesFirst during waitEv := by
  have hfresh := fresh_of_reachable hr
  have hcq : (st.attempt ops x ev).1.cq = st.cq := attempt_frame.1
  rcases submitAndWait_cases h with ⟨herr, -⟩ | ⟨-, st1, hrun, hcases⟩
  · rw [hok] at herr; cases herr
  · constructor
    · rintro ⟨-, c, hreap, hticket, -⟩
      rcases hcases with ⟨-, rfl⟩ | ⟨hev, d, rest, hd, rfl⟩
      · cases hreap
      · obtain rfl := Option.some.inj hreap
        have hempty : st.cq = [] := by
          -- an older entry at the head would have an older ticket
          rcases hst : st.cq with _ | ⟨b, bs⟩
          · rfl
          · obtain ⟨l, hl⟩ := cq_run hrun
            rw [hcq, hst, hd, List.cons_append, List.cons.injEq] at hl
            have := hfresh.cq b (by rw [hst]; exact List.mem_cons_self)
            rw [hl.1] at this
            omega
        refine ⟨hempty, hev, ?_⟩
        rcases during with _ | ⟨b, bs⟩
        · rw [run_nil, Option.some.injEq] at hrun
          rw [← hrun, hcq, hempty] at hd
          cases hd
        · obtain ⟨e, -, -, hhead, -⟩ := head_of_run (hcq.trans hempty) hrun
          rw [hd, List.head?_cons, Option.some.injEq] at hhead
          rw [List.head?_cons, Option.map_some, ← hticket, hhead]
    · rintro ⟨hempty, hev, hfirst⟩
      rcases during with _ | ⟨b, bs⟩
      · cases hfirst
      · rw [List.head?_cons, Option.map_some, Option.some.injEq] at hfirst
        obtain ⟨e, he, heq, hhead, hgone⟩ := head_of_run (hcq.trans hempty) hrun
        have huser : e.userData = x :=
          owns_attempt ops x ev hfresh e (List.mem_append_right _ he)
            (heq.trans hfirst)
        rcases hcases with ⟨hneg, -⟩ | ⟨-, d, rest, hd, rfl⟩
        · omega
        · rw [hd, List.head?_cons, Option.some.injEq] at hhead
          subst hhead
          refine ⟨fun e he => ?_, _, rfl, hfirst, ?_⟩
          · rw [← hfirst]; exact hgone e he
          · simp only [callback, huser, Function.update_self]

/-- Operations whose result is what the kernel returns for them. -/
def plain : Operations ℤ := ⟨fun _ => true, fun _ res _ => .ok res⟩

/-- Operation 1 was reaped, 2 is in flight and 3 waits in the submission queue. -/
def busy : Queue ℤ :=
  ⟨8, [⟨3, 2⟩], [⟨2, 1⟩], [], Function.update (fun _ => .error .none) 1 (.ok 5), 3, [0, 1], [0],
    [(0, .none), (1, .none), (2, makeSystemErrorCode 11)]⟩

theorem reachable_busy : Reachable (step plain) (init 8) busy :=
  ⟨[.submit 1 1, .submit 2 1, .complete ⟨0, 5, 0⟩, .reap, .submit 3 (-11)], rfl⟩

/-- On a ring with other operations, `submit_and_wait` returns the result of operation 4 where this
completes before operation 2, and not where it completes after it. -/
theorem returnsOwn_iff_busy :
    (∃ r, busy.submitAndWait plain 4 2 [⟨3, 7, 0⟩, ⟨1, 9, 0⟩] 0 = some r ∧
      ReturnsOwn plain 4 busy.next r) ∧
    ∃ r, busy.submitAndWait plain 4 2 [⟨1, 9, 0⟩, ⟨3, 7, 0⟩] 0 = some r ∧
      ¬ ReturnsOwn plain 4 busy.next r := by
  refine ⟨⟨_, rfl, ?_⟩, _, rfl, fun hown => ?_⟩
  · have h : busy.submitAndWait plain 4 2 [⟨3, 7, 0⟩, ⟨1, 9, 0⟩] 0 = some _ := rfl
    exact (returnsOwn_iff reachable_busy h rfl).mpr ⟨rfl, Int.le_refl 0, rfl⟩
  · have h : busy.submitAndWait plain 4 2 [⟨1, 9, 0⟩, ⟨3, 7, 0⟩] 0 = some _ := rfl
    exact absurd ((returnsOwn_iff reachable_busy h rfl).mp hown).2.2 (by decide)

/-- Operation 1 has completed and was not reaped. `submit_and_wait` on operation 2 takes its entry
and returns the value the callback of operation 2 started with. -/
theorem not_returnsOwn_pending :
    ¬ ∀ (st : Queue ℤ) (x : OpId) (ev : ℤ) (during : List Completion) (waitEv : ℤ)
      (r : WaitReturn ℤ), Reachable (step plain) (init 8) st →
      st.submitAndWait plain x ev during waitEv = some r →
      (st.attempt plain x ev).2.isError = false → ReturnsOwn plain x st.next r := by
  intro h
  obtain ⟨-, c, hreap, hticket, -⟩ :=
    h _ 2 1 [] 0 _ ⟨[.submit 1 1, .complete ⟨0, 5, 0⟩], rfl⟩ rfl rfl
  obtain rfl := Option.some.inj hreap
  cases hticket

end Iouxx.Ring.Queue
