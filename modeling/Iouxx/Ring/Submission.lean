import Iouxx.Ring.Queue

/-!
# Truthful submissions

A call of `do_submit` reports success or an error. The report is truthful when success means that
the kernel has taken the entry, and an error that the entry is not queued, was never taken and has no
completion. `ring::submit` reports only the sign of what `io_uring_submit` returns, so a report is
truthful exactly when the call took every slot.

* `settled_step`: steps that take every slot keep the queue empty and the reports truthful;
* `takesAll_of_truthful`: after any other call a report is wrong;
* `truthful_iff`: **in a run all reports are truthful in every state reached exactly when every call
  took every slot**.
-/

namespace Iouxx.Ring.Queue

open Iouxx.Cpp.Error Iouxx.Lib.Trace Iouxx.Utility

universe u

variable {Res : Type u} {ops : Operations Res} {st st' : Queue Res} {x : OpId} {ev : ℤ}

/-- What a report of `do_submit` says about its ticket. -/
def TruthfulReport (st : Queue Res) (r : ℕ × ErrorCode) : Prop :=
  if r.2.isError then (∀ e ∈ st.sq, e.ticket ≠ r.1) ∧ r.1 ∉ st.consumed ∧ r.1 ∉ st.posted
  else r.1 ∈ st.consumed

/-- **All reports made so far are truthful.** -/
def Truthful (st : Queue Res) : Prop := ∀ r ∈ st.reports, st.TruthfulReport r

/-- A call that gets to `io_uring_submit` has every slot taken. -/
def TakesAll (ops : Operations Res) (st : Queue Res) : Event → Prop
  | .submit x ev => st.Submits ops x → ev = st.sq.length + 1
  | .coAwait x ev => st.Submits ops x → ev = st.sq.length + 1
  | .submitAndWait x ev _ _ => st.Submits ops x → ev = st.sq.length + 1
  | .complete _ => True
  | .reap => True

/-- What holds as long as every call takes every slot. -/
structure Settled (st : Queue Res) : Prop where
  fresh : Fresh st
  sq : st.sq = []
  inflight : ∀ e ∈ st.inflight, e.ticket ∈ st.consumed
  posted : ∀ t ∈ st.posted, t ∈ st.consumed
  truthful : Truthful st

theorem settled_init (n : ℕ) : Settled (init n : Queue Res) :=
  ⟨fresh_init n, rfl, by simp [init], by simp [init], by simp [Truthful, init]⟩

/-! ### Steps that take every slot -/

theorem settled_attempt (h : Settled st) (hC : st.Submits ops x → ev = st.sq.length + 1) :
    Settled (st.attempt ops x ev).1 := by
  have hfresh : Fresh (st.attempt ops x ev).1 := fresh_attempt h.fresh
  have hold : ∀ r ∈ st.reports, r.1 ≠ st.next := fun r hr => (h.fresh.reports r hr).ne
  rcases attempt_cases ops st x ev with ⟨-, herr, he⟩ | ⟨hs, herr, he⟩
  · refine ⟨hfresh, by rw [he]; exact h.sq, by rw [he]; exact h.inflight,
      by rw [he]; exact h.posted, fun r hr => ?_⟩
    rw [attempt_reports, List.mem_append, List.mem_singleton] at hr
    rcases hr with hr | rfl
    · have := h.truthful r hr
      rw [he]; exact this
    · unfold TruthfulReport
      rw [he, if_pos (by simpa using herr)]
      refine ⟨by simp [h.sq], fun hm => ?_, fun hm => ?_⟩
      · exact absurd (h.fresh.consumed _ hm) (lt_irrefl _)
      · exact absurd (h.fresh.posted _ hm) (lt_irrefl _)
  · have hev : ev = 1 := by rw [hC hs, h.sq]; rfl
    have hslots : st.slots x = [⟨x, st.next⟩] := by rw [slots, h.sq]; rfl
    have hsucc : (st.attempt ops x ev).2.isError = false := by
      rw [← Bool.not_eq_true, herr]; omega
    rw [hev] at he hsucc hfresh ⊢
    rw [hslots] at he
    refine ⟨hfresh, by rw [he]; rfl, ?_, ?_, fun r hr => ?_⟩
    · rw [he]
      intro e he
      rw [List.mem_append]
      rcases List.mem_append.mp he with he | he
      · exact Or.inl (h.inflight e he)
      · exact Or.inr (List.mem_map_of_mem he)
    · rw [he]
      exact fun t ht => List.mem_append_left _ (h.posted t ht)
    · rw [attempt_reports, List.mem_append, List.mem_singleton] at hr
      rcases hr with hr | rfl
      · have hr' := h.truthful r hr
        unfold TruthfulReport at hr' ⊢
        rw [he]
        split_ifs at hr' ⊢ with herr'
        · refine ⟨by simp, fun hm => ?_, hr'.2.2⟩
          rcases List.mem_append.mp hm with hm | hm
          · exact hr'.2.1 hm
          · exact hold r hr (by simpa using hm)
        · exact List.mem_append_left _ hr'
      · unfold TruthfulReport
        rw [if_neg (by simp [hsucc]), he]
        simp

theorem settled_complete {c : Completion} (h : Settled st) (hc : st.complete c = some st') :
    Settled st' := by
  have hfresh := fresh_complete h.fresh hc
  obtain ⟨e, he, heq, rfl⟩ := complete_spec hc
  have hmem : c.ticket ∈ st.consumed := heq ▸ h.inflight e he
  refine ⟨hfresh, h.sq, fun e he => h.inflight e (List.mem_of_mem_filter he), fun t ht => ?_,
    fun r hr => ?_⟩
  · rcases List.mem_append.mp ht with ht | ht
    · exact h.posted t ht
    · rw [List.mem_singleton.mp ht]; exact hmem
  · have hr' := h.truthful r hr
    unfold TruthfulReport at hr' ⊢
    split_ifs at hr' ⊢ with herr
    · refine ⟨hr'.1, hr'.2.1, fun hm => ?_⟩
      rcases List.mem_append.mp hm with hm | hm
      · exact hr'.2.2 hm
      · rw [List.mem_singleton] at hm
        exact hr'.2.1 (hm ▸ hmem)
    · exact hr'

theorem settled_of_eq (h : Settled st) {cq : List Cqe} {results : OpId → Except ErrorCode Res}
    (hcq : ∀ c ∈ cq, c ∈ st.cq) : Settled { st with cq := cq, results := results } :=
  ⟨⟨h.fresh.sq, h.fresh.inflight, fun c hc => h.fresh.cq c (hcq c hc), h.fresh.consumed,
    h.fresh.posted, h.fresh.reports⟩, h.sq, h.inflight, h.posted, h.truthful⟩

theorem settled_submitAndWait {during : List Completion} {waitEv : ℤ} {r : WaitReturn Res}
    (h : Settled st) (hC : st.Submits ops x → ev = st.sq.length + 1)
    (hr : st.submitAndWait ops x ev during waitEv = some r) : Settled r.state := by
  have ha := settled_attempt h hC
  rcases submitAndWait_cases hr with ⟨-, rfl⟩ | ⟨-, st1, hrun, h1⟩
  · exact ha
  · have hs1 : Settled st1 := run_induction (fun _ _ _ hs he => settled_complete hs he) ha hrun
    rcases h1 with ⟨-, rfl⟩ | ⟨-, c, rest, hcq, rfl⟩
    · exact hs1
    · exact settled_of_eq hs1 fun d hd => by rw [hcq]; exact List.mem_cons_of_mem c hd

theorem settled_step {e : Event} (h : Settled st) (hC : st.TakesAll ops e)
    (hstep : st.step ops e = some st') : Settled st' := by
  rcases e with ⟨x, ev⟩ | ⟨x, ev⟩ | ⟨x, ev, during, waitEv⟩ | c | _
  · simp only [step] at hstep
    split_ifs at hstep
    exact Option.some.inj hstep ▸ settled_attempt h hC
  · simp only [step] at hstep
    split_ifs at hstep
    · exact Option.some.inj hstep ▸ settled_of_eq (settled_attempt h hC) fun _ hc => hc
    · exact Option.some.inj hstep ▸ settled_attempt h hC
  · simp only [step] at hstep
    split_ifs at hstep
    obtain ⟨r, hr, rfl⟩ := Option.map_eq_some_iff.mp hstep
    exact settled_submitAndWait h hC hr
  · exact settled_complete h hstep
  · simp only [step] at hstep
    rcases hcq : st.cq with _ | ⟨c, rest⟩
    · rw [hcq] at hstep; cases hstep
    · rw [hcq] at hstep
      exact Option.some.inj hstep ▸
        settled_of_eq h fun d hd => by rw [hcq]; exact List.mem_cons_of_mem c hd

/-! ### Other calls -/

/-- **After a call that leaves a slot, its report is wrong.** -/
theorem takesAll_of_truthful_attempt (hf : Fresh st) (hp : st.Possible ops x ev)
    (ht : Truthful (st.attempt ops x ev).1) : st.Submits ops x → ev = st.sq.length + 1 := by
  intro hs
  have hle := hp hs
  have hreport := ht (st.next, (st.attempt ops x ev).2) (by rw [attempt_reports]; simp)
  rcases attempt_cases ops st x ev with ⟨hn, -, -⟩ | ⟨-, herr, he⟩
  · exact absurd hs hn
  · unfold TruthfulReport at hreport
    by_cases hev : ev < 0
    · -- the slot is still queued
      rw [if_pos (herr.mpr hev), he] at hreport
      have hmem : (⟨x, st.next⟩ : Sqe) ∈ (st.slots x).drop ev.toNat := by
        rw [Int.toNat_of_nonpos (by omega), List.drop_zero, slots]
        simp
      exact absurd rfl (hreport.1 _ hmem)
    · -- the ticket was taken, so it was among the slots taken
      rw [if_neg (by rw [herr]; exact hev), he] at hreport
      rcases List.mem_append.mp hreport with hm | hm
      · exact absurd (hf.consumed _ hm) (lt_irrefl _)
      · by_contra hne
        have hlen : ev.toNat ≤ st.sq.length := by omega
        rw [slots, List.take_append_of_le_length hlen] at hm
        obtain ⟨e, he, hticket⟩ := List.mem_map.mp hm
        have := hf.sq e (List.mem_of_mem_take he)
        omega

theorem truthful_of_sameQueue (hq : SameQueue st st') (hposted : st.posted ⊆ st'.posted)
    (h : Truthful st') : Truthful st := by
  intro r hr
  have hr' := h r (by rw [hq.reports]; exact hr)
  unfold TruthfulReport at hr' ⊢
  rw [hq.sq, hq.consumed] at hr'
  split_ifs at hr' ⊢ with herr
  · exact ⟨hr'.1, hr'.2.1, fun hm => hr'.2.2 (hposted hm)⟩
  · exact hr'

theorem takesAll_of_truthful {e : Event} (h : Settled st) (hstep : st.step ops e = some st')
    (ht : Truthful st') : st.TakesAll ops e := by
  rcases e with ⟨x, ev⟩ | ⟨x, ev⟩ | ⟨x, ev, during, waitEv⟩ | c | _
  · simp only [step] at hstep
    split_ifs at hstep with hp
    exact takesAll_of_truthful_attempt h.fresh hp (Option.some.inj hstep ▸ ht)
  · simp only [step] at hstep
    split_ifs at hstep with hp
    · rw [← Option.some.inj hstep] at ht
      exact takesAll_of_truthful_attempt h.fresh hp ht
    · exact takesAll_of_truthful_attempt h.fresh hp (Option.some.inj hstep ▸ ht)
  · simp only [step] at hstep
    split_ifs at hstep with hp
    obtain ⟨r, hr, rfl⟩ := Option.map_eq_some_iff.mp hstep
    refine takesAll_of_truthful_attempt h.fresh hp ?_
    rcases submitAndWait_cases hr with ⟨-, rfl⟩ | ⟨-, st1, hrun, h1⟩
    · exact ht
    · refine truthful_of_sameQueue (sameQueue_run hrun) (posted_run hrun) ?_
      rcases h1 with ⟨-, rfl⟩ | ⟨-, c, rest, hcq, rfl⟩
      · exact ht
      · exact ht
  · trivial
  · trivial

/-! ### Runs -/

/-- **In a run all reports are truthful in every state reached exactly when every call that gets to
`io_uring_submit` has every slot taken.** -/
theorem truthful_iff {n : ℕ} {es : List Event} (hrun : run (step ops) (init n) es = some st') :
    AlwaysHolds (step ops) Truthful (init n) es ↔ EveryStep (step ops) (TakesAll ops) (init n) es :=
  alwaysHolds_iff (fun _ _ _ h hC hs => settled_step h hC hs) (fun _ h => h.truthful)
    (fun _ _ _ h hs ht => takesAll_of_truthful h hs ht) (settled_init n) hrun

/-- Operations without a result that are all supported. -/
def nops : Operations Unit := ⟨fun _ => true, fun _ _ _ => .ok ()⟩

/-- An operation is submitted with success and completes. -/
theorem truthful_iff_nop :
    AlwaysHolds (step nops) Truthful (init 8) [.submit 1 1, .complete ⟨0, 0, 0⟩, .reap] ↔
      EveryStep (step nops) (TakesAll nops) (init 8) [.submit 1 1, .complete ⟨0, 0, 0⟩, .reap] :=
  truthful_iff rfl

/-- The submission of operation 1 fails with `EAGAIN`; the submission of operation 2 then hands both
entries to the kernel, and operation 1 completes. -/
theorem not_truthful_after_error :
    ¬ ∀ (es : List Event) (st : Queue Unit),
      run (step nops) (init 8) es = some st → Truthful st := by
  intro h
  have hreport := h [.submit 1 (-11), .submit 2 2, .complete ⟨0, 0, 0⟩] _ rfl (0, ⟨11, .system⟩)
    (by decide)
  exact hreport.2.1 (by decide)

end Iouxx.Ring.Queue
