import Iouxx.Lib.Trace
import Iouxx.Utility

/-!
# Awaiting an operation (`awaiter_callback`, `operation_awaiter`)

An operation object can be awaited again and again, by coroutines with different promise types. Each
`co_await` stores the handle of the coroutine and the address of the awaiter in the callback, and the
cancel handler of the promise type where this has `unhandled_stopped`; no `co_await` takes an earlier
handler away. The completion then chooses by the handler that is stored. A submission that fails may
leave its entry in the queue: the coroutine goes on, and a completion comes all the same.

* `inv_step`: what is stored is what the current await needs, but for the handler;
* `pending_eq`: completions come for suspended coroutines only, as long as no submission fails that has
  an entry;
* `actsOnOwn_iff`: **in a run every completion acts on the coroutine of the current await, by its own
  promise type, exactly when a coroutine is suspended for each completion and no stale handler meets a
  cancellation**.
-/

namespace Iouxx.Ring.Awaiter

open Iouxx.Cpp.Error Iouxx.Lib.Trace

variable {P Res : Type}

/-- A suspended coroutine: the address of its frame, and its promise type. -/
structure Coroutine (P : Type) where
  address : ℕ
  promise : P
  deriving DecidableEq, Repr

/-- `awaiter_callback`. The result is that of an awaiter, and `cancel_handler<Promise>` is given by the
promise type it casts the handle to. -/
structure AwaiterCallback (P : Type) where
  result : Option ℕ := none
  cancelHandler : Option P := none
  handle : Option (Coroutine P) := none
  deriving DecidableEq, Repr

/-- What a completion does. -/
inductive Action (P Res : Type)
  /-- `unhandled_stopped` of this promise type is called on the coroutine. -/
  | unhandledStopped (promise : P) (co : Coroutine P)
  /-- The result is stored in the awaiter and the coroutine is resumed. -/
  | resume (awaiter : ℕ) (res : Except ErrorCode Res) (co : Coroutine P)

/-- `!res && res.error() == std::errc::operation_canceled`: the number of the condition, in the system
category as well. -/
def canceled : Except ErrorCode Res → Bool
  | .ok _ => false
  | .error ec => ec.value = Errc.operationCanceled.number

/-- `setup_awaiter_callback`, for the promise types that have `unhandled_stopped`. -/
def setupAwaiterCallback (hasUnhandledStopped : P → Bool) (cb : AwaiterCallback P)
    (co : Coroutine P) (result : ℕ) : AwaiterCallback P where
  handle := some co
  result := some result
  cancelHandler := if hasUnhandledStopped co.promise then some co.promise else cb.cancelHandler

/-- `awaiter_callback::operator()`; `none` where a null pointer would be used. -/
def AwaiterCallback.call (cb : AwaiterCallback P) (res : Except ErrorCode Res) :
    Option (Action P Res) := do
  let co ← cb.handle
  let resumed : Option (Action P Res) := cb.result.map fun awaiter => .resume awaiter res co
  match cb.cancelHandler with
  | some promise => if canceled res then some (.unhandledStopped promise co) else resumed
  | none => resumed

/-- **What `do_submit` does**: the code it returns, and whether there is an entry for the kernel, which
stays in the queue also where the submission fails. -/
structure Submitted where
  res : ErrorCode
  entry : Bool
  entry_of_ok : res.isError = false → entry = true

/-- A completion in the history: the await that was suspended, the result and what was done. -/
structure Completed (P Res : Type) where
  current : Option (Coroutine P × ℕ)
  res : Except ErrorCode Res
  action : Action P Res

/-- The state of an operation object that is awaited. -/
structure State (P Res : Type) where
  callback : AwaiterCallback P
  /-- The coroutine that is suspended, and its awaiter. -/
  current : Option (Coroutine P × ℕ)
  /-- The entries whose completions are still to come. -/
  pending : ℕ
  -- the history
  awaited : List P
  completed : List (Completed P Res)

/-- A new operation object. -/
def init : State P Res := ⟨{}, none, 0, [], []⟩

/-- An await, with its awaiter and what `do_submit` does, or a completion. -/
inductive Event (P Res : Type)
  | coAwait (co : Coroutine P) (awaiter : ℕ) (submitted : Submitted)
  | complete (res : Except ErrorCode Res)

/-- **One event.** An operation is awaited by one coroutine at a time. -/
def step (hasUnhandledStopped : P → Bool) (st : State P Res) : Event P Res → Option (State P Res)
  | .coAwait co awaiter submitted =>
    match st.current with
    | some _ => none
    | none => some { st with
        callback := setupAwaiterCallback hasUnhandledStopped st.callback co awaiter
        -- on an error the coroutine is resumed immediately
        current := if submitted.res.isError then none else some (co, awaiter)
        pending := st.pending + if submitted.entry then 1 else 0
        awaited := st.awaited ++ [co.promise] }
  | .complete res =>
    if st.pending = 0 then none
    else do
      let action ← st.callback.call res
      some { st with
        current := none
        pending := st.pending - 1
        completed := st.completed ++ [⟨st.current, res, action⟩] }

/-! ### The law -/

variable {hasUnhandledStopped : P → Bool} {st st' : State P Res}

/-- **What a completion should do**, by the coroutine and the awaiter of the await. -/
def ownAction (hasUnhandledStopped : P → Bool) (co : Coroutine P) (awaiter : ℕ)
    (res : Except ErrorCode Res) : Action P Res :=
  if hasUnhandledStopped co.promise = true ∧ canceled res = true then
    .unhandledStopped co.promise co
  else .resume awaiter res co

/-- **Every completion so far acted on the coroutine that was suspended**, by its own promise type. -/
def ActsOnOwn (hasUnhandledStopped : P → Bool) (st : State P Res) : Prop :=
  ∀ c ∈ st.completed, ∃ co awaiter, c.current = some (co, awaiter) ∧
    c.action = ownAction hasUnhandledStopped co awaiter c.res

/-- A completion comes while a coroutine is suspended, and a cancellation for a promise type without
`unhandled_stopped` only where no promise type so far has it. -/
def ForSuspended (hasUnhandledStopped : P → Bool) (st : State P Res) : Event P Res → Prop
  | .coAwait _ _ _ => True
  | .complete res => ∃ co awaiter, st.current = some (co, awaiter) ∧
      (canceled res = true → hasUnhandledStopped co.promise = false →
        ∀ p ∈ st.awaited, hasUnhandledStopped p = false)

/-- What is stored for the current await. -/
structure Stored (hasUnhandledStopped : P → Bool) (st : State P Res) : Prop where
  handle : ∀ co awaiter, st.current = some (co, awaiter) →
    st.callback.handle = some co ∧ st.callback.result = some awaiter ∧
      (hasUnhandledStopped co.promise = true → st.callback.cancelHandler = some co.promise)
  handler : st.callback.cancelHandler = none ↔ ∀ p ∈ st.awaited, hasUnhandledStopped p = false

theorem stored_init : Stored hasUnhandledStopped (init : State P Res) where
  handle := by
    intro co awaiter h
    cases h
  handler := by
    refine iff_of_true rfl fun p hp => ?_
    exact absurd hp (List.not_mem_nil)

theorem coAwait_spec {co : Coroutine P} {awaiter : ℕ} {submitted : Submitted}
    (hs : step hasUnhandledStopped st (.coAwait co awaiter submitted) = some st') :
    st.current = none ∧ st' = { st with
      callback := setupAwaiterCallback hasUnhandledStopped st.callback co awaiter
      current := if submitted.res.isError then none else some (co, awaiter)
      pending := st.pending + if submitted.entry then 1 else 0
      awaited := st.awaited ++ [co.promise] } := by
  unfold step at hs
  rcases hc : st.current with _ | cur
  · rw [hc] at hs
    exact ⟨rfl, (Option.some.inj hs).symm⟩
  · rw [hc] at hs
    cases hs

/-- **An await stores what it needs**, but leaves an earlier handler. -/
theorem stored_coAwait {co : Coroutine P} {awaiter : ℕ} {submitted : Submitted}
    (h : Stored hasUnhandledStopped st)
    (hs : step hasUnhandledStopped st (.coAwait co awaiter submitted) = some st') :
    Stored hasUnhandledStopped st' ∧ st'.completed = st.completed := by
  obtain ⟨-, rfl⟩ := coAwait_spec hs
  refine ⟨⟨fun co' awaiter' hco => ?_, ?_⟩, rfl⟩
  · have hco' : (if submitted.res.isError then none else some (co, awaiter)) = some (co', awaiter') :=
      hco
    split at hco'
    · cases hco'
    · obtain ⟨rfl, rfl⟩ := Prod.mk.inj (Option.some.inj hco')
      exact ⟨rfl, rfl, fun hp => if_pos hp⟩
  · have hhandler := h.handler
    change (if hasUnhandledStopped co.promise then _ else _) = none ↔ _
    by_cases hp : hasUnhandledStopped co.promise = true
    · rw [if_pos hp]
      refine iff_of_false nofun fun hall => ?_
      have := hall co.promise (by simp)
      rw [hp] at this
      cases this
    · rw [if_neg hp, hhandler]
      simp only [List.mem_append, List.mem_singleton]
      refine ⟨fun hall p hmem => ?_, fun hall p hmem => hall p (.inl hmem)⟩
      rcases hmem with hmem | rfl
      · exact hall p hmem
      · simpa using hp

/-- What a completion does with the handler that is stored. -/
def chosenAction (handler : Option P) (co : Coroutine P) (awaiter : ℕ) (res : Except ErrorCode Res) :
    Action P Res :=
  match handler with
  | some promise => if canceled res then .unhandledStopped promise co else .resume awaiter res co
  | none => .resume awaiter res co

theorem call_eq {cb : AwaiterCallback P} {co : Coroutine P} {awaiter : ℕ}
    (hhandle : cb.handle = some co) (hresult : cb.result = some awaiter)
    (res : Except ErrorCode Res) :
    cb.call res = some (chosenAction cb.cancelHandler co awaiter res) := by
  unfold AwaiterCallback.call chosenAction
  rw [hhandle, hresult]
  rcases cb.cancelHandler with _ | promise
  · rfl
  · rcases canceled res with _ | _
    · simp
    · simp

theorem complete_spec {res : Except ErrorCode Res}
    (hs : step hasUnhandledStopped st (.complete res) = some st') :
    0 < st.pending ∧ ∃ action, st.callback.call res = some action ∧ st' = { st with
      current := none
      pending := st.pending - 1
      completed := st.completed ++ [⟨st.current, res, action⟩] } := by
  obtain ⟨hpending, hs⟩ := Option.ite_none_left_eq_some.mp hs
  obtain ⟨action, hcall, hs⟩ := Option.bind_eq_some_iff.mp hs
  exact ⟨Nat.pos_of_ne_zero hpending, action, hcall, (Option.some.inj hs).symm⟩

/-- **The stored handler is right** unless it is one of an earlier await and meets a cancellation. -/
theorem chosenAction_eq_iff (h : Stored hasUnhandledStopped st) {co : Coroutine P} {awaiter : ℕ}
    (hcur : st.current = some (co, awaiter)) (res : Except ErrorCode Res) :
    chosenAction st.callback.cancelHandler co awaiter res =
        ownAction hasUnhandledStopped co awaiter res ↔
      (canceled res = true → hasUnhandledStopped co.promise = false →
        ∀ p ∈ st.awaited, hasUnhandledStopped p = false) := by
  obtain ⟨-, -, hown⟩ := h.handle co awaiter hcur
  rw [← h.handler]
  unfold chosenAction ownAction
  rcases hp : hasUnhandledStopped co.promise with _ | _
  · rw [if_neg (by simp)]
    rcases st.callback.cancelHandler with _ | promise
    · exact iff_of_true rfl fun _ _ => rfl
    · rcases canceled res with _ | _
      · exact iff_of_true rfl nofun
      · exact iff_of_false nofun fun hstale => nomatch hstale rfl rfl
  · rw [hown hp]
    rcases canceled res with _ | _
    · exact iff_of_true rfl nofun
    · exact iff_of_true rfl fun _ => nofun

theorem acts_iff {res : Except ErrorCode Res} {action : Action P Res}
    (h : Stored hasUnhandledStopped st) (hcall : st.callback.call res = some action) :
    (∃ co awaiter, st.current = some (co, awaiter) ∧
        action = ownAction hasUnhandledStopped co awaiter res) ↔
      ForSuspended hasUnhandledStopped st (.complete res) := by
  refine exists_congr fun co => exists_congr fun awaiter => and_congr_right fun hcur => ?_
  obtain ⟨hhandle, hresult, -⟩ := h.handle co awaiter hcur
  rw [call_eq hhandle hresult, Option.some.injEq] at hcall
  rw [← hcall]
  exact chosenAction_eq_iff h hcur res

theorem inv_step {e : Event P Res} (h : Stored hasUnhandledStopped st)
    (hs : step hasUnhandledStopped st e = some st') :
    Stored hasUnhandledStopped st' ∧ (ActsOnOwn hasUnhandledStopped st' ↔
      ActsOnOwn hasUnhandledStopped st ∧ ForSuspended hasUnhandledStopped st e) := by
  cases e with
  | coAwait co awaiter submitted =>
    obtain ⟨hst, hcompleted⟩ := stored_coAwait h hs
    refine ⟨hst, ?_⟩
    unfold ActsOnOwn ForSuspended
    rw [hcompleted]
    exact (and_iff_left trivial).symm
  | complete res =>
    obtain ⟨-, action, hcall, rfl⟩ := complete_spec hs
    refine ⟨⟨fun co awaiter hco => (nomatch hco), h.handler⟩, ?_⟩
    rw [← acts_iff h hcall]
    exact List.forall_mem_append.trans (and_congr_right' (List.forall_mem_singleton ..))

/-! ### Where completions come from -/

/-- The submission does not fail with an entry. -/
def EntrySucceeds : Event P Res → Prop
  | .coAwait _ _ submitted => submitted.entry = true → submitted.res.isError = false
  | .complete _ => True

/-- **One completion for each suspended coroutine**, as long as no submission fails that has an entry. -/
theorem pending_eq {es : List (Event P Res)}
    (hes : EveryStep (step hasUnhandledStopped) (fun _ => EntrySucceeds) init es)
    (hrun : run (step hasUnhandledStopped) init es = some st) :
    st.pending = if st.current.isSome then 1 else 0 := by
  refine run_induction_of_everyStep
    (I := fun s : State P Res => s.pending = if s.current.isSome then 1 else 0)
    (fun s e s' h hC hs => ?_) rfl hes hrun
  cases e with
  | coAwait co awaiter submitted =>
    obtain ⟨hcur, rfl⟩ := coAwait_spec hs
    rw [hcur] at h
    have hentry : submitted.entry = true → submitted.res.isError = false := hC
    have hok := submitted.entry_of_ok
    rcases hres : submitted.res.isError with _ | _
    · simp [h, hok hres]
    · have hnone : submitted.entry = false := by
        by_contra hne
        rw [hentry (by simpa using hne)] at hres
        cases hres
      simp [h, hnone]
  | complete res =>
    obtain ⟨hpos, action, -, rfl⟩ := complete_spec hs
    rcases hc : s.current with _ | cur
    · rw [hc] at h
      exact absurd h (by simp; omega)
    · rw [hc] at h
      simp [h]

/-! ### Runs -/

/-- **When completions act on their own coroutine.** In every run of awaits, by coroutines of any
promise types and with any outcome of their submissions, and completions, every completion so far acted
on the coroutine of the current await and by its own promise type, in every state reached, exactly when
every completion came while a coroutine was suspended, and none with a cancellation for a promise type
without `unhandled_stopped` after an await by one that has it. -/
theorem actsOnOwn_iff (hasUnhandledStopped : P → Bool) {es : List (Event P Res)} {st : State P Res}
    (hrun : run (step hasUnhandledStopped) init es = some st) :
    AlwaysHolds (step hasUnhandledStopped) (ActsOnOwn hasUnhandledStopped) init es ↔
      EveryStep (step hasUnhandledStopped) (ForSuspended hasUnhandledStopped) init es := by
  have hinit : Stored hasUnhandledStopped (init : State P Res) ∧
      ActsOnOwn hasUnhandledStopped (init : State P Res) :=
    ⟨stored_init, fun c hc => absurd hc List.not_mem_nil⟩
  refine alwaysHolds_iff (I := fun s => Stored hasUnhandledStopped s ∧ ActsOnOwn hasUnhandledStopped s)
    (fun s e s' hI hC hs => ?_) (fun _ hI => hI.2) (fun s e s' hI hs hP => ?_) hinit hrun
  · obtain ⟨hst, hacts⟩ := inv_step hI.1 hs
    exact ⟨hst, hacts.mpr ⟨hI.2, hC⟩⟩
  · obtain ⟨-, hacts⟩ := inv_step hI.1 hs
    exact (hacts.mp hP).2

/-- A submission that succeeds. -/
def Submitted.ok : Submitted := ⟨.none, true, fun _ => rfl⟩

/-- `io_uring_submit` fails with `EBUSY`, and the entry stays in the queue. -/
def Submitted.busy : Submitted := ⟨⟨16, .system⟩, true, fun _ => rfl⟩

/-- Promise types that say themselves whether they have `unhandled_stopped`: both kinds are awaited, and
the last completion is a cancellation. -/
def bothKinds : List (Event Bool ℕ) :=
  [.coAwait ⟨1, false⟩ 10 .ok, .complete (.error ⟨125, .system⟩), .coAwait ⟨2, true⟩ 20 .ok,
    .complete (.error ⟨125, .system⟩)]

/-- The completion of a submission that failed comes when its coroutine has gone on. -/
def leftEntry : List (Event Bool ℕ) := [.coAwait ⟨1, false⟩ 10 .busy, .complete (.ok 5)]

theorem actsOnOwn_iff_canceled :
    AlwaysHolds (step id) (ActsOnOwn id) (init : State Bool ℕ) bothKinds ∧
      ¬ AlwaysHolds (step id) (ActsOnOwn id) (init : State Bool ℕ) leftEntry := by
  refine ⟨(actsOnOwn_iff id rfl).mpr ?_, fun h => ?_⟩
  · refine everyStep_of_cons trivial fun t ht => ?_
    obtain rfl := Option.some.inj ht
    refine everyStep_of_cons ⟨⟨1, false⟩, 10, rfl, fun _ _ => by decide⟩ fun t ht => ?_
    obtain rfl := Option.some.inj ht
    refine everyStep_of_cons trivial fun t ht => ?_
    obtain rfl := Option.some.inj ht
    exact everyStep_of_cons ⟨⟨2, true⟩, 20, rfl, fun _ => nofun⟩ fun t _ => everyStep_nil t
  · have hall := (actsOnOwn_iff id rfl).mp h
    obtain ⟨co, awaiter, hcur, -⟩ := hall [.coAwait ⟨1, false⟩ 10 .busy] (.complete (.ok 5)) [] _ rfl rfl
    cases hcur

/-- **The handler of a promise type is called on a coroutine of another.** The first await completes with
a value; the second, by a coroutine whose promise has no `unhandled_stopped`, is canceled. -/
theorem not_actsOnOwn_stale :
    ¬ ∀ (es : List (Event Bool ℕ)) (st : State Bool ℕ), run (step id) init es = some st →
      ActsOnOwn id st := by
  intro h
  have hacts := h [.coAwait ⟨1, true⟩ 10 .ok, .complete (.ok 0), .coAwait ⟨2, false⟩ 20 .ok,
    .complete (.error ⟨125, .system⟩)] _ rfl
  obtain ⟨co, awaiter, hcur, haction⟩ := hacts
    ⟨some (⟨2, false⟩, 20), .error ⟨125, .system⟩, .unhandledStopped true ⟨2, false⟩⟩
    (List.mem_cons_of_mem _ (List.mem_cons_self ..))
  obtain ⟨rfl, rfl⟩ := Prod.mk.inj (Option.some.inj hcur)
  cases haction

end Iouxx.Ring.Awaiter
