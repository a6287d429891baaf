import Iouxx.Ops.Requests

/-!
# Results injected by a noop (`noop.hpp`, `noop_operation::pseudo_result`)

`pseudo_result` takes the number of an error and stores it negated. `build` writes what is stored to the
entry, as the result that the kernel shall inject, and `do_callback` negates the result once more. The
number may be set again while a noop is in flight.

* `tells_pseudoResult_iff`: when the number that was set is the one that is told;
* `injected_step`: what one event preserves, also one that sets another number;
* `injects_iff`: **in a run every callback of a noop is told the number that was set when its request was
  built, exactly when this number is an `int`**.
-/

namespace Iouxx.Ring.Traffic

universe u

variable {Res : Type u} {ops : Operations Res} {st st' : Traffic Res}

/-- An entry that waits to be taken waited before, or was posted for a slot in flight. -/
theorem cq_step {e : Event} (hs : st.step ops e = some st') {c : Cqe} (hc : c ∈ st'.queue.cq) :
    c ∈ st.queue.cq ∨
      c.slot ∈ st.queue.inflight ∧ ∃ p, e = .post p ∧ c.ticket = p.ticket ∧ c.res = p.res := by
  have hdeliver : ∀ ev, st.deliver ops (st.queue.waitForResult ev) = some st' →
      c ∈ st.queue.cq := by
    intro ev hd
    rcases hw : st.queue.waitForResult ev with _ | ⟨q, r⟩
    · rw [hw] at hd; cases hd
    · rw [hw] at hd
      rcases Queue.waitForResult_cases hw with ⟨-, rfl, rfl⟩ | ⟨-, d, rest, hcq, rfl, rfl⟩
      · obtain rfl := Option.some.inj hd
        exact hc
      · obtain rfl := Option.some.inj hd
        rw [hcq]
        exact List.mem_cons_of_mem _ hc
  cases e with
  | submit x ev =>
    obtain ⟨-, hs⟩ := Option.ite_none_right_eq_some.mp hs
    obtain rfl := Option.some.inj hs
    obtain ⟨-, -, hcq, -, -⟩ := attempt_slots ops st x ev
    exact .inl (hcq ▸ hc)
  | post p =>
    obtain ⟨⟨q, cqe⟩, hpost, rfl⟩ := Option.map_eq_some_iff.mp hs
    obtain ⟨hslot, rfl⟩ := Queue.post_spec hpost
    have hc : c ∈ st.queue.cq ++ [cqe] := hc
    rcases List.mem_append.mp hc with hc | hc
    · exact .inl hc
    · rw [List.mem_singleton.mp hc]
      obtain ⟨hticket, hres⟩ := Queue.post_fields hpost
      exact .inr ⟨hslot, p, rfl, hticket, hres⟩
  | fetch ev =>
    rw [step, Queue.fetchResult_eq] at hs
    exact .inl (hdeliver ev hs)
  | wait ev => exact .inl (hdeliver ev hs)

end Iouxx.Ring.Traffic

namespace Iouxx.Ops

open Iouxx.Cpp.Error Iouxx.Lib.Trace Iouxx.Uring Iouxx.Utility
open Iouxx.Ring (Cqe OpId Traffic)

variable {I V : Type} {prep : Prep → Uring.Sqe} {probe : Probe}

/-! ### A number and back -/

/-- `pseudo_result(std::uint32_t)`; the overloads for error codes and conditions call it with their
`value()`. -/
def NoopOperation.pseudoResult (op : NoopOperation) (res : UInt32) : NoopOperation :=
  { op with resultCode := (-res).toInt32 }

/-- **What the kernel returns** for the entry of a noop. -/
def nopResult (sqe : Uring.Sqe) : Int32 :=
  if sqe.opFlags &&& nopInjectResult ≠ 0 then sqe.len.toInt32 else 0

/-- How the callback is told an error code, or no error. -/
def VoidCallback.tells (callback : VoidCallback) (ec : ErrorCode) : Delivery I V :=
  match callback with
  | .stdexpected => if ec.isError then .unexpected ec else .value .void
  | .errorcode => .errorCode ec

theorem NoopOperation.exists_pseudoResult (op : NoopOperation) : ∃ res, op = op.pseudoResult res := by
  refine ⟨-op.resultCode.toUInt32, ?_⟩
  unfold pseudoResult
  rw [UInt32.toInt32_neg, UInt32.toInt32_neg, Int32.toInt32_toUInt32, Int32.neg_neg]

theorem nopResult_build (hnop : (prep .nop).opFlags = 0) (op : NoopOperation) :
    nopResult (op.build prep) = op.resultCode := by
  unfold nopResult NoopOperation.build
  by_cases h : op.resultCode = 0
  · rw [if_neg (not_not.mpr h), hnop, h]
    rfl
  · rw [if_pos h]
    simp only [hnop]
    rw [if_pos (by decide), Int32.toInt32_toUInt32]

theorem invokeVoid_eq (callback : VoidCallback) (ev : Int32) :
    (invokeVoid callback ev : List (Delivery I V)) =
      [callback.tells (makeSystemErrorCode (-ev).toInt)] := by
  cases callback with
  | errorcode => rfl
  | stdexpected =>
    unfold invokeVoid VoidCallback.tells invokeFail
    by_cases h : ev = 0
    · rw [h]
      rfl
    · have hne : (-ev).toInt ≠ 0 := by
        rw [← Int32.toInt_zero, Ne, Int32.toInt_inj]
        intro h0
        rw [← Int32.neg_neg (a := ev), h0] at h
        exact h rfl
      rw [if_neg h]
      simp only [isError_makeSystemErrorCode, decide_eq_true hne, if_true]

theorem error_tells (callback : VoidCallback) (ev : ℤ) :
    (callback.tells (makeSystemErrorCode ev) : Delivery I V).error = ev := by
  cases callback with
  | errorcode => exact value_makeSystemErrorCode ev
  | stdexpected =>
    unfold VoidCallback.tells
    rw [isError_makeSystemErrorCode]
    by_cases h : ev = 0
    · rw [h]
      rfl
    · rw [if_pos (decide_eq_true h)]
      exact value_makeSystemErrorCode ev

theorem tells_inj {callback : VoidCallback} {a b : ℤ} :
    (callback.tells (makeSystemErrorCode a) : Delivery I V) =
      callback.tells (makeSystemErrorCode b) ↔ a = b := by
  constructor
  · intro h
    have herror := congrArg Delivery.error h
    rwa [error_tells, error_tells] at herror
  · rintro rfl
    rfl

/-- **The number that was set is told** exactly when it is an `int`. -/
theorem tells_pseudoResult_iff (op : NoopOperation) (callback : VoidCallback) (res : UInt32) :
    (invokeVoid callback (op.pseudoResult res).resultCode : List (Delivery I V)) =
      [callback.tells (makeSystemErrorCode res.toNat)] ↔ res.toNat < 2147483648 := by
  have htwice : -(op.pseudoResult res).resultCode = res.toInt32 := by
    show -(-res).toInt32 = res.toInt32
    rw [UInt32.toInt32_neg, Int32.neg_neg]
  rw [invokeVoid_eq, htwice, List.cons.injEq, and_iff_left rfl, tells_inj]
  have hbits : res.toInt32.toInt = res.toBitVec.toInt := rfl
  have hnat : res.toNat = res.toBitVec.toNat := rfl
  have hlt := res.toBitVec.isLt
  rw [hbits, hnat, BitVec.toInt_eq_toNat_cond]
  split <;> omega

/-! ### Noops in a ring -/

namespace Program

variable {objects : OpId → Operation I V} {st st' : Program I V} {x : OpId} {callback : VoidCallback}

/-- **What an event of a run is for a noop `x`**: the kernel injects what the entry says, and the object
stays a noop, with the callback it was made with. -/
structure Injects (x : OpId) (callback : VoidCallback) (st : Program I V) (e : Event I V) : Prop where
  kernel : ∀ p, e = .ring (.post p) → ∀ r ∈ st.asked, r.slot.ticket = p.ticket →
    r.entry.opcode = .nop → p.res = (nopResult r.entry).toInt
  object : ∀ op, e = .write x op → ∃ noop, op = .noop callback noop

/-- The invariant for a noop `x`. -/
structure InjectedInv (prep : Prep → Uring.Sqe) (probe : Probe) (objects : OpId → Operation I V)
    (x : OpId) (callback : VoidCallback) (st : Program I V) : Prop where
  ring : Traffic.Inv (gate probe objects) st.ring
  opcode : ∀ y, (st.objects y).opcode = (objects y).opcode
  slots : st.asked.map Submission.slot = st.ring.reserved
  object : ∃ noop, st.objects x = .noop callback noop
  asked : ∀ r ∈ st.asked, r.slot.userData = x →
    ∃ noop, r.op = .noop callback noop ∧ r.entry = noop.build prep
  waiting : ∀ c ∈ st.ring.queue.cq, c.userData = x → ∃ r ∈ st.asked, r.slot = c.slot ∧
    ∃ noop, r.op = .noop callback noop ∧ c.res = noop.resultCode.toInt
  told : ∀ a ∈ st.told, a.cqe.userData = x → ∃ r ∈ st.asked, r.slot = a.cqe.slot ∧
    ∃ noop, r.op = .noop callback noop ∧ a.deliveries = invokeVoid callback noop.resultCode

theorem injectedInv_init (n : ℕ) {noop : NoopOperation} (hx : objects x = .noop callback noop) :
    InjectedInv prep probe objects x callback (init objects n) where
  ring := Traffic.inv_init n
  opcode _ := rfl
  slots := rfl
  object := ⟨noop, hx⟩
  asked := fun _ h => absurd h List.not_mem_nil
  waiting := fun _ h => absurd h List.not_mem_nil
  told := fun _ h => absurd h List.not_mem_nil

section Prep
variable (hnop : (prep .nop).opFlags = 0) (hopcode : WritesOpcode prep)
include hnop hopcode

/-- **Something in the ring.** The result of an entry is the one in the request of its slot, whatever the
object stores by now. -/
theorem injected_ring (h : InjectedInv prep probe objects x callback st) {e : Traffic.Event}
    {ring : Traffic (ℤ × UInt32)} (he : Injects x callback st (.ring e))
    (hs : st.ring.step (gate probe st.objects) e = some ring) :
    InjectedInv prep probe objects x callback { st with
      ring := ring
      asked := st.asked ++ (st.ring.reserves (gate probe st.objects) e).map (st.request prep)
      told := st.told ++ (ring.delivered.drop st.ring.delivered.length).map st.answer } := by
  obtain ⟨noop, hobject⟩ := h.object
  obtain ⟨hreserved, -, l, hdelivered, hl⟩ := Traffic.pending_step hs
  have hdrop : ring.delivered.drop st.ring.delivered.length = l := by
    rw [hdelivered, List.drop_left]
  rw [hdrop]
  refine ⟨?_, h.opcode, ?_, h.object, fun r hr hx => ?_, fun c hc hx => ?_, fun a ha hx => ?_⟩
  · rw [gate_congr h.opcode] at hs
    exact Traffic.inv_step h.ring hs
  · rw [List.map_append, h.slots, hreserved, map_slot_request]
  · rcases List.mem_append.mp hr with hr | hr
    · exact h.asked r hr hx
    · obtain ⟨slot, -, rfl⟩ := List.mem_map.mp hr
      have hx : slot.userData = x := hx
      refine ⟨noop, ?_, ?_⟩
      · show st.objects slot.userData = _
        rw [hx, hobject]
      · show (st.objects slot.userData).build prep = _
        rw [hx, hobject]
        rfl
  · rcases Traffic.cq_step hs hc with hc | ⟨hslot, p, rfl, hticket, hres⟩
    · obtain ⟨r, hr, hrest⟩ := h.waiting c hc hx
      exact ⟨r, List.mem_append_left _ hr, hrest⟩
    · have hmem := h.ring.pending_subset (Traffic.mem_pending.mpr (.inr (.inl hslot)))
      rw [← h.slots] at hmem
      obtain ⟨r, hr, hslot⟩ := List.mem_map.mp hmem
      obtain ⟨noop', hop, hentry⟩ := h.asked r hr (hslot ▸ hx)
      refine ⟨r, List.mem_append_left _ hr, hslot, noop', hop, ?_⟩
      have hopc : r.entry.opcode = .nop := by
        rw [hentry]
        exact opcode_buildNoop hopcode noop'
      rw [hres, he.kernel p rfl r hr (by rw [hslot]; exact hticket) hopc, hentry, nopResult_build hnop]
  · rcases List.mem_append.mp ha with ha | ha
    · obtain ⟨r, hr, hrest⟩ := h.told a ha hx
      exact ⟨r, List.mem_append_left _ hr, hrest⟩
    · obtain ⟨c, hc, rfl⟩ := List.mem_map.mp ha
      have hx : c.userData = x := hx
      obtain ⟨r, hr, hslot, noop', hop, hres⟩ := h.waiting c (hl c hc) hx
      refine ⟨r, List.mem_append_left _ hr, hslot, noop', hop, ?_⟩
      show (st.objects c.userData).doCallback (Int32.ofInt c.res) c.flags = _
      rw [hx, hobject, hres, Int32.ofInt_toInt]
      rfl

theorem injected_step (h : InjectedInv prep probe objects x callback st) {e : Event I V}
    (he : Injects x callback st e) (hs : st.step prep probe e = some st') :
    InjectedInv prep probe objects x callback st' := by
  cases e with
  | ring e =>
    obtain ⟨ring, hring, rfl⟩ := Option.map_eq_some_iff.mp hs
    exact injected_ring hnop hopcode h he hring
  | write y op =>
    obtain ⟨hop, hs⟩ := Option.ite_none_right_eq_some.mp hs
    obtain rfl := Option.some.inj hs
    refine ⟨h.ring, opcode_update h.opcode hop, h.slots, ?_, h.asked, h.waiting, h.told⟩
    show ∃ noop, Function.update st.objects y op x = .noop callback noop
    by_cases hx : x = y
    · subst hx
      rw [Function.update_self]
      exact he.object op rfl
    · rw [Function.update_of_ne hx]
      exact h.object

/-- **The callback of a noop is told the number of its request.** In a run in which a noop is submitted
any number of times, with its number set anew at any time, every invocation of its callback answers one
request, and is told the number that was set when the request was built, as an error of the system,
exactly when this number is an `int`. -/
theorem injects_iff {n : ℕ} {es : List (Event I V)} {noop : NoopOperation}
    (hx : objects x = .noop callback noop)
    (hes : EveryStep (step prep probe) (Injects x callback) (init objects n) es)
    (hrun : run (step prep probe) (init objects n) es = some st') {a : Answer I V} (ha : a ∈ st'.told)
    (hax : a.cqe.userData = x) :
    ∃ r ∈ st'.asked, r.slot = a.cqe.slot ∧
      ∃ (op : NoopOperation) (res : UInt32), r.op = .noop callback (op.pseudoResult res) ∧
        (a.deliveries = [callback.tells (makeSystemErrorCode res.toNat)] ↔ res.toNat < 2147483648) := by
  have hinv : InjectedInv prep probe objects x callback st' :=
    run_induction_of_everyStep (fun _ _ _ hI hC hs => injected_step hnop hopcode hI hC hs)
      (injectedInv_init n hx) hes hrun
  obtain ⟨r, hr, hslot, op, hop, htold⟩ := hinv.told a ha hax
  obtain ⟨res, hres⟩ := op.exists_pseudoResult
  refine ⟨r, hr, hslot, op, res, by rw [← hres]; exact hop, ?_⟩
  rw [htold, ← tells_pseudoResult_iff (I := I) (V := V) op callback res, ← hres]

end Prep

/-- A noop with the number of `EINVAL`, which is set to 0 while the noop is in flight. -/
def resetInFlight : List (Event Unit Unit) :=
  [.ring (.submit 1 1), .write 1 (.noop .stdexpected (NoopOperation.pseudoResult {} 0)),
    .ring (.post ⟨0, -22, 0⟩), .ring (.fetch 0)]

/-- The callback is told of the invalid argument. -/
theorem injects_iff_resetInFlight :
    ∃ st', run (step documented fun _ => true)
        (init (fun _ => .noop .stdexpected (NoopOperation.pseudoResult {} 22)) 4) resetInFlight =
          some st' ∧ st'.told.map Answer.deliveries = [[.unexpected ⟨22, .system⟩]] ∧
      ∀ a ∈ st'.told, ∃ r ∈ st'.asked, r.slot = a.cqe.slot ∧
        ∃ (op : NoopOperation) (res : UInt32), r.op = .noop .stdexpected (op.pseudoResult res) ∧
          (a.deliveries = [VoidCallback.stdexpected.tells (makeSystemErrorCode res.toNat)] ↔
            res.toNat < 2147483648) := by
  have hes : EveryStep (step documented fun _ => true) (Injects 1 .stdexpected)
      (init (fun _ => .noop .stdexpected (NoopOperation.pseudoResult {} 22)) 4) resetInFlight := by
    refine everyStep_of_cons ⟨nofun, nofun⟩ fun t ht => ?_
    obtain rfl := Option.some.inj ht
    refine everyStep_of_cons ⟨nofun, fun op he => ⟨_, (Event.write.inj he).2.symm⟩⟩ fun t ht => ?_
    obtain rfl := Option.some.inj ht
    refine everyStep_of_cons ⟨fun p he => ?_, nofun⟩ fun t ht => ?_
    · obtain rfl := Traffic.Event.post.inj (Event.ring.inj he)
      decide
    · exact everyStep_of_cons ⟨nofun, nofun⟩ fun t _ => everyStep_nil t
  refine ⟨_, rfl, by decide, fun a ha => ?_⟩
  exact injects_iff rfl writesOpcode_documented rfl hes rfl ha
    (by rw [List.mem_singleton.mp ha]; rfl)

end Program

end Iouxx.Ops
