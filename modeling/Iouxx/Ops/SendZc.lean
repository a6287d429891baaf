import Iouxx.Utility
import Mathlib.Data.List.Basic

/-!
# Zero-copy sends (`sendrecv.hpp`, `socket_send_zc_operation`, `socket_sendmsg_zc_operation`)

The kernel posts for a zero-copy send either one entry, or a result with `IORING_CQE_F_MORE` and then
a notification that the buffer is free. Both operations decode an entry by the sign of its result
first and look at the flags only of a result that is not negative.

* `deliver_neg`: a negative entry is delivered without its flags;
* `tellsEnd_iff`: **the values delivered tell when the operation is over exactly when no entry is
  negative**.
-/

namespace Iouxx.Ops.SendZc

open Iouxx.Cpp.Error Iouxx.Utility

/-- `IORING_CQE_F_MORE`. -/
def cqeFMore : UInt32 := 2

/-- `IORING_CQE_F_NOTIF`. -/
def cqeFNotif : UInt32 := 8

/-- `IORING_RECVSEND_FIXED_BUF`. -/
def recvsendFixedBuf : UInt16 := 4

/-- `IORING_SEND_ZC_REPORT_USAGE`. -/
def sendZcReportUsage : UInt16 := 8

/-- `send_zc_result` and `sendmsg_zc_result`. -/
inductive SendZcResult
  | bufferFreeNotification
  | sendResultMore (bytesSent : ℕ)
  | sendResultNomore (bytesSent : ℕ)
  deriving DecidableEq, Repr

/-- The body of `do_callback` of both operations: the value the callback gets. -/
def zcCallback (ev : Int32) (cqeFlags : UInt32) : Except ErrorCode SendZcResult :=
  if ev ≥ 0 then
    if cqeFlags &&& cqeFMore ≠ 0 then .ok (.sendResultMore ev.toInt.toNat)
    else if cqeFlags &&& cqeFNotif ≠ 0 then .ok .bufferFreeNotification
    else .ok (.sendResultNomore ev.toInt.toNat)
  else fail (-ev).toInt -- for the least value the source overflows; here the negation wraps

/-- `socket_send_zc_operation::do_callback`. -/
def sendZcCallback : Int32 → UInt32 → Except ErrorCode SendZcResult := zcCallback

/-- `socket_sendmsg_zc_operation::do_callback`. -/
def sendmsgZcCallback : Int32 → UInt32 → Except ErrorCode SendZcResult := zcCallback

/-- A configured operation, with the fields that decide on the entry's `ioprio`. -/
inductive Operation
  | sendZc (ringFlags : UInt16) (bufIndex : Int32)
  | sendmsgZc
  deriving DecidableEq, Repr

/-- The `ioprio` that `build` leaves in the submission. -/
def Operation.ioprio : Operation → UInt16
  | sendZc ringFlags bufIndex =>
    if bufIndex ≥ 0 then ringFlags ||| recvsendFixedBuf else ringFlags
  | sendmsgZc => 0

/-- A completion queue entry of the operation. -/
structure Cqe where
  res : Int32
  flags : UInt32
  deriving DecidableEq, Repr

/-- The value delivered for an entry. -/
def Operation.deliver (op : Operation) (c : Cqe) : Except ErrorCode SendZcResult :=
  match op with
  | sendZc _ _ => sendZcCallback c.res c.flags
  | sendmsgZc => sendmsgZcCallback c.res c.flags

/-! ### The protocol -/

/-- More entries follow. -/
def Cqe.More (c : Cqe) : Prop := c.flags &&& cqeFMore ≠ 0

/-- A notification. -/
def Cqe.Notif (c : Cqe) : Prop := c.flags &&& cqeFNotif ≠ 0

/-- Whether usage reports were requested. -/
def Operation.ReportsUsage (op : Operation) : Prop := op.ioprio &&& sendZcReportUsage ≠ 0

/-- **The entries the kernel posts for a request**: one result, or a result and a notification,
whose own result is negative only where it reports that the data was copied. -/
def Posted (op : Operation) : List Cqe → Prop
  | [c] => ¬ c.More ∧ ¬ c.Notif
  | [c, n] => c.More ∧ ¬ c.Notif ∧ ¬ n.More ∧ n.Notif ∧
      (0 ≤ n.res ∨ op.ReportsUsage ∧ n.res = Int32.minValue)
  | _ => False

/-- **The values delivered tell when the operation is over**: a notification is delivered as such,
and what is delivered for the result is delivered only for results of its kind, either followed by a
notification or not. -/
structure TellsEnd (op : Operation) (cqes : List Cqe) : Prop where
  notification : ∀ n ∈ cqes, n.Notif → op.deliver n = .ok .bufferFreeNotification
  result : ∀ c rest, cqes = c :: rest → ∀ c' rest', Posted op (c' :: rest') →
    op.deliver c = op.deliver c' → (rest = [] ↔ rest' = [])

/-! ### What is delivered -/

theorem deliver_eq (op : Operation) (c : Cqe) : op.deliver c = zcCallback c.res c.flags := by
  rcases op with ⟨f, b⟩ | _ <;> rfl

theorem deliver_neg (op : Operation) {c : Cqe} (h : ¬ 0 ≤ c.res) :
    op.deliver c = fail (-c.res).toInt := by
  rw [deliver_eq]
  exact if_neg h

theorem deliver_more (op : Operation) {c : Cqe} (h : 0 ≤ c.res) (hm : c.More) :
    op.deliver c = .ok (.sendResultMore c.res.toInt.toNat) := by
  rw [deliver_eq]
  unfold zcCallback
  rw [if_pos h]
  exact if_pos hm

theorem deliver_notif (op : Operation) {c : Cqe} (h : 0 ≤ c.res) (hm : ¬ c.More) (hn : c.Notif) :
    op.deliver c = .ok .bufferFreeNotification := by
  rw [deliver_eq]
  unfold zcCallback
  rw [if_pos h]
  exact (if_neg hm).trans (if_pos hn)

theorem deliver_nomore (op : Operation) {c : Cqe} (h : 0 ≤ c.res) (hm : ¬ c.More)
    (hn : ¬ c.Notif) : op.deliver c = .ok (.sendResultNomore c.res.toInt.toNat) := by
  rw [deliver_eq]
  unfold zcCallback
  rw [if_pos h]
  exact (if_neg hm).trans (if_neg hn)

theorem deliver_result {op : Operation} {c c' : Cqe} {rest rest' : List Cqe}
    (h : Posted op (c :: rest)) (h' : Posted op (c' :: rest')) (hc : 0 ≤ c.res)
    (he : op.deliver c = op.deliver c') : rest = [] ↔ rest' = [] := by
  by_cases hc' : 0 ≤ c'.res
  · rcases rest with _ | ⟨n, _ | ⟨m, rest⟩⟩ <;> rcases rest' with _ | ⟨n', _ | ⟨m', rest'⟩⟩
    · exact Iff.rfl
    · rw [deliver_nomore op hc h.1 h.2, deliver_more op hc' h'.1] at he
      cases he
    · exact h'.elim
    · rw [deliver_more op hc h.1, deliver_nomore op hc' h'.1 h'.2] at he
      cases he
    · simp
    · exact h'.elim
    · exact h.elim
    · exact h.elim
    · exact h.elim
  · rw [deliver_neg op hc'] at he
    rcases rest with _ | ⟨n, _ | ⟨m, rest⟩⟩
    · rw [deliver_nomore op hc h.1 h.2] at he; exact absurd he.symm (fail_ne_ok _ _)
    · rw [deliver_more op hc h.1] at he; exact absurd he.symm (fail_ne_ok _ _)
    · exact h.elim

theorem deliver_error (op : Operation) {c : Cqe} (hc : ¬ 0 ≤ c.res) (flags : UInt32) :
    op.deliver c = op.deliver ⟨c.res, flags⟩ := by
  rw [deliver_neg op hc, deliver_neg op (c := ⟨c.res, flags⟩) hc]

theorem posted_single (op : Operation) (r : Int32) : Posted op [⟨r, 0⟩] := by
  show ¬ (0 : UInt32) &&& cqeFMore ≠ 0 ∧ ¬ (0 : UInt32) &&& cqeFNotif ≠ 0
  decide

theorem posted_pair (op : Operation) (r : Int32) :
    Posted op [⟨r, cqeFMore⟩, ⟨0, cqeFNotif⟩] := by
  refine ⟨?_, ?_, ?_, ?_, Or.inl (by decide)⟩
  · show cqeFMore &&& cqeFMore ≠ 0
    decide
  · show ¬ cqeFMore &&& cqeFNotif ≠ 0
    decide
  · show ¬ cqeFNotif &&& cqeFMore ≠ 0
    decide
  · show cqeFNotif &&& cqeFNotif ≠ 0
    decide

/-- **When the values delivered tell that the operation is over**: exactly when no entry is
negative. -/
theorem tellsEnd_iff {op : Operation} {cqes : List Cqe} (h : Posted op cqes) :
    TellsEnd op cqes ↔ ∀ c ∈ cqes, 0 ≤ c.res := by
  have hsingle := posted_single op
  have hpair := posted_pair op
  constructor
  · intro ht c hc
    by_contra hneg
    rcases cqes with _ | ⟨r, _ | ⟨n, _ | ⟨m, rest⟩⟩⟩
    · cases hc
    · -- the same error could be followed by a notification
      obtain rfl := List.mem_singleton.mp hc
      have := ht.result c [] rfl _ _ (hpair c.res) (deliver_error op hneg _)
      simp at this
    · rcases List.mem_cons.mp hc with rfl | hc
      · -- the same error could be the last entry
        have := ht.result c [n] rfl _ _ (hsingle c.res) (deliver_error op hneg _)
        simp at this
      · -- the notification is delivered as an error
        obtain rfl := List.mem_singleton.mp hc
        have := ht.notification c (by simp) h.2.2.2.1
        rw [deliver_neg op hneg] at this
        exact fail_ne_ok _ _ this
    · exact h.elim
  · intro hpos
    refine ⟨fun n hn hnotif => ?_, fun c rest hcqes c' rest' h' he => ?_⟩
    · rcases cqes with _ | ⟨r, _ | ⟨m, _ | ⟨k, rest⟩⟩⟩
      · cases hn
      · obtain rfl := List.mem_singleton.mp hn
        exact absurd hnotif h.2
      · rcases List.mem_cons.mp hn with rfl | hn
        · exact absurd hnotif h.2.1
        · obtain rfl := List.mem_singleton.mp hn
          exact deliver_notif op (hpos n (by simp)) h.2.2.1 hnotif
      · exact h.elim
    · subst hcqes
      exact deliver_result h h' (hpos c (by simp)) he

/-- 100 bytes are sent, and then the buffer is free. -/
theorem tellsEnd_iff_sent :
    TellsEnd .sendmsgZc [⟨100, cqeFMore⟩, ⟨0, cqeFNotif⟩] :=
  (tellsEnd_iff (posted_pair _ _)).mpr (by decide)

/-- `EPIPE` with a notification to follow is delivered as `EPIPE` without one. -/
theorem not_tellsEnd_error : ¬ ∀ op cqes, Posted op cqes → TellsEnd op cqes := by
  intro h
  have ht := h .sendmsgZc [⟨-32, cqeFMore⟩, ⟨0, cqeFNotif⟩] (posted_pair _ _)
  have := ht.result _ _ rfl ⟨-32, 0⟩ [] (posted_single _ _) rfl
  simp at this

end Iouxx.Ops.SendZc
