import Iouxx.Ops.Operation

/-!
# How completions are classified

A result of the kernel is a value that is not negative, or an errno negated. The single-shot
operations hand it to the user's callback once: as a success where it is not negative, and as the
error with its number otherwise. `-ETIME` is a success of a timeout. `socket_getoption` tests
`ev > 0` and takes a result of 0 for an error, one without a number. The operations that report an
address decode it first, and end the program where an assertion of the decoder fails.
-/

namespace Iouxx.Ops

open Iouxx.Cpp.Error Iouxx.Utility Iouxx.Uring

variable {I V : Type}

namespace Operation

/-- The classes whose callback gets one completion of a submission. The specialisations for `void`
have no callback. -/
def isSingleShot : Operation I V → Bool
  | ringManagement | noopVoid | timeoutCancelVoid _ | cancelVoid _ | cancelFdVoid _ => false
  | multishotTimeout _ | filePollMultishot _ | socketMultishotAccept _
  | fixedSocketMultishotAccept _ | socketMultishotRecv _ => false
  | socketSendZc _ | socketSendmsgZc _ => false
  | _ => true

/-- The classes whose `result_type` is `void`. -/
def isVoidResult : Operation I V → Bool
  | noop .. | timeout .. | timeoutCancel .. | futexWait .. | fileClose .. | filePollRemove ..
  | filePollUpdate .. | unlink .. | rename .. | mkdir .. | symlink .. | link .. | socketClose ..
  | socketBind .. | socketListen .. | socketConnect .. | socketShutdown .. | socketSetoption .. =>
    true
  | _ => false

/-- The operation is a `timeout_operation`. -/
def isTimeout : Operation I V → Bool
  | timeout .. => true
  | _ => false

/-- The operation is a `socket_getoption`. -/
def isGetoption : Operation I V → Bool
  | socketGetoption .. => true
  | _ => false

end Operation

/-- An errno negated, which is a positive `int`. -/
def IsNegErrno (ev : Int32) : Prop := -2147483648 < ev.toInt ∧ ev.toInt < 0

/-- What the kernel may return: 0 or an errno negated where there is no value, and any value that is
not negative otherwise. -/
def CanReturn (op : Operation I V) (ev : Int32) : Prop :=
  IsNegErrno ev ∨ if op.isVoidResult then ev = 0 else 0 ≤ ev.toInt

/-- The result is one that an operation of this class should report as a success. -/
def Succeeds (op : Operation I V) (ev : Int32) : Prop :=
  0 ≤ ev.toInt ∨ op.isTimeout = true ∧ ev = negEtime

/-- **A faithful delivery** of a result. -/
structure Faithful (op : Operation I V) (ev : Int32) (d : Delivery I V) : Prop where
  success : d.success = true ↔ Succeeds op ev
  error : d.success = false → d.error = -ev.toInt
  noEmpty : ∀ ec, d = .unexpected ec → ec.isError = true

/-- **A completion is classified**: the callback is invoked once, and faithfully. -/
def Classified (op : Operation I V) (ev : Int32) (cqeFlags : UInt32) : Prop :=
  ∃ d, op.doCallback ev cqeFlags = [d] ∧ Faithful op ev d

/-! ### The deliveries -/

variable {op : Operation I V} {ev : Int32}

theorem toInt_neg_of_isNegErrno (h : IsNegErrno ev) : (-ev).toInt = -ev.toInt := by
  rw [Int32.toInt_neg]
  exact Int.bmod_eq_of_le (by have := h.2; omega) (by have := h.1; omega)

theorem ge_zero_iff : ev ≥ 0 ↔ 0 ≤ ev.toInt := Int32.le_iff_toInt_le

theorem eq_zero_iff : ev = 0 ↔ ev.toInt = 0 := Int32.toInt_inj.symm

theorem faithful_value (h : Succeeds op ev) (v : Value I V) : Faithful op ev (.value v) :=
  ⟨iff_of_true rfl h, nofun, nofun⟩

theorem faithful_invokeFail (h : IsNegErrno ev) (hs : ¬ Succeeds op ev) :
    Faithful op ev (invokeFail ev) := by
  have hneg := toInt_neg_of_isNegErrno h
  have hne : (-ev).toInt ≠ 0 := by rw [hneg]; have := h.2; omega
  refine ⟨iff_of_false (by simp [invokeFail, Delivery.success]) hs, fun _ => ?_, fun ec hec => ?_⟩
  · unfold invokeFail Delivery.error makeSystemErrorCode
    rw [if_pos hne]
    exact hneg
  · cases hec
    rw [isError_makeSystemErrorCode]
    exact decide_eq_true hne

theorem faithful_errorCode (h : IsNegErrno ev) (hs : ¬ Succeeds op ev) :
    Faithful op ev (.errorCode (makeSystemErrorCode (-ev).toInt)) := by
  have hneg := toInt_neg_of_isNegErrno h
  have hne : (-ev).toInt ≠ 0 := by rw [hneg]; have := h.2; omega
  refine ⟨iff_of_false ?_ hs, fun _ => ?_, nofun⟩
  · change ¬ (!(makeSystemErrorCode (-ev).toInt).isError) = true
    rw [isError_makeSystemErrorCode, decide_eq_true hne]
    decide
  · unfold Delivery.error makeSystemErrorCode
    rw [if_pos hne]
    exact hneg

theorem not_succeeds (h : IsNegErrno ev) (ht : op.isTimeout = false) : ¬ Succeeds op ev := by
  rintro (h0 | ⟨ht', -⟩)
  · have := h.2
    omega
  · rw [ht] at ht'
    cases ht'

theorem classified_invokeValue (ht : op.isTimeout = false) (hv : op.isVoidResult = false)
    (hev : CanReturn op ev) (v : Value I V) : ∃ d, invokeValue ev v = [d] ∧ Faithful op ev d := by
  unfold invokeValue
  unfold CanReturn at hev
  rw [hv, if_neg (by decide)] at hev
  rcases hev with hev | hev
  · rw [if_neg (by rw [ge_zero_iff]; have := hev.2; omega)]
    exact ⟨_, rfl, faithful_invokeFail hev (not_succeeds hev ht)⟩
  · rw [if_pos (ge_zero_iff.mpr hev)]
    exact ⟨_, rfl, faithful_value (.inl hev) v⟩

/-- **A value that is decoded** is classified where the assertions of its decoder hold; no callback is
invoked for a success where one fails. -/
theorem classified_invokeDecoded_iff (ht : op.isTimeout = false) (hv : op.isVoidResult = false)
    (hev : CanReturn op ev) (v : Option (Value I V)) :
    (∃ d, invokeDecoded ev v = [d] ∧ Faithful op ev d) ↔ (0 ≤ ev → v.isSome = true) := by
  unfold invokeDecoded
  by_cases hge : ev ≥ 0
  · rw [if_pos hge]
    rcases v with _ | v
    · refine iff_of_false (fun ⟨d, hd, _⟩ => ?_) fun h => nomatch h hge
      cases hd
    · exact iff_of_true ⟨_, rfl, faithful_value (.inl (ge_zero_iff.mp hge)) v⟩ fun _ => rfl
  · obtain ⟨d, hd, hf⟩ := classified_invokeValue ht hv hev .void
    rw [invokeValue, if_neg hge] at hd
    rw [if_neg hge]
    exact iff_of_true ⟨d, hd, hf⟩ fun h => absurd h hge

theorem faithful_invokeVoid_zero (hs : Succeeds op ev) (callback : VoidCallback) :
    ∃ d, invokeVoid callback 0 = [d] ∧ Faithful op ev d := by
  cases callback with
  | stdexpected => exact ⟨.value .void, rfl, faithful_value hs _⟩
  | errorcode => exact ⟨.errorCode .none, rfl, iff_of_true rfl hs, nofun, nofun⟩

theorem faithful_invokeVoid_errno (h : IsNegErrno ev) (hs : ¬ Succeeds op ev)
    (callback : VoidCallback) : ∃ d, invokeVoid callback ev = [d] ∧ Faithful op ev d := by
  have hne : ev ≠ 0 := by rw [Ne, eq_zero_iff]; have := h.2; omega
  cases callback with
  | stdexpected => exact ⟨_, if_neg hne, faithful_invokeFail h hs⟩
  | errorcode => exact ⟨_, rfl, faithful_errorCode h hs⟩

theorem classified_invokeVoid (ht : op.isTimeout = false) (hv : op.isVoidResult = true)
    (hev : CanReturn op ev) (callback : VoidCallback) :
    ∃ d, invokeVoid callback ev = [d] ∧ Faithful op ev d := by
  unfold CanReturn at hev
  rw [hv, if_pos rfl] at hev
  rcases hev with hev | rfl
  · exact faithful_invokeVoid_errno hev (not_succeeds hev ht) callback
  · exact faithful_invokeVoid_zero (.inl (by decide)) callback

/-- A timeout takes `-ETIME` for 0. -/
theorem classified_timeout (callback : VoidCallback) (base : TimeoutOperation)
    (hev : CanReturn (.timeout callback base : Operation I V) ev) (cqeFlags : UInt32) :
    Classified (.timeout callback base : Operation I V) ev cqeFlags := by
  unfold Classified Operation.doCallback TimeoutOperation.doCallback
  simp only
  by_cases hetime : ev = negEtime
  · rw [if_pos hetime]
    exact faithful_invokeVoid_zero (.inr ⟨rfl, hetime⟩) callback
  · rw [if_neg hetime]
    rcases hev with hev | hev
    · refine faithful_invokeVoid_errno hev ?_ callback
      rintro (h0 | ⟨-, h⟩)
      · have := hev.2
        omega
      · exact hetime h
    · obtain rfl : ev = 0 := hev
      exact faithful_invokeVoid_zero (.inl (by decide)) callback

theorem doCallback_cancelBase (base : CancelBase) (ev : Int32) : ∃ v : Value I V,
    base.doCallback ev = invokeValue ev v := by
  unfold CancelBase.doCallback invokeValue
  by_cases h : ev ≥ 0
  · refine ⟨.size (if base.flags &&& asyncCancelAll ≠ 0 then ev.toInt.toNat else 1), ?_⟩
    rw [if_pos h, if_pos h]
    exact if_pos rfl
  · have hne : ev ≠ 0 := by
      rintro rfl
      exact h (by decide)
    refine ⟨.size 0, ?_⟩
    rw [if_neg h, if_neg h]
    exact if_neg hne

theorem classified_cancelBase (ht : op.isTimeout = false) (hv : op.isVoidResult = false)
    (hev : CanReturn op ev) (base : CancelBase) :
    ∃ d, base.doCallback ev = [d] ∧ Faithful op ev d := by
  obtain ⟨v, hd⟩ := doCallback_cancelBase base ev
  rw [hd]
  exact classified_invokeValue ht hv hev v

/-- **The test `ev > 0`** misses one result. -/
theorem classified_getoption_iff (opt : SockOpt V) (get : SocketGetoption)
    (hev : CanReturn (.socketGetoption opt get : Operation I V) ev) (cqeFlags : UInt32) :
    Classified (.socketGetoption opt get : Operation I V) ev cqeFlags ↔ ev ≠ 0 := by
  unfold Classified Operation.doCallback SocketGetoption.doCallback
  simp only
  refine ⟨fun ⟨d, hd, hf⟩ h0 => ?_, fun hne => ?_⟩
  · subst h0
    obtain rfl := List.singleton_inj.mp hd
    exact absurd (hf.noEmpty _ rfl) (by decide)
  · have h0 : ev.toInt ≠ 0 := fun h => hne (eq_zero_iff.mpr h)
    rcases hev with hev | hev
    · rw [if_neg (by rw [gt_iff_lt, Int32.lt_iff_toInt_lt]; have := hev.2; simp; omega)]
      exact ⟨_, rfl, faithful_invokeFail hev (not_succeeds hev rfl)⟩
    · change 0 ≤ ev.toInt at hev
      rw [if_pos (by rw [gt_iff_lt, Int32.lt_iff_toInt_lt]; simp; omega)]
      exact ⟨_, rfl, faithful_value (.inl hev) _⟩

theorem condition_of_total (hget : op.isGetoption = false) (hdec : op.decodes = true) :
    ¬ (op.isGetoption = true ∧ ev = 0) ∧ (0 ≤ ev → op.decodes = true) :=
  ⟨fun h => Bool.false_ne_true (hget.symm.trans h.1), fun _ => hdec⟩

/-- **When completions are classified faithfully**: for every single-shot operation and every result
of the kernel, but for the result 0 of a `socket_getoption` and for an address at which an assertion of
its decoder fails. -/
theorem classified_iff (op : Operation I V) (hop : op.isSingleShot = true) (ev : Int32)
    (hev : CanReturn op ev) (cqeFlags : UInt32) :
    Classified op ev cqeFlags ↔
      ¬ (op.isGetoption = true ∧ ev = 0) ∧ (0 ≤ ev → op.decodes = true) := by
  have hdecoded : ∀ v : Option (Value I V), op.isTimeout = false → op.isVoidResult = false →
      op.isGetoption = false → op.decodes = v.isSome →
      ((∃ d, invokeDecoded ev v = [d] ∧ Faithful op ev d) ↔
        ¬ (op.isGetoption = true ∧ ev = 0) ∧ (0 ≤ ev → op.decodes = true)) := by
    intro v ht hv hget hdec
    rw [classified_invokeDecoded_iff ht hv hev, hget, hdec]
    exact (and_iff_right (fun h => nomatch h.1)).symm
  -- the classes differ in the test and in whether there is a value
  cases op with
  | socketGetoption opt get =>
    rw [classified_getoption_iff opt get hev]
    exact ⟨fun h => ⟨fun h' => h h'.2, fun _ => rfl⟩, fun h h' => h.1 ⟨rfl, h'⟩⟩
  | timeout callback base =>
    exact iff_of_true (classified_timeout callback base hev cqeFlags) (condition_of_total rfl rfl)
  | socketSetoption opt set =>
    exact iff_of_true (classified_invokeVoid rfl rfl hev .stdexpected) (condition_of_total rfl rfl)
  | cancel op | cancelFd op =>
    exact iff_of_true (classified_cancelBase rfl rfl hev _) (condition_of_total rfl rfl)
  | socketAccept info op | fixedSocketAccept info op | socketGetsockname info op =>
    exact hdecoded _ rfl rfl rfl (Option.isSome_map ..).symm
  | _ =>
    first
    | exact absurd hop Bool.false_ne_true
    | exact iff_of_true (classified_invokeValue rfl rfl hev _) (condition_of_total rfl rfl)
    | exact iff_of_true (classified_invokeVoid rfl rfl hev _) (condition_of_total rfl rfl)

/-- `SO_BINDTODEVICE`, read into 16 bytes. The kernel returns the length of the value, and 0 for a
socket that is not bound to a device. -/
def bindtodevice : Operation Unit (List UInt8) :=
  .socketGetoption ⟨1, 25, id⟩ ⟨⟨{ fd := 3 }, List.replicate 16 0⟩⟩

theorem classified_iff_bindtodevice : Classified bindtodevice 5 0 :=
  (classified_iff bindtodevice rfl 5 (.inr (by decide)) 0).mpr (by decide)

/-- **A success that is reported as an error without a number.** -/
theorem not_classified_bindtodevice : bindtodevice.isSingleShot = true ∧
    CanReturn bindtodevice 0 ∧ bindtodevice.doCallback 0 0 = [.unexpected .none] ∧
    ¬ Classified bindtodevice 0 0 := by
  refine ⟨rfl, .inr (by decide), rfl, fun ⟨d, hd, hf⟩ => ?_⟩
  obtain rfl := List.singleton_inj.mp hd
  exact absurd (hf.noEmpty _ rfl) (by decide)

end Iouxx.Ops
