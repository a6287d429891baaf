import Iouxx.Clock
import Iouxx.Lib.Flags
import Iouxx.Lib.Simulation
import Iouxx.Ops.Basic

/-!
# Configuring timeouts (`timeout.hpp`)

A timeout is configured by `wait_for` and `wait_until`, each with one of three clocks, and by `repeat`,
in any order, and it can be submitted and configured again. The setters change bits of one flag word,
in which `build` of the multishot class sets another bit for good.

* `requested_step`: what each call changes of the request that the kernel will see;
* `requested_run`: **after any calls the kernel sees the request of the abstract object**, in which a
  call only replaces what it is about;
* `requested_last`: **the last call of `wait_for` or `wait_until` decides** on clock, mode and duration,
  and the last call of `repeat` on the count.
-/

namespace Iouxx.Ops

open Iouxx.Clock Iouxx.Cpp.Checked Iouxx.Cpp.Chrono Iouxx.Lib Iouxx.Lib.Trace Iouxx.Uring

/-- `IORING_TIMEOUT_ABS`. -/
def timeoutAbs : UInt32 := 1

/-- `IORING_TIMEOUT_BOOTTIME`. -/
def timeoutBoottime : UInt32 := 4

/-- `IORING_TIMEOUT_REALTIME`. -/
def timeoutRealtime : UInt32 := 8

/-- The clocks that `check_supported_clock` admits. -/
inductive SupportedClock
  | steady
  | system
  | boottime
  deriving DecidableEq, Repr

/-- `details::set_clock_flag`. -/
def setClockFlag (clock : SupportedClock) (flags : UInt32) : UInt32 :=
  match clock with
  | .steady => flags &&& ~~~timeoutRealtime &&& ~~~timeoutBoottime
  | .system => (flags ||| timeoutRealtime) &&& ~~~timeoutBoottime
  | .boottime => (flags ||| timeoutBoottime) &&& ~~~timeoutRealtime

namespace TimeoutBase

/-- `timeout_base::wait_for`; `none` is an overflow. -/
def waitFor (op : TimeoutBase) (duration : Nanoseconds) (clock : SupportedClock) :
    Option TimeoutBase := do
  let ts ← toKernelTimespec duration
  some ⟨ts, setClockFlag clock op.flags &&& ~~~timeoutAbs⟩

/-- `timeout_base::wait_until`, for a time point in units of `k` nanoseconds. -/
def waitUntil {k : Int64} (op : TimeoutBase) (timePoint : Duration k) (clock : SupportedClock) :
    Option TimeoutBase := do
  let stdtime ← timePoint.toNanoseconds
  let ts ← toKernelTimespec stdtime
  some ⟨ts, setClockFlag clock op.flags ||| timeoutAbs⟩

end TimeoutBase

namespace MultishotTimeoutOperation

/-- `multishot_timeout_operation::repeat`. -/
def «repeat» (op : MultishotTimeoutOperation) (n : UInt64) : MultishotTimeoutOperation :=
  { op with count := n }

/-- `multishot_timeout_operation::repeat_forever`. -/
def repeatForever (op : MultishotTimeoutOperation) : MultishotTimeoutOperation := op.repeat 0

/-- The operation after `build`. -/
def built (op : MultishotTimeoutOperation) : MultishotTimeoutOperation :=
  { op with flags := op.flags ||| timeoutMultishot }

end MultishotTimeoutOperation

/-! ### Objects -/

/-- An object of one of the two classes. -/
inductive Timeout
  | once (op : TimeoutOperation)
  | multishot (op : MultishotTimeoutOperation)
  deriving DecidableEq, Repr

/-- A call on such an object; the submission calls `build`. -/
inductive TimeoutCall
  | waitFor (duration : Nanoseconds) (clock : SupportedClock)
  | waitUntil (k : Int64) (timePoint : Duration k) (clock : SupportedClock)
  | repeat (n : UInt64)
  | repeatForever
  | submit
  deriving DecidableEq, Repr

namespace Timeout

/-- **One call**; the multishot class has no `wait_until`, and the other one no `repeat`. -/
def step : Timeout → TimeoutCall → Option Timeout
  | once op, .waitFor duration clock =>
    (op.waitFor duration clock).map fun base => once ⟨base⟩
  | once op, .waitUntil _ timePoint clock =>
    (op.waitUntil timePoint clock).map fun base => once ⟨base⟩
  | once op, .submit => some (once op)
  | multishot op, .waitFor duration clock =>
    (op.waitFor duration clock).map fun base => multishot { op with toTimeoutBase := base }
  | multishot op, .repeat n => some (multishot (op.repeat n))
  | multishot op, .repeatForever => some (multishot op.repeatForever)
  | multishot op, .submit => some (multishot op.built)
  | _, _ => none

/-- A new object of either class. -/
def new : Bool → Timeout
  | false => once ⟨⟨⟨0, 0⟩, 0⟩⟩
  | true => multishot ⟨⟨⟨0, 0⟩, 0⟩, 1⟩

/-- `build`. -/
def build (prep : Prep → Sqe) : Timeout → Sqe
  | once op => op.build prep
  | multishot op => op.build prep

end Timeout

/-! ### What the kernel sees -/

/-- A request for a timeout; there is no clock where the flags of two are set. -/
structure TimeoutRequest where
  clock : Option SupportedClock
  absolute : Bool
  duration : Option Nanoseconds
  multishot : Bool
  count : UInt32
  deriving DecidableEq, Repr

/-- The clock that the kernel chooses. -/
def clockOf (flags : UInt32) : Option SupportedClock :=
  if flags &&& timeoutBoottime ≠ 0 then
    if flags &&& timeoutRealtime ≠ 0 then none else some .boottime
  else if flags &&& timeoutRealtime ≠ 0 then some .system
  else some .steady

/-- How the kernel reads a timeout. -/
def readTimeout (ts : KernelTimespec) (count flags : UInt32) : TimeoutRequest where
  clock := clockOf flags
  absolute := flags &&& timeoutAbs ≠ 0
  duration := fromKernelTimespec ts
  multishot := flags &&& timeoutMultishot ≠ 0
  count := count

/-- **The request of an object.** -/
def Timeout.requested : Timeout → TimeoutRequest
  | .once op => readTimeout op.ts 0 op.flags
  | .multishot op => readTimeout op.ts op.count.toUInt32 (op.flags ||| timeoutMultishot)

/-- The entry that `build` makes is read as this request. -/
theorem build_requested (t : Timeout) : ∃ ts count flags,
    (∀ prep, t.build prep = prep (.timeout ts count flags)) ∧
      t.requested = readTimeout ts count flags := by
  cases t with
  | once op => exact ⟨_, _, _, fun _ => rfl, rfl⟩
  | multishot op => exact ⟨_, _, _, fun _ => rfl, rfl⟩

/-! ### The flags -/

theorem setClockFlag_boottime (clock : SupportedClock) (w : UInt32) :
    setClockFlag clock w &&& timeoutBoottime = if clock = .boottime then timeoutBoottime else 0 := by
  cases clock with
  | steady => exact Flags.clear_test _
  | system => exact Flags.clear_test _
  | boottime => exact (Flags.clear_test_of_disjoint _ (by decide)).trans (Flags.set_test _)

theorem setClockFlag_realtime (clock : SupportedClock) (w : UInt32) :
    setClockFlag clock w &&& timeoutRealtime = if clock = .system then timeoutRealtime else 0 := by
  cases clock with
  | steady => exact (Flags.clear_test_of_disjoint _ (by decide)).trans (Flags.clear_test _)
  | system => exact (Flags.clear_test_of_disjoint _ (by decide)).trans (Flags.set_test _)
  | boottime => exact Flags.clear_test _

theorem setClockFlag_multishot (clock : SupportedClock) (w : UInt32) :
    setClockFlag clock w &&& timeoutMultishot = w &&& timeoutMultishot := by
  cases clock with
  | steady =>
    exact (Flags.clear_test_of_disjoint _ (by decide)).trans
      (Flags.clear_test_of_disjoint _ (by decide))
  | system =>
    exact (Flags.clear_test_of_disjoint _ (by decide)).trans
      (Flags.set_test_of_disjoint _ (by decide))
  | boottime =>
    exact (Flags.clear_test_of_disjoint _ (by decide)).trans
      (Flags.set_test_of_disjoint _ (by decide))

theorem clockOf_congr {w w' : UInt32} (hb : w' &&& timeoutBoottime = w &&& timeoutBoottime)
    (hr : w' &&& timeoutRealtime = w &&& timeoutRealtime) : clockOf w' = clockOf w := by
  unfold clockOf
  rw [hb, hr]

theorem clockOf_setClockFlag (clock : SupportedClock) (w : UInt32) :
    clockOf (setClockFlag clock w) = some clock := by
  unfold clockOf
  rw [setClockFlag_boottime, setClockFlag_realtime]
  cases clock <;> decide

theorem readTimeout_built (ts : KernelTimespec) (count w : UInt32) :
    readTimeout ts count (w ||| timeoutMultishot) =
      { readTimeout ts count w with multishot := true } := by
  have hclock : clockOf (w ||| timeoutMultishot) = clockOf w :=
    clockOf_congr (Flags.set_test_of_disjoint _ (by decide)) (Flags.set_test_of_disjoint _ (by decide))
  have habs : (w ||| timeoutMultishot) &&& timeoutAbs = w &&& timeoutAbs :=
    Flags.set_test_of_disjoint _ (by decide)
  have hmulti : (w ||| timeoutMultishot) &&& timeoutMultishot = timeoutMultishot := Flags.set_test _
  unfold readTimeout
  rw [hclock, habs, hmulti]
  rfl

theorem readTimeout_waitFor (ts ts' : KernelTimespec) (count w : UInt32) (clock : SupportedClock) :
    readTimeout ts' count (setClockFlag clock w &&& ~~~timeoutAbs) =
      { readTimeout ts count w with
        clock := some clock
        absolute := false
        duration := fromKernelTimespec ts' } := by
  have hclock : clockOf (setClockFlag clock w &&& ~~~timeoutAbs) = some clock :=
    (clockOf_congr (Flags.clear_test_of_disjoint _ (by decide))
      (Flags.clear_test_of_disjoint _ (by decide))).trans (clockOf_setClockFlag clock w)
  have habs : setClockFlag clock w &&& ~~~timeoutAbs &&& timeoutAbs = 0 := Flags.clear_test _
  have hmulti : setClockFlag clock w &&& ~~~timeoutAbs &&& timeoutMultishot = w &&& timeoutMultishot :=
    (Flags.clear_test_of_disjoint _ (by decide)).trans (setClockFlag_multishot clock w)
  unfold readTimeout
  rw [hclock, habs, hmulti]
  rfl

theorem readTimeout_waitUntil (ts ts' : KernelTimespec) (count w : UInt32) (clock : SupportedClock) :
    readTimeout ts' count (setClockFlag clock w ||| timeoutAbs) =
      { readTimeout ts count w with
        clock := some clock
        absolute := true
        duration := fromKernelTimespec ts' } := by
  have hclock : clockOf (setClockFlag clock w ||| timeoutAbs) = some clock :=
    (clockOf_congr (Flags.set_test_of_disjoint _ (by decide))
      (Flags.set_test_of_disjoint _ (by decide))).trans (clockOf_setClockFlag clock w)
  have habs : (setClockFlag clock w ||| timeoutAbs) &&& timeoutAbs = timeoutAbs := Flags.set_test _
  have hmulti : (setClockFlag clock w ||| timeoutAbs) &&& timeoutMultishot = w &&& timeoutMultishot :=
    (Flags.set_test_of_disjoint _ (by decide)).trans (setClockFlag_multishot clock w)
  unfold readTimeout
  rw [hclock, habs, hmulti]
  rfl

/-! ### Calls -/

/-- **What a call should change of a request.** -/
def TimeoutRequest.step (r : TimeoutRequest) : TimeoutCall → TimeoutRequest
  | .waitFor duration clock =>
    { r with clock := some clock, absolute := false, duration := some duration }
  | .waitUntil _ timePoint clock =>
    { r with clock := some clock, absolute := true, duration := timePoint.toNanoseconds }
  | .repeat n => { r with count := n.toUInt32 }
  | .repeatForever => { r with count := 0 }
  | .submit => r

theorem fromKernel_of_toKernel {d : Nanoseconds} {ts : KernelTimespec}
    (h : toKernelTimespec d = some ts) : fromKernelTimespec ts = some d := by
  obtain ⟨sec, nsec⟩ := ts
  exact (converts_iff.mpr (toKernelTimespec_eq_some_iff.mp h)).fromKernel

/-- **One call** changes of the request what it is about. -/
theorem requested_step {t t' : Timeout} {c : TimeoutCall} (h : t.step c = some t') :
    t'.requested = t.requested.step c := by
  cases t with
  | once op =>
    cases c with
    | waitFor duration clock =>
      obtain ⟨base, hbase, rfl⟩ := Option.map_eq_some_iff.mp h
      obtain ⟨ts, hts, hbase⟩ := Option.bind_eq_some_iff.mp hbase
      obtain rfl := Option.some.inj hbase
      refine (readTimeout_waitFor op.ts ts 0 op.flags clock).trans ?_
      rw [fromKernel_of_toKernel hts]
      rfl
    | waitUntil k timePoint clock =>
      obtain ⟨base, hbase, rfl⟩ := Option.map_eq_some_iff.mp h
      obtain ⟨d, hd, hbase⟩ := Option.bind_eq_some_iff.mp hbase
      obtain ⟨ts, hts, hbase⟩ := Option.bind_eq_some_iff.mp hbase
      obtain rfl := Option.some.inj hbase
      refine (readTimeout_waitUntil op.ts ts 0 op.flags clock).trans ?_
      rw [fromKernel_of_toKernel hts, ← hd]
      rfl
    | «repeat» n => cases h
    | repeatForever => cases h
    | submit =>
      obtain rfl := Option.some.inj h
      rfl
  | multishot op =>
    cases c with
    | waitFor duration clock =>
      obtain ⟨base, hbase, rfl⟩ := Option.map_eq_some_iff.mp h
      obtain ⟨ts, hts, hbase⟩ := Option.bind_eq_some_iff.mp hbase
      obtain rfl := Option.some.inj hbase
      show readTimeout ts op.count.toUInt32 (_ ||| timeoutMultishot) = _
      rw [readTimeout_built, readTimeout_waitFor op.ts, fromKernel_of_toKernel hts]
      show _ = (readTimeout op.ts op.count.toUInt32 (op.flags ||| timeoutMultishot)).step _
      rw [readTimeout_built]
      rfl
    | waitUntil k timePoint clock => cases h
    | «repeat» n =>
      obtain rfl := Option.some.inj h
      rfl
    | repeatForever =>
      obtain rfl := Option.some.inj h
      rfl
    | submit =>
      -- the flag is set already in what the kernel saw before
      obtain rfl := Option.some.inj h
      show readTimeout op.ts op.count.toUInt32 (op.flags ||| timeoutMultishot ||| timeoutMultishot) =
        readTimeout op.ts op.count.toUInt32 (op.flags ||| timeoutMultishot)
      simp only [readTimeout_built]

/-! ### Runs -/

/-- What a call says about clock, mode and duration. -/
def TimeoutCall.time : TimeoutCall → Option (SupportedClock × Bool × Option Nanoseconds)
  | .waitFor duration clock => some (clock, false, some duration)
  | .waitUntil _ timePoint clock => some (clock, true, timePoint.toNanoseconds)
  | _ => none

/-- What a call says about the count. -/
def TimeoutCall.count : TimeoutCall → Option UInt32
  | .repeat n => some n.toUInt32
  | .repeatForever => some 0
  | _ => none

/-- The clock, the mode and the duration of a request. -/
def TimeoutRequest.time (r : TimeoutRequest) : Option SupportedClock × Bool × Option Nanoseconds :=
  (r.clock, r.absolute, r.duration)

/-- **After any calls** the kernel sees what the calls change of the first request. -/
theorem requested_run : ∀ {calls : List TimeoutCall} {t t' : Timeout},
    run Timeout.step t calls = some t' →
    t'.requested = calls.foldl TimeoutRequest.step t.requested
  | [], t, t', h => by
    rw [run_nil, Option.some.injEq] at h
    rw [h]
    rfl
  | c :: calls, t, t', h => by
    obtain ⟨u, hu, h⟩ := (run_cons_eq_some_iff _).mp h
    rw [requested_run h, requested_step hu, List.foldl_cons]

theorem step_of_time {c : TimeoutCall} {time : SupportedClock × Bool × Option Nanoseconds}
    (h : c.time = some time) (r : TimeoutRequest) : (r.step c).time = (some time.1, time.2) := by
  cases c with
  | waitFor duration clock =>
    obtain rfl := Option.some.inj h
    rfl
  | waitUntil k timePoint clock =>
    obtain rfl := Option.some.inj h
    rfl
  | «repeat» n => cases h
  | repeatForever => cases h
  | submit => cases h

theorem step_of_count {c : TimeoutCall} {n : UInt32} (h : c.count = some n) (r : TimeoutRequest) :
    (r.step c).count = n := by
  cases c with
  | waitFor duration clock => cases h
  | waitUntil k timePoint clock => cases h
  | «repeat» n => exact Option.some.inj h
  | repeatForever => exact Option.some.inj h
  | submit => cases h

theorem foldl_time : ∀ {calls : List TimeoutCall} (_ : ∀ c ∈ calls, c.time = none)
    (r : TimeoutRequest), (calls.foldl TimeoutRequest.step r).time = r.time
  | [], _, r => rfl
  | c :: calls, h, r => by
    have hc := h c List.mem_cons_self
    rw [List.foldl_cons, foldl_time fun c' hc' => h c' (List.mem_cons_of_mem c hc')]
    cases c with
    | waitFor duration clock => cases hc
    | waitUntil k timePoint clock => cases hc
    | _ => rfl

theorem foldl_count : ∀ {calls : List TimeoutCall} (_ : ∀ c ∈ calls, c.count = none)
    (r : TimeoutRequest), (calls.foldl TimeoutRequest.step r).count = r.count
  | [], _, r => rfl
  | c :: calls, h, r => by
    have hc := h c List.mem_cons_self
    rw [List.foldl_cons, foldl_count fun c' hc' => h c' (List.mem_cons_of_mem c hc')]
    cases c with
    | «repeat» n => cases hc
    | repeatForever => cases hc
    | _ => rfl

theorem foldl_multishot (calls : List TimeoutCall) (r : TimeoutRequest) :
    (calls.foldl TimeoutRequest.step r).multishot = r.multishot := by
  induction calls generalizing r with
  | nil => rfl
  | cons c calls ih =>
    rw [List.foldl_cons, ih]
    cases c <;> rfl

/-- **The last calls decide.** After any calls on a new object, submissions among them, the kernel sees
the clock, the mode and the duration of the last `wait_for` or `wait_until`, the count of the last
`repeat` as an unsigned number of 32 bits, what a new object has where there was no such call, and the
multishot flag exactly for the multishot class. -/
theorem requested_last {shots : Bool} {calls : List TimeoutCall} {t : Timeout}
    (h : run Timeout.step (.new shots) calls = some t) :
    (∃ ts count flags, (∀ prep, t.build prep = prep (.timeout ts count flags)) ∧
      t.requested = readTimeout ts count flags) ∧
    (∀ before c after time, calls = before ++ c :: after → c.time = some time →
      (∀ c' ∈ after, c'.time = none) → t.requested.time = (some time.1, time.2)) ∧
    ((∀ c ∈ calls, c.time = none) → t.requested.time = (some .steady, false, some ⟨0⟩)) ∧
    (∀ before c after n, calls = before ++ c :: after → c.count = some n →
      (∀ c' ∈ after, c'.count = none) → t.requested.count = n) ∧
    ((∀ c ∈ calls, c.count = none) → t.requested.count = if shots then 1 else 0) ∧
    t.requested.multishot = shots := by
  refine ⟨build_requested t, ?_⟩
  rw [requested_run h]
  refine ⟨?_, fun hnone => ?_, ?_, fun hnone => ?_, ?_⟩
  · rintro before c after time rfl hc hafter
    rw [List.foldl_append, List.foldl_cons, foldl_time hafter, step_of_time hc]
  · rw [foldl_time hnone]
    cases shots <;> rfl
  · rintro before c after n rfl hc hafter
    rw [List.foldl_append, List.foldl_cons, foldl_count hafter, step_of_count hc]
  · rw [foldl_count hnone]
    cases shots <;> rfl
  · rw [foldl_multishot]
    cases shots <;> rfl

/-- A timeout that is set by the boot time clock, submitted, and set to a point of the system clock. -/
def reusedTimeout : List TimeoutCall :=
  [.waitFor ⟨1500000000⟩ .boottime, .submit, .waitUntil 1000000000 ⟨3⟩ .system]

theorem requested_last_reused : ∃ t, run Timeout.step (.new false) reusedTimeout = some t ∧
    t.requested.time = (some .system, true, some ⟨3000000000⟩) := by
  have h : run Timeout.step (.new false) reusedTimeout = some _ := rfl
  exact ⟨_, h, (requested_last h).2.1 [.waitFor ⟨1500000000⟩ .boottime, .submit]
    (.waitUntil 1000000000 ⟨3⟩ .system) [] _ rfl rfl (by simp)⟩

end Iouxx.Ops
