import Iouxx.Ops.Operation
import Iouxx.Ring.Delivery

/-!
# Multishot operations (`timeout.hpp`, `poll.hpp`, `connection.hpp`, `sendrecv.hpp`)

One submission of a multishot operation posts a stream of entries, and all but the last have
`IORING_CQE_F_MORE`. The callbacks of these classes are told the flag with each value, and no flag with
an error.

* `length_doCallback`: for every class, an entry invokes the callback once, or never where there is no
  callback or the address it has to be told is not decoded;
* `over_told_iff`: **what the callback is told is a stream that is over with its last entry exactly
  when every entry with more to follow is one that the class takes for a value**;
* `tells_end`: **in a ring the callback knows when the operation is over**.
-/

namespace Iouxx.Ops

open Iouxx.Cpp.Error Iouxx.Lib Iouxx.Lib.Trace Iouxx.Ring Iouxx.Utility

variable {I V : Type}

namespace Operation

/-- The classes whose callback may get many completions of a submission. -/
def isMultishot : Operation I V → Bool
  | multishotTimeout _ | filePollMultishot _ | socketMultishotAccept _
  | fixedSocketMultishotAccept _ | socketMultishotRecv _ => true
  | _ => false

/-- The specialisations for `void` have no callback. -/
def hasCallback : Operation I V → Bool
  | noopVoid | timeoutCancelVoid _ | cancelVoid _ | cancelFdVoid _ => false
  | _ => true

/-- The results that a multishot class takes for a value. -/
def takesValue : Operation I V → Int32 → Bool
  | multishotTimeout _, ev => ev = negEtime ∨ ev = 0
  | _, ev => ev ≥ 0

end Operation

/-- What the callback is told about more to follow: an error does not tell of any. -/
def Delivery.more : Delivery I V → Bool
  | value (.multishotPoll _ more) => more
  | value (.multishotTimeout more) => more
  | value (.multishotAccept _ more) => more
  | value (.multishotFixedAccept _ more) => more
  | value (.multishotRecv _ _ more) => more
  | _ => false

/-! ### One invocation for each entry -/

theorem length_ite (p : Prop) [Decidable p] (d d' : Delivery I V) :
    (if p then [d] else [d']).length = 1 := by
  split <;> rfl

theorem length_invokeVoid (callback : VoidCallback) (ev : Int32) :
    (invokeVoid callback ev : List (Delivery I V)).length = 1 := by
  cases callback with
  | stdexpected => exact length_ite _ _ _
  | errorcode => rfl

theorem length_invokeDecoded {ev : Int32} {v : Option (Value I V)} (h : 0 ≤ ev → v.isSome = true) :
    (invokeDecoded ev v).length = 1 := by
  unfold invokeDecoded
  split
  · rename_i hev
    obtain ⟨v, rfl⟩ := Option.isSome_iff_exists.mp (h hev)
    rfl
  · rfl

theorem length_doCallback {op : Operation I V} {ev : Int32} (h : 0 ≤ ev → op.decodes = true)
    (cqeFlags : UInt32) : (op.doCallback ev cqeFlags).length = if op.hasCallback then 1 else 0 := by
  -- the classes differ in the test
  cases op with
  | socketAccept info op | fixedSocketAccept info op | socketGetsockname info op =>
    exact length_invokeDecoded fun hev => (Option.isSome_map ..).trans (h hev)
  | _ =>
    first
    | rfl
    | exact length_ite _ _ _
    | exact length_invokeVoid _ _

/-! ### What a multishot callback is told -/

/-- **What a multishot callback is told**: the flag of the entry with a value, nothing with an
error. -/
theorem doCallback_multishot {op : Operation I V} (hop : op.isMultishot = true) (ev : Int32)
    (cqeFlags : UInt32) : ∃ d, op.doCallback ev cqeFlags = [d] ∧
      d.more = (more cqeFlags && op.takesValue ev) := by
  have hvalue : ∀ v : Value I V, (Delivery.value v).more = more cqeFlags →
      ∃ d, invokeValue ev v = [d] ∧ d.more = (more cqeFlags && decide (ev ≥ 0)) := by
    intro v hv
    unfold invokeValue
    by_cases hev : ev ≥ 0
    · rw [if_pos hev]
      exact ⟨_, rfl, by rw [hv, decide_eq_true hev, Bool.and_true]⟩
    · rw [if_neg hev]
      exact ⟨_, rfl, by rw [decide_eq_false hev, Bool.and_false]; rfl⟩
  cases op with
  | multishotTimeout op =>
    show ∃ d, MultishotTimeoutOperation.doCallback ev cqeFlags = [d] ∧
      Delivery.more d = (more cqeFlags && decide (ev = negEtime ∨ ev = 0))
    unfold MultishotTimeoutOperation.doCallback
    simp only
    by_cases hev : ev = negEtime ∨ ev = 0
    · rw [if_pos (by rcases hev with rfl | rfl <;> rfl)]
      exact ⟨_, rfl, by rw [decide_eq_true hev, Bool.and_true]; rfl⟩
    · rw [not_or] at hev
      rw [if_neg (by rw [if_neg hev.1]; exact hev.2)]
      exact ⟨_, rfl, by rw [decide_eq_false (by simpa using hev), Bool.and_false]; rfl⟩
  | filePollMultishot op => exact hvalue _ rfl
  | socketMultishotAccept op => exact hvalue _ rfl
  | fixedSocketMultishotAccept op => exact hvalue _ rfl
  | socketMultishotRecv op => exact hvalue _ rfl
  | _ => cases hop

/-- What the callback of an operation is told for the entries of a ring. -/
def told (op : Operation I V) (l : List Cqe) : List (Delivery I V) :=
  l.flatMap fun c => op.doCallback (Int32.ofInt c.res) c.flags

/-- **When the end of a stream is told**: what the callback is told goes on as long as the stream does
and is over with its last entry, exactly when every entry with more to follow is one that the class
takes for a value. -/
theorem over_told_iff {op : Operation I V} (hop : op.isMultishot = true) {l : List Cqe}
    (hl : Stream.Over Cqe.more l) :
    Stream.Over Delivery.more (told op l) ↔
      ∀ c ∈ l, c.more = true → op.takesValue (Int32.ofInt c.res) = true := by
  choose f hf hmore using doCallback_multishot hop
  have htold : told op l = l.map fun c => f (Int32.ofInt c.res) c.flags := by
    rw [List.map_eq_flatMap]
    exact List.flatMap_congr fun c _ => hf _ _
  rw [htold]
  exact Stream.over_map_iff (fun c => hmore _ _) hl

/-- A timeout that fires twice and is then canceled. -/
theorem over_told_iff_canceled :
    Stream.Over Delivery.more (told (.multishotTimeout ⟨⟨⟨1, 0⟩, 0⟩, 0⟩ : Operation Unit Unit)
      [⟨1, -62, 2, 0⟩, ⟨1, -62, 2, 0⟩, ⟨1, -125, 0, 0⟩]) := by
  have hl : Stream.Over Cqe.more [⟨1, -62, 2, 0⟩, ⟨1, -62, 2, 0⟩, ⟨1, -125, 0, 0⟩] :=
    ⟨[⟨1, -62, 2, 0⟩, ⟨1, -62, 2, 0⟩], ⟨1, -125, 0, 0⟩, rfl, by unfold Stream.Open; decide, rfl⟩
  exact (over_told_iff rfl hl).mpr (by decide)

/-! ### In a ring -/

variable {Res : Type*} {ops : Operations Res} {st : Traffic Res} {n : ℕ}

/-- The end has been told exactly when an entry was delivered that no more follow. -/
theorem exists_told_iff {op : Operation I V} (hop : op.isMultishot = true) {l : List Cqe}
    (hl : ∀ c ∈ l, c.more = true → op.takesValue (Int32.ofInt c.res) = true) :
    (∃ d ∈ told op l, d.more = false) ↔ ∃ c ∈ l, c.more = false := by
  have hmem : ∀ d, d ∈ told op l ↔ ∃ c ∈ l, d ∈ op.doCallback (Int32.ofInt c.res) c.flags :=
    fun d => List.mem_flatMap
  constructor
  · rintro ⟨d, hd, hmore⟩
    obtain ⟨c, hc, hd⟩ := (hmem d).mp hd
    obtain ⟨d', hd', hmore'⟩ := doCallback_multishot hop (Int32.ofInt c.res) c.flags
    rw [hd', List.mem_singleton] at hd
    subst hd
    refine ⟨c, hc, ?_⟩
    by_contra hcm
    have hcm : c.more = true := by simpa using hcm
    have hcm' : more c.flags = true := hcm
    rw [hmore', hcm', hl c hc hcm] at hmore
    cases hmore
  · rintro ⟨c, hc, hcm⟩
    obtain ⟨d, hd, hmore⟩ := doCallback_multishot hop (Int32.ofInt c.res) c.flags
    have hcm' : more c.flags = false := hcm
    refine ⟨d, (hmem d).mpr ⟨c, hc, by rw [hd]; exact List.mem_singleton_self d⟩, ?_⟩
    rw [hmore, hcm', Bool.false_and]

/-- **The callback of a multishot operation knows when it is over.** In every state that a ring can
reach, the callback has been told of the end exactly when the operation is no longer in flight and none
of its entries waits to be taken, if the kernel posts errors only as last entries. -/
theorem tells_end (objs : OpId → Operation I V) (h : Reachable (Traffic.step ops) (.init n) st)
    {e : Sqe} (he : e ∈ st.taken) (hop : (objs e.userData).isMultishot = true)
    (hkernel : ∀ c ∈ Traffic.stream st.entries e.ticket, c.more = true →
      (objs e.userData).takesValue (Int32.ofInt c.res) = true) :
    (∃ d ∈ told (objs e.userData) (Traffic.stream st.delivered e.ticket), d.more = false) ↔
      e ∉ st.queue.inflight ∧ ∀ c ∈ st.queue.cq, c.ticket ≠ e.ticket := by
  have hd := Traffic.delivers_of_reachable h
  have hsplit : Traffic.stream st.entries e.ticket =
      Traffic.stream st.delivered e.ticket ++ Traffic.stream st.queue.cq e.ticket := by
    rw [← hd.order]
    exact List.filter_append ..
  have hwaits : Traffic.stream st.queue.cq e.ticket = [] ↔ ∀ c ∈ st.queue.cq, c.ticket ≠ e.ticket := by
    unfold Traffic.stream
    rw [List.filter_eq_nil_iff]
    simp
  rw [exists_told_iff hop fun c hc => hkernel c (hsplit ▸ List.mem_append_left _ hc), ← hwaits]
  constructor
  · rintro ⟨c, hc, hmore⟩
    rcases hd.streams e he with ⟨-, hopen⟩ | ⟨hin, hover⟩
    · have := hopen c (hsplit ▸ List.mem_append_left _ hc)
      rw [hmore] at this
      cases this
    · exact ⟨hin, (hsplit ▸ hover).rest_eq_nil hc hmore⟩
  · rintro ⟨hin, hnil⟩
    rcases hd.streams e he with ⟨hin', -⟩ | ⟨-, hover⟩
    · exact absurd hin' hin
    · rw [hsplit, hnil, List.append_nil] at hover
      obtain ⟨front, last, heq, -, hlast⟩ := hover
      exact ⟨last, by rw [heq]; simp, hlast⟩

/-- A multishot receive that gets two buffers and the end of the connection, and has all delivered but
the last. -/
theorem tells_end_recv : ∃ st : Traffic ℤ,
    run (Traffic.step Traffic.echo) (.init 8) [.submit 1 1, .post ⟨0, 64, 2⟩, .wait 0,
      .post ⟨0, 32, 2⟩, .post ⟨0, 0, 0⟩, .fetch 0] = some st ∧
    ¬ ∃ d ∈ told (.socketMultishotRecv {} : Operation Unit Unit) (Traffic.stream st.delivered 0),
      d.more = false := by
  refine ⟨_, rfl, fun h => ?_⟩
  have hr : Reachable (Traffic.step Traffic.echo) (.init 8) _ := ⟨[.submit 1 1, .post ⟨0, 64, 2⟩,
    .wait 0, .post ⟨0, 32, 2⟩, .post ⟨0, 0, 0⟩, .fetch 0], rfl⟩
  have hend := (tells_end (e := ⟨1, 0⟩) (fun _ => (.socketMultishotRecv {} : Operation Unit Unit)) hr
    (List.mem_singleton_self _) rfl (by decide)).mp h
  exact hend.2 ⟨1, 0, 0, 0⟩ (by decide) rfl

end Iouxx.Ops
