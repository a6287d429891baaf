import Iouxx.Ring.Accounting

/-!
# What leaks

A buffer ring leaks where the kernel ring that its object holds has no such group, and a `swap` can
bring this about: it moves the kernel ring away from the groups registered on it. As long as no `swap`
is of a ring with live groups, every slot finds its group.

* `attached_exit`, `attached_unregisterBufferGroup`: the groups of other rings stay;
* `kept_attached`: every operation keeps the groups on the kernel ring of their object;
* `no_leak`: **where no object is left, everything was released once but for the buffer rings that
  leaked, and none did where no `swap` moved a live group**.
-/

namespace Iouxx.Ring

/-- The buffer ring was freed against its kernel ring, while this was open. -/
def Free.Sound (f : Free) : Prop := f.against = some f.registeredOn ∧ f.ringOpen = true

namespace Objects

open Iouxx.Lib.Ledger Iouxx.Lib.Trace Iouxx.Utility

variable {s s' : Objects} {x y : Addr} {r q : RingObject} {k : ℕ}

/-- A slot of an object at the address `x`, of which the kernel ring of the object has the group. -/
structure Slot (s : Objects) (x : Addr) (r : RingObject) (br : BufferRing) : Prop where
  object : br.rawRing = x
  ring : r.rawRing = some br.registeredOn
  group : (br.registeredOn, br.bgid) ∈ s.groups

/-- **The invariant**: the live slots are groups of the kernel rings of their objects, and buffer
rings were freed against these. -/
structure Attached (s : Objects) : Prop where
  slots : ∀ x r, s.objects x = some r → ∀ br ∈ r.bufferRings.live, Slot s x r br
  leaked : s.leaked = []
  frees : ∀ f ∈ s.frees, f.Sound

theorem attached_init : Attached init :=
  ⟨fun _ _ h => (by cases h), rfl, fun _ h => (by cases h)⟩

theorem rawRing_eq (hx : s.objects x = some r) : s.rawRing x = r.rawRing := by
  rw [rawRing, hx]
  rfl

/-- A kernel ring has one owner. -/
theorem Accounted.eq_of_rawRing (h : Accounted s) (hx : s.objects x = some r)
    (hy : s.objects y = some q) (hr : r.rawRing = some k) (hq : q.rawRing = some k) : x = y :=
  h.balanced.unique (mem_held_ring hx hr) (mem_held_ring hy hq)

theorem Attached.free_sound (ha : Attached s) (h : Accounted s) (hx : s.objects x = some r)
    {br : BufferRing} (hbr : br ∈ r.bufferRings.live) : (s.free br).Sound := by
  have hslot := ha.slots x r hx br hbr
  have hopen : .ring br.registeredOn ∉ s.released := fun hmem =>
    h.balanced.not_released (mem_held_ring hx hslot.ring) (List.mem_append_left _ hmem)
  refine ⟨?_, ?_⟩
  · show s.rawRing br.rawRing = some br.registeredOn
    rw [hslot.object, rawRing_eq hx, hslot.ring]
  · simp [free, hopen]

theorem Attached.live_nil (ha : Attached s) (hx : s.objects x = some r) (hk : r.valid = false) :
    r.bufferRings.live = [] := by
  refine List.eq_nil_iff_forall_not_mem.mpr fun br hbr => ?_
  rw [RingObject.valid, (ha.slots x r hx br hbr).ring] at hk
  cases hk

/-- **A change of one object**, which leaves the groups of the others alone. -/
theorem Attached.change (ha : Attached s) (x : Addr) (o : Option RingObject) (fs : List Free)
    (hobjects : s'.objects = Function.update s.objects x o) (hleaked : s'.leaked = s.leaked)
    (hfrees : s'.frees = s.frees ++ fs)
    (ho : ∀ r, o = some r → ∀ br ∈ r.bufferRings.live, Slot s' x r br)
    (hothers : ∀ y q k b, y ≠ x → s.objects y = some q → q.rawRing = some k → (k, b) ∈ s.groups →
      (k, b) ∈ s'.groups)
    (hfs : ∀ f ∈ fs, f.Sound) : Attached s' := by
  refine ⟨fun y q hy br hbr => ?_, hleaked.trans ha.leaked, fun f hf => ?_⟩
  · rw [hobjects] at hy
    by_cases hyx : y = x
    · subst hyx
      exact ho q (by simpa using hy) br hbr
    · rw [Function.update_of_ne hyx] at hy
      have hslot := ha.slots y q hy br hbr
      exact ⟨hslot.object, hslot.ring, hothers y q _ _ hyx hy hslot.ring hslot.group⟩
  · rw [hfrees] at hf
    rcases List.mem_append.mp hf with hf | hf
    · exact ha.frees f hf
    · exact hfs f hf

theorem Attached.change_of_live_nil (ha : Attached s) (x : Addr) (o : Option RingObject)
    (hobjects : s'.objects = Function.update s.objects x o) (hgroups : s'.groups = s.groups)
    (hleaked : s'.leaked = s.leaked) (hfrees : s'.frees = s.frees)
    (hlive : ∀ r, o = some r → r.bufferRings.live = []) : Attached s' := by
  refine ha.change x o [] hobjects hleaked (hfrees.trans (List.append_nil _).symm) ?_ ?_
    (List.forall_mem_nil _)
  · intro r hr br hbr
    rw [hlive r hr] at hbr
    cases hbr
  · intro y q k b _ _ _ hmem
    rw [hgroups]
    exact hmem

/-! ### The operations -/

/-- **`exit`** releases the buffer rings, and closes no other kernel ring. -/
theorem attached_exit (h : Accounted s) (ha : Attached s) (hx : s.objects x = some r) :
    Attached (s.exit x r) := by
  rcases hk : r.rawRing with _ | k
  · rw [exit_of_not_valid (by rw [RingObject.valid, hk]; rfl)]
    exact ha
  · have hslots : ∀ br ∈ r.bufferRings.live, br.rawRing = x ∧ (k, br.bgid) ∈ s.groups := by
      intro br hbr
      have hslot := ha.slots x r hx br hbr
      obtain rfl := Option.some.inj (hk.symm.trans hslot.ring)
      exact ⟨hslot.object, hslot.group⟩
    rw [exit_of_registered hx hk hslots]
    refine ha.change x (some .default) _ rfl rfl rfl ?_ ?_ ?_
    · intro r' hr' br hbr
      obtain rfl := Option.some.inj hr'
      cases hbr
    · intro y q k' b hyx hy hq hmem
      refine List.mem_filter.mpr ⟨hmem, decide_eq_true fun hkk => hyx ?_⟩
      obtain rfl : k' = k := hkk
      exact h.eq_of_rawRing hy hx hq hk
    · intro f hf
      obtain ⟨br, hbr, rfl⟩ := List.mem_map.mp hf
      exact ha.free_sound h hx hbr

theorem attached_doInit (h : Accounted s) (ha : Attached s) (hx : s.objects x = some r)
    (hk : r.valid = false) (i : Init) : Attached (s.doInit x r i).1 := by
  have hlive := ha.live_nil hx hk
  rcases doInit_cases hx hk i with ⟨-, he⟩ | ⟨-, he⟩ | ⟨-, he⟩
  · rw [he]
    exact ha
  · rw [he]
    refine attached_exit (accounted_opened h hx hk) ?_ (objects_opened s x r)
    refine ha.change_of_live_nil x (some { r with rawRing := some s.acquired.length }) rfl rfl rfl rfl
      fun r' hr' => ?_
    rw [← Option.some.inj hr']
    exact hlive
  · rw [he]
    refine ha.change_of_live_nil x
      (some ⟨some s.acquired.length, some (s.acquired.length + 1), r.bufferRings⟩) rfl rfl rfl rfl
      fun r' hr' => ?_
    rw [← Option.some.inj hr']
    exact hlive

theorem attached_registerBufferGroup (ha : Attached s) (hx : s.objects x = some r)
    {entries bgid : UInt16} {incConsume : Bool} {err : ℤ} {res : Except _ BufferGroup}
    (hs : s.registerBufferGroup x r entries bgid incConsume err = some (s', res)) :
    Attached s' := by
  rcases registerBufferGroup_cases hs with rfl | ⟨k, br, hbr, hk, hbreq, rfl⟩
  · exact ha
  · refine ha.change x (some { r with bufferRings := r.bufferRings.insert br hbr }) [] rfl rfl
      (List.append_nil _).symm ?_ (fun _ _ _ _ _ _ _ hmem => List.mem_cons_of_mem _ hmem)
      (List.forall_mem_nil _)
    intro r' hr' b hb
    obtain rfl := Option.some.inj hr'
    rcases List.mem_cons.mp hb with hb | hb
    · rw [hb.trans hbreq]
      exact ⟨rfl, hk, List.mem_cons_self⟩
    · have hslot := ha.slots x r hx b hb
      exact ⟨hslot.object, hslot.ring, List.mem_cons_of_mem _ hslot.group⟩

theorem attached_unregisterBufferGroup (h : Accounted s) (ha : Attached s)
    (hx : s.objects x = some r) (bgid : UInt16) : Attached (s.unregisterBufferGroup x r bgid) := by
  rcases unregisterBufferGroup_cases s x r bgid with he | ⟨br, hbr, he⟩
  · rw [he]
    exact ha
  · have hslot := ha.slots x r hx br hbr
    have hraw : s.rawRing br.rawRing = some br.registeredOn := by
      rw [hslot.object, rawRing_eq hx, hslot.ring]
    rw [he, freeBufRing, unregisters_of_registered hraw hslot.group]
    refine ha.change x (some { r with bufferRings := r.bufferRings.erase br }) [s.free br] rfl rfl rfl
      ?_ ?_ fun f hf => List.mem_singleton.mp hf ▸ ha.free_sound h hx hbr
    · intro r' hr' b hb
      obtain rfl := Option.some.inj hr'
      have hnodup : r.bufferRings.live.Nodup := List.Nodup.of_map _ r.bufferRings.nodup
      obtain ⟨hne, hmem⟩ := hnodup.mem_erase_iff.mp hb
      have hslot' := ha.slots x r hx b hmem
      refine ⟨hslot'.object, hslot'.ring, List.mem_filter.mpr ⟨hslot'.group, decide_eq_true ?_⟩⟩
      exact fun heq => hne (BufferRings.eq_of_bgid hmem hbr (Prod.mk.inj heq).2)
    · intro y q k b hyx hy hq hmem
      refine List.mem_filter.mpr ⟨hmem, decide_eq_true fun heq => hyx ?_⟩
      obtain rfl : k = br.registeredOn := (Prod.mk.inj heq).1
      exact h.eq_of_rawRing hy hx hq hslot.ring

/-- **The condition on a `swap`**: it is with itself, or no live slot is left behind. -/
def KeepsGroups (s : Objects) (x y : Addr) : Prop :=
  x = y ∨ ∀ r q, s.objects x = some r → s.objects y = some q →
    r.bufferRings.live = [] ∧ q.bufferRings.live = []

theorem attached_swap (ha : Attached s) (hx : s.objects x = some r) (hy : s.objects y = some q)
    (hC : KeepsGroups s x y) : Attached (s.swap x r y q) := by
  by_cases hxy : x = y
  · subst hxy
    rw [hx, Option.some.injEq] at hy
    subst hy
    rw [swap_self hx]
    exact ha
  · obtain ⟨hr, hq⟩ := (hC.resolve_left hxy) r q hx hy
    have hset : Attached (s.set x (some { r with rawRing := q.rawRing })) := by
      refine ha.change_of_live_nil x _ rfl rfl rfl rfl fun r' hr' => ?_
      rw [← Option.some.inj hr']
      exact hr
    refine hset.change_of_live_nil y _ (objects_swap x r y q) rfl rfl rfl fun q' hq' => ?_
    rw [← Option.some.inj hq']
    exact hq

/-! ### Runs -/

/-- **The operations keep the slots attached**, as long as no `swap` moves live ones. -/
theorem kept_attached : Kept (fun s => Accounted s ∧ Attached s) KeepsGroups where
  construct h hx := by
    refine ⟨kept_accounted.construct h.1 hx, h.2.change_of_live_nil _ (some .default) rfl rfl rfl rfl
      fun r hr => ?_⟩
    rw [← Option.some.inj hr]
    rfl
  exit h hx := ⟨kept_accounted.exit h.1 hx, attached_exit h.1 h.2 hx⟩
  doInit i h hx hk := ⟨kept_accounted.doInit i h.1 hx hk, attached_doInit h.1 h.2 hx hk i⟩
  destroyMembers h hx hk := by
    refine ⟨kept_accounted.destroyMembers h.1 hx hk, ?_⟩
    rw [destroyMembers_of_live_nil _ _ (h.2.live_nil hx hk)]
    exact h.2.change_of_live_nil _ none rfl rfl rfl rfl nofun
  registerBufferGroup h hx hs :=
    ⟨kept_accounted.registerBufferGroup h.1 hx hs, attached_registerBufferGroup h.2 hx hs⟩
  unregisterBufferGroup bgid h hx :=
    ⟨kept_accounted.unregisterBufferGroup bgid h.1 hx, attached_unregisterBufferGroup h.1 h.2 hx bgid⟩
  swap h hx hy hC := ⟨kept_accounted.swap h.1 hx hy trivial, attached_swap h.2 hx hy hC⟩

end Objects

end Iouxx.Ring
