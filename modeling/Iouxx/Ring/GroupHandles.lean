import Iouxx.Ring.BufferGroups

/-!
# Handles to buffer groups (`buffer_group`)

A `buffer_group` is a pointer to a slot of the table. It tests true where it was obtained for a live
group, whatever happens to the slot afterwards, and `insert` asserts nothing else: it writes to the
buffer ring that is in the slot at the time.

* `tracks_call`: what a call does to a handle;
* `writesOwn_iff`: **in a run every write goes to the registration its handle was obtained from exactly
  when no handle is used after a call that ended this registration**.
-/

namespace Iouxx.Ring

open Iouxx.Cpp.Error Iouxx.Lib.Trace

namespace Objects

/-- A `buffer_group` object, or a copy of one. -/
structure Handle where
  group : Option BufferGroup
  -- the history: the buffer ring it was obtained for, and the calls since then
  origin : Option ℕ
  since : List Call

/-- `operator bool`. -/
def Handle.test (h : Handle) : Bool := h.group.isSome

/-- Another call is made. -/
def Handle.after (h : Handle) (c : Call) : Handle := { h with since := h.since ++ [c] }

/-- Some call since has ended the registration of the group. -/
def Handle.Ended (h : Handle) (g : BufferGroup) : Prop := ∃ c ∈ h.since, c.ends g.bgid = true

/-- A write of `insert` or `insert_range`: the buffer ring the handle was obtained for, the one that was
written to, and whether the latter was registered then. -/
structure Write where
  origin : Option ℕ
  target : Option ℕ
  registered : Bool
  deriving DecidableEq, Repr

/-- The process, the handles that its code has, and the writes so far. -/
structure Holding where
  objects : Objects
  handles : List Handle
  writes : List Write

namespace Holding

/-- A ring that was just constructed, and no handles. -/
def start (x : Addr) : Holding := ⟨init.set x (some .default), [], []⟩

/-- A call, a copy of a handle, or an `insert` or `insert_range` on one; the latter allocates two vectors
before it writes. -/
inductive Event
  | call (c : Call)
  | copy (i : ℕ)
  | insert (i : ℕ)
  | insertRange (i : ℕ) (allocated : Bool)
  deriving DecidableEq, Repr

/-- The buffer ring in the slot that a handle points to; `none` is a null pointer. -/
def bufRing (s : Objects) (g : Option BufferGroup) : Option ℕ :=
  g.bind fun g => (s.slot g.ring g.bgid).map BufferRing.bufRing

/-- The handle that a call returns. -/
def obtained (s : Objects) : Response → List Handle
  | .registered (.ok g) => [⟨some g, bufRing s (some g), []⟩]
  | .found g => [⟨g, bufRing s g, []⟩]
  | .registered (.error _) | .initialized _ | .done => []

/-- What `insert` writes to. -/
def write (s : Objects) (h : Handle) : Write where
  origin := h.origin
  target := bufRing s h.group
  registered := (bufRing s h.group).any fun b => .bufRing b ∉ s.released

/-- A handle is used: `insert` and `insert_range` assert that it tests true. -/
def use (st : Holding) (i : ℕ) (writes : Bool) : Option Holding := do
  let h ← st.handles[i]?
  if h.test then
    some (if writes then { st with writes := st.writes ++ [write st.objects h] } else st)
  else none

/-- **One event**; `insert_range` writes nothing where it returns an error. -/
def step (x : Addr) (st : Holding) : Event → Option Holding
  | .call c => do
    let r ← st.objects.objects x
    let (s, res) ← st.objects.call x r c
    some { st with objects := s, handles := st.handles.map (fun h => h.after c) ++ obtained s res }
  | .copy i => do
    let h ← st.handles[i]?
    some { st with handles := st.handles ++ [h] }
  | .insert i => st.use i true
  | .insertRange i allocated => st.use i allocated

/-- **Every write went to the registration its handle was obtained from**, while this was registered. -/
def WritesOwn (st : Holding) : Prop :=
  ∀ w ∈ st.writes, w.target.isSome = true ∧ w.target = w.origin ∧ w.registered = true

/-- A handle is written through only while no call has ended the registration it was obtained from. -/
def UsedInTime (st : Holding) : Event → Prop
  | .insert i | .insertRange i true =>
    ∀ h g, st.handles[i]? = some h → h.group = some g → ¬ h.Ended g
  | .call _ | .copy _ | .insertRange _ false => True

/-! ### What a handle points to -/

/-- **What is known about a handle**: its slot has the buffer ring it was obtained for, and has another one
or none when the registration has ended. -/
structure Tracks (x : Addr) (s : Objects) (h : Handle) : Prop where
  origin : ∀ g, h.group = some g → g.ring = x ∧ ∃ o, h.origin = some o ∧ o < s.acquired.length
  live : ∀ g, h.group = some g → ¬ h.Ended g → bufRing s h.group = h.origin
  ended : ∀ g, h.group = some g → h.Ended g → bufRing s h.group ≠ h.origin

variable {x : Addr} {s s' : Objects} {r : RingObject} {h hd : Handle}

theorem bufRing_some (s : Objects) (g : BufferGroup) :
    bufRing s (some g) = (s.slot g.ring g.bgid).map BufferRing.bufRing := rfl

theorem ended_after_iff {c : Call} {g : BufferGroup} :
    (h.after c).Ended g ↔ h.Ended g ∨ c.ends g.bgid = true := by
  unfold Handle.Ended Handle.after
  simp only [List.mem_append, List.mem_singleton]
  refine ⟨?_, ?_⟩
  · rintro ⟨c', hc' | rfl, hends⟩
    · exact .inl ⟨c', hc', hends⟩
    · exact .inr hends
  · rintro (⟨c', hc', hends⟩ | hends)
    · exact ⟨c', .inl hc', hends⟩
    · exact ⟨c, .inr rfl, hends⟩

theorem of_slot (hinv : Inv s) {bgid : UInt16} {br : BufferRing} (hslot : s.slot x bgid = some br) :
    br.bufRing < s.acquired.length ∧ .bufRing br.bufRing ∉ s.released := by
  obtain ⟨r, hx, hfind⟩ := Option.bind_eq_some_iff.mp hslot
  have hheld : .bufRing br.bufRing ∈ s.held x := by
    rw [held_of_eq hx]
    unfold heldBy RingObject.held
    have hmem := BufferRings.mem_of_find? hfind
    simp only [Option.elim_some, List.mem_append, List.mem_map]
    exact .inl (.inr ⟨br, hmem, rfl⟩)
  refine ⟨hinv.accounted.number_lt hheld, fun hmem => ?_⟩
  exact hinv.accounted.balanced.not_released hheld (List.mem_append_left _ hmem)

theorem acquired_exit (hx : s.objects x = some r) : (s.exit x r).acquired = s.acquired := by
  rcases hk : r.valid with _ | _
  · rw [exit_of_not_valid hk]
  · obtain ⟨freed, lost, groups, -, he⟩ := exit_spec hx hk
    rw [he]

theorem length_acquired_call {c : Call} {res : Response} (hinv : Inv s) (hx : s.objects x = some r)
    (hc : s.call x r c = some (s', res)) : s.acquired.length ≤ s'.acquired.length := by
  have hof : ∀ {s' : Objects} (l : List Resource), s'.acquired = s.acquired ++ l →
      s.acquired.length ≤ s'.acquired.length := by
    intro s' l he
    have hlen := congrArg List.length he
    rw [List.length_append] at hlen
    omega
  have hexit := acquired_exit hx
  rcases call_cases hinv hx hc with ⟨entries, b, incConsume, err, res₁, -, hreg, -⟩ |
    ⟨b, -, rfl, -⟩ | ⟨b, -, rfl, -⟩ | ⟨i, ec, -, hx', rfl, -⟩ | ⟨-, rfl, -⟩
  · rcases registerBufferGroup_cases hreg with rfl | ⟨k, br, hbr, -, -, rfl⟩
    · exact Nat.le_refl _
    · exact hof _ rfl
  · refine hof [] ?_
    rcases unregisterBufferGroup_cases s x r b with he | ⟨br, -, he⟩
    · rw [he, List.append_nil]
    · rw [he, List.append_nil]
      rcases freeBufRing_cases s br with ⟨g, -, -, hf⟩ | ⟨-, hf⟩
      · rw [hf]
      · rw [hf]
  · exact Nat.le_refl _
  · rcases doInit_cases hx' rfl i with ⟨-, he⟩ | ⟨-, he⟩ | ⟨-, he⟩
    · exact hof [] (by rw [he, hexit, List.append_nil])
    · refine hof [.ring (s.exit x r).acquired.length] ?_
      rw [he, acquired_exit (objects_opened ..), opened, hexit]
    · exact hof _ (by rw [he, hexit])
  · exact hof [] (by rw [hexit, List.append_nil])

theorem bufRing_of_group {g : BufferGroup} (hg : h.group = some g) (hring : g.ring = x)
    (s : Objects) : bufRing s h.group = (s.slot x g.bgid).map BufferRing.bufRing := by
  rw [hg, bufRing_some, hring]

/-- **What a call does to a handle** that was there before. -/
theorem tracks_call {c : Call} {res : Response} (hinv : Inv s) (hx : s.objects x = some r)
    (hc : s.call x r c = some (s', res)) (h : Tracks x s hd) : Tracks x s' (hd.after c) := by
  have hlen := length_acquired_call hinv hx hc
  refine ⟨fun g (hg : hd.group = some g) => ?_, fun g (hg : hd.group = some g) hend => ?_,
    fun g (hg : hd.group = some g) hend => ?_⟩
  · obtain ⟨hring, o, ho, hlt⟩ := h.origin g hg
    exact ⟨hring, o, ho, by omega⟩
  · rw [ended_after_iff, not_or] at hend
    obtain ⟨hring, o, ho, -⟩ := h.origin g hg
    have hlive := h.live g hg hend.1
    rw [bufRing_of_group hg hring] at hlive
    change bufRing s' hd.group = hd.origin
    rw [bufRing_of_group hg hring]
    rcases slot_call hinv hx hc g.bgid with ⟨br, _, -, hnone, -⟩ | ⟨-, hends, -⟩ | ⟨-, hslot⟩
    · rw [hnone, ho] at hlive
      cases hlive
    · exact absurd hends hend.2
    · rw [hslot]
      exact hlive
  · obtain ⟨hring, o, ho, hlt⟩ := h.origin g hg
    change bufRing s' hd.group ≠ hd.origin
    rw [bufRing_of_group hg hring]
    rcases slot_call hinv hx hc g.bgid with ⟨br, _, -, -, hslot, hnum, -⟩ | ⟨-, -, hslot⟩ |
      ⟨hspares, hslot⟩
    · -- the new buffer ring has a new number
      rw [hslot, Option.map_some, hnum, ho]
      intro heq
      have := Option.some.inj heq
      omega
    · rw [hslot, ho]
      exact nofun
    · have hspared : c.ends g.bgid = false := hspares.2
      have hends : hd.Ended g := by
        refine (ended_after_iff.mp hend).resolve_right fun hends => ?_
        rw [hends] at hspared
        cases hspared
      have hne := h.ended g hg hends
      rw [bufRing_of_group hg hring] at hne
      rw [hslot]
      exact hne

theorem tracks_new (hinv : Inv s) {bgid : UInt16} {br : BufferRing}
    (hslot : s.slot x bgid = some br) :
    Tracks x s ⟨some ⟨x, bgid⟩, bufRing s (some ⟨x, bgid⟩), []⟩ := by
  have hnot : ∀ g, ¬ (⟨some ⟨x, bgid⟩, bufRing s (some ⟨x, bgid⟩), []⟩ : Handle).Ended g := by
    rintro g ⟨c, hmem, -⟩
    cases hmem
  refine ⟨fun g hg => ?_, fun g _ _ => rfl, fun g _ hend => absurd hend (hnot g)⟩
  obtain rfl := Option.some.inj hg
  refine ⟨rfl, br.bufRing, ?_, (of_slot hinv hslot).1⟩
  rw [bufRing_some, hslot]
  rfl

/-- **What is known about a handle that a call returns.** -/
theorem tracks_obtained {c : Call} {res : Response} (hinv : Inv s) (hx : s.objects x = some r)
    (hc : s.call x r c = some (s', res)) : ∀ hd ∈ obtained s' res, Tracks x s' hd := by
  intro hd hmem
  obtain ⟨hinv', -⟩ := inv_call hinv hx hc
  rcases call_cases hinv hx hc with ⟨entries, b, incConsume, err, res₁, -, hreg, rfl⟩ |
    ⟨b, -, rfl, rfl⟩ | ⟨b, -, rfl, rfl⟩ | ⟨i, ec, -, -, -, rfl⟩ | ⟨-, -, rfl⟩
  · rcases registerBufferGroup_spec hx hreg with ⟨br, -, -, rfl⟩ | ⟨-, -, -, rfl⟩ |
      ⟨-, -, rfl, -, k, hslot⟩
    · cases hmem
    · cases hmem
    · rw [List.mem_singleton.mp hmem]
      exact tracks_new hinv' ((hslot b).trans (if_pos rfl))
  · cases hmem
  · rw [List.mem_singleton.mp hmem]
    unfold findBufferGroup
    rcases hfind : r.bufferRings.find? b with _ | br
    · exact ⟨fun g hg => (by cases hg), fun g hg => (by cases hg), fun g hg => (by cases hg)⟩
    · exact tracks_new hinv ((slot_eq hx b).trans hfind)
  · cases hmem
  · cases hmem

/-! ### Runs -/

/-- **The invariant.** -/
structure Known (x : Addr) (st : Holding) : Prop where
  inv : Inv st.objects
  ring : ∃ r, st.objects.objects x = some r
  handles : ∀ h ∈ st.handles, Tracks x st.objects h
  writesOwn : WritesOwn st

variable {st st' : Holding}

theorem known_start (x : Addr) : Known x (start x) where
  inv := (Session.tracks_start x).inv
  ring := (Session.tracks_start x).ring
  handles := fun h hmem => by cases hmem
  writesOwn := fun w hmem => by cases hmem

theorem write_own (hinv : Inv st.objects) (h : Tracks x st.objects hd) {g : BufferGroup}
    (hg : hd.group = some g) (hend : ¬ hd.Ended g) :
    (write st.objects hd).target.isSome = true ∧
      (write st.objects hd).target = (write st.objects hd).origin ∧
      (write st.objects hd).registered = true := by
  obtain ⟨hring, o, ho, -⟩ := h.origin g hg
  have hlive := h.live g hg hend
  have htarget : bufRing st.objects hd.group = some o := hlive.trans ho
  refine ⟨Option.isSome_of_eq_some htarget, hlive, ?_⟩
  rw [bufRing_of_group hg hring] at htarget
  obtain ⟨br, hslot, rfl⟩ := Option.map_eq_some_iff.mp htarget
  obtain ⟨-, hopen⟩ := of_slot hinv hslot
  unfold write
  rw [bufRing_of_group hg hring, hslot]
  simpa using hopen

theorem use_eq_some {i : ℕ} {writes : Bool} (hs : st.use i writes = some st') :
    ∃ h g, st.handles[i]? = some h ∧ h.group = some g ∧ st' =
      if writes then { st with writes := st.writes ++ [write st.objects h] } else st := by
  obtain ⟨h, hget, hs⟩ := Option.bind_eq_some_iff.mp hs
  rcases htest : h.test with _ | _
  · rw [htest] at hs
    cases hs
  · rw [htest] at hs
    obtain ⟨g, hg⟩ := Option.isSome_iff_exists.mp htest
    exact ⟨h, g, hget, hg, (Option.some.inj hs).symm⟩

theorem known_use {i : ℕ} {writes : Bool} (h : Known x st)
    (hC : writes = true → ∀ h g, st.handles[i]? = some h → h.group = some g → ¬ h.Ended g)
    (hs : st.use i writes = some st') : Known x st' := by
  obtain ⟨hd, g, hget, hg, rfl⟩ := use_eq_some hs
  rcases writes with _ | _
  · exact h
  · refine ⟨h.inv, h.ring, h.handles, fun w hmem => ?_⟩
    rcases List.mem_append.mp hmem with hmem | hmem
    · exact h.writesOwn w hmem
    · rw [List.mem_singleton.mp hmem]
      exact write_own h.inv (h.handles hd (List.mem_of_getElem? hget)) hg (hC rfl hd g hget hg)

theorem known_step (e : Event) (h : Known x st) (hC : UsedInTime st e)
    (hs : step x st e = some st') : Known x st' := by
  cases e with
  | call c =>
    obtain ⟨r, hx, hs⟩ := Option.bind_eq_some_iff.mp hs
    obtain ⟨⟨s, res⟩, hc, hs⟩ := Option.bind_eq_some_iff.mp hs
    obtain rfl := Option.some.inj hs
    obtain ⟨hinv, hring⟩ := inv_call h.inv hx hc
    refine ⟨hinv, hring, fun hd hmem => ?_, h.writesOwn⟩
    rcases List.mem_append.mp hmem with hmem | hmem
    · obtain ⟨hd', hmem', rfl⟩ := List.mem_map.mp hmem
      exact tracks_call h.inv hx hc (h.handles hd' hmem')
    · exact tracks_obtained h.inv hx hc hd hmem
  | copy i =>
    obtain ⟨hd, hget, hs⟩ := Option.bind_eq_some_iff.mp hs
    obtain rfl := Option.some.inj hs
    refine ⟨h.inv, h.ring, fun hd' hmem => ?_, h.writesOwn⟩
    rcases List.mem_append.mp hmem with hmem | hmem
    · exact h.handles hd' hmem
    · rw [List.mem_singleton.mp hmem]
      exact h.handles hd (List.mem_of_getElem? hget)
  | insert i => exact known_use h (fun _ => hC) hs
  | insertRange i allocated =>
    refine known_use h (fun hw => ?_) hs
    subst hw
    exact hC

theorem not_ended_of_writesOwn {i : ℕ} (h : Known x st) (hs : st.use i true = some st')
    (hP : WritesOwn st') : ∀ h g, st.handles[i]? = some h → h.group = some g → ¬ h.Ended g := by
  obtain ⟨hd, g, hget, hg, rfl⟩ := use_eq_some hs
  intro hd' g' hget' hg' hend
  obtain rfl := Option.some.inj (hget.symm.trans hget')
  have hwrite := hP (write st.objects hd) (List.mem_append_right _ (List.mem_singleton_self _))
  exact (h.handles hd (List.mem_of_getElem? hget)).ended g' hg' hend hwrite.2.1

theorem usedInTime_of_writesOwn (e : Event) (h : Known x st) (hs : step x st e = some st')
    (hP : WritesOwn st') : UsedInTime st e := by
  cases e with
  | call c => trivial
  | copy i => trivial
  | insert i => exact not_ended_of_writesOwn h hs hP
  | insertRange i allocated =>
    rcases allocated with _ | _
    · trivial
    · exact not_ended_of_writesOwn h hs hP

/-- **When a handle writes to its own registration.** In every run of calls on a ring, copies of handles
and inserts on handles that test true, every write goes to a buffer ring that is registered and that its
handle was obtained for, in every state reached, exactly when every handle is written through before a
call ends this registration. -/
theorem writesOwn_iff (x : Addr) {es : List Event} (hrun : run (step x) (start x) es = some st) :
    AlwaysHolds (step x) WritesOwn (start x) es ↔ EveryStep (step x) UsedInTime (start x) es :=
  alwaysHolds_iff (fun _ e _ h hC hs => known_step e h hC hs) (fun _ h => h.writesOwn)
    (fun _ e _ h hs hP => usedInTime_of_writesOwn e h hs hP) (known_start x) hrun

/-- A copy of a handle is written through while its group is registered, and used afterwards by an
`insert_range` that fails. -/
def copiedRun : List Event := [.call (.reinit ⟨0, true⟩), .call (.registerBufferGroup 8 1 false 0),
  .copy 0, .insert 1, .call (.unregisterBufferGroup 1), .insertRange 0 false]

theorem writesOwn_iff_copied : AlwaysHolds (step 0) WritesOwn (start 0) copiedRun := by
  refine (writesOwn_iff 0 rfl : _ ↔ EveryStep (step 0) UsedInTime (start 0) copiedRun).mpr ?_
  refine everyStep_of_cons trivial fun t ht => ?_
  obtain rfl := Option.some.inj ht
  refine everyStep_of_cons trivial fun t ht => ?_
  obtain rfl := Option.some.inj ht
  refine everyStep_of_cons trivial fun t ht => ?_
  obtain rfl := Option.some.inj ht
  refine everyStep_of_cons (fun h g hget _ => ?_) fun t _ => ?_
  · obtain rfl := Option.some.inj hget
    rintro ⟨c, hmem, -⟩
    cases hmem
  · refine everyStep_of_cons trivial fun t _ => ?_
    exact everyStep_of_cons trivial fun t _ => everyStep_nil t

/-- **A handle is used after its group was unregistered**: it still tests true, and the slot has a null
pointer. -/
theorem not_writesOwn_unregistered :
    ¬ ∀ (es : List Event) (st : Holding), run (step 0) (start 0) es = some st → WritesOwn st := by
  intro h
  have hwrites := h [.call (.reinit ⟨0, true⟩), .call (.registerBufferGroup 8 1 false 0),
    .call (.unregisterBufferGroup 1), .insert 0] _ rfl ⟨some 2, none, false⟩
    (List.mem_singleton_self _)
  exact absurd hwrites.1 (by decide)

end Holding

end Objects

end Iouxx.Ring
