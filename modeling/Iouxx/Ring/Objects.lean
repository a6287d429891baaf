import Iouxx.Utility
import Mathlib.Data.List.Nodup
import Mathlib.Logic.Function.Basic

/-!
# Ring objects (`iouringxx.hpp`, `ring`)

A `ring` owns a kernel ring, its probe and a table of buffer rings. A slot of the table keeps a
pointer to the `raw_ring` member of the object, and it is against what this member holds at the time
that the destructor of the slot frees the buffer ring. `io_uring_free_buf_ring` unregisters the group
first: where this kernel ring has no such group it returns an error, which the destructor drops, and
leaves the buffer ring mapped.

Kernel rings, probes and buffer rings are numbered in the order they are acquired. What a buffer
ring was registered on and the lists of what was acquired, released, leaked and freed are not in the
source, and nothing the source computes depends on them.

* `freeBufRing_cases`: a buffer ring is released or leaks;
* `exit_spec`: what `exit` does to a ring that is valid;
* `Kept.step`: what an event keeps, from what the operations keep.
-/

namespace Iouxx.Ring

open Iouxx.Cpp.Error Iouxx.Utility

/-- The address of a ring object. -/
abbrev Addr := ℕ

/-- What liburing hands out. -/
inductive Resource
  | ring (k : ℕ)
  | probe (p : ℕ)
  | bufRing (b : ℕ)
  deriving DecidableEq, Repr

def Resource.number : Resource → ℕ
  | ring k => k
  | probe p => p
  | bufRing b => b

/-! ### The table of buffer rings -/

/-- A live `buffer_ring`. -/
structure BufferRing where
  rawRing : Addr
  bufRing : ℕ
  entries : UInt32
  bgid : UInt16
  -- the history
  registeredOn : ℕ
  flags : UInt32
  deriving DecidableEq, Repr

/-- `buffer_rings`: the live slots of the 65536, which the group id finds. -/
structure BufferRings where
  live : List BufferRing
  nodup : (live.map BufferRing.bgid).Nodup

namespace BufferRings

/-- All slots are empty. -/
def empty : BufferRings := ⟨[], List.nodup_nil⟩

/-- The slot `buffer_rings[bgid]`, where it is live. -/
def find? (t : BufferRings) (bgid : UInt16) : Option BufferRing :=
  t.live.find? fun br => br.bgid == bgid

theorem find?_eq_none_iff {t : BufferRings} {bgid : UInt16} :
    t.find? bgid = none ↔ bgid ∉ t.live.map BufferRing.bgid := by
  unfold find?
  simp [List.find?_eq_none]

/-- An empty slot gets a buffer ring. -/
def insert (t : BufferRings) (br : BufferRing) (h : t.find? br.bgid = none) : BufferRings :=
  ⟨br :: t.live, List.nodup_cons.mpr ⟨find?_eq_none_iff.mp h, t.nodup⟩⟩

/-- The slot of a buffer ring gets empty. -/
def erase (t : BufferRings) (br : BufferRing) : BufferRings :=
  ⟨t.live.erase br, t.nodup.sublist (List.erase_sublist.map _)⟩

theorem mem_of_find? {t : BufferRings} {bgid : UInt16} {br : BufferRing}
    (h : t.find? bgid = some br) : br ∈ t.live := List.mem_of_find?_eq_some h

variable {t : BufferRings} {bgid : UInt16} {br br' : BufferRing}

theorem eq_of_bgid (h : br ∈ t.live) (h' : br' ∈ t.live) (hb : br.bgid = br'.bgid) : br = br' :=
  List.inj_on_of_nodup_map t.nodup h h' hb

theorem find?_eq_some_iff : t.find? bgid = some br ↔ br ∈ t.live ∧ br.bgid = bgid := by
  refine ⟨fun h => ⟨mem_of_find? h, by simpa using List.find?_some h⟩, ?_⟩
  rintro ⟨hmem, rfl⟩
  rcases hfind : t.find? br.bgid with _ | br'
  · exact absurd (List.mem_map_of_mem hmem) (find?_eq_none_iff.mp hfind)
  · have hb : br'.bgid = br.bgid := by simpa using List.find?_some hfind
    rw [eq_of_bgid (mem_of_find? hfind) hmem hb]

theorem find?_insert (h : t.find? br.bgid = none) (bgid : UInt16) :
    (t.insert br h).find? bgid = if br.bgid = bgid then some br else t.find? bgid := by
  unfold find? insert
  rw [List.find?_cons]
  by_cases hb : br.bgid = bgid
  · rw [if_pos hb, beq_iff_eq.mpr hb]
  · rw [if_neg hb, beq_eq_false_iff_ne.mpr hb]

theorem find?_erase (h : t.find? bgid = some br) (bgid' : UInt16) :
    (t.erase br).find? bgid' = if bgid = bgid' then none else t.find? bgid' := by
  obtain ⟨hmem, rfl⟩ := find?_eq_some_iff.mp h
  have hnodup : t.live.Nodup := List.Nodup.of_map _ t.nodup
  refine Option.ext fun a => ?_
  rw [find?_eq_some_iff]
  change a ∈ t.live.erase br ∧ _ ↔ _
  rw [hnodup.mem_erase_iff]
  by_cases hb : br.bgid = bgid'
  · rw [if_pos hb]
    refine iff_of_false (fun ⟨⟨hne, ha⟩, hab⟩ => hne ?_) nofun
    exact eq_of_bgid ha hmem (hab.trans hb.symm)
  · rw [if_neg hb, find?_eq_some_iff]
    refine ⟨fun ⟨⟨_, ha⟩, hab⟩ => ⟨ha, hab⟩, fun ⟨ha, hab⟩ => ⟨⟨?_, ha⟩, hab⟩⟩
    rintro rfl
    exact hb hab

end BufferRings

/-! ### Objects -/

/-- A `ring` object; `rawRing` is `none` for `invalid_ring()`. -/
structure RingObject where
  rawRing : Option ℕ
  probe : Option ℕ
  bufferRings : BufferRings

/-- `ring()`. -/
def RingObject.default : RingObject := ⟨none, none, .empty⟩

/-- `ring::valid`. -/
def RingObject.valid (r : RingObject) : Bool := r.rawRing.isSome

/-- What an object owns. -/
def RingObject.held (r : RingObject) : List Resource :=
  r.probe.toList.map .probe ++ (r.bufferRings.live.map fun br => .bufRing br.bufRing) ++
    r.rawRing.toList.map .ring

/-- `buffer_group`: the slot it points to. -/
structure BufferGroup where
  ring : Addr
  bgid : UInt16
  deriving DecidableEq, Repr

/-- A call of `io_uring_free_buf_ring`: the kernel ring of the buffer ring, the one the call is made
for, and whether the former was open. -/
structure Free where
  registeredOn : ℕ
  against : Option ℕ
  ringOpen : Bool
  deriving DecidableEq, Repr

/-- The ring objects of a process. -/
structure Objects where
  objects : Addr → Option RingObject
  /-- The groups that are registered in the kernel, each with its kernel ring. -/
  groups : List (ℕ × UInt16)
  -- the history
  acquired : List Resource
  released : List Resource
  leaked : List Resource
  frees : List Free

namespace Objects

/-- No object, and nothing acquired. -/
def init : Objects := ⟨fun _ => none, [], [], [], [], []⟩

def set (s : Objects) (x : Addr) (r : Option RingObject) : Objects :=
  { s with objects := Function.update s.objects x r }

/-- What the pointer to the `raw_ring` of an object finds. -/
def rawRing (s : Objects) (x : Addr) : Option ℕ := (s.objects x).bind RingObject.rawRing

/-- `probe.reset(p)`. -/
def resetProbe (s : Objects) (x : Addr) (r : RingObject) (p : Option ℕ) : Objects :=
  { s.set x (some { r with probe := p }) with
    released := s.released ++ r.probe.toList.map .probe }

/-- The call of `io_uring_free_buf_ring` for a buffer ring. -/
def free (s : Objects) (br : BufferRing) : Free :=
  ⟨br.registeredOn, s.rawRing br.rawRing, decide (.ring br.registeredOn ∉ s.released)⟩

/-- The group that the call unregisters; `none` where there is no kernel ring or it has no such group. -/
def unregisters (s : Objects) (br : BufferRing) : Option (ℕ × UInt16) :=
  ((s.rawRing br.rawRing).map fun k => (k, br.bgid)).filter (· ∈ s.groups)

/-- `~buffer_ring`. -/
def freeBufRing (s : Objects) (br : BufferRing) : Objects :=
  match s.unregisters br with
  | some g => { s with
      groups := s.groups.filter (· ≠ g)
      released := s.released ++ [.bufRing br.bufRing]
      frees := s.frees ++ [s.free br] }
  | none => { s with
      leaked := s.leaked ++ [.bufRing br.bufRing]
      frees := s.frees ++ [s.free br] }

/-- `buffer_rings.clear()`, which frees the live slots, and `buffer_rings.resize(..)`. -/
def clearBufferRings (s : Objects) (x : Addr) (r : RingObject) : Objects :=
  (r.bufferRings.live.foldl freeBufRing s).set x (some { r with bufferRings := .empty })

/-- `io_uring_queue_exit`, which ends the registrations of the kernel ring, and
`raw_ring = invalid_ring()`. -/
def queueExit (s : Objects) (x : Addr) (r : RingObject) : Objects :=
  { s.set x (some { r with rawRing := none }) with
    groups := s.groups.filter fun g => r.rawRing ≠ some g.1
    released := s.released ++ r.rawRing.toList.map .ring }

/-- `ring::exit`. The operations in flight that `stop` cancels are no part of the state. -/
def exit (s : Objects) (x : Addr) (r : RingObject) : Objects :=
  if r.valid then
    let s := s.resetProbe x r none
    let r := { r with probe := none }
    let s := s.clearBufferRings x r
    let r := { r with bufferRings := .empty }
    s.queueExit x r
  else s

/-- What liburing returns to `do_init`: the value of `io_uring_queue_init_params`, and whether
`io_uring_get_probe_ring` returns a probe. -/
structure Init where
  ev : ℤ
  probe : Bool
  deriving DecidableEq, Repr

/-- `ring::do_init`, for a ring that is not valid. -/
def doInit (s : Objects) (x : Addr) (r : RingObject) (i : Init) : Objects × ErrorCode :=
  if i.ev < 0 then (s.set x (some { r with rawRing := none }), makeSystemErrorCode (-i.ev))
  else
    let k := s.acquired.length
    let r := { r with rawRing := some k }
    let s := { s.set x (some r) with acquired := s.acquired ++ [Resource.ring k] }
    if i.probe then
      let p := s.acquired.length
      let s : Objects := { s with acquired := s.acquired ++ [Resource.probe p] }
      (s.resetProbe x r (some p), .none)
    else (s.exit x r, makeErrorCode .notEnoughMemory)

/-- The destructors of the members, the last one first. -/
def destroyMembers (s : Objects) (x : Addr) (r : RingObject) : Objects :=
  let s := r.bufferRings.live.foldl freeBufRing s
  { s.set x none with released := s.released ++ r.probe.toList.map .probe }

/-- `IOU_PBUF_RING_INC`. -/
def iouPbufRingInc : UInt32 := 2

/-- `ring::register_buffer_group`, where `io_uring_setup_buf_ring` sets `err`; without a kernel ring, or
where this has such a group, there is no success. -/
def registerBufferGroup (s : Objects) (x : Addr) (r : RingObject) (entries bgid : UInt16)
    (incConsume : Bool) (err : ℤ) : Option (Objects × Except ErrorCode BufferGroup) :=
  match h : r.bufferRings.find? bgid with
  | some _ => some (s, failErrc .fileExists)
  | none =>
    if err < 0 then some (s, fail (-err))
    else do
      let k ← r.rawRing
      if (k, bgid) ∈ s.groups then none
      else
        let b := s.acquired.length
        let flags := if incConsume then 0 else iouPbufRingInc
        let br := ⟨x, b, entries.toUInt32, bgid, k, flags⟩
        let r := { r with bufferRings := r.bufferRings.insert br h }
        some ({ s.set x (some r) with
          groups := (k, bgid) :: s.groups
          acquired := s.acquired ++ [Resource.bufRing b] }, .ok ⟨x, bgid⟩)

/-- `ring::unregister_buffer_group`. -/
def unregisterBufferGroup (s : Objects) (x : Addr) (r : RingObject) (bgid : UInt16) : Objects :=
  match r.bufferRings.find? bgid with
  | some br =>
    (s.freeBufRing br).set x (some { r with bufferRings := r.bufferRings.erase br })
  | none => s

/-- `ring::find_buffer_group`; `none` is `buffer_group{}`. -/
def findBufferGroup (x : Addr) (r : RingObject) (bgid : UInt16) : Option BufferGroup :=
  (r.bufferRings.find? bgid).map fun _ => ⟨x, bgid⟩

/-- `ring::swap`: only the raw rings are swapped. -/
def swap (s : Objects) (x : Addr) (r : RingObject) (y : Addr) (q : RingObject) : Objects :=
  (s.set x (some { r with rawRing := q.rawRing })).set y (some { q with rawRing := r.rawRing })

/-! ### Runs -/

/-- What happens to ring objects. -/
inductive Event
  | construct (x : Addr)
  | constructInit (x : Addr) (i : Init)
  | reinit (x : Addr) (i : Init)
  | exit (x : Addr)
  | swap (x y : Addr)
  | registerBufferGroup (x : Addr) (entries bgid : UInt16) (incConsume : Bool) (err : ℤ)
  | unregisterBufferGroup (x : Addr) (bgid : UInt16)
  | destroy (x : Addr)
  deriving DecidableEq, Repr

/-- The ring at an address, a new one where there is none. -/
def construct (s : Objects) (x : Addr) : Option Objects :=
  if (s.objects x).isSome then none else some (s.set x (some .default))

/-- **One event.** -/
def step (s : Objects) : Event → Option Objects
  | .construct x => s.construct x
  | .constructInit x i => do
    let s ← s.construct x
    let (s, ec) := s.doInit x .default i
    let r ← s.objects x
    -- the constructor throws
    if ec.isError then some (s.destroyMembers x r) else some s
  | .reinit x i => do
    let r ← s.objects x
    let s := s.exit x r
    let r ← s.objects x
    some (s.doInit x r i).1
  | .exit x => do
    let r ← s.objects x
    some (s.exit x r)
  | .swap x y => do
    let r ← s.objects x
    let q ← s.objects y
    some (s.swap x r y q)
  | .registerBufferGroup x entries bgid incConsume err => do
    let r ← s.objects x
    let (s, _) ← s.registerBufferGroup x r entries bgid incConsume err
    some s
  | .unregisterBufferGroup x bgid => do
    let r ← s.objects x
    some (s.unregisterBufferGroup x r bgid)
  | .destroy x => do
    let r ← s.objects x
    let s := s.exit x r
    let r ← s.objects x
    some (s.destroyMembers x r)

/-! ### What the operations do -/

variable {s : Objects} {x : Addr} {r : RingObject} {k : ℕ}

/-- The buffer rings of slots. -/
def bufRings (l : List BufferRing) : List Resource := l.map fun br => .bufRing br.bufRing

/-- **A buffer ring is released or leaks**, and a registration ends only where it is released. -/
theorem freeBufRing_cases (s : Objects) (br : BufferRing) :
    (∃ g ∈ s.groups, s.unregisters br = some g ∧ s.freeBufRing br = { s with
      groups := s.groups.filter (· ≠ g)
      released := s.released ++ [.bufRing br.bufRing]
      frees := s.frees ++ [s.free br] }) ∨
    (s.unregisters br = none ∧ s.freeBufRing br = { s with
      leaked := s.leaked ++ [.bufRing br.bufRing]
      frees := s.frees ++ [s.free br] }) := by
  unfold freeBufRing
  rcases hg : s.unregisters br with _ | g
  · exact .inr ⟨rfl, rfl⟩
  · exact .inl ⟨g, of_decide_eq_true (Option.filter_eq_some_iff.mp hg).2, rfl, rfl⟩

/-- Freeing one buffer ring makes no difference to how another one is freed. -/
theorem free_freeBufRing (s : Objects) (br : BufferRing) : (s.freeBufRing br).free = s.free := by
  funext br'
  rcases freeBufRing_cases s br with ⟨g, -, -, he⟩ | ⟨-, he⟩
  · rw [he]
    simp [free, rawRing]
  · rw [he]
    rfl

theorem foldl_freeBufRing (s : Objects) (l : List BufferRing) :
    ∃ freed lost groups, (freed ++ lost).Perm l ∧ l.foldl freeBufRing s = { s with
      groups := groups
      released := s.released ++ bufRings freed
      leaked := s.leaked ++ bufRings lost
      frees := s.frees ++ l.map s.free } := by
  induction l generalizing s with
  | nil => exact ⟨[], [], s.groups, List.Perm.refl _, by simp [bufRings]⟩
  | cons br l ih =>
    obtain ⟨freed, lost, groups, hperm, hfold⟩ := ih (s.freeBufRing br)
    rw [List.foldl_cons, hfold, free_freeBufRing]
    rcases freeBufRing_cases s br with ⟨g, -, -, he⟩ | ⟨-, he⟩
    · refine ⟨br :: freed, lost, groups, List.Perm.cons br hperm, ?_⟩
      rw [he]
      simp [bufRings]
    · refine ⟨freed, br :: lost, groups, List.perm_middle.trans (List.Perm.cons br hperm), ?_⟩
      rw [he]
      simp [bufRings]

theorem unregisters_of_registered {br : BufferRing} (hraw : s.rawRing br.rawRing = some k)
    (h : (k, br.bgid) ∈ s.groups) : s.unregisters br = some (k, br.bgid) := by
  unfold unregisters
  rw [hraw, Option.map_some, Option.filter_some, if_pos (decide_eq_true h)]

/-- **Freeing the buffer rings of one kernel ring** releases them. -/
theorem foldl_freeBufRing_of_registered : ∀ (l : List BufferRing) (s : Objects),
    (l.map BufferRing.bgid).Nodup →
    (∀ br ∈ l, s.rawRing br.rawRing = some k ∧ (k, br.bgid) ∈ s.groups) →
    l.foldl freeBufRing s = { s with
      groups := s.groups.filter fun g => ¬ (g.1 = k ∧ g.2 ∈ l.map BufferRing.bgid)
      released := s.released ++ bufRings l
      frees := s.frees ++ l.map s.free }
  | [], s, _, _ => by simp [bufRings]
  | br :: l, s, hnodup, h => by
    rw [List.map_cons, List.nodup_cons] at hnodup
    obtain ⟨hraw, hmem⟩ := h br List.mem_cons_self
    have he : s.freeBufRing br = { s with
        groups := s.groups.filter (· ≠ (k, br.bgid))
        released := s.released ++ [.bufRing br.bufRing]
        frees := s.frees ++ [s.free br] } := by
      unfold freeBufRing
      rw [unregisters_of_registered hraw hmem]
    rw [List.foldl_cons, foldl_freeBufRing_of_registered l _ hnodup.2, free_freeBufRing, he]
    · have hgroups : ∀ g : ℕ × UInt16, (decide (¬ (g.1 = k ∧ g.2 ∈ l.map BufferRing.bgid)) &&
          decide (g ≠ (k, br.bgid))) =
          decide (¬ (g.1 = k ∧ g.2 ∈ (br :: l).map BufferRing.bgid)) := by
        rintro ⟨k', b⟩
        rw [Bool.eq_iff_iff]
        simp only [Bool.and_eq_true, decide_eq_true_eq, List.map_cons, List.mem_cons, Prod.mk.injEq,
          ne_eq]
        tauto
      simp only [List.filter_filter, hgroups]
      simp [bufRings]
    · intro br' hbr'
      obtain ⟨hraw', hmem'⟩ := h br' (List.mem_cons_of_mem br hbr')
      rw [he]
      refine ⟨hraw', List.mem_filter.mpr ⟨hmem', decide_eq_true fun heq => hnodup.1 ?_⟩⟩
      rw [← (Prod.mk.inj heq).2]
      exact List.mem_map_of_mem hbr'

theorem rawRing_resetProbe (hx : s.objects x = some r) (p : Option ℕ) :
    (s.resetProbe x r p).rawRing = s.rawRing := by
  funext y
  unfold rawRing resetProbe set
  by_cases hy : y = x
  · rw [hy, hx]; simp
  · simp [hy]

theorem free_resetProbe (hx : s.objects x = some r) (p : Option ℕ) :
    (s.resetProbe x r p).free = s.free := by
  funext br
  unfold free
  rw [rawRing_resetProbe hx]
  simp [resetProbe, set]

/-- **`exit` of a valid ring** releases all it has, but for the buffer rings that leak. -/
theorem exit_spec (hx : s.objects x = some r) (hk : r.valid = true) :
    ∃ freed lost groups, (freed ++ lost).Perm r.bufferRings.live ∧ s.exit x r = { s with
      objects := Function.update s.objects x (some .default)
      groups := groups
      released := s.released ++ (r.probe.toList.map .probe ++ bufRings freed ++
        r.rawRing.toList.map .ring)
      leaked := s.leaked ++ bufRings lost
      frees := s.frees ++ r.bufferRings.live.map s.free } := by
  obtain ⟨freed, lost, groups, hperm, hfold⟩ :=
    foldl_freeBufRing (s.resetProbe x r none) r.bufferRings.live
  refine ⟨freed, lost, groups.filter fun g => r.rawRing ≠ some g.1, hperm, ?_⟩
  unfold exit
  rw [if_pos hk]
  simp only [clearBufferRings, queueExit, hfold, free_resetProbe hx]
  simp [resetProbe, set, RingObject.default, List.append_assoc]

/-- **`exit` of a valid ring whose groups are registered on its kernel ring** releases all it has. -/
theorem exit_of_registered (hx : s.objects x = some r) (hk : r.rawRing = some k)
    (h : ∀ br ∈ r.bufferRings.live, br.rawRing = x ∧ (k, br.bgid) ∈ s.groups) :
    s.exit x r = { s with
      objects := Function.update s.objects x (some .default)
      groups := s.groups.filter fun g => g.1 ≠ k
      released := s.released ++ r.held
      frees := s.frees ++ r.bufferRings.live.map s.free } := by
  have hraw : s.rawRing x = some k := by
    unfold rawRing
    rw [hx]
    exact hk
  have hfold := foldl_freeBufRing_of_registered (k := k) r.bufferRings.live (s.resetProbe x r none)
    r.bufferRings.nodup fun br hbr => by
      obtain ⟨rfl, hmem⟩ := h br hbr
      rw [rawRing_resetProbe hx]
      exact ⟨hraw, hmem⟩
  unfold exit
  rw [if_pos (by rw [RingObject.valid, hk]; rfl)]
  have hgroups : (s.groups.filter fun g =>
      ¬ (g.1 = k ∧ g.2 ∈ r.bufferRings.live.map BufferRing.bgid)).filter
      (fun g => some k ≠ some g.1) = s.groups.filter fun g => g.1 ≠ k := by
    rw [List.filter_filter]
    refine List.filter_congr fun g _ => ?_
    rw [Bool.eq_iff_iff]
    simp only [Bool.and_eq_true, decide_eq_true_eq, ne_eq, Option.some.injEq]
    constructor
    · exact fun h' heq => h'.1 heq.symm
    · exact fun h' => ⟨fun heq => h' heq.symm, fun h'' => h' h''.1⟩
  simp only [clearBufferRings, queueExit, hfold, free_resetProbe hx, hk]
  rw [Objects.mk.injEq]
  refine ⟨?_, hgroups, rfl, ?_, rfl, rfl⟩
  · simp [resetProbe, set, RingObject.default]
  · simp [resetProbe, set, RingObject.held, bufRings, hk, List.append_assoc]

theorem exit_of_not_valid (hk : r.valid = false) : s.exit x r = s := by
  unfold exit
  rw [hk]; rfl

theorem objects_exit (hx : s.objects x = some r) :
    ∃ r', (s.exit x r).objects x = some r' ∧ r'.valid = false := by
  rcases hk : r.valid with _ | _
  · rw [exit_of_not_valid hk]
    exact ⟨r, hx, hk⟩
  · obtain ⟨freed, lost, groups, -, he⟩ := exit_spec hx hk
    rw [he]
    exact ⟨_, Function.update_self .., rfl⟩

/-- A new kernel ring for an object. -/
def opened (s : Objects) (x : Addr) (r : RingObject) : Objects :=
  { s.set x (some { r with rawRing := some s.acquired.length }) with
    acquired := s.acquired ++ [.ring s.acquired.length] }

theorem objects_opened (s : Objects) (x : Addr) (r : RingObject) :
    (s.opened x r).objects x = some { r with rawRing := some s.acquired.length } :=
  Function.update_self ..

/-- **The cases of `do_init`** for an object without a kernel ring: the queue is not initialised, the
probe is missing and the new kernel ring is closed with all the object has, or a probe takes the place
of the old one. -/
theorem doInit_cases (hx : s.objects x = some r) (hk : r.valid = false) (i : Init) :
    ((s.doInit x r i).2.isError = true ∧ (s.doInit x r i).1 = s) ∨
    ((s.doInit x r i).2.isError = true ∧ (s.doInit x r i).1 =
      (s.opened x r).exit x { r with rawRing := some s.acquired.length }) ∨
    ((s.doInit x r i).2.isError = false ∧ (s.doInit x r i).1 = { s with
      objects := Function.update s.objects x
        (some ⟨some s.acquired.length, some (s.acquired.length + 1), r.bufferRings⟩)
      acquired := s.acquired ++ [.ring s.acquired.length, .probe (s.acquired.length + 1)]
      released := s.released ++ r.probe.toList.map .probe }) := by
  have hraw : r.rawRing = none := by simpa [RingObject.valid] using hk
  unfold doInit
  by_cases hev : i.ev < 0
  · left
    have hself : ({ r with rawRing := none } : RingObject) = r := by rw [← hraw]
    rw [if_pos hev]
    refine ⟨?_, ?_⟩
    · simp [show i.ev ≠ 0 by omega]
    · show s.set x (some { r with rawRing := none }) = s
      rw [hself, set, Function.update_eq_self_iff.mpr hx.symm]
  · right
    rw [if_neg hev]
    rcases hp : i.probe with _ | _
    · left
      exact ⟨isError_makeErrorCode _, rfl⟩
    · right
      refine ⟨rfl, ?_⟩
      simp [resetProbe, set, List.append_assoc]

theorem objects_doInit (hx : s.objects x = some r) (hk : r.valid = false) (i : Init) :
    ∃ r', (s.doInit x r i).1.objects x = some r' ∧
      (r = .default → (s.doInit x r i).2.isError = true → r' = .default) := by
  rcases doInit_cases hx hk i with ⟨-, he⟩ | ⟨-, he⟩ | ⟨hok, he⟩
  · rw [he]
    exact ⟨r, hx, fun hr _ => hr⟩
  · obtain ⟨freed, lost, groups, -, hexit⟩ := exit_spec (objects_opened s x r) rfl
    rw [he, hexit]
    exact ⟨_, Function.update_self .., fun _ _ => rfl⟩
  · rw [hok, he]
    exact ⟨_, Function.update_self .., fun _ hf => by cases hf⟩

theorem destroyMembers_spec (s : Objects) (x : Addr) (r : RingObject) :
    ∃ freed lost groups, (freed ++ lost).Perm r.bufferRings.live ∧ s.destroyMembers x r = { s with
      objects := Function.update s.objects x none
      groups := groups
      released := s.released ++ (bufRings freed ++ r.probe.toList.map .probe)
      leaked := s.leaked ++ bufRings lost
      frees := s.frees ++ r.bufferRings.live.map s.free } := by
  obtain ⟨freed, lost, groups, hperm, hfold⟩ := foldl_freeBufRing s r.bufferRings.live
  refine ⟨freed, lost, groups, hperm, ?_⟩
  unfold destroyMembers
  simp [hfold, set]

theorem destroyMembers_of_live_nil (s : Objects) (x : Addr) (h : r.bufferRings.live = []) :
    s.destroyMembers x r = { s with
      objects := Function.update s.objects x none
      released := s.released ++ r.probe.toList.map .probe } := by
  unfold destroyMembers
  simp [h, set]

/-- **The cases of `register_buffer_group`**: refused with nothing changed, or a slot of the kernel
ring that the object holds. -/
theorem registerBufferGroup_cases {entries bgid : UInt16} {incConsume : Bool} {err : ℤ}
    {s' : Objects} {res : Except ErrorCode BufferGroup}
    (h : s.registerBufferGroup x r entries bgid incConsume err = some (s', res)) :
    s' = s ∨ ∃ k br hbr, r.rawRing = some k ∧
      br = ⟨x, s.acquired.length, entries.toUInt32, bgid, k,
        if incConsume then 0 else iouPbufRingInc⟩ ∧
      s' = { s with
        objects := Function.update s.objects x
          (some { r with bufferRings := r.bufferRings.insert br hbr })
        groups := (k, bgid) :: s.groups
        acquired := s.acquired ++ [.bufRing s.acquired.length] } := by
  unfold registerBufferGroup at h
  split at h
  · left
    exact (congrArg Prod.fst (Option.some.inj h)).symm
  · rename_i hnone
    by_cases herr : err < 0
    · left
      rw [if_pos herr] at h
      exact (congrArg Prod.fst (Option.some.inj h)).symm
    · right
      rw [if_neg herr] at h
      obtain ⟨k, hk, h⟩ := Option.bind_eq_some_iff.mp h
      obtain ⟨-, h⟩ := Option.ite_none_left_eq_some.mp h
      exact ⟨k, _, hnone, hk, rfl, (congrArg Prod.fst (Option.some.inj h)).symm⟩

/-- **The cases of `unregister_buffer_group`**: nothing to do, or a live slot is freed. -/
theorem unregisterBufferGroup_cases (s : Objects) (x : Addr) (r : RingObject) (bgid : UInt16) :
    s.unregisterBufferGroup x r bgid = s ∨ ∃ br ∈ r.bufferRings.live,
      s.unregisterBufferGroup x r bgid = { s.freeBufRing br with
        objects := Function.update s.objects x
          (some { r with bufferRings := r.bufferRings.erase br }) } := by
  unfold unregisterBufferGroup
  rcases hbr : r.bufferRings.find? bgid with _ | br
  · left; rfl
  · right
    refine ⟨br, BufferRings.mem_of_find? hbr, ?_⟩
    have hobjects : (s.freeBufRing br).objects = s.objects := by
      rcases freeBufRing_cases s br with ⟨g, -, -, he⟩ | ⟨-, he⟩
      · rw [he]
      · rw [he]
    simp only [set, hobjects]

theorem construct_eq_some_iff {s s' : Objects} :
    s.construct x = some s' ↔ s.objects x = none ∧ s' = s.set x (some .default) := by
  unfold construct
  rw [Option.ite_none_left_eq_some, Option.some.injEq, Option.not_isSome_iff_eq_none]
  exact and_congr_right fun _ => eq_comm

/-! ### Invariants -/

/-- What the operations keep, a `swap` under a condition. -/
structure Kept (I : Objects → Prop) (C : Objects → Addr → Addr → Prop) : Prop where
  construct : ∀ {s x}, I s → s.objects x = none → I (s.set x (some .default))
  exit : ∀ {s x r}, I s → s.objects x = some r → I (s.exit x r)
  doInit : ∀ {s x r} i, I s → s.objects x = some r → r.valid = false → I (s.doInit x r i).1
  destroyMembers : ∀ {s x r}, I s → s.objects x = some r → r.valid = false →
    I (s.destroyMembers x r)
  registerBufferGroup : ∀ {s x r entries bgid incConsume err s' res}, I s → s.objects x = some r →
    s.registerBufferGroup x r entries bgid incConsume err = some (s', res) → I s'
  unregisterBufferGroup : ∀ {s x r} bgid, I s → s.objects x = some r →
    I (s.unregisterBufferGroup x r bgid)
  swap : ∀ {s x r y q}, I s → s.objects x = some r → s.objects y = some q → C s x y →
    I (s.swap x r y q)

/-- The condition of a `swap` as one of an event. -/
def AtSwaps (C : Objects → Addr → Addr → Prop) (s : Objects) : Event → Prop
  | .swap x y => C s x y
  | _ => True

theorem of_bind_eq_some {α β : Type} {o : Option α} {f : α → Option β} {a : α} {b : β}
    (ho : o = some a) (h : (o >>= f) = some b) : f a = some b := by
  rw [ho] at h
  exact h

/-- **One event** keeps what the operations keep. -/
theorem Kept.step {I : Objects → Prop} {C : Objects → Addr → Addr → Prop} (hI : Kept I C)
    (s : Objects) (e : Event) (s' : Objects) (h : I s) (hC : AtSwaps C s e)
    (hs : s.step e = some s') : I s' := by
  rcases e with x | ⟨x, i⟩ | ⟨x, i⟩ | x | ⟨x, y⟩ | ⟨x, entries, bgid, inc, err⟩ | ⟨x, bgid⟩ | x
  · obtain ⟨hx, rfl⟩ := construct_eq_some_iff.mp hs
    exact hI.construct h hx
  · obtain ⟨t, ht, hs⟩ := Option.bind_eq_some_iff.mp hs
    obtain ⟨hx, rfl⟩ := construct_eq_some_iff.mp ht
    have hnew : (s.set x (some .default)).objects x = some .default := Function.update_self ..
    have hinit := hI.doInit i (hI.construct h hx) hnew rfl
    obtain ⟨r, hr, hfail⟩ := objects_doInit hnew rfl i
    rcases hd : (s.set x (some .default)).doInit x .default i with ⟨u, ec⟩
    rw [hd] at hinit hr hfail
    simp only [hd] at hs
    have hs := of_bind_eq_some hr hs
    by_cases hec : ec.isError = true
    · -- the constructor throws
      rw [if_pos hec] at hs
      obtain rfl := hfail rfl hec
      exact Option.some.inj hs ▸ hI.destroyMembers hinit hr rfl
    · rw [if_neg hec] at hs
      exact Option.some.inj hs ▸ hinit
  · obtain ⟨r, hx, hs⟩ := Option.bind_eq_some_iff.mp hs
    obtain ⟨r', hr', hk⟩ := objects_exit hx
    have hs := of_bind_eq_some hr' hs
    exact Option.some.inj hs ▸ hI.doInit i (hI.exit h hx) hr' hk
  · obtain ⟨r, hx, hs⟩ := Option.bind_eq_some_iff.mp hs
    exact Option.some.inj hs ▸ hI.exit h hx
  · obtain ⟨r, hx, hs⟩ := Option.bind_eq_some_iff.mp hs
    obtain ⟨q, hy, hs⟩ := Option.bind_eq_some_iff.mp hs
    exact Option.some.inj hs ▸ hI.swap h hx hy hC
  · obtain ⟨r, hx, hs⟩ := Option.bind_eq_some_iff.mp hs
    obtain ⟨⟨t, res⟩, ht, hs⟩ := Option.bind_eq_some_iff.mp hs
    exact Option.some.inj hs ▸ hI.registerBufferGroup h hx ht
  · obtain ⟨r, hx, hs⟩ := Option.bind_eq_some_iff.mp hs
    exact Option.some.inj hs ▸ hI.unregisterBufferGroup bgid h hx
  · obtain ⟨r, hx, hs⟩ := Option.bind_eq_some_iff.mp hs
    obtain ⟨r', hr', hk⟩ := objects_exit hx
    have hs := of_bind_eq_some hr' hs
    exact Option.some.inj hs ▸ hI.destroyMembers (hI.exit h hx) hr' hk

end Objects

end Iouxx.Ring
