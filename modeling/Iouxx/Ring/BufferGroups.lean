import Iouxx.Lib.KeyedLog
import Iouxx.Ring.Lifetime

/-!
# The table of buffer groups

Registering and unregistering buffer groups on one ring makes a finite map from group ids: what the
calls so far say about it is read off their log, and the table has the same groups.

* `slot_call`: what a call does to the slots;
* `refines_step`: every call keeps the table and the log together;
* `refines_iff`: **in every run the table refines the map with the mode turned round, and with the
  mode that the callers asked for only as long as nothing is registered**.
-/

namespace Iouxx.Ring

open Iouxx.Cpp.Error Iouxx.Lib.KeyedLog Iouxx.Lib.Trace Iouxx.Utility

namespace Objects

/-! ### Calls -/

/-- A call on a ring, with what liburing returns to it. -/
inductive Call
  | registerBufferGroup (entries bgid : UInt16) (incConsume : Bool) (err : ℤ)
  | unregisterBufferGroup (bgid : UInt16)
  | findBufferGroup (bgid : UInt16)
  | reinit (i : Init)
  | exit
  deriving DecidableEq, Repr

/-- What a call returns. -/
inductive Response
  | registered (res : Except ErrorCode BufferGroup)
  | found (g : Option BufferGroup)
  | initialized (ec : ErrorCode)
  | done

/-- **One call** on the ring at an address. -/
def call (s : Objects) (x : Addr) (r : RingObject) : Call → Option (Objects × Response)
  | .registerBufferGroup entries bgid incConsume err => do
    let (s, res) ← s.registerBufferGroup x r entries bgid incConsume err
    some (s, .registered res)
  | .unregisterBufferGroup bgid => some (s.unregisterBufferGroup x r bgid, .done)
  | .findBufferGroup bgid => some (s, .found (findBufferGroup x r bgid))
  | .reinit i => do
    let s := s.exit x r
    let r ← s.objects x
    let (s, ec) := s.doInit x r i
    some (s, .initialized ec)
  | .exit => some (s.exit x r, .done)

/-- A slot of the table of a ring. -/
def slot (s : Objects) (x : Addr) (bgid : UInt16) : Option BufferRing :=
  (s.objects x).bind fun r => r.bufferRings.find? bgid

/-- The group that a call is about; the others are about the ring. -/
def Call.bgid? : Call → Option UInt16
  | .registerBufferGroup _ bgid _ _ | .unregisterBufferGroup bgid | .findBufferGroup bgid => some bgid
  | .reinit _ | .exit => none

/-- The call ends the registration of the group. -/
def Call.ends (c : Call) (bgid : UInt16) : Bool :=
  match c with
  | .unregisterBufferGroup bgid' => bgid' = bgid
  | .reinit _ | .exit => true
  | .registerBufferGroup .. | .findBufferGroup _ => false

variable {s s' : Objects} {x : Addr} {r : RingObject} {bgid : UInt16}

theorem slot_eq (hx : s.objects x = some r) (bgid : UInt16) :
    s.slot x bgid = r.bufferRings.find? bgid := by
  unfold slot
  rw [hx]
  rfl

theorem slot_of_default (hx : s.objects x = some .default) (bgid : UInt16) : s.slot x bgid = none :=
  slot_eq hx bgid

theorem slot_update (h : s'.objects = Function.update s.objects x (some r)) (bgid : UInt16) :
    s'.slot x bgid = r.bufferRings.find? bgid :=
  slot_eq (by rw [h, Function.update_self]) bgid

/-! ### What a call does -/

/-- **The cases of `register_buffer_group`**, with its result. -/
theorem registerBufferGroup_spec {entries bgid : UInt16} {incConsume : Bool} {err : ℤ}
    {res : Except ErrorCode BufferGroup} (hx : s.objects x = some r)
    (h : s.registerBufferGroup x r entries bgid incConsume err = some (s', res)) :
    (∃ br, s.slot x bgid = some br ∧ s' = s ∧ res = failErrc .fileExists) ∨
    (s.slot x bgid = none ∧ err < 0 ∧ s' = s ∧ res = fail (-err)) ∨
    (s.slot x bgid = none ∧ 0 ≤ err ∧ res = .ok ⟨x, bgid⟩ ∧
      s'.acquired = s.acquired ++ [.bufRing s.acquired.length] ∧
      ∃ k, ∀ bgid', s'.slot x bgid' = if bgid = bgid' then
        some ⟨x, s.acquired.length, entries.toUInt32, bgid, k,
          if incConsume then 0 else iouPbufRingInc⟩
        else s.slot x bgid') := by
  have hslot := slot_eq hx bgid
  unfold registerBufferGroup at h
  split at h
  case h_1 br hfind =>
    obtain ⟨rfl, rfl⟩ := Prod.mk.inj (Option.some.inj h)
    exact .inl ⟨br, hslot.trans hfind, rfl, rfl⟩
  case h_2 hnone =>
    by_cases herr : err < 0
    · rw [if_pos herr] at h
      obtain ⟨rfl, rfl⟩ := Prod.mk.inj (Option.some.inj h)
      exact .inr (.inl ⟨hslot.trans hnone, herr, rfl, rfl⟩)
    · rw [if_neg herr] at h
      obtain ⟨k, hk, h⟩ := Option.bind_eq_some_iff.mp h
      obtain ⟨-, h⟩ := Option.ite_none_left_eq_some.mp h
      obtain ⟨rfl, rfl⟩ := Prod.mk.inj (Option.some.inj h)
      refine .inr (.inr ⟨hslot.trans hnone, by omega, rfl, rfl, k, fun bgid' => ?_⟩)
      refine (slot_update rfl bgid').trans ?_
      rw [BufferRings.find?_insert, slot_eq hx]

theorem slot_unregisterBufferGroup (hx : s.objects x = some r) (bgid bgid' : UInt16) :
    (s.unregisterBufferGroup x r bgid).slot x bgid' =
      if bgid = bgid' then none else s.slot x bgid' := by
  unfold unregisterBufferGroup
  rcases hfind : r.bufferRings.find? bgid with _ | br
  · by_cases hb : bgid = bgid'
    · subst hb
      rw [if_pos rfl]
      exact (slot_eq hx bgid).trans hfind
    · rw [if_neg hb]
  · refine (slot_update rfl bgid').trans ?_
    rw [BufferRings.find?_erase hfind, slot_eq hx]

theorem slot_exit (h : Inv s) (hx : s.objects x = some r) (bgid : UInt16) :
    (s.exit x r).slot x bgid = none :=
  slot_of_default (h.objects_exit_eq_default hx) bgid

theorem slot_doInit (hx : s.objects x = some .default) (i : Init) (bgid : UInt16) :
    (s.doInit x .default i).1.slot x bgid = none := by
  rcases doInit_cases hx rfl i with ⟨-, he⟩ | ⟨-, he⟩ | ⟨-, he⟩
  · rw [he]
    exact slot_of_default hx bgid
  · obtain ⟨freed, lost, groups, -, hexit⟩ := exit_spec (objects_opened s x .default) rfl
    rw [he, hexit]
    exact slot_of_default (Function.update_self ..) bgid
  · rw [he]
    exact slot_update (r := ⟨_, _, .empty⟩) rfl bgid

/-- **The cases of a call**: what it was, what it has made of the objects and what it returned. `reinit`
initialises a ring that has nothing. -/
theorem call_cases {c : Call} {res : Response} (h : Inv s) (hx : s.objects x = some r)
    (hc : s.call x r c = some (s', res)) :
    (∃ entries b incConsume err res₁, c = .registerBufferGroup entries b incConsume err ∧
      s.registerBufferGroup x r entries b incConsume err = some (s', res₁) ∧
      res = .registered res₁) ∨
    (∃ b, c = .unregisterBufferGroup b ∧ s' = s.unregisterBufferGroup x r b ∧ res = .done) ∨
    (∃ b, c = .findBufferGroup b ∧ s' = s ∧ res = .found (findBufferGroup x r b)) ∨
    (∃ i ec, c = .reinit i ∧ (s.exit x r).objects x = some .default ∧
      s' = ((s.exit x r).doInit x .default i).1 ∧ res = .initialized ec) ∨
    (c = .exit ∧ s' = s.exit x r ∧ res = .done) := by
  rcases c with ⟨entries, b, incConsume, err⟩ | b | b | i | _
  · obtain ⟨⟨s₁, res₁⟩, hreg, hc⟩ := Option.bind_eq_some_iff.mp hc
    obtain ⟨rfl, rfl⟩ := Prod.mk.inj (Option.some.inj hc)
    exact .inl ⟨entries, b, incConsume, err, res₁, rfl, hreg, rfl⟩
  · obtain ⟨rfl, rfl⟩ := Prod.mk.inj (Option.some.inj hc)
    exact .inr (.inl ⟨b, rfl, rfl, rfl⟩)
  · obtain ⟨rfl, rfl⟩ := Prod.mk.inj (Option.some.inj hc)
    exact .inr (.inr (.inl ⟨b, rfl, rfl, rfl⟩))
  · have hx' := h.objects_exit_eq_default hx
    obtain ⟨r', hr', hc⟩ := Option.bind_eq_some_iff.mp hc
    obtain rfl := Option.some.inj (hx'.symm.trans hr')
    obtain ⟨rfl, rfl⟩ := Prod.mk.inj (Option.some.inj hc)
    exact .inr (.inr (.inr (.inl ⟨i, _, rfl, hx', rfl, rfl⟩)))
  · obtain ⟨rfl, rfl⟩ := Prod.mk.inj (Option.some.inj hc)
    exact .inr (.inr (.inr (.inr ⟨rfl, rfl, rfl⟩)))

theorem inv_call {c : Call} {res : Response} (h : Inv s) (hx : s.objects x = some r)
    (hc : s.call x r c = some (s', res)) : Inv s' ∧ ∃ r', s'.objects x = some r' := by
  have hexit := kept_inv.exit h hx
  rcases call_cases h hx hc with ⟨entries, b, incConsume, err, res₁, -, hreg, -⟩ | ⟨b, -, rfl, -⟩ |
    ⟨b, -, rfl, -⟩ | ⟨i, ec, -, hx', rfl, -⟩ | ⟨-, rfl, -⟩
  · refine ⟨kept_inv.registerBufferGroup h hx hreg, ?_⟩
    rcases registerBufferGroup_cases hreg with rfl | ⟨k, br, hbr, -, -, rfl⟩
    · exact ⟨r, hx⟩
    · exact ⟨_, Function.update_self ..⟩
  · refine ⟨kept_inv.unregisterBufferGroup b h hx, ?_⟩
    rcases unregisterBufferGroup_cases s x r b with he | ⟨br, -, he⟩
    · rw [he]
      exact ⟨r, hx⟩
    · rw [he]
      exact ⟨_, Function.update_self ..⟩
  · exact ⟨h, r, hx⟩
  · obtain ⟨r', hr', -⟩ := objects_doInit hx' rfl i
    exact ⟨kept_inv.doInit i hexit hx' rfl, r', hr'⟩
  · exact ⟨hexit, _, h.objects_exit_eq_default hx⟩

/-! ### The log -/

/-- What a caller asked for. -/
structure Registration where
  entries : UInt16
  incConsume : Bool
  deriving DecidableEq, Repr

/-- A call that returned. -/
structure Logged where
  call : Call
  response : Response

/-- A registration that succeeded. -/
def Logged.puts (e : Logged) : Option (UInt16 × Registration) :=
  match e.call, e.response with
  | .registerBufferGroup entries bgid incConsume _, .registered (.ok _) =>
    some (bgid, ⟨entries, incConsume⟩)
  | _, _ => none

/-- The end of a registration. -/
def Logged.clears (e : Logged) (bgid : UInt16) : Bool := e.call.ends bgid

/-- **The last registration** of a group that succeeded, and that no call has ended since. -/
abbrev LastRegistered (log : List Logged) (bgid : UInt16) (g : Registration) : Prop :=
  LastPut Logged.puts Logged.clears log bgid g

/-- `IOU_PBUF_RING_INC` for incremental consumption. -/
def bufRingFlags (incConsume : Bool) : UInt32 := if incConsume then iouPbufRingInc else 0

theorem bufRingFlags_inj {a b : Bool} (h : bufRingFlags a = bufRingFlags b) : a = b := by
  revert h
  cases a <;> cases b <;> decide

theorem bgid?_of_puts {c : Call} {res : Response} {g : Registration}
    (h : Logged.puts ⟨c, res⟩ = some (bgid, g)) : c.bgid? = some bgid := by
  unfold Logged.puts at h
  split at h
  · obtain ⟨rfl, -⟩ := Prod.mk.inj (Option.some.inj h)
    rename_i heq _
    have heq' : c = _ := heq
    rw [heq']
    rfl
  · cases h

theorem bgid?_of_ends {c : Call} {bgid' : UInt16} (h : c.ends bgid = true)
    (hb : c.bgid? = some bgid') : bgid' = bgid := by
  rcases c with _ | b | b | _ | _
  · cases h
  · rw [← Option.some.inj hb]
    exact of_decide_eq_true h
  · cases h
  · cases hb
  · cases hb

/-- **What one call does to one slot**: it registers the group, with a new buffer ring, it ends its
registration, or it leaves the slot as it is. -/
theorem slot_call {c : Call} {res : Response} (h : Inv s) (hx : s.objects x = some r)
    (hc : s.call x r c = some (s', res)) (bgid : UInt16) :
    (∃ br g, Logged.puts ⟨c, res⟩ = some (bgid, g) ∧ s.slot x bgid = none ∧
      s'.slot x bgid = some br ∧ br.bufRing = s.acquired.length ∧
      s.acquired.length < s'.acquired.length ∧ br.entries = g.entries.toUInt32 ∧
      br.flags = bufRingFlags !g.incConsume) ∨
    (Logged.puts ⟨c, res⟩ = none ∧ c.ends bgid = true ∧ s'.slot x bgid = none) ∨
    (Spares Logged.puts Logged.clears ⟨c, res⟩ bgid ∧ s'.slot x bgid = s.slot x bgid) := by
  -- a call without a successful registration of the group that does not end it
  have hspares : ∀ {c : Call} {res : Response}, Logged.puts ⟨c, res⟩ = none → c.ends bgid = false →
      Spares Logged.puts Logged.clears ⟨c, res⟩ bgid := by
    intro c res hput hends
    exact ⟨fun g hg => (by rw [hput] at hg; cases hg), hends⟩
  rcases call_cases h hx hc with ⟨entries, b, incConsume, err, res₁, rfl, hreg, rfl⟩ |
    ⟨b, rfl, rfl, rfl⟩ | ⟨b, rfl, rfl, rfl⟩ | ⟨i, ec, rfl, hx', rfl, rfl⟩ | ⟨rfl, rfl, rfl⟩
  · rcases registerBufferGroup_spec hx hreg with ⟨br, -, rfl, rfl⟩ | ⟨-, -, rfl, rfl⟩ |
      ⟨hnone, -, rfl, hacq, k, hslot⟩
    · exact .inr (.inr ⟨hspares rfl rfl, rfl⟩)
    · exact .inr (.inr ⟨hspares rfl rfl, rfl⟩)
    · by_cases hb : b = bgid
      · subst hb
        refine .inl ⟨_, ⟨entries, incConsume⟩, rfl, hnone, (hslot b).trans (if_pos rfl), rfl, ?_, rfl,
          ?_⟩
        · rw [hacq]
          simp
        · cases incConsume <;> rfl
      · refine .inr (.inr ⟨⟨fun g hg => hb ?_, rfl⟩, (hslot bgid).trans (if_neg hb)⟩)
        exact congrArg Prod.fst (Option.some.inj hg)
  · have hslot := slot_unregisterBufferGroup hx b bgid
    by_cases hb : b = bgid
    · exact .inr (.inl ⟨rfl, decide_eq_true hb, hslot.trans (if_pos hb)⟩)
    · exact .inr (.inr ⟨hspares rfl (decide_eq_false hb), hslot.trans (if_neg hb)⟩)
  · exact .inr (.inr ⟨hspares rfl rfl, rfl⟩)
  · exact .inr (.inl ⟨rfl, rfl, slot_doInit hx' i bgid⟩)
  · exact .inr (.inl ⟨rfl, rfl, slot_exit h hx bgid⟩)

/-! ### Runs -/

/-- The process and the log of the calls on one of its rings. -/
structure Session where
  objects : Objects
  log : List Logged

namespace Session

/-- A ring that was just constructed, and nothing else. -/
def start (x : Addr) : Session := ⟨init.set x (some .default), []⟩

/-- **One call.** -/
def step (x : Addr) (st : Session) (c : Call) : Option Session := do
  let r ← st.objects.objects x
  let (s, res) ← st.objects.call x r c
  some ⟨s, st.log ++ [⟨c, res⟩]⟩

/-- **The table is a finite map**: a group is found exactly while it is registered, a second registration
is refused, a failure changes nothing, and neither does a call about another group. -/
structure RefinesMap (x : Addr) (st : Session) : Prop where
  find : ∀ r bgid, st.objects.objects x = some r →
    ((findBufferGroup x r bgid).isSome = true ↔ ∃ g, LastRegistered st.log bgid g)
  second : ∀ r entries bgid incConsume err, st.objects.objects x = some r →
    (∃ g, LastRegistered st.log bgid g) →
    st.objects.registerBufferGroup x r entries bgid incConsume err =
      some (st.objects, failErrc .fileExists)
  failed : ∀ r entries bgid incConsume err s ec, st.objects.objects x = some r →
    st.objects.registerBufferGroup x r entries bgid incConsume err = some (s, .error ec) →
    s = st.objects
  frame : ∀ c st' bgid bgid', step x st c = some st' → c.bgid? = some bgid' → bgid' ≠ bgid →
    st'.objects.slot x bgid = st.objects.slot x bgid

/-- **The table and its modes**: a live group has the number of entries that its caller asked for, and
consumes incrementally by a choice of theirs. -/
structure Refines (mode : Bool → Bool) (x : Addr) (st : Session) : Prop extends RefinesMap x st where
  mode : ∀ bgid br g, st.objects.slot x bgid = some br → LastRegistered st.log bgid g →
    br.entries = g.entries.toUInt32 ∧ br.flags = bufRingFlags (mode g.incConsume)

/-- The call registers a group: its slot is empty and `io_uring_setup_buf_ring` succeeds. -/
def Registers (x : Addr) (st : Session) : Call → Prop
  | .registerBufferGroup _ bgid _ err => st.objects.slot x bgid = none ∧ 0 ≤ err
  | _ => False

/-- What was registered, as the kernel was told. -/
def kernelView (br : BufferRing) : UInt32 × UInt32 := (br.entries, br.flags)

/-- What the kernel is told for a registration: the flag is turned round. -/
def kernelMode (g : Registration) : UInt32 × UInt32 :=
  (g.entries.toUInt32, bufRingFlags !g.incConsume)

/-- **The invariant**: the slots are what the log says. -/
structure Tracks (x : Addr) (st : Session) : Prop where
  inv : Inv st.objects
  ring : ∃ r, st.objects.objects x = some r
  table : ∀ bgid, (st.objects.slot x bgid).map kernelView =
    (replay Logged.puts Logged.clears st.log bgid).map kernelMode

variable {x : Addr} {st st' : Session} {c : Call}

theorem of_step (hs : step x st c = some st') : ∃ r res, st.objects.objects x = some r ∧
    st.objects.call x r c = some (st'.objects, res) ∧ st'.log = st.log ++ [⟨c, res⟩] := by
  obtain ⟨r, hx, hs⟩ := Option.bind_eq_some_iff.mp hs
  obtain ⟨⟨s, res⟩, hc, hs⟩ := Option.bind_eq_some_iff.mp hs
  obtain rfl := Option.some.inj hs
  exact ⟨r, res, hx, hc, rfl⟩

theorem tracks_start (x : Addr) : Tracks x (start x) where
  inv := kept_inv.construct inv_init rfl
  ring := ⟨.default, Function.update_self ..⟩
  table := by
    intro bgid
    rw [slot_of_default (Function.update_self ..)]
    rfl

/-- **One call keeps the slots and the log together.** -/
theorem tracks_step (h : Tracks x st) (hs : step x st c = some st') : Tracks x st' := by
  obtain ⟨r, res, hx, hc, hlog⟩ := of_step hs
  obtain ⟨hinv, hring⟩ := inv_call h.inv hx hc
  refine ⟨hinv, hring, fun bgid => ?_⟩
  rw [hlog, replay_concat]
  rcases slot_call h.inv hx hc bgid with ⟨br, g, hput, -, hslot, -, -, hentries, hflags⟩ |
    ⟨hput, hends, hslot⟩ | ⟨hspares, hslot⟩
  · rw [hslot, replayStep_of_puts hput, Option.map_some, Option.map_some]
    unfold kernelView kernelMode
    rw [hentries, hflags]
  · have hclear : replayStep Logged.puts Logged.clears (replay Logged.puts Logged.clears st.log)
        ⟨c, res⟩ bgid = none := by
      unfold replayStep
      rw [hput]
      exact if_pos hends
    rw [hslot, hclear]
    rfl
  · rw [hslot, replayStep_of_spares hspares]
    exact h.table bgid

theorem Tracks.isSome_slot_iff (h : Tracks x st) (bgid : UInt16) :
    (st.objects.slot x bgid).isSome = true ↔ ∃ g, LastRegistered st.log bgid g := by
  have htable := congrArg Option.isSome (h.table bgid)
  rw [Option.isSome_map, Option.isSome_map] at htable
  rw [htable, Option.isSome_iff_exists]
  simp only [replay_eq_some_iff]

theorem Tracks.kernelView_eq (h : Tracks x st) {bgid : UInt16} {br : BufferRing} {g : Registration}
    (hslot : st.objects.slot x bgid = some br) (hg : LastRegistered st.log bgid g) :
    kernelView br = kernelMode g := by
  have htable := h.table bgid
  rw [hslot, replay_eq_some_iff.mpr hg] at htable
  exact Option.some.inj htable

theorem Tracks.refinesMap (h : Tracks x st) : RefinesMap x st where
  find := by
    intro r bgid hx
    rw [← h.isSome_slot_iff, slot_eq hx]
    unfold findBufferGroup
    rw [Option.isSome_map]
  second := by
    intro r entries bgid incConsume err hx hg
    obtain ⟨br, hbr⟩ := Option.isSome_iff_exists.mp ((h.isSome_slot_iff bgid).mpr hg)
    rw [slot_eq hx] at hbr
    unfold registerBufferGroup
    split
    case h_1 => rfl
    case h_2 hnone => rw [hbr] at hnone; cases hnone
  failed := by
    intro r entries bgid incConsume err s ec hx hreg
    rcases registerBufferGroup_spec hx hreg with ⟨br, -, rfl, -⟩ | ⟨-, -, rfl, -⟩ | ⟨-, -, hok, -⟩
    · rfl
    · rfl
    · cases hok
  frame := by
    intro c st' bgid bgid' hs hb hne
    obtain ⟨r, res, hx, hc, -⟩ := of_step hs
    rcases slot_call h.inv hx hc bgid with ⟨br, g, hput, -⟩ | ⟨-, hends, -⟩ | ⟨-, hslot⟩
    · have hb' := (bgid?_of_puts hput).symm.trans hb
      exact absurd (Option.some.inj hb').symm hne
    · exact absurd (bgid?_of_ends hends hb) hne
    · exact hslot

/-- **With the mode turned round**, the table refines the map after every call. -/
theorem Tracks.refines_not (h : Tracks x st) : Refines not x st where
  toRefinesMap := h.refinesMap
  mode := by
    intro bgid br g hslot hg
    exact Prod.mk.inj (h.kernelView_eq hslot hg)

theorem Tracks.refines_id (h : Tracks x st) (hnone : ∀ bgid, st.objects.slot x bgid = none) :
    Refines id x st where
  toRefinesMap := h.refinesMap
  mode := by
    intro bgid br g hslot hg
    rw [hnone] at hslot
    cases hslot

theorem registers_iff {r : RingObject} {s : Objects} {res : Response}
    (hx : st.objects.objects x = some r) (hc : st.objects.call x r c = some (s, res)) :
    Registers x st c ↔ ∃ bgid g, Logged.puts ⟨c, res⟩ = some (bgid, g) := by
  rcases c with ⟨entries, b, incConsume, err⟩ | b | b | i | _
  · obtain ⟨⟨s1, res1⟩, hreg, hc⟩ := Option.bind_eq_some_iff.mp hc
    obtain ⟨rfl, rfl⟩ := Prod.mk.inj (Option.some.inj hc)
    rcases registerBufferGroup_spec hx hreg with ⟨br, hslot, -, rfl⟩ | ⟨-, herr, -, rfl⟩ |
      ⟨hnone, herr, rfl, -⟩
    · refine iff_of_false (fun h => ?_) nofun
      rw [h.1] at hslot
      cases hslot
    · refine iff_of_false (fun h => ?_) nofun
      have := h.2
      omega
    · exact iff_of_true ⟨hnone, herr⟩ ⟨b, ⟨entries, incConsume⟩, rfl⟩
  all_goals exact iff_of_false (fun h => h) nofun

theorem slot_of_not_registers (h : Tracks x st) (hnone : ∀ bgid, st.objects.slot x bgid = none)
    (hC : ¬ Registers x st c) (hs : step x st c = some st') (bgid : UInt16) :
    st'.objects.slot x bgid = none := by
  obtain ⟨r, res, hx, hc, -⟩ := of_step hs
  rcases slot_call h.inv hx hc bgid with ⟨br, g, hput, -⟩ | ⟨-, -, hslot⟩ | ⟨-, hslot⟩
  · exact absurd ((registers_iff hx hc).mpr ⟨bgid, g, hput⟩) hC
  · exact hslot
  · rw [hslot]
    exact hnone bgid

/-- After a registration there is a group with the wrong mode. -/
theorem not_registers_of_refines (h : Tracks x st) (hs : step x st c = some st')
    (hP : Refines id x st') : ¬ Registers x st c := by
  intro hreg
  obtain ⟨r, res, hx, hc, hlog⟩ := of_step hs
  obtain ⟨bgid, g, hput⟩ := (registers_iff hx hc).mp hreg
  rcases slot_call h.inv hx hc bgid with ⟨br, g', hput', -, hslot, -, -, -, hflags⟩ |
    ⟨hput', -, -⟩ | ⟨hspares, -⟩
  · have hg : LastRegistered st'.log bgid g' := by
      rw [hlog]
      exact lastPut_concat_iff.mpr (.inl hput')
    have hmode := (hP.mode bgid br g' hslot hg).2
    rw [hflags] at hmode
    have hneg := bufRingFlags_inj hmode
    revert hneg
    cases g'.incConsume <;> decide
  · rw [hput] at hput'
    cases hput'
  · exact hspares.1 g hput

/-- **When the table refines the map.** In every run of calls on a ring, with every success or failure of
the kernel, the table refines the finite map of the log with the incremental mode turned round. It does
with the mode that the callers asked for, in every state reached, exactly when no call registers a
group. -/
theorem refines_iff (x : Addr) {cs : List Call} (hrun : run (step x) (start x) cs = some st) :
    AlwaysHolds (step x) (Refines not x) (start x) cs ∧
      (AlwaysHolds (step x) (Refines id x) (start x) cs ↔
        EveryStep (step x) (fun st c => ¬ Registers x st c) (start x) cs) := by
  refine ⟨fun before after t hes hrun' => ?_, ?_⟩
  · have htracks : Tracks x t := run_induction (fun _ _ _ h hs => tracks_step h hs)
      (tracks_start x) hrun'
    exact htracks.refines_not
  · have hinit : Tracks x (start x) ∧ ∀ bgid, (start x).objects.slot x bgid = none :=
      ⟨tracks_start x, slot_of_default (Function.update_self ..)⟩
    exact alwaysHolds_iff
      (I := fun st => Tracks x st ∧ ∀ bgid, st.objects.slot x bgid = none)
      (fun _ _ _ h hC hs => ⟨tracks_step h.1 hs, slot_of_not_registers h.1 h.2 hC hs⟩)
      (fun _ h => h.1.refines_id h.2) (fun _ _ _ h hs hP => not_registers_of_refines h.1 hs hP)
      hinit hrun

/-- A group is registered, found, and refused when it is registered again. -/
def registeredCalls : List Call := [.reinit ⟨0, true⟩, .registerBufferGroup 8 1 true 0,
  .findBufferGroup 1, .registerBufferGroup 4 1 false 0]

theorem refines_iff_registered :
    (∃ st, run (step 0) (start 0) registeredCalls = some st ∧ (st.objects.slot 0 1).isSome = true ∧
      Refines not 0 st) ∧
    ¬ AlwaysHolds (step 0) (Refines id 0) (start 0) registeredCalls := by
  refine ⟨⟨_, rfl, rfl, ?_⟩, fun hA => ?_⟩
  · exact (refines_iff 0 rfl).1 registeredCalls [] _ (List.append_nil _).symm rfl
  · have hC := (refines_iff 0 rfl).2.mp hA
    exact hC [.reinit ⟨0, true⟩] (.registerBufferGroup 8 1 true 0) _ _ rfl rfl ⟨rfl, by decide⟩

/-- **A group that was registered for incremental consumption has no `IOU_PBUF_RING_INC`.** -/
theorem not_refines_registered :
    ¬ ∀ (cs : List Call) (st : Session), run (step 0) (start 0) cs = some st → Refines id 0 st := by
  intro h
  have href := h [.reinit ⟨0, true⟩, .registerBufferGroup 8 1 true 0] _ rfl
  have hmode := href.mode 1 ⟨0, 2, 8, 1, 0, 0⟩ ⟨8, true⟩ rfl
    ⟨[⟨.reinit ⟨0, true⟩, .initialized .none⟩], _, [], rfl, rfl, fun _ he => absurd he (by simp)⟩
  exact absurd hmode.2 (by decide)

end Session

end Objects

end Iouxx.Ring
