import Iouxx.Lib.Ledger
import Iouxx.Lib.Trace
import Iouxx.Ring.Objects

/-!
# Everything has one place (`iouringxx.hpp`, `ring`)

Swapping two rings can leave an object with a probe and buffer rings but no kernel ring, or with those
of another kernel ring. Even so `exit`, `do_init` and the destructors together let go of all an object
has, each thing once: the smart pointer and the table of buffer rings are cleared also where the ring
is not valid. What they cannot do is to unmap a buffer ring whose group the kernel ring does not have.

* `Accounted.change`: the ledger where one object changes;
* `kept_accounted`: every operation keeps the ledger;
* `once_of_reachable`: **in every state reached everything acquired was released, once, or leaked,
  once, or has one owner**.
-/

namespace Iouxx.Ring.Objects

open Iouxx.Cpp.Error Iouxx.Lib.Ledger Iouxx.Lib.Trace Iouxx.Utility

variable {s s' : Objects} {x y : Addr} {r q : RingObject}

/-! ### What objects own -/

/-- What there is at an address. -/
def heldBy (o : Option RingObject) : List Resource := o.elim [] RingObject.held

def held (s : Objects) (x : Addr) : List Resource := heldBy (s.objects x)

theorem held_of_eq {o : Option RingObject} (hx : s.objects x = o) : s.held x = heldBy o := by
  rw [held, hx]

theorem held_update (s : Objects) (x : Addr) (o : Option RingObject) :
    (fun y => heldBy (Function.update s.objects x o y)) = Function.update s.held x (heldBy o) :=
  Function.comp_update heldBy s.objects x o

theorem mem_held_ring {k : ℕ} (hx : s.objects x = some r) (hk : r.rawRing = some k) :
    .ring k ∈ s.held x := by
  simp [held, heldBy, hx, RingObject.held, hk]

theorem held_perm (raw probe : Option ℕ) {b : BufferRing} {t t' : BufferRings}
    (h : t'.live.Perm (b :: t.live)) : (RingObject.held ⟨raw, probe, t'⟩).Perm
      (.bufRing b.bufRing :: RingObject.held ⟨raw, probe, t⟩) := by
  unfold RingObject.held
  refine (((h.map _).append_left _).append_right _).trans ?_
  rw [List.map_cons, List.append_assoc, List.append_assoc]
  exact List.perm_middle

theorem held_of_not_valid (hx : s.objects x = some r) (hk : r.valid = false) :
    s.held x = r.probe.toList.map .probe ++ bufRings r.bufferRings.live := by
  have hraw : r.rawRing = none := by simpa [RingObject.valid] using hk
  rw [held_of_eq hx, heldBy, Option.elim_some, RingObject.held, hraw]
  exact List.append_nil _

theorem held_perm_of_bufRings {freed lost : List BufferRing}
    (hp : (freed ++ lost).Perm r.bufferRings.live) : r.held.Perm
      (r.probe.toList.map .probe ++ bufRings freed ++ r.rawRing.toList.map .ring ++
        bufRings lost) := by
  have hlive : (r.bufferRings.live.map fun br => Resource.bufRing br.bufRing).Perm
      (bufRings freed ++ bufRings lost) := by
    rw [bufRings, bufRings, ← List.map_append]
    exact (hp.map _).symm
  unfold RingObject.held
  refine ((hlive.append_left _).append_right _).trans ?_
  rw [List.append_assoc, List.append_assoc, List.append_assoc, List.append_assoc]
  exact (List.perm_append_comm.append_left _).append_left _

/-! ### The ledger -/

/-- The invariant: resources have different numbers, the ledger of what leaves the objects balances,
and only buffer rings leak. -/
structure Accounted (s : Objects) : Prop where
  numbered : s.acquired.map Resource.number = List.range s.acquired.length
  balanced : Balanced s.acquired (s.released ++ s.leaked) s.held
  leaks : ∀ a ∈ s.leaked, ∃ b, a = .bufRing b

theorem accounted_init : Accounted init := ⟨rfl, balanced_nil, List.forall_mem_nil _⟩

theorem nodup_of_numbered {l : List Resource} (h : l.map Resource.number = List.range l.length) :
    l.Nodup := List.Nodup.of_map _ (h ▸ List.nodup_range)

theorem Accounted.number_lt (h : Accounted s) {a : Resource} (ha : a ∈ s.held x) :
    a.number < s.acquired.length := by
  have hmem := List.mem_map_of_mem (f := Resource.number) (h.balanced.mem_acquired ha)
  rw [h.numbered] at hmem
  exact List.mem_range.mp hmem

/-- **A change of one object**, which acquires `as`, releases `rs` and leaks the buffer rings `ls`. -/
theorem Accounted.change (h : Accounted s) (x : Addr) (o : Option RingObject)
    (as rs : List Resource) (ls : List BufferRing)
    (hobjects : s'.objects = Function.update s.objects x o)
    (hacquired : s'.acquired = s.acquired ++ as) (hreleased : s'.released = s.released ++ rs)
    (hleaked : s'.leaked = s.leaked ++ bufRings ls)
    (has : as.map Resource.number = (List.range as.length).map (s.acquired.length + ·))
    (hp : (s.held x ++ as).Perm (rs ++ bufRings ls ++ heldBy o)) : Accounted s' := by
  have hnum : s'.acquired.map Resource.number = List.range s'.acquired.length := by
    rw [hacquired, List.map_append, h.numbered, has, List.length_append, List.range_add]
  refine ⟨hnum, ?_, fun a ha => ?_⟩
  · have hheld : s'.held = Function.update s.held x (heldBy o) := by
      rw [← held_update, ← hobjects]
      rfl
    rw [hheld, hreleased, hleaked]
    rw [hacquired] at hnum ⊢
    refine (h.balanced.change (nodup_of_numbered hnum) hp).released_perm ?_
    rw [List.append_assoc, List.append_assoc, ← List.append_assoc s.leaked,
      ← List.append_assoc rs]
    exact (List.perm_append_comm.append_right _).append_left _
  · rw [hleaked] at ha
    rcases List.mem_append.mp ha with ha | ha
    · exact h.leaks a ha
    · obtain ⟨br, -, rfl⟩ := List.mem_map.mp ha
      exact ⟨br.bufRing, rfl⟩

theorem accounted_exit (h : Accounted s) (hx : s.objects x = some r) : Accounted (s.exit x r) := by
  rcases hk : r.valid with _ | _
  · rw [exit_of_not_valid hk]
    exact h
  · obtain ⟨freed, lost, groups, hp, he⟩ := exit_spec hx hk
    rw [he]
    refine h.change x (some .default) [] _ lost rfl (List.append_nil _).symm rfl rfl rfl ?_
    rw [held_of_eq hx, List.append_nil]
    exact (held_perm_of_bufRings hp).trans (List.Perm.of_eq (List.append_nil _).symm)

theorem accounted_opened (h : Accounted s) (hx : s.objects x = some r) (hk : r.valid = false) :
    Accounted (s.opened x r) := by
  refine h.change x (some { r with rawRing := some s.acquired.length }) [.ring s.acquired.length] []
    [] rfl rfl (List.append_nil _).symm (List.append_nil _).symm rfl ?_
  rw [held_of_not_valid hx hk]
  exact List.Perm.refl _

/-- **`do_init`**: an old probe makes room for the new one. -/
theorem accounted_doInit (h : Accounted s) (hx : s.objects x = some r) (hk : r.valid = false)
    (i : Init) : Accounted (s.doInit x r i).1 := by
  have hheld := held_of_not_valid hx hk
  rcases doInit_cases hx hk i with ⟨-, he⟩ | ⟨-, he⟩ | ⟨-, he⟩
  · rw [he]
    exact h
  · rw [he]
    exact accounted_exit (accounted_opened h hx hk) (objects_opened s x r)
  · rw [he]
    refine h.change x (some ⟨some s.acquired.length, some (s.acquired.length + 1), r.bufferRings⟩)
      [.ring s.acquired.length, .probe (s.acquired.length + 1)] _ [] rfl rfl rfl
      (List.append_nil _).symm rfl ?_
    rw [hheld, List.append_assoc, List.append_assoc]
    refine List.Perm.append_left _ ?_
    -- the new probe comes before the buffer rings, the new kernel ring after them
    show (bufRings r.bufferRings.live ++
      [Resource.ring s.acquired.length, .probe (s.acquired.length + 1)]).Perm
      (.probe (s.acquired.length + 1) ::
        (bufRings r.bufferRings.live ++ [Resource.ring s.acquired.length]))
    exact (List.Perm.append_left _ (List.Perm.swap _ _ _)).trans List.perm_middle

theorem accounted_destroyMembers (h : Accounted s) (hx : s.objects x = some r)
    (hk : r.valid = false) : Accounted (s.destroyMembers x r) := by
  have hraw : r.rawRing = none := by simpa [RingObject.valid] using hk
  obtain ⟨freed, lost, groups, hp, he⟩ := destroyMembers_spec s x r
  rw [he]
  refine h.change x none [] _ lost rfl (List.append_nil _).symm rfl rfl rfl ?_
  rw [held_of_eq hx, List.append_nil]
  refine (held_perm_of_bufRings hp).trans ?_
  rw [hraw]
  show (r.probe.toList.map Resource.probe ++ bufRings freed ++ [] ++ bufRings lost).Perm
    (bufRings freed ++ r.probe.toList.map Resource.probe ++ bufRings lost ++ [])
  rw [List.append_nil, List.append_nil]
  exact List.perm_append_comm.append_right _

theorem accounted_construct (h : Accounted s) (hx : s.objects x = none) :
    Accounted (s.set x (some .default)) := by
  refine h.change x (some .default) [] [] [] rfl (List.append_nil _).symm (List.append_nil _).symm
    (List.append_nil _).symm rfl ?_
  rw [held_of_eq hx]
  exact List.Perm.refl _

theorem accounted_registerBufferGroup (h : Accounted s) (hx : s.objects x = some r)
    {entries bgid : UInt16} {incConsume : Bool} {err : ℤ} {res : Except ErrorCode BufferGroup}
    (hs : s.registerBufferGroup x r entries bgid incConsume err = some (s', res)) :
    Accounted s' := by
  rcases registerBufferGroup_cases hs with rfl | ⟨k, br, hbr, hk, hbreq, rfl⟩
  · exact h
  · have hb : br.bufRing = s.acquired.length := by rw [hbreq]
    refine h.change x (some { r with bufferRings := r.bufferRings.insert br hbr })
      [.bufRing s.acquired.length] [] [] rfl rfl (List.append_nil _).symm
      (List.append_nil _).symm rfl ?_
    rw [held_of_eq hx, ← hb]
    exact (List.perm_append_singleton _ _).trans
      (held_perm r.rawRing r.probe (b := br) (List.Perm.refl _)).symm

theorem accounted_unregisterBufferGroup (h : Accounted s) (hx : s.objects x = some r)
    (bgid : UInt16) : Accounted (s.unregisterBufferGroup x r bgid) := by
  rcases unregisterBufferGroup_cases s x r bgid with he | ⟨br, hbr, he⟩
  · rw [he]
    exact h
  · have hheld : r.held.Perm (.bufRing br.bufRing ::
        RingObject.held { r with bufferRings := r.bufferRings.erase br }) :=
      held_perm r.rawRing r.probe (List.perm_cons_erase hbr)
    rw [he]
    rcases freeBufRing_cases s br with ⟨g, -, -, hf⟩ | ⟨-, hf⟩
    · rw [hf]
      refine h.change x (some { r with bufferRings := r.bufferRings.erase br }) []
        [.bufRing br.bufRing] [] rfl (List.append_nil _).symm rfl (List.append_nil _).symm rfl ?_
      rw [held_of_eq hx, List.append_nil]
      exact hheld
    · rw [hf]
      refine h.change x (some { r with bufferRings := r.bufferRings.erase br }) [] [] [br] rfl
        (List.append_nil _).symm (List.append_nil _).symm rfl rfl ?_
      rw [held_of_eq hx, List.append_nil]
      exact hheld

/-! ### Swapping -/

theorem swap_self (hx : s.objects x = some r) : s.swap x r x r = s := by
  unfold swap set
  rw [Function.update_idem, Function.update_eq_self_iff.mpr hx.symm]

theorem objects_swap (x : Addr) (r : RingObject) (y : Addr) (q : RingObject) :
    (s.swap x r y q).objects = Function.update (Function.update s.objects x
      (some { r with rawRing := q.rawRing })) y (some { q with rawRing := r.rawRing }) := rfl

theorem held_swap (r q : RingObject) : (r.held ++ q.held).Perm
    (RingObject.held { r with rawRing := q.rawRing } ++
      RingObject.held { q with rawRing := r.rawRing }) := by
  unfold RingObject.held
  rw [List.perm_iff_count]
  intro a
  simp only [List.count_append]
  omega

theorem accounted_swap (h : Accounted s) (hx : s.objects x = some r) (hy : s.objects y = some q) :
    Accounted (s.swap x r y q) := by
  by_cases hxy : x = y
  · subst hxy
    rw [hx, Option.some.injEq] at hy
    subst hy
    rw [swap_self hx]
    exact h
  · refine ⟨h.numbered, ?_, h.leaks⟩
    have hheld : (s.swap x r y q).held = Function.update (Function.update s.held x
        (RingObject.held { r with rawRing := q.rawRing })) y
        (RingObject.held { q with rawRing := r.rawRing }) := by
      show heldBy ∘ (s.swap x r y q).objects = _
      rw [objects_swap, Function.comp_update, Function.comp_update]
      rfl
    rw [hheld]
    refine h.balanced.exchange hxy ?_
    rw [held_of_eq hx, held_of_eq hy]
    exact held_swap r q

/-! ### Runs -/

/-- **The operations keep the ledger**, also a harmful `swap`. -/
theorem kept_accounted : Kept Accounted fun _ _ _ => True where
  construct := accounted_construct
  exit := accounted_exit
  doInit i h hx hk := accounted_doInit h hx hk i
  destroyMembers := accounted_destroyMembers
  registerBufferGroup h hx hs := accounted_registerBufferGroup h hx hs
  unregisterBufferGroup bgid h hx := accounted_unregisterBufferGroup h hx bgid
  swap h hx hy _ := accounted_swap h hx hy

theorem accounted_step (s : Objects) (e : Event) (s' : Objects) (h : Accounted s)
    (hs : s.step e = some s') : Accounted s' :=
  kept_accounted.step s e s' h (by cases e <;> trivial) hs

end Iouxx.Ring.Objects
