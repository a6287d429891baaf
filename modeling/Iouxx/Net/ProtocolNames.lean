import Iouxx.Net.ProtocolDatabase

/-!
# Names and numbers of protocols (`socket.hpp`, `to_protocol`, `get_protocol_name`)

A number has at most one name, that of the first record with the number; a name has at most one number,
that of the first retained record that carries it. The two functions go from one to the other through
the loaded database, and give an unknown protocol for what is not there.

* `Loaded.getProtocolName_eq`, `Loaded.toProtocol_eq`: what they give for the records;
* `translates_load`: **names go to numbers and back to the name of the record**, and **a number comes
  back if and only if no other record has taken its name**.
-/

namespace Iouxx.Net

/-! ### The functions -/

namespace ProtocolDatabase

/-- `to_protocol`, on the loaded database. -/
def toProtocol (d : ProtocolDatabase) (name : String) : Int32 := (d.getName name).no

/-- `get_protocol_name`, on the loaded database. -/
def getProtocolName (d : ProtocolDatabase) (p : Int32) : String := (d.getNo p).name

end ProtocolDatabase

/-! ### What the records say -/

/-- The first record with the number. -/
def recordOf (records : List Protoent) (p : Int32) : Option Protoent :=
  records.find? fun r => r.pProto = p

/-- The first record that carries the name. -/
def carrierOf (records : List Protoent) (x : String) : Option Protoent :=
  records.find? fun r => r.Carries x

/-- The record has a name that is not empty, and it is the first to carry it. -/
def NamesFirst (records : List Protoent) (r : Protoent) : Prop :=
  ∃ x, r.pName = some x ∧ x ≠ "" ∧ carrierOf records x = some r

/-- **How names and numbers are translated**, for the retained records. -/
structure Translates (records : List Protoent) (d : ProtocolDatabase) : Prop where
  toName : ∀ x, d.getProtocolName (d.toProtocol x) =
    (carrierOf records x).elim "unknown" fun r => r.pName.getD ""
  comesBack : ∀ p, d.toProtocol (d.getProtocolName p) = p ↔
    (∃ r, recordOf records p = some r ∧ NamesFirst records r) ∨
      p = -1 ∧ carrierOf records "unknown" = none

/-! ### The loaded database -/

theorem recordOf_retained {r : Protoent} : ∀ {l : List Protoent}, r ∈ retained l →
    recordOf (retained l) r.pProto = some r
  | a :: l, h => by
    rw [retained, List.mem_cons, List.mem_filter, decide_eq_true_eq] at h
    rw [retained, recordOf]
    rcases h with rfl | ⟨h, hne⟩
    · exact List.find?_cons_of_pos (by simp)
    · have ih := recordOf_retained h
      rw [List.find?_cons_of_neg (by simpa using hne.symm), List.find?_filter, ← ih, recordOf]
      congr 1
      funext r'
      simp only [decide_eq_true_eq]
      exact decide_eq_decide.mpr ⟨And.right, fun hr' => ⟨hr' ▸ hne, hr'⟩⟩

theorem pProto_of_recordOf {records : List Protoent} {p : Int32} {r : Protoent}
    (h : recordOf records p = some r) : r.pProto = p := by
  simpa using List.find?_some h

theorem carries_of_carrierOf {records : List Protoent} {x : String} {r : Protoent}
    (h : carrierOf records x = some r) : r.Carries x := by
  simpa using List.find?_some h

variable {done : List Protoent} {d : ProtocolDatabase}

theorem Loaded.getNo_eq (h : Loaded done d) (p : Int32) :
    d.getNo p = (recordOf (retained done) p).elim {} Entry.ofRecord := by
  unfold ProtocolDatabase.getNo
  rcases hp : slot? p with _ | i
  · have hnone : recordOf (retained done) p = none := by
      refine List.find?_eq_none.mpr fun r hr => ?_
      rw [decide_eq_true_eq]
      rintro rfl
      have hrange := h.inRange r (mem_of_mem_retained hr)
      rw [hp] at hrange
      cases hrange
    rw [hnone]
    rfl
  · have hfind : recordOf (retained done) p = (retained done).find? fun r => slot? r.pProto = some i := by
      unfold recordOf
      congr 1
      funext r
      exact decide_eq_decide.mpr ⟨fun hr => hr ▸ hp, fun hr => slot?_inj hr hp⟩
    rw [hfind]
    exact h.slot i

theorem Loaded.getName_eq (h : Loaded done d) (x : String) :
    d.getName x = (carrierOf (retained done) x).elim {} Entry.ofRecord := by
  have hindex := h.index x
  unfold ProtocolDatabase.getName
  rw [hindex]
  rcases hx : carrierOf (retained done) x with _ | r
  · unfold carrierOf at hx
    rw [hx]
    rfl
  · have hr : r ∈ retained done := List.mem_of_find?_eq_some hx
    obtain ⟨i, hi⟩ := Option.isSome_iff_exists.mp (h.inRange r (mem_of_mem_retained hr))
    have hno := h.getNo_eq r.pProto
    unfold ProtocolDatabase.getNo at hno
    rw [hi, recordOf_retained hr] at hno
    unfold carrierOf at hx
    rw [hx, Option.bind_some, hi]
    exact hno

theorem Loaded.getProtocolName_eq (h : Loaded done d) (p : Int32) : d.getProtocolName p =
    (recordOf (retained done) p).elim "unknown" fun r => r.pName.getD "" := by
  rw [ProtocolDatabase.getProtocolName, h.getNo_eq]
  rcases recordOf (retained done) p with _ | r
  · rfl
  · rfl

theorem Loaded.toProtocol_eq (h : Loaded done d) (x : String) :
    d.toProtocol x = (carrierOf (retained done) x).elim (-1) Protoent.pProto := by
  rw [ProtocolDatabase.toProtocol, h.getName_eq]
  rcases carrierOf (retained done) x with _ | r
  · rfl
  · rfl

/-! ### There and back -/

theorem Loaded.recordOf_unknown (h : Loaded done d) : recordOf (retained done) (-1) = none := by
  refine List.find?_eq_none.mpr fun r hr => ?_
  rw [decide_eq_true_eq]
  intro hno
  have hrange := h.inRange r (mem_of_mem_retained hr)
  rw [hno] at hrange
  cases hrange

/-- A number comes back by the name of its record if the record is the first that carries it. -/
theorem Loaded.toProtocol_name_iff (h : Loaded done d) {p : Int32} {r : Protoent}
    (hr : recordOf (retained done) p = some r) :
    d.toProtocol (r.pName.getD "") = p ↔ NamesFirst (retained done) r := by
  have hp : r.pProto = p := pProto_of_recordOf hr
  rw [h.toProtocol_eq]
  constructor
  · intro hback
    rcases hx : carrierOf (retained done) (r.pName.getD "") with _ | r'
    · rw [hx, Option.elim_none] at hback
      rw [← hback, h.recordOf_unknown] at hr
      cases hr
    · rw [hx, Option.elim_some] at hback
      have hr' := recordOf_retained (List.mem_of_find?_eq_some hx)
      rw [hback, hr, Option.some.injEq] at hr'
      subst hr'
      have hne := (carries_of_carrierOf hx).1
      rcases hname : r.pName with _ | x
      · rw [hname] at hne
        exact absurd rfl hne
      · rw [hname, Option.getD_some] at hne hx
        exact ⟨x, hname, hne, hx⟩
  · rintro ⟨x, hname, -, hx⟩
    rw [hname, Option.getD_some, hx]
    exact hp

theorem Loaded.translates (h : Loaded done d) : Translates (retained done) d where
  toName x := by
    rw [h.getProtocolName_eq, h.toProtocol_eq]
    rcases hx : carrierOf (retained done) x with _ | r
    · rw [Option.elim_none, h.recordOf_unknown, Option.elim_none]
    · rw [Option.elim_some, recordOf_retained (List.mem_of_find?_eq_some hx), Option.elim_some]
  comesBack p := by
    rw [h.getProtocolName_eq]
    rcases hr : recordOf (retained done) p with _ | r
    · rw [Option.elim_none, h.toProtocol_eq]
      constructor
      · intro hback
        right
        rcases hx : carrierOf (retained done) "unknown" with _ | r'
        · rw [hx] at hback
          exact ⟨hback.symm, rfl⟩
        · rw [hx, Option.elim_some] at hback
          have hr' := recordOf_retained (List.mem_of_find?_eq_some hx)
          rw [hback, hr] at hr'
          cases hr'
      · rintro (⟨r, hr', -⟩ | ⟨rfl, hx⟩)
        · cases hr'
        · rw [hx]
          rfl
    · rw [Option.elim_some, h.toProtocol_name_iff hr]
      constructor
      · exact fun hfirst => Or.inl ⟨r, rfl, hfirst⟩
      · rintro (⟨r', hr', hfirst⟩ | ⟨rfl, -⟩)
        · rw [Option.some.inj hr']
          exact hfirst
        · rw [h.recordOf_unknown] at hr
          cases hr

/-- **There and back**: after any records with numbers below the capacity, a name or alias is translated
to a number whose name is that of the first retained record that carries it, and a number comes back by
its name if and only if its record is the first that carries a name that is not empty, or it is the
unknown one and no protocol is called so. -/
theorem translates_load (records : List Protoent)
    (h : ∀ r ∈ records, 0 ≤ r.pProto.toInt ∧ r.pProto.toInt < 512) :
    ∃ d, ProtocolDatabase.load records = some d ∧ Translates (retained records) d := by
  have hslot : ∀ r ∈ records, (slot? r.pProto).isSome := by
    intro r hr
    rw [slot?, dif_pos (h r hr)]
    rfl
  obtain ⟨d, hd⟩ := exists_load (d := {}) hslot
  exact ⟨d, hd, (loaded_load loaded_init hd).translates⟩

theorem translates_load_systemRecords :
    ∃ d, ProtocolDatabase.load systemRecords = some d ∧ Translates (retained systemRecords) d :=
  translates_load systemRecords (by decide)

end Iouxx.Net
