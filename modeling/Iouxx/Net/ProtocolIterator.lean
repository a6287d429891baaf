import Iouxx.Lib.SparseWalk
import Iouxx.Net.ProtocolDatabase

/-!
# Iterating over the protocol database (`socket.hpp`, `protocol_database::iterator`)

An iterator is a range of the table, from its position to the end. `begin` and the prefix increment
go on to the next slot that is loaded; the postfix increment goes on to the next slot.

* `Loaded.numbers_increasing`: the loaded slots are in the order of their numbers;
* `Loaded.traverses_iff`, `postIncrement_eq_iff`: the parts of the main result;
* `iteration_iff`: **when a walk over the database visits its entries, and when the two increments
  agree**.
-/

namespace Iouxx.Net

open Iouxx.Lib.SparseWalk

/-! ### The iterator -/

/-- `protocol_database::iterator`: the slots from `iter` to `end`. -/
structure Iterator where
  rest : List Entry
  deriving DecidableEq, Repr

/-- The loop of `begin` and of the prefix increment: as long as the slot is unknown. -/
def skipUnknown : List Entry → List Entry
  | [] => []
  | e :: rest => if e.isUnknown then skipUnknown rest else e :: rest

namespace Iterator

/-- `operator++()`, on an iterator that is not at the end. -/
def preIncrement (it : Iterator) : Iterator := ⟨skipUnknown it.rest.tail⟩

/-- `operator++(int)`: the old iterator, and the iterator afterwards. -/
def postIncrement (it : Iterator) : Iterator × Iterator := (it, ⟨it.rest.tail⟩)

end Iterator

/-- `begin`. -/
def ProtocolDatabase.begin (d : ProtocolDatabase) : Iterator := ⟨skipUnknown d.db.toList⟩

/-- The two increments. -/
inductive Increment
  | pre
  | post
  deriving DecidableEq, Repr

/-- The iterator after an increment. -/
def Increment.apply (it : Iterator) : Increment → Iterator
  | pre => it.preIncrement
  | post => it.postIncrement.2

/-- The entries that are visited from an iterator until it equals the end, no more than `n`, where `c`
says how it is incremented after each of them. -/
def visitFrom : ℕ → (ℕ → Increment) → Iterator → List Entry
  | 0, _, _ => []
  | n + 1, c, it =>
    match it.rest.head? with
    | none => [] -- equals `end()`
    | some e => e :: visitFrom n (fun k => c (k + 1)) ((c 0).apply it)

/-- The entries that a walk from `begin()` visits; there are not more than the table has slots. -/
def ProtocolDatabase.visit (d : ProtocolDatabase) (c : ℕ → Increment) : List Entry :=
  visitFrom 512 c d.begin

/-- A slot is loaded. -/
def isLoaded (e : Entry) : Bool := !e.isUnknown

/-- **A correct traversal**: the loaded entries, in the order of their numbers, each once, and as many
as `size()` says. -/
structure Traverses (d : ProtocolDatabase) (c : ℕ → Increment) : Prop where
  visited : d.visit c = d.db.toList.filter isLoaded
  increasing : ((d.visit c).map fun e => e.no.toInt).Pairwise (· < ·)
  count : (d.visit c).length = d.size

/-- The increments of a traversal suit the gaps of the table: behind the entry at which it is
incremented by `it++`, the next slot is loaded or the table ends. -/
def SuitsGaps (c : ℕ → Increment) (slots : List Entry) : Prop :=
  ∀ before e after, slots = before ++ e :: after → isLoaded e = true →
    c (before.countP isLoaded) = .post → ∀ e' ∈ after.head?, isLoaded e' = true

/-! ### Walks -/

/-- The step of a walk over the table. -/
def Increment.step : Increment → Step
  | pre => .skipping
  | post => .plain

theorem skipUnknown_eq : ∀ slots : List Entry, skipUnknown slots = skip isLoaded slots
  | [] => rfl
  | e :: slots => by
    rw [skipUnknown, skip, skipUnknown_eq slots, isLoaded]
    cases e.isUnknown <;> rfl

theorem rest_apply (it : Iterator) (inc : Increment) :
    (inc.apply it).rest = inc.step.apply isLoaded it.rest := by
  cases inc with
  | pre => exact skipUnknown_eq it.rest.tail
  | post => rfl

theorem visitFrom_eq : ∀ (n : ℕ) (c : ℕ → Increment) (it : Iterator),
    visitFrom n c it = walk isLoaded n (fun k => (c k).step) it.rest
  | 0, _, _ => rfl
  | n + 1, c, it => by
    rcases hrest : it.rest with _ | ⟨e, rest⟩
    · rw [visitFrom, hrest]
      rfl
    · rw [visitFrom, hrest, List.head?_cons, walk, visitFrom_eq n, rest_apply, hrest]

theorem suitsGaps_iff {c : ℕ → Increment} {slots : List Entry} :
    SuitsGaps c slots ↔ PlainBeforePresent isLoaded (fun k => (c k).step) slots := by
  have hstep : ∀ inc : Increment, inc.step = .plain ↔ inc = .post := by
    intro inc
    cases inc <;> decide
  unfold SuitsGaps PlainBeforePresent
  simp only [hstep]

theorem length_begin_le (d : ProtocolDatabase) : (skip isLoaded d.db.toList).length ≤ 512 :=
  (length_skip_le _).trans (Nat.le_of_eq (by simp))

/-- A walk ends: to go on for longer does not visit more. -/
theorem visitFrom_begin (d : ProtocolDatabase) (c : ℕ → Increment) {n : ℕ} (hn : 512 ≤ n) :
    visitFrom n c d.begin = d.visit c := by
  have hlen := length_begin_le d
  rw [ProtocolDatabase.visit, visitFrom_eq, visitFrom_eq, ProtocolDatabase.begin, skipUnknown_eq,
    walk_of_length_le (hlen.trans hn), walk_of_length_le hlen]

theorem visit_eq_iff (d : ProtocolDatabase) (c : ℕ → Increment) :
    d.visit c = d.db.toList.filter isLoaded ↔ SuitsGaps c d.db.toList := by
  rw [ProtocolDatabase.visit, visitFrom_eq, ProtocolDatabase.begin, skipUnknown_eq,
    suitsGaps_iff, ← plainBeforePresent_skip, ← filter_skip]
  exact walk_eq_filter_iff (length_begin_le d) (head?_skip _)

/-! ### The loaded slots -/

variable {records : List Protoent} {d : ProtocolDatabase}

theorem get_of_toList {i : Fin 512} {e : Entry} (h : d.db.toList[i.val]? = some e) :
    d.db.get i = e := by
  obtain ⟨hi, he⟩ := List.getElem?_eq_some_iff.mp h
  rw [Vector.getElem_toList] at he
  exact he

theorem Loaded.numbers_increasing (h : Loaded records d) :
    ((d.db.toList.filter isLoaded).map fun e => e.no.toInt).Pairwise (· < ·) := by
  rw [List.pairwise_map, List.pairwise_filter, List.pairwise_iff_getElem]
  intro i j hi hj hij hloaded hloaded'
  have hi' : i < 512 := by simpa using hi
  have hj' : j < 512 := by simpa using hj
  rw [Vector.getElem_toList] at hloaded hloaded' ⊢
  rw [Vector.getElem_toList]
  have hno := slot?_eq_some_iff.mp (h.no_eq (i := ⟨i, hi'⟩) (by simpa [isLoaded] using hloaded))
  have hno' := slot?_eq_some_iff.mp (h.no_eq (i := ⟨j, hj'⟩) (by simpa [isLoaded] using hloaded'))
  have hi'' : d.db[i].no.toInt = i := hno
  have hj'' : d.db[j].no.toInt = j := hno'
  rw [hi'', hj'']
  omega

/-- **Which walks are correct traversals.** -/
theorem Loaded.traverses_iff (h : Loaded records d) (c : ℕ → Increment) :
    Traverses d c ↔ SuitsGaps c d.db.toList := by
  rw [← visit_eq_iff]
  constructor
  · exact fun ht => ht.visited
  · intro hv
    refine ⟨hv, ?_, ?_⟩
    · rw [hv]
      exact h.numbers_increasing
    · rw [hv, ← List.countP_eq_length_filter]
      exact h.total.symm

/-- **When the increments agree** at a slot: the next one is loaded, or the table ends. -/
theorem postIncrement_eq_iff (e : Entry) (after : List Entry) :
    (⟨e :: after⟩ : Iterator).postIncrement =
        (⟨e :: after⟩, (⟨e :: after⟩ : Iterator).preIncrement) ↔
      ∀ e' ∈ after.head?, isLoaded e' = true := by
  have hpre : (⟨e :: after⟩ : Iterator).preIncrement = ⟨skip isLoaded after⟩ :=
    congrArg Iterator.mk (skipUnknown_eq after)
  rw [hpre, ← skip_eq_self_iff]
  constructor
  · intro he
    exact (congrArg Iterator.rest (Prod.mk.inj he).2).symm
  · intro he
    rw [he]
    rfl

/-- **Iteration**: for every database that was loaded and every mixture of increments, the walk from
`begin()` to `end()` is a correct traversal if and only if the increments suit the gaps; and at each
slot, `it++` returns the old position and goes where `++it` goes if and only if the next slot is
loaded or the table ends. -/
theorem iteration_iff (h : ProtocolDatabase.load records = some d) :
    (∀ c, Traverses d c ↔ SuitsGaps c d.db.toList) ∧
    (∀ before e after, d.db.toList = before ++ e :: after →
      ((⟨e :: after⟩ : Iterator).postIncrement =
          (⟨e :: after⟩, (⟨e :: after⟩ : Iterator).preIncrement) ↔
        ∀ e' ∈ after.head?, isLoaded e' = true)) :=
  ⟨(loaded_load loaded_init h).traverses_iff, fun _ e after _ => postIncrement_eq_iff e after⟩

theorem iteration_iff_systemRecords :
    ∃ d, ProtocolDatabase.load systemRecords = some d ∧
      (∀ c, Traverses d c ↔ SuitsGaps c d.db.toList) ∧
      (∀ before e after, d.db.toList = before ++ e :: after →
        ((⟨e :: after⟩ : Iterator).postIncrement =
            (⟨e :: after⟩, (⟨e :: after⟩ : Iterator).preIncrement) ↔
          ∀ e' ∈ after.head?, isLoaded e' = true)) := by
  have hslot : ∀ r ∈ systemRecords, (slot? r.pProto).isSome := by decide
  obtain ⟨d, hd⟩ := exists_load hslot
  exact ⟨d, hd, iteration_iff hd⟩

/-- **`it++` visits an unknown slot**, where only the number 0 is loaded. -/
theorem not_traverses_post :
    ∃ d, ProtocolDatabase.load [⟨some "ip", none, 0⟩] = some d ∧ ¬ Traverses d fun _ => .post := by
  have hslot : ∀ r ∈ [(⟨some "ip", none, 0⟩ : Protoent)], (slot? r.pProto).isSome := by decide
  obtain ⟨d, hd⟩ := exists_load hslot
  have hloaded := loaded_load loaded_init hd
  refine ⟨d, hd, fun ht => ?_⟩
  have hsuits := (hloaded.traverses_iff _).mp ht
  have h0 : isLoaded (d.db[(0 : Fin 512)]) = true := by
    rw [hloaded.slot 0]
    rfl
  have h1 : isLoaded (d.db[(1 : Fin 512)]) = false := by
    rw [hloaded.slot 1]
    rfl
  have hlen : d.db.toList.length = 512 := d.db.length_toList
  rcases hs : d.db.toList with _ | ⟨e, _ | ⟨e', rest⟩⟩
  · rw [hs] at hlen
    cases hlen
  · rw [hs] at hlen
    cases hlen
  · have he : d.db[(0 : Fin 512)] = e := get_of_toList (by rw [hs]; rfl)
    have he' : d.db[(1 : Fin 512)] = e' := get_of_toList (by rw [hs]; rfl)
    have hnext := hsuits [] e (e' :: rest) hs (he ▸ h0) rfl e' rfl
    rw [← he', h1] at hnext
    cases hnext

end Iouxx.Net
