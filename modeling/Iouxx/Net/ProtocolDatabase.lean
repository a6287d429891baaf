import Mathlib.Data.List.Basic
import Mathlib.Data.Nat.Notation

/-!
# The protocol database (`socket.hpp`, `protocol_database`)

The constructor reads the records of the system into a table with a slot for each number, and into
an index from names and aliases to numbers. A record whose number has been loaded before is skipped,
and a name that is in the index already keeps its number.

* `lookup_foldl_tryEmplace`: what the index says after names were added;
* `loaded_step`, `loaded_load`: **what the table and the index hold** after some records;
* `Loaded.looksUp`, `looksUp_load`: **lookups by name find the first retained record, lookups by
  number every record**.
-/

namespace Iouxx.Net

/-! ### The database -/

/-- `protocol_database::entry`; `unknown` has the number -1. -/
structure Entry where
  name : String := "unknown"
  «alias» : List String := ["Unknown", "UNKNOWN"]
  no : Int32 := -1
  deriving DecidableEq, Repr

/-- `protocol_database::unknown_protocol`. -/
def unknownProtocol : Entry := {}

/-- Entries are compared by their numbers. -/
def Entry.isUnknown (e : Entry) : Bool := e.no == unknownProtocol.no

/-- `protoent`; null pointers are `none`. -/
structure Protoent where
  pName : Option String
  pAliases : Option (List String)
  pProto : Int32
  deriving DecidableEq, Repr

/-- The slot of a number below `capacity()`; negative numbers are too large as unsigned ones. -/
def slot? (no : Int32) : Option (Fin 512) :=
  if h : 0 ≤ no.toInt ∧ no.toInt < 512 then some ⟨no.toInt.toNat, by omega⟩ else none

/-- `flat_map::try_emplace`: a key that is there keeps its value. -/
def tryEmplace (m : List (String × Fin 512)) (key : String) (v : Fin 512) :
    List (String × Fin 512) :=
  if (m.lookup key).isSome then m else (key, v) :: m

/-- The entry of a record: names that are null or empty are left out. -/
def Entry.ofRecord (r : Protoent) : Entry where
  name := r.pName.getD ""
  «alias» := (r.pAliases.getD []).filter (· ≠ "")
  no := r.pProto

/-- The names the index is given for an entry. -/
def Entry.keys (e : Entry) : List String := (if e.name ≠ "" then [e.name] else []) ++ e.alias

/-- `protocol_database`. -/
structure ProtocolDatabase where
  db : Vector Entry 512 := Vector.replicate 512 {}
  nameIndex : List (String × Fin 512) := []
  total : ℕ := 0

namespace ProtocolDatabase

/-- The body of the loop of the constructor; `none` is `std::runtime_error`. -/
def loadRecord (d : ProtocolDatabase) (r : Protoent) : Option ProtocolDatabase := do
  let no ← slot? r.pProto -- or the number is too large
  if !d.db[no].isUnknown then
    return d -- duplicate entry
  else
    let dbEntry := Entry.ofRecord r
    return {
      db := d.db.set no dbEntry
      nameIndex := dbEntry.keys.foldl (fun m key => tryEmplace m key no) d.nameIndex
      total := d.total + 1 }

/-- The constructor, for the records that `getprotoent` delivers. -/
def load (records : List Protoent) : Option ProtocolDatabase := records.foldlM loadRecord {}

/-- `get` of a name. -/
def getName (d : ProtocolDatabase) (name : String) : Entry :=
  match d.nameIndex.lookup name with
  | some i => d.db[i]
  | none => unknownProtocol

/-- `get` of a number. -/
def getNo (d : ProtocolDatabase) (p : Int32) : Entry :=
  match slot? p with
  | some i => d.db[i]
  | none => unknownProtocol

/-- `contains` of a name. -/
def containsName (d : ProtocolDatabase) (name : String) : Bool := (d.nameIndex.lookup name).isSome

/-- `contains` of a number. -/
def containsNo (d : ProtocolDatabase) (p : Int32) : Bool :=
  match slot? p with
  | some i => !d.db[i].isUnknown
  | none => false

/-- `size`. -/
def size (d : ProtocolDatabase) : ℕ := d.total

end ProtocolDatabase

/-! ### What the records say -/

/-- A non-empty string is the name or an alias of the record. -/
def Protoent.Carries (x : String) (r : Protoent) : Prop :=
  x ≠ "" ∧ (r.pName = some x ∨ x ∈ r.pAliases.getD [])

instance (x : String) (r : Protoent) : Decidable (r.Carries x) := by
  unfold Protoent.Carries; infer_instance

/-- **Lookups are complete** for the names of the records `named` and the numbers of the records
`records`: a name is found with the number of the first record that carries it. -/
structure LooksUp (named records : List Protoent) (d : ProtocolDatabase) : Prop where
  carried : ∀ x r, (named.find? fun r => r.Carries x) = some r →
    d.containsName x = true ∧ (d.getName x).no = r.pProto
  notCarried : ∀ x, (∀ r ∈ named, ¬ r.Carries x) → d.getName x = unknownProtocol
  number : ∀ p, (d.containsNo p = true ∧ (d.getNo p).no = p) ↔ ∃ r ∈ records, r.pProto = p

/-- **The records that are retained**: the first one of each number. -/
def retained : List Protoent → List Protoent
  | [] => []
  | r :: l => r :: (retained l).filter (·.pProto ≠ r.pProto)

theorem mem_keys_ofRecord {x : String} {r : Protoent} :
    x ∈ (Entry.ofRecord r).keys ↔ r.Carries x := by
  have hname : ∀ o : Option String, (x ∈ if o.getD "" ≠ "" then [o.getD ""] else []) ↔
      x ≠ "" ∧ o = some x := by
    intro o
    rcases o with _ | name
    · simp
    · rw [Option.getD_some]
      by_cases h : name = ""
      · rw [if_neg (not_not.mpr h), h]
        refine ⟨fun hx => absurd hx List.not_mem_nil, ?_⟩
        rintro ⟨hx, he⟩
        exact absurd (Option.some.inj he).symm hx
      · rw [if_pos h, List.mem_singleton, Option.some.injEq]
        constructor
        · rintro rfl
          exact ⟨h, rfl⟩
        · exact fun hx => hx.2.symm
  unfold Entry.keys Entry.ofRecord Protoent.Carries
  rw [List.mem_append, hname, List.mem_filter, decide_eq_true_eq, and_or_left,
    and_comm (a := x ∈ _)]

theorem slot?_eq_some_iff {no : Int32} {i : Fin 512} : slot? no = some i ↔ no.toInt = i := by
  unfold slot?
  have hi := i.isLt
  split_ifs with h
  · rw [Option.some.injEq, Fin.ext_iff]
    simp only
    omega
  · refine ⟨fun he => (by cases he), fun he => absurd he (by omega)⟩

theorem slot?_inj {no no' : Int32} {i : Fin 512} (h : slot? no = some i) (h' : slot? no' = some i) :
    no = no' := by
  rw [← Int32.toInt_inj, slot?_eq_some_iff.mp h, slot?_eq_some_iff.mp h']

theorem isUnknown_ofRecord {r : Protoent} {i : Fin 512} (h : slot? r.pProto = some i) :
    (Entry.ofRecord r).isUnknown = false := by
  have hno := slot?_eq_some_iff.mp h
  have hi := i.isLt
  rw [Entry.isUnknown, beq_eq_false_iff_ne, ne_eq, ← Int32.toInt_inj]
  change ¬ r.pProto.toInt = -1
  omega

theorem mem_retained_pProto {p : Int32} : ∀ l : List Protoent,
    (∃ r ∈ retained l, r.pProto = p) ↔ ∃ r ∈ l, r.pProto = p
  | [] => Iff.rfl
  | a :: l => by
    have ih := mem_retained_pProto (p := p) l
    rw [retained]
    by_cases ha : a.pProto = p
    · exact ⟨fun _ => ⟨a, List.mem_cons_self, ha⟩, fun _ => ⟨a, List.mem_cons_self, ha⟩⟩
    · simp only [List.exists_mem_cons_iff, ha, false_or, List.mem_filter, decide_eq_true_eq, ← ih]
      constructor
      · rintro ⟨r, ⟨hr, -⟩, hp⟩
        exact ⟨r, hr, hp⟩
      · rintro ⟨r, hr, rfl⟩
        exact ⟨r, ⟨hr, fun he => ha he.symm⟩, rfl⟩

/-- **One more record** is retained if its number is new. -/
theorem retained_append_singleton (r : Protoent) : ∀ l : List Protoent,
    retained (l ++ [r]) =
      if ∃ r' ∈ l, r'.pProto = r.pProto then retained l else retained l ++ [r]
  | [] => rfl
  | a :: l => by
    have ih := retained_append_singleton r l
    rw [List.cons_append, retained, retained, ih]
    by_cases ha : a.pProto = r.pProto
    · have hex : ∃ r' ∈ a :: l, r'.pProto = r.pProto := ⟨a, List.mem_cons_self, ha⟩
      rw [if_pos hex]
      split_ifs
      · rfl
      · simp [List.filter_append, ha]
    · have hex : (∃ r' ∈ a :: l, r'.pProto = r.pProto) ↔ ∃ r' ∈ l, r'.pProto = r.pProto := by
        rw [List.exists_mem_cons_iff]
        exact or_iff_right ha
      rw [if_congr hex rfl rfl]
      split_ifs
      · rfl
      · simp [List.filter_append, Ne.symm ha]

theorem mem_of_mem_retained {r : Protoent} : ∀ {l : List Protoent}, r ∈ retained l → r ∈ l
  | a :: l, h => by
    rw [retained, List.mem_cons, List.mem_filter] at h
    rcases h with rfl | ⟨h, -⟩
    · exact List.mem_cons_self
    · exact List.mem_cons_of_mem a (mem_of_mem_retained h)

/-! ### The index -/

theorem lookup_tryEmplace (m : List (String × Fin 512)) (key x : String) (v : Fin 512) :
    (tryEmplace m key v).lookup x = (m.lookup x).or (if x = key then some v else none) := by
  unfold tryEmplace
  by_cases hx : x = key
  · subst hx
    rw [if_pos rfl]
    rcases hm : m.lookup x with _ | w
    · simp
    · simp [hm]
  · rw [if_neg hx, Option.or_none]
    split_ifs
    · rfl
    · rw [List.lookup_cons, beq_eq_false_iff_ne.mpr hx]

theorem lookup_foldl_tryEmplace (x : String) (v : Fin 512) :
    ∀ (keys : List String) (m : List (String × Fin 512)),
      (keys.foldl (fun m key => tryEmplace m key v) m).lookup x =
        (m.lookup x).or (if x ∈ keys then some v else none)
  | [], m => by rw [List.foldl_nil, if_neg List.not_mem_nil, Option.or_none]
  | key :: keys, m => by
    rw [List.foldl_cons, lookup_foldl_tryEmplace x v keys, lookup_tryEmplace, Option.or_assoc]
    congr 1
    by_cases hx : x = key
    · have hmem : x ∈ key :: keys := by rw [hx]; exact List.mem_cons_self
      rw [if_pos hx, if_pos hmem, Option.some_or]
    · have hmem : x ∈ key :: keys ↔ x ∈ keys := by
        rw [List.mem_cons]
        exact or_iff_right hx
      rw [if_neg hx, Option.none_or, if_congr hmem rfl rfl]

/-! ### Loading -/

/-- **What is loaded after the records `done`**: a slot has the entry of the first record with its
number, and a name that of the first retained record that carries it. -/
structure Loaded (done : List Protoent) (d : ProtocolDatabase) : Prop where
  inRange : ∀ r ∈ done, (slot? r.pProto).isSome
  slot : ∀ i : Fin 512, d.db[i] =
    ((retained done).find? fun r => slot? r.pProto = some i).elim {} Entry.ofRecord
  index : ∀ x, d.nameIndex.lookup x =
    ((retained done).find? fun r => r.Carries x).bind fun r => slot? r.pProto
  total : d.total = d.db.toList.countP fun e => !e.isUnknown

theorem loaded_init : Loaded [] {} where
  inRange _ h := absurd h List.not_mem_nil
  slot i := Vector.getElem_replicate i.isLt
  index _ := rfl
  total := by
    rw [eq_comm, List.countP_eq_zero]
    intro e he
    rw [Vector.toList_replicate, List.mem_replicate] at he
    rw [he.2]
    decide

variable {done : List Protoent} {d d' : ProtocolDatabase} {r : Protoent} {i : Fin 512}

theorem Loaded.isUnknown_iff (h : Loaded done d) (hi : slot? r.pProto = some i) :
    d.db[i].isUnknown = false ↔ ∃ r' ∈ done, r'.pProto = r.pProto := by
  rw [h.slot i, ← mem_retained_pProto]
  rcases hfind : (retained done).find? fun r => slot? r.pProto = some i with _ | r'
  · have hunknown : (({} : Entry)).isUnknown = true := rfl
    rw [hfind, Option.elim_none, hunknown]
    refine ⟨fun he => (by cases he), ?_⟩
    rintro ⟨r', hr', he⟩
    have hnone := List.find?_eq_none.mp hfind r' hr'
    rw [he] at hnone
    exact absurd hi (by simpa using hnone)
  · have hr' : slot? r'.pProto = some i := by simpa using List.find?_some hfind
    rw [hfind, Option.elim_some]
    exact ⟨fun _ => ⟨r', List.mem_of_find?_eq_some hfind, slot?_inj hr' hi⟩,
      fun _ => isUnknown_ofRecord hr'⟩

/-- What the body of the loop does: nothing for a slot that is taken, or it fills the slot. -/
theorem loadRecord_cases (hs : d.loadRecord r = some d') :
    ∃ i, slot? r.pProto = some i ∧
      ((d.db[i].isUnknown = false ∧ d' = d) ∨
        (d.db[i].isUnknown = true ∧ d'.db = d.db.set i (Entry.ofRecord r) ∧
          d'.nameIndex =
            (Entry.ofRecord r).keys.foldl (fun m key => tryEmplace m key i) d.nameIndex ∧
          d'.total = d.total + 1)) := by
  unfold ProtocolDatabase.loadRecord at hs
  obtain ⟨i, hi, hs⟩ := Option.bind_eq_some_iff.mp hs
  refine ⟨i, hi, ?_⟩
  split_ifs at hs with hdup
  · exact Or.inl ⟨by simpa using hdup, (Option.some.inj hs).symm⟩
  · rw [← Option.some.inj hs]
    exact Or.inr ⟨by simpa using hdup, rfl, rfl, rfl⟩

section NewRecord
variable (h : Loaded done d) (hi : slot? r.pProto = some i)
include h hi

theorem Loaded.slot_append (hnew : ¬ ∃ r' ∈ done, r'.pProto = r.pProto) (j : Fin 512) :
    (d.db.set i (Entry.ofRecord r))[j] =
      ((retained done ++ [r]).find? fun r => slot? r.pProto = some j).elim {} Entry.ofRecord := by
  rw [List.find?_append, List.find?_singleton]
  by_cases hij : i = j
  · subst hij
    have hnone : (retained done).find? (fun r => slot? r.pProto = some i) = none := by
      rw [List.find?_eq_none]
      intro r' hr'
      rw [decide_eq_true_eq]
      exact fun hi' => hnew ⟨r', mem_of_mem_retained hr', slot?_inj hi' hi⟩
    rw [hnone, Option.none_or, if_pos (decide_eq_true hi)]
    exact Vector.getElem_set_self i.isLt
  · have hne : ¬ decide (slot? r.pProto = some j) = true := by
      rw [decide_eq_true_eq, hi, Option.some.injEq]
      exact hij
    rw [if_neg hne, Option.or_none, ← h.slot j]
    exact Vector.getElem_set_ne i.isLt j.isLt fun he => hij (Fin.ext he)

/-- The index after a record with a new number: earlier records go first. -/
theorem Loaded.index_append (x : String) :
    ((Entry.ofRecord r).keys.foldl (fun m key => tryEmplace m key i) d.nameIndex).lookup x =
      ((retained done ++ [r]).find? fun r => r.Carries x).bind fun r => slot? r.pProto := by
  rw [lookup_foldl_tryEmplace, h.index x, List.find?_append, List.find?_singleton]
  rcases hfind : (retained done).find? fun r => r.Carries x with _ | r'
  · rw [hfind, Option.none_or, Option.bind_none, Option.none_or]
    by_cases hx : r.Carries x
    · rw [if_pos (mem_keys_ofRecord.mpr hx), if_pos (decide_eq_true hx), Option.bind_some, hi]
    · rw [if_neg (mt mem_keys_ofRecord.mp hx), if_neg (mt of_decide_eq_true hx),
        Option.bind_none]
  · have hr' := h.inRange r' (mem_of_mem_retained (List.mem_of_find?_eq_some hfind))
    obtain ⟨j, hj⟩ := Option.isSome_iff_exists.mp hr'
    rw [hfind, Option.some_or, Option.bind_some, hj, Option.some_or]

theorem Loaded.total_append (hfree : d.db[i].isUnknown = true) :
    d.total + 1 = (d.db.set i (Entry.ofRecord r)).toList.countP fun e => !e.isUnknown := by
  have hnew := isUnknown_ofRecord hi
  have hlt : i.val < d.db.toList.length := by simp
  have hold : d.db.toList[i.val].isUnknown = true := by
    rw [Vector.getElem_toList]
    exact hfree
  rw [h.total, Vector.toList_set, List.countP_set hlt]
  simp only [hold, hnew, Bool.not_true, Bool.not_false, Bool.false_eq_true, if_false, if_true,
    Nat.sub_zero]

end NewRecord

/-- **One more record.** -/
theorem loaded_step (h : Loaded done d) (hs : d.loadRecord r = some d') :
    Loaded (done ++ [r]) d' := by
  obtain ⟨i, hi, hcases⟩ := loadRecord_cases hs
  have hrange : ∀ r' ∈ done ++ [r], (slot? r'.pProto).isSome := by
    intro r' hr'
    rcases List.mem_append.mp hr' with hr' | hr'
    · exact h.inRange r' hr'
    · rw [List.mem_singleton.mp hr', hi]
      rfl
  have htaken := h.isUnknown_iff hi
  have happend := retained_append_singleton r done
  rcases hcases with ⟨hdup, rfl⟩ | ⟨hfree, hdb, hindex, htotal⟩
  · -- a duplicate: nothing is retained, and nothing changes
    rw [if_pos (htaken.mp hdup)] at happend
    exact ⟨hrange, by rw [happend]; exact h.slot, by rw [happend]; exact h.index,
      h.total⟩
  · have hnew : ¬ ∃ r' ∈ done, r'.pProto = r.pProto := by
      rw [← htaken, hfree]
      exact Bool.noConfusion
    rw [if_neg hnew] at happend
    refine ⟨hrange, fun j => ?_, fun x => ?_, ?_⟩
    · rw [hdb, happend]
      exact h.slot_append hi hnew j
    · rw [hindex, happend]
      exact h.index_append hi x
    · rw [htotal, hdb]
      exact h.total_append hi hfree

theorem loaded_load : ∀ {rest done : List Protoent} {d d' : ProtocolDatabase}, Loaded done d →
    rest.foldlM ProtocolDatabase.loadRecord d = some d' → Loaded (done ++ rest) d'
  | [], done, d, d', h, hs => by
    rw [List.append_nil, ← Option.some.inj hs]
    exact h
  | r :: rest, done, d, d', h, hs => by
    rw [List.foldlM_cons] at hs
    obtain ⟨d1, h1, h2⟩ := Option.bind_eq_some_iff.mp hs
    have h' := loaded_load (loaded_step h h1) h2
    rwa [List.append_assoc] at h'

theorem exists_load : ∀ {records : List Protoent} {d : ProtocolDatabase},
    (∀ r ∈ records, (slot? r.pProto).isSome) →
      ∃ d', records.foldlM ProtocolDatabase.loadRecord d = some d'
  | [], d, _ => ⟨d, rfl⟩
  | r :: rest, d, h => by
    obtain ⟨i, hi⟩ := Option.isSome_iff_exists.mp (h r List.mem_cons_self)
    have hstep : ∃ d1, d.loadRecord r = some d1 := by
      unfold ProtocolDatabase.loadRecord
      rw [hi]
      by_cases hdup : (!d.db[i].isUnknown) = true
      · exact ⟨_, if_pos hdup⟩
      · exact ⟨_, if_neg hdup⟩
    obtain ⟨d1, h1⟩ := hstep
    obtain ⟨d', h2⟩ := exists_load (d := d1) fun r' hr' => h r' (List.mem_cons_of_mem r hr')
    exact ⟨d', by rw [List.foldlM_cons, h1]; exact h2⟩

/-! ### Lookups -/

theorem Loaded.no_eq (h : Loaded done d) (hi : d.db[i].isUnknown = false) :
    slot? d.db[i].no = some i := by
  rw [h.slot i] at hi ⊢
  rcases hfind : (retained done).find? fun r => slot? r.pProto = some i with _ | r
  · rw [hfind] at hi
    cases hi
  · have hr : slot? r.pProto = some i := by simpa using List.find?_some hfind
    rw [hfind]
    exact hr

/-- **Lookups by name find the first retained record, lookups by number every record.** -/
theorem Loaded.looksUp (h : Loaded done d) : LooksUp (retained done) done d where
  carried x r hfind := by
    have hr := h.inRange r (mem_of_mem_retained (List.mem_of_find?_eq_some hfind))
    obtain ⟨i, hi⟩ := Option.isSome_iff_exists.mp hr
    have hindex := h.index x
    rw [hfind, Option.bind_some, hi] at hindex
    have htaken : d.db[i].isUnknown = false :=
      (h.isUnknown_iff hi).mpr ⟨r, mem_of_mem_retained (List.mem_of_find?_eq_some hfind), rfl⟩
    unfold ProtocolDatabase.containsName ProtocolDatabase.getName
    rw [hindex]
    exact ⟨rfl, slot?_inj (h.no_eq htaken) hi⟩
  notCarried x hx := by
    have hindex := h.index x
    rw [List.find?_eq_none.mpr (by simpa using hx), Option.bind_none] at hindex
    unfold ProtocolDatabase.getName
    rw [hindex]
  number p := by
    unfold ProtocolDatabase.containsNo ProtocolDatabase.getNo
    rcases hp : slot? p with _ | i
    · refine ⟨fun he => (by cases he.1), ?_⟩
      rintro ⟨r, hr, rfl⟩
      have := h.inRange r hr
      rw [hp] at this
      cases this
    · have hiff := h.isUnknown_iff (r := ⟨none, none, p⟩) hp
      rw [← hiff]
      simp only [Bool.not_eq_true']
      exact ⟨And.left, fun he => ⟨he, slot?_inj (h.no_eq he) hp⟩⟩

/-- **What lookups find**, for every sequence of records with numbers below the capacity. -/
theorem looksUp_load (records : List Protoent)
    (h : ∀ r ∈ records, 0 ≤ r.pProto.toInt ∧ r.pProto.toInt < 512) :
    ∃ d, ProtocolDatabase.load records = some d ∧ LooksUp (retained records) records d := by
  have hslot : ∀ r ∈ records, (slot? r.pProto).isSome := by
    intro r hr
    rw [slot?, dif_pos (h r hr)]
    rfl
  obtain ⟨d, hd⟩ := exists_load (d := {}) hslot
  exact ⟨d, hd, (loaded_load loaded_init hd).looksUp⟩

/-- The first records of the system: two have the number 0. -/
def systemRecords : List Protoent :=
  [⟨some "ip", some ["IP"], 0⟩, ⟨some "hopopt", some ["HOPOPT"], 0⟩, ⟨some "icmp", some ["ICMP"], 1⟩]

theorem looksUp_load_systemRecords :
    ∃ d, ProtocolDatabase.load systemRecords = some d ∧
      LooksUp (retained systemRecords) systemRecords d :=
  looksUp_load systemRecords (by decide)

/-- **`hopopt` is not found**: its record has the number of an earlier one. -/
theorem not_looksUp_load :
    ∃ d, ProtocolDatabase.load systemRecords = some d ∧ ¬ LooksUp systemRecords systemRecords d := by
  have hslot : ∀ r ∈ systemRecords, (slot? r.pProto).isSome := by decide
  obtain ⟨d, hd⟩ := exists_load hslot
  refine ⟨d, hd, fun h => ?_⟩
  have hindex := (loaded_load loaded_init hd).index "hopopt"
  have hfound := (h.carried "hopopt" ⟨some "hopopt", some ["HOPOPT"], 0⟩ (by decide)).1
  unfold ProtocolDatabase.containsName at hfound
  rw [hindex] at hfound
  exact absurd hfound (by decide)

end Iouxx.Net
