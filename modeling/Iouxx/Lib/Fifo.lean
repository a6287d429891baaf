import Iouxx.Lib.Trace
import Mathlib.Data.List.Infix
import Mathlib.Data.Nat.ModEq

/-!
# Queues, and arrays used in a circle

A queue with room for `cap` entries takes entries at its end and gives them up at its front
(`step`). Whatever the order of these, what was taken is what was given up and what is still there,
in the same order (`run_eq`).

An array is used in a circle where its entry `i` is the one at `i` modulo its length. The window of
`len` entries from `head` on then is such a queue: writing behind it is a push as long as the window
is not the whole array (`window_set`), and moving its head is a pop (`window_succ`); writing at the
head changes the front only (`window_set_head`).
-/

namespace Iouxx.Lib.Fifo

open Iouxx.Lib.Trace

universe u

/-! ### Queues -/

/-- What happens to a queue. -/
inductive Event (α : Type*)
  | push (x : α)
  | pop (x : α)

namespace Event

variable {α : Type*}

/-- What is pushed. -/
def pushed : Event α → List α
  | push x => [x]
  | pop _ => []

/-- What is popped. -/
def popped : Event α → List α
  | push _ => []
  | pop x => [x]

end Event

variable {α : Type u} [DecidableEq α]

/-- **One event** of a queue with room for `cap` entries. -/
def step (cap : ℕ) (q : List α) : Event α → Option (List α)
  | .push x => if q.length < cap then some (q ++ [x]) else none
  | .pop x => if q.head? = some x then some q.tail else none

variable {cap : ℕ} {q q' : List α}

theorem step_eq {e : Event α} (h : step cap q e = some q') :
    q ++ e.pushed = e.popped ++ q' ∧ (q.length ≤ cap → q'.length ≤ cap) := by
  cases e with
  | push x =>
    obtain ⟨hlt, h⟩ := Option.ite_none_right_eq_some.mp h
    obtain rfl := Option.some.inj h
    exact ⟨rfl, fun _ => by rw [List.length_append]; exact hlt⟩
  | pop x =>
    obtain ⟨hhead, h⟩ := Option.ite_none_right_eq_some.mp h
    obtain rfl := Option.some.inj h
    obtain ⟨rest, rfl⟩ := List.head?_eq_some_iff.mp hhead
    refine ⟨by simp [Event.pushed, Event.popped], fun hle => ?_⟩
    rw [List.length_cons] at hle
    rw [List.tail_cons]; omega

/-- **First in, first out**: in every run, what was in the queue and what was pushed is what was
popped and what is left, in order, and the queue never holds more than it has room for. -/
theorem run_eq : ∀ {es : List (Event α)} {q q' : List α}, run (step cap) q es = some q' →
    q ++ es.flatMap Event.pushed = es.flatMap Event.popped ++ q' ∧
      (q.length ≤ cap → q'.length ≤ cap)
  | [], q, q', h => by
    rw [run_nil, Option.some.injEq] at h
    subst h
    exact ⟨by simp, id⟩
  | e :: es, q, q', h => by
    obtain ⟨q1, h1, h2⟩ := (run_cons_eq_some_iff _).mp h
    obtain ⟨heq, hle⟩ := step_eq h1
    obtain ⟨heq', hle'⟩ := run_eq h2
    refine ⟨?_, fun h => hle' (hle h)⟩
    rw [List.flatMap_cons, List.flatMap_cons, ← List.append_assoc, heq, List.append_assoc, heq',
      List.append_assoc]

theorem run_push : ∀ {l q : List α}, q.length + l.length ≤ cap →
    run (step cap) q (l.map Event.push) = some (q ++ l)
  | [], q, _ => by rw [List.append_nil]; rfl
  | x :: l, q, h => by
    rw [List.length_cons] at h
    refine (run_cons_eq_some_iff _).mpr ⟨q ++ [x], if_pos (by omega), ?_⟩
    rw [run_push (by rw [List.length_append, List.length_singleton]; omega), List.append_assoc]
    rfl

/-! ### Arrays used in a circle -/

variable {β : Type*} {n : ℕ} [NeZero n]

/-- The entry at `i` modulo the length. -/
def entry (a : Vector β n) (i : ℕ) : β := a.get (Fin.ofNat n i)

/-- The `len` entries from `head` on. -/
def window (a : Vector β n) (head len : ℕ) : List β :=
  (List.range len).map fun i => entry a (head + i)

@[simp] theorem length_window (a : Vector β n) (head len : ℕ) :
    (window a head len).length = len := by
  simp [window]

theorem entry_congr (a : Vector β n) {i j : ℕ} (h : i ≡ j [MOD n]) : entry a i = entry a j :=
  congrArg a.get (Fin.ext h)

theorem window_congr (a : Vector β n) {head head' : ℕ} (h : head ≡ head' [MOD n]) (len : ℕ) :
    window a head len = window a head' len :=
  List.map_congr_left fun i _ => entry_congr a (h.add_right i)

theorem window_succ (a : Vector β n) (head len : ℕ) :
    window a head (len + 1) = entry a head :: window a (head + 1) len := by
  unfold window
  rw [List.range_succ_eq_map, List.map_cons, List.map_map, Nat.add_zero]
  congr 1
  refine List.map_congr_left fun i _ => ?_
  show entry a (head + (i + 1)) = entry a (head + 1 + i)
  rw [Nat.add_right_comm, Nat.add_assoc]

theorem entry_set (a : Vector β n) (i j : ℕ) (x : β) :
    entry (a.setIfInBounds (i % n) x) j = if i ≡ j [MOD n] then x else entry a j := by
  have hget : ∀ (v : Vector β n) (i : Fin n), v.get i = v[i] := fun _ _ => rfl
  unfold entry
  rw [hget, hget, Fin.getElem_fin, Vector.getElem_setIfInBounds]
  rfl

/-- **Writing behind the window** appends, as long as the window is not the whole array. -/
theorem window_set (a : Vector β n) (head : ℕ) {len : ℕ} (hlen : len < n) (x : β) :
    window (a.setIfInBounds ((head + len) % n) x) head (len + 1) = window a head len ++ [x] := by
  unfold window
  rw [List.range_succ, List.map_append, List.map_singleton, entry_set, if_pos (Nat.ModEq.refl _)]
  congr 1
  refine List.map_congr_left fun i hi => ?_
  have hi : i < len := List.mem_range.mp hi
  rw [entry_set, if_neg]
  intro hmod
  have := (Nat.ModEq.add_left_cancel' head hmod).eq_of_lt_of_lt hlen (by omega)
  omega

theorem window_set_head (a : Vector β n) (head : ℕ) {len : ℕ} (hlen : len < n) (x : β) :
    window (a.setIfInBounds (head % n) x) head (len + 1) = x :: window a (head + 1) len := by
  rw [window_succ, entry_set, if_pos (Nat.ModEq.refl _)]
  congr 1
  refine List.map_congr_left fun i hi => ?_
  have hi : i < len := List.mem_range.mp hi
  rw [entry_set, if_neg]
  intro hmod
  have hmod : head + 0 ≡ head + (1 + i) [MOD n] := by rwa [Nat.add_zero, ← Nat.add_assoc]
  have := (Nat.ModEq.add_left_cancel' head hmod).eq_of_lt_of_lt (by omega) (by omega)
  omega

end Iouxx.Lib.Fifo
