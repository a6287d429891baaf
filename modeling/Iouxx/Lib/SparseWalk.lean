import Mathlib.Data.List.Basic
import Mathlib.Order.Nat

/-!
# Walking over a sparse list

Some of the entries of a list are present. A walk looks at the first entry of what is left and goes on
either to the next entry that is present or to the next entry, whatever it is. A walk that begins at a
present entry looks at exactly the present ones if and only if it goes plainly on only where the next
entry is present (`walk_eq_filter_iff`).
-/

namespace Iouxx.Lib.SparseWalk

variable {α : Type*} (p : α → Bool)

/-- How a walk goes on. -/
inductive Step
  | skipping
  | plain
  deriving DecidableEq, Repr

/-- From the first present entry on. -/
def skip : List α → List α
  | [] => []
  | x :: l => if p x then x :: l else skip l

/-- What is left after a step. -/
def Step.apply (l : List α) : Step → List α
  | skipping => skip p l.tail
  | plain => l.tail

/-- The entries a walk looks at until nothing is left, where `c` says how it goes on after the first
entry, after the second and so on; no more than `n` entries. -/
def walk : ℕ → (ℕ → Step) → List α → List α
  | 0, _, _ => []
  | _ + 1, _, [] => []
  | n + 1, c, x :: l => x :: walk n (fun k => c (k + 1)) ((c 0).apply p (x :: l))

/-- Where a walk over the present entries goes plainly on, the next entry is present or there is
none. -/
def PlainBeforePresent (c : ℕ → Step) (l : List α) : Prop :=
  ∀ before x after, l = before ++ x :: after → p x = true → c (before.countP p) = .plain →
    ∀ y ∈ after.head?, p y = true

variable {p} {c : ℕ → Step}

/-! ### Skipping -/

theorem length_skip_le : ∀ l : List α, (skip p l).length ≤ l.length
  | [] => le_rfl
  | x :: l => by
    rw [skip]
    split_ifs
    · exact le_rfl
    · exact (length_skip_le l).trans (Nat.le_succ _)

theorem head?_skip : ∀ (l : List α), ∀ y ∈ (skip p l).head?, p y = true
  | [], y, hy => by cases hy
  | x :: l, y, hy => by
    rw [skip] at hy
    split_ifs at hy with hx
    · rw [List.head?_cons, Option.mem_some_iff] at hy
      rw [← hy]
      exact hx
    · exact head?_skip l y hy

theorem filter_skip : ∀ l : List α, (skip p l).filter p = l.filter p
  | [] => rfl
  | x :: l => by
    rw [skip]
    split_ifs with hx
    · rfl
    · rw [filter_skip l, List.filter_cons_of_neg hx]

theorem skip_eq_self_iff (l : List α) : skip p l = l ↔ ∀ y ∈ l.head?, p y = true := by
  constructor
  · intro h
    rw [← h]
    exact head?_skip l
  · intro h
    rcases l with _ | ⟨x, l⟩
    · rfl
    · rw [skip, if_pos (h x rfl)]

/-! ### The condition -/

theorem plainBeforePresent_nil : PlainBeforePresent p c [] := fun before x after h => by simp at h

theorem plainBeforePresent_cons {x : α} {l : List α} :
    PlainBeforePresent p c (x :: l) ↔
      (p x = true → c 0 = .plain → ∀ y ∈ l.head?, p y = true) ∧
        PlainBeforePresent p (if p x then fun k => c (k + 1) else c) l := by
  have hcount : ∀ before : List α, c ((x :: before).countP p) =
      (if p x then fun k => c (k + 1) else c) (before.countP p) := by
    intro before
    rw [List.countP_cons]
    split_ifs <;> rfl
  constructor
  · intro h
    refine ⟨fun hx hc => h [] x l rfl hx hc, fun before y after hl hy hc => ?_⟩
    exact h (x :: before) y after (by rw [hl]; rfl) hy (by rw [hcount]; exact hc)
  · rintro ⟨hx, h⟩ before y after hl hy hc
    rcases before with _ | ⟨z, before⟩
    · rw [List.nil_append, List.cons.injEq] at hl
      obtain ⟨rfl, rfl⟩ := hl
      exact hx hy hc
    · rw [List.cons_append, List.cons.injEq] at hl
      obtain ⟨rfl, hl⟩ := hl
      rw [hcount] at hc
      exact h before y after hl hy hc

theorem plainBeforePresent_skip : ∀ l : List α,
    PlainBeforePresent p c (skip p l) ↔ PlainBeforePresent p c l
  | [] => Iff.rfl
  | x :: l => by
    rw [skip]
    split_ifs with hx
    · exact Iff.rfl
    · rw [plainBeforePresent_skip l, plainBeforePresent_cons, if_neg hx]
      exact ⟨fun h => ⟨fun hx' => absurd hx' hx, h⟩, And.right⟩

/-! ### The walk -/

/-- A walk ends, after no more entries than there are. -/
theorem walk_of_length_le : ∀ {n : ℕ} {c : ℕ → Step} {l : List α}, l.length ≤ n →
    walk p n c l = walk p l.length c l
  | 0, _, l, h => by rw [List.length_eq_zero_iff.mp (Nat.le_zero.mp h)]; rfl
  | n + 1, _, [], _ => rfl
  | n + 1, c, x :: l, h => by
    have hle : ((c 0).apply p (x :: l)).length ≤ l.length := by
      cases c 0
      · exact length_skip_le l
      · exact le_rfl
    have hn : l.length ≤ n := Nat.le_of_succ_le_succ h
    rw [List.length_cons, walk, walk, walk_of_length_le (hle.trans hn), ← walk_of_length_le hle]

/-- **Which walks look at exactly the present entries.** -/
theorem walk_eq_filter_iff : ∀ {n : ℕ} {c : ℕ → Step} {l : List α}, l.length ≤ n →
    (∀ x ∈ l.head?, p x = true) → (walk p n c l = l.filter p ↔ PlainBeforePresent p c l)
  | 0, c, l, h, _ => by
    rw [List.length_eq_zero_iff.mp (Nat.le_zero.mp h)]
    exact ⟨fun _ => plainBeforePresent_nil, fun _ => rfl⟩
  | n + 1, c, [], _, _ => ⟨fun _ => plainBeforePresent_nil, fun _ => rfl⟩
  | n + 1, c, x :: l, h, hx => by
    have hx : p x = true := hx x rfl
    have hn : l.length ≤ n := Nat.le_of_succ_le_succ h
    rw [walk, List.filter_cons_of_pos hx, List.cons.injEq, plainBeforePresent_cons, if_pos hx]
    rw [eq_self_iff_true, true_and]
    cases hc : c 0 with
    | skipping =>
      have ih := walk_eq_filter_iff (c := fun k => c (k + 1)) ((length_skip_le l).trans hn)
        (head?_skip l)
      rw [filter_skip, plainBeforePresent_skip] at ih
      refine ih.trans ⟨fun h => ⟨fun _ he => (by cases he), h⟩, And.right⟩
    | plain =>
      by_cases hl : ∀ y ∈ l.head?, p y = true
      · have ih := walk_eq_filter_iff (c := fun k => c (k + 1)) hn hl
        exact ih.trans ⟨fun h => ⟨fun _ _ => hl, h⟩, And.right⟩
      · -- the walk looks at an entry that is not present
        refine ⟨fun he => ?_, fun h => absurd (h.1 hx rfl) hl⟩
        rcases l with _ | ⟨y, l⟩
        · exact absurd (fun y hy => by cases hy) hl
        · have hy : p y ≠ true := fun hy => hl fun z hz => Option.mem_some_iff.mp hz ▸ hy
          obtain ⟨m, rfl⟩ : ∃ m, n = m + 1 := ⟨n - 1, by rw [List.length_cons] at hn; omega⟩
          have hmem : y ∈ (y :: l).filter p := he ▸ List.mem_cons_self
          exact absurd (List.mem_filter.mp hmem).2 hy

end Iouxx.Lib.SparseWalk
