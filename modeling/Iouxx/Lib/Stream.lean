import Mathlib.Data.List.Induction

/-!
# Streams that say whether more follows

The entries of a stream say of themselves whether more follow (`more`). A stream goes on (`Open`) as
long as all its entries say so, and it is over (`Over`) after the first that does not.
-/

namespace Iouxx.Lib.Stream

variable {α β : Type*} {more : α → Bool} {l : List α} {x : α}

/-- The stream goes on. -/
def Open (more : α → Bool) (l : List α) : Prop := ∀ x ∈ l, more x = true

/-- The stream is over: only its last entry says that no more follow. -/
def Over (more : α → Bool) (l : List α) : Prop :=
  ∃ front last, l = front ++ [last] ∧ Open more front ∧ more last = false

theorem open_nil : Open more [] := fun _ h => absurd h List.not_mem_nil

theorem Open.concat (h : Open more l) (hx : more x = true) : Open more (l ++ [x]) := by
  intro y hy
  rcases List.mem_append.mp hy with hy | hy
  · exact h y hy
  · rw [List.mem_singleton.mp hy]
    exact hx

theorem Open.finish (h : Open more l) (hx : more x = false) : Over more (l ++ [x]) :=
  ⟨l, x, rfl, h, hx⟩

/-- In a stream that is over, an entry that no more follow is followed by none. -/
theorem Over.rest_eq_nil {l l' : List α} (h : Over more (l ++ l')) (hx : x ∈ l)
    (hmore : more x = false) : l' = [] := by
  obtain ⟨front, last, heq, hfront, -⟩ := h
  rcases l'.eq_nil_or_concat with rfl | ⟨l'', y, rfl⟩
  · rfl
  · rw [List.concat_eq_append, ← List.append_assoc] at heq
    obtain ⟨heq, -⟩ := List.append_inj' heq rfl
    have := hfront x (heq ▸ List.mem_append_left _ hx)
    rw [hmore] at this
    cases this

/-- **A stream seen through a function** that tells of more only where `p` holds: it is still over
exactly when `p` holds wherever more follow. -/
theorem over_map_iff {more' : β → Bool} {f : α → β} {p : α → Bool}
    (hf : ∀ x, more' (f x) = (more x && p x)) (h : Over more l) :
    Over more' (l.map f) ↔ ∀ x ∈ l, more x = true → p x = true := by
  obtain ⟨front, last, rfl, hfront, hlast⟩ := h
  rw [List.map_append, List.map_singleton]
  constructor
  · rintro ⟨front', last', heq, hfront', -⟩ x hx hmore
    obtain ⟨rfl, -⟩ := List.append_inj' heq rfl
    rcases List.mem_append.mp hx with hx | hx
    · have := hfront' (f x) (List.mem_map_of_mem hx)
      rw [hf, hmore, Bool.true_and] at this
      exact this
    · rw [List.mem_singleton.mp hx, hlast] at hmore
      cases hmore
  · intro hp
    refine Open.finish (fun y hy => ?_) (by rw [hf, hlast, Bool.false_and])
    obtain ⟨x, hx, rfl⟩ := List.mem_map.mp hy
    rw [hf, hfront x hx, hp x (List.mem_append_left _ hx) (hfront x hx)]
    rfl

end Iouxx.Lib.Stream
