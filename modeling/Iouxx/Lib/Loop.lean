import Mathlib.Data.List.Basic

/-!
# Loops that may end early

A loop over a list whose body may return an error is a fold in `Except`; a loop whose body may be
undefined is a fold in `Option`. `foldlM_simulate` compares two such loops body by body.
-/

namespace Iouxx.Lib.Loop

universe u

variable {ε α : Type*} {β γ σ τ : Type u}

theorem bind_eq_ok_iff {x : Except ε β} {f : β → Except ε γ} {c : γ} :
    (x >>= f) = .ok c ↔ ∃ b, x = .ok b ∧ f b = .ok c := by
  constructor
  · intro h
    cases x with
    | error e => cases h
    | ok b => exact ⟨b, rfl, h⟩
  · rintro ⟨b, rfl, h⟩
    exact h

theorem foldlM_nil_ok_iff {f : σ → α → Except ε σ} {s s' : σ} :
    [].foldlM f s = .ok s' ↔ s' = s :=
  ⟨fun h => by cases h; rfl, fun h => by rw [h]; rfl⟩

theorem foldlM_cons_ok_iff {f : σ → α → Except ε σ} {s s' : σ} {x : α} {l : List α} :
    (x :: l).foldlM f s = .ok s' ↔ ∃ t, f s x = .ok t ∧ l.foldlM f t = .ok s' := by
  rw [List.foldlM_cons, bind_eq_ok_iff]

/-- **Two loops, body by body**: where each body of the first succeeds, the second takes a related
state to a related state, so where the first loop succeeds the second does, too. -/
theorem foldlM_simulate {f : σ → α → Except ε σ} {g : τ → α → Option τ} {R : σ → τ → Prop}
    (h : ∀ s t x s', R s t → f s x = .ok s' → ∃ t', g t x = some t' ∧ R s' t') :
    ∀ (l : List α) {s s' : σ} {t : τ}, R s t → l.foldlM f s = .ok s' →
      ∃ t', l.foldlM g t = some t' ∧ R s' t'
  | [], s, s', t, hR, hf => by
    rw [foldlM_nil_ok_iff] at hf
    subst hf; exact ⟨t, rfl, hR⟩
  | x :: l, s, s', t, hR, hf => by
    obtain ⟨s1, h1, h2⟩ := foldlM_cons_ok_iff.mp hf
    obtain ⟨t1, hg, hR1⟩ := h s t x s1 hR h1
    obtain ⟨t', ht', hR'⟩ := foldlM_simulate h l hR1 h2
    refine ⟨t', ?_, hR'⟩
    rw [List.foldlM_cons, hg]
    exact ht'

end Iouxx.Lib.Loop
