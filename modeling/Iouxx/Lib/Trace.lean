import Mathlib.Data.List.Basic

/-!
# Runs of a machine

A machine is a step function on states and events, `none` where an event is impossible in a state.
An invariant that each step keeps holds after every run (`run_induction`). Where the steps keep it
only under a condition, the property it gives holds in every state reached exactly when every step
meets the condition (`alwaysHolds_iff`).
-/

namespace Iouxx.Lib.Trace

universe u

variable {σ : Type u} {ε : Type*} (step : σ → ε → Option σ)

/-- The state after a list of events. -/
def run (s : σ) (es : List ε) : Option σ := es.foldlM step s

@[simp] theorem run_nil (s : σ) : run step s [] = some s := rfl

theorem run_cons (s : σ) (e : ε) (es : List ε) :
    run step s (e :: es) = (step s e).bind fun s' => run step s' es := by
  unfold run
  rw [List.foldlM_cons]; rfl

theorem run_cons_eq_some_iff {s s' : σ} {e : ε} {es : List ε} :
    run step s (e :: es) = some s' ↔ ∃ t, step s e = some t ∧ run step t es = some s' := by
  rw [run_cons, Option.bind_eq_some_iff]

theorem run_append_eq_some_iff {s s' : σ} {es es' : List ε} :
    run step s (es ++ es') = some s' ↔ ∃ t, run step s es = some t ∧ run step t es' = some s' := by
  unfold run
  rw [List.foldlM_append]
  exact Option.bind_eq_some_iff

/-- The states some list of events leads to. -/
def Reachable (s₀ s : σ) : Prop := ∃ es, run step s₀ es = some s

/-- In every state reached on the way, `P` holds. -/
def AlwaysHolds (P : σ → Prop) (s : σ) (es : List ε) : Prop :=
  ∀ before after t, es = before ++ after → run step s before = some t → P t

/-- Every step meets the condition `C` on the state before it and the event. -/
def EveryStep (C : σ → ε → Prop) (s : σ) (es : List ε) : Prop :=
  ∀ before e after t, es = before ++ e :: after → run step s before = some t → C t e

variable {step} {I P : σ → Prop} {C : σ → ε → Prop}

/-- **Induction over runs.** -/
theorem run_induction (hstep : ∀ s e s', I s → step s e = some s' → I s') :
    ∀ {es : List ε} {s s' : σ}, I s → run step s es = some s' → I s'
  | [], s, s', h, hrun => by
    rw [run_nil, Option.some.injEq] at hrun
    rw [← hrun]; exact h
  | e :: es, s, s', h, hrun => by
    obtain ⟨t, ht, hrun⟩ := (run_cons_eq_some_iff step).mp hrun
    exact run_induction hstep (hstep s e t h ht) hrun

theorem Reachable.induction {s₀ s : σ} (hr : Reachable step s₀ s)
    (hstep : ∀ s e s', I s → step s e = some s' → I s') (h₀ : I s₀) : I s := by
  obtain ⟨es, hes⟩ := hr
  exact run_induction hstep h₀ hes

theorem everyStep_nil (s : σ) : EveryStep step C s [] :=
  fun _ _ _ _ hes => absurd hes.symm (by simp)

theorem everyStep_of_cons {s : σ} {e : ε} {es : List ε} (hC : C s e)
    (h : ∀ t, step s e = some t → EveryStep step C t es) : EveryStep step C s (e :: es) := by
  intro before e' after t' hes hrun
  rcases before with _ | ⟨b, before⟩
  · rw [run_nil, Option.some.injEq] at hrun
    rw [List.nil_append, List.cons.injEq] at hes
    rw [← hrun, ← hes.1]
    exact hC
  · rw [List.cons_append, List.cons.injEq] at hes
    obtain ⟨t, ht, hrun⟩ := (run_cons_eq_some_iff step).mp hrun
    rw [← hes.1] at ht
    exact h t ht before e' after t' hes.2 hrun

theorem everyStep_cons {s t : σ} {e : ε} {es : List ε} (h : EveryStep step C s (e :: es))
    (ht : step s e = some t) : C s e ∧ EveryStep step C t es := by
  refine ⟨h [] e es s rfl rfl, fun before e' after t' hes hrun => ?_⟩
  refine h (e :: before) e' after t' (by rw [hes]; rfl) ?_
  exact (run_cons_eq_some_iff step).mpr ⟨t, ht, hrun⟩

theorem alwaysHolds_cons {s t : σ} {e : ε} {es : List ε} (h : AlwaysHolds step P s (e :: es))
    (ht : step s e = some t) : P s ∧ AlwaysHolds step P t es := by
  refine ⟨h [] (e :: es) s rfl rfl, fun before after t' hes hrun => ?_⟩
  refine h (e :: before) after t' (by rw [hes]; rfl) ?_
  exact (run_cons_eq_some_iff step).mpr ⟨t, ht, hrun⟩

/-- **Induction over runs whose steps meet a condition.** -/
theorem run_induction_of_everyStep
    (hstep : ∀ s e s', I s → C s e → step s e = some s' → I s') :
    ∀ {es : List ε} {s s' : σ}, I s → EveryStep step C s es → run step s es = some s' → I s'
  | [], s, s', h, _, hrun => by
    rw [run_nil, Option.some.injEq] at hrun
    rw [← hrun]; exact h
  | e :: es, s, s', h, hC, hrun => by
    obtain ⟨t, ht, hrun⟩ := (run_cons_eq_some_iff step).mp hrun
    obtain ⟨hCe, hC⟩ := everyStep_cons hC ht
    exact run_induction_of_everyStep hstep (hstep s e t h hCe ht) hC hrun

/-- Where the steps keep an invariant under a condition, the property that follows from it holds in
every state reached by steps that meet the condition. -/
theorem alwaysHolds_of_everyStep
    (hstep : ∀ s e s', I s → C s e → step s e = some s' → I s') (hP : ∀ s, I s → P s)
    {s : σ} {es : List ε} (h : I s) (hC : EveryStep step C s es) : AlwaysHolds step P s es := by
  intro before after t hes hrun
  refine hP t (run_induction_of_everyStep hstep h (fun b e a t' hb hrun' => ?_) hrun)
  exact hC b e (a ++ after) t' (by rw [hes, hb, List.append_assoc]; rfl) hrun'

/-- **The condition is exact** where the property fails after every step that does not meet it: in a
run the property holds in every state reached if and only if every step meets the condition. -/
theorem alwaysHolds_iff (hstep : ∀ s e s', I s → C s e → step s e = some s' → I s')
    (hP : ∀ s, I s → P s) (hC : ∀ s e s', I s → step s e = some s' → P s' → C s e)
    {es : List ε} {s s' : σ} (h : I s) (hrun : run step s es = some s') :
    AlwaysHolds step P s es ↔ EveryStep step C s es := by
  refine ⟨fun hA => ?_, alwaysHolds_of_everyStep hstep hP h⟩
  induction es generalizing s with
  | nil =>
    intro before e after t hes
    exact absurd hes.symm (by simp)
  | cons e es ih =>
    obtain ⟨t, ht, hrun⟩ := (run_cons_eq_some_iff step).mp hrun
    obtain ⟨-, hA'⟩ := alwaysHolds_cons hA ht
    have hCe : C s e := hC s e t h ht (hA' [] es t rfl rfl)
    have ih := ih (hstep s e t h hCe ht) hrun hA'
    intro before e' after t' hes hrun'
    rcases before with _ | ⟨b, before⟩
    · rw [run_nil, Option.some.injEq] at hrun'
      rw [List.nil_append, List.cons.injEq] at hes
      rw [← hrun', ← hes.1]
      exact hCe
    · rw [List.cons_append, List.cons.injEq] at hes
      obtain ⟨u, hu, hrun'⟩ := (run_cons_eq_some_iff step).mp hrun'
      rw [← hes.1, ht, Option.some.injEq] at hu
      exact ih before e' after t' hes.2 (hu ▸ hrun')

end Iouxx.Lib.Trace
