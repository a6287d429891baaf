import Iouxx.Lib.Trace

/-!
# Simulation between machines

One step of a machine may do several steps of a more abstract one, or none (`label`). Where related
states go to related states (`Simulates`), every run of the machine does a run of the abstract one
(`Simulates.run`), so what holds of all abstract runs holds of what the machine does.
-/

namespace Iouxx.Lib.Simulation

open Iouxx.Lib.Trace

universe u

variable {σ τ : Type u} {ε δ : Type*} (step : σ → ε → Option σ) (step' : τ → δ → Option τ)

/-- The abstract events of a run. -/
def trace (label : σ → ε → List δ) : σ → List ε → List δ
  | _, [] => []
  | s, e :: es => label s e ++ (step s e).elim [] fun s' => trace label s' es

/-- Steps that meet the condition `C` take related states to related states. -/
def Simulates (C : σ → ε → Prop) (label : σ → ε → List δ) (R : σ → τ → Prop) : Prop :=
  ∀ s e s' t, R s t → C s e → step s e = some s' →
    ∃ t', run step' t (label s e) = some t' ∧ R s' t'

variable {step step'} {C : σ → ε → Prop} {label : σ → ε → List δ} {R : σ → τ → Prop}

theorem trace_cons {s s' : σ} {e : ε} (h : step s e = some s') (es : List ε) :
    trace step label s (e :: es) = label s e ++ trace step label s' es := by
  rw [trace, h]
  rfl

theorem flatMap_trace {γ : Type*} (f : δ → List γ) : ∀ (es : List ε) (s : σ),
    (trace step label s es).flatMap f = trace step (fun s e => (label s e).flatMap f) s es
  | [], _ => rfl
  | e :: es, s => by
    rw [trace, trace, List.flatMap_append]
    rcases step s e with _ | s'
    · rfl
    · exact congrArg _ (flatMap_trace f es s')

/-- Where the events alone determine what they do, the states do not matter. -/
theorem trace_eq_flatMap (f : ε → List δ) :
    ∀ {es : List ε} {s s' : σ}, Trace.run step s es = some s' →
      trace step (fun _ e => f e) s es = es.flatMap f
  | [], _, _, _ => rfl
  | e :: es, s, s', h => by
    obtain ⟨t, ht, h⟩ := (run_cons_eq_some_iff step).mp h
    rw [trace_cons ht, trace_eq_flatMap f h, List.flatMap_cons]

/-- **Runs of a simulated machine**: a run does an abstract run, to a related state. -/
theorem Simulates.run (h : Simulates step step' C label R) :
    ∀ {es : List ε} {s s' : σ} {t : τ}, R s t → EveryStep step C s es →
      Trace.run step s es = some s' →
      ∃ t', Trace.run step' t (trace step label s es) = some t' ∧ R s' t'
  | [], s, s', t, hR, _, hrun => by
    rw [run_nil, Option.some.injEq] at hrun
    subst hrun
    exact ⟨t, rfl, hR⟩
  | e :: es, s, s', t, hR, hC, hrun => by
    obtain ⟨u, hu, hrun⟩ := (run_cons_eq_some_iff step).mp hrun
    obtain ⟨hCe, hC⟩ := everyStep_cons hC hu
    obtain ⟨t1, ht1, hR1⟩ := h s e u t hR hCe hu
    obtain ⟨t', ht', hR'⟩ := h.run hR1 hC hrun
    refine ⟨t', ?_, hR'⟩
    rw [trace_cons hu]
    exact (run_append_eq_some_iff step').mpr ⟨t1, ht1, ht'⟩

end Iouxx.Lib.Simulation
