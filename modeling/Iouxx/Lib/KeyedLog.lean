import Mathlib.Data.List.Induction

/-!
# Finite maps as logs

A log of events determines a finite map: an event may put a value at a key (`puts`), and may clear
keys (`clears`). Replaying the log gives the map, and a key has a value exactly when the last event
that put something there put this value and no event since has cleared the key
(`replay_eq_some_iff`).
-/

namespace Iouxx.Lib.KeyedLog

variable {E K V : Type*} [DecidableEq K] (puts : E → Option (K × V)) (clears : E → K → Bool)

/-- What is at a key after an event. -/
def replayStep (m : K → Option V) (e : E) (k : K) : Option V :=
  match puts e with
  | some (k', v) => if k' = k then some v else if clears e k then none else m k
  | none => if clears e k then none else m k

/-- **The map that a log determines**, from the empty map. -/
def replay (l : List E) : K → Option V := l.foldl (replayStep puts clears) fun _ => none

/-- The event neither puts something at the key nor clears it. -/
def Spares (e : E) (k : K) : Prop := (∀ v, puts e ≠ some (k, v)) ∧ clears e k = false

/-- **The last event about a key** put the value there. -/
def LastPut (l : List E) (k : K) (v : V) : Prop :=
  ∃ before e after, l = before ++ e :: after ∧ puts e = some (k, v) ∧
    ∀ e' ∈ after, Spares puts clears e' k

variable {puts clears} {l : List E} {e : E} {k : K} {v : V} {m : K → Option V}

theorem replay_concat : replay puts clears (l ++ [e]) =
    replayStep puts clears (replay puts clears l) e := by
  unfold replay
  rw [List.foldl_append, List.foldl_cons, List.foldl_nil]

theorem replayStep_of_puts (h : puts e = some (k, v)) : replayStep puts clears m e k = some v := by
  unfold replayStep
  rw [h]
  exact if_pos rfl

theorem replayStep_of_spares (h : Spares puts clears e k) :
    replayStep puts clears m e k = m k := by
  obtain ⟨hput, hclear⟩ := h
  unfold replayStep
  rcases hp : puts e with _ | ⟨k', v⟩
  · simp [hclear]
  · have hne : k' ≠ k := by
      rintro rfl
      exact hput v hp
    simp [hne, hclear]

theorem replayStep_eq_some_iff : replayStep puts clears m e k = some v ↔
    puts e = some (k, v) ∨ (Spares puts clears e k ∧ m k = some v) := by
  refine ⟨fun h => ?_, ?_⟩
  · unfold replayStep at h
    rcases hp : puts e with _ | ⟨k', v'⟩
    · rw [hp] at h
      have hclear : clears e k = false ∧ m k = some v := by
        simpa using h
      exact .inr ⟨⟨fun v' hv' => (by rw [hp] at hv'; cases hv'), hclear.1⟩, hclear.2⟩
    · rw [hp] at h
      by_cases hk : k' = k
      · have hv : v' = v := by simpa [hk] using h
        exact .inl (by rw [hk, hv])
      · have hclear : clears e k = false ∧ m k = some v := by simpa [hk] using h
        refine .inr ⟨⟨fun v'' hv'' => ?_, hclear.1⟩, hclear.2⟩
        rw [hp] at hv''
        exact hk (congrArg Prod.fst (Option.some.inj hv''))
  · rintro (hput | ⟨hspares, hm⟩)
    · exact replayStep_of_puts hput
    · rw [replayStep_of_spares hspares]
      exact hm

omit [DecidableEq K] in
theorem lastPut_concat_iff : LastPut puts clears (l ++ [e]) k v ↔
    puts e = some (k, v) ∨ (Spares puts clears e k ∧ LastPut puts clears l k v) := by
  refine ⟨?_, ?_⟩
  · rintro ⟨before, e', after, hl, hput, hafter⟩
    rcases after.eq_nil_or_concat with rfl | ⟨after, e'', rfl⟩
    · have he := (List.append_inj' hl rfl).2
      rw [List.singleton_inj.mp he]
      exact .inl hput
    · rw [List.concat_eq_append, ← List.cons_append, ← List.append_assoc] at hl
      obtain ⟨hbefore, he⟩ := List.append_inj' hl rfl
      obtain rfl := List.singleton_inj.mp he
      rw [List.concat_eq_append] at hafter
      refine .inr ⟨hafter e (by simp), before, e', after, hbefore, hput, fun e'' he'' => ?_⟩
      exact hafter e'' (List.mem_append_left _ he'')
  · rintro (hput | ⟨hspares, before, e', after, rfl, hput, hafter⟩)
    · exact ⟨l, e, [], rfl, hput, fun e' he' => absurd he' List.not_mem_nil⟩
    · refine ⟨before, e', after ++ [e], by simp, hput, fun e'' he'' => ?_⟩
      rcases List.mem_append.mp he'' with he'' | he''
      · exact hafter e'' he''
      · rw [List.mem_singleton.mp he'']
        exact hspares

/-- **The map and the log agree.** -/
theorem replay_eq_some_iff : replay puts clears l k = some v ↔ LastPut puts clears l k v := by
  induction l using List.reverseRecOn with
  | nil =>
    refine iff_of_false nofun ?_
    rintro ⟨before, e, after, hl, -⟩
    exact absurd hl.symm (by simp)
  | append_singleton l e ih =>
    rw [replay_concat, replayStep_eq_some_iff, ih, lastPut_concat_iff]

end Iouxx.Lib.KeyedLog
