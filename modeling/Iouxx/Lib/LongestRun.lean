import Mathlib.Data.List.Induction
import Mathlib.Order.Nat

/-!
# The leftmost longest run

A run of a predicate in a list is a stretch of consecutive elements that satisfy it. `scan` is the
usual single pass that keeps the current run and the best one so far and replaces the best one only
by a longer one; it ends with the longest run, and of these with the leftmost (`scan_spec`).
-/

namespace Iouxx.Lib.LongestRun

variable {α : Type*}

/-- The elements at the positions `start, …, start + len - 1` satisfy `p`. -/
def IsRun (p : α → Bool) (l : List α) (start len : ℕ) : Prop :=
  ∀ i, start ≤ i → i < start + len → l[i]?.any p = true

/-- **The longest run, and of the longest ones the leftmost.** -/
structure LeftmostLongest (p : α → Bool) (l : List α) (start len : ℕ) : Prop where
  run : IsRun p l start len
  bound : start + len ≤ l.length
  longest : ∀ s n, IsRun p l s n → n ≤ len
  leftmost : ∀ s, IsRun p l s len → start ≤ s

/-- The state of the pass. -/
structure Scan where
  bestStart : ℕ
  bestLen : ℕ
  curStart : ℕ
  curLen : ℕ
  deriving DecidableEq, Repr

/-- The pass over the element at position `xi.2`. -/
def scanStep (p : α → Bool) (st : Scan) (xi : α × ℕ) : Scan :=
  if p xi.1 then
    let curStart := if st.curLen = 0 then xi.2 else st.curStart
    let curLen := st.curLen + 1
    if st.bestLen < curLen then ⟨curStart, curLen, curStart, curLen⟩
    else ⟨st.bestStart, st.bestLen, curStart, curLen⟩
  else { st with curLen := 0 }

/-- **The pass.** -/
def scan (p : α → Bool) (l : List α) : Scan := l.zipIdx.foldl (scanStep p) ⟨0, 0, 0, 0⟩

theorem scan_concat (p : α → Bool) (l : List α) (x : α) :
    scan p (l ++ [x]) = scanStep p (scan p l) (x, l.length) := by
  unfold scan
  rw [List.zipIdx_append, List.foldl_append]
  simp

/-! ### Runs of an extended list -/

theorem isRun_zero (p : α → Bool) (l : List α) (s : ℕ) : IsRun p l s 0 := by
  intro i h1 h2; omega

theorem IsRun.le_length {p : α → Bool} {l : List α} {s n : ℕ} (h : IsRun p l s n) (hn : 0 < n) :
    s + n ≤ l.length := by
  by_contra hlt
  have := h (s + n - 1) (by omega) (by omega)
  rw [List.getElem?_eq_none (by omega)] at this
  cases this

theorem isRun_concat_of_le {p : α → Bool} {l : List α} {x : α} {s n : ℕ} (h : s + n ≤ l.length) :
    IsRun p (l ++ [x]) s n ↔ IsRun p l s n := by
  have hget : ∀ i, i < s + n → (l ++ [x])[i]? = l[i]? := fun i hi =>
    List.getElem?_append_left (by omega)
  constructor
  · intro hr i h1 h2; rw [← hget i h2]; exact hr i h1 h2
  · intro hr i h1 h2; rw [hget i h2]; exact hr i h1 h2

theorem isRun_concat_of_eq {p : α → Bool} {l : List α} {x : α} {s n : ℕ} (h : s + n = l.length) :
    IsRun p (l ++ [x]) s (n + 1) ↔ IsRun p l s n ∧ p x = true := by
  constructor
  · intro hr
    refine ⟨(isRun_concat_of_le h.le).mp fun i h1 h2 => hr i h1 (by omega), ?_⟩
    have := hr l.length (by omega) (by omega)
    simpa using this
  · rintro ⟨hr, hx⟩ i h1 h2
    rcases Nat.lt_or_ge i l.length with hi | hi
    · rw [List.getElem?_append_left hi]; exact hr i h1 (by omega)
    · rw [show i = l.length by omega]; simpa using hx

theorem IsRun.concat_cases {p : α → Bool} {l : List α} {x : α} {s n : ℕ}
    (hr : IsRun p (l ++ [x]) s n) :
    s + n = l.length + 1 ∨ n = 0 ∨ (s + n ≤ l.length ∧ IsRun p l s n) := by
  rcases Nat.eq_zero_or_pos n with hn | hn
  · exact Or.inr (Or.inl hn)
  · have hle := hr.le_length hn
    rw [List.length_append, List.length_singleton] at hle
    rcases Nat.lt_or_ge l.length (s + n) with hlt | hge
    · exact Or.inl (by omega)
    · exact Or.inr (Or.inr ⟨hge, (isRun_concat_of_le hge).mp hr⟩)

/-! ### The pass finds the leftmost longest run -/

/-- What holds after the pass over `l`: the best run is right, and the current run is the longest
one that ends with the list. -/
structure Inv (p : α → Bool) (l : List α) (st : Scan) : Prop where
  best : LeftmostLongest p l st.bestStart st.bestLen
  curBound : st.curLen ≤ l.length
  cur : IsRun p l (l.length - st.curLen) st.curLen
  curLongest : ∀ s n, s + n = l.length → IsRun p l s n → n ≤ st.curLen
  curStart : 0 < st.curLen → st.curStart = l.length - st.curLen

theorem inv_nil (p : α → Bool) : Inv p [] ⟨0, 0, 0, 0⟩ := by
  have hlen : ∀ s n, IsRun p [] s n → n = 0 := fun s n h => by
    by_contra hn
    have := h.le_length (by omega)
    simp only [List.length_nil] at this; omega
  refine ⟨⟨isRun_zero p [] 0, le_rfl, fun s n h => (hlen s n h).le, fun s _ => Nat.zero_le s⟩,
    le_rfl, isRun_zero p [] 0, fun s n _ h => (hlen s n h).le, fun h => absurd h (lt_irrefl 0)⟩

theorem inv_step_false {p : α → Bool} {l : List α} {x : α} {st : Scan} (h : Inv p l st)
    (hx : p x = false) : Inv p (l ++ [x]) { st with curLen := 0 } := by
  have hold : ∀ s n, IsRun p (l ++ [x]) s n → 0 < n → s + n ≤ l.length := by
    intro s n hr hn
    rcases hr.concat_cases with hs | h0 | ⟨hle, -⟩
    · obtain ⟨m, rfl⟩ : ∃ m, n = m + 1 := ⟨n - 1, by omega⟩
      have := ((isRun_concat_of_eq (by omega)).mp hr).2
      rw [hx] at this; cases this
    · omega
    · exact hle
  have hb := h.best.bound
  refine ⟨⟨(isRun_concat_of_le hb).mpr h.best.run, ?_, ?_, ?_⟩, Nat.zero_le _, isRun_zero _ _ _,
    ?_, fun h0 => absurd h0 (lt_irrefl 0)⟩
  · rw [List.length_append]; exact Nat.le_add_right_of_le hb
  · intro s n hr
    rcases Nat.eq_zero_or_pos n with rfl | hn
    · exact Nat.zero_le _
    · exact h.best.longest s n ((isRun_concat_of_le (hold s n hr hn)).mp hr)
  · intro s hr
    rcases Nat.eq_zero_or_pos st.bestLen with h0 | hn
    · exact h.best.leftmost s (by rw [h0]; exact isRun_zero p l s)
    · exact h.best.leftmost s ((isRun_concat_of_le (hold s _ hr hn)).mp hr)
  · intro s n hs hr
    rw [List.length_append, List.length_singleton] at hs
    by_contra hn
    have := hold s n hr (by omega)
    omega

/-- An element that satisfies `p` extends the current run, which then is the longest one that ends
with the list. -/
theorem curLongest_step {p : α → Bool} {l : List α} {x : α} {st : Scan} (h : Inv p l st) :
    ∀ s n, s + n = (l ++ [x]).length → IsRun p (l ++ [x]) s n → n ≤ st.curLen + 1 := by
  intro s n hs hr
  rw [List.length_append, List.length_singleton] at hs
  rcases n with _ | n
  · exact Nat.zero_le _
  · have := h.curLongest s n (by omega) ((isRun_concat_of_eq (by omega)).mp hr).1
    omega

theorem inv_step_true {p : α → Bool} {l : List α} {x : α} {st : Scan} (h : Inv p l st)
    (hx : p x = true) : Inv p (l ++ [x]) (scanStep p st (x, l.length)) := by
  have hb := h.best.bound
  have hc := h.curBound
  have hlen : (l ++ [x]).length = l.length + 1 := by simp
  have hcur : IsRun p (l ++ [x]) (l.length - st.curLen) (st.curLen + 1) :=
    (isRun_concat_of_eq (by omega)).mpr ⟨h.cur, hx⟩
  have hcur' : IsRun p (l ++ [x]) ((l ++ [x]).length - (st.curLen + 1)) (st.curLen + 1) := by
    rw [hlen, Nat.add_sub_add_right]; exact hcur
  have hstart : (if st.curLen = 0 then l.length else st.curStart) = l.length - st.curLen := by
    split_ifs with h0
    · omega
    · exact h.curStart (by omega)
  unfold scanStep
  simp only [hx, if_true, hstart]
  split_ifs with hbest
  · refine ⟨⟨hcur, by dsimp only; omega, ?_, ?_⟩, by dsimp only; omega, hcur', curLongest_step h,
      fun _ => by dsimp only; omega⟩
    · intro s n hr
      rcases hr.concat_cases with hs | rfl | ⟨-, hr'⟩
      · exact curLongest_step h s n (by omega) hr
      · exact Nat.zero_le _
      · have := h.best.longest s n hr'
        simp only; omega
    · intro s hr
      rcases hr.concat_cases with hs | hn | ⟨-, hr'⟩
      · simp only at hs ⊢; omega
      · simp only at hn; omega
      · have := h.best.longest s _ hr'
        simp only at this; omega
  · refine ⟨⟨(isRun_concat_of_le hb).mpr h.best.run, by dsimp only; omega, ?_, ?_⟩,
      by dsimp only; omega, hcur', curLongest_step h, fun _ => by dsimp only; omega⟩
    · intro s n hr
      rcases hr.concat_cases with hs | rfl | ⟨-, hr'⟩
      · have := curLongest_step h s n (by omega) hr
        simp only; omega
      · exact Nat.zero_le _
      · exact h.best.longest s n hr'
    · intro s hr
      rcases hr.concat_cases with hs | hn | ⟨-, hr'⟩
      · simp only at hs ⊢; omega
      · simp only at hn; omega
      · exact h.best.leftmost s hr'

theorem inv_scan (p : α → Bool) (l : List α) : Inv p l (scan p l) := by
  induction l using List.reverseRecOn with
  | nil => exact inv_nil p
  | append_singleton l x ih =>
    rw [scan_concat]
    cases hx : p x
    · have hst : scanStep p (scan p l) (x, l.length) = { scan p l with curLen := 0 } := by
        unfold scanStep; simp [hx]
      rw [hst]
      exact inv_step_false ih hx
    · exact inv_step_true ih hx

/-- **The pass finds the leftmost longest run.** -/
theorem scan_spec (p : α → Bool) (l : List α) :
    LeftmostLongest p l (scan p l).bestStart (scan p l).bestLen :=
  (inv_scan p l).best

theorem LeftmostLongest.unique {p : α → Bool} {l : List α} {s n s' n' : ℕ}
    (h : LeftmostLongest p l s n) (h' : LeftmostLongest p l s' n') : s = s' ∧ n = n' := by
  have hn : n = n' := le_antisymm (h'.longest s n h.run) (h.longest s' n' h'.run)
  subst hn
  exact ⟨le_antisymm (h.leftmost s' h'.run) (h'.leftmost s h.run), rfl⟩

theorem IsRun.mem {p : α → Bool} {l : List α} {s n : ℕ} (h : IsRun p l s n) :
    ∀ x ∈ (l.drop s).take n, p x = true := by
  intro x hx
  obtain ⟨i, hi, rfl⟩ := List.getElem_of_mem hx
  rw [List.length_take, List.length_drop] at hi
  have := h (s + i) (by omega) (by omega)
  rw [List.getElem?_eq_getElem (by omega)] at this
  simpa using this

end Iouxx.Lib.LongestRun
