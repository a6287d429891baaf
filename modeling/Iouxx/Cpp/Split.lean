import Mathlib.Data.List.Infix

/-!
# Splitting a sequence at a pattern

`split pat s` are the parts `std::views::split` cuts `s` into: the occurrences of the (nonempty)
pattern are found from left to right and do not overlap, and an empty `s` has no parts at all.

* `split_append`: the part before the first occurrence is the first part;
* `split_eq_singleton`: without an occurrence there is one part;
* `intercalate_split`: the parts, joined by the pattern, give the sequence back;
* `split_intercalate`: parts without the separating element are found again;
* `not_double_intercalate`: nonempty parts leave no two separating elements in a row.
-/

namespace Iouxx.Cpp.Split

variable {α : Type*}

/-! ### Joining -/

theorem mem_intercalate {sep : List α} {c : α} : ∀ {ts : List (List α)},
    c ∈ sep.intercalate ts → c ∈ sep ∨ ∃ t ∈ ts, c ∈ t
  | [], h => by simp at h
  | [t], h => by
    rw [List.intercalate_singleton] at h
    exact Or.inr ⟨t, by simp, h⟩
  | t :: u :: ts, h => by
    rw [List.intercalate_cons_cons] at h
    rcases List.mem_append.mp h with h | h
    · rcases List.mem_append.mp h with h | h
      · exact Or.inr ⟨t, by simp, h⟩
      · exact Or.inl h
    · rcases mem_intercalate h with h | ⟨v, hv, hc⟩
      · exact Or.inl h
      · exact Or.inr ⟨v, List.mem_cons_of_mem _ hv, hc⟩

variable [DecidableEq α]

/-- The scan of the sequence: `skip` elements of an occurrence are still to be passed over, and
`acc` is the current part, reversed. -/
def scan (pat : List α) : ℕ → List α → List α → List (List α)
  | _, acc, [] => [acc.reverse]
  | skip + 1, acc, _ :: s => scan pat skip acc s
  | 0, acc, c :: s =>
    if pat <+: c :: s then acc.reverse :: scan pat (pat.length - 1) [] s
    else scan pat 0 (c :: acc) s

/-- **The parts of a sequence.** -/
def split (pat s : List α) : List (List α) := if s = [] then [] else scan pat 0 [] s

@[simp] theorem split_nil (pat : List α) : split pat [] = [] := rfl

theorem split_eq_scan (pat : List α) {s : List α} (h : s ≠ []) : split pat s = scan pat 0 [] s :=
  if_neg h

theorem scan_ne_nil (pat : List α) : ∀ (s : List α) (skip : ℕ) (acc : List α),
    scan pat skip acc s ≠ []
  | [], skip, acc => by simp [scan]
  | _ :: s, skip + 1, acc => by rw [scan]; exact scan_ne_nil pat s skip acc
  | c :: s, 0, acc => by
    rw [scan]
    split_ifs
    · simp
    · exact scan_ne_nil pat s 0 (c :: acc)

theorem scan_skip (pat acc s : List α) : ∀ t : List α,
    scan pat t.length acc (t ++ s) = scan pat 0 acc s
  | [] => rfl
  | c :: t => by
    rw [List.length_cons, List.cons_append, scan]
    exact scan_skip pat acc s t

theorem scan_eq_singleton {pat : List α} : ∀ {s : List α} (acc : List α),
    ¬ pat <:+: s → scan pat 0 acc s = [acc.reverse ++ s]
  | [], acc, _ => by simp [scan]
  | c :: s, acc, h => by
    rw [List.infix_cons_iff, not_or] at h
    rw [scan, if_neg h.1, scan_eq_singleton (c :: acc) h.2]
    simp

omit [DecidableEq α] in
/-- An occurrence that starts inside `p` lies within `p` and all but the last element of the
pattern. -/
theorem not_prefix_of_infixless {pat p r : List α} (hp : p ≠ []) (hpat : pat ≠ [])
    (h : ¬ pat <:+: p ++ pat.dropLast) : ¬ pat <+: p ++ pat ++ r := by
  intro hpre
  refine h (List.IsPrefix.isInfix ?_)
  refine List.prefix_of_prefix_length_le hpre ?_ ?_
  · rw [List.append_assoc]
    exact (List.prefix_append_right_inj p).mpr ((List.dropLast_prefix pat).trans
      (List.prefix_append pat r))
  · have h1 := List.length_pos_iff.mpr hp
    have h2 := List.length_pos_iff.mpr hpat
    rw [List.length_append, List.length_dropLast]
    omega

theorem scan_append {pat : List α} (hpat : pat ≠ []) (r : List α) : ∀ (p acc : List α),
    ¬ pat <:+: p ++ pat.dropLast →
      scan pat 0 acc (p ++ pat ++ r) = (acc.reverse ++ p) :: scan pat 0 [] r
  | [], acc, _ => by
    obtain ⟨c, q, rfl⟩ := List.exists_cons_of_ne_nil hpat
    have hpre : c :: q <+: c :: (q ++ r) := ⟨r, rfl⟩
    rw [List.nil_append, List.cons_append, scan, if_pos hpre, List.length_cons,
      Nat.add_sub_cancel, scan_skip (c :: q) [] r q, List.append_nil]
  | c :: p, acc, h => by
    have hpre := not_prefix_of_infixless (r := r) (List.cons_ne_nil c p) hpat h
    rw [List.cons_append, List.infix_cons_iff, not_or] at h
    rw [List.cons_append, List.cons_append] at hpre ⊢
    rw [scan, if_neg hpre, scan_append hpat r p (c :: acc) h.2]
    simp

theorem split_eq_singleton {pat s : List α} (hs : s ≠ []) (h : ¬ pat <:+: s) :
    split pat s = [s] := by
  rw [split_eq_scan pat hs, scan_eq_singleton [] h]; rfl

/-- **The first occurrence ends the first part.** -/
theorem split_append {pat p r : List α} (hpat : pat ≠ []) (h : ¬ pat <:+: p ++ pat.dropLast) :
    split pat (p ++ pat ++ r) = p :: scan pat 0 [] r := by
  rw [split_eq_scan pat (by simp [hpat]), scan_append hpat r p [] h]; rfl

theorem split_pair {pat p r : List α} (hpat : pat ≠ []) (hp : ¬ pat <:+: p ++ pat.dropLast)
    (hr : ¬ pat <:+: r) : split pat (p ++ pat ++ r) = [p, r] := by
  rw [split_append hpat hp, scan_eq_singleton [] hr]; rfl

theorem intercalate_scan {pat : List α} (hpat : pat ≠ []) : ∀ (s : List α) (skip : ℕ)
    (acc : List α), pat.intercalate (scan pat skip acc s) = acc.reverse ++ s.drop skip
  | [], skip, acc => by simp [scan]
  | c :: s, skip + 1, acc => by
    rw [scan, intercalate_scan hpat s skip acc, List.drop_succ_cons]
  | c :: s, 0, acc => by
    rw [scan]
    split_ifs with h
    · obtain ⟨r, hr⟩ := h
      obtain ⟨d, q, rfl⟩ := List.exists_cons_of_ne_nil hpat
      rw [List.cons_append, List.cons.injEq] at hr
      obtain ⟨rfl, rfl⟩ := hr
      rw [List.intercalate_cons_of_ne_nil (scan_ne_nil _ _ _ _), intercalate_scan hpat]
      simp
    · rw [intercalate_scan hpat s 0 (c :: acc)]
      simp

/-- **The parts give the sequence back.** -/
theorem intercalate_split {pat : List α} (hpat : pat ≠ []) (s : List α) :
    pat.intercalate (split pat s) = s := by
  by_cases hs : s = []
  · subst hs; rfl
  · rw [split_eq_scan pat hs, intercalate_scan hpat s 0 []]; rfl

/-! ### One separating element -/

theorem scan_singleton_append {c : α} {t : List α} (ht : c ∉ t) (r : List α) :
    scan [c] 0 [] (t ++ [c] ++ r) = t :: scan [c] 0 [] r := by
  have h : ¬ [c] <:+: t ++ [c].dropLast := by
    rw [List.singleton_infix_iff]; simpa using ht
  rw [scan_append (by simp) r t [] h]; rfl

theorem scan_intercalate {c : α} : ∀ {ts : List (List α)}, ts ≠ [] → (∀ t ∈ ts, c ∉ t) →
    scan [c] 0 [] ([c].intercalate ts) = ts
  | [], h, _ => absurd rfl h
  | [t], _, h => by
    have ht : ¬ [c] <:+: t := by
      rw [List.singleton_infix_iff]; exact h t (by simp)
    rw [List.intercalate_singleton, scan_eq_singleton [] ht]; rfl
  | t :: u :: ts, _, h => by
    rw [List.intercalate_cons_cons, scan_singleton_append (h t (by simp)),
      scan_intercalate (by simp) (fun v hv => h v (List.mem_cons_of_mem _ hv))]

/-- **Parts without the separating element are found again.** -/
theorem split_intercalate {c : α} {ts : List (List α)} (hne : [c].intercalate ts ≠ [])
    (h : ∀ t ∈ ts, c ∉ t) : split [c] ([c].intercalate ts) = ts := by
  have hts : ts ≠ [] := by
    rintro rfl; exact hne rfl
  rw [split_eq_scan _ hne, scan_intercalate hts h]

omit [DecidableEq α] in
theorem not_double_append {c : α} {s : List α} (hs : ¬ [c, c] <:+: c :: s) : ∀ {t : List α},
    c ∉ t → ¬ [c, c] <:+: t ++ c :: s
  | [], _ => hs
  | d :: t, ht => by
    rw [List.mem_cons, not_or] at ht
    rw [List.cons_append, List.infix_cons_iff, not_or]
    refine ⟨fun h => ht.1 ?_, not_double_append hs ht.2⟩
    exact (List.cons_prefix_cons.mp h).1

omit [DecidableEq α] in
/-- Nonempty parts leave no two separating elements in a row, not even before a last one. -/
theorem not_double_intercalate {c : α} : ∀ {ts : List (List α)}, (∀ t ∈ ts, c ∉ t ∧ t ≠ []) →
    ¬ [c, c] <:+: [c].intercalate ts ++ [c]
  | [], _ => by
    intro h; simpa using h.length_le
  | [t], h => by
    rw [List.intercalate_singleton]
    refine not_double_append (fun h' => ?_) (h t (by simp)).1
    simpa using h'.length_le
  | t :: u :: ts, h => by
    have ih : ¬ [c, c] <:+: [c].intercalate (u :: ts) ++ [c] :=
      not_double_intercalate fun v hv => h v (List.mem_cons_of_mem _ hv)
    obtain ⟨hu, hne⟩ := h u (by simp)
    rw [List.intercalate_cons_cons]
    simp only [List.append_assoc, List.singleton_append]
    refine not_double_append ?_ (h t (by simp)).1
    rw [List.infix_cons_iff, not_or]
    refine ⟨fun hpre => ?_, ih⟩
    -- the next part is not empty, so the element after the separator is not another one
    obtain ⟨d, v, rfl⟩ := List.exists_cons_of_ne_nil hne
    have hcd : c ≠ d := fun h' => hu (by rw [h']; simp)
    have h2 := (List.cons_prefix_cons.mp hpre).2
    rw [List.intercalate_cons_cons_left] at h2
    exact hcd (List.cons_prefix_cons.mp h2).1

example : split ":".toList "1::2:".toList = ["1".toList, [], "2".toList, []] := by decide

example : split "::".toList "1:::2".toList = ["1".toList, ":2".toList] := by decide

end Iouxx.Cpp.Split
