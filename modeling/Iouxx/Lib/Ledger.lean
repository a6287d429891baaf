import Mathlib.Data.List.Count
import Mathlib.Data.List.Nodup
import Mathlib.Data.List.Pairwise
import Mathlib.Data.List.Perm.Basic
import Mathlib.Logic.Function.Basic

/-!
# The ledger of what is acquired and released

Holders `x : ι` have lists `held x` of what they hold. The ledger is balanced where everything that
was acquired, each thing once, is either released or held (`Balanced`): this is kept by acquiring
and releasing (`Balanced.change`) and by moving between two holders (`Balanced.exchange`), and it
says that everything has exactly one place (`Balanced.once`).
-/

namespace Iouxx.Lib.Ledger

variable {ι α : Type*} {acquired released : List α} {held : ι → List α} {xs : List ι}

/-- The holders, each once. -/
structure Lists (held : ι → List α) (xs : List ι) : Prop where
  nodup : xs.Nodup
  all : ∀ x, held x ≠ [] → x ∈ xs

/-- **What was acquired, each thing once, is what was released and what is held.** -/
structure Balanced (acquired released : List α) (held : ι → List α) : Prop where
  nodup : acquired.Nodup
  perm : ∃ xs, Lists held xs ∧ acquired.Perm (released ++ xs.flatMap held)

theorem balanced_nil : Balanced [] [] (fun _ : ι => ([] : List α)) :=
  ⟨List.nodup_nil, [], ⟨List.nodup_nil, fun _ h => absurd rfl h⟩, List.Perm.refl _⟩

/-! ### Everything has one place -/

theorem Balanced.not_released (h : Balanced acquired released held) {x : ι} {q : α}
    (hq : q ∈ held x) : q ∉ released := by
  obtain ⟨xs, hxs, hp⟩ := h.perm
  have hdis := List.disjoint_of_nodup_append (hp.nodup_iff.mp h.nodup)
  exact fun hr => hdis hr (List.mem_flatMap.mpr ⟨x, hxs.all x (List.ne_nil_of_mem hq), hq⟩)

theorem Balanced.mem_acquired (h : Balanced acquired released held) {x : ι} {q : α}
    (hq : q ∈ held x) : q ∈ acquired := by
  obtain ⟨xs, hxs, hp⟩ := h.perm
  refine hp.mem_iff.mpr (List.mem_append_right _ ?_)
  exact List.mem_flatMap.mpr ⟨x, hxs.all x (List.ne_nil_of_mem hq), hq⟩

theorem Balanced.unique (h : Balanced acquired released held) {x y : ι} {q : α}
    (hx : q ∈ held x) (hy : q ∈ held y) : x = y := by
  obtain ⟨xs, hxs, hp⟩ := h.perm
  have hnd := List.Nodup.of_append_right (hp.nodup_iff.mp h.nodup)
  by_contra hne
  have : Std.Symm (Function.onFun List.Disjoint held) := ⟨fun _ _ hab _ hb ha => hab ha hb⟩
  have hdis := (List.nodup_flatMap.mp hnd).2.forall (hxs.all x (List.ne_nil_of_mem hx))
    (hxs.all y (List.ne_nil_of_mem hy)) hne
  exact hdis hx hy

/-- **Everything acquired has one place**: it was released, once, or it has one holder. -/
theorem Balanced.once [DecidableEq α] (h : Balanced acquired released held) {q : α}
    (hq : q ∈ acquired) :
    (released.count q = 1 ∧ ∀ x, q ∉ held x) ∨ (q ∉ released ∧ ∃! x, q ∈ held x) := by
  obtain ⟨xs, hxs, hp⟩ := h.perm
  have hnd := hp.nodup_iff.mp h.nodup
  rcases List.mem_append.mp (hp.mem_iff.mp hq) with hr | hh
  · left
    refine ⟨List.count_eq_one_of_mem (List.Nodup.of_append_left hnd) hr, fun x hx => ?_⟩
    exact h.not_released hx hr
  · right
    obtain ⟨x, -, hx⟩ := List.mem_flatMap.mp hh
    exact ⟨h.not_released hx, x, hx, fun y hy => h.unique hy hx⟩

theorem Balanced.released_perm {released' : List α} (h : Balanced acquired released held)
    (hp : released.Perm released') : Balanced acquired released' held := by
  obtain ⟨xs, hxs, hperm⟩ := h.perm
  exact ⟨h.nodup, xs, hxs, hperm.trans (hp.append_right _)⟩

/-- Where entries differ in their keys, those with other keys are all others. -/
theorem perm_cons_filter_key {κ : Type*} [BEq κ] [LawfulBEq κ] {key : α → κ} {l : List α} {x : α}
    (h : (l.map key).Nodup) (hx : x ∈ l) : l.Perm (x :: l.filter fun y => key y != key x) := by
  classical
  have herase : l.erase x = l.filter fun y => key y != key x := by
    rw [(List.Nodup.of_map key h).erase_eq_filter]
    refine List.filter_congr fun y hy => ?_
    rw [Bool.eq_iff_iff, bne_iff_ne, bne_iff_ne]
    exact not_congr ⟨congrArg key, fun heq => List.inj_on_of_nodup_map h hy hx heq⟩
  rw [← herase]
  exact List.perm_cons_erase hx

/-! ### Changes -/

variable [DecidableEq ι]

/-- A holder may be listed first. -/
theorem Lists.front (h : Lists held xs) (x : ι) :
    Lists held (x :: xs.erase x) ∧ (xs.flatMap held).Perm ((x :: xs.erase x).flatMap held) := by
  by_cases hx : x ∈ xs
  · have hp := List.perm_cons_erase hx
    exact ⟨⟨hp.nodup_iff.mp h.nodup, fun y hy => hp.mem_iff.mp (h.all y hy)⟩, hp.flatMap_right held⟩
  · have hnil : held x = [] := by
      by_contra hne
      exact hx (h.all x hne)
    rw [List.erase_of_not_mem hx, List.flatMap_cons, hnil, List.nil_append]
    refine ⟨⟨List.nodup_cons.mpr ⟨hx, h.nodup⟩, fun y hy => ?_⟩, List.Perm.refl _⟩
    exact List.mem_cons_of_mem x (h.all y hy)

theorem Lists.update {x : ι} (h : Lists held (x :: xs)) (l : List α) :
    Lists (Function.update held x l) (x :: xs) := by
  refine ⟨h.nodup, fun y hy => ?_⟩
  by_cases hyx : y = x
  · rw [hyx]; exact List.mem_cons_self
  · rw [Function.update_of_ne hyx] at hy
    exact h.all y hy

theorem flatMap_update {x : ι} (hx : x ∉ xs) (l : List α) :
    xs.flatMap (Function.update held x l) = xs.flatMap held :=
  List.flatMap_congr fun y hy => by
    rw [Function.update_of_ne (fun h : y = x => hx (h ▸ hy))]

/-- **Acquiring and releasing**: what `x` held and what is acquired is what is released and what `x`
holds afterwards. -/
theorem Balanced.change (h : Balanced acquired released held) {x : ι} {as rs l : List α}
    (hnew : (acquired ++ as).Nodup) (hp : (held x ++ as).Perm (rs ++ l)) :
    Balanced (acquired ++ as) (released ++ rs) (Function.update held x l) := by
  obtain ⟨xs, hxs, hperm⟩ := h.perm
  obtain ⟨hfront, hpf⟩ := hxs.front x
  refine ⟨hnew, _, hfront.update l, ?_⟩
  rw [List.flatMap_cons, Function.update_self, flatMap_update (List.nodup_cons.mp hfront.nodup).1]
  rw [List.flatMap_cons] at hpf
  have hperm := hperm.trans (hpf.append_left released)
  generalize (xs.erase x).flatMap held = rest at hperm ⊢
  calc (acquired ++ as).Perm (released ++ (held x ++ rest) ++ as) := hperm.append_right as
    _ = released ++ (held x ++ (rest ++ as)) := by simp only [List.append_assoc]
    List.Perm _ (released ++ (held x ++ (as ++ rest))) :=
      (List.perm_append_comm.append_left _).append_left _
    _ = released ++ ((held x ++ as) ++ rest) := by simp only [List.append_assoc]
    List.Perm _ (released ++ ((rs ++ l) ++ rest)) := (hp.append_right rest).append_left _
    _ = released ++ rs ++ (l ++ rest) := by simp only [List.append_assoc]

/-- **Moving** between two holders. -/
theorem Balanced.exchange (h : Balanced acquired released held) {x y : ι} {l l' : List α}
    (hxy : x ≠ y) (hp : (held x ++ held y).Perm (l ++ l')) :
    Balanced acquired released (Function.update (Function.update held x l) y l') := by
  obtain ⟨xs, hxs, hperm⟩ := h.perm
  obtain ⟨hfx, hpx⟩ := hxs.front x
  obtain ⟨hfy, hpy⟩ := hfx.front y
  -- the list is now `y :: x :: rest`
  rw [List.erase_cons_tail (by simpa using hxy)] at hfy hpy
  have hperm := hperm.trans ((hpx.trans hpy).append_left released)
  obtain ⟨hynx, hxn⟩ := List.nodup_cons.mp hfy.nodup
  have hux : x ∉ (xs.erase x).erase y := (List.nodup_cons.mp hxn).1
  have huy : y ∉ (xs.erase x).erase y := fun hy => hynx (List.mem_cons_of_mem x hy)
  refine ⟨h.nodup, y :: x :: (xs.erase x).erase y, ?_, ?_⟩
  · refine ⟨hfy.nodup, fun z hz => ?_⟩
    by_cases hzy : z = y
    · rw [hzy]; exact List.mem_cons_self
    · rw [Function.update_of_ne hzy] at hz
      by_cases hzx : z = x
      · rw [hzx]; exact List.mem_cons_of_mem y List.mem_cons_self
      · rw [Function.update_of_ne hzx] at hz
        exact hfy.all z hz
  · rw [List.flatMap_cons, List.flatMap_cons, Function.update_self, Function.update_of_ne hxy,
      Function.update_self, flatMap_update huy, flatMap_update hux]
    rw [List.flatMap_cons, List.flatMap_cons] at hperm
    generalize ((xs.erase x).erase y).flatMap held = rest at hperm ⊢
    refine hperm.trans (List.Perm.append_left released ?_)
    calc (held y ++ (held x ++ rest)).Perm (held x ++ held y ++ rest) := by
          rw [← List.append_assoc]; exact List.perm_append_comm.append_right rest
      List.Perm _ (l ++ l' ++ rest) := hp.append_right rest
      List.Perm _ (l' ++ (l ++ rest)) := by
          rw [← List.append_assoc]; exact List.perm_append_comm.append_right rest

end Iouxx.Lib.Ledger
