import Mathlib.Data.List.GetD
import Mathlib.Order.Nat

/-!
# Arrays filled from the front

`fill l` is the array of `n` entries that starts with the entries of `l`; the others have the
default value. Writing the next entry and rotating the tail of such an array give such arrays
again (`set_fill`, `rotate_fill`), so a loop that fills an array entry by entry is described by the
list of the entries written. A loop that overwrites a list from the front leaves the entries it has
not reached (`getElem?_foldl_set`), and overwriting a part of a list changes nothing exactly when this
part is there already (`splice_eq_self_iff`).
-/

namespace Iouxx.Lib.Fill

variable {α : Type*} [Inhabited α] {n : ℕ}

/-- The array that starts with `l`. -/
def fill (l : List α) : Vector α n := Vector.ofFn fun i : Fin n => l.getD i default

theorem getElem_fill (l : List α) {i : ℕ} (h : i < n) :
    (fill l : Vector α n)[i] = l.getD i default := by
  simp [fill]

theorem fill_nil : (fill [] : Vector α n) = Vector.replicate n default := by
  ext i hi; simp [getElem_fill]

theorem toList_fill {l : List α} (h : l.length = n) : (fill l : Vector α n).toList = l := by
  refine List.ext_getElem (by simp [h]) fun i h1 h2 => ?_
  rw [Vector.getElem_toList, getElem_fill, List.getD_eq_getElem _ _ h2]

theorem fill_toList (v : Vector α n) : fill v.toList = v := by
  ext i hi
  rw [getElem_fill, List.getD_eq_getElem _ _ (by simpa using hi), Vector.getElem_toList]

theorem fill_append_replicate (l : List α) (k : ℕ) :
    (fill (l ++ List.replicate k default) : Vector α n) = fill l := by
  ext i hi
  rw [getElem_fill, getElem_fill]
  rcases Nat.lt_or_ge i l.length with h | h
  · rw [List.getD_append _ _ _ _ h]
  · rw [List.getD_append_right _ _ _ _ h, List.getD_eq_default _ _ h]
    rw [List.getD_eq_getElem?_getD, List.getElem?_replicate]
    split_ifs <;> rfl

theorem set_fill (l : List α) (x : α) (h : l.length < n) :
    (fill l : Vector α n).set l.length x h = fill (l ++ [x]) := by
  ext i hi
  rw [Vector.getElem_set, getElem_fill, getElem_fill]
  split_ifs with hil
  · subst hil
    rw [List.getD_append_right _ _ _ _ le_rfl]; simp
  · rcases Nat.lt_or_ge i l.length with h' | h'
    · rw [List.getD_append _ _ _ _ h']
    · rw [List.getD_append_right _ _ _ _ h', List.getD_eq_default _ _ h',
        List.getD_eq_default _ _ (by simp; omega)]

theorem fill_inj {l l' : List α} (h : l.length = n) (h' : l'.length = n)
    (he : (fill l : Vector α n) = fill l') : l = l' := by
  rw [← toList_fill h, he, toList_fill h']

/-- `std::rotate` of the entries from `first` on: those from `middle` on come to the front. -/
def rotate (v : Vector α n) (first middle : ℕ) : Vector α n :=
  fill (v.toList.take first ++ v.toList.drop middle ++ (v.toList.take middle).drop first)

/-- **Rotating the written entries behind the unwritten ones.** -/
theorem rotate_fill (l l' : List α) (h : l.length + l'.length ≤ n) :
    rotate (fill (l ++ l') : Vector α n) l.length (l.length + l'.length) =
      fill (l ++ List.replicate (n - l.length - l'.length) default ++ l') := by
  have hlist : (fill (l ++ l') : Vector α n).toList =
      l ++ l' ++ List.replicate (n - l.length - l'.length) default := by
    rw [← fill_append_replicate (l ++ l') (n - l.length - l'.length)]
    exact toList_fill (by simp only [List.length_append, List.length_replicate]; omega)
  have htake : (l ++ l' ++ List.replicate (n - l.length - l'.length) default).take
      (l.length + l'.length) = l ++ l' := List.take_left' (by simp)
  have hfront :
      (l ++ l' ++ List.replicate (n - l.length - l'.length) default).take l.length = l := by
    rw [List.append_assoc]; exact List.take_left
  rw [rotate, hlist, htake, hfront, List.drop_left, List.drop_left' (by simp)]

theorem getElem?_foldl_set {β : Type*} (l : List β) (f : ℕ → β) {n : ℕ} (hn : n ≤ l.length) (i : ℕ) :
    ((List.range n).foldl (fun l i => l.set i (f i)) l)[i]? =
      if i < n then some (f i) else l[i]? := by
  have hlen : ∀ n, ((List.range n).foldl (fun l i => l.set i (f i)) l).length = l.length := by
    intro n
    induction n with
    | zero => rfl
    | succ n ih => rw [List.range_succ, List.foldl_append]; simpa using ih
  induction n with
  | zero => simp
  | succ n ih =>
    rw [List.range_succ, List.foldl_append, List.foldl_cons, List.foldl_nil, List.getElem?_set, hlen,
      ih (by omega)]
    rcases Nat.lt_trichotomy i n with h | h | h
    · rw [if_neg (by omega), if_pos h, if_pos (by omega)]
    · subst h
      rw [if_pos rfl, if_pos (by omega), if_pos (by omega)]
    · rw [if_neg (by omega), if_neg (by omega), if_neg (by omega)]

/-! ### A part of a list -/

/-- The list with `new` in the place of its entries from `off` on. -/
def splice {β : Type*} (l : List β) (off : ℕ) (new : List β) : List β :=
  l.take off ++ new ++ l.drop (off + new.length)

/-- **Overwriting a part of a list with what is there.** -/
theorem splice_eq_self_iff {β : Type*} {l new : List β} {off : ℕ} :
    splice l off new = l ↔ (l.drop off).take new.length = new := by
  have hparts : l = l.take off ++ ((l.drop off).take new.length ++ l.drop (off + new.length)) := by
    rw [← List.drop_drop, List.take_append_drop, List.take_append_drop]
  unfold splice
  refine ⟨fun he => ?_, fun he => ?_⟩
  · have hmid : new ++ l.drop (off + new.length) =
        (l.drop off).take new.length ++ l.drop (off + new.length) := by
      rw [List.append_assoc] at he
      exact List.append_cancel_left (he.trans hparts)
    exact (List.append_cancel_right hmid).symm
  · rw [List.append_assoc]
    conv_rhs => rw [hparts]
    rw [he]

/-- **Overwriting a part of a list** takes out what was there and puts in what is new. -/
theorem splice_perm {β : Type*} (l new : List β) (off : ℕ) :
    (splice l off new ++ (l.drop off).take new.length).Perm (l ++ new) := by
  have hparts : l = l.take off ++ ((l.drop off).take new.length ++ l.drop (off + new.length)) := by
    rw [← List.drop_drop, List.take_append_drop, List.take_append_drop]
  have hright : (l ++ new).Perm
      (l.take off ++ ((l.drop off).take new.length ++ l.drop (off + new.length)) ++ new) :=
    List.Perm.of_eq (congrArg (· ++ new) hparts)
  refine List.Perm.trans ?_ hright.symm
  unfold splice
  rw [List.append_assoc, List.append_assoc, List.append_assoc]
  refine List.Perm.append_left _ ?_
  rw [List.append_assoc]
  generalize (l.drop off).take new.length = mid
  generalize l.drop (off + new.length) = tail
  calc (new ++ (tail ++ mid)).Perm ((tail ++ mid) ++ new) := List.perm_append_comm
    List.Perm _ ((mid ++ tail) ++ new) := List.perm_append_comm.append_right new
    _ = mid ++ (tail ++ new) := List.append_assoc ..

end Iouxx.Lib.Fill
