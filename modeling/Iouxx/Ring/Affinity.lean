import Iouxx.Utility
import Mathlib.Data.List.Basic
import Mathlib.Data.Nat.Notation
import Mathlib.Tactic.SplitIfs

/-!
# The CPUs of the workers (`iouringxx.hpp`, `ring::set_worker_affinity`)

The CPUs the workers of a ring may run on are given to the kernel as a `cpu_set_t`, a mask of 1024 bits
in words of 64. The list of the caller is added to an empty mask with `CPU_SET`, which does nothing for
a number that is too large.

* `isSet_cpuSet_iff`, `isSet_foldl_iff`: what one and what all rounds of the loop add;
* `affinity_iff`: **order and repetitions do not matter, and the kernel is given exactly the CPUs of
  the list when all of them are below 1024**.
-/

namespace Iouxx.Ring

open Iouxx.Cpp.Error Iouxx.Utility

/-! ### The mask -/

/-- `cpu_set_t`. -/
abbrev CpuSet := Vector UInt64 16

/-- `CPU_ZERO`. -/
def cpuZero : CpuSet := Vector.replicate 16 0

/-- `CPU_SET`. -/
def cpuSet (cpu : UInt32) (mask : CpuSet) : CpuSet :=
  if h : cpu.toNat / 8 < 128 then
    mask.set (cpu.toNat / 64) (mask[cpu.toNat / 64] ||| 1 <<< UInt64.ofNat (cpu.toNat % 64))
  else mask

/-- The mask that the loop of `set_worker_affinity` makes. -/
def maskOf (threadCpus : List UInt32) : CpuSet :=
  threadCpus.foldl (fun mask cpu => cpuSet cpu mask) cpuZero

/-- `set_worker_affinity`, where `registerIowqAff` is `io_uring_register_iowq_aff`. -/
def setWorkerAffinity (registerIowqAff : ℕ → CpuSet → ℤ) (threadCpus : List UInt32) : ErrorCode :=
  makeSystemErrorCode (-registerIowqAff 128 (maskOf threadCpus))

/-- The CPU is in the mask. -/
def IsSet (mask : CpuSet) (i : ℕ) : Prop :=
  ∃ h : i < 1024, (mask[i / 64]).toNat.testBit (i % 64) = true

/-! ### The loop -/

theorem not_isSet_cpuZero (i : ℕ) : ¬ IsSet cpuZero i := by
  rintro ⟨h, hbit⟩
  rw [cpuZero, Vector.getElem_replicate] at hbit
  simp at hbit

theorem testBit_one_shiftLeft {k j : ℕ} (hk : k < 64) :
    (1 <<< UInt64.ofNat k : UInt64).toNat.testBit j = decide (k = j) := by
  have hofNat : (UInt64.ofNat k).toNat = k :=
    UInt64.toNat_ofNat_of_lt' (Nat.lt_trans hk (by decide))
  rw [UInt64.toNat_shiftLeft, hofNat, Nat.mod_eq_of_lt hk, UInt64.toNat_one, Nat.shiftLeft_eq,
    Nat.one_mul, Nat.mod_eq_of_lt (Nat.pow_lt_pow_right (by omega) hk), Nat.testBit_two_pow]

theorem isSet_cpuSet_iff (cpu : UInt32) (mask : CpuSet) (i : ℕ) :
    IsSet (cpuSet cpu mask) i ↔ IsSet mask i ∨ i < 1024 ∧ cpu.toNat = i := by
  unfold cpuSet
  split_ifs with hcpu
  · unfold IsSet
    by_cases hword : cpu.toNat / 64 = i / 64
    · have hget : ∀ h : i < 1024, (mask.set (cpu.toNat / 64)
          (mask[cpu.toNat / 64] ||| 1 <<< UInt64.ofNat (cpu.toNat % 64)))[i / 64] =
            mask[i / 64] ||| 1 <<< UInt64.ofNat (cpu.toNat % 64) := by
        intro h
        simp only [← hword, Vector.getElem_set_self]
      constructor
      · rintro ⟨h, hbit⟩
        rw [hget h, UInt64.toNat_or, Nat.testBit_or, testBit_one_shiftLeft (by omega),
          Bool.or_eq_true, decide_eq_true_eq] at hbit
        rcases hbit with hbit | hbit
        · exact Or.inl ⟨h, hbit⟩
        · exact Or.inr ⟨h, by omega⟩
      · intro hor
        have h : i < 1024 := by
          rcases hor with ⟨h, -⟩ | ⟨h, -⟩
          · exact h
          · exact h
        refine ⟨h, ?_⟩
        rw [hget h, UInt64.toNat_or, Nat.testBit_or, testBit_one_shiftLeft (by omega),
          Bool.or_eq_true, decide_eq_true_eq]
        rcases hor with ⟨_, hbit⟩ | ⟨-, hcpu⟩
        · exact Or.inl hbit
        · exact Or.inr (by omega)
    · have hget : ∀ h : i < 1024, (mask.set (cpu.toNat / 64)
          (mask[cpu.toNat / 64] ||| 1 <<< UInt64.ofNat (cpu.toNat % 64)))[i / 64] = mask[i / 64] :=
        fun h => Vector.getElem_set_ne _ _ hword
      constructor
      · rintro ⟨h, hbit⟩
        rw [hget h] at hbit
        exact Or.inl ⟨h, hbit⟩
      · rintro (⟨h, hbit⟩ | ⟨h, rfl⟩)
        · exact ⟨h, by rw [hget h]; exact hbit⟩
        · exact absurd rfl hword
  · refine ⟨Or.inl, ?_⟩
    rintro (h | ⟨h, rfl⟩)
    · exact h
    · exact absurd (by omega) hcpu

theorem isSet_foldl_iff (i : ℕ) : ∀ (threadCpus : List UInt32) (mask : CpuSet),
    IsSet (threadCpus.foldl (fun mask cpu => cpuSet cpu mask) mask) i ↔
      IsSet mask i ∨ i < 1024 ∧ ∃ cpu ∈ threadCpus, cpu.toNat = i
  | [], mask => by simp
  | cpu :: threadCpus, mask => by
    rw [List.foldl_cons, isSet_foldl_iff i threadCpus, isSet_cpuSet_iff, List.exists_mem_cons_iff,
      and_or_left, or_assoc]

theorem isSet_maskOf_iff (threadCpus : List UInt32) (i : ℕ) :
    IsSet (maskOf threadCpus) i ↔ i < 1024 ∧ ∃ cpu ∈ threadCpus, cpu.toNat = i := by
  rw [maskOf, isSet_foldl_iff, or_iff_right (not_isSet_cpuZero i)]

/-! ### What the kernel is given -/

theorem cpuSet_ext {mask mask' : CpuSet} (h : ∀ i, IsSet mask i ↔ IsSet mask' i) : mask = mask' := by
  apply Vector.ext
  intro w hw
  apply UInt64.toNat_inj.mp
  apply Nat.eq_of_testBit_eq
  intro j
  by_cases hj : j < 64
  · have hi : 64 * w + j < 1024 := by omega
    have hword : (64 * w + j) / 64 = w := by omega
    have hbit : (64 * w + j) % 64 = j := by omega
    have hset : ∀ m : CpuSet, IsSet m (64 * w + j) ↔ m[w].toNat.testBit j = true := by
      intro m
      unfold IsSet
      simp only [hword, hbit]
      exact ⟨fun hm => hm.2, fun hm => ⟨hi, hm⟩⟩
    rw [Bool.eq_iff_iff, ← hset, ← hset]
    exact h _
  · have hlarge : ∀ x : UInt64, x.toNat.testBit j = false := by
      intro x
      refine Nat.testBit_lt_two_pow (Nat.lt_of_lt_of_le x.toNat_lt ?_)
      exact Nat.pow_le_pow_right (by omega) (by omega)
    rw [hlarge, hlarge]

theorem isSet_maskOf_toNat_iff (threadCpus : List UInt32) (cpu : UInt32) :
    IsSet (maskOf threadCpus) cpu.toNat ↔ cpu ∈ threadCpus ∧ cpu.toNat < 1024 := by
  rw [isSet_maskOf_iff, and_comm]
  refine and_congr_left fun _ => ⟨?_, fun h => ⟨cpu, h, rfl⟩⟩
  rintro ⟨cpu', h, heq⟩
  rwa [← UInt32.toNat_inj.mp heq]

/-- **Order and repetitions do not matter**, nor do numbers that are too large. -/
theorem maskOf_eq_iff (l l' : List UInt32) :
    maskOf l = maskOf l' ↔ ∀ cpu : UInt32, cpu.toNat < 1024 → (cpu ∈ l ↔ cpu ∈ l') := by
  constructor
  · intro heq cpu hcpu
    have hiff := isSet_maskOf_toNat_iff l cpu
    rw [heq, isSet_maskOf_toNat_iff, and_iff_left hcpu, and_iff_left hcpu] at hiff
    exact hiff.symm
  · intro h
    refine cpuSet_ext fun i => ?_
    by_cases hi : i < 1024
    · have hcpu : (UInt32.ofNat i).toNat = i :=
        UInt32.toNat_ofNat_of_lt' (Nat.lt_trans hi (by decide))
      have hlt : (UInt32.ofNat i).toNat < 1024 := by omega
      rw [← hcpu, isSet_maskOf_toNat_iff, isSet_maskOf_toNat_iff, h _ hlt]
    · exact iff_of_false (fun hm => hi hm.1) fun hm => hi hm.1

/-- The kernel is given the mask: whatever it returns for it is what the caller is told. -/
def Gives (threadCpus : List UInt32) (mask : CpuSet) : Prop :=
  ∀ registerIowqAff : ℕ → CpuSet → ℤ, setWorkerAffinity registerIowqAff threadCpus =
    makeSystemErrorCode (-registerIowqAff 128 mask)

theorem gives_iff (threadCpus : List UInt32) (mask : CpuSet) :
    Gives threadCpus mask ↔ maskOf threadCpus = mask := by
  constructor
  · intro h
    have hret : makeSystemErrorCode (-(if maskOf threadCpus = mask then 0 else -1)) =
        makeSystemErrorCode (-(if mask = mask then 0 else -1)) :=
      h fun _ m => if m = mask then 0 else -1
    by_contra hne
    rw [if_neg hne, if_pos rfl] at hret
    exact absurd hret (by decide)
  · rintro rfl _
    rfl

/-- **What the kernel is given**: two lists give it the same mask exactly when they have the same CPUs
below 1024, and it is given exactly the CPUs of a list when all of them are below 1024 and only then. -/
theorem affinity_iff (l : List UInt32) :
    (∀ l', (∃ mask, Gives l mask ∧ Gives l' mask) ↔
      ∀ cpu : UInt32, cpu.toNat < 1024 → (cpu ∈ l ↔ cpu ∈ l')) ∧
    ((∃ mask, Gives l mask ∧ ∀ cpu : UInt32, IsSet mask cpu.toNat ↔ cpu ∈ l) ↔
      ∀ cpu ∈ l, cpu.toNat < 1024) := by
  simp only [gives_iff, exists_eq_left']
  refine ⟨fun l' => ?_, ?_⟩
  · rw [eq_comm]
    exact maskOf_eq_iff l l'
  · constructor
    · intro h cpu hcpu
      exact ((isSet_maskOf_toNat_iff l cpu).mp ((h cpu).mpr hcpu)).2
    · intro h cpu
      rw [isSet_maskOf_toNat_iff]
      exact ⟨And.left, fun hcpu => ⟨hcpu, h cpu hcpu⟩⟩

/-- A CPU that is too large is left out. -/
example : maskOf [1024] = cpuZero := by decide +kernel

end Iouxx.Ring
