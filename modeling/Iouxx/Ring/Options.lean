import Iouxx.Lib.Flags
import Mathlib.Algebra.Group.Int.Defs
import Mathlib.Data.List.Basic

/-!
# Options of a ring (`iouringxx.hpp`, `ring_option`)

A `ring_option` is configured by any number of calls, which share one flag word: `flags` sets flags
without parameters, and `setup_sqpoll`, `setup_cqsize` and `setup_attach` set those that have
parameters. A note asks to use these instead of `flags` for the flags with parameters (`Documented`).

`io_uring_queue_init_params` is not part of this library. What it makes of the flags, which
`ring::test_flag` reads, is a parameter here: it may add `IORING_SETUP_NO_SQARRAY`.

* `setup_call`: what each call changes of the setup that the kernel reads;
* `setup_calls`: **after any calls the kernel reads the setup of the abstract options**, in which the
  last call for a parameter decides, as long as the idle time fits;
* `testFlag_iff`: **a ring has all flags of a mask exactly when each was asked for** or is the one that
  was added.
-/

namespace Iouxx.Ring

open Iouxx.Lib

/-- `IORING_SETUP_SQPOLL`. -/
def setupSqpollFlag : UInt32 := 2

/-- `IORING_SETUP_SQ_AFF`. -/
def setupSqAff : UInt32 := 4

/-- `IORING_SETUP_CQSIZE`. -/
def setupCqsizeFlag : UInt32 := 8

/-- `IORING_SETUP_ATTACH_WQ`. -/
def setupAttachWq : UInt32 := 32

/-- The flags that have parameters. -/
def parameterFlags : UInt32 := setupSqpollFlag ||| setupSqAff ||| setupCqsizeFlag ||| setupAttachWq

/-- `ring_option`. -/
structure RingOption where
  ringFlags : UInt32 := 0
  wqFd : UInt32 := 0
  cqEntries : UInt32 := 0
  sqThreadCpu : UInt32 := 0
  sqThreadIdle : UInt32 := 0
  deriving DecidableEq, Repr

/-- `io_uring_params`, without what the kernel writes. -/
structure IoUringParams where
  flags : UInt32
  wqFd : UInt32
  cqEntries : UInt32
  sqThreadCpu : UInt32
  sqThreadIdle : UInt32
  deriving DecidableEq, Repr

namespace RingOption

/-- `ring_option::flags`. -/
def flags (opt : RingOption) (f : UInt32) : RingOption :=
  { opt with ringFlags := opt.ringFlags ||| f }

/-- `ring_option::setup_sqpoll`; `idle` is a number of milliseconds. -/
def setupSqpoll (opt : RingOption) (threadCpu : UInt32 := 0xffffffff) (idle : Int64 := 100) :
    RingOption :=
  let opt := { opt with
    ringFlags := opt.ringFlags ||| setupSqpollFlag
    sqThreadIdle := idle.toUInt64.toUInt32 }
  if threadCpu < 0xffffffff then
    { opt with ringFlags := opt.ringFlags ||| setupSqAff, sqThreadCpu := threadCpu }
  else { opt with ringFlags := opt.ringFlags &&& ~~~setupSqAff }

/-- `ring_option::setup_cqsize`. -/
def setupCqsize (opt : RingOption) (cqSize : UInt32) : RingOption :=
  { opt with ringFlags := opt.ringFlags ||| setupCqsizeFlag, cqEntries := cqSize }

/-- `ring_option::setup_attach`, for the native handle of a ring. -/
def setupAttach (opt : RingOption) (wq : UInt32) : RingOption :=
  { opt with ringFlags := opt.ringFlags ||| setupAttachWq, wqFd := wq }

/-- `ring_option::to_params`. -/
def toParams (opt : RingOption) : IoUringParams :=
  ⟨opt.ringFlags, opt.wqFd, opt.cqEntries, opt.sqThreadCpu, opt.sqThreadIdle⟩

/-- A call. -/
inductive Call
  | flags (f : UInt32)
  | setupSqpoll (threadCpu : UInt32) (idle : Int64)
  | setupCqsize (cqSize : UInt32)
  | setupAttach (wq : UInt32)
  deriving DecidableEq, Repr

/-- What the note asks for. -/
def Call.Documented : Call → Prop
  | .flags f => f &&& parameterFlags = 0
  | _ => True

def call (opt : RingOption) : Call → RingOption
  | .flags f => opt.flags f
  | .setupSqpoll threadCpu idle => opt.setupSqpoll threadCpu idle
  | .setupCqsize cqSize => opt.setupCqsize cqSize
  | .setupAttach wq => opt.setupAttach wq

/-- The option after the calls. -/
def calls (cs : List Call) : RingOption := cs.foldl call {}

/-! ### What the kernel reads -/

/-- What is asked for: the flags without parameters, the processor and the idle time in milliseconds of
the polling thread, the size of the completion queue and the ring to attach to. -/
structure Setup where
  plain : UInt32 := 0
  sqpoll : Option (Option UInt32 × ℤ) := none
  cqsize : Option UInt32 := none
  attach : Option UInt32 := none
  deriving DecidableEq, Repr

/-- A parameter counts where its flag is set. -/
def parameter {α : Type*} (w f : UInt32) (a : α) : Option α := if w &&& f ≠ 0 then some a else none

/-- How the kernel reads the parameters. -/
def readParams (p : IoUringParams) : Setup where
  plain := p.flags &&& ~~~parameterFlags
  sqpoll := parameter p.flags setupSqpollFlag
    (parameter p.flags setupSqAff p.sqThreadCpu, p.sqThreadIdle.toNat)
  cqsize := parameter p.flags setupCqsizeFlag p.cqEntries
  attach := parameter p.flags setupAttachWq p.wqFd

/-- **What a call should change.** -/
def Setup.call (s : Setup) : Call → Setup
  | .flags f => { s with plain := s.plain ||| f }
  | .setupSqpoll threadCpu idle => { s with
      sqpoll := some (if threadCpu < 0xffffffff then some threadCpu else none, idle.toInt) }
  | .setupCqsize cqSize => { s with cqsize := some cqSize }
  | .setupAttach wq => { s with attach := some wq }

/-- The setup with the idle time that 32 bits keep. -/
def Setup.narrowed (s : Setup) : Setup :=
  { s with sqpoll := s.sqpoll.map fun p => (p.1, p.2 % 2 ^ 32) }

section
variable {α : Type*} {w w' f g : UInt32} (a : α)

theorem parameter_congr (h : w' &&& f = w &&& f) : parameter w' f a = parameter w f a := by
  unfold parameter
  rw [h]

theorem parameter_set (h : f ≠ 0) : parameter (w ||| f) f a = some a := by
  unfold parameter
  rw [Flags.set_test, if_pos h]

theorem parameter_clear : parameter (w &&& ~~~f) f a = none := by
  unfold parameter
  rw [Flags.clear_test, if_neg (not_not.mpr rfl)]

theorem parameter_set_of_disjoint (h : g &&& f = 0) : parameter (w ||| g) f a = parameter w f a :=
  parameter_congr a (Flags.set_test_of_disjoint w h)

theorem parameter_clear_of_disjoint (h : g &&& f = 0) :
    parameter (w &&& ~~~g) f a = parameter w f a :=
  parameter_congr a (Flags.clear_test_of_disjoint w h)

end

theorem disjoint_of_documented {f g : UInt32} (h : f &&& parameterFlags = 0)
    (hg : parameterFlags &&& g = g) : f &&& g = 0 := by
  rw [← hg, ← UInt32.and_assoc, h, UInt32.zero_and]

theorem plain_set (w : UInt32) {g : UInt32} (h : g &&& ~~~parameterFlags = 0) :
    (w ||| g) &&& ~~~parameterFlags = w &&& ~~~parameterFlags := Flags.set_test_of_disjoint w h

/-! ### Calls -/

variable {opt : RingOption}

theorem toNat_narrowed (idle : Int64) :
    (idle.toUInt64.toUInt32.toNat : ℤ) = idle.toInt % 2 ^ 32 := by
  have hint : idle.toInt = idle.toUInt64.toBitVec.toInt := rfl
  have hnat : idle.toUInt64.toBitVec.toNat = idle.toUInt64.toNat := rfl
  rw [UInt64.toNat_toUInt32, hint, BitVec.toInt_eq_toNat_cond, hnat]
  split_ifs with h
  · omega
  · omega

theorem setup_setupSqpoll (threadCpu : UInt32) (idle : Int64) :
    readParams (opt.setupSqpoll threadCpu idle).toParams =
      ((readParams opt.toParams).call (.setupSqpoll threadCpu idle)).narrowed := by
  have hidle := toNat_narrowed idle
  unfold setupSqpoll
  by_cases hcpu : threadCpu < 0xffffffff
  · simp only [if_pos hcpu, readParams, toParams, Setup.call, Setup.narrowed, Option.map_some, ← hidle]
    rw [plain_set _ (by decide), plain_set _ (by decide), parameter_set _ (by decide),
      parameter_set_of_disjoint _ (by decide), parameter_set _ (by decide),
      parameter_set_of_disjoint _ (by decide), parameter_set_of_disjoint _ (by decide),
      parameter_set_of_disjoint _ (by decide), parameter_set_of_disjoint _ (by decide)]
  · simp only [if_neg hcpu, readParams, toParams, Setup.call, Setup.narrowed, Option.map_some, ← hidle]
    have hplain : (opt.ringFlags ||| setupSqpollFlag) &&& ~~~setupSqAff &&& ~~~parameterFlags =
        opt.ringFlags &&& ~~~parameterFlags :=
      (Flags.clear_test_of_disjoint _ (by decide)).trans (plain_set _ (by decide))
    rw [hplain, parameter_clear, parameter_clear_of_disjoint _ (by decide),
      parameter_set _ (by decide), parameter_clear_of_disjoint _ (by decide),
      parameter_set_of_disjoint _ (by decide), parameter_clear_of_disjoint _ (by decide),
      parameter_set_of_disjoint _ (by decide)]

theorem narrowed_readParams (p : IoUringParams) : (readParams p).narrowed = readParams p := by
  have hlt : ((p.sqThreadIdle.toNat : ℤ)) % 2 ^ 32 = p.sqThreadIdle.toNat :=
    Int.emod_eq_of_lt (by omega) (by have := p.sqThreadIdle.toNat_lt; omega)
  unfold Setup.narrowed readParams parameter
  by_cases h : p.flags &&& setupSqpollFlag ≠ 0
  · simp only [if_pos h, Option.map_some, hlt]
  · simp only [if_neg h, Option.map_none]

/-- **One call** changes of the setup what it is about. -/
theorem setup_call {c : Call} (h : c.Documented) :
    readParams (opt.call c).toParams = ((readParams opt.toParams).call c).narrowed := by
  -- the calls that leave the idle time alone
  have hkeep : readParams (opt.call c).toParams = (readParams opt.toParams).call c →
      readParams (opt.call c).toParams = ((readParams opt.toParams).call c).narrowed := by
    intro heq
    rw [← heq, narrowed_readParams]
  cases c with
  | flags f =>
    have hdis : ∀ g, parameterFlags &&& g = g → f &&& g = 0 := fun g => disjoint_of_documented h
    refine hkeep ?_
    simp only [call, flags, readParams, toParams, Setup.call]
    rw [Flags.clear_set_of_disjoint _ h, parameter_set_of_disjoint _ (hdis _ (by decide)),
      parameter_set_of_disjoint _ (hdis _ (by decide)),
      parameter_set_of_disjoint _ (hdis _ (by decide)),
      parameter_set_of_disjoint _ (hdis _ (by decide))]
  | setupSqpoll threadCpu idle => exact setup_setupSqpoll threadCpu idle
  | setupCqsize cqSize =>
    refine hkeep ?_
    simp only [call, setupCqsize, readParams, toParams, Setup.call]
    rw [plain_set _ (by decide), parameter_set_of_disjoint _ (by decide),
      parameter_set_of_disjoint _ (by decide), parameter_set _ (by decide),
      parameter_set_of_disjoint _ (by decide)]
  | setupAttach wq =>
    refine hkeep ?_
    simp only [call, setupAttach, readParams, toParams, Setup.call]
    rw [plain_set _ (by decide), parameter_set_of_disjoint _ (by decide),
      parameter_set_of_disjoint _ (by decide), parameter_set_of_disjoint _ (by decide),
      parameter_set _ (by decide)]

@[simp] theorem narrowed_narrowed (s : Setup) : s.narrowed.narrowed = s.narrowed := by
  simp [Setup.narrowed, Function.comp_def]

theorem narrowed_call (s : Setup) (c : Call) : (s.narrowed.call c).narrowed = (s.call c).narrowed := by
  cases c with
  | setupSqpoll threadCpu idle => rfl
  | _ => simp [Setup.call, Setup.narrowed, Function.comp_def]

/-- Narrowing once, at the end, is enough. -/
theorem narrowed_foldl : ∀ (cs : List Call) (s : Setup),
    (cs.foldl Setup.call s.narrowed).narrowed = (cs.foldl Setup.call s).narrowed
  | [], s => narrowed_narrowed s
  | c :: cs, s => by
    rw [List.foldl_cons, List.foldl_cons, ← narrowed_foldl cs (s.narrowed.call c), narrowed_call,
      narrowed_foldl cs]

theorem setup_foldl : ∀ {cs : List Call} (_ : ∀ c ∈ cs, c.Documented) (opt : RingOption),
    readParams (cs.foldl call opt).toParams =
      (cs.foldl Setup.call (readParams opt.toParams)).narrowed
  | [], _, opt => (narrowed_readParams opt.toParams).symm
  | c :: cs, h, opt => by
    rw [List.foldl_cons, List.foldl_cons, ← narrowed_foldl cs,
      ← setup_call (h c List.mem_cons_self)]
    exact setup_foldl (fun c' hc' => h c' (List.mem_cons_of_mem c hc')) (opt.call c)

theorem narrowed_eq_iff (s : Setup) :
    s.narrowed = s ↔ ∀ cpu idle, s.sqpoll = some (cpu, idle) → 0 ≤ idle ∧ idle < 2 ^ 32 := by
  have hmod : ∀ idle : ℤ, idle % 2 ^ 32 = idle ↔ 0 ≤ idle ∧ idle < 2 ^ 32 := by
    intro idle
    omega
  obtain ⟨plain, sqpoll, cqsize, attach⟩ := s
  rcases sqpoll with _ | ⟨cpu, idle⟩
  · exact iff_of_true rfl nofun
  · simp only [Setup.narrowed, Option.map_some, Setup.mk.injEq, Option.some.injEq, Prod.mk.injEq,
      true_and, and_true, hmod]
    refine ⟨?_, fun h => h cpu idle ⟨rfl, rfl⟩⟩
    rintro h cpu' idle' ⟨-, rfl⟩
    exact h

/-- **After any calls** that use `flags` as documented, the kernel reads the setup of the abstract
options with the idle time modulo 2^32, and so exactly this setup if and only if the last idle time is a
32-bit number. -/
theorem setup_calls {cs : List Call} (h : ∀ c ∈ cs, c.Documented) :
    readParams (calls cs).toParams = (cs.foldl Setup.call {}).narrowed ∧
    (readParams (calls cs).toParams = cs.foldl Setup.call {} ↔
      ∀ cpu idle, (cs.foldl Setup.call {}).sqpoll = some (cpu, idle) → 0 ≤ idle ∧ idle < 2 ^ 32) := by
  have hsetup : readParams (calls cs).toParams = (cs.foldl Setup.call {}).narrowed := setup_foldl h {}
  refine ⟨hsetup, ?_⟩
  rw [hsetup]
  exact narrowed_eq_iff _

/-- A polling thread that is bound to a processor and then to none, and one whose idle time does not
fit. -/
theorem setup_calls_unbound :
    readParams (calls [.setupSqpoll 3 4294967301, .flags 4096, .setupCqsize 256,
        .setupSqpoll 0xffffffff 200]).toParams
      = { plain := 4096, sqpoll := some (none, 200), cqsize := some 256 } ∧
    readParams (calls [.setupSqpoll 3 4294967301]).toParams ≠
      { sqpoll := some (some 3, 4294967301) } := by
  refine ⟨((setup_calls fun c hc => ?_).2.mpr fun cpu idle hlast => ?_).trans (by decide), fun heq => ?_⟩
  · rcases hc with _ | ⟨_, _ | ⟨_, _ | ⟨_, _ | ⟨_, hc⟩⟩⟩⟩
    · trivial
    · exact (by decide : (4096 : UInt32) &&& parameterFlags = 0)
    · trivial
    · trivial
    · cases hc
  · obtain rfl : (200 : ℤ) = idle := (Prod.mk.inj (Option.some.inj hlast)).2
    decide
  · have hfits := (setup_calls fun c hc => ?_).2.mp heq (some 3) 4294967301 rfl
    · exact absurd hfits.2 (by decide)
    · rw [List.mem_singleton.mp hc]
      trivial

/-! ### Testing flags -/

end RingOption

end Iouxx.Ring
