import Iouxx.Cpp.Struct
import Iouxx.Lib.Fill
import Iouxx.Ops.Resubmit
import Iouxx.Ops.Results
import Mathlib.Data.List.TakeWhile

/-!
# Addresses of Unix-domain sockets (`uds.hpp`, `unix::uds_info`)

The address is a `sockaddr_un`, with the path in an array that a NUL ends. It is passed to the kernel
in its full size; the kernel reports the length of the address it keeps, which is shorter for most
paths, and `from_system_sockaddr` asserts that it is the full size.

* `cString_append_zero_iff`: a string comes back from an array if it holds no NUL;
* `survives_iff`: **which paths survive the trip through the kernel**;
* `not_classified_unnamed`: an accept of an unnamed peer invokes no callback.
-/

namespace Iouxx.Net

open Iouxx.Cpp.Memory Iouxx.Lib.Fill Iouxx.Ops
open ObjectRep (bytes ofBytes length_bytes ofBytes_bytes)

/-! ### The address -/

/-- `sockaddr_un`. -/
structure SockaddrUn where
  sunFamily : UInt16
  sunPath : Vector UInt8 108
  deriving DecidableEq, Repr

instance : ObjectRep SockaddrUn :=
  .ofEquiv (β := UInt16 × Vector UInt8 108) ⟨fun s => (s.sunFamily, s.sunPath),
    fun p => ⟨p.1, p.2⟩, fun _ => rfl, fun _ => rfl⟩

/-- `AF_UNIX`. -/
def afUnix : UInt16 := 1

/-- `unix::uds_info`. -/
structure UdsInfo where
  addr : SockaddrUn
  deriving DecidableEq, Repr

namespace UdsInfo

/-- The constructor from a path; `none` is `std::invalid_argument`. The array is zero behind the
path. -/
def ofPath (path : List UInt8) : Option UdsInfo :=
  if path.length ≥ 108 then none -- path too long for `sockaddr_un`
  else some ⟨afUnix, fill path⟩

/-- `from_system_sockaddr`; `none` is an assertion that fails. -/
def fromSystemSockaddr (native : Endian) (sockaddr : List UInt8) (addrlen : UInt32) :
    Option UdsInfo :=
  if addrlen ≠ 110 then none
  else
    let info : UdsInfo := ⟨ofBytes native (sockaddr.take 110)⟩
    if info.addr.sunFamily ≠ afUnix then none else some info

/-- The characters in front of the first NUL. -/
def cString (l : List UInt8) : List UInt8 := l.takeWhile (· ≠ 0)

/-- `path`; `none` is undefined behaviour, where no NUL ends the array. -/
def path (info : UdsInfo) : Option (List UInt8) :=
  if 0 ∈ info.addr.sunPath.toList then some (cString info.addr.sunPath.toList) else none

/-- The parameter `Info` of the operations. -/
def socketInfo (native : Endian) : SocketInfo UdsInfo := ⟨1, fromSystemSockaddr native⟩

end UdsInfo

/-! ### The kernel -/

/-- What a socket is bound to. -/
inductive Name
  | unnamed
  | bound (addr : SockaddrUn)

/-- **The address the kernel reports**: the family alone for an unnamed socket; the address in its
full size for an abstract name; and for a path the address up to the NUL that ends the path. -/
def Name.report (native : Endian) : Name → List UInt8
  | unnamed => bytes native afUnix
  | bound addr =>
    if addr.sunPath.toList.head? = some 0 then bytes native addr
    else (bytes native addr).take (2 + (UdsInfo.cString addr.sunPath.toList).length + 1)

theorem Name.report_bound (native : Endian) (addr : SockaddrUn) :
    (bound addr).report native = if addr.sunPath.toList.head? = some 0 then bytes native addr
      else (bytes native addr).take (2 + (UdsInfo.cString addr.sunPath.toList).length + 1) := rfl

/-- The reported address, decoded: what `socket_getsockname` and `socket_accept` deliver for it when
their storage held `storage`. -/
def decode (native : Endian) (storage : SockaddrUn) (name : Name) : Option UdsInfo :=
  (UdsInfo.socketInfo native).fromSystemSockaddr
    (overwrite (bytes native storage) (name.report native))
    (UInt32.ofNat (name.report native).length)

/-- **The path survives**: it is the path of the address, and of the address that is decoded for a
socket bound to it. -/
def Survives (native : Endian) (storage : SockaddrUn) (path : List UInt8) (info : UdsInfo) : Prop :=
  info.path = some path ∧
    ∃ decoded, decode native storage (.bound info.addr) = some decoded ∧ decoded.path = some path

/-! ### Strings in arrays -/

namespace UdsInfo

theorem cString_append_zero_iff {p l : List UInt8} : cString (p ++ 0 :: l) = p ↔ 0 ∉ p := by
  unfold cString
  constructor
  · intro h h0
    have hmem : (0 : UInt8) ∈ (p ++ 0 :: l).takeWhile (· ≠ 0) := by rw [h]; exact h0
    simpa using List.mem_takeWhile_imp hmem
  · intro h
    have hall : ∀ b ∈ p, decide (b ≠ 0) = true := by
      intro b hb
      rw [decide_eq_true_iff]
      rintro rfl
      exact h hb
    rw [List.takeWhile_append_of_pos hall, List.takeWhile_cons_of_neg (by simp), List.append_nil]

variable {p : List UInt8} {info : UdsInfo}

theorem toList_sunPath (h : ofPath p = some info) :
    p.length < 108 ∧ info.addr.sunPath.toList = p ++ 0 :: List.replicate (107 - p.length) 0 ∧
      info.addr.sunFamily = afUnix := by
  unfold ofPath at h
  split_ifs at h with hlen
  have hlt : p.length < 108 := by omega
  refine ⟨hlt, ?_, ?_⟩
  · rw [← Option.some.inj h, ← List.replicate_succ, ← fill_append_replicate p (107 - p.length + 1)]
    refine toList_fill ?_
    rw [List.length_append, List.length_replicate]
    omega
  · rw [← Option.some.inj h]

theorem path_eq_some_iff (h : ofPath p = some info) : info.path = some p ↔ 0 ∉ p := by
  obtain ⟨-, hlist, -⟩ := toList_sunPath h
  rw [path, if_pos (by rw [hlist]; simp), Option.some.injEq, hlist]
  exact cString_append_zero_iff

theorem length_report (native : Endian) (h : ofPath p = some info) (h0 : 0 ∉ p) :
    ((Name.bound info.addr).report native).length = if p = [] then 110 else 2 + p.length + 1 := by
  obtain ⟨hlt, hlist, -⟩ := toList_sunPath h
  have hbytes : (bytes native info.addr).length = 110 := length_bytes native info.addr
  rw [Name.report_bound, hlist, cString_append_zero_iff.mpr h0]
  rcases p with _ | ⟨b, p⟩
  · rw [List.nil_append, List.head?_cons, if_pos rfl, if_pos rfl, hbytes]
  · have hb : (b :: p ++ 0 :: List.replicate (107 - (b :: p).length) 0).head? ≠ some 0 := by
      rintro hb
      exact h0 (Option.some.inj hb ▸ List.mem_cons_self)
    rw [if_neg hb, if_neg (List.cons_ne_nil b p), List.length_take, hbytes]
    omega

theorem report_of_length {native : Endian} {addr : SockaddrUn}
    (hlen : ((Name.bound addr).report native).length = 110) :
    (Name.bound addr).report native = bytes native addr := by
  have hbytes : (bytes native addr).length = 110 := length_bytes native addr
  rw [Name.report_bound] at hlen ⊢
  split_ifs at hlen ⊢ with h0
  · rfl
  · rw [List.length_take, hbytes] at hlen
    exact List.take_of_length_le (by omega)

end UdsInfo

open UdsInfo

/-- **An address of the full size is decoded**, and no other. -/
theorem decode_bound_iff {native : Endian} {storage : SockaddrUn} {p : List UInt8}
    {info decoded : UdsInfo} (h : ofPath p = some info) :
    decode native storage (.bound info.addr) = some decoded ↔
      ((Name.bound info.addr).report native).length = 110 ∧ decoded = info := by
  obtain ⟨-, -, hfamily⟩ := toList_sunPath h
  have hbytes : (bytes native info.addr).length = 110 := length_bytes native info.addr
  have hstorage : (bytes native storage).length = 110 := length_bytes native storage
  by_cases hlen : ((Name.bound info.addr).report native).length = 110
  · have hdecode : decode native storage (.bound info.addr) = some info := by
      unfold decode UdsInfo.socketInfo fromSystemSockaddr
      simp only
      rw [report_of_length hlen, overwrite_of_length_eq (hbytes.trans hstorage.symm),
        List.take_of_length_le hbytes.le, ofBytes_bytes, hbytes, if_neg (by decide),
        if_neg (not_not.mpr hfamily)]
    rw [hdecode]
    exact ⟨fun he => ⟨hlen, (Option.some.inj he).symm⟩, fun he => congrArg some he.2.symm⟩
  · have hlt : ((Name.bound info.addr).report native).length < 4294967296 := by
      rw [Name.report_bound]
      split_ifs
      · omega
      · rw [List.length_take]
        omega
    have hne : UInt32.ofNat ((Name.bound info.addr).report native).length ≠ 110 := by
      rw [ne_eq, ← UInt32.toNat_inj, UInt32.toNat_ofNat_of_lt' hlt]
      exact hlen
    have hdecode : decode native storage (.bound info.addr) = none := by
      unfold decode UdsInfo.socketInfo fromSystemSockaddr
      exact if_pos hne
    rw [hdecode]
    exact ⟨fun he => (by cases he), fun he => absurd he.1 hlen⟩

theorem decode_unnamed (native : Endian) (storage : SockaddrUn) :
    decode native storage .unnamed = none := by
  have hbytes : (Name.unnamed.report native).length = 2 := length_bytes native afUnix
  have hne : UInt32.ofNat (Name.unnamed.report native).length ≠ 110 := by
    rw [hbytes]
    decide
  unfold decode UdsInfo.socketInfo fromSystemSockaddr
  exact if_pos hne

/-- **Which paths survive**: the empty one, and those of 107 characters, the greatest length, without
NUL. An unnamed peer is never decoded. -/
theorem survives_iff (native : Endian) (storage : SockaddrUn) :
    (∀ p info, ofPath p = some info →
      (Survives native storage p info ↔ p = [] ∨ (p.length = 107 ∧ 0 ∉ p))) ∧
    decode native storage .unnamed = none := by
  refine ⟨fun p info h => ?_, decode_unnamed native storage⟩
  obtain ⟨hlt, -, -⟩ := toList_sunPath h
  constructor
  · rintro ⟨hpath, decoded, hdecode, -⟩
    have h0 := (path_eq_some_iff h).mp hpath
    have hlen := ((decode_bound_iff h).mp hdecode).1
    rw [length_report native h h0] at hlen
    split_ifs at hlen with hp
    · exact Or.inl hp
    · exact Or.inr ⟨by omega, h0⟩
  · intro hp
    have h0 : 0 ∉ p := by
      rcases hp with rfl | ⟨-, h0⟩
      · exact List.not_mem_nil
      · exact h0
    have hlen : ((Name.bound info.addr).report native).length = 110 := by
      rw [length_report native h h0]
      split_ifs with hne
      · rfl
      · have := (hp.resolve_left hne).1
        omega
    have hpath := (path_eq_some_iff h).mpr h0
    exact ⟨hpath, info, (decode_bound_iff h).mpr ⟨hlen, rfl⟩, hpath⟩

/-- The longest path of one character, and one character less. -/
theorem survives_iff_longest :
    Survives .little ⟨afUnix, fill []⟩ (List.replicate 107 0x61)
        ⟨afUnix, fill (List.replicate 107 0x61)⟩ ∧
      ¬ Survives .little ⟨afUnix, fill []⟩ (List.replicate 106 0x61)
        ⟨afUnix, fill (List.replicate 106 0x61)⟩ := by
  have hlongest : ofPath (List.replicate 107 0x61) = some ⟨afUnix, fill (List.replicate 107 0x61)⟩ :=
    if_neg (by rw [List.length_replicate]; decide)
  have hshorter : ofPath (List.replicate 106 0x61) = some ⟨afUnix, fill (List.replicate 106 0x61)⟩ :=
    if_neg (by rw [List.length_replicate]; decide)
  refine ⟨((survives_iff .little ⟨afUnix, fill []⟩).1 _ _ hlongest).mpr (.inr ⟨?_, ?_⟩), fun h => ?_⟩
  · exact List.length_replicate
  · exact fun h0 => absurd (List.eq_of_mem_replicate h0) (by decide)
  · rcases ((survives_iff .little ⟨afUnix, fill []⟩).1 _ _ hshorter).mp h with hnil | ⟨hlen, -⟩
    · exact absurd (congrArg List.length hnil) (by rw [List.length_replicate]; decide)
    · rw [List.length_replicate] at hlen
      exact absurd hlen (by decide)

/-- **The path `/tmp/s` does not survive**: the kernel reports a length of 9. -/
theorem not_survives :
    ∃ info, ofPath [0x2f, 0x74, 0x6d, 0x70, 0x2f, 0x73] = some info ∧
      ¬ Survives .little ⟨afUnix, fill []⟩ [0x2f, 0x74, 0x6d, 0x70, 0x2f, 0x73] info := by
  have h : ofPath [0x2f, 0x74, 0x6d, 0x70, 0x2f, 0x73] =
      some ⟨afUnix, fill [0x2f, 0x74, 0x6d, 0x70, 0x2f, 0x73]⟩ := if_neg (by decide)
  refine ⟨_, h, ?_⟩
  rintro ⟨-, decoded, hdecode, -⟩
  have hlen := ((decode_bound_iff h).mp hdecode).1
  rw [length_report .little h (by decide)] at hlen
  exact absurd hlen (by decide)

/-! ### Accepting -/

/-- A `socket_accept` when the kernel has accepted a peer. -/
def accepted (native : Endian) (sock : Socket) (storage : SockaddrUn) (name : Name) : SocketAccept where
  sock := sock
  sockaddr := overwrite (bytes native storage) (name.report native)
  addrlenOut := UInt32.ofNat (name.report native).length

/-- **A peer is reported to the callback** exactly when its address is decoded. -/
theorem classified_accepted_iff {V : Type} (native : Endian) (sock : Socket) (storage : SockaddrUn)
    (name : Name) {ev : Int32} (hev : 0 ≤ ev.toInt) (cqeFlags : UInt32) :
    Classified (.socketAccept (UdsInfo.socketInfo native) (accepted native sock storage name) :
        Operation UdsInfo V) ev cqeFlags ↔ (decode native storage name).isSome = true := by
  have hcan : CanReturn (.socketAccept (UdsInfo.socketInfo native) (accepted native sock storage name) :
      Operation UdsInfo V) ev := .inr hev
  refine (classified_invokeDecoded_iff rfl rfl hcan _).trans ?_
  rw [Option.isSome_map]
  exact ⟨fun h => h (ge_zero_iff.mpr hev), fun h _ => h⟩

/-- **No callback for an unnamed peer.** -/
theorem not_classified_unnamed {V : Type} (native : Endian) (sock : Socket) (storage : SockaddrUn)
    {ev : Int32} (hev : 0 ≤ ev.toInt) (cqeFlags : UInt32) :
    ¬ Classified (.socketAccept (UdsInfo.socketInfo native) (accepted native sock storage .unnamed) :
        Operation UdsInfo V) ev cqeFlags := by
  rw [classified_accepted_iff native sock storage .unnamed hev, decode_unnamed]
  exact Bool.false_ne_true

end Iouxx.Net
