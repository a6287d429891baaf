import Iouxx.Cpp.Checked
import Iouxx.Cpp.Struct
import Iouxx.Ip.AddressV6
import Iouxx.Ops.Resubmit

/-!
# Values of socket options (`sockcmd.hpp`, the classes `*_optval_base`)

A class of option values keeps a value in memory: `option` stores it, `params` says where it is and
how long it is, and `result` reads it. `socket_setoption` and `socket_getoption` send the same
`params`; the kernel keeps the bytes it is given and copies back as many of them as there is room
for.

* `OptvalBase.RoundTrips.of_struct`: what a class with a struct delivers;
* `toInt_timevalResult_timevalOption`: a time is truncated toward zero to microseconds;
* `OptionKind.roundTrips_iff`: **every kind of option but strings round-trips**.
-/

namespace Iouxx.Ip

open Iouxx.Cpp.Memory

/-! ### Addresses of the system -/

/-- `address_v4::to_system_addr`; an `in_addr` is one word. -/
def AddressV4.toSystemAddr (a : AddressV4) : UInt32 := a.raw

/-- `address_v4::from_system_addr`. -/
def AddressV4.fromSystemAddr (inaddr : UInt32) : AddressV4 := ⟨inaddr⟩

/-- `address_v6::to_system_addr`; an `in6_addr` is sixteen bytes. -/
def AddressV6.toSystemAddr (native : Endian) (a : AddressV6) : Vector UInt8 16 :=
  bitCast _ native a.raw

/-- `address_v6::from_system_addr`. -/
def AddressV6.fromSystemAddr (native : Endian) (inaddr : Vector UInt8 16) : AddressV6 :=
  ⟨bitCast _ native inaddr⟩

theorem AddressV6.fromSystemAddr_toSystemAddr (native : Endian) (a : AddressV6) :
    fromSystemAddr native (a.toSystemAddr native) = a := by
  unfold fromSystemAddr toSystemAddr
  rw [bitCast_cancel (α := Vector UInt16 8) (β := Vector UInt8 16) native rfl]

end Iouxx.Ip

namespace Iouxx.Ops

open Iouxx.Cpp Iouxx.Cpp.Memory Iouxx.Ip Iouxx.Lib.Truncated Iouxx.Uring
open ObjectRep (size bytes ofBytes length_bytes ofBytes_bytes)

/-! ### The structs of the system -/

/-- `linger`. -/
structure Linger where
  lOnoff : Int32
  lLinger : Int32
  deriving DecidableEq, Repr

instance : ObjectRep Linger :=
  .ofEquiv (β := Int32 × Int32) ⟨fun s => (s.lOnoff, s.lLinger), fun p => ⟨p.1, p.2⟩, fun _ => rfl,
    fun _ => rfl⟩

/-- `timeval`. -/
structure Timeval where
  tvSec : Int64
  tvUsec : Int64
  deriving DecidableEq, Repr

instance : ObjectRep Timeval :=
  .ofEquiv (β := Int64 × Int64) ⟨fun s => (s.tvSec, s.tvUsec), fun p => ⟨p.1, p.2⟩, fun _ => rfl,
    fun _ => rfl⟩

/-- `ip_mreqn`. -/
structure IpMreqn where
  imrMultiaddr : UInt32
  imrAddress : UInt32
  imrIfindex : Int32
  deriving DecidableEq, Repr

instance : ObjectRep IpMreqn :=
  .ofEquiv (β := UInt32 × UInt32 × Int32) ⟨fun s => (s.imrMultiaddr, s.imrAddress, s.imrIfindex),
    fun p => ⟨p.1, p.2.1, p.2.2⟩, fun _ => rfl, fun _ => rfl⟩

/-- `ipv6_mreq`. -/
structure Ipv6Mreq where
  ipv6mrMultiaddr : Vector UInt8 16
  ipv6mrInterface : UInt32
  deriving DecidableEq, Repr

instance : ObjectRep Ipv6Mreq :=
  .ofEquiv (β := Vector UInt8 16 × UInt32) ⟨fun s => (s.ipv6mrMultiaddr, s.ipv6mrInterface),
    fun p => ⟨p.1, p.2⟩, fun _ => rfl, fun _ => rfl⟩

/-! ### The kernel -/

/-- The options of the sockets: the bytes stored for a descriptor, direct or not, a level and a
name. -/
abbrev SockOptions := Int32 × Bool × Int32 × Int32 → List UInt8

/-- What the kernel does with a request: it stores the bytes it is given, or it copies the stored ones
as far as there is room and returns their number. The second value is the memory `optval` points to
afterwards. -/
def sockCommand (k : SockOptions) (r : BuiltRequest) : SockOptions × List UInt8 × Int32 :=
  match r.call with
  | .cmdSock cmdOp fd level optname optval optlen =>
    let key := (fd, r.fixed, level, optname)
    if cmdOp = socketUringOpSetsockopt then
      (Function.update k key (optval.take optlen.toInt.toNat), optval, 0)
    else
      let copied := (k key).take optlen.toInt.toNat
      (k, overwrite optval copied, Int32.ofNat copied.length)
  | _ => (k, [], 0)

/-- The request of `socket_setoption` and of `socket_getoption`. -/
def SockoptBase.request {V : Type} (opt : SockOpt V) (cmdOp : Int32) (op : SockoptBase) :
    BuiltRequest :=
  ⟨.cmdSock cmdOp op.fd opt.level opt.optname op.val (Int32.ofNat op.val.length), op.isFixed⟩

theorem SockoptBase.build_eq {V : Type} (prep : Prep → Sqe) (opt : SockOpt V) (cmdOp : Int32)
    (op : SockoptBase) : op.build prep opt cmdOp = (op.request opt cmdOp).sqe prep := rfl

theorem sockCommand_setsockopt {V : Type} (opt : SockOpt V) (op : SockoptBase) (k : SockOptions) :
    sockCommand k (op.request opt socketUringOpSetsockopt) =
      (Function.update k (op.fd, op.isFixed, opt.level, opt.optname)
        (op.val.take (Int32.ofNat op.val.length).toInt.toNat), op.val, 0) := by
  unfold sockCommand SockoptBase.request
  simp only
  rw [if_pos trivial]

theorem sockCommand_getsockopt {V : Type} (opt : SockOpt V) (op : SockoptBase) (k : SockOptions) :
    sockCommand k (op.request opt socketUringOpGetsockopt) =
      let copied := (k (op.fd, op.isFixed, opt.level, opt.optname)).take
        (Int32.ofNat op.val.length).toInt.toNat
      (k, overwrite op.val copied, Int32.ofNat copied.length) := by
  unfold sockCommand SockoptBase.request
  simp only
  rw [if_neg (by decide)]

/-! ### The classes of values -/

/-- **A class of option values**: the memory after `option`, what `result` reads from the memory, and
the memory of an object that `option` was not called on. -/
structure OptvalBase (A V : Type) where
  option : A → List UInt8
  result : List UInt8 → V
  Unset : List UInt8 → Prop

/-- A class that holds a struct. -/
def OptvalBase.ofStruct {A V : Type} (S : Type) [ObjectRep S] (native : Endian) (option : A → S)
    (result : S → V) : OptvalBase A V where
  option v := bytes native (option v)
  result l := result (ofBytes native l)
  Unset l := l.length = size S

namespace OptvalBase
variable {A V : Type} (b : OptvalBase A V)

/-- An option is set and read on the socket `t`: the bytes the kernel returned, and what the callback
is told. -/
def setThenGet (I : Type) (level optname : Int32) (t : Target) (k : SockOptions) (v : A)
    (unset : List UInt8) : List UInt8 × List (Delivery I V) :=
  let opt : SockOpt V := ⟨level, optname, b.result⟩
  let setter : SocketSetoption := { toTarget := t, val := b.option v }
  let getter : SocketGetoption := { toTarget := t, val := unset }
  let (k, _, _) := sockCommand k (setter.request opt socketUringOpSetsockopt)
  let (_, val, ev) := sockCommand k (getter.request opt socketUringOpGetsockopt)
  (val.take ev.toInt.toNat, { getter with val }.doCallback opt ev)

/-- **The option comes back**: the callback is given the value `w`, which is read from the bytes the
kernel returned and from nothing else. -/
def RoundTrips (v : A) (w : V) : Prop :=
  ∀ I level optname t k unset, b.Unset unset →
    (b.setThenGet I level optname t k v unset).2 = [.value (.option w)] ∧
      b.result (b.setThenGet I level optname t k v unset).1 = w

variable {b}

theorem toNat_toInt_ofNat {n : ℕ} (h : n < 2147483648) : (Int32.ofNat n).toInt.toNat = n := by
  rw [Int32.toInt_ofNat_of_lt (by omega)]
  exact Int.toNat_natCast n

theorem setThenGet_eq (I : Type) (level optname : Int32) (t : Target) (k : SockOptions) (v : A)
    (unset : List UInt8) :
    b.setThenGet I level optname t k v unset =
      let stored := (b.option v).take (Int32.ofNat (b.option v).length).toInt.toNat
      let copied := stored.take (Int32.ofNat unset.length).toInt.toNat
      let val := overwrite unset copied
      let ev := Int32.ofNat copied.length
      (val.take ev.toInt.toNat,
        if ev > 0 then [.value (.option (b.result val))] else [invokeFail ev]) := by
  unfold setThenGet
  simp only [sockCommand_setsockopt, sockCommand_getsockopt, Function.update_self]
  rfl

theorem RoundTrips.of_struct {S : Type} [ObjectRep S] {native : Endian} {option : A → S}
    {result : S → V} (hpos : 0 < size S) (hsize : size S < 2147483648) {v : A} {w : V}
    (hw : result (option v) = w) : (ofStruct S native option result).RoundTrips v w := by
  intro I level optname t k unset hunset
  have hlen := length_bytes native (option v)
  have hev : Int32.ofNat (size S) > 0 := by
    have hint : (Int32.ofNat (size S)).toInt = size S := Int32.toInt_ofNat_of_lt (by omega)
    rw [gt_iff_lt, Int32.lt_iff_toInt_lt, hint]
    exact Int.natCast_pos.mpr hpos
  rw [setThenGet_eq]
  change unset.length = size S at hunset
  have hoption : (ofStruct S native option result).option v = bytes native (option v) := rfl
  simp only [hoption, hlen, hunset, toNat_toInt_ofNat hsize]
  rw [List.take_of_length_le hlen.le, List.take_of_length_le hlen.le,
    overwrite_of_length_eq (hlen.trans hunset.symm), hlen, toNat_toInt_ofNat hsize,
    List.take_of_length_le hlen.le, if_pos hev]
  have hresult : (ofStruct S native option result).result (bytes native (option v)) = w :=
    (congrArg result (ofBytes_bytes native (option v))).trans hw
  rw [hresult]
  exact ⟨rfl, rfl⟩

/-- An object without an option has no room for a string. -/
theorem not_roundTrips_of_unset_nil (hnil : b.Unset []) (v : A) (w : V) : ¬ b.RoundTrips v w := by
  intro h
  obtain ⟨hdelivered, -⟩ := h Unit 0 0 {} (fun _ => []) [] hnil
  rw [setThenGet_eq] at hdelivered
  simp [invokeFail] at hdelivered

end OptvalBase

/-! ### The kinds of values -/

/-- `linger_result`, and the arguments of `option` for it; the time in seconds. -/
structure LingerResult where
  onoff : Bool
  linger : Int64
  deriving DecidableEq, Repr

/-- `ipv4_mreq_result`, and the arguments of `option` for it. -/
structure Ipv4MreqResult where
  multiaddr : AddressV4
  address : AddressV4
  interface : Int32
  deriving DecidableEq, Repr

/-- `ipv6_mreq_result`, and the arguments of `option` for it. -/
structure Ipv6MreqResult where
  multiaddr : AddressV6
  interface : UInt32
  deriving DecidableEq, Repr

/-- `bool_optval_base`. -/
def boolOptvalBase (native : Endian) : OptvalBase Bool Bool :=
  .ofStruct Int32 native (fun value => if value then 1 else 0) fun val => val ≠ 0

/-- `int_optval_base`. -/
def intOptvalBase (native : Endian) : OptvalBase Int32 Int32 := .ofStruct Int32 native id id

/-- `linger_optval_base::option`. -/
def lingerOption (v : LingerResult) : Linger := ⟨if v.onoff then 1 else 0, v.linger.toInt32⟩

/-- `linger_optval_base::result`. -/
def lingerResult (lg : Linger) : LingerResult := ⟨lg.lOnoff ≠ 0, lg.lLinger.toInt64⟩

/-- `linger_optval_base`. -/
def lingerOptvalBase (native : Endian) : OptvalBase LingerResult LingerResult :=
  .ofStruct Linger native lingerOption lingerResult

/-- `timeval_optval_base::option`; the argument is in nanoseconds. -/
def timevalOption (time : Int64) : Timeval :=
  let sec := time / 1000000000
  let usec := (time - sec * 1000000000) / 1000
  ⟨sec, usec⟩

/-- `timeval_optval_base::result`, in microseconds. -/
def timevalResult (tv : Timeval) : Int64 := tv.tvSec * 1000000 + tv.tvUsec

/-- `timeval_optval_base`. -/
def timevalOptvalBase (native : Endian) : OptvalBase Int64 Int64 :=
  .ofStruct Timeval native timevalOption timevalResult

/-- `string_optval_base`. The string of an object without an option is empty: nothing but `option`
assigns to it, and `result` moves from it. -/
def stringOptvalBase : OptvalBase (List UInt8) (List UInt8) where
  option str := str
  result l := l
  Unset l := l = []

/-- `ip_mreqn_optval_base`. -/
def ipMreqnOptvalBase (native : Endian) : OptvalBase Ipv4MreqResult Ipv4MreqResult :=
  .ofStruct IpMreqn native
    (fun v => ⟨v.multiaddr.toSystemAddr, v.address.toSystemAddr, v.interface⟩)
    fun val => ⟨.fromSystemAddr val.imrMultiaddr, .fromSystemAddr val.imrAddress, val.imrIfindex⟩

/-- `ipv6_mreq_optval_base`. -/
def ipv6MreqOptvalBase (native : Endian) : OptvalBase Ipv6MreqResult Ipv6MreqResult :=
  .ofStruct Ipv6Mreq native (fun v => ⟨v.multiaddr.toSystemAddr native, v.interface⟩)
    fun val => ⟨.fromSystemAddr native val.ipv6mrMultiaddr, val.ipv6mrInterface⟩

/-- The kinds of option values. -/
inductive OptionKind
  | bool | int | linger | timeval | string | ipMreqn | ipv6Mreq
  deriving DecidableEq, Repr

namespace OptionKind

/-- The value that `option` is given. -/
def Arg : OptionKind → Type
  | bool => Bool
  | int => Int32
  | linger => LingerResult
  | timeval => Int64
  | string => List UInt8
  | ipMreqn => Ipv4MreqResult
  | ipv6Mreq => Ipv6MreqResult

/-- `result_type`. -/
def Result : OptionKind → Type
  | bool => Bool
  | int => Int32
  | linger => LingerResult
  | timeval => Int64
  | string => List UInt8
  | ipMreqn => Ipv4MreqResult
  | ipv6Mreq => Ipv6MreqResult

/-- The class of the kind. -/
def base (native : Endian) : (kind : OptionKind) → OptvalBase kind.Arg kind.Result
  | bool => boolOptvalBase native
  | int => intOptvalBase native
  | linger => lingerOptvalBase native
  | timeval => timevalOptvalBase native
  | string => stringOptvalBase
  | ipMreqn => ipMreqnOptvalBase native
  | ipv6Mreq => ipv6MreqOptvalBase native

/-- The components fit the struct of the system: the seconds of a `linger` are an `int`. -/
def Fits : (kind : OptionKind) → kind.Arg → Prop
  | linger, (v : LingerResult) => -2147483648 ≤ v.linger.toInt ∧ v.linger.toInt < 2147483648
  | _, _ => True

/-- The value that comes back: the value itself, and for a time the number of whole microseconds,
truncated toward zero. -/
def Expected : (kind : OptionKind) → kind.Arg → kind.Result → Prop
  | bool, v, w => w = v
  | int, v, w => w = v
  | linger, v, w => w = v
  | timeval, (v : Int64), (w : Int64) => w.toInt = v.toInt.tdiv 1000
  | string, v, w => w = v
  | ipMreqn, v, w => w = v
  | ipv6Mreq, v, w => w = v

/-- Setting the option to `v` and reading it gives what is expected. -/
def RoundTrips (native : Endian) (kind : OptionKind) (v : kind.Arg) : Prop :=
  ∃ w, kind.Expected v w ∧ (kind.base native).RoundTrips v w

end OptionKind

/-! ### Seconds and microseconds -/

/-- **Truncation in two steps**: whole seconds, and whole microseconds of the rest. -/
theorem tdiv_add_tdiv (x : ℤ) :
    x.tdiv 1000000000 * 1000000 + (x - x.tdiv 1000000000 * 1000000000).tdiv 1000 =
      x.tdiv 1000 := by
  have hrest : x - x.tdiv 1000000000 * 1000000000 = x.tmod 1000000000 := by
    have hsum := Int.tdiv_mul_add_tmod x 1000000000
    omega
  have hseconds : Splits (1000000 * 1000) x (x.tdiv 1000000000) (x.tmod 1000000000) :=
    splits_tdiv_tmod (by decide) x
  have hmicro := splits_tdiv_tmod (k := 1000) (by decide) (x.tmod 1000000000)
  rw [hrest]
  exact ((splits_iff (by decide)).mp (hseconds.trans (by decide) (by decide) hmicro)).1

/-- **The time that comes back** is truncated toward zero to microseconds: no step overflows. -/
theorem toInt_timevalResult_timevalOption (time : Int64) :
    (timevalResult (timevalOption time)).toInt = time.toInt.tdiv 1000 := by
  have hfits := Checked.fits_toInt time
  have hsecond : (0 : ℤ) < 1000000000 := by decide
  have hbetween := (splits_tdiv_tmod hsecond time.toInt).between hsecond
  have hsec : (time / 1000000000).toInt = time.toInt.tdiv 1000000000 := by
    rw [Int64.toInt_div_of_ne_right _ _ (by decide)]
    rfl
  have hback : (time / 1000000000 * 1000000000).toInt =
      time.toInt.tdiv 1000000000 * 1000000000 := by
    rw [Int64.toInt_mul, hsec]
    have hle : Checked.Fits (time.toInt.tdiv 1000000000 * 1000000000) :=
      hfits.of_between (by omega)
    exact hle.bmod_eq
  have hrest : (time - time / 1000000000 * 1000000000).toInt =
      time.toInt - time.toInt.tdiv 1000000000 * 1000000000 := by
    rw [Int64.toInt_sub, hback]
    have hle : Checked.Fits (time.toInt - time.toInt.tdiv 1000000000 * 1000000000) :=
      hfits.of_between (by omega)
    exact hle.bmod_eq
  have husec : ((time - time / 1000000000 * 1000000000) / 1000).toInt =
      (time.toInt - time.toInt.tdiv 1000000000 * 1000000000).tdiv 1000 := by
    rw [Int64.toInt_div_of_ne_right _ _ (by decide), hrest]
    rfl
  have hmicro : (time / 1000000000 * 1000000).toInt = time.toInt.tdiv 1000000000 * 1000000 := by
    rw [Int64.toInt_mul, hsec]
    have hle : Checked.Fits (time.toInt.tdiv 1000000000 * 1000000) :=
      hfits.of_between (by omega)
    exact hle.bmod_eq
  have hquot : Checked.Fits (time.toInt.tdiv 1000) :=
    Checked.fits_tdiv (b := 1000) (by decide) time
  change (time / 1000000000 * 1000000 +
    (time - time / 1000000000 * 1000000000) / 1000).toInt = _
  rw [Int64.toInt_add, hmicro, husec, tdiv_add_tdiv]
  exact hquot.bmod_eq

theorem toInt64_toInt32 {x : Int64} (h : -2147483648 ≤ x.toInt) (h' : x.toInt < 2147483648) :
    x.toInt32.toInt64 = x := by
  rw [← Int64.toInt_inj, Int32.toInt_toInt64, Int64.toInt_toInt32]
  exact Int.bmod_eq_of_le (by omega) (by omega)

/-! ### Which options round-trip -/

namespace OptionKind

theorem boolResult_boolOption (v : Bool) : decide ((if v then 1 else 0 : Int32) ≠ 0) = v := by
  cases v <;> rfl

theorem lingerResult_lingerOption {v : LingerResult} (h : linger.Fits v) :
    lingerResult (lingerOption v) = v := by
  obtain ⟨onoff, seconds⟩ := v
  rw [lingerResult, lingerOption, toInt64_toInt32 h.1 h.2]
  cases onoff <;> rfl

theorem ipv6Result_ipv6Option (native : Endian) (v : Ipv6MreqResult) :
    (⟨.fromSystemAddr native (v.multiaddr.toSystemAddr native), v.interface⟩ : Ipv6MreqResult) =
      v := by
  rw [AddressV6.fromSystemAddr_toSystemAddr]

/-- **Which options round-trip**: all but strings, for which an object that reads has no room. -/
theorem roundTrips_iff (native : Endian) (kind : OptionKind) (v : kind.Arg) (h : kind.Fits v) :
    RoundTrips native kind v ↔ kind ≠ string := by
  constructor
  · rintro ⟨w, -, hround⟩ rfl
    exact OptvalBase.not_roundTrips_of_unset_nil rfl v w hround
  · intro hkind
    cases kind with
    | bool =>
      refine ⟨v, rfl, ?_⟩
      change (boolOptvalBase native).RoundTrips v v
      unfold boolOptvalBase
      exact .of_struct (by decide) (by decide) (boolResult_boolOption v)
    | int => exact ⟨v, rfl, .of_struct (by decide) (by decide) rfl⟩
    | linger =>
      exact ⟨v, rfl, .of_struct (by decide) (by decide) (lingerResult_lingerOption h)⟩
    | timeval =>
      exact ⟨_, toInt_timevalResult_timevalOption v,
        .of_struct (by decide) (by decide) rfl⟩
    | string => exact absurd rfl hkind
    | ipMreqn => exact ⟨v, rfl, .of_struct (by decide) (by decide) rfl⟩
    | ipv6Mreq =>
      exact ⟨v, rfl, .of_struct (by decide) (by decide) (ipv6Result_ipv6Option native v)⟩

/-- A linger time of five seconds. -/
theorem roundTrips_iff_linger :
    RoundTrips .little linger (⟨true, 5⟩ : LingerResult) ↔ linger ≠ string :=
  roundTrips_iff .little linger (⟨true, 5⟩ : LingerResult) ⟨by decide, by decide⟩

/-- **The name of a device is set and cannot be read.** -/
theorem not_roundTrips_string :
    ¬ RoundTrips .little string ([0x65, 0x74, 0x68, 0x30] : List UInt8) := by
  rintro ⟨w, -, hround⟩
  exact OptvalBase.not_roundTrips_of_unset_nil rfl _ w hround

end OptionKind

end Iouxx.Ops
