import Iouxx.Cpp.Struct
import Iouxx.Ip.ByteOrder
import Iouxx.Ip.SocketText

/-!
# Socket addresses of the system (`ip.hpp`, `to_system_sockaddr`, `from_system_sockaddr`)

The kernel takes and reports the address of an IP socket as a `sockaddr_in` or a `sockaddr_in6`: the
family in the byte order of the machine, the port and the address in network order, and members that
the library sets to zero and does not read.

* `wire_toSystem`, `memory_ofSockaddr`: where the address and the port lie in such a struct;
* `sameTexts_iff`: two values on two machines have the same texts exactly when they have the same bytes;
* `roundTrips`: **an address comes back from its struct, and a struct from its address if the members
  that are not read have the values that are set**;
* `peer_text`: **the peer has the texts of the address** if the structs have the same bytes of the
  address and the port, on machines of whatever byte order.
-/

namespace Iouxx.Ip

open Iouxx.Cpp.Memory
open ObjectRep (size bytes ofBytes length_bytes ofBytes_bytes bytes_ofBytes)

/-- `AF_INET`. -/
def afInet : UInt16 := 2

/-- `AF_INET6`. -/
def afInet6 : UInt16 := 10

/-- `sockaddr_in`, with the one member of `in_addr`. -/
structure SockaddrIn where
  sinFamily : UInt16
  sinPort : UInt16
  sinAddr : UInt32
  sinZero : Vector UInt8 8
  deriving DecidableEq, Repr

/-- `sockaddr_in6`. -/
structure SockaddrIn6 where
  sin6Family : UInt16
  sin6Port : UInt16
  sin6Flowinfo : UInt32
  sin6Addr : Vector UInt8 16
  sin6ScopeId : UInt32
  deriving DecidableEq, Repr

instance : ObjectRep SockaddrIn :=
  .ofEquiv (β := UInt16 × UInt16 × UInt32 × Vector UInt8 8)
    ⟨fun s => (s.sinFamily, s.sinPort, s.sinAddr, s.sinZero),
      fun p => ⟨p.1, p.2.1, p.2.2.1, p.2.2.2⟩, fun _ => rfl, fun _ => rfl⟩

instance : ObjectRep SockaddrIn6 :=
  .ofEquiv (β := UInt16 × UInt16 × UInt32 × Vector UInt8 16 × UInt32)
    ⟨fun s => (s.sin6Family, s.sin6Port, s.sin6Flowinfo, s.sin6Addr, s.sin6ScopeId),
      fun p => ⟨p.1, p.2.1, p.2.2.1, p.2.2.2.1, p.2.2.2.2⟩, fun _ => rfl, fun _ => rfl⟩

/-! ### Both functions -/

namespace SocketV4Info

/-- `socket_v4_info::to_system_sockaddr`. -/
def toSystemSockaddr (s : SocketV4Info) : SockaddrIn :=
  ⟨afInet, s.p.raw, s.addr.raw, Vector.replicate 8 0⟩

/-- The constructor from the members of the struct. -/
def ofSockaddr (addr4 : SockaddrIn) : SocketV4Info := ⟨⟨addr4.sinAddr⟩, ⟨addr4.sinPort⟩⟩

end SocketV4Info

namespace SocketV6Info

/-- `socket_v6_info::to_system_sockaddr`. -/
def toSystemSockaddr (native : Endian) (s : SocketV6Info) : SockaddrIn6 :=
  ⟨afInet6, s.p.raw, 0, bitCast (Vector UInt8 16) native s.addr.raw, 0⟩

/-- The constructor from the members of the struct. -/
def ofSockaddr (native : Endian) (addr6 : SockaddrIn6) : SocketV6Info :=
  ⟨⟨bitCast (Vector UInt16 8) native addr6.sin6Addr⟩, ⟨addr6.sin6Port⟩⟩

end SocketV6Info

/-- The body of both `from_system_sockaddr`, for a struct `S`; `none` is an assertion that fails. -/
def fromSystem {S A : Type} [ObjectRep S] (ofSockaddr : S → A) (native : Endian)
    (sockaddr : List UInt8) (addrlen : UInt32) : Option A :=
  if addrlen.toNat ≠ size S then none
  else some (ofSockaddr (ofBytes native (sockaddr.take (size S))))

/-- `socket_v4_info::from_system_sockaddr`. -/
def SocketV4Info.fromSystemSockaddr (native : Endian) :
    List UInt8 → UInt32 → Option SocketV4Info :=
  fromSystem SocketV4Info.ofSockaddr native

/-- `socket_v6_info::from_system_sockaddr`. -/
def SocketV6Info.fromSystemSockaddr (native : Endian) :
    List UInt8 → UInt32 → Option SocketV6Info :=
  fromSystem (SocketV6Info.ofSockaddr native) native

/-! ### The structs in memory -/

/-- The address and the port of a struct, from the bytes `n` to `n + len` and the third and fourth
byte. -/
def wire (n len : ℕ) (b : List UInt8) : List UInt8 := (b.drop n).take len ++ (b.drop 2).take 2

theorem SockaddrIn.bytes_eq (native : Endian) (a : SockaddrIn) : bytes native a =
    bytes native a.sinFamily ++ (bytes native a.sinPort ++
      (bytes native a.sinAddr ++ bytes native a.sinZero)) := rfl

theorem SockaddrIn6.bytes_eq (native : Endian) (a : SockaddrIn6) : bytes native a =
    bytes native a.sin6Family ++ (bytes native a.sin6Port ++ (bytes native a.sin6Flowinfo ++
      (bytes native a.sin6Addr ++ bytes native a.sin6ScopeId))) := rfl

theorem take_drop_append {l l' l'' : List UInt8} {n m : ℕ} (hn : l.length = n) (hm : l'.length = m) :
    ((l ++ (l' ++ l'')).drop n).take m = l' := by
  rw [List.drop_left' hn, List.take_left' hm]

namespace SocketV4Info

theorem bytes_toSystem (native : Endian) (s : SocketV4Info) : bytes native s.toSystemSockaddr =
    bytes native afInet ++ (s.p.memory native ++ (s.addr.memory native ++
      bytes native (Vector.replicate 8 (0 : UInt8)))) :=
  SockaddrIn.bytes_eq native s.toSystemSockaddr

theorem wire_toSystem (native : Endian) (s : SocketV4Info) :
    wire 4 4 (bytes native s.toSystemSockaddr) = s.memory native := by
  have hfamily : (bytes native afInet).length = 2 := length_bytes native _
  have hport : (s.p.memory native).length = 2 := length_bytes native _
  have haddr : (s.addr.memory native).length = 4 := length_bytes native _
  rw [bytes_toSystem, wire, take_drop_append hfamily hport, ← List.append_assoc,
    take_drop_append (by rw [List.length_append]; omega) haddr]
  rfl

theorem memory_inj {native : Endian} {s s' : SocketV4Info} (h : s.memory native = s'.memory native) :
    s = s' := by
  obtain ⟨⟨a⟩, ⟨p⟩⟩ := s
  obtain ⟨⟨a'⟩, ⟨p'⟩⟩ := s'
  have hpair : (a, p) = (a', p') := bytes_inj native h
  obtain ⟨rfl, rfl⟩ := Prod.mk.inj hpair
  rfl

theorem has_text (native : Endian) (i : SocketV4Info) : ∃ s, fromString native s = .ok i :=
  ⟨i.addr.toString native ++ [':'] ++ i.p.toString native, fromString_eq_ok_iff.mpr (Or.inl rfl)⟩

theorem memory_ofSockaddr (native : Endian) (a : SockaddrIn) :
    (ofSockaddr a).memory native = wire 4 4 (bytes native a) := by
  have hfamily : (bytes native a.sinFamily).length = 2 := length_bytes native _
  have hport : (bytes native a.sinPort).length = 2 := length_bytes native _
  have haddr : (bytes native a.sinAddr).length = 4 := length_bytes native _
  rw [SockaddrIn.bytes_eq, wire, take_drop_append hfamily hport, ← List.append_assoc,
    take_drop_append (by rw [List.length_append]; omega) haddr]
  rfl

end SocketV4Info

namespace SocketV6Info

theorem size_raw : size (Vector UInt16 8) = size (Vector UInt8 16) := rfl

theorem bytes_toSystem (native : Endian) (s : SocketV6Info) :
    bytes native (s.toSystemSockaddr native) =
      bytes native afInet6 ++ (s.p.memory native ++ (bytes native (0 : UInt32) ++
        (s.addr.memory native ++ bytes native (0 : UInt32)))) := by
  have haddr : s.addr.memory native = bytes native (bitCast (Vector UInt8 16) native s.addr.raw) :=
    (bytes_bitCast native size_raw s.addr.raw).symm
  rw [haddr]
  exact SockaddrIn6.bytes_eq native (s.toSystemSockaddr native)

theorem wire_toSystem (native : Endian) (s : SocketV6Info) :
    wire 8 16 (bytes native (s.toSystemSockaddr native)) = s.memory native := by
  have hfamily : (bytes native afInet6).length = 2 := length_bytes native _
  have hport : (s.p.memory native).length = 2 := length_bytes native _
  have hflow : (bytes native (0 : UInt32)).length = 4 := length_bytes native _
  have haddr : (s.addr.memory native).length = 16 := length_bytes native _
  rw [bytes_toSystem, wire, take_drop_append hfamily hport, ← List.append_assoc, ← List.append_assoc,
    take_drop_append (by rw [List.length_append, List.length_append]; omega) haddr]
  rfl

theorem memory_inj {native : Endian} {s s' : SocketV6Info} (h : s.memory native = s'.memory native) :
    s = s' := by
  obtain ⟨⟨a⟩, ⟨p⟩⟩ := s
  obtain ⟨⟨a'⟩, ⟨p'⟩⟩ := s'
  have hpair : (a, p) = (a', p') := bytes_inj native h
  obtain ⟨rfl, rfl⟩ := Prod.mk.inj hpair
  rfl

theorem has_text (native : Endian) (i : SocketV6Info) : ∃ s, fromString native s = .ok i :=
  ⟨_, fromString_format (f := {}) native i (Or.inl rfl)⟩

theorem memory_ofSockaddr (native : Endian) (a : SockaddrIn6) :
    (ofSockaddr native a).memory native = wire 8 16 (bytes native a) := by
  have hfamily : (bytes native a.sin6Family).length = 2 := length_bytes native _
  have hport : (bytes native a.sin6Port).length = 2 := length_bytes native _
  have hflow : (bytes native a.sin6Flowinfo).length = 4 := length_bytes native _
  have haddr : (bytes native a.sin6Addr).length = 16 := length_bytes native _
  have hcast : bytes native (bitCast (Vector UInt16 8) native a.sin6Addr) = bytes native a.sin6Addr :=
    bytes_bitCast native size_raw.symm a.sin6Addr
  rw [SockaddrIn6.bytes_eq, wire, take_drop_append hfamily hport, ← List.append_assoc,
    ← List.append_assoc,
    take_drop_append (by rw [List.length_append, List.length_append]; omega) haddr, ← hcast]
  rfl

end SocketV6Info

/-! ### What is decoded -/

/-- **A class of socket addresses**: its texts and bytes, its struct, and where the address lies in the
struct. -/
structure SystemAddress (S A : Type) [ObjectRep S] extends NetworkType A where
  toSystem : Endian → A → S
  ofSockaddr : Endian → S → A
  start : ℕ
  len : ℕ
  memory_inj : ∀ {native a b}, memory native a = memory native b → a = b
  has_text : ∀ native a, ∃ s, fromString native s = .ok a
  wire_toSystem : ∀ native a, wire start len (bytes native (toSystem native a)) = memory native a
  memory_ofSockaddr : ∀ native x,
    memory native (ofSockaddr native x) = wire start len (bytes native x)

def SocketV4Info.system : SystemAddress SockaddrIn SocketV4Info where
  toNetworkType := network
  toSystem _ := toSystemSockaddr
  ofSockaddr _ := ofSockaddr
  start := 4
  len := 4
  memory_inj := memory_inj
  has_text := has_text
  wire_toSystem := wire_toSystem
  memory_ofSockaddr := memory_ofSockaddr

def SocketV6Info.system : SystemAddress SockaddrIn6 SocketV6Info where
  toNetworkType := network
  toSystem := toSystemSockaddr
  ofSockaddr := ofSockaddr
  start := 8
  len := 16
  memory_inj := memory_inj
  has_text := has_text
  wire_toSystem := wire_toSystem
  memory_ofSockaddr := memory_ofSockaddr

namespace SystemAddress
variable {S A : Type} [ObjectRep S] (T : SystemAddress S A)

/-- `from_system_sockaddr` of a struct of the full size. -/
def decode (native : Endian) (sockaddr : List UInt8) : Option A :=
  fromSystem (T.ofSockaddr native) native sockaddr (UInt32.ofNat (size S))

/-- The same texts are read as the value of one machine and as the value of the other, and under each
format spec the two have the same text. -/
def SameTexts (native native' : Endian) (a a' : A) : Prop :=
  (∀ s, T.fromString native s = .ok a ↔ T.fromString native' s = .ok a') ∧
    ∀ spec, T.formatWith native spec a = T.formatWith native' spec a'

variable {T} {native native' : Endian} {a a' : A}

/-- **The texts of two values are the same if and only if their bytes are.** -/
theorem sameTexts_iff (hT : T.IndependentOfByteOrder) :
    T.SameTexts native native' a a' ↔ T.memory native a = T.memory native' a' := by
  constructor
  · rintro ⟨hread, -⟩
    obtain ⟨s, hs⟩ := T.has_text native a
    have hdenotes := (hT.denoted hs (T.memory native a)).mpr rfl
    exact (hT.denoted ((hread s).mp hs) _).mp hdenotes
  · intro h
    refine ⟨fun s => ?_, hT.same_text h⟩
    constructor
    · intro hs
      obtain ⟨b, hb, hmem⟩ := hT.same_memory hs native'
      rw [T.memory_inj (hmem.trans h)] at hb
      exact hb
    · intro hs
      obtain ⟨b, hb, hmem⟩ := hT.same_memory hs native
      rw [T.memory_inj (hmem.trans h.symm)] at hb
      exact hb

/-- **A struct of the full size is decoded**, and the value has the bytes of its address and port. -/
theorem decode_spec (native : Endian) (hsize : size S < 2 ^ 32) {b : List UInt8}
    (hb : b.length = size S) :
    ∃ a, T.decode native b = some a ∧ T.memory native a = wire T.start T.len b := by
  have hlen : (UInt32.ofNat (size S)).toNat = size S := UInt32.toNat_ofNat_of_lt' hsize
  refine ⟨T.ofSockaddr native (ofBytes native b), ?_, ?_⟩
  · rw [decode, fromSystem, if_neg (not_not.mpr hlen), List.take_of_length_le hb.le]
  · rw [T.memory_ofSockaddr, bytes_ofBytes native b hb]

variable (T) in
/-- A struct of the full size, whatever its other members are, is decoded to a value that has the texts
of an address on another machine if and only if the two have the same address and port bytes. -/
def DecodesTexts : Prop :=
  ∀ native native' a b, b.length = size S →
    ∃ a', T.decode native' b = some a' ∧ (T.SameTexts native native' a a' ↔
      wire T.start T.len b = wire T.start T.len (bytes native (T.toSystem native a)))

theorem decodesTexts (hT : T.IndependentOfByteOrder) (hsize : size S < 2 ^ 32) :
    T.DecodesTexts := by
  intro native native' a b hb
  obtain ⟨a', ha', hmem⟩ := T.decode_spec native' hsize hb
  refine ⟨a', ha', ?_⟩
  rw [sameTexts_iff hT, hmem, T.wire_toSystem]
  exact eq_comm

end SystemAddress

/-! ### There and back -/

/-- The members of a struct that are not read are lost. -/
theorem SocketV4Info.toSystem_ofSockaddr_iff (x : SockaddrIn) :
    (ofSockaddr x).toSystemSockaddr = x ↔
      x.sinFamily = afInet ∧ x.sinZero = Vector.replicate 8 0 := by
  obtain ⟨family, port, addr, zero⟩ := x
  simp only [ofSockaddr, toSystemSockaddr, SockaddrIn.mk.injEq, true_and]
  exact and_congr eq_comm eq_comm

theorem SocketV6Info.toSystem_ofSockaddr_iff (native : Endian) (x : SockaddrIn6) :
    (ofSockaddr native x).toSystemSockaddr native = x ↔
      x.sin6Family = afInet6 ∧ x.sin6Flowinfo = 0 ∧ x.sin6ScopeId = 0 := by
  obtain ⟨family, port, flowinfo, addr, scopeId⟩ := x
  have haddr := bitCast_cancel native size_raw.symm addr
  simp only [ofSockaddr, toSystemSockaddr, SockaddrIn6.mk.injEq, haddr, true_and]
  exact and_congr eq_comm (and_congr eq_comm eq_comm)

theorem SystemAddress.decode_toSystem {S A : Type} [ObjectRep S] (T : SystemAddress S A)
    (native : Endian) (hsize : size S < 2 ^ 32) (a : A) :
    T.decode native (bytes native (T.toSystem native a)) = some a := by
  obtain ⟨a', ha', hmem⟩ := T.decode_spec native hsize (length_bytes native (T.toSystem native a))
  rw [ha', T.memory_inj (hmem.trans (T.wire_toSystem native a))]

theorem SystemAddress.decode_bytes {S A : Type} [ObjectRep S] (T : SystemAddress S A)
    (native : Endian) (hsize : size S < 2 ^ 32) (x : S) :
    T.decode native (bytes native x) = some (T.ofSockaddr native x) := by
  obtain ⟨a, ha, hmem⟩ := T.decode_spec native hsize (length_bytes native x)
  rw [ha, T.memory_inj (hmem.trans (T.memory_ofSockaddr native x).symm)]

/-- **What survives a round trip**: every address by way of its struct; and a struct that is decoded is
made again from the address exactly when it has the right family and zeros where nothing is read, so
the flow information and the scope of an IPv6 struct are lost. -/
theorem roundTrips (native : Endian) :
    (∀ s, SocketV4Info.system.decode native (bytes native s.toSystemSockaddr) = some s) ∧
    (∀ s, SocketV6Info.system.decode native (bytes native (s.toSystemSockaddr native)) = some s) ∧
    (∀ x : SockaddrIn, ∃ s, SocketV4Info.system.decode native (bytes native x) = some s ∧
      (s.toSystemSockaddr = x ↔ x.sinFamily = afInet ∧ x.sinZero = Vector.replicate 8 0)) ∧
    ∀ x : SockaddrIn6, ∃ s, SocketV6Info.system.decode native (bytes native x) = some s ∧
      (s.toSystemSockaddr native = x ↔
        x.sin6Family = afInet6 ∧ x.sin6Flowinfo = 0 ∧ x.sin6ScopeId = 0) := by
  refine ⟨?_, ?_, fun x => ?_, fun x => ?_⟩
  · exact SocketV4Info.system.decode_toSystem native (by decide)
  · exact SocketV6Info.system.decode_toSystem native (by decide)
  · exact ⟨_, SocketV4Info.system.decode_bytes native (by decide) x,
      SocketV4Info.toSystem_ofSockaddr_iff x⟩
  · exact ⟨_, SocketV6Info.system.decode_bytes native (by decide) x,
      SocketV6Info.toSystem_ofSockaddr_iff native x⟩

/-- **The peer has the texts of the address**: what one machine connects to and what another machine
decodes of a reported struct are read from and written as the same texts if and only if the structs
have the same bytes of the address and of the port. -/
theorem peer_text :
    SocketV4Info.system.DecodesTexts ∧ SocketV6Info.system.DecodesTexts :=
  ⟨SystemAddress.decodesTexts SocketV4Info.independentOfByteOrder (by decide),
    SystemAddress.decodesTexts SocketV6Info.independentOfByteOrder (by decide)⟩

end Iouxx.Ip
