import Iouxx.Ip.Sockaddr
import Iouxx.Ops.Resubmit

/-!
# Serving the peers of IP sockets (`connection.hpp`, `sockcmd.hpp`)

An object that accepts connections, or that asks for a name, is submitted again each time it completes.
The storage of the address and its length are the same members every time: what a completion leaves
there is what the next one finds.

* `callbacks_spec`: an invariant of the object gives what each callback is told;
* `serves_peers`: **each callback gets the peer of its own completion**, in order, and each build
  presents the request of the first one.
-/

namespace Iouxx.Ops

open Iouxx.Cpp.Memory Iouxx.Ip Iouxx.Lib.Trace Iouxx.Uring
open ObjectRep (size bytes)

variable {S A V Op : Type} [ObjectRep S] (T : SystemAddress S A)

/-- What the kernel does with one submission: it fails, or it reports in `sockaddr` the address that
the peer has as `peer` on its own machine. -/
inductive Attempt (A : Type)
  | failed (ev : Int32)
  | accepted (ev : Int32) (peerNative : Endian) (peer : A) (sockaddr : List UInt8)

namespace Attempt

/-- An error is negative. A reported struct has the full size, and the bytes of the address and of the
port that the peer has; its other members are whatever the kernel writes there. -/
def Valid : Attempt A → Prop
  | failed ev => ev < 0
  | accepted ev peerNative peer sockaddr => 0 ≤ ev ∧ sockaddr.length = size S ∧
      wire T.start T.len sockaddr = wire T.start T.len (bytes peerNative (T.toSystem peerNative peer))

/-- The result of the completion. -/
def ev : Attempt A → Int32
  | failed ev => ev
  | accepted ev _ _ _ => ev

/-- What the kernel writes. -/
def write (_ : SystemAddress S A) : Attempt A → AddressWrite
  | failed _ => ⟨[], none⟩
  | accepted _ _ _ sockaddr => ⟨sockaddr, some (UInt32.ofNat (size S))⟩

/-- What the callback has to be told: the error, or a peer that has the texts of the address. -/
def Told (native : Endian) (value : Int32 → A → Value A V) : Attempt A → Delivery A V → Prop
  | failed ev, d => d = invokeFail ev
  | accepted ev peerNative peer _, d =>
    ∃ a, d = .value (value ev a) ∧ T.SameTexts peerNative native peer a

end Attempt

/-! ### The loop -/

/-- The events of an object that is submitted again after each completion. -/
def serve (attempts : List (Attempt A)) : List (InOut.Event AddressWrite) :=
  attempts.flatMap fun t => [.submit, .complete (t.write T)]

/-- What the callbacks of the completions are told. -/
def callbacks (k : InOut Op UInt32 AddressWrite) (doCallback : Op → Int32 → List (Delivery A V)) :
    Op → List (Attempt A) → List (Delivery A V)
  | _, [] => []
  | op, t :: ts =>
    let op := k.write op (t.write T)
    doCallback op t.ev ++ callbacks k doCallback op ts

/-- **The object serves every peer**: one callback for each completion, in order and about its own peer,
and each build presents the request of the first one. -/
def Serves (native : Endian) (k : InOut Op UInt32 AddressWrite)
    (doCallback : Op → Int32 → List (Delivery A V)) (value : Int32 → A → Value A V) (op : Op) : Prop :=
  ∀ attempts, (∀ t ∈ attempts, t.Valid T) →
    List.Forall₂ (Attempt.Told T native value) attempts (callbacks T k doCallback op attempts) ∧
      (∃ s, run k.step ⟨op, false⟩ (serve T attempts) = some s) ∧
        AlwaysHolds k.step (k.PresentsFirst op) ⟨op, false⟩ (serve T attempts)

variable {T} {native : Endian} {k : InOut Op UInt32 AddressWrite}
  {doCallback : Op → Int32 → List (Delivery A V)} {value : Int32 → A → Value A V}

theorem run_serve : ∀ (attempts : List (Attempt A)) (op : Op),
    ∃ s, run k.step ⟨op, false⟩ (serve T attempts) = some s
  | [], op => ⟨⟨op, false⟩, rfl⟩
  | t :: ts, op => by
    obtain ⟨s, hs⟩ := run_serve ts (k.write op (t.write T))
    refine ⟨s, ?_⟩
    change run k.step ⟨op, false⟩ (.submit :: .complete (t.write T) :: serve T ts) = some s
    rw [run_cons_eq_some_iff]
    refine ⟨⟨op, true⟩, rfl, ?_⟩
    rw [run_cons_eq_some_iff]
    exact ⟨⟨k.write op (t.write T), false⟩, rfl, hs⟩

/-- **An invariant of the object gives what each callback is told.** -/
theorem callbacks_spec {P : Op → Prop}
    (hP : ∀ op (t : Attempt A), P op → t.Valid T → P (k.write op (t.write T)))
    (hcall : ∀ op (t : Attempt A), P op → t.Valid T →
      ∃ d, doCallback (k.write op (t.write T)) t.ev = [d] ∧ t.Told T native value d) :
    ∀ {attempts : List (Attempt A)} {op : Op}, P op → (∀ t ∈ attempts, t.Valid T) →
      List.Forall₂ (Attempt.Told T native value) attempts (callbacks T k doCallback op attempts)
  | [], op, _, _ => .nil
  | t :: ts, op, h, hvalid => by
    have ht := hvalid t (by simp)
    obtain ⟨d, hd, htold⟩ := hcall op t h ht
    have ih := callbacks_spec hP hcall (hP op t h ht) fun u hu => hvalid u (List.mem_cons_of_mem t hu)
    change List.Forall₂ _ (t :: ts) (doCallback (k.write op (t.write T)) t.ev ++ _)
    rw [hd]
    exact .cons htold ih

theorem serves_of {P : Op → Prop} {op : Op} (h : P op)
    (hP : ∀ op (t : Attempt A), P op → t.Valid T → P (k.write op (t.write T)))
    (hcall : ∀ op (t : Attempt A), P op → t.Valid T →
      ∃ d, doCallback (k.write op (t.write T)) t.ev = [d] ∧ t.Told T native value d)
    (hmember : k.member op = k.intended op) (hintended : k.intended op = UInt32.ofNat (size S))
    (hwritten : ∀ w, k.written w = w.addrlen) : Serves T native k doCallback value op := by
  intro attempts hvalid
  obtain ⟨s, hs⟩ := run_serve (T := T) (k := k) attempts op
  refine ⟨callbacks_spec hP hcall h hvalid, ⟨s, hs⟩, ?_⟩
  rw [InOut.alwaysHolds_presentsFirst_iff hmember _ _ hs]
  intro before e after _ hes _ w hw
  have hmem : e ∈ serve T attempts := by rw [hes]; simp
  obtain ⟨t, -, ht⟩ := List.mem_flatMap.mp hmem
  rw [hw] at ht
  have hwrite : w = t.write T := by simpa using ht
  rw [hwritten, hintended, hwrite]
  rcases t with ev | ⟨ev, peerNative, peer, sockaddr⟩
  · exact Or.inl rfl
  · exact Or.inr rfl

/-! ### The three classes -/

/-- The parameter `Info` of the classes. -/
def socketInfo (T : SystemAddress S A) (domain : Int32) (native : Endian) : SocketInfo A :=
  ⟨domain, fromSystem (T.ofSockaddr native) native⟩

/-- The storage of an object and the length it holds are those of the struct. -/
def FullSize (S : Type) [ObjectRep S] (storage : List UInt8) (len : UInt32) : Prop :=
  storage.length = size S ∧ len = UInt32.ofNat (size S)

theorem fullSize_write {t : Attempt A} (ht : t.Valid T) {storage : List UInt8} {len : UInt32}
    (h : FullSize S storage len) :
    FullSize S (overwrite storage (t.write T).addr) ((t.write T).addrlen.getD len) := by
  rw [FullSize, length_overwrite]
  refine ⟨h.1, ?_⟩
  rcases t with ev | ⟨ev, peerNative, peer, sockaddr⟩
  · exact h.2
  · rfl

theorem told_invokeDecoded (hT : T.IndependentOfByteOrder) (hsize : size S < 2 ^ 32)
    (native : Endian) (value : Int32 → A → Value A V) {t : Attempt A}
    (ht : t.Valid T) {storage : List UInt8} {len : UInt32} (h : FullSize S storage len) :
    ∃ d, invokeDecoded t.ev ((fromSystem (T.ofSockaddr native) native
      (overwrite storage (t.write T).addr) ((t.write T).addrlen.getD len)).map (value t.ev)) = [d] ∧
        t.Told T native value d := by
  rcases t with ev | ⟨ev, peerNative, peer, sockaddr⟩
  · have hev : ¬ ev ≥ 0 := Int32.not_le.mpr ht
    exact ⟨invokeFail ev, if_neg hev, rfl⟩
  · obtain ⟨hev, hlen, hwire⟩ := ht
    obtain ⟨a, ha, hmem⟩ := T.decode_spec native hsize hlen
    refine ⟨.value (value ev a), ?_, a, rfl, ?_⟩
    · have ha : fromSystem (T.ofSockaddr native) native sockaddr (UInt32.ofNat (size S)) = some a := ha
      change invokeDecoded ev ((fromSystem (T.ofSockaddr native) native
        (overwrite storage sockaddr) (UInt32.ofNat (size S))).map (value ev)) = _
      rw [overwrite_of_length_eq (hlen.trans h.1.symm), ha]
      exact if_pos hev
    · rw [SystemAddress.sameTexts_iff hT, hmem, hwire, T.wire_toSystem]

variable (T) in
/-- The three operations that report an address serve every peer. -/
def ServesPeers (V : Type) : Prop :=
  ∀ (native : Endian) (domain : Int32) (sock : Socket) (fixedSock : FixedSocket) (t : Target)
    (fileIndex : Int32) (isPeer : Bool) (storage : List UInt8), storage.length = size S →
    Serves T native SocketAccept.inOut (SocketAccept.doCallback (V := V) (socketInfo T domain native))
      (fun ev peer => .accept ⟨sock, ev⟩ peer) { sock, sockaddr := storage } ∧
    Serves T native FixedSocketAccept.inOut
      (FixedSocketAccept.doCallback (V := V) (socketInfo T domain native))
      (fun ev peer => .fixedAccept ⟨fixedSock, ev⟩ peer)
      { fileIndex, sock := fixedSock, sockaddr := storage } ∧
    Serves T native SocketGetsockname.inOut
      (SocketGetsockname.doCallback (V := V) (socketInfo T domain native))
      (fun _ peer => .info peer) { toTarget := t, sockaddr := storage, isPeer }

theorem servesPeers (hT : T.IndependentOfByteOrder) (hsize : size S < 2 ^ 32) : ServesPeers T V := by
  intro native domain sock fixedSock t fileIndex isPeer storage hstorage
  have hfull : FullSize S storage (UInt32.ofNat storage.length) := ⟨hstorage, by rw [hstorage]⟩
  refine ⟨?_, ?_, ?_⟩
  · refine serves_of (P := fun op => FullSize S op.sockaddr op.addrlenOut ∧ op.sock = sock)
      ⟨hfull, rfl⟩ ?_ ?_ rfl (congrArg UInt32.ofNat hstorage) fun _ => rfl
    · intro op t h ht
      exact ⟨fullSize_write ht h.1, h.2⟩
    · rintro op t ⟨h, rfl⟩ ht
      exact told_invokeDecoded hT hsize native (fun ev peer => .accept ⟨op.sock, ev⟩ peer) ht h
  · refine serves_of (P := fun op => FullSize S op.sockaddr op.addrlenOut ∧ op.sock = fixedSock)
      ⟨hfull, rfl⟩ ?_ ?_ rfl (congrArg UInt32.ofNat hstorage) fun _ => rfl
    · intro op t h ht
      exact ⟨fullSize_write ht h.1, h.2⟩
    · rintro op t ⟨h, rfl⟩ ht
      exact told_invokeDecoded hT hsize native (fun ev peer => .fixedAccept ⟨op.sock, ev⟩ peer) ht h
  · refine serves_of (P := fun op => FullSize S op.sockaddr op.socklenOut)
      hfull ?_ ?_ rfl (congrArg UInt32.ofNat hstorage) fun _ => rfl
    · intro op t h ht
      exact fullSize_write ht h
    · intro op t h ht
      exact told_invokeDecoded hT hsize native (fun _ peer => .info peer) ht h

/-- **Every peer is served**: an accept, an accept to a registered file or a name query of an IP socket
that is submitted again after each completion, of whatever results and peers, tells its callback for
each completion the error or a peer that has the texts the address has on the peer's machine. -/
theorem serves_peers :
    ServesPeers SocketV4Info.system V ∧ ServesPeers SocketV6Info.system V :=
  ⟨servesPeers SocketV4Info.independentOfByteOrder (by decide),
    servesPeers SocketV6Info.independentOfByteOrder (by decide)⟩

/-- An accept that fails is submitted again, and gets two peers whose machines have different byte
orders. -/
def failedAndTwo : List (Attempt SocketV4Info) :=
  let native : SocketV4Info := ⟨⟨0x0100007f⟩, ⟨0x901f⟩⟩
  let foreign : SocketV4Info := ⟨⟨0x0a000001⟩, ⟨0x1f90⟩⟩
  [.failed (-103), .accepted 7 .little native (bytes .little (SocketV4Info.system.toSystem .little native)),
    .accepted 8 .big foreign (bytes .big (SocketV4Info.system.toSystem .big foreign))]

theorem serves_peers_failedAndTwo :
    List.Forall₂ (Attempt.Told SocketV4Info.system .little fun ev peer => .accept ⟨{}, ev⟩ peer)
      failedAndTwo (callbacks SocketV4Info.system SocketAccept.inOut
        (SocketAccept.doCallback (V := Unit) (socketInfo SocketV4Info.system 2 .little))
        { sockaddr := List.replicate 16 0 } failedAndTwo) := by
  have hvalid : ∀ t ∈ failedAndTwo, t.Valid SocketV4Info.system := by
    intro t ht
    simp only [failedAndTwo, List.mem_cons, List.not_mem_nil, or_false] at ht
    rcases ht with rfl | rfl | rfl
    · exact (by decide : (-103 : Int32) < 0)
    · exact ⟨by decide, ObjectRep.length_bytes _ _, rfl⟩
    · exact ⟨by decide, ObjectRep.length_bytes _ _, rfl⟩
  exact ((serves_peers.1 .little 2 {} {} {} 0 false (List.replicate 16 0) rfl).1 failedAndTwo hvalid).1

end Iouxx.Ops
