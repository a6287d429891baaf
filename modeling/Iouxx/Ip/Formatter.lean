import Iouxx.Ip.AddressV6
import Iouxx.Lib.LongestRun

/-!
# Formatters (`ip.hpp`, the specializations of `std::formatter`)

A formatter first parses a format spec: the characters from `ctx.begin()` to `ctx.end()`, of which
it must stop at the closing brace or at the end. What it has seen decides how the value is written.
-/

namespace Iouxx.Ip

open Iouxx.Cpp.CharConv Iouxx.Cpp.Memory
open Iouxx.Lib.LongestRun

/-- How parsing a format spec can fail: with a `std::format_error`, or with undefined behaviour,
where `*it` is read at the end. -/
inductive SpecError
  | formatError (what : String)
  | undefined
  deriving DecidableEq, Repr

/-- What the formatters that support no format spec do, and all of them in the end: the spec must
end here. -/
def expectEnd (what : String) (it : List Char) : Except SpecError (List Char) :=
  match it with
  | [] => .ok it
  | c :: _ => if c = '}' then .ok it else .error (.formatError what)

/-- `formatter<address_v4>::parse`. -/
def AddressV4.parseSpec (spec : List Char) : Except SpecError (List Char) :=
  expectEnd "invalid format spec for ipv4 address" spec

/-- `formatter<port>::parse`. -/
def Port.parseSpec (spec : List Char) : Except SpecError (List Char) :=
  expectEnd "invalid format spec for port" spec

/-- `std::format` of an IPv4 address with the format spec that `spec` begins with. -/
def AddressV4.formatWith (native : Endian) (spec : List Char) (addr : AddressV4) :
    Except SpecError (List Char) := do
  let _ ← parseSpec spec
  return addr.format native

/-- `std::format` of a port with the format spec that `spec` begins with. -/
def Port.formatWith (native : Endian) (spec : List Char) (p : Port) :
    Except SpecError (List Char) := do
  let _ ← parseSpec spec
  return p.format native

/-! ### The formatter of IPv6 addresses -/

/-- `formatter<address_v6>`: the spec characters that were seen. -/
structure FormatterV6 where
  seenR : Bool := false
  seenF : Bool := false
  seenZ : Bool := false
  seenM : Bool := false
  seenN : Bool := false
  seenU : Bool := false
  deriving DecidableEq, Repr

namespace FormatterV6

/-- The switch in the loop of `parse`. -/
def parseChar (f : FormatterV6) (c : Char) : Except SpecError FormatterV6 :=
  match c with
  | 'r' | 'R' =>
    if f.seenR then .error (.formatError "duplicate 'r' or 'R' in ipv6 format spec")
    else .ok { f with seenR := true }
  | 'f' | 'F' =>
    if f.seenF then .error (.formatError "duplicate 'f' or 'F' in ipv6 format spec")
    else .ok { f with seenF := true }
  | 'z' | 'Z' =>
    if f.seenZ then .error (.formatError "duplicate 'z' or 'Z' in ipv6 format spec")
    else .ok { f with seenZ := true }
  | 'm' | 'M' =>
    if f.seenM then .error (.formatError "duplicate 'm' or 'M' in ipv6 format spec")
    else .ok { f with seenM := true }
  | 'n' | 'N' =>
    if f.seenN then .error (.formatError "duplicate 'n' or 'N' in ipv6 format spec")
    else .ok { f with seenN := true }
  | 'u' | 'U' =>
    if f.seenU then .error (.formatError "duplicate 'u' or 'U' in ipv6 format spec")
    else .ok { f with seenU := true }
  | _ => .error (.formatError "invalid character in ipv6 format spec")

/-- The loop of `parse`; it returns what was seen and where it stopped. -/
def parseLoop (f : FormatterV6) : List Char → Except SpecError (FormatterV6 × List Char)
  | [] => .ok (f, [])
  | c :: it =>
    if c = '}' then .ok (f, c :: it)
    else
      match f.parseChar c with
      | .error e => .error e
      | .ok f => f.parseLoop it

/-- The combinations `parse` refuses after the loop. -/
def validate (f : FormatterV6) : Except SpecError Unit :=
  if f.seenR then
    if f.seenF then .error (.formatError "cannot combine 'r' and 'f' in ipv6 format spec")
    else if f.seenZ then .error (.formatError "cannot combine 'r' and 'z' in ipv6 format spec")
    else if f.seenM then .error (.formatError "cannot combine 'r' and 'm' in ipv6 format spec")
    else .ok ()
  else if f.seenM ∧ f.seenN then
    .error (.formatError "cannot combine 'm' and 'n' in ipv6 format spec")
  else .ok ()

/-- `formatter<address_v6>::parse`. -/
def parse (f : FormatterV6) (spec : List Char) : Except SpecError (FormatterV6 × List Char) := do
  if spec = [] ∨ spec.head? = some '}' then .ok ({ f with seenR := true }, spec)
  else
    let (f, it) ← f.parseLoop spec
    f.validate
    return (f, it)

/-- One group under one of the formats `{:x}`, `{:04x}`, `{:X}` and `{:04X}`. -/
def groupText (removed uppercase : Bool) (g : UInt16) : List Char :=
  if removed then toChars 16 uppercase g.toNat else toChars4 16 uppercase g.toNat

/-- `check_mixed`. -/
def checkMixed (local_ : Vector UInt16 8) : Bool :=
  if (local_.toList.take 5).any (· ≠ 0) then false
  else if local_[5] ≠ 0xffff ∧ (local_[5] ≠ 0 ∨ local_[6] = 0) then false
  else true

/-- `full_ipv6`: all eight groups, with colons between them. -/
def fullIpv6 (local_ : Vector UInt16 8) (removed uppercase : Bool) : List Char :=
  [':'].intercalate (local_.toList.map (groupText removed uppercase))

/-- `mixed_full_ipv6`: the first six groups, with a colon after each. -/
def mixedFullIpv6 (local_ : Vector UInt16 8) (removed uppercase : Bool) : List Char :=
  (local_.toList.take 6).flatMap fun g => groupText removed uppercase g ++ [':']

/-- `compressed_ipv6`. -/
def compressedIpv6 (local_ : Vector UInt16 8) (removed mixed uppercase : Bool) : List Char :=
  let limit := if mixed then 6 else 8
  -- find the longest consecutive zeros
  let best := scan (· == 0) (local_.toList.take limit)
  if best.bestLen < 2 then
    if mixed then mixedFullIpv6 local_ removed uppercase
    else fullIpv6 local_ removed uppercase
  else if best.bestStart = 0 ∧ best.bestLen = limit then
    [':', ':'] -- all zeros
  else
    -- before compression
    ((local_.toList.take best.bestStart).flatMap fun g => groupText removed uppercase g ++ [':']) ++
    (if best.bestStart = 0 then [':'] else []) ++
    -- after compression
    (((local_.toList.take limit).drop (best.bestStart + best.bestLen)).flatMap fun g =>
      ':' :: groupText removed uppercase g) ++
    (if best.bestStart + best.bestLen = limit ∨ mixed then [':'] else [])

/-- `ipv4_part`: the last two groups as an IPv4 address. -/
def ipv4Part (native : Endian) (addr : AddressV6) : List Char :=
  let rawV4Part : Vector UInt16 2 := #v[addr.raw[6], addr.raw[7]]
  AddressV4.format native ⟨bitCast _ native rawV4Part⟩

/-- `do_format`. -/
def doFormat (native : Endian) (addr : AddressV6) (local_ : Vector UInt16 8)
    (full removed mixed uppercase : Bool) : List Char :=
  if full then
    if mixed then mixedFullIpv6 local_ removed uppercase ++ ipv4Part native addr
    else fullIpv6 local_ removed uppercase
  else
    compressedIpv6 local_ removed mixed uppercase ++ if mixed then ipv4Part native addr else []

/-- `formatter<address_v6>::format`. -/
def format (f : FormatterV6) (native : Endian) (addr : AddressV6) : List Char :=
  let local_ := hton native addr.raw
  let mixed := if f.seenR then !f.seenN && checkMixed local_ else f.seenM
  doFormat native addr local_ f.seenF (!f.seenZ) mixed f.seenU

end FormatterV6

/-- `std::format` of an IPv6 address with the format spec that `spec` begins with. -/
def AddressV6.formatWith (native : Endian) (spec : List Char) (addr : AddressV6) :
    Except SpecError (List Char) := do
  let (f, _) ← FormatterV6.parse {} spec
  return f.format native addr

/-- The formatter after the empty spec. -/
def FormatterV6.recommended : FormatterV6 := { seenR := true }

/-- `address_v6::to_string`. -/
def AddressV6.toString (native : Endian) (addr : AddressV6) : List Char :=
  FormatterV6.recommended.format native addr

theorem AddressV6.formatWith_empty (native : Endian) (addr : AddressV6) :
    formatWith native ['}'] addr = .ok (addr.toString native) := rfl

/-! ### The formatters of socket addresses -/

/-- `socket_v4_info`. -/
structure SocketV4Info where
  addr : AddressV4
  p : Port
  deriving DecidableEq, Repr

/-- `socket_v6_info`. -/
structure SocketV6Info where
  addr : AddressV6
  p : Port
  deriving DecidableEq, Repr

/-- `formatter<socket_v4_info>`. -/
structure FormatterSocketV4 where
  seperator : Char := ':'
  deriving DecidableEq, Repr

namespace FormatterSocketV4

/-- `formatter<socket_v4_info>::parse`. -/
def parse (f : FormatterSocketV4) (spec : List Char) :
    Except SpecError (FormatterSocketV4 × List Char) := do
  if spec = [] ∨ spec.head? = some '}' then .ok (f, spec)
  else
    let (f, it) := match spec with
      | '/' :: it => ({ f with seperator := '/' }, it)
      | it => (f, it)
    let it ← expectEnd "invalid format spec for socketv4" it
    return (f, it)

/-- `formatter<socket_v4_info>::format`. -/
def format (f : FormatterSocketV4) (native : Endian) (s : SocketV4Info) : List Char :=
  if f.seperator = ':' then s.addr.format native ++ [':'] ++ s.p.format native
  else s.addr.format native ++ ['/'] ++ s.p.format native

end FormatterSocketV4

/-- `std::format` of an IPv4 socket address with the format spec that `spec` begins with. -/
def SocketV4Info.formatWith (native : Endian) (spec : List Char) (s : SocketV4Info) :
    Except SpecError (List Char) := do
  let (f, _) ← FormatterSocketV4.parse {} spec
  return f.format native s

/-- `formatter<socket_v6_info>`. -/
structure FormatterSocketV6 where
  seperator : Char := '\x00'
  addrFormatter : FormatterV6 := {}
  deriving DecidableEq, Repr

namespace FormatterSocketV6

/-- The first test of `parse`, for a separator. -/
def parseSeperator (f : FormatterSocketV6) (it : List Char) :
    Except SpecError (FormatterSocketV6 × List Char) :=
  match it with
  | [] => .error .undefined
  | c :: rest =>
    if c = '/' ∨ c = '#' then .ok ({ f with seperator := c }, rest) else .ok (f, it)

/-- The second test of `parse`, for a nested spec. -/
def parseNested (f : FormatterSocketV6) (it : List Char) :
    Except SpecError (FormatterSocketV6 × List Char) :=
  match it with
  | [] => .error .undefined
  | c :: rest =>
    if c = ':' then do
      let (addrFormatter, it) ← f.addrFormatter.parse rest
      return ({ f with addrFormatter }, it)
    else
      .ok ({ f with addrFormatter := { f.addrFormatter with seenR := true } }, it)

/-- `formatter<socket_v6_info>::parse`. -/
def parse (f : FormatterSocketV6) (spec : List Char) :
    Except SpecError (FormatterSocketV6 × List Char) := do
  let (f, it) ← f.parseSeperator spec
  let (f, it) ← f.parseNested it
  let it ← expectEnd "invalid format spec for socketv6" it
  return (f, it)

/-- `formatter<socket_v6_info>::format`. -/
def format (f : FormatterSocketV6) (native : Endian) (s : SocketV6Info) : List Char :=
  if f.seperator = '\x00' then
    ['['] ++ f.addrFormatter.format native s.addr ++ [']', ':'] ++ s.p.format native
  else
    f.addrFormatter.format native s.addr ++ [f.seperator] ++ s.p.format native

end FormatterSocketV6

/-- `std::format` of an IPv6 socket address with the format spec that `spec` begins with. -/
def SocketV6Info.formatWith (native : Endian) (spec : List Char) (s : SocketV6Info) :
    Except SpecError (List Char) := do
  let (f, _) ← FormatterSocketV6.parse {} spec
  return f.format native s

/-- `socket_v4_info::to_string`. -/
def SocketV4Info.toString (native : Endian) (s : SocketV4Info) : List Char :=
  FormatterSocketV4.format {} native s

/-- `socket_v6_info::to_string`. -/
def SocketV6Info.toString (native : Endian) (s : SocketV6Info) : List Char :=
  FormatterSocketV6.format { addrFormatter := .recommended } native s

theorem SocketV4Info.formatWith_empty (native : Endian) (s : SocketV4Info) :
    formatWith native ['}'] s = .ok (s.toString native) := rfl

theorem SocketV6Info.formatWith_empty (native : Endian) (s : SocketV6Info) :
    formatWith native ['}'] s = .ok (s.toString native) := rfl

end Iouxx.Ip
