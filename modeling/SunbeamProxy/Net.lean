/-
Internet addresses as the proxy sees them: `IpAddr`, `SocketAddr`, their textual forms, and the CIDR blocks of
`rate_limit/cidr.rs` that decide which clients skip the detection pipeline and which peers may name a client address.

Flow label and scope id of a V6 socket address are dropped, no modelled function reads them.
-/
import SunbeamProxy.Core.Text

namespace SunbeamProxy

open Text

inductive IpAddr where
  | v4 (bits : BitVec 32)
  | v6 (bits : BitVec 128)
deriving DecidableEq, Repr

structure SocketAddr where
  ip : IpAddr
  port : UInt16
deriving DecidableEq, Repr

/-! ## Reading addresses -/

abbrev Reader (α : Type) := List Char → Option (α × List Char)

def readChar (c : Char) : Reader Unit
  | x :: rest => if x = c then some ((), rest) else none
  | [] => none

def readNumber (radix : ℕ) (maxDigits : Option ℕ) (allowZero : Bool) (bound : ℕ) : Reader ℕ := fun cs =>
  let ds := cs.takeWhile (fun c => (toDigit radix c).isSome)
  if ds = [] ∨ maxDigits.any (· < ds.length) ∨ (!allowZero && ds.head? = some '0' && decide (1 < ds.length))
      ∨ bound ≤ digitsValue radix ds then none
  else some (digitsValue radix ds, cs.drop ds.length)

def readSeparator {α : Type} (c : Char) (index : ℕ) (inner : Reader α) : Reader α := fun cs =>
  if index = 0 then inner cs else (readChar c cs).bind fun r => inner r.2

def readIpv4 : Reader (BitVec 32) := fun cs => do
  let (a, cs) ← readNumber 10 (some 3) false 256 cs
  let (b, cs) ← readSeparator '.' 1 (readNumber 10 (some 3) false 256) cs
  let (c, cs) ← readSeparator '.' 2 (readNumber 10 (some 3) false 256) cs
  let (d, cs) ← readSeparator '.' 3 (readNumber 10 (some 3) false 256) cs
  some (BitVec.ofNat 32 (((a * 256 + b) * 256 + c) * 256 + d), cs)

def readGroups (limit : ℕ) : ℕ → ℕ → List Char → List ℕ × Bool × List Char
  | 0, _, cs => ([], false, cs)
  | fuel + 1, i, cs =>
    match (if i + 1 < limit then readSeparator ':' i readIpv4 cs else none) with
    | some (v4, rest) => ([v4.toNat / 65536, v4.toNat % 65536], true, rest)
    | none =>
      match readSeparator ':' i (readNumber 16 (some 4) true 65536) cs with
      | none => ([], false, cs)
      | some (g, rest) =>
        let (gs, ipv4, rest) := readGroups limit fuel (i + 1) rest
        (g :: gs, ipv4, rest)

def groupsValue (gs : List ℕ) : BitVec 128 := BitVec.ofNat 128 (gs.foldl (fun acc g => acc * 65536 + g) 0)

def readIpv6 : Reader (BitVec 128) := fun cs =>
  let (head, headIpv4, rest) := readGroups 8 8 0 cs
  if head.length = 8 then some (groupsValue head, rest)
  else if headIpv4 then none
  else do
    let (_, rest) ← readChar ':' rest
    let (_, rest) ← readChar ':' rest
    -- the `::` stands for at least one group of zeroes
    let limit := 7 - head.length
    let (tail, _, rest) := readGroups limit limit 0 rest
    some (groupsValue (head ++ List.replicate (8 - head.length - tail.length) 0 ++ tail), rest)

def parseAll {α : Type} (r : Reader α) (s : String) : Option α :=
  match r s.toList with
  | some (v, []) => some v
  | _ => none

def parseIpAddr (s : String) : Option IpAddr :=
  ((parseAll readIpv4 s).map IpAddr.v4).or ((parseAll readIpv6 s).map IpAddr.v6)

def readPort : Reader UInt16 := fun cs => do
  let (_, cs) ← readChar ':' cs
  let (p, cs) ← readNumber 10 none true 65536 cs
  some (UInt16.ofNat p, cs)

def readSocketAddrV4 : Reader SocketAddr := fun cs => do
  let (ip, cs) ← readIpv4 cs
  let (port, cs) ← readPort cs
  some (⟨.v4 ip, port⟩, cs)

def readScopeId : Reader ℕ := fun cs => (readChar '%' cs).bind fun r => readNumber 10 none true (2 ^ 32) r.2

def readSocketAddrV6 : Reader SocketAddr := fun cs => do
  let (_, cs) ← readChar '[' cs
  let (ip, cs) ← readIpv6 cs
  let cs := match readScopeId cs with
    | some (_, rest) => rest
    | none => cs
  let (_, cs) ← readChar ']' cs
  let (port, cs) ← readPort cs
  some (⟨.v6 ip, port⟩, cs)

def parseSocketAddr (s : String) : Option SocketAddr := (parseAll readSocketAddrV4 s).or (parseAll readSocketAddrV6 s)

example : parseSocketAddr "127.0.0.1:10443" = some ⟨.v4 0x7F000001, 10443⟩ ∧ parseIpAddr "10.0.0.01" = none
    ∧ parseIpAddr "fd00::1" = some (.v6 0xFD000000000000000000000000000001)
    ∧ parseIpAddr "::ffff:10.0.0.1" = some (.v6 0xFFFF0A000001) := by decide

def bindPort (bindAddr : String) : Option UInt16 := (parseUnsigned 65536 (afterLast ':' bindAddr)).map UInt16.ofNat

structure CidrBlock where
  addr : IpAddr
  prefixLen : ℕ
deriving DecidableEq, Repr

namespace CidrBlock

def parse (s : String) : Option CidrBlock := do
  let (addrStr, lenStr) ← splitOnce '/' s
  let prefixLen ← parseUnsigned 256 lenStr
  let addr ← parseIpAddr addrStr
  match addr with
  | .v4 _ => if 32 < prefixLen then none else some ⟨addr, prefixLen⟩
  | .v6 _ => if 128 < prefixLen then none else some ⟨addr, prefixLen⟩

def normalise : IpAddr → IpAddr
  | .v6 bits => if bits.toNat / 2 ^ 32 = 0xFFFF then .v4 (bits.setWidth 32) else .v6 bits
  | .v4 bits => .v4 bits

def hostBits (width prefixLen : ℕ) : ℕ := (256 + width - prefixLen) % 256

def v4Mask (prefixLen : ℕ) : BitVec 32 := if prefixLen = 0 then 0 else BitVec.allOnes 32 <<< (hostBits 32 prefixLen % 32)

def v6Mask (prefixLen : ℕ) : BitVec 128 :=
  if prefixLen = 0 then 0 else BitVec.allOnes 128 <<< (hostBits 128 prefixLen % 128)

def contains (b : CidrBlock) (ip : IpAddr) : Bool :=
  match normalise b.addr, normalise ip with
  | .v4 net, .v4 candidate => net &&& v4Mask b.prefixLen == candidate &&& v4Mask b.prefixLen
  | .v6 net, .v6 candidate => net &&& v6Mask b.prefixLen == candidate &&& v6Mask b.prefixLen
  | _, _ => false

end CidrBlock

def parseCidrs (strings : List String) : List CidrBlock := strings.filterMap CidrBlock.parse

def isBypassed (ip : IpAddr) (cidrs : List CidrBlock) : Bool := cidrs.any (·.contains ip)

end SunbeamProxy
