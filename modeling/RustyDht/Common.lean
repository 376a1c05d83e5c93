import RustyDht.Lib.Bytes
import Mathlib.Data.UInt

/-!
# Ids, addresses, nodes, time and errors

The small types every other module speaks of (`src/common`, `src/errors.rs`). Bytes are `UInt8`, a fixed-size array is a list
that carries its length, and a socket address keeps every field Rust compares it by. Time is a count of nanoseconds from the
earliest instant the clock can represent, so that a subtraction that would underflow is one below zero.

What panics in Rust is `Except.error` with the panic's message; what returns `Result` is `Except RustyDHTError`.
-/

namespace RustyDht

open ByteString (leadingZeros)

/-! ## Errors -/

/-- `RustyDHTError`. The wrapped error is kept as its text. -/
inductive RustyDHTError where
  | packetParseError (text : String)
  | packetSerializationError (text : String)
  | generalError (text : String)
  | conntrackError (text : String)
  | socketSendError (text : String)
  | socketRecvError (text : String)
  | timeoutError (text : String)
  | shutdownError (text : String)
  | builderMissingFieldError (field : String)
  | builderInvalidComboError (text : String)
  deriving DecidableEq, Repr

/-- A panic, with its message. -/
structure Panic where
  message : String
  deriving DecidableEq, Repr

/-- How a function fails that can return an error and can panic. -/
inductive Failure where
  | error (e : RustyDHTError)
  | panic (p : Panic)
  deriving DecidableEq, Repr

/-- `?` on a `Result`, in a function that can also panic. -/
def orReturn {α : Type} (r : Except RustyDHTError α) : Except Failure α := r.mapError .error

/-- A call that can panic, in a function that can also return an error. -/
def orPanic {α : Type} (r : Except Panic α) : Except Failure α := r.mapError .panic

/-- `expect` on what is known not to have failed. -/
def expect {α : Type} : (r : Except Failure α) → r.isOk = true → α
  | .ok a, _ => a

/-! ## Time -/

/-- A monotonic instant, in nanoseconds from the earliest one the clock represents. -/
abbrev Instant : Type := Nat

/-- A length of time in nanoseconds. -/
abbrev Duration : Type := Nat

/-- `Duration::from_secs`. -/
def Duration.fromSecs (secs : Nat) : Duration := secs * 1000000000

/-- `Duration::as_secs`. -/
def Duration.asSecs (d : Duration) : Nat := d / 1000000000

/-- `Instant::checked_sub`. -/
def Instant.checkedSub (now : Instant) (d : Duration) : Option Instant :=
  if d ≤ now then some (now - d) else none

/-! ## Ids -/

/-- The length in bytes of info hashes and node ids. -/
def idSize : Nat := 20

/-- The id of a node, or an info hash: twenty bytes. -/
structure Id where
  bytes : List UInt8
  size : bytes.length = idSize
  deriving DecidableEq, Repr

@[ext] theorem Id.ext {a b : Id} (h : a.bytes = b.bytes) : a = b := by
  cases a
  cases b
  simp only [Id.mk.injEq]
  exact h

/-- `Id::ZERO`. -/
def Id.zero : Id := ⟨List.replicate idSize 0, rfl⟩

/-- The id that starts with a byte and is zero after it. -/
def Id.startingWith (b : UInt8) : Id := ⟨b :: List.replicate 19 0, rfl⟩

/-- `Id::from_bytes`. -/
def Id.fromBytes (bytes : List UInt8) : Except RustyDHTError Id :=
  if h : bytes.length = idSize then .ok ⟨bytes, h⟩
  else .error (.packetParseError "Wrong number of bytes")

/-- `Id::to_vec`. -/
def Id.toVec (self : Id) : List UInt8 := self.bytes

/-- `Id::xor`. -/
def Id.xor (self other : Id) : Id where
  bytes := List.zipWith (· ^^^ ·) self.bytes other.bytes
  size := by rw [List.length_zipWith, self.size, other.size, Nat.min_self]

/-- The loop of `Id::matching_prefix_bits` over the bytes of the XOR, `toRet` counted so far: a byte that is not zero ends it. -/
def prefixLoop : List UInt8 → Nat → Nat
  | [], toRet => toRet
  | b :: rest, toRet =>
    let toRet := toRet + leadingZeros b
    if leadingZeros b < 8 then toRet else prefixLoop rest toRet

/-- `Id::matching_prefix_bits`. -/
def Id.matchingPrefixBits (self other : Id) : Nat := prefixLoop (self.xor other).bytes 0

/-- The loop of `Id::partial_cmp`: the first pair of bytes that differ decides. -/
def cmpLoop : List UInt8 → List UInt8 → Option Ordering
  | a :: as, b :: bs =>
    match compare a b with
    | .lt => some .lt
    | .gt => some .gt
    | .eq => cmpLoop as bs
  | _, _ => some .eq

theorem cmpLoop_isSome (l : List UInt8) : ∀ m, (cmpLoop l m).isSome = true := by
  induction l with
  | nil => intro m; cases m <;> rfl
  | cons a as ih =>
    intro m
    cases m with
    | nil => rfl
    | cons b bs =>
      simp only [cmpLoop]
      split
      · rfl
      · rfl
      · exact ih bs

/-- `<Id as PartialOrd>::partial_cmp`. -/
def Id.partialCmp (self other : Id) : Option Ordering := cmpLoop self.bytes other.bytes

/-- `a.partial_cmp(b).unwrap()`, which never panics. -/
def Id.cmpUnwrap (self other : Id) : Ordering := (self.partialCmp other).get (cmpLoop_isSome _ _)

/-! ## Addresses and nodes -/

/-- `Ipv4Addr`. -/
structure Ipv4Addr where
  a : UInt8
  b : UInt8
  c : UInt8
  d : UInt8
  deriving DecidableEq, Repr

/-- `Ipv4Addr::octets`. -/
def Ipv4Addr.octets (ip : Ipv4Addr) : List UInt8 := [ip.a, ip.b, ip.c, ip.d]

/-- `Ipv6Addr`: sixteen octets. -/
structure Ipv6Addr where
  octets : List UInt8
  size : octets.length = 16
  deriving DecidableEq, Repr

/-- `IpAddr`. -/
inductive IpAddr where
  | v4 (ip : Ipv4Addr)
  | v6 (ip : Ipv6Addr)
  deriving DecidableEq, Repr

/-- `IpAddr::is_loopback`: 127.0.0.0/8, or ::1. -/
def IpAddr.isLoopback : IpAddr → Bool
  | .v4 ip => ip.a == 127
  | .v6 ip => ip.octets == List.replicate 15 0 ++ [1]

/-- `IpAddr::is_ipv4`. -/
def IpAddr.isIpv4 : IpAddr → Bool
  | .v4 _ => true
  | .v6 _ => false

/-- `SocketAddr`. -/
inductive SocketAddr where
  | v4 (ip : Ipv4Addr) (port : UInt16)
  | v6 (ip : Ipv6Addr) (port : UInt16) (flowinfo scopeId : UInt32)
  deriving DecidableEq, Repr

/-- `SocketAddr::ip`. -/
def SocketAddr.ip : SocketAddr → IpAddr
  | .v4 ip _ => .v4 ip
  | .v6 ip _ _ _ => .v6 ip

/-- `SocketAddr::port`. -/
def SocketAddr.port : SocketAddr → UInt16
  | .v4 _ port => port
  | .v6 _ port _ _ => port

/-- `SocketAddr::set_port`. -/
def SocketAddr.setPort (addr : SocketAddr) (port : UInt16) : SocketAddr :=
  match addr with
  | .v4 ip _ => .v4 ip port
  | .v6 ip _ flowinfo scopeId => .v6 ip port flowinfo scopeId

/-- `SocketAddr::is_ipv4`. -/
def SocketAddr.isIpv4 : SocketAddr → Bool
  | .v4 _ _ => true
  | .v6 _ _ _ _ => false

/-- A node: an id and the address it is reached at. -/
structure Node where
  id : Id
  address : SocketAddr
  deriving DecidableEq, Repr

/-- A transaction id: the byte string of a message, as the outbound request storage keys by it. -/
structure TransactionId where
  bytes : List UInt8
  deriving DecidableEq, Repr

/-- The conversion of a message's transaction id. -/
def TransactionId.from (tid : List UInt8) : TransactionId := ⟨tid⟩

/-! ## Ids valid for an address -/

/-- The big-endian bytes of a 32-bit word. -/
def u32ToBeBytes (x : UInt32) : List UInt8 :=
  [(x >>> 24).toUInt8, (x >>> 16).toUInt8, (x >>> 8).toUInt8, x.toUInt8]

/-- The 32-bit word of four big-endian bytes. -/
def u32FromBeBytes (l : List UInt8) : UInt32 := UInt32.ofNat (ByteString.beNat l)

/-- The big-endian bytes of a 64-bit word. -/
def u64ToBeBytes (x : UInt64) : List UInt8 :=
  [(x >>> 56).toUInt8, (x >>> 48).toUInt8, (x >>> 40).toUInt8, (x >>> 32).toUInt8,
    (x >>> 24).toUInt8, (x >>> 16).toUInt8, (x >>> 8).toUInt8, x.toUInt8]

/-- The 64-bit word of eight big-endian bytes. -/
def u64FromBeBytes (l : List UInt8) : UInt64 := UInt64.ofNat (ByteString.beNat l)

/-- Conversion of a slice to an array of three bytes: it fails on every other length. -/
def tryInto3 (expect : String) : List UInt8 → Except Panic (UInt8 × UInt8 × UInt8)
  | [a, b, c] => .ok (a, b, c)
  | _ => .error ⟨expect⟩

/-- The bits of an id that a valid one shares with its address: a prefix, of which 21 bits count, and the seed. -/
structure IdPrefixMagic where
  magicPrefix : UInt8 × UInt8 × UInt8
  suffix : UInt8
  deriving DecidableEq, Repr

/-- The last byte of an id. -/
def Id.last (self : Id) : UInt8 := self.bytes.getD (idSize - 1) 0

/-- `IdPrefixMagic::from_id`. -/
def IdPrefixMagic.fromId (id : Id) : Except Panic IdPrefixMagic := do
  let pre ← tryInto3 "Failed to grab first three bytes of id" (id.bytes.take 3)
  return { magicPrefix := pre, suffix := id.last }

/-- `IdPrefixMagic::from_ip`, over the CRC-32C of the crc crate. The IPv6 branch takes a slice of two bytes where three are
wanted, so it always panics. -/
def IdPrefixMagic.fromIp (checksumCastagnoli : List UInt8 → UInt32) (ip : IpAddr) (seedR : UInt8) :
    Except Panic IdPrefixMagic := do
  match ip with
  | .v4 ipv4 =>
    let r32 := seedR.toUInt32
    let magic : UInt32 := 0x030f3fff
    let ipInt := u32FromBeBytes ipv4.octets
    let nonsense := (ipInt &&& magic) ||| (r32 <<< 29)
    let crc := checksumCastagnoli (u32ToBeBytes nonsense)
    let pre ← tryInto3 "Failed to convert bytes 0-2 of the crc into a 3-byte array" ((u32ToBeBytes crc).take 3)
    return { magicPrefix := pre, suffix := seedR }
  | .v6 ipv6 =>
    let r64 := seedR.toUInt64
    let magic : UInt64 := 0x0103070f1f3f7fff
    let ipInt := u64FromBeBytes (ipv6.octets.drop 8)
    let nonsense := ipInt &&& magic ||| (r64 <<< 61)
    let crc := checksumCastagnoli (u64ToBeBytes nonsense)
    let pre ← tryInto3 "Failed to poop" ((u32ToBeBytes crc).take 2)
    return { magicPrefix := pre, suffix := seedR }

/-- `<IdPrefixMagic as PartialEq>::eq`: of the third byte only the upper five bits count. -/
def IdPrefixMagic.eq (self other : IdPrefixMagic) : Bool :=
  self.magicPrefix.1 == other.magicPrefix.1 && self.magicPrefix.2.1 == other.magicPrefix.2.1 &&
    self.magicPrefix.2.2 &&& 0xf8 == other.magicPrefix.2.2 &&& 0xf8 && self.suffix == other.suffix

/-- `Id::is_valid_for_ip`. -/
def Id.isValidForIp (checksumCastagnoli : List UInt8 → UInt32) (self : Id) (ip : IpAddr) : Except Panic Bool := do
  if ip.isLoopback then return true
  let expected ← IdPrefixMagic.fromIp checksumCastagnoli ip self.last
  let actual ← IdPrefixMagic.fromId self
  return expected.eq actual

/-- `Id::from_ip`; `rng` are the random bytes in the order they are drawn. -/
def Id.fromIp (checksumCastagnoli : List UInt8 → UInt32) (ip : IpAddr) (rng : Nat → UInt8) : Except Panic Id := do
  let r := rng 0
  let magic ← IdPrefixMagic.fromIp checksumCastagnoli ip r
  return {
    bytes := [magic.magicPrefix.1, magic.magicPrefix.2.1, (magic.magicPrefix.2.2 &&& 0xf8) ||| (rng 1 &&& 0x7)] ++
      (List.range 16).map (fun i => rng (i + 2)) ++ [r]
    size := by simp [idSize] }

/-- `Id::make_mutant`, on the random id it draws. -/
def Id.makeMutant (self : Id) (identicalBytes : Nat) (random : Id) : Except RustyDHTError Id :=
  if h : identicalBytes = 0 ∨ identicalBytes ≥ idSize then
    .error (.generalError "identical_bytes must be in range (0, ID_SIZE)")
  else .ok {
    bytes := self.bytes.take identicalBytes ++ random.bytes.drop identicalBytes
    size := by
      rw [List.length_append, List.length_take, List.length_drop, self.size, random.size]
      omega }

end RustyDht
