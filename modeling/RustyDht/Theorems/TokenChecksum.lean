import RustyDht.Lemmas.Dht
import RustyDht.Lib.Crc

/-!
# Tokens tell IPv4 addresses apart

A token is the CRC-32C of the four bytes of an IPv4 address and then of the secret. The four bytes fill the register, each address in its
own way, and the secret after them keeps apart what they have told apart. So under one secret two IPv4 addresses have one token only if they
are the same, whatever their ports.
-/

namespace RustyDht

/-- The bytes of a 32-bit word are its digits to the base 256. -/
theorem map_toNat_u32ToBeBytes (x : UInt32) : (u32ToBeBytes x).map UInt8.toNat =
    [x.toNat / 2 ^ 24 % 256, x.toNat / 2 ^ 16 % 256, x.toNat / 2 ^ 8 % 256, x.toNat % 256] := by
  simp [u32ToBeBytes, Nat.shiftRight_eq_div_pow]

/-- A 32-bit word is known from its bytes. -/
theorem u32ToBeBytes_injective : Function.Injective u32ToBeBytes := by
  intro x y h
  have hdigits := congrArg (List.map UInt8.toNat) h
  simp only [map_toNat_u32ToBeBytes, List.cons.injEq, and_true] at hdigits
  have hx := x.toNat_lt
  have hy := y.toNat_lt
  rw [← UInt32.toNat_inj]
  omega

/-- An IPv4 address is known from its octets. -/
theorem Ipv4Addr.octets_injective : Function.Injective Ipv4Addr.octets := by
  intro x y h
  obtain ⟨a, b, c, d⟩ := x
  obtain ⟨a', b', c', d'⟩ := y
  simpa [octets] using h

namespace DHT

/-- The polynomial of CRC-32C, its lowest power in the top bit. -/
def castagnoli : BitVec 32 := 0x82f63b78

/-- One bit of CRC-32C. -/
theorem toBitVec_crc32cBit (crc : UInt32) :
    (if crc &&& 1 = 1 then (crc >>> 1) ^^^ 0x82f63b78 else crc >>> 1).toBitVec = Crc.shift castagnoli crc.toBitVec := by
  have hlow : crc &&& 1 = 1 ↔ crc.toBitVec.getLsbD 0 = true := by
    rw [← UInt32.toBitVec_inj, UInt32.toBitVec_and, show UInt32.toBitVec 1 = 1#32 from rfl,
      BitVec.and_one_eq_setWidth_ofBool_getLsbD]
    cases crc.toBitVec.getLsbD 0 <;> decide
  rw [Crc.shift]
  by_cases h : crc &&& 1 = 1
  · rw [if_pos h, if_pos (hlow.mp h), UInt32.toBitVec_xor]
    rfl
  · rw [if_neg h, if_neg (mt hlow.mpr h)]
    rfl

/-- One byte of CRC-32C. -/
theorem toBitVec_crc32cByte (crc : UInt32) (b : UInt8) : (crc32cByte crc b).toBitVec = Crc.feed castagnoli crc.toBitVec b := by
  have hbits : Function.Semiconj UInt32.toBitVec (fun crc => if crc &&& 1 = 1 then (crc >>> 1) ^^^ 0x82f63b78 else crc >>> 1)
      (Crc.shift castagnoli) := toBitVec_crc32cBit
  have hbyte : (crc ^^^ b.toUInt32).toBitVec = crc.toBitVec ^^^ BitVec.ofNat 32 b.toNat := by
    have hwide : b.toUInt32.toBitVec = BitVec.ofNat 32 b.toNat := by
      apply BitVec.eq_of_toNat_eq
      rw [BitVec.toNat_ofNat, Nat.mod_eq_of_lt (Nat.lt_trans b.toNat_lt (by decide))]
      exact UInt8.toNat_toUInt32 b
    rw [UInt32.toBitVec_xor, hwide]
  rw [crc32cByte, List.foldl_const, List.length_range, hbits.iterate_right 8, hbyte]
  rfl

/-- CRC-32C of a byte string. -/
theorem toBitVec_crc32c (bytes : List UInt8) :
    (crc32c bytes).toBitVec = Crc.run castagnoli 0xffffffff bytes ^^^ 0xffffffff := by
  have hrun : ∀ crc, (bytes.foldl crc32cByte crc).toBitVec = Crc.run castagnoli crc.toBitVec bytes := by
    induction bytes with
    | nil => exact fun crc => rfl
    | cons b bytes ih =>
      intro crc
      rw [List.foldl_cons, ih, toBitVec_crc32cByte]
      rfl
  rw [crc32c, UInt32.toBitVec_xor, hrun]
  rfl

/-- Under one secret, two IPv4 addresses have one token exactly where they are the same address, whatever their ports. -/
theorem calculateToken_eq_iff {checksumCastagnoli : List UInt8 → UInt32} (h : ∀ bytes, checksumCastagnoli bytes = crc32c bytes)
    (secret : List UInt8) {a b : SocketAddr} (ha : a.isIpv4 = true) (hb : b.isIpv4 = true) :
    calculateToken checksumCastagnoli a secret = calculateToken checksumCastagnoli b secret ↔ a.ip = b.ip := by
  cases a with
  | v6 ip port flowinfo scopeId => exact absurd ha Bool.false_ne_true
  | v4 x xport =>
    cases b with
    | v6 ip port flowinfo scopeId => exact absurd hb Bool.false_ne_true
    | v4 y yport =>
      constructor
      · intro htoken
        have hcrc : crc32c (x.octets ++ secret) = crc32c (y.octets ++ secret) := by
          rw [← h, ← h]
          exact u32ToBeBytes_injective htoken
        have hrun := congrArg UInt32.toBitVec hcrc
        rw [toBitVec_crc32c, toBitVec_crc32c] at hrun
        have hoctets : x.octets = y.octets :=
          Crc.run_append_injective (by decide) rfl (Nat.le_refl 32) ((BitVec.xor_left_inj _).mp hrun)
        exact congrArg IpAddr.v4 (Ipv4Addr.octets_injective hoctets)
      · intro hip
        rw [calculateToken, calculateToken, hip]

/-- The addresses 10.0.0.1 and 10.0.0.2 have different tokens, and one address has one token at two ports. -/
theorem calculateToken_eq_iff_private :
    calculateToken crc32c (.v4 ⟨10, 0, 0, 1⟩ 6881) [1, 2, 3] ≠ calculateToken crc32c (.v4 ⟨10, 0, 0, 2⟩ 6881) [1, 2, 3] ∧
      calculateToken crc32c (.v4 ⟨10, 0, 0, 1⟩ 6881) [1, 2, 3] = calculateToken crc32c (.v4 ⟨10, 0, 0, 1⟩ 80) [1, 2, 3] := by
  constructor
  · intro h
    exact absurd ((calculateToken_eq_iff (fun _ => rfl) [1, 2, 3] rfl rfl).mp h) (by decide)
  · exact (calculateToken_eq_iff (fun _ => rfl) [1, 2, 3] rfl rfl).mpr rfl

end DHT

end RustyDht
