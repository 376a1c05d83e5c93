import RustyDht.Lemmas.Id

/-!
# Ids valid for an address

An id generated for an IPv4 address is valid for it, whatever bytes are drawn and whatever the checksum is; generation for an IPv6 address
panics, and so does the check of an id against one, unless it is the loopback address.
-/

namespace RustyDht

/-- Ids are generated for an address without a panic, and valid for it; and every id is checked against it without one. -/
structure IpAddr.IdsFit (checksumCastagnoli : List UInt8 → UInt32) (ip : IpAddr) : Prop where
  generated : ∀ rng, ∃ id, Id.fromIp checksumCastagnoli ip rng = .ok id ∧ id.isValidForIp checksumCastagnoli ip = .ok true
  checked : ∀ id : Id, ∃ valid, id.isValidForIp checksumCastagnoli ip = .ok valid

/-- Of the third byte of an id the low three bits, which are random, do not count. -/
theorem upper_five_bits (a b : UInt8) : ((a &&& 0xf8) ||| (b &&& 0x7)) &&& 0xf8 = a &&& 0xf8 := by
  apply UInt8.toBitVec_inj.mp
  simp only [UInt8.toBitVec_and, UInt8.toBitVec_or, BitVec.and_or_distrib_right, BitVec.and_assoc]
  have h1 : UInt8.toBitVec 0xf8 &&& UInt8.toBitVec 0xf8 = UInt8.toBitVec 0xf8 := by decide
  have h2 : UInt8.toBitVec 0x7 &&& UInt8.toBitVec 0xf8 = 0#8 := by decide
  rw [h1, h2, BitVec.and_zero, BitVec.or_zero]

/-- The bits for an IPv4 address are computed without a panic, and keep the seed. -/
theorem IdPrefixMagic.fromIp_v4 (checksumCastagnoli : List UInt8 → UInt32) (ip : Ipv4Addr) (seedR : UInt8) :
    ∃ magic, fromIp checksumCastagnoli (.v4 ip) seedR = .ok magic ∧ magic.suffix = seedR := ⟨_, rfl, rfl⟩

/-- The bits for an IPv6 address are not: three bytes are wanted of a slice of two. -/
theorem IdPrefixMagic.fromIp_v6 (checksumCastagnoli : List UInt8 → UInt32) (ip : Ipv6Addr) (seedR : UInt8) :
    fromIp checksumCastagnoli (.v6 ip) seedR = .error ⟨"Failed to poop"⟩ := rfl

/-- An id generated for an IPv4 address is valid for it. -/
theorem Id.fromIp_v4 (checksumCastagnoli : List UInt8 → UInt32) (ip : Ipv4Addr) (rng : Nat → UInt8) :
    ∃ id, Id.fromIp checksumCastagnoli (.v4 ip) rng = .ok id ∧ id.isValidForIp checksumCastagnoli (.v4 ip) = .ok true := by
  obtain ⟨magic, hmagic, hsuffix⟩ := IdPrefixMagic.fromIp_v4 checksumCastagnoli ip (rng 0)
  obtain ⟨id, hid, hbytes⟩ : ∃ id, Id.fromIp checksumCastagnoli (.v4 ip) rng = .ok id ∧ id.bytes =
      [magic.magicPrefix.1, magic.magicPrefix.2.1, (magic.magicPrefix.2.2 &&& 0xf8) ||| (rng 1 &&& 0x7)] ++
        (List.range 16).map (fun i => rng (i + 2)) ++ [rng 0] := by
    rw [Id.fromIp, hmagic]
    exact ⟨_, rfl, rfl⟩
  refine ⟨id, hid, ?_⟩
  -- The seed is the last byte, so the check computes the bits that the id was generated from.
  have hlast : id.last = rng 0 := by
    rw [Id.last, hbytes]
    rfl
  have hactual : IdPrefixMagic.fromId id = .ok { magicPrefix := (magic.magicPrefix.1, magic.magicPrefix.2.1,
      (magic.magicPrefix.2.2 &&& 0xf8) ||| (rng 1 &&& 0x7)), suffix := rng 0 } := by
    rw [IdPrefixMagic.fromId, hlast, hbytes]
    rfl
  rw [isValidForIp, hlast, hmagic, hactual]
  split
  · rfl
  · refine congrArg Except.ok ?_
    simp [IdPrefixMagic.eq, upper_five_bits, hsuffix]

/-- No id is generated for an IPv6 address. -/
theorem Id.fromIp_v6 (checksumCastagnoli : List UInt8 → UInt32) (ip : Ipv6Addr) (rng : Nat → UInt8) :
    Id.fromIp checksumCastagnoli (.v6 ip) rng = .error ⟨"Failed to poop"⟩ := by
  rw [Id.fromIp, IdPrefixMagic.fromIp_v6]
  rfl

/-- Ids are generated for an address and checked against it as they should be exactly where it is an IPv4 address; the check alone does not
panic on the loopback addresses either, and on no other. -/
theorem IpAddr.idsFit_iff (checksumCastagnoli : List UInt8 → UInt32) (ip : IpAddr) :
    (ip.IdsFit checksumCastagnoli ↔ ip.isIpv4 = true) ∧
      ∀ id : Id, (∃ valid, id.isValidForIp checksumCastagnoli ip = .ok valid) ↔ ip.isIpv4 = true ∨ ip.isLoopback = true := by
  refine ⟨⟨?_, ?_⟩, ?_⟩
  · intro h
    cases ip with
    | v4 ip => rfl
    | v6 ip =>
      obtain ⟨id, hid, -⟩ := h.generated (fun _ => 0)
      rw [Id.fromIp_v6] at hid
      cases hid
  · intro h
    cases ip with
    | v4 ip => exact ⟨Id.fromIp_v4 checksumCastagnoli ip, fun id => id.isValidForIp_ok checksumCastagnoli (Or.inl rfl)⟩
    | v6 ip => cases h
  · intro id
    refine ⟨?_, fun h => id.isValidForIp_ok checksumCastagnoli h⟩
    rintro ⟨valid, hvalid⟩
    by_contra h
    obtain ⟨p, hp⟩ := id.isValidForIp_panic checksumCastagnoli h
    rw [hp] at hvalid
    cases hvalid

/-- For the address 2001:db8::1 no id is generated, and the check of an id against it panics. -/
theorem IpAddr.not_idsFit_v6 :
    let ip : IpAddr := .v6 ⟨[0x20, 0x01, 0x0d, 0xb8, 0, 0, 0, 0, 0, 0, 0, 0, 0, 0, 0, 1], rfl⟩
    Id.fromIp (fun _ => 0) ip (fun _ => 0) = .error ⟨"Failed to poop"⟩ ∧
      Id.zero.isValidForIp (fun _ => 0) ip = .error ⟨"Failed to poop"⟩ ∧ ¬ip.IdsFit (fun _ => 0) := by
  intro ip
  refine ⟨rfl, rfl, ?_⟩
  intro h
  obtain ⟨valid, hvalid⟩ := h.checked Id.zero
  cases hvalid

end RustyDht
