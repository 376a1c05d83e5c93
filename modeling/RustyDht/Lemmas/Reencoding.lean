import RustyDht.Wire

/-!
# Records read and written back

What reads as an id, an address, a list of nodes, peers or samples, or as an error's code or text is what it is written as.
-/

namespace RustyDht

open Bencode (Value)
open Checks (bind_eq_ok map_eq_ok)

/-- The two bytes of a word that was read. -/
theorem u16ToBeBytes_u16FromBeBytes (b0 b1 : UInt8) : u16ToBeBytes (u16FromBeBytes b0 b1) = [b0, b1] := by
  have hb0 : b0.toNat < 2 ^ 8 := b0.toNat_lt
  have hb1 : b1.toNat < 2 ^ 8 := b1.toNat_lt
  have hword : (u16FromBeBytes b0 b1).toNat = b0.toNat * 256 + b1.toNat := by
    have h8 : (8 : UInt16).toNat % 16 = 8 := rfl
    rw [u16FromBeBytes, UInt16.toNat_or, UInt16.toNat_shiftLeft, UInt8.toNat_toUInt16, UInt8.toNat_toUInt16, h8,
      Nat.mod_eq_of_lt (by rw [Nat.shiftLeft_eq]; omega), ← Nat.shiftLeft_add_eq_or_of_lt hb1, Nat.shiftLeft_eq]
  have hhi : ((u16FromBeBytes b0 b1) >>> 8).toUInt8 = b0 := by
    have h8 : (8 : UInt16).toNat % 16 = 8 := rfl
    rw [← UInt8.toNat_inj, UInt16.toNat_toUInt8, UInt16.toNat_shiftRight, hword, h8, Nat.shiftRight_eq_div_pow]
    omega
  have hlo : (u16FromBeBytes b0 b1).toUInt8 = b1 := by
    rw [← UInt8.toNat_inj, UInt16.toNat_toUInt8, hword]
    omega
  rw [u16ToBeBytes, hhi, hlo]

/-- The bytes of an address that was read. -/
theorem sockaddrToBytes_of_bytesToSockaddr (bytes : List UInt8) (addr : SocketAddr) (h : bytesToSockaddr bytes = .ok addr) :
    sockaddrToBytes addr = bytes := by
  rw [bytesToSockaddr.eq_def] at h
  split at h
  · cases h
    rw [sockaddrToBytes, u16ToBeBytes_u16FromBeBytes]
    rfl
  · split at h
    · cases h
    · cases h

/-- The bytes of an id that was read. -/
theorem Id.toVec_of_fromBytes (bytes : List UInt8) (id : Id) (h : Id.fromBytes bytes = .ok id) : id.toVec = bytes := by
  rw [Id.fromBytes] at h
  split at h
  · cases h
    rfl
  · cases h

/-- The bytes of a node that was read from as many as a node has. -/
theorem node4ToBytes_of_bytesToNode4 (bytes : List UInt8) (node : Node) (hlen : bytes.length = node4ByteSize)
    (h : bytesToNode4 bytes = .ok node) : node4ToBytes node = bytes := by
  rw [bytesToNode4] at h
  obtain ⟨id, hid, h⟩ := bind_eq_ok.mp h
  obtain ⟨addr, haddr, h⟩ := bind_eq_ok.mp h
  cases h
  have hfirst : id.toVec = bytes.take idSize := Id.toVec_of_fromBytes _ id hid
  have hrest : sockaddrToBytes addr = bytes.drop idSize := by
    rw [sockaddrToBytes_of_bytesToSockaddr _ addr haddr, Framing.slice]
    refine List.take_of_length_le ?_
    rw [List.length_drop, hlen]
  rw [node4ToBytes, hfirst, hrest, List.take_append_drop]

/-- The bytes of a list of nodes that was read. -/
theorem nodes4ToBytes_of_bytesToNodes4 {bytes : List UInt8} {nodes : List Node} (h : bytesToNodes4 bytes = .ok nodes) :
    nodes4ToBytes nodes = bytes := by
  rw [bytesToNodes4] at h
  split at h
  · cases h
  · rename_i hmod
    exact Framing.flatMap_of_mapSlices node4ToBytes_of_bytesToNode4 (Nat.dvd_of_mod_eq_zero (not_not.mp hmod)) h

/-- The byte strings of the peers that were read. -/
theorem peersToBytes_of_bytesToPeers {bytes : List (List UInt8)} {peers : List SocketAddr} (h : bytesToPeers bytes = .ok peers) :
    peersToBytes peers = bytes := Framing.map_of_mapM sockaddrToBytes_of_bytesToSockaddr h

/-- The bytes of a list of samples that was read. -/
theorem samplesToBytes_of_bytesToSamples {bytes : List UInt8} {samples : List Id} (h : bytesToSamples bytes = .ok samples) :
    samplesToBytes samples = bytes := by
  rw [bytesToSamples] at h
  split at h
  · cases h
  · rename_i hmod
    exact Framing.flatMap_of_mapSlices (fun s id _ => Id.toVec_of_fromBytes s id) (Nat.dvd_of_mod_eq_zero (not_not.mp hmod)) h

/-- The bytes of a requester's address that was read. -/
theorem map_sockaddrToBytes_of_requesterIpFromSerde {bytes : Option (List UInt8)} {ip : Option SocketAddr}
    (h : requesterIpFromSerde bytes = .ok ip) : ip.map sockaddrToBytes = bytes := by
  cases bytes with
  | none =>
    cases h
    rfl
  | some bytes =>
    obtain ⟨addr, haddr, rfl⟩ := map_eq_ok.mp h
    exact congrArg some (sockaddrToBytes_of_bytesToSockaddr bytes addr haddr)

/-- The value of an error code that was read. -/
theorem int_of_errorCode {v : Value} {code : Int32} (h : errorCode v = .ok code) : .int code.toInt = v := by
  cases v with
  | int i =>
    rw [errorCode] at h
    split at h
    · rename_i hrange
      cases h
      rw [Int32.toInt_ofInt_of_le hrange.1 (by have := hrange.2; rw [show Int32.maxValue.toInt = 2 ^ 31 - 1 from rfl] at this; omega)]
    · cases h
  | _ => cases h

/-- The value of an error's text that was read. -/
theorem bytes_of_errorDescription {v : Value} {description : String} (h : errorDescription v = .ok description) :
    .bytes description.toUTF8.data.toList = v := by
  cases v with
  | bytes desc =>
    rw [errorDescription, String.fromUTF8?] at h
    by_cases hvalid : ByteArray.IsValidUTF8 ⟨desc.toArray⟩
    · rw [dif_pos hvalid] at h
      cases h
      rfl
    · rw [dif_neg hvalid] at h
      cases h
  | _ => cases h

/-- The whole seconds of an interval: itself, or `2 ^ 64` more where it is negative. -/
theorem asSecs_interval (interval : Int32) :
    ((Duration.fromSecs interval.toInt64.toUInt64.toNat).asSecs : Int) =
      if 0 ≤ interval.toInt then interval.toInt else interval.toInt + 2 ^ 64 := by
  have hsecs : (Duration.fromSecs interval.toInt64.toUInt64.toNat).asSecs = interval.toInt64.toBitVec.toNat :=
    Nat.mul_div_cancel _ (by decide)
  have hint : interval.toInt64.toBitVec.toInt = interval.toInt := Int32.toInt_toInt64 interval
  have hlt : interval.toInt64.toBitVec.toNat < 2 ^ 64 := interval.toInt64.toBitVec.isLt
  rw [BitVec.toInt_eq_toNat_cond] at hint
  rw [hsecs]
  split at hint
  · rw [if_pos (by omega)]
    omega
  · rw [if_neg (by omega)]
    omega

/-- An interval is written as it was read, cut down to the greatest one; a negative one is written as the greatest. -/
theorem interval_of_fromSecs (interval : Int32) :
    Int32.ofNat (min maxScrapeInterval (Duration.fromSecs interval.toInt64.toUInt64.toNat).asSecs) =
      if 0 ≤ interval.toInt then min (Int32.ofNat maxScrapeInterval) interval else Int32.ofNat maxScrapeInterval := by
  have hsecs := asSecs_interval interval
  have hmin := interval.minValue_le_toInt
  have hmax : (Int32.ofNat maxScrapeInterval).toInt = 21600 := by decide
  rw [show Int32.minValue.toInt = -2 ^ 31 from rfl] at hmin
  split
  · rename_i h
    rw [if_pos h] at hsecs
    by_cases hle : Int32.ofNat maxScrapeInterval ≤ interval
    · have hle' := Int32.le_iff_toInt_le.mp hle
      rw [Nat.min_eq_left (by rw [maxScrapeInterval]; omega)]
      simp [Min.min, hle]
    · have hlt := mt Int32.le_iff_toInt_le.mpr hle
      rw [Nat.min_eq_right (by rw [maxScrapeInterval]; omega), ← Int32.ofInt_eq_ofNat, hsecs, Int32.ofInt_toInt]
      simp [Min.min, hle]
  · rename_i h
    rw [if_neg h] at hsecs
    rw [Nat.min_eq_left (by rw [maxScrapeInterval]; omega)]

end RustyDht
