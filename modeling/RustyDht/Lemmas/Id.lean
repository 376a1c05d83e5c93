import RustyDht.Common
import Mathlib.Order.Compare
import Mathlib.Order.Defs.LinearOrder

/-!
# Ids as 160-bit numbers

The byte loops of `Id` in terms of the number the bytes spell: `partialCmp` orders ids as their numbers, `matchingPrefixBits`
counts the leading zero bits of the XOR, and `Id.dist` is the XOR read as a number. A longer common prefix is a smaller distance,
and an id is determined by its distance to a fixed one. The last section says against which addresses ids are generated and checked.
-/

namespace RustyDht

open ByteString

/-- The number an id spells. -/
def Id.toNat (self : Id) : Nat := beNat self.bytes

/-- The XOR distance between two ids, as a number. -/
def Id.dist (self other : Id) : Nat := (self.xor other).toNat

theorem Id.toNat_injective {a b : Id} (h : a.toNat = b.toNat) : a = b :=
  Id.ext (beNat_injective (a.size.trans b.size.symm) h)

/-! ## XOR -/

theorem Id.dist_eq (a b : Id) : a.dist b = a.toNat ^^^ b.toNat :=
  beNat_zipWith_xor (a.size.trans b.size.symm)

theorem Id.dist_comm (a b : Id) : a.dist b = b.dist a := by
  rw [Id.dist_eq, Id.dist_eq, Nat.xor_comm]

/-- Only an id itself is at distance zero. -/
theorem Id.dist_eq_zero_iff (a b : Id) : a.dist b = 0 ↔ a = b := by
  rw [Id.dist_eq, Nat.xor_eq_zero_iff]
  exact ⟨Id.toNat_injective, fun h => by rw [h]⟩

/-- Distinct ids are at distinct distances from any third. -/
theorem Id.dist_injective (t : Id) : Function.Injective (fun a : Id => a.dist t) := by
  intro a b h
  simp only [Id.dist_eq] at h
  exact Id.toNat_injective (Nat.xor_left_inj.mp h)

/-- A distance is the XOR of the distances to and from a third id. -/
theorem Id.dist_eq_xor (a b t : Id) : a.dist b = a.dist t ^^^ t.dist b := by
  rw [Id.dist_eq, Id.dist_eq, Id.dist_eq, Nat.xor_assoc, Nat.xor_xor_cancel_left]

/-- The XOR distance obeys the triangle inequality. -/
theorem Id.dist_triangle (a b t : Id) : a.dist b ≤ a.dist t + t.dist b := by
  rw [Id.dist_eq_xor a b t]
  exact xor_le_add _ _

/-! ## The order -/

/-- Two bytes compare as their numbers. -/
theorem compare_byte (a b : UInt8) : compare a b = compare a.toNat b.toNat := by
  rw [Nat.compare_eq_ite_lt]
  change (if a < b then Ordering.lt else if a = b then Ordering.eq else Ordering.gt) = _
  simp only [UInt8.lt_iff_toNat_lt, ← UInt8.toNat_inj]
  rcases Nat.lt_trichotomy a.toNat b.toNat with h | h | h
  · simp [h]
  · simp [h]
  · rw [if_neg (by omega), if_neg (by omega), if_neg (by omega), if_pos h]

/-- The loop of `partial_cmp` compares two byte strings of one length as their numbers. -/
theorem cmpLoop_eq {l : List UInt8} :
    ∀ {m : List UInt8}, l.length = m.length → cmpLoop l m = some (compare (beNat l) (beNat m)) := by
  induction l with
  | nil =>
    intro m hl
    rw [List.eq_nil_of_length_eq_zero hl.symm]
    simp [cmpLoop]
  | cons a as ih =>
    intro m hl
    cases m with
    | nil => simp at hl
    | cons b bs =>
      have hlen : as.length = bs.length := by simpa using hl
      simp only [cmpLoop, compare_byte]
      rcases Nat.lt_trichotomy a.toNat b.toNat with h | h | h
      · rw [compare_lt_iff_lt.mpr h, compare_lt_iff_lt.mpr (beNat_cons_lt hlen h)]
      · rw [compare_eq_iff_eq.mpr h, ih hlen, beNat_cons, beNat_cons, hlen, h]
        simp only [Nat.compare_eq_ite_lt, Nat.add_lt_add_iff_left]
      · rw [compare_gt_iff_gt.mpr h, compare_gt_iff_gt.mpr (beNat_cons_lt hlen.symm h)]

/-- `partial_cmp` never fails and orders ids as 160-bit numbers. -/
theorem Id.partialCmp_eq (a b : Id) : a.partialCmp b = some (compare a.toNat b.toNat) :=
  cmpLoop_eq (a.size.trans b.size.symm)

/-! ## Prefixes -/

/-- The loop of `matching_prefix_bits` adds the leading zero bits to what it has counted. -/
theorem prefixLoop_eq (l : List UInt8) : ∀ n, prefixLoop l n = n + leadingZeroBits l := by
  induction l with
  | nil => intro n; rfl
  | cons b bs ih =>
    intro n
    simp only [prefixLoop, leadingZeroBits]
    have h8 := leadingZeros_eq_eight_iff b
    have hle := leadingZeros_le b
    by_cases hb : b = 0
    · have := h8.mpr hb
      rw [if_neg (by omega), if_pos hb, ih, this]
      omega
    · have : leadingZeros b ≠ 8 := fun h => hb (h8.mp h)
      rw [if_pos (by omega), if_neg hb]

theorem Id.matchingPrefixBits_eq (a b : Id) : a.matchingPrefixBits b = leadingZeroBits (a.xor b).bytes := by
  rw [Id.matchingPrefixBits, prefixLoop_eq, Nat.zero_add]

/-- The bits of an id, most significant first. -/
def Id.bits (self : Id) : List Bool := ByteString.bits self.bytes

/-- `matching_prefix_bits` counts the bits that two ids begin with in common. -/
theorem Id.matchingPrefixBits_eq_commonBits (a b : Id) : a.matchingPrefixBits b = commonBits a.bits b.bits := by
  rw [Id.matchingPrefixBits_eq]
  exact leadingZeroBits_zipWith_xor (a.size.trans b.size.symm)

/-- Two ids share at most their 160 bits. -/
theorem Id.matchingPrefixBits_le (a b : Id) : a.matchingPrefixBits b ≤ 160 := by
  have h := leadingZeroBits_le (a.xor b).bytes
  rw [(a.xor b).size] at h
  rw [Id.matchingPrefixBits_eq]
  exact h

/-- Two ids share `j` leading bits exactly when their distance is below `2 ^ (160 - j)`. -/
theorem Id.le_matchingPrefixBits_iff (a b : Id) {j : Nat} (hj : j ≤ 160) :
    j ≤ a.matchingPrefixBits b ↔ a.dist b < 2 ^ (160 - j) := by
  have h := le_leadingZeroBits_iff (a.xor b).bytes (j := j) (by rw [(a.xor b).size]; exact hj)
  rw [(a.xor b).size] at h
  rw [Id.matchingPrefixBits_eq]
  exact h

/-- Sharing bits is symmetric. -/
theorem Id.matchingPrefixBits_comm (a b : Id) : a.matchingPrefixBits b = b.matchingPrefixBits a := by
  have hle : ∀ a b : Id, a.matchingPrefixBits b ≤ b.matchingPrefixBits a := by
    intro a b
    have hbits := Id.matchingPrefixBits_le a b
    rw [Id.le_matchingPrefixBits_iff _ _ hbits, Id.dist_comm, ← Id.le_matchingPrefixBits_iff _ _ hbits]
  exact Nat.le_antisymm (hle a b) (hle b a)

/-- Two ids share at least the bits that both share with a third. -/
theorem Id.min_le_matchingPrefixBits (a b t : Id) :
    min (a.matchingPrefixBits t) (t.matchingPrefixBits b) ≤ a.matchingPrefixBits b := by
  have hmin : min (a.matchingPrefixBits t) (t.matchingPrefixBits b) ≤ 160 :=
    (Nat.min_le_left _ _).trans (Id.matchingPrefixBits_le a t)
  have hat := (Id.le_matchingPrefixBits_iff a t hmin).mp (Nat.min_le_left _ _)
  have htb := (Id.le_matchingPrefixBits_iff t b hmin).mp (Nat.min_le_right _ _)
  rw [Id.le_matchingPrefixBits_iff a b hmin, Id.dist_eq_xor a b t]
  exact Nat.xor_lt_two_pow hat htb

/-- Only an id itself shares all 160 bits. -/
theorem Id.matchingPrefixBits_eq_iff (a b : Id) : a.matchingPrefixBits b = 160 ↔ a = b := by
  have h := Id.le_matchingPrefixBits_iff a b (Nat.le_refl 160)
  have hle := Id.matchingPrefixBits_le a b
  rw [← Id.dist_eq_zero_iff]
  simp only [Nat.sub_self, Nat.pow_zero] at h
  omega

/-- A distinct id shares fewer than 160 bits. -/
theorem Id.matchingPrefixBits_lt {a b : Id} (h : a ≠ b) : a.matchingPrefixBits b < 160 :=
  lt_of_le_of_ne (Id.matchingPrefixBits_le a b) (fun he => h ((Id.matchingPrefixBits_eq_iff a b).mp he))

/-- Only one other id shares 159 bits. -/
theorem Id.eq_of_le_matchingPrefixBits {a b t : Id} (ha : 159 ≤ t.matchingPrefixBits a) (hb : 159 ≤ t.matchingPrefixBits b)
    (hat : a ≠ t) (hbt : b ≠ t) : a = b := by
  rw [Id.le_matchingPrefixBits_iff _ _ (by decide), Id.dist_comm] at ha hb
  have ha0 : a.dist t ≠ 0 := mt (Id.dist_eq_zero_iff a t).mp hat
  have hb0 : b.dist t ≠ 0 := mt (Id.dist_eq_zero_iff b t).mp hbt
  refine Id.dist_injective t ?_
  dsimp only
  omega

/-- The id with the longer prefix in common with `t` is the nearer one. -/
theorem Id.dist_lt_of_prefix_lt {a b t : Id} (h : t.matchingPrefixBits b < t.matchingPrefixBits a) :
    a.dist t < b.dist t := by
  rw [Id.dist_comm a t, Id.dist_comm b t]
  rw [Id.matchingPrefixBits_eq, Id.matchingPrefixBits_eq] at h
  exact beNat_lt_of_leadingZeroBits_lt ((t.xor a).size.trans (t.xor b).size.symm) h

/-! ## Ids valid for an address -/

/-- The addresses that an id can be checked against. The check panics on other IPv6 addresses. -/
def IpAddr.Checkable (ip : IpAddr) : Prop := ip.isIpv4 = true ∨ ip.isLoopback = true

instance (ip : IpAddr) : Decidable ip.Checkable := inferInstanceAs (Decidable (_ ∨ _))

/-- The bits of an id are its first three bytes and its last. -/
theorem IdPrefixMagic.fromId_ok (id : Id) : ∃ magic, fromId id = .ok magic := by
  obtain ⟨bytes, hsize⟩ := id
  rcases bytes with _ | ⟨a, _ | ⟨b, _ | ⟨c, rest⟩⟩⟩
  · simp [idSize] at hsize
  · simp [idSize] at hsize
  · simp [idSize] at hsize
  · exact ⟨⟨(a, b, c), Id.last ⟨a :: b :: c :: rest, hsize⟩⟩, rfl⟩

/-- An id is checked against an IPv4 address, or one of the loopback interface, without a panic. -/
theorem Id.isValidForIp_ok (checksumCastagnoli : List UInt8 → UInt32) (id : Id) {ip : IpAddr} (h : ip.Checkable) :
    ∃ valid, id.isValidForIp checksumCastagnoli ip = .ok valid := by
  unfold isValidForIp
  by_cases hloop : ip.isLoopback = true
  · rw [if_pos hloop]
    exact ⟨true, rfl⟩
  · rw [if_neg hloop]
    obtain ⟨magic, hmagic⟩ := IdPrefixMagic.fromId_ok id
    cases ip with
    | v4 ip =>
      rw [hmagic]
      exact ⟨_, rfl⟩
    | v6 ip => exact absurd (h.resolve_right hloop) Bool.false_ne_true

/-- Checking an id against any other address panics. -/
theorem Id.isValidForIp_panic (checksumCastagnoli : List UInt8 → UInt32) (id : Id) {ip : IpAddr} (h : ¬ip.Checkable) :
    ∃ p, id.isValidForIp checksumCastagnoli ip = .error p := by
  obtain ⟨hipv4, hloop⟩ := not_or.mp h
  unfold isValidForIp
  rw [if_neg hloop]
  cases ip with
  | v4 ip => exact absurd rfl hipv4
  | v6 ip => exact ⟨_, rfl⟩

end RustyDht
