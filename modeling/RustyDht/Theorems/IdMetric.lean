import RustyDht.Lemmas.Id

/-!
# The metric of ids

Bucket placement goes by common prefixes, the search for the nearest by the order of XORs. Both are of one metric: the XOR of two ids
read as a number.
-/

namespace RustyDht

namespace Id

/-- The order of ids is that of 160-bit big-endian numbers and never fails to compare. `matching_prefix_bits` counts the leading bits that
two ids have in common: it is symmetric, 160 exactly for an id and itself, and an ultrametric. The id with the longer prefix in common
with a third has the smaller XOR with it, distinct ids have distinct XORs with a third, and XORs obey the triangle inequality. -/
theorem prefix_and_order (a b t : Id) :
    (a.toNat < 2 ^ 160 ∧ a.partialCmp b = some (compare a.toNat b.toNat)) ∧
      a.matchingPrefixBits b = ByteString.commonBits a.bits b.bits ∧
      a.matchingPrefixBits b = b.matchingPrefixBits a ∧
      (a.matchingPrefixBits b = 160 ↔ a = b) ∧
      min (a.matchingPrefixBits t) (t.matchingPrefixBits b) ≤ a.matchingPrefixBits b ∧
      (b.matchingPrefixBits t < a.matchingPrefixBits t → (a.xor t).partialCmp (b.xor t) = some .lt) ∧
      (a.xor t = b.xor t → a = b) ∧
      (a.xor b).toNat ≤ (a.xor t).toNat + (t.xor b).toNat := by
  refine ⟨⟨?_, partialCmp_eq a b⟩, matchingPrefixBits_eq_commonBits a b, matchingPrefixBits_comm a b, matchingPrefixBits_eq_iff a b,
    min_le_matchingPrefixBits a b t, ?_, ?_, dist_triangle a b t⟩
  · have hlt := ByteString.beNat_lt a.bytes
    rw [a.size] at hlt
    exact hlt
  · intro hlt
    rw [matchingPrefixBits_comm a t, matchingPrefixBits_comm b t] at hlt
    rw [partialCmp_eq]
    exact congrArg some (compare_lt_iff_lt.mpr (dist_lt_of_prefix_lt hlt))
  · intro heq
    exact dist_injective t (congrArg toNat heq)

end Id

end RustyDht
