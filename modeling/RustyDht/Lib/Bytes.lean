import Mathlib.Data.Nat.Bitwise
import Mathlib.Data.Nat.Log
import Mathlib.Tactic.Ring

/-!
# Byte strings as big-endian numbers

A byte string spells a number, most significant byte first. Two byte strings of one length are compared byte by byte as
their numbers are, their byte-wise XOR spells the XOR of their numbers, and the count of leading zero bits says below which
power of two the number lies. From the last fact a longer common prefix is a smaller XOR distance. Read bit by bit, the leading zero bits
of an XOR are the bits that two strings begin with in common.
-/

namespace ByteString

/-- The number a byte string spells, most significant byte first. -/
def beNat : List UInt8 → Nat
  | [] => 0
  | b :: bs => 2 ^ (8 * bs.length) * b.toNat + beNat bs

/-- The leading zero bits of one byte: eight for the zero byte. -/
def leadingZeros (b : UInt8) : Nat :=
  if b = 0 then 8 else 7 - b.toNat.log2

/-- The leading zero bits of a byte string. -/
def leadingZeroBits : List UInt8 → Nat
  | [] => 0
  | b :: bs => if b = 0 then 8 + leadingZeroBits bs else leadingZeros b

@[simp] theorem beNat_nil : beNat [] = 0 := rfl

theorem beNat_cons (b : UInt8) (bs : List UInt8) :
    beNat (b :: bs) = 2 ^ (8 * bs.length) * b.toNat + beNat bs := rfl

/-- A byte string of `n` bytes spells a number below `2 ^ (8 n)`. -/
theorem beNat_lt (l : List UInt8) : beNat l < 2 ^ (8 * l.length) := by
  induction l with
  | nil => simp
  | cons b bs ih =>
    have hb : b.toNat + 1 ≤ 2 ^ 8 := b.toNat_lt
    have hmul : 2 ^ (8 * bs.length) * (b.toNat + 1) ≤ 2 ^ (8 * bs.length) * 2 ^ 8 := Nat.mul_le_mul_left _ hb
    have hpow : 2 ^ (8 * bs.length) * 2 ^ 8 = 2 ^ (8 * (b :: bs).length) := by
      rw [← Nat.pow_add, List.length_cons]
      congr 1
    rw [beNat_cons, ← hpow]
    rw [Nat.mul_add, Nat.mul_one] at hmul
    omega

/-- Of two strings of one length, the first byte decides when it differs. -/
theorem beNat_cons_lt {a b : UInt8} {as bs : List UInt8} (hl : as.length = bs.length) (h : a.toNat < b.toNat) :
    beNat (a :: as) < beNat (b :: bs) := by
  have ha := beNat_lt as
  have hmul : 2 ^ (8 * bs.length) * (a.toNat + 1) ≤ 2 ^ (8 * bs.length) * b.toNat := Nat.mul_le_mul_left _ h
  rw [beNat_cons, beNat_cons, hl]
  rw [Nat.mul_add, Nat.mul_one] at hmul
  rw [hl] at ha
  omega

/-- Byte strings of one length that spell the same number are equal. -/
theorem beNat_injective {l : List UInt8} : ∀ {m : List UInt8}, l.length = m.length → beNat l = beNat m → l = m := by
  induction l with
  | nil =>
    intro m hl _
    exact (List.eq_nil_of_length_eq_zero hl.symm).symm
  | cons a as ih =>
    intro m hl h
    cases m with
    | nil => simp at hl
    | cons b bs =>
      have hlen : as.length = bs.length := by simpa using hl
      rcases Nat.lt_trichotomy a.toNat b.toNat with hab | hab | hab
      · exact absurd h (Nat.ne_of_lt (beNat_cons_lt hlen hab))
      · have hh : a = b := UInt8.toNat_inj.mp hab
        subst hh
        have ht : beNat as = beNat bs := by
          rw [beNat_cons, beNat_cons, hlen] at h
          exact Nat.add_left_cancel h
        rw [ih hlen ht]
      · exact absurd h.symm (Nat.ne_of_lt (beNat_cons_lt hlen.symm hab))

/-! ## XOR -/

/-- XOR of two numbers split at bit `i` is the XOR of the two halves. -/
theorem xor_split (i a b x y : Nat) (hx : x < 2 ^ i) (hy : y < 2 ^ i) :
    (2 ^ i * a + x) ^^^ (2 ^ i * b + y) = 2 ^ i * (a ^^^ b) + (x ^^^ y) := by
  apply Nat.eq_of_testBit_eq
  intro j
  rw [Nat.testBit_xor, Nat.testBit_two_pow_mul_add a hx, Nat.testBit_two_pow_mul_add b hy,
    Nat.testBit_two_pow_mul_add _ (Nat.xor_lt_two_pow hx hy)]
  split
  · rw [Nat.testBit_xor]
  · rw [Nat.testBit_xor]

/-- The byte-wise XOR of two strings of one length spells the XOR of their numbers. -/
theorem beNat_zipWith_xor {l : List UInt8} :
    ∀ {m : List UInt8}, l.length = m.length → beNat (List.zipWith (· ^^^ ·) l m) = beNat l ^^^ beNat m := by
  induction l with
  | nil =>
    intro m hl
    cases m with
    | nil => rfl
    | cons b bs => simp at hl
  | cons a as ih =>
    intro m hl
    cases m with
    | nil => simp at hl
    | cons b bs =>
      have hlen : as.length = bs.length := by simpa using hl
      have hb := beNat_lt bs
      have hz : (List.zipWith (· ^^^ ·) as bs).length = as.length := by simp [hlen]
      rw [List.zipWith_cons_cons, beNat_cons, beNat_cons, beNat_cons, hz, ih hlen, UInt8.toNat_xor, ← hlen]
      rw [← hlen] at hb
      exact (xor_split _ _ _ _ _ (beNat_lt as) hb).symm

/-- XOR is addition without carries. -/
theorem xor_le_add (x : Nat) : ∀ y : Nat, x ^^^ y ≤ x + y := by
  induction x using Nat.strongRecOn with
  | ind x ih =>
    intro y
    by_cases hx : x = 0
    · simp [hx]
    · have hhalf := ih (x / 2) (by omega) (y / 2)
      have hdiv : (x ^^^ y) / 2 = x / 2 ^^^ y / 2 := Nat.xor_div_two
      have hmod : (x ^^^ y) % 2 = (x + y) % 2 := Nat.xor_mod_two_eq
      omega

/-! ## Leading zero bits -/

/-- A byte has at least `j` leading zero bits exactly when it is below `2 ^ (8 - j)`. -/
theorem le_leadingZeros_iff (b : UInt8) {j : Nat} (hj : j ≤ 8) : j ≤ leadingZeros b ↔ b.toNat < 2 ^ (8 - j) := by
  unfold leadingZeros
  split
  · rename_i h
    subst h
    simp [hj]
  · rename_i h
    have hb : b.toNat ≠ 0 := fun h0 => h (UInt8.toNat_inj.mp h0)
    have hlog : b.toNat.log2 < 8 := (Nat.log2_lt hb).mpr b.toNat_lt
    rw [← Nat.log2_lt hb]
    omega

theorem leadingZeros_le (b : UInt8) : leadingZeros b ≤ 8 := by
  unfold leadingZeros
  split <;> omega

/-- Only the zero byte has eight leading zero bits. -/
theorem leadingZeros_eq_eight_iff (b : UInt8) : leadingZeros b = 8 ↔ b = 0 := by
  constructor
  · intro h
    have := (le_leadingZeros_iff b (Nat.le_refl 8)).mp h.ge
    exact UInt8.toNat_inj.mp (by simpa using this)
  · intro h
    simp [leadingZeros, h]

theorem leadingZeroBits_le (l : List UInt8) : leadingZeroBits l ≤ 8 * l.length := by
  induction l with
  | nil => simp [leadingZeroBits]
  | cons b bs ih =>
    have := leadingZeros_le b
    simp only [leadingZeroBits, List.length_cons]
    split <;> omega

/-- A byte string of `n` bytes has at least `j` leading zero bits exactly when it spells a number below `2 ^ (8 n - j)`. -/
theorem le_leadingZeroBits_iff (l : List UInt8) :
    ∀ {j : Nat}, j ≤ 8 * l.length → (j ≤ leadingZeroBits l ↔ beNat l < 2 ^ (8 * l.length - j)) := by
  induction l with
  | nil =>
    intro j hj
    have hj0 : j = 0 := by simpa using hj
    simp [hj0, leadingZeroBits]
  | cons b bs ih =>
    intro j hj
    have hbs := beNat_lt bs
    rw [List.length_cons] at hj ⊢
    simp only [leadingZeroBits, beNat_cons]
    split
    · rename_i hb
      subst hb
      simp only [UInt8.toNat_zero, Nat.mul_zero, Nat.zero_add]
      by_cases hj8 : j ≤ 8
      · have hle : 2 ^ (8 * bs.length) ≤ 2 ^ (8 * (bs.length + 1) - j) := Nat.pow_le_pow_right (by omega) (by omega)
        exact ⟨fun _ => Nat.lt_of_lt_of_le hbs hle, fun _ => by omega⟩
      · have hi := ih (j := j - 8) (by omega)
        have he : 8 * (bs.length + 1) - j = 8 * bs.length - (j - 8) := by omega
        rw [he, ← hi]
        omega
    · rename_i hb
      have hb1 : 1 ≤ b.toNat := Nat.one_le_iff_ne_zero.mpr (fun h0 => hb (UInt8.toNat_inj.mp h0))
      by_cases hj8 : j ≤ 8
      · rw [le_leadingZeros_iff b hj8]
        have he : 8 * (bs.length + 1) - j = 8 * bs.length + (8 - j) := by omega
        rw [he, Nat.pow_add]
        constructor
        · intro h
          have hmul := Nat.mul_le_mul_left (2 ^ (8 * bs.length)) (Nat.succ_le_of_lt h)
          rw [Nat.succ_eq_add_one, Nat.mul_add, Nat.mul_one] at hmul
          omega
        · intro h
          by_contra hge
          have hmul := Nat.mul_le_mul_left (2 ^ (8 * bs.length)) (Nat.le_of_not_lt hge)
          omega
      · have hlz := leadingZeros_le b
        have hpow : 2 ^ (8 * (bs.length + 1) - j) ≤ 2 ^ (8 * bs.length) := Nat.pow_le_pow_right (by omega) (by omega)
        have hmul := Nat.mul_le_mul_left (2 ^ (8 * bs.length)) hb1
        rw [Nat.mul_one] at hmul
        constructor
        · intro h; omega
        · intro h; omega

/-- Of two strings of one length, the one with more leading zero bits spells the smaller number. -/
theorem beNat_lt_of_leadingZeroBits_lt {l m : List UInt8} (hl : l.length = m.length)
    (h : leadingZeroBits m < leadingZeroBits l) : beNat l < beNat m := by
  have hle := leadingZeroBits_le l
  have h1 := (le_leadingZeroBits_iff l (j := leadingZeroBits m + 1) (by omega)).mp h
  have h2 := mt (le_leadingZeroBits_iff m (j := leadingZeroBits m + 1) (by omega)).mpr (by omega)
  rw [hl] at h1
  omega

/-! ## Bits -/

/-- The bits of a byte, most significant first. -/
def byteBits (b : UInt8) : List Bool := [7, 6, 5, 4, 3, 2, 1, 0].map b.toNat.testBit

/-- The bits of a byte string, most significant first. -/
def bits (l : List UInt8) : List Bool := l.flatMap byteBits

/-- How many pairs of bits are equal before the first that are not. -/
def commonBits (l m : List Bool) : Nat := ((l.zip m).takeWhile (fun p => p.1 == p.2)).length

theorem byteBits_xor (a b : UInt8) : byteBits (a ^^^ b) = List.zipWith xor (byteBits a) (byteBits b) := by
  simp only [byteBits, UInt8.toNat_xor, Nat.testBit_xor, List.map_cons, List.map_nil, List.zipWith_cons_cons, List.zipWith_nil_left]

/-- The bits of a byte-wise XOR are the XOR of the bits. -/
theorem bits_zipWith_xor {l : List UInt8} :
    ∀ {m : List UInt8}, l.length = m.length → bits (List.zipWith (· ^^^ ·) l m) = List.zipWith xor (bits l) (bits m) := by
  induction l with
  | nil =>
    intro m _
    simp [bits]
  | cons a l ih =>
    intro m hl
    cases m with
    | nil => simp at hl
    | cons b m =>
      have hlen : l.length = m.length := by simpa using hl
      have hrest := ih hlen
      simp only [bits] at hrest
      simp only [bits, List.zipWith_cons_cons, List.flatMap_cons, hrest, byteBits_xor]
      rw [List.zipWith_append (by simp [byteBits])]

/-- The leading zero bits of a byte are the first of its bits. -/
theorem leadingZeros_eq (b : UInt8) : leadingZeros b = ((byteBits b).takeWhile (!·)).length := by
  have h : ∀ n < 256, leadingZeros (UInt8.ofNat n) = ((byteBits (UInt8.ofNat n)).takeWhile (!·)).length := by decide +kernel
  simpa using h b.toNat b.toNat_lt

/-- The leading zero bits of a byte string are the first of its bits. -/
theorem leadingZeroBits_eq (l : List UInt8) : leadingZeroBits l = ((bits l).takeWhile (!·)).length := by
  induction l with
  | nil => rfl
  | cons b l ih =>
    simp only [bits, List.flatMap_cons] at ih ⊢
    rw [leadingZeroBits, List.takeWhile_append, ← leadingZeros_eq]
    have h8 := leadingZeros_eq_eight_iff b
    have hlen : (byteBits b).length = 8 := by simp [byteBits]
    by_cases hb : b = 0
    · rw [if_pos hb, if_pos (by rw [hlen]; exact h8.mpr hb), List.length_append, hlen, ih]
    · rw [if_neg hb, if_neg (by rw [hlen]; exact mt h8.mp hb), leadingZeros_eq]

/-- The leading zero bits of an XOR are the bits that two strings of one length begin with in common. -/
theorem leadingZeroBits_zipWith_xor {l m : List UInt8} (hl : l.length = m.length) :
    leadingZeroBits (List.zipWith (· ^^^ ·) l m) = commonBits (bits l) (bits m) := by
  have hpair : (fun p : Bool × Bool => !(xor p.1 p.2)) = (fun p => p.1 == p.2) := by
    funext p
    rcases p with ⟨_ | _, _ | _⟩ <;> rfl
  rw [leadingZeroBits_eq, bits_zipWith_xor hl, ← List.map_uncurry_zip_eq_zipWith, List.takeWhile_map, List.length_map, commonBits]
  simp only [Function.comp_def, Function.uncurry_def, hpair]

end ByteString
