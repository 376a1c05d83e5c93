import Mathlib.Data.Nat.Digits.Defs
import Mathlib.Logic.Function.Iterate

/-!
# Reflected cyclic redundancy checks

A register of `w` bits is fed a byte string, least significant bit first. A step is linear in exclusive or and, where the polynomial's top
bit is set, injective; so a string that follows others takes different registers to different ones, and as many bytes as fit the register
are told apart by what they make of it.
-/

namespace Crc

variable {w : Nat}

/-- One bit: the register moves down a place, and takes the polynomial where a one falls out. -/
def shift (poly register : BitVec w) : BitVec w :=
  if register.getLsbD 0 then (register >>> 1) ^^^ poly else register >>> 1

/-- One byte. -/
def feed (poly register : BitVec w) (b : UInt8) : BitVec w := (shift poly)^[8] (register ^^^ BitVec.ofNat w b.toNat)

/-- A byte string. -/
def run (poly register : BitVec w) (bytes : List UInt8) : BitVec w := bytes.foldl (feed poly) register

/-- The number a byte string spells, least significant byte first. -/
def word (bytes : List UInt8) : Nat := Nat.ofDigits 256 (bytes.map UInt8.toNat)

/-! ## One step -/

/-- A step is linear in exclusive or. -/
theorem shift_xor (poly a b : BitVec w) : shift poly (a ^^^ b) = shift poly a ^^^ shift poly b := by
  unfold shift
  rw [BitVec.getLsbD_xor, BitVec.ushiftRight_xor_distrib]
  cases a.getLsbD 0 with
  | false =>
    cases b.getLsbD 0 with
    | false => simp
    | true => simp [BitVec.xor_assoc]
  | true =>
    cases b.getLsbD 0 with
    | false => simp [BitVec.xor_assoc, BitVec.xor_comm poly]
    | true =>
      -- The polynomial is taken twice, which is not at all.
      have hcancel : (a >>> 1) ^^^ poly ^^^ ((b >>> 1) ^^^ poly) = (a >>> 1) ^^^ (b >>> 1) := by
        rw [BitVec.xor_comm (b >>> 1), BitVec.xor_assoc, ← BitVec.xor_assoc poly, BitVec.xor_self, BitVec.zero_xor]
      simp [hcancel]

/-- The top bit of a step says what fell out, where the polynomial's top bit is set. -/
theorem msb_shift {poly : BitVec w} (hpoly : poly.msb = true) (register : BitVec w) :
    (shift poly register).msb = register.getLsbD 0 := by
  unfold shift
  cases h : register.getLsbD 0 with
  | false => simp [BitVec.msb_ushiftRight]
  | true => simp [BitVec.msb_xor, BitVec.msb_ushiftRight, hpoly]

/-- A step is injective, where the polynomial's top bit is set. -/
theorem shift_injective {poly : BitVec w} (hpoly : poly.msb = true) : Function.Injective (shift poly) := by
  intro a b h
  have hlow : a.getLsbD 0 = b.getLsbD 0 := by rw [← msb_shift hpoly a, h, msb_shift hpoly b]
  have hrest : a >>> 1 = b >>> 1 := by
    unfold shift at h
    rw [hlow] at h
    split at h
    · exact (BitVec.xor_left_inj poly).mp h
    · exact h
  apply BitVec.eq_of_getLsbD_eq
  intro i _
  cases i with
  | zero => exact hlow
  | succ i =>
    have hi := congrArg (fun x : BitVec w => x.getLsbD i) hrest
    simpa [Nat.add_comm] using hi

/-- Where a zero falls out, the register is halved. -/
theorem shift_double {poly : BitVec w} {m : Nat} (hm : 2 * m < 2 ^ w) : shift poly (BitVec.ofNat w (2 * m)) = BitVec.ofNat w m := by
  have hlow : (BitVec.ofNat w (2 * m)).getLsbD 0 = false := by simp [BitVec.getLsbD_ofNat]
  unfold shift
  rw [hlow]
  apply BitVec.eq_of_toNat_eq
  simp only [Bool.false_eq_true, if_false, BitVec.toNat_ushiftRight, BitVec.toNat_ofNat, Nat.mod_eq_of_lt hm,
    Nat.mod_eq_of_lt (show m < 2 ^ w by omega), Nat.shiftRight_eq_div_pow]
  omega

/-! ## Several steps -/

/-- Steps are linear in exclusive or. -/
theorem iterate_shift_xor (poly : BitVec w) (n : Nat) (a b : BitVec w) :
    (shift poly)^[n] (a ^^^ b) = (shift poly)^[n] a ^^^ (shift poly)^[n] b := by
  induction n generalizing a b with
  | zero => rfl
  | succ n ih => rw [Function.iterate_succ_apply, shift_xor, ih, ← Function.iterate_succ_apply, ← Function.iterate_succ_apply]

/-- Where only zeros fall out, the register is divided by a power of two. -/
theorem iterate_shift_mul (poly : BitVec w) {n m : Nat} (hm : 2 ^ n * m < 2 ^ w) :
    (shift poly)^[n] (BitVec.ofNat w (2 ^ n * m)) = BitVec.ofNat w m := by
  induction n with
  | zero => simp
  | succ n ih =>
    have htwice : 2 ^ (n + 1) * m = 2 * (2 ^ n * m) := by rw [Nat.pow_succ']; exact Nat.mul_assoc _ _ _
    rw [htwice] at hm ⊢
    rw [Function.iterate_succ_apply, shift_double hm, ih (by omega)]

/-! ## Byte strings -/

theorem word_cons (b : UInt8) (bytes : List UInt8) : word (b :: bytes) = b.toNat + 256 * word bytes := Nat.ofDigits_cons ..

/-- A byte string of `n` bytes spells a number below `2 ^ (8 n)`. -/
theorem word_lt (bytes : List UInt8) : word bytes < 2 ^ (8 * bytes.length) := by
  have h : word bytes < 256 ^ (bytes.map UInt8.toNat).length := by
    refine Nat.ofDigits_lt_base_pow_length (by decide) ?_
    intro x hx
    obtain ⟨b, -, rfl⟩ := List.mem_map.mp hx
    exact b.toNat_lt
  rw [List.length_map] at h
  rw [Nat.pow_mul]
  exact h

/-- Byte strings of one length that spell the same number are equal. -/
theorem word_injective {xs ys : List UInt8} (hlen : xs.length = ys.length) (h : word xs = word ys) : xs = ys := by
  have hbyte : ∀ bytes : List UInt8, ∀ x ∈ bytes.map UInt8.toNat, x < 256 := by
    intro bytes x hx
    obtain ⟨b, -, rfl⟩ := List.mem_map.mp hx
    exact b.toNat_lt
  have hmap : xs.map UInt8.toNat = ys.map UInt8.toNat :=
    Nat.ofDigits_inj_of_len_eq (by decide) (by simpa using hlen) (hbyte xs) (hbyte ys) h
  exact List.map_inj_right (fun _ _ => UInt8.toNat_inj.mp) |>.mp hmap

/-- A number of which the last eight bits are a byte is that byte and the others. -/
theorem ofNat_byte_add (b : UInt8) (m : Nat) : BitVec.ofNat w (b.toNat + 256 * m) = BitVec.ofNat w b.toNat ^^^ BitVec.ofNat w (2 ^ 8 * m) := by
  have hxor : b.toNat + 256 * m = b.toNat ^^^ (2 ^ 8 * m) := by
    apply Nat.eq_of_testBit_eq
    intro i
    have hlow := Nat.testBit_two_pow_mul_add m b.toNat_lt i
    have hhigh := Nat.testBit_two_pow_mul_add m (Nat.two_pow_pos 8) i
    rw [Nat.add_zero] at hhigh
    rw [Nat.testBit_xor, hhigh, Nat.add_comm, hlow]
    split
    · simp
    · rename_i hi
      have hzero : b.toNat.testBit i = false := Nat.testBit_lt_two_pow (Nat.lt_of_lt_of_le b.toNat_lt (Nat.pow_le_pow_right (by decide) (by omega)))
      simp [hzero]
  rw [hxor, BitVec.ofNat_xor]

/-- As many bytes as fit the register are fed by adding them to it and stepping once for each of their bits. -/
theorem run_eq_iterate {poly : BitVec w} {bytes : List UInt8} (hfit : 8 * bytes.length ≤ w) (register : BitVec w) :
    run poly register bytes = (shift poly)^[8 * bytes.length] (register ^^^ BitVec.ofNat w (word bytes)) := by
  induction bytes generalizing register with
  | nil => simp [run, word]
  | cons b bytes ih =>
    rw [List.length_cons] at hfit
    have hlt : 2 ^ 8 * word bytes < 2 ^ w := by
      have hword := word_lt bytes
      have hpow : 2 ^ 8 * 2 ^ (8 * bytes.length) ≤ 2 ^ w := by
        rw [← Nat.pow_add]
        exact Nat.pow_le_pow_right (by decide) (by omega)
      omega
    calc run poly register (b :: bytes) = run poly (feed poly register b) bytes := rfl
      _ = (shift poly)^[8 * bytes.length] (feed poly register b ^^^ BitVec.ofNat w (word bytes)) := ih (by omega) _
      _ = (shift poly)^[8 * bytes.length] ((shift poly)^[8] (register ^^^ BitVec.ofNat w (word (b :: bytes)))) := by
        rw [feed, ← iterate_shift_mul poly hlt, ← iterate_shift_xor, BitVec.xor_assoc, ← ofNat_byte_add, word_cons]
      _ = _ := by rw [← Function.iterate_add_apply, List.length_cons, Nat.mul_succ]

/-- A byte string takes different registers to different ones. -/
theorem run_injective {poly : BitVec w} (hpoly : poly.msb = true) (bytes : List UInt8) :
    Function.Injective (fun register => run poly register bytes) := by
  induction bytes with
  | nil => exact fun _ _ h => h
  | cons b bytes ih =>
    intro r s h
    have hfeed : feed poly r b = feed poly s b := ih h
    have hxor := (shift_injective hpoly).iterate 8 hfeed
    exact (BitVec.xor_left_inj _).mp hxor

/-- Byte strings of one length that fit the register, and that leave the same in it with the same string after them, are equal. -/
theorem run_append_injective {poly : BitVec w} (hpoly : poly.msb = true) {register : BitVec w} {xs ys rest : List UInt8}
    (hlen : xs.length = ys.length) (hfit : 8 * xs.length ≤ w)
    (h : run poly register (xs ++ rest) = run poly register (ys ++ rest)) : xs = ys := by
  rw [run, run, List.foldl_append, List.foldl_append] at h
  have hrun : run poly register xs = run poly register ys := run_injective hpoly rest h
  rw [run_eq_iterate hfit, run_eq_iterate (hlen ▸ hfit), ← hlen] at hrun
  have hxor := (BitVec.xor_right_inj _).mp ((shift_injective hpoly).iterate _ hrun)
  -- The numbers the strings spell are below the register's modulus.
  have hword : word xs = word ys := by
    have hle : 2 ^ (8 * xs.length) ≤ 2 ^ w := Nat.pow_le_pow_right (by decide) hfit
    have hx := word_lt xs
    have hy := word_lt ys
    rw [← hlen] at hy
    have hnat := congrArg BitVec.toNat hxor
    rw [BitVec.toNat_ofNat, BitVec.toNat_ofNat, Nat.mod_eq_of_lt (by omega), Nat.mod_eq_of_lt (by omega)] at hnat
    exact hnat
  exact word_injective hlen hword

end Crc
