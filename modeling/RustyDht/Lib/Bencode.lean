import RustyDht.Lib.Assoc
import Mathlib.Data.List.Sort
import Mathlib.Data.UInt

/-!
# Bencode

Bencode values, their encoding, and a decoder that reads back every encoding. A dictionary is a list of entries; `Value.ofFields`
builds one as an encoder of records does, leaving absent fields out and sorting by key, and a lookup in it finds what the fields
say. `Codec` is any implementation: what it must do is read back the values it wrote, for the canonical values, whose keys are
sorted and whose integers fit 64 bits. `Bencode.codec` is one.
-/

namespace Bencode

/-- A bencode value. -/
inductive Value where
  | int (i : Int)
  | bytes (s : List UInt8)
  | list (l : List Value)
  | dict (d : List (List UInt8 × Value))

/-- The bytes of an ASCII string. -/
def ascii (s : String) : List UInt8 := s.toList.map (fun c => c.toNat.toUInt8)

/-! ## Encoding -/

/-- The byte of a decimal digit. -/
def digit (d : Nat) : UInt8 := UInt8.ofNat (48 + d)

/-- The decimal digits of a number, in ASCII. -/
def decimal (n : Nat) : List UInt8 := if n < 10 then [digit n] else decimal (n / 10) ++ [digit (n % 10)]

/-- The decimal digits of an integer, with its sign. -/
def encodeInt (i : Int) : List UInt8 := if i < 0 then 45 :: decimal i.natAbs else decimal i.natAbs

/-- A byte string: its length, a colon, and the bytes. -/
def encodeBytes (s : List UInt8) : List UInt8 := decimal s.length ++ 58 :: s

mutual

/-- The encoding of a value. -/
def encode : Value → List UInt8
  | .int i => 105 :: encodeInt i ++ [101]
  | .bytes s => encodeBytes s
  | .list l => 108 :: encodeList l ++ [101]
  | .dict d => 100 :: encodeDict d ++ [101]

/-- The encodings of the values of a list, one after the other. -/
def encodeList : List Value → List UInt8
  | [] => []
  | v :: l => encode v ++ encodeList l

/-- The encodings of the entries of a dictionary, one after the other. -/
def encodeDict : List (List UInt8 × Value) → List UInt8
  | [] => []
  | e :: d => encodeBytes e.1 ++ encode e.2 ++ encodeDict d

end

/-! ## Decoding -/

/-- Whether a byte is a decimal digit. -/
def isDigit (b : UInt8) : Bool := 48 ≤ b.toNat && b.toNat < 58

/-- The number that leading decimal digits spell, after `acc`, and what follows them. -/
def readDecimal : Nat → List UInt8 → Nat × List UInt8
  | acc, [] => (acc, [])
  | acc, b :: rest => if isDigit b then readDecimal (10 * acc + (b.toNat - 48)) rest else (acc, b :: rest)

/-- The integer after an `i`, up to its `e`. -/
def readInt (s : List UInt8) : Option (Int × List UInt8) :=
  match s with
  | 45 :: s =>
    match readDecimal 0 s with
    | (n, 101 :: rest) => some (-(n : Int), rest)
    | _ => none
  | s =>
    match readDecimal 0 s with
    | (n, 101 :: rest) => some ((n : Int), rest)
    | _ => none

/-- A byte string and what follows it. -/
def readBytes (s : List UInt8) : Option (List UInt8 × List UInt8) :=
  match readDecimal 0 s with
  | (n, 58 :: rest) => if n ≤ rest.length then some (rest.take n, rest.drop n) else none
  | _ => none

mutual

/-- The first value of the input and what follows it, on fuel. -/
def read : Nat → List UInt8 → Option (Value × List UInt8)
  | 0, _ => none
  | _ + 1, [] => none
  | fuel + 1, b :: s =>
    if b = 105 then (readInt s).map (fun r => (.int r.1, r.2))
    else if b = 108 then (readList fuel s).map (fun r => (.list r.1, r.2))
    else if b = 100 then (readDict fuel s).map (fun r => (.dict r.1, r.2))
    else (readBytes (b :: s)).map (fun r => (.bytes r.1, r.2))

/-- The values up to an `e`, on fuel. -/
def readList : Nat → List UInt8 → Option (List Value × List UInt8)
  | 0, _ => none
  | _ + 1, [] => none
  | fuel + 1, b :: s =>
    if b = 101 then some ([], s)
    else
      match read fuel (b :: s) with
      | none => none
      | some (v, s) => (readList fuel s).map (fun r => (v :: r.1, r.2))

/-- The entries up to an `e`, on fuel. -/
def readDict : Nat → List UInt8 → Option (List (List UInt8 × Value) × List UInt8)
  | 0, _ => none
  | _ + 1, [] => none
  | fuel + 1, b :: s =>
    if b = 101 then some ([], s)
    else
      match readBytes (b :: s) with
      | none => none
      | some (key, s) =>
        match read fuel s with
        | none => none
        | some (v, s) => (readDict fuel s).map (fun r => ((key, v) :: r.1, r.2))

end

/-- Decode an input that is one value and nothing else. -/
def decode (s : List UInt8) : Option Value :=
  match read s.length s with
  | some (v, []) => some v
  | _ => none

/-! ## Decoding reads encodings back -/

theorem isDigit_digit {d : Nat} (h : d < 10) : isDigit (digit d) = true := by
  simp only [isDigit, digit, UInt8.toNat_ofNat']
  rw [Nat.mod_eq_of_lt (by omega)]
  simp only [Bool.and_eq_true, decide_eq_true_eq]
  omega

theorem toNat_digit {d : Nat} (h : d < 10) : (digit d).toNat - 48 = d := by
  simp only [digit, UInt8.toNat_ofNat']
  rw [Nat.mod_eq_of_lt (by omega)]
  omega

theorem decimal_length_pos (n : Nat) : 0 < (decimal n).length := by
  rw [decimal]
  split
  · exact Nat.one_pos
  · rw [List.length_append]
    exact Nat.lt_add_left _ Nat.one_pos

/-- A number starts with a digit. -/
theorem decimal_cons (n : Nat) : ∃ b rest, decimal n = b :: rest ∧ isDigit b = true := by
  induction n using decimal.induct with
  | case1 n h => exact ⟨digit n, [], by rw [decimal, if_pos h], isDigit_digit h⟩
  | case2 n h ih =>
    obtain ⟨b, rest, he, hb⟩ := ih
    exact ⟨b, rest ++ [digit (n % 10)], by rw [decimal, if_neg h, he, List.cons_append], hb⟩

/-- Reading past the digits of a number adds them to what was read before. -/
theorem readDecimal_append (n : Nat) (rest : List UInt8) :
    ∀ acc, ∃ p, readDecimal acc (decimal n ++ rest) = readDecimal (p * acc + n) rest := by
  induction n using decimal.induct generalizing rest with
  | case1 n h =>
    intro acc
    refine ⟨10, ?_⟩
    rw [decimal, if_pos h, List.singleton_append, readDecimal, if_pos (isDigit_digit h), toNat_digit h]
  | case2 n h ih =>
    intro acc
    obtain ⟨p, hp⟩ := ih (digit (n % 10) :: rest) acc
    refine ⟨10 * p, ?_⟩
    have hd : n % 10 < 10 := Nat.mod_lt n (by decide)
    rw [decimal, if_neg h, List.append_assoc, List.singleton_append, hp, readDecimal, if_pos (isDigit_digit hd),
      toNat_digit hd]
    congr 1
    have := Nat.div_add_mod n 10
    rw [Nat.mul_add, Nat.mul_assoc]
    omega

/-- A number followed by anything but a digit reads back. -/
theorem readDecimal_decimal (n : Nat) {b : UInt8} (hb : isDigit b = false) (rest : List UInt8) :
    readDecimal 0 (decimal n ++ b :: rest) = (n, b :: rest) := by
  obtain ⟨p, hp⟩ := readDecimal_append n (b :: rest) 0
  rw [hp, readDecimal, if_neg (by rw [hb]; exact Bool.false_ne_true), Nat.mul_zero, Nat.zero_add]

/-- An integer reads back. -/
theorem readInt_encodeInt (i : Int) (rest : List UInt8) : readInt (encodeInt i ++ 101 :: rest) = some (i, rest) := by
  by_cases hi : i < 0
  · rw [encodeInt, if_pos hi, List.cons_append, readInt, readDecimal_decimal _ rfl]
    simp only [Option.some.injEq, Prod.mk.injEq, and_true]
    omega
  · obtain ⟨b, tail, he, hb⟩ := decimal_cons i.natAbs
    have hne : b ≠ 45 := by
      rintro rfl
      exact absurd hb (by decide)
    have hread := readDecimal_decimal i.natAbs (b := 101) rfl rest
    rw [encodeInt, if_neg hi]
    rw [he, List.cons_append] at hread ⊢
    rw [readInt]
    · rw [hread]
      simp only [Option.some.injEq, Prod.mk.injEq, and_true]
      omega
    · intro s hs
      exact hne (List.cons.inj hs).1

/-- A byte string reads back. -/
theorem readBytes_encodeBytes (s rest : List UInt8) : readBytes (encodeBytes s ++ rest) = some (s, rest) := by
  have hread := readDecimal_decimal s.length (b := 58) rfl (s ++ rest)
  rw [encodeBytes, List.append_assoc, List.cons_append, readBytes, hread]
  simp only [List.length_append, Nat.le_add_right, if_true, List.take_left', List.drop_left']

/-- A byte string starts with a digit. -/
theorem encodeBytes_cons (s rest : List UInt8) : ∃ b tail, encodeBytes s ++ rest = b :: tail ∧ isDigit b = true := by
  obtain ⟨b, tail, he, hb⟩ := decimal_cons s.length
  exact ⟨b, tail ++ 58 :: s ++ rest, by rw [encodeBytes, he]; rfl, hb⟩

/-- A value's encoding does not start with the `e` that ends a list or a dictionary. -/
theorem encode_cons (v : Value) (rest : List UInt8) : ∃ b tail, encode v ++ rest = b :: tail ∧ b ≠ 101 := by
  cases v with
  | int i => exact ⟨105, encodeInt i ++ [101] ++ rest, by simp only [encode, List.cons_append], by decide⟩
  | bytes s =>
    obtain ⟨b, tail, he, hb⟩ := encodeBytes_cons s rest
    refine ⟨b, tail, by rw [encode, he], ?_⟩
    rintro rfl
    exact absurd hb (by decide)
  | list l => exact ⟨108, encodeList l ++ [101] ++ rest, by simp only [encode, List.cons_append], by decide⟩
  | dict d => exact ⟨100, encodeDict d ++ [101] ++ rest, by simp only [encode, List.cons_append], by decide⟩

mutual

/-- A value reads back on as much fuel as its encoding is long. -/
theorem read_encode (v : Value) (rest : List UInt8) (fuel : Nat) (hf : (encode v).length ≤ fuel) :
    read fuel (encode v ++ rest) = some (v, rest) := by
  match v, fuel, hf with
  | .int i, fuel + 1, _ =>
    simp only [encode, List.cons_append, List.append_assoc, List.nil_append, read, if_true, readInt_encodeInt, Option.map_some]
  | .bytes s, fuel, hf =>
    obtain ⟨b, tail, he, hb⟩ := encodeBytes_cons s rest
    have hpos : 0 < fuel := by
      have h1 := decimal_length_pos s.length
      simp only [encode, encodeBytes, List.length_append] at hf
      omega
    obtain ⟨n, rfl⟩ := Nat.exists_eq_add_of_lt hpos
    have hread := readBytes_encodeBytes s rest
    rw [he] at hread
    rw [encode, he, Nat.zero_add, read, if_neg, if_neg, if_neg, hread, Option.map_some]
    all_goals
      rintro rfl
      exact absurd hb (by decide)
  | .list l, fuel + 1, hf =>
    have hl := readList_encodeList l rest fuel (by
      simp only [encode, List.length_append, List.length_cons, List.length_nil] at hf
      omega)
    simp only [encode, List.cons_append, List.append_assoc, List.nil_append, read, hl, Option.map_some]
    rfl
  | .dict d, fuel + 1, hf =>
    have hd := readDict_encodeDict d rest fuel (by
      simp only [encode, List.length_append, List.length_cons, List.length_nil] at hf
      omega)
    simp only [encode, List.cons_append, List.append_assoc, List.nil_append, read, hd, Option.map_some]
    rfl

/-- The values of a list read back, and the `e` after them. -/
theorem readList_encodeList (l : List Value) (rest : List UInt8) (fuel : Nat) (hf : (encodeList l).length < fuel) :
    readList fuel (encodeList l ++ 101 :: rest) = some (l, rest) := by
  match l, fuel, hf with
  | [], fuel + 1, _ => simp only [encodeList, List.nil_append, readList, if_true]
  | v :: l, fuel + 1, hf =>
    simp only [encodeList, List.length_append] at hf
    obtain ⟨b, tail, he, hb⟩ := encode_cons v (encodeList l ++ 101 :: rest)
    have hv : 0 < (encode v).length := by
      obtain ⟨c, cs, hc, -⟩ := encode_cons v []
      rw [List.append_nil] at hc
      rw [hc]
      exact Nat.zero_lt_succ _
    have hread := read_encode v (encodeList l ++ 101 :: rest) fuel (by omega)
    have hl := readList_encodeList l rest fuel (by omega)
    rw [encodeList, List.append_assoc]
    rw [he] at hread ⊢
    rw [readList, if_neg hb, hread]
    simp only [hl, Option.map_some]

/-- The entries of a dictionary read back, and the `e` after them. -/
theorem readDict_encodeDict (d : List (List UInt8 × Value)) (rest : List UInt8) (fuel : Nat)
    (hf : (encodeDict d).length < fuel) : readDict fuel (encodeDict d ++ 101 :: rest) = some (d, rest) := by
  match d, fuel, hf with
  | [], fuel + 1, _ => simp only [encodeDict, List.nil_append, readDict, if_true]
  | (key, v) :: d, fuel + 1, hf =>
    simp only [encodeDict, List.length_append] at hf
    obtain ⟨b, tail, he, hb⟩ := encodeBytes_cons key (encode v ++ (encodeDict d ++ 101 :: rest))
    have hk : 0 < (encodeBytes key).length := by
      rw [encodeBytes, List.length_append]
      exact Nat.lt_add_right _ (decimal_length_pos _)
    have hkey := readBytes_encodeBytes key (encode v ++ (encodeDict d ++ 101 :: rest))
    have hread := read_encode v (encodeDict d ++ 101 :: rest) fuel (by omega)
    have hd := readDict_encodeDict d rest fuel (by omega)
    have hne : b ≠ 101 := by
      rintro rfl
      exact absurd hb (by decide)
    rw [encodeDict, List.append_assoc, List.append_assoc]
    rw [he] at hkey ⊢
    rw [readDict, if_neg hne, hkey]
    simp only [hread, hd, Option.map_some]

end

/-- Decoding an encoding gives the value back. -/
theorem decode_encode (v : Value) : decode (encode v) = some v := by
  have h := read_encode v [] (encode v).length (Nat.le_refl _)
  rw [List.append_nil] at h
  rw [decode, h]

/-! ## More input -/

/-- Digits that end before the input does are read alike from a longer input. -/
theorem readDecimal_extend (t : List UInt8) : ∀ (s : List UInt8) {acc n : Nat} {b : UInt8} {rest : List UInt8},
    readDecimal acc s = (n, b :: rest) → readDecimal acc (s ++ t) = (n, b :: rest ++ t) := by
  intro s
  induction s with
  | nil =>
    intro acc n b rest h
    simp [readDecimal] at h
  | cons c s ih =>
    intro acc n b rest h
    rw [readDecimal] at h
    rw [List.cons_append, readDecimal]
    by_cases hc : isDigit c = true
    · rw [if_pos hc] at h ⊢
      exact ih h
    · rw [if_neg hc] at h ⊢
      obtain ⟨rfl, hrest⟩ := Prod.mk.inj h
      obtain ⟨rfl, rfl⟩ := List.cons.inj hrest
      rfl

/-- An integer is read alike from a longer input. -/
theorem readInt_extend (t : List UInt8) {s rest : List UInt8} {i : Int} (h : readInt s = some (i, rest)) :
    readInt (s ++ t) = some (i, rest ++ t) := by
  have hpos : ∀ {s : List UInt8} {sign : Nat → Int}, (match readDecimal 0 s with
      | (n, 101 :: rest) => some (sign n, rest)
      | _ => none) = some (i, rest) → (match readDecimal 0 (s ++ t) with
      | (n, 101 :: rest) => some (sign n, rest)
      | _ => none) = some (i, rest ++ t) := by
    intro s sign h
    split at h
    · rename_i n rest' heq
      rw [readDecimal_extend t s heq]
      simp only [Option.some.injEq, Prod.mk.injEq] at h
      obtain ⟨rfl, rfl⟩ := h
      rfl
    · cases h
  unfold readInt at h ⊢
  split at h
  · exact hpos h
  · rename_i hne
    split
    · rename_i s' heq
      cases s with
      | nil => simp [readDecimal] at h
      | cons c s =>
        rw [List.cons_append] at heq
        obtain ⟨rfl, -⟩ := List.cons.inj heq
        exact absurd rfl (hne s)
    · exact hpos h

/-- A byte string is read alike from a longer input. -/
theorem readBytes_extend (t : List UInt8) {s rest k : List UInt8} (h : readBytes s = some (k, rest)) :
    readBytes (s ++ t) = some (k, rest ++ t) := by
  unfold readBytes at h ⊢
  split at h
  · rename_i n rest' heq
    rw [readDecimal_extend t s heq]
    by_cases hn : n ≤ rest'.length
    · rw [if_pos hn] at h
      simp only [Option.some.injEq, Prod.mk.injEq] at h
      obtain ⟨rfl, rfl⟩ := h
      change (if n ≤ (rest' ++ t).length then some ((rest' ++ t).take n, (rest' ++ t).drop n) else none) = _
      rw [if_pos (by rw [List.length_append]; omega), List.take_append_of_le_length hn, List.drop_append_of_le_length hn]
    · rw [if_neg hn] at h
      cases h
  · cases h

/-- What is read with some fuel is read alike from a longer input with more. -/
theorem read_extend (t : List UInt8) (fuel : Nat) : ∀ fuel', fuel ≤ fuel' →
    (∀ s v rest, read fuel s = some (v, rest) → read fuel' (s ++ t) = some (v, rest ++ t)) ∧
      (∀ s l rest, readList fuel s = some (l, rest) → readList fuel' (s ++ t) = some (l, rest ++ t)) ∧
      ∀ s d rest, readDict fuel s = some (d, rest) → readDict fuel' (s ++ t) = some (d, rest ++ t) := by
  induction fuel with
  | zero =>
    intro fuel' _
    refine ⟨?_, ?_, ?_⟩
    · intro s v rest h
      simp [read] at h
    · intro s l rest h
      simp [readList] at h
    · intro s d rest h
      simp [readDict] at h
  | succ fuel ih =>
    intro fuel' hle
    obtain ⟨fuel', rfl⟩ : ∃ n, fuel' = n + 1 := ⟨fuel' - 1, by omega⟩
    obtain ⟨ihread, ihlist, ihdict⟩ := ih fuel' (by omega)
    refine ⟨?_, ?_, ?_⟩
    · intro s v rest h
      cases s with
      | nil => simp [read] at h
      | cons b s =>
        rw [read] at h
        rw [List.cons_append, read]
        split at h
        · rename_i hb
          obtain ⟨⟨i, r⟩, hi, he⟩ := Option.map_eq_some_iff.mp h
          obtain ⟨rfl, rfl⟩ := Prod.mk.inj he
          rw [if_pos hb, readInt_extend t hi]
          rfl
        split at h
        · rename_i hb hb'
          obtain ⟨⟨l, r⟩, hl, he⟩ := Option.map_eq_some_iff.mp h
          obtain ⟨rfl, rfl⟩ := Prod.mk.inj he
          rw [if_neg hb, if_pos hb', ihlist s l r hl]
          rfl
        split at h
        · rename_i hb hb' hb''
          obtain ⟨⟨d, r⟩, hd, he⟩ := Option.map_eq_some_iff.mp h
          obtain ⟨rfl, rfl⟩ := Prod.mk.inj he
          rw [if_neg hb, if_neg hb', if_pos hb'', ihdict s d r hd]
          rfl
        · rename_i hb hb' hb''
          obtain ⟨⟨k, r⟩, hk, he⟩ := Option.map_eq_some_iff.mp h
          obtain ⟨rfl, rfl⟩ := Prod.mk.inj he
          have hk' := readBytes_extend t hk
          rw [List.cons_append] at hk'
          rw [if_neg hb, if_neg hb', if_neg hb'', hk']
          rfl
    · intro s l rest h
      cases s with
      | nil => simp [readList] at h
      | cons b s =>
        rw [readList] at h
        rw [List.cons_append, readList]
        split at h
        · rename_i hb
          obtain ⟨rfl, rfl⟩ := Prod.mk.inj (Option.some.inj h)
          rw [if_pos hb]
        · rename_i hb
          split at h
          · cases h
          · rename_i v r hv
            obtain ⟨⟨l', r'⟩, hl, he⟩ := Option.map_eq_some_iff.mp h
            obtain ⟨rfl, rfl⟩ := Prod.mk.inj he
            have hv' := ihread _ v r hv
            rw [List.cons_append] at hv'
            rw [if_neg hb, hv']
            dsimp only
            rw [ihlist r l' r' hl]
            rfl
    · intro s d rest h
      cases s with
      | nil => simp [readDict] at h
      | cons b s =>
        rw [readDict] at h
        rw [List.cons_append, readDict]
        split at h
        · rename_i hb
          obtain ⟨rfl, rfl⟩ := Prod.mk.inj (Option.some.inj h)
          rw [if_pos hb]
        · rename_i hb
          split at h
          · cases h
          · rename_i key r hkey
            split at h
            · cases h
            · rename_i v r' hv
              obtain ⟨⟨d', r''⟩, hd, he⟩ := Option.map_eq_some_iff.mp h
              obtain ⟨rfl, rfl⟩ := Prod.mk.inj he
              have hkey' := readBytes_extend t hkey
              rw [List.cons_append] at hkey'
              rw [if_neg hb, hkey']
              dsimp only
              rw [ihread r v r' hv]
              dsimp only
              rw [ihdict r' d' r'' hd]
              rfl

/-- No proper prefix of an encoding is one value. -/
theorem decode_take (v : Value) {n : Nat} (hn : n < (encode v).length) : decode ((encode v).take n) = none := by
  cases hd : decode ((encode v).take n) with
  | none => rfl
  | some v' =>
    exfalso
    have hlen : ((encode v).take n).length = n := by rw [List.length_take]; omega
    have hread : read n ((encode v).take n) = some (v', []) := by
      unfold decode at hd
      rw [hlen] at hd
      split at hd
      · rename_i heq
        rw [heq, Option.some.inj hd]
      · cases hd
    have hlong := (read_extend ((encode v).drop n) n (encode v).length (by omega)).1 _ v' [] hread
    have hwhole := read_encode v [] (encode v).length (Nat.le_refl _)
    rw [List.append_nil] at hwhole
    rw [List.take_append_drop, hwhole, List.nil_append] at hlong
    have hnil := (Prod.mk.inj (Option.some.inj hlong)).2
    have hdrop := congrArg List.length hnil
    rw [List.length_nil, List.length_drop] at hdrop
    omega

/-! ## Records -/

/-- The fields of a record, in the order they are declared; an absent one has no value. -/
abbrev Fields : Type := List (String × Option Value)

/-- The value of a field. -/
def Fields.get (key : String) : Fields → Option Value
  | [] => none
  | (k, v) :: fs => if ascii k = ascii key then v else Fields.get key fs

/-- The entries of a record's dictionary: the fields that have a value, sorted by key. -/
def Fields.entries (fs : Fields) : List (List UInt8 × Value) :=
  (fs.filterMap (fun f => f.2.map (fun v => (ascii f.1, v)))).insertionSort (fun a b => a.1 ≤ b.1)

/-- The dictionary of a record. -/
def Value.ofFields (fs : Fields) : Value := .dict fs.entries

/-- The value a dictionary has under a key. -/
def get (d : List (List UInt8 × Value)) (key : String) : Option Value := d.lookup (ascii key)

/-- The keys of a record are distinct. -/
def Fields.Distinct (keys : List String) : Prop := (keys.map ascii).Nodup

instance (keys : List String) : Decidable (Fields.Distinct keys) := inferInstanceAs (Decidable (keys.map ascii).Nodup)

theorem Fields.mem_entries {fs : Fields} {key : List UInt8} {v : Value} :
    (key, v) ∈ fs.entries ↔ ∃ f ∈ fs, f.2 = some v ∧ ascii f.1 = key := by
  rw [Fields.entries, (List.perm_insertionSort _ _).mem_iff, List.mem_filterMap]
  constructor
  · rintro ⟨f, hf, h⟩
    obtain ⟨w, hw, he⟩ := Option.map_eq_some_iff.mp h
    obtain ⟨rfl, rfl⟩ := Prod.mk.inj he
    exact ⟨f, hf, hw, rfl⟩
  · rintro ⟨f, hf, hv, rfl⟩
    exact ⟨f, hf, by rw [hv, Option.map_some]⟩

/-- The entries' keys are some of the record's keys. -/
theorem Fields.keys_entries (fs : Fields) :
    ∃ l, l.Sublist (fs.map (fun f => ascii f.1)) ∧ (fs.entries.map Prod.fst).Perm l := by
  refine ⟨(fs.filterMap (fun f => f.2.map (fun v => (ascii f.1, v)))).map Prod.fst, ?_, ?_⟩
  · induction fs with
    | nil => exact List.Sublist.refl _
    | cons f fs ih =>
      obtain ⟨k, v⟩ := f
      cases v with
      | none => exact ih.trans (List.sublist_cons_self _ _)
      | some v => exact ih.cons_cons (ascii k)
  · exact (List.perm_insertionSort _ _).map Prod.fst

theorem Fields.nodup_keys_entries {fs : Fields} (h : Distinct (fs.map Prod.fst)) : (fs.entries.map Prod.fst).Nodup := by
  obtain ⟨l, hs, hp⟩ := fs.keys_entries
  rw [Distinct, List.map_map] at h
  exact hp.nodup_iff.mpr (h.sublist hs)

/-- A field is what the record says of the key that is its own. -/
theorem Fields.get_eq_some_iff {fs : Fields} (h : Distinct (fs.map Prod.fst)) (key : String) (v : Value) :
    fs.get key = some v ↔ ∃ f ∈ fs, f.2 = some v ∧ ascii f.1 = ascii key := by
  induction fs with
  | nil => simp only [Fields.get, List.not_mem_nil, reduceCtorEq, false_and, exists_false]
  | cons f fs ih =>
    obtain ⟨k, w⟩ := f
    rw [Distinct, List.map_cons, List.map_cons, List.nodup_cons] at h
    simp only [Fields.get, List.mem_cons, exists_eq_or_imp]
    by_cases hk : ascii k = ascii key
    · rw [if_pos hk]
      constructor
      · exact fun hv => Or.inl ⟨hv, hk⟩
      · rintro (⟨hv, -⟩ | ⟨f, hf, -, he⟩)
        · exact hv
        · refine absurd ?_ h.1
          rw [hk, ← he, List.map_map]
          exact List.mem_map.mpr ⟨f, hf, rfl⟩
    · rw [if_neg hk, ih h.2]
      simp only [hk, and_false, false_or]

/-- A key that no field of the first part has is looked up in the second. -/
theorem Fields.get_append_of_not_mem_left {fs gs : Fields} {key : String} (h : ∀ f ∈ fs, ascii f.1 ≠ ascii key) :
    Fields.get key (fs ++ gs) = Fields.get key gs := by
  induction fs with
  | nil => rfl
  | cons f fs ih =>
    rw [List.cons_append, Fields.get, if_neg (h f List.mem_cons_self)]
    exact ih (fun g hg => h g (List.mem_cons_of_mem f hg))

/-- A key that no field of the second part has is looked up in the first. -/
theorem Fields.get_append_of_not_mem_right {fs gs : Fields} {key : String} (h : ∀ f ∈ gs, ascii f.1 ≠ ascii key) :
    Fields.get key (fs ++ gs) = Fields.get key fs := by
  induction fs with
  | nil =>
    have hnone : Fields.get key (gs ++ []) = Fields.get key [] := Fields.get_append_of_not_mem_left h
    rwa [List.append_nil] at hnone
  | cons f fs ih => simp only [List.cons_append, Fields.get, ih]

/-- A lookup in a record's dictionary finds its fields. -/
theorem get_entries {fs : Fields} (h : Fields.Distinct (fs.map Prod.fst)) (key : String) : get fs.entries key = fs.get key := by
  ext v
  rw [get, Assoc.lookup_eq_some_iff (Fields.nodup_keys_entries h), Fields.mem_entries, Fields.get_eq_some_iff h]

/-! ## Reading records -/

/-- A required field: it has to be there. -/
def require {α : Type} (d : List (List UInt8 × Value)) (key : String) (read : Value → Except String α) : Except String α :=
  match get d key with
  | none => .error ("missing field " ++ key)
  | some v => read v

/-- An optional field, absent by default. -/
def optional {α : Type} (d : List (List UInt8 × Value)) (key : String) (read : Value → Except String α) :
    Except String (Option α) :=
  match get d key with
  | none => .ok none
  | some v => (read v).map some

/-- The first of several readings that succeeds. -/
def firstOk {α : Type} : List (Except String α) → Except String α
  | [] => .error "data did not match any variant"
  | .ok a :: _ => .ok a
  | .error _ :: rest => firstOk rest

/-- Read an integer. -/
def Value.asInt : Value → Except String Int
  | .int i => .ok i
  | _ => .error "invalid type: expected an integer"

/-- Read a byte string. -/
def Value.asBytes : Value → Except String (List UInt8)
  | .bytes s => .ok s
  | _ => .error "invalid type: expected a byte string"

/-- A byte string reads as its bytes. -/
theorem Value.asBytes_bytes (s : List UInt8) : Value.asBytes (.bytes s) = .ok s := rfl

/-- Read a list. -/
def Value.asList : Value → Except String (List Value)
  | .list l => .ok l
  | _ => .error "invalid type: expected a list"

/-- Read a dictionary. -/
def Value.asDict : Value → Except String (List (List UInt8 × Value))
  | .dict d => .ok d
  | _ => .error "invalid type: expected a dictionary"

section

variable {α : Type} {fs : Fields} {key : String} {read : Value → Except String α}

/-- A field that a record has is read. -/
theorem require_entries {v : Value} (h : Fields.Distinct (fs.map Prod.fst)) (hv : fs.get key = some v) :
    require fs.entries key read = read v := by
  rw [require, get_entries h, hv]

/-- A required field that a record does not have is an error. -/
theorem require_entries_none (h : Fields.Distinct (fs.map Prod.fst)) (hv : fs.get key = none) :
    require fs.entries key read = .error ("missing field " ++ key) := by
  rw [require, get_entries h, hv]

/-- An optional field reads back, present or absent, when every value it is written as reads back. -/
theorem optional_entries {write : α → Value} {a : Option α} (h : Fields.Distinct (fs.map Prod.fst))
    (hv : fs.get key = a.map write) (hread : ∀ x, a = some x → read (write x) = .ok x) :
    optional fs.entries key read = .ok a := by
  rw [optional, get_entries h, hv]
  cases a with
  | none => rfl
  | some x => simp only [Option.map_some, hread x rfl, Except.map]

end

/-! ## Codecs -/

/-- A value that an encoder of records writes: its integers fit 64 bits, and the keys of its dictionaries are sorted. -/
inductive Canonical : Value → Prop where
  | int {i : Int} : -2 ^ 63 ≤ i → i < 2 ^ 63 → Canonical (.int i)
  | bytes (s : List UInt8) : Canonical (.bytes s)
  | list {l : List Value} : (∀ v ∈ l, Canonical v) → Canonical (.list l)
  | dict {d : List (List UInt8 × Value)} :
    d.Pairwise (fun a b => a.1 < b.1) → (∀ e ∈ d, Canonical e.2) → Canonical (.dict d)

/-- The fields of a record that have a value have a canonical one. -/
def Fields.AllCanonical (fs : Fields) : Prop := ∀ f ∈ fs, ∀ v, f.2 = some v → Canonical v

theorem Fields.AllCanonical.nil : AllCanonical [] := fun _ hf => absurd hf List.not_mem_nil

theorem Fields.AllCanonical.cons {key : String} {v : Value} {fs : Fields} (hv : Canonical v) (h : fs.AllCanonical) :
    AllCanonical ((key, some v) :: fs) := by
  intro f hf w hw
  rcases List.mem_cons.mp hf with rfl | hf
  · exact Option.some.inj hw ▸ hv
  · exact h f hf w hw

theorem Fields.AllCanonical.consMap {α : Type} {key : String} {write : α → Value} {fs : Fields}
    (hv : ∀ x, Canonical (write x)) (h : fs.AllCanonical) (a : Option α) : AllCanonical ((key, a.map write) :: fs) := by
  cases a with
  | none =>
    intro f hf w hw
    rcases List.mem_cons.mp hf with rfl | hf
    · exact nomatch hw
    · exact h f hf w hw
  | some x => exact h.cons (hv x)

theorem Fields.AllCanonical.append {fs gs : Fields} (h : fs.AllCanonical) (h' : gs.AllCanonical) : AllCanonical (fs ++ gs) := by
  intro f hf
  exact (List.mem_append.mp hf).elim (h f) (h' f)

/-- The dictionary of a record with distinct keys and canonical fields is canonical. -/
theorem Canonical.ofFields {fs : Fields} (h : Fields.Distinct (fs.map Prod.fst)) (hv : fs.AllCanonical) :
    Canonical (Value.ofFields fs) := by
  refine Canonical.dict ?_ ?_
  · have htotal : Std.Total (fun a b : List UInt8 × Value => a.1 ≤ b.1) := ⟨fun a b => List.le_total a.1 b.1⟩
    have htrans : IsTrans _ (fun a b : List UInt8 × Value => a.1 ≤ b.1) := ⟨fun a b c => List.le_trans⟩
    have hsorted : fs.entries.Pairwise (fun a b => a.1 ≤ b.1) := List.pairwise_insertionSort _ _
    have hnodup := List.pairwise_map.mp (Fields.nodup_keys_entries h)
    refine (hsorted.and hnodup).imp (fun {a b} hab => ?_)
    rw [← List.not_le]
    exact fun hle => hab.2 (List.le_antisymm hab.1 hle)
  · rintro ⟨key, v⟩ he
    obtain ⟨f, hf, hfv, -⟩ := Fields.mem_entries.mp he
    exact hv f hf v hfv

/-- An implementation of bencode: it writes every canonical value, and reads back what it wrote. -/
structure Codec where
  /-- Write a value. -/
  encode : Value → Except String (List UInt8)
  /-- Read a value. -/
  decode : List UInt8 → Except String Value
  /-- What is written is read back. -/
  decode_encode : ∀ {v : Value}, Canonical v → ∃ s, encode v = .ok s ∧ decode s = .ok v

/-- The encoder and decoder above are one. -/
def codec : Codec where
  encode v := .ok (encode v)
  decode s :=
    match decode s with
    | some v => .ok v
    | none => .error "not a bencode value"
  decode_encode {v} _ := ⟨encode v, rfl, by rw [Bencode.decode_encode v]⟩

/-- A codec rejects what has been cut short. -/
def Codec.RejectsTruncated (codec : Codec) : Prop :=
  ∀ {v : Value} {s : List UInt8}, Canonical v → codec.encode v = .ok s → ∀ {n : Nat}, n < s.length → ∃ e, codec.decode (s.take n) = .error e

/-- The decoder above does. -/
theorem codec_rejectsTruncated : codec.RejectsTruncated := by
  intro v s _ hs n hn
  obtain rfl : encode v = s := Except.ok.inj hs
  exact ⟨"not a bencode value", by simp [codec, decode_take v hn]⟩

end Bencode
