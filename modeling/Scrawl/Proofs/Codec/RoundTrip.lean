/-
  Scrawl.Proofs.Codec.RoundTrip — what is encoded can be decoded.

  Bytes of a text are decoded to the text (`Utf8.decode_encode`), digits of bytes to the bytes
  (`Base85.decode_encode`), and so a packed text is unpacked to the text (`Library.unpack_pack`).
-/

import Scrawl.Eval.Library

namespace Scrawl.Codec

/-! ## §1. Bytes of a character -/

namespace Utf8

theorem toNat_byte {n : Nat} (h : n < 256) : (byte n).toNat = n := by
  unfold byte
  rw [UInt8.toNat_ofNat']
  omega

theorem isTail_byte {n : Nat} (h : n < 0x40) : isTail (byte (0x80 + n)) = true := by
  unfold isTail
  rw [toNat_byte (by omega)]
  simp only [Bool.and_eq_true, decide_eq_true_eq]
  omega

theorem tailBits_byte {n : Nat} (h : n < 0x40) : tailBits (byte (0x80 + n)) = n := by
  unfold tailBits
  rw [toNat_byte (by omega)]
  omega

/-- A tail may come second unless the first byte is one of four that narrow its range. -/
theorem isSecond_byte {first n : Nat} (hfirst : first < 256) (hn : n < 0x40)
    (hlong : first = 0xe0 → 0x20 ≤ n) (hsurrogate : first = 0xed → n < 0x20)
    (hlonger : first = 0xf0 → 0x10 ≤ n) (hlast : first = 0xf4 → n < 0x10) :
    isSecond (byte first) (byte (0x80 + n)) = true := by
  unfold isSecond
  rw [isTail_byte hn, toNat_byte hfirst, toNat_byte (by omega : 0x80 + n < 256), Bool.true_and]
  split <;> simp_all <;> omega

/-- The numbers of characters leave out those of halves. -/
theorem toNat_cases (c : Char) : c.toNat < 0xd800 ∨ 0xdfff < c.toNat ∧ c.toNat < 0x110000 :=
  c.valid

/-! The first byte of a form says how long it is. -/

theorem formLength_one {n : Nat} (h : n < 0x80) : formLength (byte n) = 1 := by
  unfold formLength
  rw [toNat_byte (by omega), if_pos h]

theorem formLength_two {n : Nat} (hlow : 0xc2 ≤ n) (hhigh : n < 0xe0) :
    formLength (byte n) = 2 := by
  unfold formLength
  rw [toNat_byte (by omega), if_neg (by omega), if_neg (by omega), if_pos hhigh]

theorem formLength_three {n : Nat} (hlow : 0xe0 ≤ n) (hhigh : n < 0xf0) :
    formLength (byte n) = 3 := by
  unfold formLength
  rw [toNat_byte (by omega), if_neg (by omega), if_neg (by omega), if_neg (by omega),
    if_pos hhigh]

theorem formLength_four {n : Nat} (hlow : 0xf0 ≤ n) (hhigh : n < 0xf5) :
    formLength (byte n) = 4 := by
  unfold formLength
  rw [toNat_byte (by omega), if_neg (by omega), if_neg (by omega), if_neg (by omega),
    if_neg (by omega), if_pos hhigh]

section Forms

variable (position : Nat) (rest : Bytes) {a b c d : UInt8}

/-! A form is decoded if its second byte may come second and the others are tails. -/

theorem decodeFrom_one (ha : formLength a = 1) :
    decodeFrom position (a :: rest)
      = (decodeFrom (position + 1) rest).map (Char.ofNat a.toNat :: ·) := by
  rw [decodeFrom.eq_def]
  simp only [ha]

theorem decodeFrom_two (ha : formLength a = 2) (hb : isSecond a b = true) :
    decodeFrom position (a :: b :: rest)
      = (decodeFrom (position + 2) rest).map
        (Char.ofNat (a.toNat % 0x20 * 0x40 + tailBits b) :: ·) := by
  rw [decodeFrom]
  simp only [ha, hb, Bool.not_true, Bool.false_eq_true, if_false]

theorem decodeFrom_three (ha : formLength a = 3) (hb : isSecond a b = true)
    (hc : isTail c = true) :
    decodeFrom position (a :: b :: c :: rest)
      = (decodeFrom (position + 3) rest).map
        (Char.ofNat (a.toNat % 0x10 * 0x1000 + tailBits b * 0x40 + tailBits c) :: ·) := by
  rw [decodeFrom]
  simp only [ha, hb, hc, Bool.not_true, Bool.false_eq_true, if_false]

theorem decodeFrom_four (ha : formLength a = 4) (hb : isSecond a b = true)
    (hc : isTail c = true) (hd : isTail d = true) :
    decodeFrom position (a :: b :: c :: d :: rest)
      = (decodeFrom (position + 4) rest).map
        (Char.ofNat (a.toNat % 8 * 0x40000 + tailBits b * 0x1000 + tailBits c * 0x40 +
          tailBits d) :: ·) := by
  rw [decodeFrom]
  simp only [ha, hb, hc, hd, Bool.not_true, Bool.false_eq_true, if_false]

end Forms

/-- The bytes of a character are read as that character. -/
theorem decodeFrom_encodeChar (position : Nat) (c : Char) (rest : Bytes) :
    decodeFrom position (encodeChar c ++ rest) =
      (decodeFrom (position + (encodeChar c).length) rest).map (c :: ·) := by
  have hvalid := toNat_cases c
  have hchar := Char.ofNat_toNat c
  have htail : ∀ k, k % 0x40 < 0x40 := fun k => Nat.mod_lt k (by decide)
  unfold encodeChar
  dsimp only
  generalize c.toNat = n at hvalid hchar
  split
  · next h =>
    refine (decodeFrom_one position rest (formLength_one h)).trans ?_
    rw [toNat_byte (by omega), hchar]
    rfl
  split
  · next h1 h2 =>
    have hfirst : 0xc0 + n / 0x40 < 256 := by omega
    have hn : (0xc0 + n / 0x40) % 0x20 * 0x40 + n % 0x40 = n := by omega
    refine (decodeFrom_two position rest (formLength_two (by omega) (by omega))
      (isSecond_byte hfirst (htail n) (by omega) (by omega) (by omega) (by omega))).trans ?_
    rw [toNat_byte hfirst, tailBits_byte (htail n), hn, hchar]
    rfl
  split
  · next h1 h2 h3 =>
    -- the smallest of these numbers and those of halves bound the second byte
    have hfirst : 0xe0 + n / 0x1000 < 256 := by omega
    have hn : (0xe0 + n / 0x1000) % 0x10 * 0x1000 + n / 0x40 % 0x40 * 0x40 + n % 0x40 = n := by
      omega
    refine (decodeFrom_three position rest (formLength_three (by omega) (by omega))
      (isSecond_byte hfirst (htail _) (by omega) (by omega) (by omega) (by omega))
      (isTail_byte (htail n))).trans ?_
    rw [toNat_byte hfirst, tailBits_byte (htail _), tailBits_byte (htail n), hn, hchar]
    rfl
  · next h1 h2 h3 =>
    -- here the smallest of these numbers and the last character do
    have hfirst : 0xf0 + n / 0x40000 < 256 := by omega
    have hn : (0xf0 + n / 0x40000) % 8 * 0x40000 + n / 0x1000 % 0x40 * 0x1000 +
        n / 0x40 % 0x40 * 0x40 + n % 0x40 = n := by omega
    refine (decodeFrom_four position rest (formLength_four (by omega) (by omega))
      (isSecond_byte hfirst (htail _) (by omega) (by omega) (by omega) (by omega))
      (isTail_byte (htail _)) (isTail_byte (htail n))).trans ?_
    rw [toNat_byte hfirst, tailBits_byte (htail _), tailBits_byte (htail _),
      tailBits_byte (htail n), hn, hchar]
    rfl

/-- The bytes of characters are read as those characters, wherever they start. -/
theorem decodeFrom_encodeChars (cs : List Char) :
    ∀ position : Nat, decodeFrom position (encodeChars cs) = .ok cs := by
  induction cs with
  | nil => exact fun _ => rfl
  | cons c cs ih =>
    intro position
    show decodeFrom position (encodeChar c ++ encodeChars cs) = _
    rw [decodeFrom_encodeChar, ih]
    rfl

/-- **A text is decoded from its bytes.** -/
theorem decode_encode (s : String) : decode (encode s) = .ok s := by
  unfold decode encode
  rw [decodeFrom_encodeChars]
  show Except.ok (String.ofList s.toList) = _
  rw [String.ofList_toList]

end Utf8

/-! ## §2. Digits of bytes -/

namespace Base85

/-- The byte of a digit. -/
def code (value : Nat) : UInt8 := Utf8.byte (digit value).toNat

/-- A digit is one byte long and is read as its value. -/
theorem value_code : ∀ v < 85, Utf8.encodeChar (digit v) = [code v] ∧ value? (code v) = some v := by
  decide +kernel

theorem encodeChars_digits {vs : List Nat} (h : ∀ v ∈ vs, v < 85) :
    Utf8.encodeChars (vs.map digit) = vs.map code := by
  induction vs with
  | nil => rfl
  | cons v vs ih =>
    show Utf8.encodeChar (digit v) ++ Utf8.encodeChars (vs.map digit) = _
    rw [(value_code v (h v List.mem_cons_self)).1, ih fun u hu => h u (List.mem_cons_of_mem _ hu)]
    rfl

/-- Digits are read as the number they stand for. -/
theorem digitsNumber_code {vs : List Nat} (h : ∀ v ∈ vs, v < 85) (position sum : Nat) :
    digitsNumber position sum (vs.map code) = .ok (vs.foldl (fun n v => n * 85 + v) sum) := by
  induction vs generalizing position sum with
  | nil => rfl
  | cons v vs ih =>
    rw [List.map_cons, digitsNumber, (value_code v (h v List.mem_cons_self)).2]
    exact ih (fun u hu => h u (List.mem_cons_of_mem _ hu)) _ _

/-- The digits of the largest value fill up a group. -/
theorem filler_eq : filler = code 84 := by decide +kernel

/-- The number of a group of four bytes. -/
def groupNumber (a b c d : UInt8) : Nat :=
  ((a.toNat * 256 + b.toNat) * 256 + c.toNat) * 256 + d.toNat

/-- The values of the digits of a number of four bytes. -/
def groupValues (n : Nat) : List Nat :=
  [n / 52200625, n / 614125 % 85, n / 7225 % 85, n / 85 % 85, n % 85]

theorem groupDigits_eq (a b c d : UInt8) :
    groupDigits a b c d = (groupValues (groupNumber a b c d)).map digit := rfl

theorem groupValues_lt {n : Nat} (h : n < 0x100000000) : ∀ v ∈ groupValues n, v < 85 := by
  intro v hv
  simp only [groupValues, List.mem_cons, List.not_mem_nil, or_false] at hv
  rcases hv with rfl | rfl | rfl | rfl | rfl <;> omega

theorem groupNumber_lt (a b c d : UInt8) : groupNumber a b c d < 0x100000000 := by
  have ha := a.toNat_lt
  have hb := b.toNat_lt
  have hc := c.toNat_lt
  have hd := d.toNat_lt
  unfold groupNumber
  omega

/-- A group of digits is read as the four bytes of its number. -/
theorem decodeGroup_code {vs : List Nat} (h : ∀ v ∈ vs, v < 85) (position : Nat)
    (hn : vs.foldl (fun n v => n * 85 + v) 0 < 0x100000000) :
    decodeGroup position (vs.map code)
      = .ok (groupBytes (vs.foldl (fun n v => n * 85 + v) 0)) := by
  unfold decodeGroup
  rw [digitsNumber_code h]
  show (if _ then _ else _) = _
  rw [if_pos hn]

theorem ofNat_toNat_byte (a : UInt8) {n : Nat} (h : n = a.toNat) : UInt8.ofNat n = a := by
  rw [h, UInt8.ofNat_toNat]

/-- Five digits hold a number of four bytes. -/
theorem foldl_groupValues (n : Nat) :
    (groupValues n).foldl (fun n v => n * 85 + v) 0 = n := by
  simp only [groupValues, List.foldl_cons, List.foldl_nil]
  omega

/-- The bytes of a group's number are the bytes of the group. -/
theorem groupBytes_groupNumber (a b c d : UInt8) :
    groupBytes (groupNumber a b c d) = [a, b, c, d] := by
  have ha := a.toNat_lt
  have hb := b.toNat_lt
  have hc := c.toNat_lt
  have hd := d.toNat_lt
  unfold groupNumber groupBytes
  rw [ofNat_toNat_byte a (by omega), ofNat_toNat_byte b (by omega), ofNat_toNat_byte c (by omega),
    ofNat_toNat_byte d (by omega)]

/-- A group of which only some digits are written, filled up with the largest ones. -/
theorem decodeGroup_filled (position : Nat) (vs : List Nat) (h : ∀ v ∈ vs, v < 85)
    {a b c d : UInt8} (hn : vs.foldl (fun n v => n * 85 + v) 0 = groupNumber a b c d) :
    decodeGroup position (vs.map code) = .ok [a, b, c, d] := by
  have hlt := groupNumber_lt a b c d
  rw [← hn] at hlt
  rw [decodeGroup_code h position hlt, hn, groupBytes_groupNumber]

theorem toNat_ofNat_lt {n : Nat} (h : n < 256) : (UInt8.ofNat n).toNat = n := by
  rw [UInt8.toNat_ofNat']
  omega

/-- Less than a byte's worth more changes only the last byte. -/
theorem groupNumber_add_one (a b c : UInt8) {r : Nat} (hr : r < 256) :
    groupNumber a b c 0 + r = groupNumber a b c (UInt8.ofNat r) := by
  unfold groupNumber
  rw [toNat_ofNat_lt hr, UInt8.toNat_zero]
  omega

/-- Less than two bytes' worth more changes only the last two bytes. -/
theorem groupNumber_add_two (a b : UInt8) {r : Nat} (hr : r < 0x10000) :
    groupNumber a b 0 0 + r
      = groupNumber a b (UInt8.ofNat (r / 256)) (UInt8.ofNat (r % 256)) := by
  unfold groupNumber
  rw [toNat_ofNat_lt (by omega : r / 256 < 256), toNat_ofNat_lt (Nat.mod_lt r (by decide)),
    UInt8.toNat_zero]
  omega

/-- Less than three bytes' worth more changes only the last three bytes. -/
theorem groupNumber_add_three (a : UInt8) {r : Nat} (hr : r < 0x1000000) :
    groupNumber a 0 0 0 + r = groupNumber a (UInt8.ofNat (r / 0x10000))
      (UInt8.ofNat (r / 256 % 256)) (UInt8.ofNat (r % 256)) := by
  unfold groupNumber
  rw [toNat_ofNat_lt (by omega : r / 0x10000 < 256), toNat_ofNat_lt (Nat.mod_lt _ (by decide)),
    toNat_ofNat_lt (Nat.mod_lt r (by decide)), UInt8.toNat_zero]
  omega

/-! ## §3. Whole encodings -/

/-- The bytes of the digits of a group, from the front. -/
theorem encodeChars_take_groupDigits (a b c d : UInt8) (count : Nat) :
    Utf8.encodeChars ((groupDigits a b c d).take count)
      = ((groupValues (groupNumber a b c d)).take count).map code := by
  rw [groupDigits_eq, ← List.map_take, encodeChars_digits]
  intro v hv
  exact groupValues_lt (groupNumber_lt a b c d) v (List.mem_of_mem_take hv)

/-- The first digits of a group's number, filled up with the largest ones, are the digits of a
    number that is larger by less than what was left out. -/
theorem foldl_filled (n : Nat) :
    [n / 52200625, n / 614125 % 85, n / 7225 % 85, n / 85 % 85, 84].foldl (· * 85 + ·) 0
        = n + (84 - n % 85) ∧
      [n / 52200625, n / 614125 % 85, n / 7225 % 85, 84, 84].foldl (· * 85 + ·) 0
        = n + (7224 - n % 7225) ∧
      [n / 52200625, n / 614125 % 85, 84, 84, 84].foldl (· * 85 + ·) 0
        = n + (614124 - n % 614125) := by
  simp only [List.foldl_cons, List.foldl_nil]
  omega

/-- The first digits of a group and the filling are digits. -/
theorem filled_lt {n : Nat} (hn : n < 0x100000000) (count : Nat) :
    ∀ v ∈ (groupValues n).take count ++ List.replicate (5 - count) 84, v < 85 := by
  intro v hv
  rcases List.mem_append.1 hv with hv | hv
  · exact groupValues_lt hn v (List.mem_of_mem_take hv)
  · rw [List.eq_of_mem_replicate hv]
    decide

/-- **Bytes are decoded from their digits**, wherever these start. -/
theorem decodeFrom_encode (bytes : Bytes) :
    ∀ position : Nat, decodeFrom position (Utf8.encodeChars (encode bytes)) = .ok bytes := by
  induction bytes using encode.induct with
  | case1 a b c d rest ih =>
    intro position
    have hgroup : decodeGroup position ((groupValues (groupNumber a b c d)).map code)
        = .ok [a, b, c, d] :=
      decodeGroup_filled position _ (groupValues_lt (groupNumber_lt a b c d)) (foldl_groupValues _)
    have hsplit : Utf8.encodeChars (encode (a :: b :: c :: d :: rest))
        = (groupValues (groupNumber a b c d)).map code ++ Utf8.encodeChars (encode rest) := by
      rw [encode, Utf8.encodeChars, List.flatMap_append]
      exact congrArg (· ++ _) (encodeChars_take_groupDigits a b c d 5)
    rw [hsplit]
    show (decodeGroup position ((groupValues (groupNumber a b c d)).map code) >>= fun group =>
      decodeFrom (position + 5) (Utf8.encodeChars (encode rest)) >>= fun more =>
        pure (group ++ more)) = _
    rw [hgroup, ih]
    rfl
  | case2 a b c =>
    -- the digit left out is read as the largest one, which only changes bytes that are dropped
    intro position
    have hn := groupNumber_lt a b c 0
    have hsum := (foldl_filled (groupNumber a b c 0)).1.trans
      (groupNumber_add_one a b c (by omega))
    have hgroup := decodeGroup_filled position _ (filled_lt hn 4) hsum
    rw [encode, encodeChars_take_groupDigits]
    show (decodeGroup position _).map _ = _
    rw [filler_eq]
    exact congrArg (Except.map (·.take 3)) hgroup
  | case3 a b =>
    intro position
    have hn := groupNumber_lt a b 0 0
    have hsum := (foldl_filled (groupNumber a b 0 0)).2.1.trans
      (groupNumber_add_two a b (by omega))
    have hgroup := decodeGroup_filled position _ (filled_lt hn 3) hsum
    rw [encode, encodeChars_take_groupDigits]
    show (decodeGroup position _).map _ = _
    rw [filler_eq]
    exact congrArg (Except.map (·.take 2)) hgroup
  | case4 a =>
    intro position
    have hn := groupNumber_lt a 0 0 0
    have hsum := (foldl_filled (groupNumber a 0 0 0)).2.2.trans
      (groupNumber_add_three a (by omega))
    have hgroup := decodeGroup_filled position _ (filled_lt hn 2) hsum
    rw [encode, encodeChars_take_groupDigits]
    show (decodeGroup position _).map _ = _
    rw [filler_eq]
    exact congrArg (Except.map (·.take 1)) hgroup
  | case5 => exact fun _ => rfl

end Base85

end Scrawl.Codec

namespace Scrawl.Library

/-- **A packed text is unpacked to the text.** -/
theorem unpack_pack (text : String) : unpack (pack text) = .ok text := by
  unfold unpack pack Codec.Base85.decode
  rw [Codec.Base85.decodeFrom_encode]
  dsimp only
  rw [Codec.Utf8.decode_encode]

end Scrawl.Library
