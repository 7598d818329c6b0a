/-
  Scrawl.Proofs.Json.RoundTrip — what is written as JSON can be read.

  Data made of texts, nothing and sequences is read back from its JSON text, except that both kinds
  of sequences come back as lists (`Json.read_write`).  Strings may hold any characters: those beyond
  the basic range are written as one or two escapes by number, and read as one character.
-/

import Scrawl.Json.Reader
import Scrawl.Json.Writer

namespace Scrawl.Json

/-! ## §1. Escapes by number -/

theorem hexValue_hexDigit : ∀ n < 16, hexValue? (Text.hexDigit n) = some n := by decide

/-- Sixteen bits are read from their four digits. -/
theorem hex4_hex {n : Nat} (h : n < 0x10000) (rest : List Char) :
    hex4? (Text.hex 4 n ++ rest) = some n := by
  have hdigits : Text.hex 4 n = [Text.hexDigit (n / 16 / 16 / 16 % 16),
      Text.hexDigit (n / 16 / 16 % 16), Text.hexDigit (n / 16 % 16), Text.hexDigit (n % 16)] := rfl
  have hn : ((n / 16 / 16 / 16 % 16 * 16 + n / 16 / 16 % 16) * 16 + n / 16 % 16) * 16 + n % 16
      = n := by omega
  rw [hdigits]
  simp only [List.cons_append, List.nil_append, hex4?,
    hexValue_hexDigit _ (Nat.mod_lt _ (by decide : 0 < 16)), bind, Option.bind, pure, hn]

theorem length_hex (width n : Nat) : (Text.hex width n).length = width := by
  induction width generalizing n with
  | zero => rfl
  | succ width ih => rw [Text.hex, List.length_append, ih]; rfl

theorem drop_hex (n : Nat) (rest : List Char) : (Text.hex 4 n ++ rest).drop 4 = rest :=
  List.drop_left' (length_hex 4 n)

/-- Sixteen bits that are no half are read as a character. -/
theorem longEscape_single {n : Nat} (hn : n < 0x10000) (hhigh : isHighHalf n = false)
    (hlow : isLowHalf n = false) {more : List Char} (hmore : more ≠ []) :
    longEscape ('u' :: (Text.hex 4 n ++ more)) = .ok (Char.ofNat n, 4) := by
  have hlength : ¬ (Text.hex 4 n ++ more).length < 5 := by
    have := List.length_pos_iff.2 hmore
    rw [List.length_append, length_hex]
    omega
  have hchar : charOf16 n = Char.ofNat n := by
    unfold charOf16
    rw [hhigh, hlow]
    rfl
  unfold longEscape
  simp only [List.drop_succ_cons, List.drop_zero, if_neg hlength, hex4_hex hn, hhigh,
    Bool.false_and, Bool.false_eq_true, if_false, hchar]
  split <;> rfl

/-- Two halves are read as one character. -/
theorem longEscape_pair {high low : Nat} (hhigh : isHighHalf high = true)
    (hlow : isLowHalf low = true) {more : List Char} (hmore : more ≠ []) :
    longEscape ('u' :: (Text.hex 4 high ++ ('\\' :: 'u' :: (Text.hex 4 low ++ more))))
      = .ok (Char.ofNat (0x10000 + (high - 0xd800) * 0x400 + (low - 0xdc00)), 10) := by
  have hhigh16 : high < 0x10000 := by
    simp only [isHighHalf, Bool.and_eq_true, decide_eq_true_eq] at hhigh
    omega
  have hlow16 : low < 0x10000 := by
    simp only [isLowHalf, Bool.and_eq_true, decide_eq_true_eq] at hlow
    omega
  have hpos := List.length_pos_iff.2 hmore
  have hsecond : 5 ≤ (Text.hex 4 low ++ more).length := by
    rw [List.length_append, length_hex]
    omega
  have hfirst : ¬ (Text.hex 4 high ++ ('\\' :: 'u' :: (Text.hex 4 low ++ more))).length < 5 := by
    rw [List.length_append, length_hex, List.length_cons]
    omega
  unfold longEscape
  simp only [List.drop_succ_cons, List.drop_zero, if_neg hfirst, hex4_hex hhigh16, drop_hex, hhigh,
    hsecond, decide_true, Bool.and_true, if_true, hex4_hex hlow16, hlow]

/-! ## §2. Strings -/

section Strings

variable (start : Nat)

/-- Characters that belong to an escape are passed over. -/
theorem stringBody_skip (skipped rest : List Char) :
    stringBody start skipped.length (skipped ++ rest) = stringBody start 0 rest := by
  induction skipped with
  | nil => rfl
  | cons c skipped ih => rw [List.length_cons, List.cons_append, stringBody, ih]

/-- A character that stands for itself. -/
theorem stringBody_plain {c : Char} (hquote : c ≠ '"') (hslash : c ≠ '\\') (hc : 0x20 ≤ c.toNat)
    (rest : List Char) :
    stringBody start 0 (c :: rest) = (stringBody start 0 rest).map fun r => (c :: r.1, r.2) := by
  rw [stringBody.eq_def]
  simp only [if_neg (Nat.not_lt.2 hc)]
  cases stringBody start 0 rest <;> rfl

/-- A character behind a backslash. -/
theorem stringBody_short {e c : Char} (hc : shortEscape? e = some c) (rest : List Char) :
    stringBody start 0 ('\\' :: e :: rest)
      = (stringBody start 0 rest).map fun r => (c :: r.1, r.2) := by
  have he : e ≠ 'u' := by
    rintro rfl
    exact nomatch hc
  rw [stringBody.eq_def]
  simp only [hc]
  cases stringBody start 0 rest <;> rfl

/-- An escape by number, with all the characters that belong to it. -/
theorem stringBody_long {digits rest : List Char} {c : Char}
    (hc : longEscape ('u' :: (digits ++ rest)) = .ok (c, digits.length)) :
    stringBody start 0 ('\\' :: 'u' :: (digits ++ rest))
      = (stringBody start 0 rest).map fun r => (c :: r.1, r.2) := by
  rw [stringBody, hc]
  show (stringBody start digits.length (digits ++ rest) >>= fun r => pure (c :: r.1, r.2)) = _
  rw [stringBody_skip]
  cases stringBody start 0 rest <;> rfl

/-- A character of the basic range, written by its number. -/
theorem stringBody_single {c : Char} (h : c.toNat < 0x10000) {more : List Char}
    (hmore : more ≠ []) :
    stringBody start 0 (escape16 c.toNat ++ more)
      = (stringBody start 0 more).map fun r => (c :: r.1, r.2) := by
  have hvalid : c.toNat < 0xd800 ∨ 0xdfff < c.toNat ∧ c.toNat < 0x110000 := c.valid
  have hhigh : isHighHalf c.toNat = false := by
    simp only [isHighHalf, Bool.and_eq_false_iff, decide_eq_false_iff_not]
    omega
  have hlow : isLowHalf c.toNat = false := by
    simp only [isLowHalf, Bool.and_eq_false_iff, decide_eq_false_iff_not]
    omega
  have hlong := longEscape_single h hhigh hlow hmore
  rw [Char.ofNat_toNat c] at hlong
  exact stringBody_long start (length_hex 4 c.toNat ▸ hlong)

/-- A character beyond the basic range, written as two halves. -/
theorem stringBody_pair {c : Char} (h : 0x10000 ≤ c.toNat) {more : List Char} (hmore : more ≠ []) :
    stringBody start 0 (escape16 (0xd800 + (c.toNat - 0x10000) / 0x400) ++
        escape16 (0xdc00 + (c.toNat - 0x10000) % 0x400) ++ more)
      = (stringBody start 0 more).map fun r => (c :: r.1, r.2) := by
  have hvalid : c.toNat < 0xd800 ∨ 0xdfff < c.toNat ∧ c.toNat < 0x110000 := c.valid
  have hhigh : isHighHalf (0xd800 + (c.toNat - 0x10000) / 0x400) = true := by
    simp only [isHighHalf, Bool.and_eq_true, decide_eq_true_eq]
    omega
  have hlow : isLowHalf (0xdc00 + (c.toNat - 0x10000) % 0x400) = true := by
    simp only [isLowHalf, Bool.and_eq_true, decide_eq_true_eq]
    omega
  have hlong := longEscape_pair hhigh hlow hmore
  have hnumber : 0x10000 + (0xd800 + (c.toNat - 0x10000) / 0x400 - 0xd800) * 0x400 +
      (0xdc00 + (c.toNat - 0x10000) % 0x400 - 0xdc00) = c.toNat := by omega
  rw [hnumber, Char.ofNat_toNat c] at hlong
  generalize 0xd800 + (c.toNat - 0x10000) / 0x400 = high at hlong
  generalize 0xdc00 + (c.toNat - 0x10000) % 0x400 = low at hlong
  -- the first escape is taken together with the whole second one
  have hlength : (Text.hex 4 high ++ '\\' :: 'u' :: Text.hex 4 low).length = 10 := by
    simp only [List.length_append, List.length_cons, length_hex]
  have hsplit : Text.hex 4 high ++ ('\\' :: 'u' :: (Text.hex 4 low ++ more))
      = (Text.hex 4 high ++ '\\' :: 'u' :: Text.hex 4 low) ++ more := by simp
  rw [hsplit, ← hlength] at hlong
  simpa [escape16] using stringBody_long start hlong

/-- One character is read back from how it is written. -/
theorem stringBody_escapeChar (c : Char) {more : List Char} (hmore : more ≠ []) :
    stringBody start 0 (escapeChar c ++ more)
      = (stringBody start 0 more).map fun r => (c :: r.1, r.2) := by
  have hchar := Char.ofNat_toNat c
  unfold escapeChar
  dsimp only
  -- five characters with an escape of their own, two more given by number, then all others
  split
  · next h =>
    obtain rfl := eq_of_beq h
    exact stringBody_short start rfl more
  split
  · next h =>
    obtain rfl := eq_of_beq h
    exact stringBody_short start rfl more
  split
  · next h =>
    obtain rfl := eq_of_beq h
    exact stringBody_short start rfl more
  split
  · next h =>
    obtain rfl := eq_of_beq h
    exact stringBody_short start rfl more
  split
  · next h =>
    obtain rfl := eq_of_beq h
    exact stringBody_short start rfl more
  split
  · next h =>
    rw [eq_of_beq h] at hchar
    exact stringBody_short start (hchar ▸ rfl) more
  split
  · next h =>
    rw [eq_of_beq h] at hchar
    exact stringBody_short start (hchar ▸ rfl) more
  split
  · next hquote hslash _ _ _ _ _ h =>
    simp only [Bool.and_eq_true, decide_eq_true_eq] at h
    exact stringBody_plain start (by simpa using hquote) (by simpa using hslash) h.1 more
  split
  · next h => exact stringBody_single start h hmore
  · next h => exact stringBody_pair start (Nat.not_lt.1 h) hmore

/-- Characters are read back up to the closing quote. -/
theorem stringBody_escaped (cs rest : List Char) :
    stringBody start 0 (cs.flatMap escapeChar ++ '"' :: rest) = .ok (cs, rest) := by
  induction cs with
  | nil => rw [List.flatMap_nil, List.nil_append, stringBody]
  | cons c cs ih =>
    rw [List.flatMap_cons, List.append_assoc, stringBody_escapeChar start c (by simp), ih]
    rfl

end Strings

theorem stringTail_stringText (s : String) (rest : List Char) :
    stringTail (s.toList.flatMap escapeChar ++ '"' :: rest) = .ok (s, rest) := by
  unfold stringTail
  rw [stringBody_escaped]
  show Except.ok (String.ofList s.toList, rest) = _
  rw [String.ofList_toList]

end Scrawl.Json

/-! ## §3. Data -/

namespace Scrawl.Value

mutual

/-- A value with lists for both kinds of sequences. -/
def listed : Value → Value
  | .tuple items => .list (listedItems items)
  | .list items => .list (listedItems items)
  | v => v

/-- Values with lists for both kinds of sequences. -/
def listedItems : List Value → List Value
  | [] => []
  | v :: rest => v.listed :: listedItems rest

end

theorem listedItems_eq_map (items : List Value) : listedItems items = items.map listed := by
  induction items with
  | nil => rfl
  | cons v items ih => rw [listedItems, ih]; rfl

@[simp] theorem listed_tuple (items : List Value) :
    (Value.tuple items).listed = .list (items.map listed) := by
  rw [listed, listedItems_eq_map]

@[simp] theorem listed_list (items : List Value) :
    (Value.list items).listed = .list (items.map listed) := by
  rw [listed, listedItems_eq_map]

@[simp] theorem listed_text (s : String) : (Value.text s).listed = .text s := rfl

@[simp] theorem listed_nil : Value.nil.listed = .nil := rfl

/-- Data made of texts, nothing and sequences, nested at most so deep. -/
inductive Data : Nat → Value → Prop
  /-- Nothing. -/
  | nil {depth : Nat} : Data (depth + 1) .nil
  /-- A text. -/
  | text {depth : Nat} (s : String) : Data (depth + 1) (.text s)
  /-- A sequence in round brackets. -/
  | tuple {depth : Nat} {items : List Value} (h : ∀ v ∈ items, Data depth v) :
      Data (depth + 1) (.tuple items)
  /-- A sequence in square brackets. -/
  | list {depth : Nat} {items : List Value} (h : ∀ v ∈ items, Data depth v) :
      Data (depth + 1) (.list items)

theorem nesting_le_items {v : Value} {items : List Value} (h : v ∈ items) :
    v.nesting ≤ itemsNesting items := by
  induction items with
  | nil => exact nomatch h
  | cons u items ih =>
    rw [itemsNesting]
    rcases List.mem_cons.1 h with rfl | h
    · exact Nat.le_max_left _ _
    · exact Nat.le_trans (ih h) (Nat.le_max_right _ _)

/-- A value is data, as deep as it is nested. -/
def IsData (v : Value) : Prop := ∀ depth, v.nesting ≤ depth → v.Data depth

theorem IsData.nil : IsData .nil
  | _ + 1, _ => Data.nil

theorem IsData.text (s : String) : IsData (.text s)
  | _ + 1, _ => Data.text s

theorem IsData.tuple {items : List Value} (h : ∀ v ∈ items, v.IsData) : IsData (.tuple items)
  | _ + 1, hdepth => Data.tuple fun v hv =>
    h v hv _ (Nat.le_trans (nesting_le_items hv) (Nat.le_of_succ_le_succ hdepth))

theorem IsData.list {items : List Value} (h : ∀ v ∈ items, v.IsData) : IsData (.list items)
  | _ + 1, hdepth => Data.list fun v hv =>
    h v hv _ (Nat.le_trans (nesting_le_items hv) (Nat.le_of_succ_le_succ hdepth))

end Scrawl.Value

namespace Scrawl.Json

open Scrawl.Value (Data)

/-! ## §4. Values -/

/-- The characters of items, with a comma and a blank between them. -/
def itemChars (items : List Value) : List Char :=
  [',', ' '].intercalate (items.map fun v => (write v).toList)

theorem writeItems_eq_map (items : List Value) : writeItems items = items.map write := by
  induction items with
  | nil => rfl
  | cons v items ih => rw [writeItems, ih]; rfl

/-- Both kinds of sequences are written alike. -/
theorem toList_write_list (items : List Value) :
    (write (.list items)).toList = '[' :: (itemChars items ++ [']']) := by
  have henclose : write (.list items) = "[" ++ String.intercalate ", " (items.map write) ++ "]" := by
    rw [write, writeItems_eq_map]
    rfl
  rw [henclose, String.toList_append, String.toList_append, String.toList_intercalate,
    List.map_map]
  rfl

theorem write_tuple (items : List Value) : write (.tuple items) = write (.list items) := by
  rw [write, write]

theorem toList_write_text (s : String) :
    (write (.text s)).toList = '"' :: (s.toList.flatMap escapeChar ++ ['"']) := by
  rw [write, stringText, String.toList_ofList]
  rfl

/-- The text of data starts with what is neither a blank, a closing bracket nor a byte order
    mark. -/
theorem write_head {v : Value} {depth : Nat} (h : v.Data depth) :
    ∃ c cs, (write v).toList = c :: cs ∧
      isBlank c = false ∧ c ≠ ']' ∧ c ≠ Char.ofNat 0xfeff := by
  cases h with
  | nil => exact ⟨'n', ['u', 'l', 'l'], rfl, by decide⟩
  | text s => exact ⟨'"', _, toList_write_text s, by decide⟩
  | tuple h =>
    rw [write_tuple]
    exact ⟨'[', _, toList_write_list _, by decide⟩
  | list h => exact ⟨'[', _, toList_write_list _, by decide⟩

theorem skipBlanks_write {v : Value} {depth : Nat} (h : v.Data depth) (rest : List Char) :
    skipBlanks ((write v).toList ++ rest) = (write v).toList ++ rest := by
  obtain ⟨c, cs, hwrite, hblank, -⟩ := write_head h
  rw [hwrite]
  simp only [skipBlanks, List.cons_append, List.dropWhile_cons, hblank, Bool.false_eq_true,
    if_false]

/-- Items start with the first of them. -/
theorem itemChars_cons (v : Value) (items : List Value) (rest : List Char) :
    ∃ tail, itemChars (v :: items) ++ rest = (write v).toList ++ tail := by
  cases items with
  | nil => exact ⟨rest, by simp [itemChars]⟩
  | cons u items => exact ⟨_, by
      rw [itemChars, List.map_cons, List.map_cons, List.intercalate_cons_cons, List.append_assoc,
        List.append_assoc]⟩

/-- Every item has a character of its own. -/
theorem length_le_itemChars {depth : Nat} {items : List Value} (h : ∀ v ∈ items, v.Data depth) :
    items.length ≤ (itemChars items).length := by
  induction items with
  | nil => exact Nat.zero_le _
  | cons v items ih =>
    have hitems := ih fun u hu => h u (List.mem_cons_of_mem _ hu)
    obtain ⟨c, cs, hwrite, -⟩ := write_head (h v List.mem_cons_self)
    cases items with
    | nil => simp [itemChars, hwrite]
    | cons u items =>
      simp only [itemChars, List.map_cons, List.intercalate_cons_cons, List.length_append,
        List.length_cons, hwrite] at hitems ⊢
      omega

/-- Items are read back up to the closing bracket. -/
theorem arrayItems_itemChars {inner : Reader Value} {depth : Nat} :
    ∀ {items : List Value}, items ≠ [] → (∀ v ∈ items, v.Data depth) →
      (∀ v ∈ items, ∀ rest, inner ((write v).toList ++ rest) = .ok (v.listed, rest)) →
      ∀ {fuel : Nat}, items.length ≤ fuel → ∀ rest,
        arrayItems inner fuel (itemChars items ++ ']' :: rest)
          = .ok (items.map Value.listed, rest) := by
  intro items
  induction items with
  | nil => intro hne; exact absurd rfl hne
  | cons v items ih =>
    intro _ hdata hread fuel hfuel rest
    obtain ⟨fuel, rfl⟩ : ∃ n, fuel = n + 1 := ⟨fuel - 1, by simp at hfuel; omega⟩
    have hv := hread v List.mem_cons_self
    cases items with
    | nil =>
      have hchars : itemChars [v] = (write v).toList := by simp [itemChars]
      rw [hchars, arrayItems, hv]
      rfl
    | cons u items =>
      have hchars : itemChars (v :: u :: items) ++ ']' :: rest
          = (write v).toList ++ ',' :: ' ' :: (itemChars (u :: items) ++ ']' :: rest) := by
        simp [itemChars, List.intercalate_cons_cons]
      have hskip : skipBlanks (' ' :: (itemChars (u :: items) ++ ']' :: rest))
          = itemChars (u :: items) ++ ']' :: rest := by
        obtain ⟨tail, htail⟩ := itemChars_cons u items (']' :: rest)
        rw [htail]
        exact skipBlanks_write (hdata u (by simp)) tail
      rw [hchars, arrayItems, hv]
      show (arrayItems inner fuel (skipBlanks (' ' :: _)) >>= _) = _
      rw [hskip, ih (List.cons_ne_nil _ _) (fun x hx => hdata x (List.mem_cons_of_mem _ hx))
        (fun x hx => hread x (List.mem_cons_of_mem _ hx)) (by simp at hfuel ⊢; omega)]
      rfl

/-- A sequence is read back if its items are. -/
theorem valueLayer_list {inner : Reader Value} {depth : Nat} {items : List Value}
    (hdata : ∀ v ∈ items, v.Data depth)
    (hread : ∀ v ∈ items, ∀ rest, inner ((write v).toList ++ rest) = .ok (v.listed, rest))
    (rest : List Char) :
    valueLayer inner ((write (.list items)).toList ++ rest)
      = .ok (.list (items.map Value.listed), rest) := by
  rw [toList_write_list, List.cons_append, List.append_assoc, List.singleton_append]
  cases items with
  | nil => rfl
  | cons v items =>
    have hfuel := length_le_itemChars hdata
    have hitems : arrayItems inner ((itemChars (v :: items) ++ ']' :: rest).length + 1)
        (itemChars (v :: items) ++ ']' :: rest) = .ok ((v :: items).map Value.listed, rest) :=
      arrayItems_itemChars (List.cons_ne_nil v items) hdata hread
        (by rw [List.length_append]; omega) rest
    obtain ⟨tail, htail⟩ := itemChars_cons v items (']' :: rest)
    obtain ⟨c, cs, hwrite, -, hclose, -⟩ := write_head (hdata v List.mem_cons_self)
    have hskip : skipBlanks (itemChars (v :: items) ++ ']' :: rest)
        = itemChars (v :: items) ++ ']' :: rest := by
      rw [htail]
      exact skipBlanks_write (hdata v List.mem_cons_self) tail
    rw [valueLayer, hskip]
    split
    · next h =>
      rw [htail, hwrite] at h
      injection h with h
      exact absurd h hclose
    · rw [hitems]
      rfl

/-- Data is read back from its text, whatever follows. -/
theorem value_write {v : Value} {depth : Nat} (h : v.Data depth) :
    ∀ rest, value depth ((write v).toList ++ rest) = .ok (v.listed, rest) := by
  induction h with
  | nil => exact fun _ => rfl
  | text s =>
    intro rest
    rw [toList_write_text, List.cons_append, List.append_assoc, List.singleton_append]
    show (stringTail (s.toList.flatMap escapeChar ++ '"' :: rest) >>= _) = _
    rw [stringTail_stringText]
    rfl
  | tuple hdata ih =>
    intro rest
    rw [write_tuple, Value.listed_tuple]
    exact valueLayer_list hdata ih rest
  | list hdata ih =>
    intro rest
    rw [Value.listed_list]
    exact valueLayer_list hdata ih rest

/-- **Data is read back from its JSON text**, with lists for both kinds of sequences. -/
theorem read_write {v : Value} {depth : Nat} (h : v.Data depth) :
    read depth (write v) = .ok v.listed := by
  obtain ⟨c, cs, hwrite, -, -, hc⟩ := write_head h
  have hvalue := value_write h []
  have hskip := skipBlanks_write h []
  rw [List.append_nil] at hvalue hskip
  have hmark : ((write v).toList.head? == some (Char.ofNat 0xfeff)) = false := by
    rw [hwrite]
    simpa using hc
  have hread : readChars depth (write v).toList = .ok v.listed := by
    unfold readChars
    rw [hmark, hskip, hvalue]
    rfl
  unfold read
  rw [hread]

end Scrawl.Json
