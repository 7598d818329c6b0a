/-
  Scrawl.Proofs.Eval.Shape — the shapes of values.

  The values that running programs come across have few shapes (`Value.Shaped`), and so have their
  payloads (`Value.IsOperand`).  Operators turn payloads into payloads of numbers
  (`operator_payload`).
-/

import Scrawl.Proofs.Grammar.RoundTrip
import Scrawl.Proofs.Value.Tags

namespace Scrawl

open Grammar (IsName Tree)

namespace Value

/-! ## §1. Shapes -/

/-- The payloads of numbers. -/
inductive IsPayload : Value → Prop
  /-- A floating point number. -/
  | float (x : Float) : IsPayload (.float x)
  /-- A whole number. -/
  | int (i : Int) : IsPayload (.int i)
  /-- A text. -/
  | text (s : String) : IsPayload (.text s)
  /-- A parameter list, or several of them one after the other. -/
  | names {names : List Value} (h : ∀ n ∈ names, IsName n) :
      IsPayload (.list (names.map symbolNode))

/-- The payloads of values: those of numbers, and functions of the language. -/
inductive IsOperand : Value → Prop
  /-- The payload of a number, of a string or of a function. -/
  | payload {p : Value} (h : p.IsPayload) : IsOperand p
  /-- A function of the language. -/
  | native (fn : Native) : IsOperand (.native fn)

/-- The values of programs, while there are `k` scopes. -/
inductive Shaped (k : Nat) : Value → Prop
  /-- A number. -/
  | number {p : Value} (h : p.IsPayload) : Shaped k (.number p)
  /-- A string. -/
  | string (s : String) : Shaped k (.string s)
  /-- The value of what has no value. -/
  | nothing : Shaped k .nothing
  /-- A function of the language. -/
  | native (fn : Native) : Shaped k (.nativeValue fn)
  /-- A bare text. -/
  | text (s : String) : Shaped k (.text s)
  /-- What drawing functions give back. -/
  | blank : Shaped k .blank
  /-- A function of the program, made in a scope that exists. -/
  | function {names : List Value} {body : List Tree} {home : ScopeId}
      (hnames : ∀ n ∈ names, IsName n) (hbody : ∀ t ∈ body, t.Grammatical .expression)
      (hhome : home < k) :
      Shaped k (.function (.list (names.map symbolNode)) (.list (Tree.listToValues body)) home)

theorem Shaped.mono {j k : Nat} (hjk : j ≤ k) {v : Value} (h : v.Shaped j) : v.Shaped k := by
  cases h with
  | number h => exact .number h
  | string s => exact .string s
  | nothing => exact .nothing
  | native fn => exact .native fn
  | text s => exact .text s
  | blank => exact .blank
  | function hnames hbody hhome => exact .function hnames hbody (Nat.lt_of_lt_of_le hhome hjk)

/-- The payload of a value of a program. -/
theorem Shaped.payload {k : Nat} {v p : Value} (h : v.Shaped k) (hp : v.payload = .ok p) :
    p.IsOperand := by
  cases h with
  | number h =>
    obtain rfl : _ = p := Except.ok.inj hp
    exact .payload h
  | string s =>
    obtain rfl : _ = p := Except.ok.inj hp
    exact .payload (.text s)
  | nothing => exact nomatch hp
  | native fn =>
    obtain rfl : _ = p := Except.ok.inj hp
    exact .native fn
  | text s =>
    obtain ⟨c, rfl⟩ := item_text hp
    exact .payload (.text _)
  | blank => exact nomatch hp
  | function hnames hbody hhome =>
    obtain rfl : _ = p := Except.ok.inj hp
    exact .payload (.names hnames)

/-! ## §2. Tags -/

section Tags

variable {k : Nat} {v : Value}

/-- Values have their own tags: none is that of an operation, a symbol, an assignment or a call. -/
theorem Shaped.tag_absurd {P : Prop} {t : String} (h : v.Shaped k)
    (ht : t ∉ ["number", "string", "none", "native", "function"]) (hlong : t.toList.length ≠ 1)
    (htag : v.tag = .ok (.text t)) : P := by
  simp only [List.mem_cons, List.not_mem_nil, or_false, not_or] at ht
  obtain ⟨hnumber, hstring, hnone, hnative, hfunction⟩ := ht
  cases h with
  | number _ => exact Scrawl.tag_absurd (Ne.symm hnumber) htag
  | string s => exact Scrawl.tag_absurd (Ne.symm hstring) htag
  | nothing => exact Scrawl.tag_absurd (Ne.symm hnone) htag
  | native fn => exact Scrawl.tag_absurd (Ne.symm hnative) htag
  | text s => exact text_tag_absurd hlong htag
  | blank => exact nomatch htag
  | function _ _ _ => exact Scrawl.tag_absurd (Ne.symm hfunction) htag

theorem Shaped.number_parts (h : v.Shaped k) (htag : v.tag = .ok (.text "number")) :
    ∃ p, v = .number p ∧ p.IsPayload := by
  cases h with
  | number h => exact ⟨_, rfl, h⟩
  | text s => exact text_tag_absurd (by decide) htag
  | blank => exact nomatch htag
  | _ => exact Scrawl.tag_absurd (by decide) htag

theorem Shaped.string_parts (h : v.Shaped k) (htag : v.tag = .ok (.text "string")) :
    ∃ s, v = .string s := by
  cases h with
  | string s => exact ⟨s, rfl⟩
  | text s => exact text_tag_absurd (by decide) htag
  | blank => exact nomatch htag
  | _ => exact Scrawl.tag_absurd (by decide) htag

theorem Shaped.native_parts (h : v.Shaped k) (htag : v.tag = .ok (.text "native")) :
    ∃ fn, v = .nativeValue fn := by
  cases h with
  | native fn => exact ⟨fn, rfl⟩
  | text s => exact text_tag_absurd (by decide) htag
  | blank => exact nomatch htag
  | _ => exact Scrawl.tag_absurd (by decide) htag

theorem Shaped.function_parts (h : v.Shaped k) (htag : v.tag = .ok (.text "function")) :
    ∃ (names : List Value) (body : List Tree) (home : ScopeId),
      v = .function (.list (names.map symbolNode)) (.list (Tree.listToValues body)) home ∧
        (∀ n ∈ names, IsName n) ∧ (∀ t ∈ body, t.Grammatical .expression) ∧ home < k := by
  cases h with
  | function hnames hbody hhome => exact ⟨_, _, _, rfl, hnames, hbody, hhome⟩
  | text s => exact text_tag_absurd (by decide) htag
  | blank => exact nomatch htag
  | _ => exact Scrawl.tag_absurd (by decide) htag

end Tags

/-! ## §3. Operators -/

/-- What operations on numbers give. -/
inductive IsNumber : Value → Prop
  /-- A floating point number. -/
  | float (x : Float) : IsNumber (.float x)
  /-- A whole number. -/
  | int (i : Int) : IsNumber (.int i)

theorem IsNumber.payload {r : Value} (h : r.IsNumber) : r.IsPayload := by
  cases h with
  | float x => exact .float x
  | int i => exact .int i

theorem combine_number {exact : Int → Int → Int} {floating : Float → Float → Float}
    {a b : Numeral} {r : Value} (h : combine exact floating a b = .ok r) : r.IsNumber := by
  unfold combine at h
  split at h
  · obtain rfl := Except.ok.inj h
    exact .int _
  · obtain ⟨x, -, h⟩ := Grammar.bind_eq_ok.1 h
    obtain ⟨y, -, h⟩ := Grammar.bind_eq_ok.1 h
    obtain rfl := Except.ok.inj h
    exact .float _

/-- A sum is one of numbers, or of sequences of one kind. -/
theorem add_eq_ok {p q r : Value} (h : p.add q = .ok r) :
    (∃ x y, p.numeral? = some x ∧ q.numeral? = some y ∧ combine (· + ·) (· + ·) x y = .ok r) ∨
      (∃ s t, p = .text s ∧ q = .text t ∧ r = .text (s ++ t)) ∨
      (∃ xs ys, p = .tuple xs ∧ q = .tuple ys ∧ r = .tuple (xs ++ ys)) ∨
      (∃ xs ys, p = .list xs ∧ q = .list ys ∧ r = .list (xs ++ ys)) := by
  unfold add at h
  split at h
  · next x y hx hy => exact .inl ⟨x, y, hx, hy, h⟩
  split at h
  · exact .inr (.inl ⟨_, _, rfl, rfl, (Except.ok.inj h).symm⟩)
  · exact .inr (.inr (.inl ⟨_, _, rfl, rfl, (Except.ok.inj h).symm⟩))
  · exact .inr (.inr (.inr ⟨_, _, rfl, rfl, (Except.ok.inj h).symm⟩))
  · split at h <;> cases h

theorem mem_repeatItems {α : Type} {times : Nat} {items : List α} {x : α}
    (h : x ∈ repeatItems times items) : x ∈ items := by
  unfold repeatItems at h
  split at h
  · cases h
  · obtain ⟨copy, hcopy, hx⟩ := List.mem_flatten.1 h
    rwa [List.eq_of_mem_replicate hcopy] at hx

theorem map_repeatItems {α β : Type} (f : α → β) (times : Nat) (items : List α) :
    (repeatItems times items).map f = repeatItems times (items.map f) := by
  unfold repeatItems
  rw [List.isEmpty_map]
  split
  · rfl
  · rw [List.map_flatten, List.map_replicate]

/-- Repeating a parameter list gives one. -/
theorem repeated_payload {v r : Value} {count : Int} (hv : v.IsPayload)
    (h : repeated v count = .ok r) : r.IsPayload := by
  unfold repeated at h
  split at h
  · cases h
  cases hv with
  | float x => exact Except.ok.inj h ▸ .float x
  | int i => exact Except.ok.inj h ▸ .int i
  | text s =>
    dsimp only at h
    split at h
    · cases h
    split at h
    · cases h
    · exact Except.ok.inj h ▸ .text _
  | names hnames =>
    dsimp only at h
    split at h
    · cases h
    · obtain rfl := Except.ok.inj h
      rw [← map_repeatItems]
      exact .names fun n hn => hnames n (mem_repeatItems hn)

theorem repeatBy_payload {v count r : Value} (hv : v.IsPayload) (h : repeatBy v count = .ok r) :
    r.IsPayload := by
  unfold repeatBy at h
  split at h
  · exact repeated_payload hv h
  · cases h

/-- What can be repeated is no function of the language. -/
theorem IsOperand.payload_of_sequence {p : Value} (h : p.IsOperand)
    (hseq : p.sequence?.isSome = true) : p.IsPayload := by
  cases h with
  | payload h => exact h
  | native fn => cases hseq

theorem add_payload {p q r : Value} (hp : p.IsOperand) (hq : q.IsOperand) (h : p.add q = .ok r) :
    r.IsPayload := by
  rcases add_eq_ok h with ⟨x, y, -, -, h⟩ | ⟨s, t, -, -, rfl⟩ | ⟨xs, ys, rfl, -, -⟩ |
    ⟨xs, ys, rfl, rfl, rfl⟩
  · exact (combine_number h).payload
  · exact .text _
  · exact nomatch hp
  · -- two lists among operands are parameter lists
    obtain ⟨_ | _ | _ | ⟨hxs⟩⟩ := hp
    obtain ⟨_ | _ | _ | ⟨hys⟩⟩ := hq
    rw [← List.map_append]
    exact .names fun n hn => (List.mem_append.1 hn).elim (hxs n) (hys n)

theorem sub_payload {p q r : Value} (h : p.sub q = .ok r) : r.IsPayload := by
  unfold sub at h
  split at h
  · exact (combine_number h).payload
  · cases h

theorem mul_payload {p q r : Value} (hp : p.IsOperand) (hq : q.IsOperand) (h : p.mul q = .ok r) :
    r.IsPayload := by
  unfold mul at h
  split at h
  · exact (combine_number h).payload
  split at h
  · next hseq => exact repeatBy_payload (hp.payload_of_sequence hseq) h
  split at h
  · next hseq => exact repeatBy_payload (hq.payload_of_sequence hseq) h
  · cases h

theorem div_number {p q r : Value} (h : p.div q = .ok r) : r.IsNumber := by
  unfold div at h
  split at h
  · split at h
    · cases h
    split at h
    · exact Except.ok.inj h ▸ .float _
    · cases h
  · obtain ⟨x, -, h⟩ := Grammar.bind_eq_ok.1 h
    obtain ⟨y, -, h⟩ := Grammar.bind_eq_ok.1 h
    split at h
    · cases h
    · exact Except.ok.inj h ▸ .float _
  · cases h

end Value

/-- The four operators. -/
theorem operator?_cases {op : Value} {apply : Value → Value → Except Fault Value}
    (h : operator? op = some apply) :
    apply = Value.add ∨ apply = Value.sub ∨ apply = Value.mul ∨ apply = Value.div := by
  unfold operator? at h
  split at h
  · exact .inl (Option.some.inj h).symm
  · exact .inr (.inl (Option.some.inj h).symm)
  · exact .inr (.inr (.inl (Option.some.inj h).symm))
  · exact .inr (.inr (.inr (Option.some.inj h).symm))
  · cases h

/-- **Operators give payloads of numbers.** -/
theorem operator_payload {op p q r : Value} {apply : Value → Value → Except Fault Value}
    (hop : operator? op = some apply) (hp : p.IsOperand) (hq : q.IsOperand)
    (h : apply p q = .ok r) : r.IsPayload := by
  rcases operator?_cases hop with rfl | rfl | rfl | rfl
  · exact Value.add_payload hp hq h
  · exact Value.sub_payload h
  · exact Value.mul_payload hp hq h
  · exact (Value.div_number h).payload

end Scrawl
