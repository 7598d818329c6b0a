/-
  Scrawl.Proofs.Value.Tags — the tags of nodes and values.

  A tag is a text, and each of the tags that evaluation knows has its own.  A bare text has
  characters for items, so its tag is none of them.
-/

import Scrawl.Eval.Node

namespace Scrawl

/-! ## §1. The texts of tags -/

/-- The text of a tag. -/
def Tag.text : Tag → String
  | .number => "number"
  | .string => "string"
  | .none => "none"
  | .operation => "operation"
  | .symbol => "symbol"
  | .assignment => "assignment"
  | .call => "call"
  | .function => "function"

/-- A value is a tag only as the text of that tag. -/
theorem Tag.of?_eq_some {v : Value} {tag : Tag} (h : Tag.of? v = some tag) : v = .text tag.text := by
  unfold Tag.of? at h
  split at h <;> first | (obtain rfl := Option.some.inj h; rfl) | exact nomatch h

/-- A value that is a given text is that text. -/
theorem Value.eq_of_isText {v : Value} {s : String} (h : v.isText s = true) : v = .text s := by
  unfold Value.isText at h
  split at h
  · rw [eq_of_beq h]
  · cases h

/-! ## §2. Telling tags apart -/

/-- The items of a bare text are its characters. -/
theorem Value.item_text {s : String} {i : Nat} {p : Value} (h : (Value.text s).item i = .ok p) :
    ∃ c, p = .text (String.singleton c) := by
  have hpick : Value.pick "string" (Value.characters s) i = .ok p := h
  unfold Value.pick at hpick
  split at hpick
  · next v hv =>
    obtain rfl := Except.ok.inj hpick
    obtain ⟨c, -, rfl⟩ := List.mem_map.1 (List.mem_of_getElem? hv)
    exact ⟨c, rfl⟩
  · cases hpick

/-- Two different texts are no one tag. -/
theorem tag_absurd {P : Prop} {s t : String} (hne : s ≠ t)
    (htag : (Except.ok (Value.text s) : Except Fault Value) = .ok (.text t)) : P :=
  absurd (Value.text.inj (Except.ok.inj htag)) hne

/-- The tag of a bare text is a single character. -/
theorem text_tag_absurd {P : Prop} {s t : String} (ht : t.toList.length ≠ 1)
    (htag : (Value.text s).tag = .ok (.text t)) : P := by
  obtain ⟨c, hc⟩ := Value.item_text htag
  obtain rfl := Value.text.inj hc
  rw [String.toList_singleton] at ht
  exact absurd rfl ht

/-! ## §3. Nodes written out -/

/-- A call by name. -/
def namedCall (name : String) (args : List Value) : Value :=
  .callNode (.symbolNode (.text name)) (.list args)

/-- Sets a name to what a node gives. -/
def setNode (name : String) (node : Value) : Value :=
  .tuple [.text "assignment", .symbolNode (.text name), node]

/-- A function literal. -/
def functionNode (params : List String) (body : List Value) : Value :=
  .tuple [.text "function", .list (params.map fun name => .symbolNode (.text name)), .list body]

end Scrawl
