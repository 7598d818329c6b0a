/-
  Scrawl.Proofs.Eval.Equality — when a program finds two values equal.

  A comparison evaluates both values once more and compares the payloads that come out, whatever their
  kinds.  Only numbers, strings and functions of the program give a payload then, and these payloads are
  floating point numbers, texts and parameter lists (`Value.Gives`), so values of different kinds are
  never found equal.  The comparison fails exactly if one of the values gives no payload, and otherwise
  finds them equal exactly if they are alike (`equals_exactly`).
-/

import Scrawl.Proofs.Eval.Control
import Scrawl.Proofs.Scope.Inner

namespace Scrawl

open Decimal (Place)
open Grammar (IsName)

/-! ## §1. Values and their payloads -/

/-- Two places are the same one if there is such a place. -/
theorem Decimal.Place.same_iff {a b : Place} : a.same b = true ↔ a = b ∧ a ≠ .undefined := by
  unfold Place.same
  rw [Bool.and_eq_true, beq_iff_eq, bne_iff_ne]

namespace Value

/-- Values that cannot be compared. -/
inductive Incomparable : Value → Prop
  /-- The value of what has no value. -/
  | nothing : Incomparable .nothing
  /-- A function of the language. -/
  | native (fn : Native) : Incomparable (.nativeValue fn)
  /-- A bare text. -/
  | text (s : String) : Incomparable (.text s)
  /-- What drawing functions give back. -/
  | blank : Incomparable .blank
  /-- A number with a payload that no floating point number can be made of. -/
  | number {p : Value} {f : Fault} (h : p.toFloat = .error f) : Incomparable (.number p)

/-- Values that count as equal. -/
inductive Alike : Value → Value → Prop
  /-- Numbers whose floating point numbers lie in one place.  A floating point number that lies nowhere
      is not even alike to itself. -/
  | number {p q : Value} {x y : Float} (hx : p.toFloat = .ok x) (hy : q.toFloat = .ok y)
      (hplace : Place.ofFloat x = Place.ofFloat y) (hdefined : Place.ofFloat x ≠ .undefined) :
      Alike (.number p) (.number q)
  /-- Strings with the same text. -/
  | string (s : String) : Alike (.string s) (.string s)
  /-- Functions with the same parameters, whatever they do and remember. -/
  | function (params body body' : Value) (home home' : ScopeId) :
      Alike (.function params body home) (.function params body' home')

/-- The payload that a value gives when it is evaluated once more. -/
inductive Gives : Value → Value → Prop
  /-- That of a number is a floating point number. -/
  | number {p : Value} {x : Float} (h : p.toFloat = .ok x) : Gives (.number p) (.float x)
  /-- That of a string is its text. -/
  | string (s : String) : Gives (.string s) (.text s)
  /-- That of a function is its parameter list. -/
  | function {names : List Value} (h : ∀ n ∈ names, IsName n) (body : Value) (home : ScopeId) :
      Gives (.function (.list (names.map symbolNode)) body home) (.list (names.map symbolNode))

/-- Every value of a program gives a payload, or cannot be compared. -/
theorem Shaped.gives_or_incomparable {k : Nat} {v : Value} (h : v.Shaped k) :
    (∃ p, v.Gives p) ∨ v.Incomparable := by
  cases h with
  | @number p _ =>
    cases hx : p.toFloat with
    | ok x => exact .inl ⟨_, .number hx⟩
    | error f => exact .inr (.number hx)
  | string s => exact .inl ⟨_, .string s⟩
  | function hnames _ _ => exact .inl ⟨_, .function hnames _ _⟩
  | nothing => exact .inr .nothing
  | native fn => exact .inr (.native fn)
  | text s => exact .inr (.text s)
  | blank => exact .inr .blank

/-- A number that cannot be compared has no floating point number. -/
theorem Incomparable.number_parts {p : Value} (h : (Value.number p).Incomparable) :
    ∃ f, p.toFloat = .error f := by
  generalize hv : Value.number p = v at h
  have htag := congrArg tag hv
  cases h with
  | number hf =>
    cases (Except.ok.inj (congrArg payload hv) : p = _)
    exact ⟨_, hf⟩
  | text s => exact text_tag_absurd (by decide) htag.symm
  | blank => exact nomatch htag
  | _ => exact tag_absurd (by decide) htag

/-- Strings and functions of the program can be compared. -/
theorem Incomparable.absurd_of_tag {v : Value} (h : v.Incomparable) {t : String}
    (htag : v.tag = .ok (.text t)) (ht : t ∉ ["none", "native", "number"])
    (hlong : t.toList.length ≠ 1) : False := by
  simp only [List.mem_cons, List.not_mem_nil, or_false, not_or] at ht
  obtain ⟨hnone, hnative, hnumber⟩ := ht
  cases h with
  | nothing => exact tag_absurd hnone htag.symm
  | native fn => exact tag_absurd hnative htag.symm
  | text s => exact text_tag_absurd hlong htag
  | blank => exact nomatch htag
  | number _ => exact tag_absurd hnumber htag.symm

section Alike

variable {v v' : Value}

/-- Values that are alike can be compared. -/
theorem Alike.comparable (h : v.Alike v') : ¬ v.Incomparable := by
  intro hnot
  cases h with
  | number hx _ _ _ =>
    obtain ⟨f, hf⟩ := hnot.number_parts
    cases hx.symm.trans hf
  | string s => exact hnot.absurd_of_tag rfl (by decide) (by decide)
  | function _ _ _ _ _ => exact hnot.absurd_of_tag rfl (by decide) (by decide)

/-- Values that are alike are of one kind. -/
theorem Alike.tag_eq (h : v.Alike v') : v.tag = v'.tag := by
  cases h with
  | number _ _ _ _ => rfl
  | string _ => rfl
  | function _ _ _ _ _ => rfl

theorem Alike.symm (h : v.Alike v') : v'.Alike v := by
  cases h with
  | number hx hy hplace hdefined => exact .number hy hx hplace.symm (hplace ▸ hdefined)
  | string s => exact .string s
  | function params body body' home home' => exact .function params body' body home' home

/-- Numbers that are alike lie in one place. -/
theorem Alike.number_parts {p q : Value} {x y : Float} (hx : p.toFloat = .ok x)
    (hy : q.toFloat = .ok y) (h : (Value.number p).Alike (.number q)) :
    Place.ofFloat x = Place.ofFloat y ∧ Place.ofFloat x ≠ .undefined := by
  generalize hv : Value.number p = v, hv' : Value.number q = v' at h
  have htag := congrArg tag hv
  cases h with
  | number hx' hy' hplace hdefined =>
    cases (Except.ok.inj (congrArg payload hv) : p = _)
    cases (Except.ok.inj (congrArg payload hv') : q = _)
    cases hx.symm.trans hx'
    cases hy.symm.trans hy'
    exact ⟨hplace, hdefined⟩
  | string _ => exact tag_absurd (by decide) htag
  | function _ _ _ _ _ => exact tag_absurd (by decide) htag

/-- Other values that are alike have the same payload. -/
theorem Alike.payload_eq (h : v.Alike v') {t : String} (htag : v.tag = .ok (.text t))
    (ht : t ≠ "number") : v.payload = v'.payload := by
  cases h with
  | number _ _ _ _ => exact tag_absurd ht htag.symm
  | string s => rfl
  | function params _ _ _ _ => rfl

end Alike

/-! ## §2. Comparing payloads -/

/-- Parameter lists are equal if they have the same names in the same order. -/
theorem equalItems_names {xs ys : List Value} (hxs : ∀ n ∈ xs, IsName n)
    (hys : ∀ n ∈ ys, IsName n) :
    equalItems (xs.map symbolNode) (ys.map symbolNode) = true
      ↔ xs.map symbolNode = ys.map symbolNode := by
  induction xs generalizing ys with
  | nil =>
    cases ys with
    | nil => exact iff_of_true rfl rfl
    | cons y ys => exact iff_of_false Bool.false_ne_true nofun
  | cons x xs ih =>
    cases ys with
    | nil => exact iff_of_false Bool.false_ne_true nofun
    | cons y ys =>
      obtain ⟨s, rfl, -⟩ := hxs x List.mem_cons_self
      obtain ⟨t, rfl, -⟩ := hys y List.mem_cons_self
      have htail := ih (fun n hn => hxs n (List.mem_cons_of_mem _ hn))
        (fun n hn => hys n (List.mem_cons_of_mem _ hn))
      have hhead : (symbolNode (.text s)).equal (symbolNode (.text t)) = (s == t) := by
        simp [symbolNode, equal, equalItems, isUndefined]
      have hdefined : isUndefined (symbolNode (.text s)) = false := rfl
      have hnode : symbolNode (.text s) = symbolNode (.text t) ↔ s = t := by
        simp [symbolNode]
      rw [List.map_cons, List.map_cons, equalItems, hhead, hdefined, Bool.false_and, Bool.or_false,
        Bool.and_eq_true, beq_iff_eq, htail, List.cons.injEq, hnode]

/-- **Payloads are equal exactly if the values are alike.**  Payloads of different kinds never are. -/
theorem Gives.equal_iff {v v' p p' : Value} (h : v.Gives p) (h' : v'.Gives p') :
    p.equal p' = true ↔ v.Alike v' := by
  have hmixed : v.tag ≠ v'.tag → p.equal p' = false → (p.equal p' = true ↔ v.Alike v') :=
    fun htag hequal => iff_of_false (Bool.eq_false_iff.1 hequal) fun halike => htag halike.tag_eq
  cases h with
  | @number n x hx =>
    cases h' with
    | @number n' y hy =>
      have hequal : (Value.float x).equal (.float y) = (Place.ofFloat x).same (Place.ofFloat y) := rfl
      rw [hequal, Place.same_iff]
      exact ⟨fun hsame => .number hx hy hsame.1 hsame.2, Alike.number_parts hx hy⟩
    | string t => exact hmixed (fun htag => tag_absurd (by decide) htag) rfl
    | function _ _ _ => exact hmixed (fun htag => tag_absurd (by decide) htag) rfl
  | string s =>
    cases h' with
    | number hy => exact hmixed (fun htag => tag_absurd (by decide) htag) rfl
    | string t =>
      have hequal : (Value.text s).equal (.text t) = (s == t) := rfl
      rw [hequal, beq_iff_eq]
      constructor
      · rintro rfl
        exact .string s
      · intro halike
        exact Value.text.inj (Except.ok.inj (halike.payload_eq rfl (by decide)))
    | function _ _ _ => exact hmixed (fun htag => tag_absurd (by decide) htag) rfl
  | @function xs hxs body home =>
    cases h' with
    | number hy => exact hmixed (fun htag => tag_absurd (by decide) htag) rfl
    | string t => exact hmixed (fun htag => tag_absurd (by decide) htag) rfl
    | @function ys hys body' home' =>
      rw [equal, equalItems_names hxs hys]
      constructor
      · intro hnames
        rw [hnames]
        exact .function _ body body' home home'
      · intro halike
        exact Value.list.inj (Except.ok.inj (halike.payload_eq rfl (by decide)))

end Value

/-! ## §3. Comparing values -/

/-- There is room in a world for making scopes inside `e`. -/
structure World.Fits (w : World) (room : Room) (e : ScopeId) : Prop where
  /-- Its scopes are in order. -/
  standing : w.Standing
  /-- The scope is one of them. -/
  inside : e < w.forest.size
  /-- There is room. -/
  room : room.holds (1 + w.scopeLevels (some e)) = true

section Comparing

variable {rules : Rules} {room : Room} {e : ScopeId} {w : World} {v v' p p' : Value}

theorem World.Fits.look (h : w.Fits room e) : room.holds 1 = true :=
  Room.holds_of_le h.room (Nat.le_add_right _ _)

/-- A scope can be made then, and another one after it. -/
theorem World.Fits.makeScope (h : w.Fits room e) (rules : Rules) (hrules : rules.restores = true) :
    ∃ u, makeScope rules (room.below 1) (some e) w = .ok w.forest.size u ∧ u.Fits room e := by
  have hroom : (room.below 1).holds (w.scopeLevels (some e)) = true := by
    have hlevels := room.holds_add 1 (w.scopeLevels (some e))
    rw [h.room, h.look, Bool.true_and] at hlevels
    exact hlevels.symm
  obtain ⟨u, hmade, hscope⟩ := h.standing.exists_scope hrules h.inside hroom
  have hlevels : u.scopeLevels (some e) = w.scopeLevels (some e) := by
    unfold World.scopeLevels
    rw [hscope.aside]
    dsimp only
    rw [hscope.chain_eq h.standing.ordered h.inside h.inside]
  refine ⟨u, hmade, ?_, ?_, hlevels ▸ h.room⟩
  · rw [(makeScope_eq_ok hmade).2.2]
    exact Change.standing (.scope (fun _ hp => Option.some.inj hp ▸ h.inside) rfl rfl) h.standing
  · rw [hscope.size]
    exact Nat.lt_succ_of_lt h.inside

/-- A value gives its payload. -/
theorem Value.Gives.evalPayload (h : v.Gives p) (hrules : rules.restores = true)
    (hw : w.Fits room e) (depth : Nat) :
    ∃ u, evalPayload (eval rules (depth + 1)) room e v w = .ok p u ∧ u.Fits room e := by
  cases h with
  | number hx => exact ⟨w, evalPayload_number hx hw.look, hw⟩
  | string s => exact ⟨w, evalPayload_string s hw.look, hw⟩
  | function _ body home =>
    obtain ⟨u, hmade, hu⟩ := hw.makeScope rules hrules
    refine ⟨u, ?_, hu⟩
    unfold Scrawl.evalPayload
    rw [eval_function_again hw.look, bind_assoc]
    exact Run.bind_of_ok hmade _

/-- A value that cannot be compared gives none. -/
theorem Value.Incomparable.evalPayload (h : v.Incomparable) (rules : Rules)
    (hroom : room.holds 1 = true) (depth : Nat) (e : ScopeId) (w : World) :
    ∃ f, evalPayload (eval rules (depth + 1)) room e v w = .error f w := by
  unfold Scrawl.evalPayload
  cases h with
  | nothing =>
    rw [eval_nothing hroom]
    exact ⟨_, rfl⟩
  | native fn => exact ⟨_, Run.bind_of_error (eval_native hroom fn w) _⟩
  | text s => exact ⟨_, Run.bind_of_error (eval_text hroom s w) _⟩
  | blank => exact ⟨_, Run.bind_of_error (eval_blank hroom w) _⟩
  | number hf =>
    rw [eval_number hroom, hf]
    exact ⟨_, rfl⟩

/-- A comparison, as the function of the language makes it that is called in the scope `e`. -/
def comparison (rules : Rules) (depth : Nat) (room : Room) (e : ScopeId) (v v' : Value) : Run Datum :=
  Native.equals.apply rules (eval rules depth) room e [v, v']

theorem comparison_eq (rules : Rules) (depth : Nat) (room : Room) (e : ScopeId) (v v' : Value) :
    comparison rules depth room e v v'
      = (do let p ← evalPayload (eval rules depth) room e v
            let p' ← evalPayload (eval rules depth) room e v'
            return .plain (.number (.int (if p.equal p' then 1 else 0))) : Run Datum) :=
  rfl

/-- Values that give payloads are compared by these. -/
theorem comparison_of_gives (hv : v.Gives p) (hv' : v'.Gives p') (hrules : rules.restores = true)
    (hw : w.Fits room e) (depth : Nat) :
    ∃ u, comparison rules (depth + 1) room e v v' w
      = .ok (.plain (.number (.int (if p.equal p' then 1 else 0)))) u := by
  obtain ⟨u, heval, hu⟩ := hv.evalPayload hrules hw depth
  obtain ⟨u', heval', -⟩ := hv'.evalPayload hrules hu depth
  rw [comparison_eq]
  exact ⟨u', (Run.bind_of_ok heval _).trans (Run.bind_of_ok heval' _)⟩

/-- A comparison with a value that gives none fails. -/
theorem comparison_of_incomparable {k : Nat} (hv : v.Shaped k)
    (h : v.Incomparable ∨ v'.Incomparable) (hrules : rules.restores = true) (hw : w.Fits room e)
    (depth : Nat) : ∃ f u, comparison rules (depth + 1) room e v v' w = .error f u := by
  rw [comparison_eq]
  by_cases hnone : v.Incomparable
  · obtain ⟨f, hfails⟩ := hnone.evalPayload rules hw.look depth e w
    exact ⟨f, w, Run.bind_of_error hfails _⟩
  · -- the first value gives its payload, so it is the second one that gives none
    obtain ⟨p, hp⟩ := hv.gives_or_incomparable.resolve_right hnone
    obtain ⟨u, heval, hu⟩ := hp.evalPayload hrules hw depth
    obtain ⟨f, hfails⟩ := (h.resolve_left hnone).evalPayload rules hu.look depth e u
    exact ⟨f, u, (Run.bind_of_ok heval _).trans (Run.bind_of_error hfails _)⟩

/-- How a comparison of two values comes out. -/
inductive Verdict (v v' : Value) : EStateM.Result Fault World Datum → Prop
  /-- It fails if one of them cannot be compared. -/
  | fails (h : v.Incomparable ∨ v'.Incomparable) (f : Fault) (u : World) : Verdict v v' (.error f u)
  /-- It gives one if they are alike. -/
  | equal (h : v.Alike v') (u : World) : Verdict v v' (.ok (.plain (.number (.int 1))) u)
  /-- It gives zero in all other cases. -/
  | different (hv : ¬ v.Incomparable) (hv' : ¬ v'.Incomparable) (h : ¬ v.Alike v') (u : World) :
      Verdict v v' (.ok (.plain (.number (.int 0))) u)

/-- **Every comparison of values of a program comes out like that.** -/
theorem comparison_verdict {k k' : Nat} (hv : v.Shaped k) (hv' : v'.Shaped k')
    (hrules : rules.restores = true) (hw : w.Fits room e) (depth : Nat) :
    Verdict v v' (comparison rules (depth + 1) room e v v' w) := by
  by_cases hnone : v.Incomparable ∨ v'.Incomparable
  · obtain ⟨f, u, hfails⟩ := comparison_of_incomparable hv hnone hrules hw depth
    rw [hfails]
    exact .fails hnone f u
  · rw [not_or] at hnone
    obtain ⟨p, hp⟩ := hv.gives_or_incomparable.resolve_right hnone.1
    obtain ⟨p', hp'⟩ := hv'.gives_or_incomparable.resolve_right hnone.2
    obtain ⟨u, hgives⟩ := comparison_of_gives hp hp' hrules hw depth
    rw [hgives]
    by_cases hequal : p.equal p' = true
    · rw [if_pos hequal]
      exact .equal ((hp.equal_iff hp').1 hequal) u
    · rw [if_neg hequal]
      exact .different hnone.1 hnone.2 (fun halike => hequal ((hp.equal_iff hp').2 halike)) u

end Comparing

namespace Verdict

variable {v v' : Value} {r r' : EStateM.Result Fault World Datum}

theorem error_iff (h : Verdict v v' r) :
    (∃ f u, r = .error f u) ↔ v.Incomparable ∨ v'.Incomparable := by
  cases h with
  | fails h f u => exact iff_of_true ⟨f, u, rfl⟩ h
  | equal h u => exact iff_of_false nofun (not_or.2 ⟨h.comparable, h.symm.comparable⟩)
  | different hv hv' _ u => exact iff_of_false nofun (not_or.2 ⟨hv, hv'⟩)

theorem one_iff (h : Verdict v v' r) :
    (∃ u, r = .ok (.plain (.number (.int 1))) u) ↔ v.Alike v' := by
  cases h with
  | fails h f u =>
    exact iff_of_false nofun fun halike => h.elim halike.comparable halike.symm.comparable
  | equal h u => exact iff_of_true ⟨u, rfl⟩ h
  | different _ _ h u => exact iff_of_false nofun h

theorem zero_iff (h : Verdict v v' r) :
    (∃ u, r = .ok (.plain (.number (.int 0))) u)
      ↔ ¬ (v.Incomparable ∨ v'.Incomparable) ∧ ¬ v.Alike v' := by
  cases h with
  | fails h f u => exact iff_of_false nofun fun hnot => hnot.1 h
  | equal h u => exact iff_of_false nofun fun hnot => hnot.2 h
  | different hv hv' h u => exact iff_of_true ⟨u, rfl⟩ ⟨not_or.2 ⟨hv, hv'⟩, h⟩

/-- The order of the values does not matter. -/
theorem symmetric (h : Verdict v v' r) (h' : Verdict v' v r') {d d' : Datum} {u u' : World}
    (hd : r = .ok d u) (hd' : r' = .ok d' u') : d = d' := by
  subst hd hd'
  cases h with
  | equal h _ =>
    cases h' with
    | equal _ _ => rfl
    | different _ _ hnot _ => exact absurd h.symm hnot
  | different _ _ hnot _ =>
    cases h' with
    | equal h _ => exact absurd h.symm hnot
    | different _ _ _ _ => rfl

end Verdict

/-- **Comparisons, exactly**, at any moment of what a host does and in any scope, for any two values that
    programs can compute.  A comparison fails if and only if one of the values is nothing, a function of
    the language, a bare text, what drawing functions give back, or a number that no floating point number
    can be made of.  Otherwise it gives one if and only if they are alike, which only values of one kind
    are, and zero in every other case.  Both orders give the same whenever both give something. -/
theorem equals_exactly {scopeText : String} {files : FileTree} {cues : List Stage.Cue} {w : World}
    (h : Midway (World.empty scopeText files cues) w) {e : ScopeId} (he : e < w.forest.size)
    {v v' : Value} (hv : v.Computed) (hv' : v'.Computed) (rounds depth : Nat) (libraries : Libraries)
    {room : Room} (hroom : room.holds (1 + w.scopeLevels (some e)) = true) :
    ((∃ f u, comparison { rounds, restores := true, libraries } (depth + 1) room e v v' w = .error f u)
        ↔ v.Incomparable ∨ v'.Incomparable) ∧
      ((∃ u, comparison { rounds, restores := true, libraries } (depth + 1) room e v v' w
          = .ok (.plain (.number (.int 1))) u) ↔ v.Alike v') ∧
      ((∃ u, comparison { rounds, restores := true, libraries } (depth + 1) room e v v' w
          = .ok (.plain (.number (.int 0))) u)
        ↔ ¬ (v.Incomparable ∨ v'.Incomparable) ∧ ¬ v.Alike v') ∧
      (v.Alike v' → v.tag = v'.tag) ∧
      ∀ d d' u u', comparison { rounds, restores := true, libraries } (depth + 1) room e v v' w = .ok d u →
        comparison { rounds, restores := true, libraries } (depth + 1) room e v' v w = .ok d' u' →
          d = d' := by
  have hfits : w.Fits room e := ⟨h.lawful.2, he, hroom⟩
  have hrules : Rules.restores { rounds, restores := true, libraries } = true := rfl
  obtain ⟨k, hshaped⟩ := hv.shaped
  obtain ⟨k', hshaped'⟩ := hv'.shaped
  have hverdict := comparison_verdict hshaped hshaped' hrules hfits depth
  have hverdict' := comparison_verdict hshaped' hshaped hrules hfits depth
  exact ⟨hverdict.error_iff, hverdict.one_iff, hverdict.zero_iff, Value.Alike.tag_eq,
    fun _ _ _ _ => hverdict.symmetric hverdict'⟩

/-- A function equals itself, where a program has set a name of the language. -/
theorem idle_equals_itself :
    (Value.function (.list []) (.list []) 1).Computed ∧
      ∃ u, comparison .standard 3 .unlimited 1 (.function (.list []) (.list []) 1)
        (.function (.list []) (.list []) 1) (settingWorld "print" "x")
          = .ok (.plain (.number (.int 1))) u := by
  have hmidway : Midway (World.empty "" ⟨[]⟩ []) (settingWorld "print" "x") :=
    .between (settingWorld_history "print" "x")
  have hinside : 1 < (settingWorld "print" "x").forest.size := by decide +kernel
  have hroom : ∀ n, Room.unlimited.holds n = true := fun _ => rfl
  have halike : (Value.function (.list []) (.list []) 1).Alike (.function (.list []) (.list []) 1) :=
    .function _ _ _ _ _
  exact ⟨idle_computed, (equals_exactly hmidway hinside idle_computed idle_computed
    Rules.standard.rounds 2 .idle (hroom _)).2.1.2 halike⟩

end Scrawl
