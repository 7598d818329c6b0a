/-
  Scrawl.Proofs.Eval.Packed — a packed program runs like its source.

  The statements that are loaded from a packed program are those of its source with lists for
  tuples.  Running them goes in lockstep with running the source (`packedSimulation`), unless code
  is shown to a function of the language that could tell tuples from lists.
-/

import Scrawl.Command
import Scrawl.Proofs.Codec.RoundTrip
import Scrawl.Proofs.Eval.Evolution
import Scrawl.Proofs.Eval.PackedWorlds

namespace Scrawl

open Grammar (IsName Program Tree)

/-! ## §1. Code as a value -/

/-- Whether a value is a function of the program, or a number made from parameter lists. -/
def Value.holdsCode : Value → Bool
  | .tuple [.text "function", _, _, _] => true
  | .tuple [.text "number", .list _] => true
  | _ => false

/-- What could tell a packed program from its source: running another file, and giving code to a
    function of the language that does more than control the run. -/
def Action.showsCode : Action → Bool
  | .call fn args => !fn.isControl && args.any Value.holdsCode
  | .source _ => true
  | .load _ => false

/-- What is given to functions of the language where no code is shown. -/
theorem Action.codeless {fn : Native} {args : List Value}
    (h : ¬ Action.showsCode (.call fn args) = true) (hfn : fn.isControl = false) :
    ∀ a ∈ args, a.holdsCode = false := by
  simpa [Action.showsCode, hfn] using h

/-- A value that is the same in a packed program. -/
def Value.Codeless (v : Value) : Prop := (∃ k, v.Shaped k) ∧ v.holdsCode = false

theorem Value.Codeless.packed_eq {v : Value} (h : v.Codeless) : v.packed = v := by
  obtain ⟨⟨k, hshaped⟩, hcode⟩ := h
  cases hshaped with
  | number h =>
    cases h with
    | names _ => exact nomatch hcode
    | _ => rfl
  | function _ _ _ => exact nomatch hcode
  | _ => rfl

/-- Only numbers, strings and nothing can be evaluated again without looking a name up, making a
    call or making a scope. -/
theorem Value.Codeless.tag_cases {v tag : Value} {t : Tag} (h : v.Codeless)
    (htag : v.tag = .ok tag) (ht : Tag.of? tag = some t) :
    t = .number ∨ t = .string ∨ t = .none := by
  obtain ⟨⟨k, hshaped⟩, hcode⟩ := h
  cases hshaped with
  | number h =>
    obtain rfl := Except.ok.inj htag
    exact .inl (Option.some.inj ht).symm
  | string s =>
    obtain rfl := Except.ok.inj htag
    exact .inr (.inl (Option.some.inj ht).symm)
  | nothing =>
    obtain rfl := Except.ok.inj htag
    exact .inr (.inr (Option.some.inj ht).symm)
  | native fn =>
    obtain rfl := Except.ok.inj htag
    exact nomatch ht
  | text s =>
    rw [Tag.of?_eq_some ht] at htag
    exact text_tag_absurd (by cases t <;> decide) htag
  | blank =>
    obtain rfl := Except.ok.inj htag
    exact nomatch ht
  | function _ _ _ => exact nomatch hcode

/-! ## §2. The simulation -/

/-- Running a source, with showing code refused, and running the packed program. -/
def packedRelations (rules : Rules) (f : Fault) : Relations where
  toComparison := packedComparison f
  rules := rules.refusing Action.showsCode f
  rules' := rules
  scope k e := e < k.size
  home k e := e < k.size
  value := Value.Packs
  node := Twin
  payload p p' := p.IsOperand ∧ p' = p.listed
  plain := Value.Codeless
  assignable := IsName

/-- **Packed programs simulate their sources.** -/
def packedSimulation (rules : Rules) (hrefuses : ∀ action, rules.refuses action = none)
    (hlibraries : rules.libraries.Inert) (f : Fault) : Simulation where
  toRelations := packedRelations rules f
  fault_refl := .same
  rounds_eq := rfl
  node_tag h := h.tag _ .same
  node_writable h := h.isWritable_eq
  node_arity _ _ _ _ := .arity _ _ _ _
  node_number h htag := h.number _ .same htag
  node_string h htag := h.string _ htag
  node_operation h htag := h.operation _ htag
  node_symbol h htag := h.symbol _ htag
  node_assignment h htag := h.assignment _ htag
  node_call h htag := h.call _ htag
  node_function h htag := h.function _ htag
  node_value h := by
    obtain ⟨h, rfl⟩ := h
    exact .value h
  node_block h := by
    obtain ⟨h, rfl⟩ := h
    exact .block h
  node_news _ _ h := .news h
  value_mono hij h := ⟨h.1.mono (Forest.size_le_of_le hij), h.2⟩
  value_isNil h := by
    obtain ⟨h, rfl⟩ := h
    cases h <;> rfl
  value_payload h := by
    obtain ⟨h, rfl⟩ := h
    exact h.payload_packed _ .same
  value_operate := by
    rintro op apply p _ q _ hop ⟨hp, rfl⟩ ⟨hq, rfl⟩
    rw [operator_listed hop hp hq]
    cases h : apply p q with
    | error g => exact .error (.same g)
    | ok r => exact .ok fun k => ⟨.number (operator_payload hop hp hq h), rfl⟩
  payload_isOne := by
    rintro p _ ⟨hp, rfl⟩
    exact Value.isOne_listed hp
  payload_equal := by
    rintro p _ q _ ⟨hp, rfl⟩ ⟨hq, rfl⟩
    exact Value.equal_listed hp hq
  value_float _ x := ⟨.number (.float x), rfl⟩
  value_int _ i := ⟨.number (.int i), rfl⟩
  value_string _ s := ⟨.string s, rfl⟩
  value_text _ s := ⟨.text s, rfl⟩
  value_nothing _ := ⟨.nothing, rfl⟩
  value_blank _ := ⟨.blank, rfl⟩
  value_function := by
    rintro k v _ ⟨h, rfl⟩ htag
    obtain ⟨names, body, home, rfl, hnames, hbody, hhome⟩ := h.function_parts htag
    refine ⟨.ok ⟨?_, ?_⟩, .ok ?_, home, rfl, rfl, hhome⟩
    · rw [Value.listed_list]
      exact .ok (List.length_map _).symm
    · rw [Value.listed_list]
      exact .ok (names_listed _ hnames)
    · show Comparison.Matches _ _ _ _
      rw [Value.listed_list]
      exact .ok (Twin.list hbody)
  value_native := by
    rintro k v _ ⟨h, rfl⟩ htag
    obtain ⟨fn, rfl⟩ := h.native_parts htag
    exact .ok rfl
  plain_eq h hplain := h.2.trans hplain.packed_eq
  plain_float x := ⟨⟨0, .number (.float x)⟩, rfl⟩
  plain_string s := ⟨⟨0, .string s⟩, rfl⟩
  plain_nothing := ⟨⟨0, .nothing⟩, rfl⟩
  plain_tag h htag ht := by
    rcases h.tag_cases htag ht with h | h | h
    · exact .inl h
    · exact .inr (.inl h)
    · exact .inr (.inr (.inl h))
  scope_mono hij h := Forest.lt_size_of_le hij h
  home_mono hij h := Forest.lt_size_of_le hij h
  remembered_mono hij h := Forest.lt_size_of_le hij h
  home_scope h := h
  remembered_scope h := h
  world_same h := by
    obtain ⟨rfl, -⟩ := h
    exact ⟨rfl, rfl, rfl⟩
  world_print _ h := by
    obtain ⟨rfl, h⟩ := h
    exact ⟨rfl, { h with }⟩
  world_homes _ _ _ h _ _ hwindow := h.2.homes hwindow
  world_stage stage h hhomes := by
    obtain ⟨rfl, h⟩ := h
    exact ⟨rfl, { h with homes := fun hwindow => hhomes _ _ hwindow }⟩
  lookup_lockstep room name _ := packed_lookup room name
  assign_lockstep room _ hkey hd := packed_assign room hkey hd
  makeScope_lockstep room _ := packed_makeScope room rfl _
  load_lockstep _ _ text :=
    .permit (.inr ⟨hrefuses _, hrefuses _, packed_load hlibraries text⟩)
  permits := by
    intro k args args' fn hargs
    have hshaped : ∀ a ∈ args, a.Shaped k.size := ((List.forall₂_and_left _ _).1 hargs).1
    by_cases hshows : Action.showsCode (.call fn args) = true
    · exact .inl (.leaves (if_pos hshows) fun _ _ _ _ => rfl)
    · refine .inr ⟨(if_neg hshows).trans (hrefuses _), hrefuses _, fun hcontrol a ha => ?_⟩
      exact ⟨⟨k.size, hshaped a ha⟩, Action.codeless hshows hcontrol a ha⟩
  source _ _ := .inl (.leaves rfl fun _ _ _ _ => rfl)

/-! ## §3. Loading packed programs -/

theorem Value.IsData.symbolNode {name : Value} (h : IsName name) : (symbolNode name).IsData := by
  obtain ⟨s, rfl, -⟩ := h
  exact .tuple (by simp [IsData.text])

theorem Value.IsData.optionToValue {t : Option Tree} (h : ∀ u ∈ t, u.toValue.IsData) :
    (Tree.optionToValue t).IsData := by
  cases t with
  | none => exact .nil
  | some t => exact h t rfl

theorem Value.IsData.listToValues {trees : List Tree} (h : ∀ t ∈ trees, t.toValue.IsData) :
    Value.IsData (.list (Tree.listToValues trees)) := by
  rw [Tree.listToValues_eq_map]
  exact .list (List.forall_mem_map.2 h)

/-- The nodes of statements are data. -/
theorem Grammar.Tree.Grammatical.isData {grade : Grammar.Grade} {t : Tree}
    (h : t.Grammatical grade) : t.toValue.IsData := by
  induction h with
  | number _ => exact .tuple (by simp [Value.IsData.text])
  | string _ => exact .tuple (by simp [Value.IsData.text])
  | symbol hname => exact .symbolNode hname
  | function hparams _ ih =>
    have hnames := Value.IsData.list
      (List.forall_mem_map.2 fun p hp => Value.IsData.symbolNode (hparams p hp))
    exact .tuple (by simp [Value.IsData.text, hnames, Value.IsData.listToValues ih])
  | call _ _ ihcallee ihargs =>
    exact .tuple (by simp [Value.IsData.text, Value.IsData.optionToValue ihcallee,
      Value.IsData.listToValues ihargs])
  | operand _ ih => exact ih
  | operation _ _ _ ihleft ihright =>
    exact .tuple (by simp [Value.IsData.text, Value.IsData.optionToValue ihleft,
      Value.IsData.optionToValue ihright])
  | assignment hname _ ih =>
    exact .tuple (by simp [Value.IsData.text, Value.IsData.symbolNode hname,
      Value.IsData.optionToValue ih])

/-- **Statements come back from their packed form with lists for tuples**, if whatever reads them goes
    as deep as they are nested. -/
theorem read_packed_statements (text : String) {depth : Nat}
    (h : (Value.list (Program.ofText grammarDepth text).nodes).nesting ≤ depth) :
    (Library.unpack (Command.packStatements (Program.ofText grammarDepth text).nodes)
        >>= Json.read depth)
      = .ok (.list ((Program.ofText grammarDepth text).nodes.map Value.listed)) := by
  have hdata : Value.IsData (.list (Program.ofText grammarDepth text).nodes) :=
    .listToValues fun t ht => (Grammar.ofText_grammatical _ text t ht).isData
  unfold Command.packStatements
  rw [Library.unpack_pack]
  exact (Json.read_write (hdata _ h)).trans (congrArg _ (Value.listed_list _))

/-- So packed programs are read unless they are nested too deeply. -/
theorem unpackStatements_packStatements (text : String)
    (h : (Value.list (Program.ofText grammarDepth text).nodes).nesting ≤ Command.dataDepth) :
    Command.unpackStatements (Command.packStatements (Program.ofText grammarDepth text).nodes)
      = .ok (.list ((Program.ofText grammarDepth text).nodes.map Value.listed)) :=
  read_packed_statements text h

/-! ## §4. Running packed programs -/

/-- The outcome of a packed program: the world of its source with all values packed, and the value
    of its source packed, or a fault of the same kind. -/
inductive PackedOutcome : EStateM.Result Fault World Datum → EStateM.Result Fault World Datum → Prop
  /-- Both give a value. -/
  | ok (d : Datum) (w : World) : PackedOutcome (.ok d w) (.ok (d.map Value.packed) w.packed)
  /-- Both end with a fault. -/
  | error {f g : Fault} (h : f.Alike g) (w : World) : PackedOutcome (.error f w) (.error g w.packed)

/-- Evaluating packed statements goes in lockstep with evaluating statements, until code is
    shown. -/
theorem packed_evalItems (rules : Rules) (hrefuses : ∀ action, rules.refuses action = none)
    (hlibraries : rules.libraries.Inert) (f : Fault) (depth : Nat) (room : Room)
    {statements : List Tree} (h : ∀ t ∈ statements, t.Grammatical .expression) {e : ScopeId} {w : World}
    (hw : w.WellShaped) (he : e < w.forest.size) :
    (packedComparison f).Agrees w.forest (packedRelations rules f).datum
      (evalItems (eval (rules.refusing Action.showsCode f) depth) room e
        (.list (Tree.listToValues statements)) w)
      (evalItems (eval rules depth) room e
        (.list ((Tree.listToValues statements).map Value.listed)) w.packed) := by
  have hnodes : (packedRelations rules f).nodes (.list (Tree.listToValues statements))
      (.list ((Tree.listToValues statements).map Value.listed)) := .ok (Twin.list h)
  have heval := (packedSimulation rules hrefuses hlibraries f).eval_lockstep (fun h => h) depth
  exact (packedSimulation rules hrefuses hlibraries f).evalItems_lockstep heval he room hnodes w
    w.packed ⟨rfl, hw⟩ le_rfl

/-- Worlds in which nothing has happened are the same for a packed program. -/
theorem World.packed_empty (scopeText : String) (files : FileTree) (cues : List Stage.Cue) :
    World.empty scopeText files cues = (World.empty scopeText files cues).packed := by
  unfold World.packed World.empty
  rw [Forest.mapValues_empty]

/-- **A packed program runs like its source.**  Take a text without fault, and statements that are
    loaded from its packed form.  They are those of the text with lists for tuples.  Run both in a
    fresh outermost scope, to any depth, with any number of rounds for loops, and with enough room
    to read the text.  If the run of the text runs no other file, and gives code to no function of
    the language other than `if`, `while` and `equals`, then both end alike: the same has been
    printed and drawn, the same scopes have been made, and all values are the same up to lists for
    tuples in code.  Both may load the drawing library, and others that do nothing but succeed or
    fail. -/
theorem packed_runs_like_source {text : String} (rounds depth : Nat) {libraries : Libraries}
    (hlibraries : libraries.Inert) (room : Room)
    (hfault : (Program.ofText grammarDepth text).fault = none)
    (hnesting : (Value.list (Program.ofText grammarDepth text).nodes).nesting ≤ Command.dataDepth)
    (hroom : room.holds (2 + readingLevels) = true)
    {scopeText : String} {files : FileTree} {cues : List Stage.Cue} {e : ScopeId} {w : World}
    (hfresh : makeScope { rounds, restores := true, libraries } room none
      (World.empty scopeText files cues) = .ok e w)
    (havoids : Avoids Action.showsCode { rounds, restores := true, libraries }
      (fun rules => runText (eval rules depth) room e text) w) :
    ∃ tree, Command.unpackStatements (Command.packStatements
          (Program.ofText grammarDepth text).nodes) = .ok tree ∧
      tree = .list ((Program.ofText grammarDepth text).nodes.map Value.listed) ∧
      PackedOutcome (runText (eval { rounds, restores := true, libraries } depth) room e text w)
        (evalItems (eval { rounds, restores := true, libraries } depth) room e tree w) := by
  refine ⟨_, unpackStatements_packStatements text hnesting, rfl, ?_⟩
  -- the fresh world is its own packed form
  have hstart : (packedComparison .endless).Agrees .empty (fun j a b => a = b ∧ a < j.size)
      (makeScope { rounds, restores := true, libraries } room none
        (World.empty scopeText files cues))
      (makeScope { rounds, restores := true, libraries } room none
        (World.empty scopeText files cues)) :=
    packed_makeScope room rfl none _ _
      ⟨World.packed_empty scopeText files cues, World.wellShaped_empty scopeText files cues⟩
      le_rfl
  rw [hfresh] at hstart
  cases hstart with
  | ok hw _ he =>
    obtain ⟨hpacked, hshaped⟩ := hw
    have hagrees : ∀ f, (packedComparison f).Agrees w.forest
        (fun k d d' => Value.Packs k d.value d'.value ∧ d'.mark = d.mark)
        (runText (eval { rounds, restores := true, libraries } depth) room e text w)
        (evalItems (eval { rounds, restores := true, libraries } depth) room e
          (.list ((Program.ofText grammarDepth text).nodes.map Value.listed)) w) := by
      intro f
      have hrun := packed_evalItems { rounds, restores := true, libraries } (fun _ => rfl)
        hlibraries f depth room (Grammar.ofText_grammatical grammarDepth text) hshaped he.2
      have hrefused : runText (eval (Rules.refusing _ Action.showsCode f) depth) room e text w
          = runText (eval { rounds, restores := true, libraries } depth) room e text w := havoids f
      rw [← hrefused, runText_eq_evalItems _ e hroom hfault]
      rw [← hpacked] at hrun
      exact hrun
    have hsettled := Comparison.Agrees.settle hagrees
    generalize runText _ room e text w = r at hsettled ⊢
    generalize evalItems _ room e _ w = r' at hsettled ⊢
    cases hsettled with
    | ok hworld _ hd =>
      obtain ⟨⟨-, hvalue⟩, hmark⟩ := hd
      obtain ⟨rfl, -⟩ := hworld
      obtain rfl := Datum.eq_map hvalue hmark
      exact .ok _ _
    | error hworld _ hfault =>
      obtain ⟨rfl, -⟩ := hworld
      exact .error hfault _
    | escape hescape => exact hescape.elim

/-- A program that compares a function with itself, and calls another one if they are equal. -/
def comparingSource : String :=
  "f = \x7b : ( a ) a ; \x7d ; if ( equals ( f , f ) , \x7b print ( 'yes' ) ; \x7d , f ) ;"

/-- Its statements. -/
def comparingStatements : List Tree :=
  [.assignment (.text "f") (some (.function [.text "a"] [.symbol (.text "a")])),
    .call (some (.symbol (.text "if")))
      [.call (some (.symbol (.text "equals"))) [.symbol (.text "f"), .symbol (.text "f")],
        .function [] [.call (some (.symbol (.text "print"))) [.string (.text "yes")]],
        .symbol (.text "f")]]

theorem comparingSource_read :
    Program.ofText grammarDepth comparingSource = ⟨comparingStatements, none⟩ := by
  cbv

/-- A world with one scope. -/
def freshWorld : World :=
  { World.empty "" ⟨[]⟩ [] with
    forest := Forest.empty.newScope { rounds := 1, restores := true, libraries := .idle } [] none }

/-- The program shows no code: with that refused, it still runs to its end. -/
theorem comparingSource_avoids :
    Avoids Action.showsCode { rounds := 1, restores := true, libraries := .idle }
      (fun rules => runText (eval rules 12) .unlimited 0 comparingSource) freshWorld := by
  have hrooted : freshWorld.Rooted :=
    (evolution_newScope (World.rooted_empty "" ⟨[]⟩ []) .refl _
      fun p hp => nomatch (hp : none = some p)).1
  have hsize : 0 < freshWorld.forest.size := by
    unfold freshWorld
    rw [Forest.size_newScope]
    exact Nat.succ_pos _
  refine avoids_runText (fun _ => rfl) Libraries.idle_inert hrooted hsize (f := .endless)
    fun w' => ?_
  rw [runText_eq_evalItems _ 0 rfl (by rw [comparingSource_read]), comparingSource_read]
  exact Run.ne_error_of_succeeds (by decide +kernel) _ w'

theorem comparingSource_packed :
    makeScope { rounds := 1, restores := true, libraries := .idle } .unlimited none
        (World.empty "" ⟨[]⟩ []) = .ok 0 freshWorld ∧
      ∃ tree, Command.unpackStatements (Command.packStatements
            (Program.ofText grammarDepth comparingSource).nodes) = .ok tree ∧
        tree = .list ((Program.ofText grammarDepth comparingSource).nodes.map Value.listed) ∧
        PackedOutcome
          (runText (eval { rounds := 1, restores := true, libraries := .idle } 12) .unlimited 0
            comparingSource freshWorld)
          (evalItems (eval { rounds := 1, restores := true, libraries := .idle } 12) .unlimited 0
            tree freshWorld) :=
  ⟨rfl, packed_runs_like_source 1 12 Libraries.idle_inert .unlimited (by rw [comparingSource_read])
    (by rw [comparingSource_read]; decide +kernel) rfl rfl comparingSource_avoids⟩

end Scrawl
