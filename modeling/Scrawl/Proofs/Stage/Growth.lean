/-
  Scrawl.Proofs.Stage.Growth — what becomes of windows and sprites.

  Apart from what is in passing (`lasting`), whatever happens to a stage is one of a few moves
  (`Move`).  Every move keeps the tables in order (`Move.sound`): the windows of a table have increasing
  numbers, no window has a place in both tables, and the calls on record gave back 0, 1, 2 and so on.
  Between two loadings the tables only grow, and the windows keep what they were made with
  (`Move.since`, `Since.trans`).
-/

import Mathlib.Data.List.Sort
import Scrawl.Stage.Basic
import Scrawl.Value.Arithmetic

namespace Scrawl.Stage

/-! ## §1. What lasts -/

/-- A window without what is in passing: how often it was started, the redraws scheduled for it, and what
    will happen in its next main loop. -/
def Window.lasting (w : Window) : Window := { w with started := 0, pending := 0, script := [] }

/-- A stage without what is in passing. -/
def lasting (s : Stage) : Stage :=
  { s with windows := s.windows.map Window.lasting, cues := [], calls := #[] }

section Lasting

variable (s : Stage) (load : Nat)

@[simp] theorem table_lasting : s.lasting.table load = s.table load := rfl

@[simp] theorem size_lasting : s.lasting.windows.size = s.windows.size := Array.size_map

theorem getElem?_lasting (n : Nat) :
    s.lasting.windows[n]? = s.windows[n]?.map Window.lasting := Array.getElem?_map

theorem lasting_empty (cues : List Cue) : (Stage.empty cues).lasting = Stage.empty [] := by
  simp [lasting, Stage.empty]

theorem lasting_setTable (t : Table) :
    (s.setTable load t).lasting = s.lasting.setTable load t := by
  unfold setTable
  split <;> rfl

theorem lasting_note (d : Deed) : (s.note load d).lasting = s.lasting.note load d :=
  s.lasting_setTable load _

/-- A change of a window is seen as another change, of what lasts. -/
theorem lasting_changeWindow (n : Nat) {change change' : Window → Window}
    (h : ∀ w, (change w).lasting = change' w.lasting) :
    (s.changeWindow n change).lasting = s.lasting.changeWindow n change' := by
  have hwindows : (s.windows.modify n change).map Window.lasting
      = (s.windows.map Window.lasting).modify n change' := by
    apply Array.ext_getElem?
    intro m
    rw [Array.getElem?_map, Array.getElem?_modify, Array.getElem?_modify, Array.getElem?_map]
    split
    · cases s.windows[m]? with
      | none => rfl
      | some w => exact congrArg some (h w)
    · rfl
  show { s.lasting with windows := (s.windows.modify n change).map Window.lasting } = _
  rw [hwindows]
  rfl

/-- A change of what is in passing only is not seen. -/
theorem lasting_changeWindow_passing (n : Nat) {change : Window → Window}
    (h : ∀ w, (change w).lasting = w.lasting) :
    (s.changeWindow n change).lasting = s.lasting := by
  have hwindows : s.lasting.windows.modify n id = s.lasting.windows := by
    apply Array.ext_getElem?
    intro m
    rw [Array.getElem?_modify]
    split
    · exact congrFun Option.map_id _
    · rfl
  have hid : ∀ w, (change w).lasting = id w.lasting := h
  rw [s.lasting_changeWindow n hid]
  show { s.lasting with windows := s.lasting.windows.modify n id } = _
  rw [hwindows]

end Lasting

/-! ## §2. Tables -/

theorem table_setTable (s : Stage) (load other : Nat) (t : Table) :
    (s.setTable load t).table other
      = if (load == 0) = (other == 0) then t else s.table other := by
  unfold setTable table
  cases load == 0 <;> cases other == 0 <;> rfl

theorem windows_setTable (s : Stage) (load : Nat) (t : Table) :
    (s.setTable load t).windows = s.windows := by
  unfold setTable
  split <;> rfl

theorem loads_setTable (s : Stage) (load : Nat) (t : Table) :
    (s.setTable load t).loads = s.loads := by
  unfold setTable
  split <;> rfl

/-- Loadings that work on one table. -/
theorem table_congr (s : Stage) {load other : Nat} (h : (load == 0) = (other == 0)) :
    s.table load = s.table other := by
  unfold table
  rw [h]

/-- What a drawing function has given back so far, in order. -/
def Table.given (t : Table) (op : Drawing) : List Value :=
  (t.deeds.toList.filter (·.op == op)).map (·.result)

theorem Table.given_push (t : Table) (d : Deed) (op : Drawing) :
    Table.given { t with deeds := t.deeds.push d } op
      = t.given op ++ if d.op = op then [d.result] else [] := by
  unfold Table.given
  rw [Array.toList_push, List.filter_append, List.map_append]
  by_cases h : d.op = op
  · simp [h]
  · simp [h]

/-- The numbers up to a count, as a program gets them. -/
def ids (count : Nat) : List Value := (List.range count).map fun (k : Nat) => .number (.int k)

theorem ids_succ (count : Nat) : ids (count + 1) = ids count ++ [.number (.int count)] := by
  unfold ids
  rw [List.range_succ, List.map_append]
  rfl

/-! ## §3. Places -/

/-- The place among so many windows that an argument stands for. -/
def place (count : Nat) (id : Value) : Except Fault Nat := do
  indexed (List.range count) (← (← id.payload).toInt)

/-- An index finds an item at a place that depends on nothing but how many items there are. -/
theorem indexed_eq_ok {items : List Nat} {i : Int} {n : Nat} (h : indexed items i = .ok n) :
    ∃ k, indexed (List.range items.length) i = .ok k ∧ items[k]? = some n := by
  unfold indexed at h ⊢
  split at h
  · nomatch h
  · next hwide =>
    rw [if_neg hwide]
    dsimp only at h ⊢
    rw [List.length_range]
    generalize (if i < 0 then i + items.length else i) = k at h ⊢
    by_cases hk : k < 0
    · rw [if_pos hk] at h
      nomatch h
    · rw [if_neg hk] at h ⊢
      cases hitem : items[k.toNat]? with
      | none =>
        rw [hitem] at h
        nomatch h
      | some item =>
        rw [hitem] at h
        obtain rfl : item = n := Except.ok.inj h
        have hlt : k.toNat < items.length := (List.getElem?_eq_some_iff.1 hitem).1
        exact ⟨k.toNat, by rw [List.getElem?_range hlt], hitem⟩

/-- A call was made on the window at a place of a table, when the table had so many windows. -/
def Deed.Addresses (d : Deed) (count i : Nat) : Prop :=
  ∃ id ∈ d.args.head?, place count id = .ok i

/-- Between two stages a drawing function has returned that was called on the window at a place of a
    table. -/
def CalledOn (s later : Stage) (load : Nat) (op : Drawing) (i : Nat) : Prop :=
  ∃ before d after, (later.table load).deeds.toList = before ++ d :: after ∧
    (s.table load).deeds.toList <+: before ∧ d.op = op ∧
      d.Addresses (before.countP (·.op == .create)) i

/-! ## §4. Moves -/

/-- What the functions do that change a window. -/
inductive Alters : Drawing → (Window → Window) → Prop
  /-- Another colour. -/
  | background (color : Value) : Alters .background fun w => { w with background := color }
  /-- Another function for keys. -/
  | onKey (name : String) : Alters .onKey fun w => { w with onKey := some name }
  /-- Another function for clicks. -/
  | onClick (name : String) : Alters .onClick fun w => { w with onClick := some name }

/-- Two windows differ in what a drawing function can change. -/
def Differ : Drawing → Window → Window → Prop
  | .background, old, new => new.background ≠ old.background
  | .onKey, old, new => new.onKey ≠ old.onKey
  | .onClick, old, new => new.onClick ≠ old.onClick
  | _, _, _ => False

theorem Differ.irrefl {op : Drawing} {w : Window} : ¬ Differ op w w := by
  cases op <;> simp [Differ]

theorem Differ.split {op : Drawing} {a b c : Window} (h : Differ op a c) :
    Differ op a b ∨ Differ op b c := by
  by_cases hab : Differ op a b
  · exact .inl hab
  · right
    cases op <;> simp_all [Differ]

/-- Each of these functions changes what is its own, and nothing else. -/
theorem Alters.eq_of_differ {op other : Drawing} {change : Window → Window}
    (h : Alters op change) {w : Window} (hdiffer : Differ other w (change w)) : other = op := by
  cases h <;> cases other <;> first | rfl | exact absurd hdiffer (by simp [Differ])

theorem Alters.keeps {op : Drawing} {change : Window → Window} (h : Alters op change)
    (w : Window) : (change w).draw = w.draw ∧ (change w).home = w.home ∧
      (change w).complete = w.complete := by
  cases h <;> exact ⟨rfl, rfl, rfl⟩

theorem Alters.lasting {op : Drawing} {change : Window → Window} (h : Alters op change)
    (w : Window) : (change w).lasting = change w.lasting := by
  cases h <;> rfl

theorem Alters.not_making {op : Drawing} {change : Window → Window} (h : Alters op change) :
    op ≠ .create ∧ op ≠ .loadSprite := by
  cases h <;> exact ⟨nofun, nofun⟩

/-- The stage with one more window, which has a place in a table. -/
def withWindow (s : Stage) (load : Nat) (made : Window) : Stage :=
  { s with windows := s.windows.push made }.setTable load
    { s.table load with windows := (s.table load).windows ++ [s.windows.size] }

/-- The stage with one more sprite. -/
def withSprite (s : Stage) (load : Nat) : Stage :=
  { s with images := s.images + 1 }.setTable load
    { s.table load with sprites := (s.table load).sprites ++ [s.images] }

/-- What can happen to a stage. -/
inductive Move (s : Stage) : Stage → Prop
  /-- Nothing that lasts. -/
  | aside : Move s s
  /-- A window is begun that is never completed. -/
  | botch {made : Window} (h : made.complete = false) :
      Move s { s with windows := s.windows.push made }
  /-- A function returns that has made nothing. -/
  | quiet (load : Nat) {d : Deed} (h : d.op ≠ .create ∧ d.op ≠ .loadSprite) : Move s (s.note load d)
  /-- A window is made. -/
  | create (load : Nat) (args : List Value) (made : Window) :
      Move s ((s.withWindow load made).note load
        ⟨.create, args, .number (.int (s.table load).windows.length)⟩)
  /-- A sprite is loaded. -/
  | loadSprite (load : Nat) (args : List Value) :
      Move s ((s.withSprite load).note load
        ⟨.loadSprite, args, .number (.int (s.table load).sprites.length)⟩)
  /-- A function changes the window that its first argument stands for. -/
  | alter (load : Nat) {op : Drawing} {change : Window → Window} (hop : Alters op change)
      {id : Value} (rest : List Value) {i n : Nat}
      (hplace : place (s.table load).windows.length id = .ok i)
      (hn : (s.table load).windows[i]? = some n) (result : Value) :
      Move s ((s.changeWindow n change).note load ⟨op, id :: rest, result⟩)
  /-- The drawing library is loaded once more. -/
  | reload : Move s { s with loads := s.loads + 1, shared := .empty }

/-! ## §5. Tables in order -/

/-- The tables of a stage are in order. -/
structure Sound (s : Stage) : Prop where
  /-- Windows have their places in the order in which they were made. -/
  increasing : ∀ load, (s.table load).windows.Pairwise (· < ·)
  /-- Every place is that of a window. -/
  made : ∀ load, ∀ n ∈ (s.table load).windows, n < s.windows.size
  /-- No window has a place in both tables. -/
  apart : ∀ load other n, n ∈ (s.table load).windows → n ∈ (s.table other).windows →
    (load == 0) = (other == 0)
  /-- Whoever made a window was told its place. -/
  created : ∀ load, (s.table load).given .create = ids (s.table load).windows.length
  /-- Whoever loaded a sprite was told its place. -/
  pictured : ∀ load, (s.table load).given .loadSprite = ids (s.table load).sprites.length

theorem table_empty (cues : List Cue) (load : Nat) : (Stage.empty cues).table load = .empty :=
  ite_self _

theorem sound_empty (cues : List Cue) : (Stage.empty cues).Sound := by
  have htable := table_empty cues
  constructor <;> intros <;> simp_all [Table.empty, Table.given, ids]

section Sound

variable {s : Stage} (h : s.Sound)
include h

/-- How many windows a table has can be told from what is on record. -/
theorem Sound.count_create (load : Nat) :
    (s.table load).deeds.toList.countP (·.op == .create) = (s.table load).windows.length := by
  have hlength := congrArg List.length (h.created load)
  simpa [Table.given, ids, List.countP_eq_length_filter] using hlength

/-- No window has two places. -/
theorem Sound.place_unique {load other i j n : Nat}
    (hi : (s.table load).windows[i]? = some n) (hj : (s.table other).windows[j]? = some n) :
    (load == 0) = (other == 0) ∧ i = j := by
  have hload := h.apart load other n (List.mem_of_getElem? hi) (List.mem_of_getElem? hj)
  refine ⟨hload, ?_⟩
  rw [← s.table_congr hload] at hj
  have hnodup : (s.table load).windows.Nodup := (h.increasing load).imp fun hlt => Nat.ne_of_lt hlt
  have hlt : i < (s.table load).windows.length := (List.getElem?_eq_some_iff.1 hi).1
  exact (List.getElem?_inj hlt hnodup).1 (hi.trans hj.symm)

/-- One table replaced by another one that is in order, whose additional windows are new. -/
theorem Sound.withTable {s' : Stage} (load : Nat) (t : Table)
    (htable : ∀ other, s'.table other = if (load == 0) = (other == 0) then t else s.table other)
    (hsize : s.windows.size ≤ s'.windows.size)
    (hincreasing : t.windows.Pairwise (· < ·))
    (hnew : ∀ n ∈ t.windows,
      n ∈ (s.table load).windows ∨ s.windows.size ≤ n ∧ n < s'.windows.size)
    (hcreated : t.given .create = ids t.windows.length)
    (hpictured : t.given .loadSprite = ids t.sprites.length) : s'.Sound where
  increasing other := by
    rw [htable]
    split
    · exact hincreasing
    · exact h.increasing other
  made other n hn := by
    rw [htable] at hn
    split at hn
    · rcases hnew n hn with hold | ⟨-, hlt⟩
      · exact Nat.lt_of_lt_of_le (h.made load n hold) hsize
      · exact hlt
    · exact Nat.lt_of_lt_of_le (h.made other n hn) hsize
  apart a b n ha hb := by
    -- a new window has a number that no old one has
    have hcross : ∀ c, n ∈ t.windows → n ∈ (s.table c).windows → (load == 0) = (c == 0) := by
      intro c ht hc
      rcases hnew n ht with hold | ⟨hge, -⟩
      · exact h.apart load c n hold hc
      · exact absurd (h.made c n hc) (Nat.not_lt.2 hge)
    rw [htable] at ha hb
    split at ha <;> split at hb
    · next hla hlb => exact hla.symm.trans hlb
    · next hla _ => exact hla.symm.trans (hcross b ha hb)
    · next _ hlb => exact (hcross a hb ha).symm.trans hlb
    · exact h.apart a b n ha hb
  created other := by
    rw [htable]
    split
    · exact hcreated
    · exact h.created other
  pictured other := by
    rw [htable]
    split
    · exact hpictured
    · exact h.pictured other

end Sound

/-- A stage that has noted a call, one table of which has changed in other ways too. -/
theorem table_note_setTable (s : Stage) (load other : Nat) (t : Table) (d : Deed) :
    ((s.setTable load t).note load d).table other
      = if (load == 0) = (other == 0) then { t with deeds := t.deeds.push d }
        else s.table other := by
  unfold note
  rw [table_setTable, table_setTable, if_pos rfl]
  split
  · rfl
  · next hother => rw [table_setTable, if_neg hother]

theorem table_note (s : Stage) (load other : Nat) (d : Deed) :
    (s.note load d).table other
      = if (load == 0) = (other == 0)
        then { s.table load with deeds := (s.table load).deeds.push d } else s.table other :=
  s.table_setTable load other _

/-- Noting a call that has made nothing. -/
theorem Sound.note {s : Stage} (h : s.Sound) (load : Nat) {d : Deed}
    (hd : d.op ≠ .create ∧ d.op ≠ .loadSprite) : (s.note load d).Sound := by
  refine h.withTable load _ (s.table_note load · d) ?_ (h.increasing load) (fun n hn => .inl hn) ?_ ?_
  · rw [Stage.note, windows_setTable]
  · rw [Table.given_push, if_neg hd.1, List.append_nil]
    exact h.created load
  · rw [Table.given_push, if_neg hd.2, List.append_nil]
    exact h.pictured load

theorem Sound.changeWindow {s : Stage} (h : s.Sound) (n : Nat) (change : Window → Window) :
    (s.changeWindow n change).Sound where
  increasing := h.increasing
  made load m hm := by
    show m < (s.windows.modify n change).size
    rw [Array.size_modify]
    exact h.made load m hm
  apart := h.apart
  created := h.created
  pictured := h.pictured

/-- **Every move keeps the tables in order.** -/
theorem Move.sound {s s' : Stage} (hmove : Move s s') (h : s.Sound) : s'.Sound := by
  cases hmove with
  | aside => exact h
  | botch _ =>
    exact { h with
      made := fun load n hn => by
        rw [Array.size_push]
        exact Nat.lt_succ_of_lt (h.made load n hn) }
  | quiet load hd => exact h.note load hd
  | create load args made =>
    have hbelow : ∀ n ∈ (s.table load).windows, n < s.windows.size := h.made load
    have hsize : ((s.withWindow load made).note load
        ⟨.create, args, .number (.int (s.table load).windows.length)⟩).windows.size
          = s.windows.size + 1 := by
      rw [Stage.note, windows_setTable, withWindow, windows_setTable, Array.size_push]
    refine h.withTable load _ (table_note_setTable _ load · _ _) (by omega) ?_ ?_ ?_ ?_
    · -- the number of the new window is larger than all others
      refine List.pairwise_append.2 ⟨h.increasing load, List.pairwise_singleton _ _, ?_⟩
      intro a ha b hb
      rw [List.mem_singleton.1 hb]
      exact hbelow a ha
    · intro n hn
      rcases List.mem_append.1 hn with hn | hn
      · exact .inl hn
      · right
        rw [List.mem_singleton.1 hn]
        omega
    · rw [Table.given_push, if_pos rfl, List.length_append, List.length_singleton, ids_succ]
      exact congrArg (· ++ _) (h.created load)
    · rw [Table.given_push, if_neg nofun, List.append_nil]
      exact h.pictured load
  | loadSprite load args =>
    have hsize : ((s.withSprite load).note load
        ⟨.loadSprite, args, .number (.int (s.table load).sprites.length)⟩).windows.size
          = s.windows.size := by
      rw [Stage.note, windows_setTable, withSprite, windows_setTable]
    refine h.withTable load _ (table_note_setTable _ load · _ _) (by omega) (h.increasing load)
      (fun n hn => .inl hn) ?_ ?_
    · rw [Table.given_push, if_neg nofun, List.append_nil]
      exact h.created load
    · rw [Table.given_push, if_pos rfl, List.length_append, List.length_singleton, ids_succ]
      exact congrArg (· ++ _) (h.pictured load)
  | alter load hop rest hplace hn result =>
    exact (h.changeWindow _ _).note load hop.not_making
  | reload =>
    have htable : ∀ load, Stage.table { s with loads := s.loads + 1, shared := .empty } load
        = if load == 0 then s.first else .empty := fun load => rfl
    refine h.withTable 1 .empty ?_ (Nat.le_refl _) List.Pairwise.nil
      (fun n hn => absurd hn List.not_mem_nil) rfl rfl
    intro other
    rw [htable]
    show _ = if (false : Bool) = (other == 0) then _ else s.table other
    unfold table
    cases other == 0 <;> rfl

/-! ## §6. From one stage to a later one -/

/-- A table has only got longer. -/
structure Table.Grows (t t' : Table) : Prop where
  /-- Windows are appended. -/
  windows : t.windows <+: t'.windows
  /-- Sprites are appended. -/
  sprites : t.sprites <+: t'.sprites
  /-- Calls are appended. -/
  deeds : t.deeds.toList <+: t'.deeds.toList

theorem Table.Grows.refl (t : Table) : t.Grows t :=
  ⟨List.prefix_refl _, List.prefix_refl _, List.prefix_refl _⟩

theorem Table.Grows.trans {t t' t'' : Table} (h : t.Grows t') (h' : t'.Grows t'') : t.Grows t'' :=
  ⟨h.windows.trans h'.windows, h.sprites.trans h'.sprites, h.deeds.trans h'.deeds⟩

/-- What has a place keeps it. -/
theorem Table.Grows.windows_at {t t' : Table} (h : t.Grows t') {i n : Nat}
    (hi : t.windows[i]? = some n) : t'.windows[i]? = some n := by
  obtain ⟨more, hmore⟩ := h.windows
  rw [← hmore, List.getElem?_append_left (List.getElem?_eq_some_iff.1 hi).1]
  exact hi

/-- What holds between a stage and a later one, if the drawing library has not been loaded in
    between. -/
structure Since (s later : Stage) : Prop where
  /-- The tables have grown. -/
  grows : ∀ load, (s.table load).Grows (later.table load)
  /-- There are at least as many windows. -/
  size : s.windows.size ≤ later.windows.size
  /-- A window has its function, its scope, and is complete or not, as it was made. -/
  kept : ∀ {n : Nat} {old : Window}, s.windows[n]? = some old → ∃ new, later.windows[n]? = some new ∧
    new.draw = old.draw ∧ new.home = old.home ∧ new.complete = old.complete
  /-- New places are those of new windows. -/
  fresh : ∀ load n, n ∈ (later.table load).windows → n ∈ (s.table load).windows ∨ s.windows.size ≤ n
  /-- New windows that are complete have places. -/
  placed : ∀ {n : Nat} {new : Window}, s.windows.size ≤ n → later.windows[n]? = some new →
    new.complete = true → ∃ load, n ∈ (later.table load).windows
  /-- A window has changed only by a call on its place of a function that changes such a thing. -/
  changed : ∀ {load i n : Nat} {old new : Window}, (s.table load).windows[i]? = some n →
    s.windows[n]? = some old → later.windows[n]? = some new →
      ∀ op, Differ op old new → CalledOn s later load op i

theorem CalledOn.mono {s later later' : Stage} {load i : Nat} {op : Drawing}
    (h : CalledOn s later load op i) (hgrows : (later.table load).Grows (later'.table load)) :
    CalledOn s later' load op i := by
  obtain ⟨before, d, after, hdeeds, hbefore, hop, haddress⟩ := h
  obtain ⟨more, hmore⟩ := hgrows.deeds
  refine ⟨before, d, after ++ more, ?_, hbefore, hop, haddress⟩
  rw [← hmore, hdeeds, List.append_assoc, List.cons_append]

theorem CalledOn.since {s s' later : Stage} {load i : Nat} {op : Drawing}
    (h : CalledOn s' later load op i) (hgrows : (s.table load).Grows (s'.table load)) :
    CalledOn s later load op i := by
  obtain ⟨before, d, after, hdeeds, hbefore, hop, haddress⟩ := h
  exact ⟨before, d, after, hdeeds, hgrows.deeds.trans hbefore, hop, haddress⟩

namespace Since

variable {s s' s'' : Stage}

theorem refl (s : Stage) : Since s s where
  grows load := .refl _
  size := Nat.le_refl _
  kept hold := ⟨_, hold, rfl, rfl, rfl⟩
  fresh _ _ hn := .inl hn
  placed hge hnew _ := absurd (Array.getElem?_eq_some_iff.1 hnew).1 (Nat.not_lt.2 hge)
  changed _ hold hnew op hdiffer := by
    obtain rfl := Option.some.inj (hold.symm.trans hnew)
    exact absurd hdiffer Differ.irrefl

theorem trans (h : Since s s') (h' : Since s' s'') : Since s s'' where
  grows load := (h.grows load).trans (h'.grows load)
  size := Nat.le_trans h.size h'.size
  kept hold := by
    obtain ⟨mid, hmid, hdraw, hhome, hcomplete⟩ := h.kept hold
    obtain ⟨new, hnew, hdraw', hhome', hcomplete'⟩ := h'.kept hmid
    exact ⟨new, hnew, hdraw'.trans hdraw, hhome'.trans hhome, hcomplete'.trans hcomplete⟩
  fresh load n hn := by
    rcases h'.fresh load n hn with hn | hge
    · exact h.fresh load n hn
    · exact .inr (Nat.le_trans h.size hge)
  placed {n new} hge hnew hcomplete := by
    -- a window that was there in between was complete then
    by_cases hn : n < s'.windows.size
    · obtain ⟨new', hnew', -, -, hsame⟩ := h'.kept (Array.getElem?_eq_getElem hn)
      obtain rfl := Option.some.inj (hnew.symm.trans hnew')
      obtain ⟨load, hload⟩ := h.placed hge (Array.getElem?_eq_getElem hn) (hsame ▸ hcomplete)
      exact ⟨load, (h'.grows load).windows.subset hload⟩
    · exact h'.placed (Nat.not_lt.1 hn) hnew hcomplete
  changed {load i n old new} hi hold hnew op hdiffer := by
    obtain ⟨mid, hmid, -⟩ := h.kept hold
    -- if the ends differ, the window in between differs from one of them
    rcases hdiffer.split (b := mid) with hbefore | hafter
    · exact (h.changed hi hold hmid op hbefore).mono (h'.grows load)
    · have hi' : (s'.table load).windows[i]? = some n :=
        (h.grows load).windows_at hi
      exact (h'.changed hi' hmid hnew op hafter).since (h.grows load)

/-- Tables that have grown, and perhaps new windows, while the windows that were there are
    untouched. -/
theorem of_untouched (hgrows : ∀ load, (s.table load).Grows (s'.table load))
    (hwindows : ∀ (n : Nat) old, s.windows[n]? = some old → s'.windows[n]? = some old)
    (hsize : s.windows.size ≤ s'.windows.size)
    (hfresh : ∀ load n, n ∈ (s'.table load).windows →
      n ∈ (s.table load).windows ∨ s.windows.size ≤ n)
    (hplaced : ∀ (n : Nat) new, s.windows.size ≤ n → s'.windows[n]? = some new → new.complete = true →
      ∃ load, n ∈ (s'.table load).windows) : Since s s' where
  grows := hgrows
  size := hsize
  kept {n old} hold := ⟨old, hwindows n old hold, rfl, rfl, rfl⟩
  fresh := hfresh
  placed {n new} := hplaced n new
  changed {load i n old new} _ hold hnew op hdiffer := by
    obtain rfl := Option.some.inj ((hwindows n old hold).symm.trans hnew)
    exact absurd hdiffer Differ.irrefl

/-- One table has grown by what is new, and the windows are untouched or one more has been begun. -/
theorem of_table (load : Nat) (t : Table)
    (htable : ∀ other, s'.table other = if (load == 0) = (other == 0) then t else s.table other)
    (hgrows : (s.table load).Grows t)
    (hwindows : s'.windows = s.windows ∨ ∃ made, s'.windows = s.windows.push made ∧
      (made.complete = true → s.windows.size ∈ t.windows))
    (hfresh : ∀ n ∈ t.windows, n ∈ (s.table load).windows ∨ s.windows.size ≤ n) :
    Since s s' := by
  have hsize : s.windows.size ≤ s'.windows.size := by
    rcases hwindows with hwindows | ⟨made, hwindows, -⟩
    · rw [hwindows]
    · rw [hwindows, Array.size_push]
      omega
  refine of_untouched ?_ ?_ hsize ?_ ?_
  · intro other
    rw [htable]
    split
    · next hload => rw [← s.table_congr hload]; exact hgrows
    · exact .refl _
  · intro n old hold
    have hn : n < s.windows.size := (Array.getElem?_eq_some_iff.1 hold).1
    rcases hwindows with hwindows | ⟨made, hwindows, -⟩
    · rw [hwindows]
      exact hold
    · rw [hwindows, Array.getElem?_push, if_neg (by omega)]
      exact hold
  · intro other n hn
    rw [htable] at hn
    split at hn
    · next hload => rw [← s.table_congr hload]; exact hfresh n hn
    · exact .inl hn
  · intro n new hge hnew hcomplete
    rcases hwindows with hwindows | ⟨made, hwindows, hmade⟩
    · rw [hwindows] at hnew
      exact absurd (Array.getElem?_eq_some_iff.1 hnew).1 (by omega)
    · rw [hwindows, Array.getElem?_push] at hnew
      split at hnew
      · next hn =>
        obtain rfl := Option.some.inj hnew
        refine ⟨load, ?_⟩
        rw [htable, if_pos rfl, hn]
        exact hmade hcomplete
      · exact absurd (Array.getElem?_eq_some_iff.1 hnew).1 (by omega)

/-- Noting a call. -/
theorem note (s : Stage) (load : Nat) (d : Deed) : Since s (s.note load d) := by
  refine of_table load _ (s.table_note load · d) ⟨List.prefix_refl _, List.prefix_refl _, ?_⟩
    (.inl (s.windows_setTable load _)) fun n hn => .inl hn
  rw [Array.toList_push]
  exact List.prefix_append _ _

/-- Changing the window at a place, and noting the call. -/
theorem alter {load n i : Nat} {op : Drawing} {change : Window → Window} (hs : s.Sound)
    (hop : Alters op change) {id : Value} (rest : List Value)
    (hplace : place (s.table load).windows.length id = .ok i)
    (hn : (s.table load).windows[i]? = some n) (result : Value) :
    Since s ((s.changeWindow n change).note load ⟨op, id :: rest, result⟩) := by
  have hnoted := note (s.changeWindow n change) load ⟨op, id :: rest, result⟩
  have hwindows : ((s.changeWindow n change).note load ⟨op, id :: rest, result⟩).windows
      = s.windows.modify n change := windows_setTable _ load _
  have hget : ∀ m : Nat, (s.windows.modify n change)[m]?
      = if n = m then s.windows[m]?.map change else s.windows[m]? :=
    fun m => Array.getElem?_modify
  constructor
  case grows => exact hnoted.grows
  case size =>
    rw [hwindows, Array.size_modify]
  case kept =>
    intro m old hold
    rw [hwindows, hget, hold]
    split
    · exact ⟨change old, rfl, hop.keeps old⟩
    · exact ⟨old, rfl, rfl, rfl, rfl⟩
  case fresh =>
    intro other m hm
    rcases hnoted.fresh other m hm with hm | hge
    · exact .inl hm
    · right
      rwa [← Array.size_modify (f := change) (i := n)]
  case placed =>
    intro m new hge hnew _
    rw [hwindows] at hnew
    have hlt := (Array.getElem?_eq_some_iff.1 hnew).1
    rw [Array.size_modify] at hlt
    omega
  case changed =>
    intro other j m old new hj hold hnew op' hdiffer
    rw [hwindows, hget, hold] at hnew
    by_cases hm : n = m
    · subst hm
      rw [if_pos rfl] at hnew
      obtain rfl : change old = new := Option.some.inj hnew
      obtain rfl := hop.eq_of_differ hdiffer
      -- the window has no other place than the one that was called on
      obtain ⟨hload, rfl⟩ := hs.place_unique hn hj
      refine ⟨(s.table other).deeds.toList, ⟨op', id :: rest, result⟩, [], ?_,
        List.prefix_refl _, rfl, id, rfl, ?_⟩
      · rw [table_note, if_pos hload, s.table_congr hload.symm]
        exact Array.toList_push
      · rw [hs.count_create, ← s.table_congr hload]
        exact hplace
    · rw [if_neg hm] at hnew
      obtain rfl := Option.some.inj hnew
      exact absurd hdiffer Differ.irrefl

end Since

/-- **A move other than a loading leaves a later stage.** -/
theorem Move.since {s s' : Stage} (hmove : Move s s') (hs : s.Sound) (hloads : s'.loads = s.loads) :
    Since s s' := by
  cases hmove with
  | aside => exact .refl s
  | @botch made h =>
    refine .of_table 0 (s.table 0) (fun other => ?_) (.refl _)
      (.inr ⟨made, rfl, fun hcomplete => ?_⟩) fun n hn => .inl hn
    · split
      · next hload => exact (s.table_congr hload).symm
      · rfl
    · rw [h] at hcomplete
      nomatch hcomplete
  | quiet load _ => exact .note s load _
  | create load args made =>
    have hwindow : Since s (s.withWindow load made) := by
      refine .of_table load _ (table_setTable _ load · _)
        ⟨List.prefix_append _ _, List.prefix_refl _, List.prefix_refl _⟩
        (.inr ⟨made, windows_setTable _ load _, fun _ => ?_⟩) fun n hn => ?_
      · exact List.mem_append_right _ List.mem_cons_self
      · rcases List.mem_append.1 hn with hn | hn
        · exact .inl hn
        · exact .inr (Nat.le_of_eq (List.mem_singleton.1 hn).symm)
    exact hwindow.trans (.note _ load _)
  | loadSprite load args =>
    have hsprite : Since s (s.withSprite load) :=
      .of_table load _ (table_setTable _ load · _)
        ⟨List.prefix_refl _, List.prefix_append _ _, List.prefix_refl _⟩
        (.inl (windows_setTable _ load _)) fun n hn => .inl hn
    exact hsprite.trans (.note _ load _)
  | alter load hop rest hplace hn result => exact .alter hs hop rest hplace hn result
  | reload =>
    have : s.loads + 1 = s.loads := hloads
    omega

/-- A move is a loading, or there are as many loadings as before. -/
theorem Move.loads_eq_or {s s' : Stage} (hmove : Move s s') :
    s'.loads = s.loads ∨ s' = { s with loads := s.loads + 1, shared := .empty } := by
  cases hmove with
  | reload => exact .inr rfl
  | quiet | create | loadSprite | alter =>
    left
    simp only [Stage.note, withWindow, withSprite, loads_setTable, Stage.changeWindow]
  | aside | botch => exact .inl rfl

/-- Loadings are only ever added. -/
theorem Move.loads_le {s s' : Stage} (hmove : Move s s') : s.loads ≤ s'.loads := by
  rcases hmove.loads_eq_or with hloads | rfl
  · exact Nat.le_of_eq hloads.symm
  · exact Nat.le_succ _

end Scrawl.Stage
