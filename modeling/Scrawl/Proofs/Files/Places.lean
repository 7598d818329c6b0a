/-
  Scrawl.Proofs.Files.Places — where paths lead.

  Which files and folders there are decides whether a path leads to a file or to a place for one, but not
  to which: that is spelt out by its names alone (`FileTree.place`, `FileTree.follow_place`).  So two
  paths with one place are paths to one file (`FileTree.read_eq_of_place`), and writing to one place makes
  no difference to reading from another (`FileTree.read_after_write`).
-/

import Scrawl.Proofs.Files.Writing

namespace Scrawl.FileTree

open Scrawl.Codec (Bytes)

/-! ## §1. The names in a path -/

theorem parts_ne_nil (cs : List Char) : parts cs ≠ [] := by
  fun_cases parts cs <;> exact List.cons_ne_nil _ _

theorem parts_slash (cs : List Char) : parts ('/' :: cs) = [] :: parts cs := by
  rw [parts]
  split
  · next hnil => exact absurd hnil (parts_ne_nil cs)
  · next part more hcs =>
    rw [hcs]
    exact if_pos (beq_self_eq_true _)

theorem parts_cons {c : Char} (hc : c ≠ '/') {cs part : List Char} {more : List (List Char)}
    (h : parts cs = part :: more) : parts (c :: cs) = (c :: part) :: more := by
  rw [parts, h]
  exact if_neg (by simpa using hc)

theorem parts_of_not_mem {cs : List Char} (h : '/' ∉ cs) : parts cs = [cs] := by
  induction cs with
  | nil => rfl
  | cons c cs ih =>
    rw [List.mem_cons, not_or] at h
    exact parts_cons (Ne.symm h.1) (ih h.2)

/-- An ending without a slash belongs to the last name. -/
theorem parts_append (stem : List Char) : ∃ front last, ∀ ending, '/' ∉ ending →
    parts (stem ++ ending) = front ++ [last ++ ending] := by
  induction stem with
  | nil => exact ⟨[], [], fun ending h => parts_of_not_mem h⟩
  | cons c stem ih =>
    obtain ⟨front, last, happend⟩ := ih
    by_cases hc : c = '/'
    · refine ⟨[] :: front, last, fun ending h => ?_⟩
      rw [hc, List.cons_append, parts_slash, happend ending h]
      rfl
    · -- the character belongs to the first name, which may be the last one too
      cases front with
      | nil => exact ⟨[], c :: last, fun ending h => parts_cons hc (happend ending h)⟩
      | cons first front =>
        exact ⟨(c :: first) :: front, last, fun ending h => parts_cons hc (happend ending h)⟩

/-! ## §2. Places -/

/-- Where a name leads from a folder, or from outside the known part. -/
def enter (at? : Option Location) (name : String) : Option Location :=
  if name == "" || name == "." then at?
  else if name == ".." then at?.bind fun here => if here.isEmpty then none else some here.dropLast
  else at?.map (· ++ [name])

/-- The place that a path spells out, if that is in the known part. -/
def place (path : String) : Option Location :=
  ((parts path.toList).map String.ofList).foldl enter (start path)

/-- A text that ends names: it cannot be taken for a name that goes up or stays, and goes on in the
    same name. -/
structure IsEnding (ending : String) : Prop where
  /-- It is longer than the names that go up or stay. -/
  long : 2 < ending.length
  /-- No other name follows. -/
  noSlash : '/' ∉ ending.toList

/-- Two paths with the same text and different endings lead to the same folder and there to names with
    the same text and these endings. -/
theorem place_append (stem : List Char) : ∃ (folder : Option Location) (last : String),
    ∀ path ending : String, path.toList = stem ++ ending.toList → IsEnding ending →
      place path = folder.map (· ++ [last ++ ending]) := by
  obtain ⟨front, last, happend⟩ := parts_append stem
  refine ⟨(front.map String.ofList).foldl enter (if stem.head? == some '/' then none else some []),
    String.ofList last, fun path ending hpath hending => ?_⟩
  have hstart : start path = if stem.head? == some '/' then none else some [] := by
    unfold start
    rw [hpath]
    cases stem with
    | cons c stem => rfl
    | nil =>
      refine if_neg fun hhead => hending.noSlash ?_
      exact List.mem_of_mem_head? (by simpa using hhead)
  have hlast : String.ofList (last ++ ending.toList) = String.ofList last ++ ending := by
    rw [String.ofList_append, String.ofList_toList]
  -- the ending makes the last name longer than those that go up or stay
  have hlong : ∀ name : String, name.length ≤ 2 → (String.ofList last ++ ending == name) = false := by
    intro name hname
    refine beq_eq_false_iff_ne.2 fun heq => ?_
    have hlength := congrArg String.length heq
    rw [String.length_append] at hlength
    have hending := hending.long
    omega
  unfold place
  rw [hpath, happend _ hending.noSlash, hstart, List.map_append, List.map_singleton, hlast,
    List.foldl_append]
  show enter _ _ = _
  unfold enter
  rw [hlong "" (by decide), hlong "." (by decide), hlong ".." (by decide)]
  rfl

/-- **Only names decide where a path leads.** -/
theorem follow_place {t : FileTree} {at? : Option Location} {names : List String} {target : Target}
    (h : t.follow at? names = .ok target) :
    target = .folder ∨ ∃ p, names.foldl enter at? = some p ∧ t.Accepts p target := by
  fun_induction t.follow at? names with
  | case1 => exact .inl (Except.ok.inj h).symm
  | case2 at? name rest hskip ih =>
    rw [List.foldl_cons, enter, if_pos hskip]
    exact ih h
  | case3 at? name rest hskip hup ih =>
    rw [List.foldl_cons, enter, if_neg hskip, if_pos hup]
    exact ih h
  | case4 => cases h
  | case5 => cases h
  | case6 name rest hskip hup _ here there hfile hend =>
    obtain rfl := List.isEmpty_iff.1 hend
    refine .inr ⟨there, ?_, .file (Except.ok.inj h).symm hfile⟩
    rw [List.foldl_cons, enter, if_neg hskip, if_neg hup]
    rfl
  | case7 => cases h
  | case8 name rest hskip hup _ here there _ _ ih =>
    rw [List.foldl_cons, enter, if_neg hskip, if_neg hup]
    exact ih h
  | case9 name rest hskip hup _ here there hfile hfolder hend =>
    obtain rfl := List.isEmpty_iff.1 hend
    refine .inr ⟨there, ?_, .free (Except.ok.inj h).symm (by simpa using hfile) (by simpa using hfolder)⟩
    rw [List.foldl_cons, enter, if_neg hskip, if_neg hup]
    rfl
  | case10 => cases h

/-! ## §3. Reading and writing -/

section Reading

variable {t : FileTree} {path : String}

theorem resolve_place {target : Target} (h : t.resolve path = .ok target) :
    target = .folder ∨ ∃ p, place path = some p ∧ t.Accepts p target :=
  follow_place (resolve_of_ok h).1

/-- What is read is the file at the place that the path spells out. -/
theorem read_place {bytes : Bytes} (h : t.read path = .ok bytes) :
    ∃ p, place path = some p ∧ t.resolve path = .ok (.file p) ∧ t.get? p = some bytes := by
  unfold read at h
  cases hresolve : t.resolve path with
  | error f => rw [hresolve] at h; cases h
  | ok target =>
    rw [hresolve] at h
    rcases resolve_place hresolve with rfl | ⟨p, hplace, htarget⟩
    · cases h
    · cases htarget with
      | free htarget _ _ => rw [htarget] at h; cases h
      | file htarget hsome =>
        rw [htarget] at h
        obtain ⟨content, hcontent⟩ := Option.isSome_iff_exists.1 hsome
        have hbytes : (t.get? p).getD [] = bytes := Except.ok.inj h
        rw [hcontent, Option.getD_some] at hbytes
        exact ⟨p, hplace, congrArg _ htarget, hcontent.trans (congrArg _ hbytes)⟩

/-- What is written is the file at the place that the path spells out. -/
theorem write_place {content : Bytes} {t' : FileTree} (h : t.write path content = .ok t') :
    ∃ p target, place path = some p ∧ t.Accepts p target ∧ t' = t.put p content := by
  cases hresolve : t.resolve path with
  | error f =>
    unfold write at h
    rw [hresolve] at h
    cases h
  | ok target =>
    rcases resolve_place hresolve with rfl | ⟨p, hplace, htarget⟩
    · unfold write at h
      rw [hresolve] at h
      cases h
    · obtain ⟨hwrite, -⟩ := write_of_accepts hresolve htarget content
      exact ⟨p, target, hplace, htarget, Except.ok.inj (h.symm.trans hwrite)⟩

/-- **Writing changes what is read by the paths with the same place**, and by no others. -/
theorem read_after_write {bytes content : Bytes} {other : String} {t' : FileTree}
    (hwrite : t.write other content = .ok t') (h : t.read path = .ok bytes) :
    t'.read path = .ok (if place path = place other then content else bytes) := by
  obtain ⟨q, changed, hother, hchanged, rfl⟩ := write_place hwrite
  obtain ⟨p, hplace, hresolve, hbytes⟩ := read_place h
  obtain ⟨hfollow, hresolves⟩ := resolve_of_ok hresolve
  have htarget : t.Accepts p (.file p) := .file rfl (Option.isSome_iff_exists.2 ⟨bytes, hbytes⟩)
  unfold read
  rw [hresolves _ _ (follow_put hchanged htarget (.inl rfl) hfollow), hplace, hother]
  show Except.ok (((t.put q content).get? p).getD []) = _
  rw [get?_put, hbytes]
  by_cases hpq : p = q
  · rw [if_pos hpq, if_pos (congrArg some hpq)]
    rfl
  · rw [if_neg hpq, if_neg (fun heq => hpq (Option.some.inj heq))]
    rfl

/-- Paths that spell out one place are paths to one file. -/
theorem read_eq_of_place {other : String} {bytes bytes' : Bytes} (h : t.read path = .ok bytes)
    (h' : t.read other = .ok bytes') (hplace : place path = place other) : bytes = bytes' := by
  obtain ⟨p, hp, -, hbytes⟩ := read_place h
  obtain ⟨q, hq, -, hbytes'⟩ := read_place h'
  obtain rfl := Option.some.inj (hp.symm.trans (hplace.trans hq))
  exact Option.some.inj (hbytes.symm.trans hbytes')

end Reading

end Scrawl.FileTree
