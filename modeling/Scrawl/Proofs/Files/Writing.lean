/-
  Scrawl.Proofs.Files.Writing — a file that has been written can be read.

  A path leads through folders to a file, or to a place where one can be made.  Setting the content of
  the file there makes the path lead to that file (`FileTree.follow_put`), as every folder on the way
  is still one, and so the path gives the content that was written (`FileTree.read_write`).
-/

import Scrawl.Files
import Scrawl.Proofs.Scope.Forest

namespace Scrawl

open Scrawl.Codec (Bytes)

namespace Pairs

variable {α β : Type} [BEq α]

/-- Setting a value loses no key. -/
theorem any_put {key : α} {value : β} {pairs : List (α × β)} (holds : α → Bool)
    (h : pairs.any (fun p => holds p.1) = true) :
    (put key value pairs).any (fun p => holds p.1) = true := by
  induction pairs with
  | nil => cases h
  | cons pair pairs ih =>
    rw [List.any_cons, Bool.or_eq_true] at h
    rw [put]
    split
    · rw [List.any_cons, Bool.or_eq_true]
      exact h
    · rw [List.any_cons, Bool.or_eq_true]
      exact h.imp id ih

end Pairs

namespace FileTree

variable {t : FileTree} {p here : Location} {content : Bytes}

theorem get?_put (t : FileTree) (p q : Location) (content : Bytes) :
    (t.put p content).get? q = if q = p then some content else t.get? q := by
  unfold put get?
  rw [Pairs.lookup_put]
  by_cases h : q = p
  · rw [if_pos h, if_pos (beq_iff_eq.2 h)]
  · rw [if_neg h, if_neg (by simpa using h)]

/-- A folder stays one. -/
theorem isFolder_put (h : t.isFolder here = true) : (t.put p content).isFolder here = true := by
  unfold isFolder at h ⊢
  rw [Bool.or_eq_true] at h ⊢
  refine h.imp id fun hfile => ?_
  exact Pairs.any_put (fun q => here.isPrefixOf q && decide (here.length < q.length)) hfile

/-- A target is the file at a place, or the place where it can be made. -/
inductive Accepts (t : FileTree) (p : Location) (target : Target) : Prop
  /-- The file exists. -/
  | file (htarget : target = .file p) (h : (t.get? p).isSome = true)
  /-- There is nothing yet. -/
  | free (htarget : target = .free p) (hfile : t.get? p = none) (hfolder : t.isFolder p = false)

/-- Whatever a path leads to is a folder or accepts a file. -/
theorem accepts_of_follow {parts : List String} {at? : Option Location} {target : Target}
    (h : t.follow at? parts = .ok target) : target = .folder ∨ ∃ p, t.Accepts p target := by
  fun_induction t.follow at? parts with
  | case1 => exact .inl (Except.ok.inj h).symm
  | case2 _ _ _ _ ih => exact ih h
  | case3 _ _ _ _ _ ih => exact ih h
  | case4 => cases h
  | case5 => cases h
  | case6 _ _ _ _ _ _ there hfile =>
    exact .inr ⟨there, .file (Except.ok.inj h).symm hfile⟩
  | case7 => cases h
  | case8 _ _ _ _ _ _ _ _ _ ih => exact ih h
  | case9 _ _ _ _ _ _ there hfile hfolder =>
    exact .inr ⟨there, .free (Except.ok.inj h).symm (by simpa using hfile) (by simpa using hfolder)⟩
  | case10 => cases h

/-- **Setting a file makes the paths that lead to its place lead to it**, and those that lead to another
    file still do so. -/
theorem follow_put {q : Location} {target changed : Target} (hchanged : t.Accepts q changed)
    (htarget : t.Accepts p target) (hfile : target = .file p ∨ p = q) {parts : List String}
    {at? : Option Location} (h : t.follow at? parts = .ok target) :
    (t.put q content).follow at? parts = .ok (.file p) := by
  -- a folder on the way is not the place that is set
  have hway : ∀ there : Location, t.get? there = none → t.isFolder there = true →
      ((t.put q content).get? there).isSome = false ∧
        (t.put q content).isFolder there = true := by
    intro there hfile hfolder
    refine ⟨?_, isFolder_put hfolder⟩
    have hne : there ≠ q := by
      intro heq
      cases hchanged with
      | file _ hsome => rw [← heq, hfile] at hsome; cases hsome
      | free _ _ hno => rw [← heq, hfolder] at hno; cases hno
    rw [get?_put, if_neg hne, hfile]
    rfl
  -- where the path leads there is a file now
  have hplace : ∀ there : Location, target = .file there ∨ target = .free there →
      there = p ∧ ((t.put q content).get? there).isSome = true := by
    intro there hthere
    rw [get?_put]
    cases htarget with
    | file htarget hsome =>
      rcases hthere with hthere | hthere
      · cases hthere.symm.trans htarget
        refine ⟨rfl, ?_⟩
        split
        · rfl
        · exact hsome
      · cases hthere.symm.trans htarget
    | free htarget _ _ =>
      rcases hthere with hthere | hthere
      · cases hthere.symm.trans htarget
      · cases hthere.symm.trans htarget
        refine ⟨rfl, ?_⟩
        rw [if_pos (hfile.resolve_left (by rw [htarget]; exact nofun))]
        rfl
  fun_induction t.follow at? parts with
  | case1 =>
    obtain rfl := Except.ok.inj h
    cases htarget with
    | file hfile _ => cases hfile
    | free hfree _ _ => cases hfree
  | case2 _ _ _ hskip ih =>
    rw [follow.eq_def]
    dsimp only
    rw [if_pos hskip, ih h]
  | case3 _ _ _ hskip hup ih =>
    rw [follow.eq_def]
    dsimp only
    rw [if_neg hskip, if_pos hup, ih h]
  | case4 => cases h
  | case5 => cases h
  | case6 _ _ hskip hup hlong _ there _ hend =>
    obtain ⟨heq, hsome⟩ := hplace there (.inl (Except.ok.inj h).symm)
    rw [follow.eq_def]
    dsimp only
    rw [if_neg hskip, if_neg hup, if_neg hlong, if_pos hsome, if_pos hend]
    exact congrArg (Except.ok ∘ Target.file) heq
  | case7 => cases h
  | case8 _ _ hskip hup hlong _ there hfile hfolder ih =>
    obtain ⟨hnone, hstill⟩ := hway there (by simpa using hfile) hfolder
    rw [follow.eq_def]
    dsimp only
    rw [if_neg hskip, if_neg hup, if_neg hlong, if_neg (by rw [hnone]; exact Bool.false_ne_true),
      if_pos hstill, ih h]
  | case9 _ _ hskip hup hlong _ there _ _ hend =>
    obtain ⟨heq, hsome⟩ := hplace there (.inr (Except.ok.inj h).symm)
    rw [follow.eq_def]
    dsimp only
    rw [if_neg hskip, if_neg hup, if_neg hlong, if_pos hsome, if_pos hend]
    exact congrArg (Except.ok ∘ Target.file) heq
  | case10 => cases h

/-- Where a path starts: a slash in front leaves the known part. -/
def start (path : String) : Option Location :=
  if path.toList.head? == some '/' then none else some []

/-- A path that leads somewhere leads there by its parts, and any other files only make a difference
    to where these lead. -/
theorem resolve_of_ok {path : String} {target : Target} (h : t.resolve path = .ok target) :
    t.follow (start path) ((parts path.toList).map String.ofList) = .ok target ∧
      ∀ (t' : FileTree) (target' : Target),
        t'.follow (start path) ((parts path.toList).map String.ofList) = .ok target' →
          t'.resolve path = .ok target' := by
  unfold resolve at h
  split at h
  · cases h
  next hzero =>
  split at h
  · cases h
  next hempty =>
  split at h
  · cases h
  next hlimit =>
  dsimp only at h
  split at h
  · next found hfollow =>
    obtain rfl := Except.ok.inj h
    refine ⟨hfollow, fun t' target' hfollow' => ?_⟩
    unfold resolve
    unfold start at hfollow'
    rw [if_neg hzero, if_neg hempty, if_neg hlimit]
    dsimp only
    rw [hfollow']
  · cases h

/-- Whatever accepts a file can be written to, and is then the file that was written. -/
theorem write_of_accepts {path : String} {target : Target} (h : t.resolve path = .ok target)
    (htarget : t.Accepts p target) (content : Bytes) :
    t.write path content = .ok (t.put p content) ∧
      (t.put p content).read path = .ok content := by
  constructor
  · unfold write
    rw [h]
    cases htarget with
    | file htarget _ => rw [htarget]; rfl
    | free htarget _ _ => rw [htarget]; rfl
  · obtain ⟨hfollow, hresolve⟩ := resolve_of_ok h
    unfold read
    rw [hresolve _ _ (follow_put htarget htarget (.inr rfl) hfollow)]
    show Except.ok (((t.put p content).get? p).getD []) = _
    rw [get?_put, if_pos rfl]
    rfl

/-- **What has been written can be read.** -/
theorem read_write {path : String} {t' : FileTree} (h : t.write path content = .ok t') :
    t'.read path = .ok content := by
  cases hresolve : t.resolve path with
  | error f =>
    unfold write at h
    rw [hresolve] at h
    cases h
  | ok target =>
    obtain ⟨hfollow, -⟩ := resolve_of_ok hresolve
    rcases accepts_of_follow hfollow with rfl | ⟨p, htarget⟩
    · unfold write at h
      rw [hresolve] at h
      cases h
    · obtain ⟨hwrite, hread⟩ := write_of_accepts hresolve htarget content
      obtain rfl := Except.ok.inj (hwrite.symm.trans h)
      exact hread

end FileTree

end Scrawl
