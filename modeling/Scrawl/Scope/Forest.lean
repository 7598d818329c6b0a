/-
  Scrawl.Scope.Forest — all scopes ever made.

  A scope has variables of its own and may lie inside another scope, its parent, which was made
  before it.  Looking a name up goes from a scope outwards along its chain of parents; setting one
  changes the nearest scope on the chain that owns the name, or makes the scope itself own it if
  none does.
-/

import Scrawl.Pairs
import Scrawl.Scope.Name

namespace Scrawl

/-! ## §1. Scopes -/

/-- A value in circulation.  If it is the very value of an add-on, and not just one like it, it
    carries the number of that registration. -/
structure Datum where
  /-- The value. -/
  value : Value
  /-- The registration it came from. -/
  mark : Option Nat := none
  deriving Inhabited

/-- One scope. -/
structure Scope where
  /-- The scope it lies in. -/
  parent : Option ScopeId
  /-- Its own variables, in the order in which they were first set. -/
  bindings : List (Name × Datum)
  deriving Inhabited

/-- The value of a scope's own variable. -/
def Scope.get? (s : Scope) (n : Name) : Option Datum := s.bindings.lookup n

/-- A scope with one of its own variables set. -/
def Scope.put (s : Scope) (n : Name) (d : Datum) : Scope :=
  { s with bindings := Pairs.put n d s.bindings }

/-! ## §2. The forest -/

/-- All scopes, in the order in which they were made. -/
structure Forest where
  /-- The scopes; the number of one is its position. -/
  scopes : Array Scope
  deriving Inhabited

namespace Forest

/-- No scopes. -/
def empty : Forest := ⟨#[]⟩

/-- The number of scopes. -/
def size (f : Forest) : Nat := f.scopes.size

/-- The value of a scope's own variable. -/
def own? (f : Forest) (e : ScopeId) (n : Name) : Option Datum :=
  f.scopes[e]?.bind (·.get? n)

/-- Whether a scope has a variable of its own with this name. -/
def owns (f : Forest) (e : ScopeId) (n : Name) : Bool := (f.own? e n).isSome

/-- A scope and those around it, from the inside out, at most `fuel` of them. -/
def chainFrom (f : Forest) : (fuel : Nat) → ScopeId → List ScopeId
  | 0, _ => []
  | fuel + 1, e =>
    match f.scopes[e]? with
    | none => []
    | some s =>
      match s.parent with
      | none => [e]
      | some p => e :: f.chainFrom fuel p

/-- A scope and all those around it, from the inside out.  As parents come before their children,
    there are no more of them than scopes up to this one. -/
def chain (f : Forest) (e : ScopeId) : List ScopeId := f.chainFrom (e + 1) e

/-! ## §3. Looking up and setting -/

/-- The nearest scope on the chain that owns a name. -/
def owner? (f : Forest) (e : ScopeId) (n : Name) : Option ScopeId :=
  (f.chain e).find? (f.owns · n)

/-- Whether a name is known in a scope. -/
def has (f : Forest) (e : ScopeId) (n : Name) : Bool := (f.owner? e n).isSome

/-- The value of a name in a scope. -/
def get? (f : Forest) (e : ScopeId) (n : Name) : Option Datum :=
  (f.chain e).findSome? (f.own? · n)

/-- How many scopes are visited to find a name, or to find out that there is none. -/
def visits (f : Forest) (e : ScopeId) (n : Name) : Nat :=
  match (f.chain e).findIdx? (f.owns · n) with
  | some i => i + 1
  | none => (f.chain e).length

/-- The forest with one scope's own variable set. -/
def put (f : Forest) (e : ScopeId) (n : Name) (d : Datum) : Forest :=
  ⟨f.scopes.modify e (·.put n d)⟩

/-- The forest with a name set as seen from a scope. -/
def set (f : Forest) (e : ScopeId) (n : Name) (d : Datum) : Forest :=
  f.put ((f.owner? e n).getD e) n d

/-- The forest with several names set in turn as seen from a scope. -/
def setAll (f : Forest) (e : ScopeId) (bindings : List (Name × Datum)) : Forest :=
  bindings.foldl (fun f b => f.set e b.1 b.2) f

/-- The forest with one more scope, which owns nothing. -/
def grow (f : Forest) (parent : Option ScopeId) : Forest :=
  ⟨f.scopes.push ⟨parent, []⟩⟩

end Forest

end Scrawl
