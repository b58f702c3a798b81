import BlackOil.Constants

/-!
# Sessions

The settings that a computation finds around it: the current store of constants
and the current precision. Stores have names and are shared: a scope makes a
store current, and assignments to it inside or outside the scope are seen alike.
A precision scope ends with the precision at its entry, whatever was set inside.

`within` and `withPrecision` run a computation inside a scope and leave the scope
whatever the outcome.
-/
namespace BlackOil

/-- The store that a scope makes current: a named one, or one of its own. -/
inductive Scope (α : Type) where
  | named (name : String)
  | given (constants : Constants α)

structure Session (α : Type) where
  /-- The named stores. One that is not listed is fresh. -/
  stores : List (String × Constants α) := []
  /-- The store that is current outside every scope. -/
  base : Constants α := {}
  /-- The scopes entered and not yet left, innermost first. -/
  scopes : List (Scope α) := []
  precision : Precision := .double
  /-- The precision at the entry of each open precision scope, innermost first. -/
  outer : List Precision := []

namespace Session
variable {α β : Type}

def store (s : Session α) (name : String) : Constants α := (s.stores.lookup name).getD {}

/-- The current store. -/
def constants (s : Session α) : Constants α :=
  match s.scopes with
  | [] => s.base
  | .named name :: _ => s.store name
  | .given constants :: _ => constants

def putStore (s : Session α) (name : String) (c : Constants α) : Session α :=
  { s with stores := (name, c) :: s.stores }

def enter (s : Session α) (scope : Scope α) : Session α := { s with scopes := scope :: s.scopes }

def leave (s : Session α) : Session α := { s with scopes := s.scopes.tail }

/-- Runs a computation inside a scope. -/
def within (s : Session α) (scope : Scope α) (run : Session α → β × Session α) :
    β × Session α :=
  let (outcome, after) := run (s.enter scope)
  (outcome, { after with scopes := s.scopes })

def setPrecision (s : Session α) (p : Precision) : Session α := { s with precision := p }

def enterPrecision (s : Session α) (p : Precision) : Session α :=
  { s with precision := p, outer := s.precision :: s.outer }

def leavePrecision (s : Session α) : Session α :=
  match s.outer with
  | [] => s
  | p :: outer => { s with precision := p, outer }

/-- Runs a computation inside a precision scope. -/
def withPrecision (s : Session α) (p : Precision) (run : Session α → β × Session α) :
    β × Session α :=
  let (outcome, after) := run (s.enterPrecision p)
  (outcome, { after with precision := s.precision, outer := s.outer })

@[simp] theorem leave_enter (s : Session α) (scope : Scope α) : (s.enter scope).leave = s := rfl

@[simp] theorem constants_enter_given (s : Session α) (c : Constants α) :
    (s.enter (.given c)).constants = c := rfl

@[simp] theorem constants_enter_named (s : Session α) (name : String) :
    (s.enter (.named name)).constants = s.store name := rfl

@[simp] theorem leavePrecision_enterPrecision (s : Session α) (p q : Precision) :
    ((s.enterPrecision p).setPrecision q).leavePrecision = s := rfl

theorem store_putStore (s : Session α) (name other : String) (c : Constants α) :
    (s.putStore name c).store other = if other = name then c else s.store other := by
  by_cases h : other = name
  · simp [store, putStore, h]
  · simp [store, putStore, h, List.lookup_cons, beq_false_of_ne h]

end Session
end BlackOil
