import BlackOil.Session

/-!
# Programs in a session

A program assigns constants to named stores, reads them, sets and asks for the precision,
and nests scopes and precision scopes, any of which it may leave by a fault. Its run is
recorded as a list of events. What a store or the precision should be at some point is
said by the events before it, without a session.
-/
namespace BlackOil
variable {α : Type}

/-- What a program does may depend on what it has read. -/
inductive Program (α : Type) where
  | done
  | fail (fault : Fault)
  | andThen (first second : Program α)
  /-- Goes on with the handler if the body fails. -/
  | attempt (body : Program α) (handler : Fault → Program α)
  /-- Assigns a bare value as an attribute. -/
  | assign (store : String) (name : AttributeName) (value : α)
  /-- Assigns a constant under any name. -/
  | assignItem (store name : String) (c : Constant α)
  /-- Reads an attribute of a named store, or else of the current one. -/
  | read (store : Option String) (name : AttributeName) (next : α → Program α)
  | setPrecision (p : Precision)
  | getPrecision (next : Precision → Program α)
  | scope (store : String) (body : Program α)
  | precisionScope (p : Precision) (body : Program α)

inductive Event (α : Type) where
  | assigned (store name : String) (c : Constant α)
  | read (store : Option String) (name : AttributeName) (outcome : Except Fault α)
  | setPrecision (p : Precision)
  | gotPrecision (p : Precision)
  | entered (store : String)
  | left
  | enteredPrecision (p : Precision)
  | leftPrecision

/-- How a program ended, and what it did until then. -/
structure Run (α : Type) where
  outcome : Except Fault Unit
  events : List (Event α) := []

variable [Scalar α]

/-- Reads an attribute of a named store of a session, or else of the current one. -/
def Session.read (s : Session α) (store : Option String) (name : AttributeName) :
    Except Fault α :=
  (store.elim s.constants s.store).read name

namespace Program

/-- A run that goes on after some events. -/
def after (events : List (Event α)) (rest : Run α × Session α) : Run α × Session α :=
  ({ rest.1 with events := events ++ rest.1.events }, rest.2)

/-- A run between the two ends of a scope. -/
def between (first last : Event α) (body : Run α × Session α) : Run α × Session α :=
  ({ body.1 with events := first :: body.1.events ++ [last] }, body.2)

def run : Program α → Session α → Run α × Session α
  | done, s => ({ outcome := .ok () }, s)
  | fail fault, s => ({ outcome := .error fault }, s)
  | andThen first second, s =>
    let (r, s') := first.run s
    match r.outcome with
    | .ok () => after r.events (second.run s')
    | .error _ => (r, s')
  | attempt body handler, s =>
    let (r, s') := body.run s
    match r.outcome with
    | .ok () => (r, s')
    | .error fault => after r.events ((handler fault).run s')
  | assign store name value, s =>
    match (s.store store).set name value with
    | .ok constants =>
      (⟨.ok (), [.assigned store name.text { value }]⟩, s.putStore store constants)
    | .error fault => ({ outcome := .error fault }, s)
  | assignItem store name c, s =>
    (⟨.ok (), [.assigned store name c]⟩, s.putStore store ((s.store store).assign name c))
  | read store name next, s =>
    let outcome := s.read store name
    match outcome with
    | .ok value => after [.read store name outcome] ((next value).run s)
    | .error fault => (⟨.error fault, [.read store name outcome]⟩, s)
  | setPrecision p, s => (⟨.ok (), [.setPrecision p]⟩, s.setPrecision p)
  | getPrecision next, s => after [.gotPrecision s.precision] ((next s.precision).run s)
  | scope store body, s => between (.entered store) .left (s.within (.named store) body.run)
  | precisionScope p body, s =>
    between (.enteredPrecision p) .leftPrecision (s.withPrecision p body.run)

end Program

/-- What a computation may do to a session. -/
inductive Session.Does : Session α → List (Event α) → Session α → Prop
  | nil (s : Session α) : Does s [] s
  | append {s s' s'' : Session α} {events events' : List (Event α)} (h : Does s events s')
      (h' : Does s' events' s'') : Does s (events ++ events') s''
  | assigned (s : Session α) (store name : String) (c : Constant α) :
      Does s [.assigned store name c] (s.putStore store ((s.store store).assign name c))
  | read (s : Session α) (store : Option String) (name : AttributeName) :
      Does s [.read store name (s.read store name)] s
  | setPrecision (s : Session α) (p : Precision) :
      Does s [.setPrecision p] (s.setPrecision p)
  | gotPrecision (s : Session α) : Does s [.gotPrecision s.precision] s
  | scope {s s' : Session α} {events : List (Event α)} (store : String)
      (h : Does (s.enter (.named store)) events s') :
      Does s (.entered store :: events ++ [.left]) { s' with scopes := s.scopes }
  | precisionScope {s s' : Session α} {events : List (Event α)} (p : Precision)
      (h : Does (s.enterPrecision p) events s') :
      Does s (.enteredPrecision p :: events ++ [.leftPrecision])
        { s' with precision := s.precision, outer := s.outer }

theorem Program.does (p : Program α) (s : Session α) : s.Does (p.run s).1.events (p.run s).2 := by
  induction p generalizing s with
  | done => exact .nil s
  | fail fault => exact .nil s
  | andThen first second ih ih' =>
    simp only [run]
    split
    · exact (ih s).append (ih' _)
    · exact ih s
  | attempt body handler ih ih' =>
    simp only [run]
    split
    · exact ih s
    · exact (ih s).append (ih' _ _)
  | assign store name value =>
    simp only [run, Constants.set]
    split
    · rename_i h
      split at h
      · cases h
      · cases h
        exact .assigned s store name.text { value }
    · exact .nil s
  | assignItem store name c => exact .assigned s store name c
  | read store name next ih =>
    simp only [run]
    split
    · exact (Session.Does.read s store name).append (ih _ s)
    · exact .read s store name
  | setPrecision p => exact .setPrecision s p
  | getPrecision next ih => exact (Session.Does.gotPrecision s).append (ih s.precision s)
  | scope store body ih => exact .scope store (ih _)
  | precisionScope p body ih => exact .precisionScope p (ih _)

end BlackOil
