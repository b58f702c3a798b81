import BlackOil.Proofs.Session.Program
import BlackOil.Scalar.Exact

/-!
# Scopes unwind

The events before a read decide what it gives. The current store is that of the latest scope
which has not been left, and a store gives the constant that was last assigned to it, or else
the default of the name. The precision is the one set last, where precision scopes that have
been left do not count. The events of a scope are balanced, so that nothing of it is seen once
it has been left, except for the assignments to the stores.
-/
namespace BlackOil
variable {α : Type}

/-- The constant that an event gives to a name of a store. -/
def Event.assigned? (store name : String) : Event α → Option (Constant α)
  | assigned store' name' c => if store' = store ∧ name' = name then some c else none
  | _ => none

/-- The constant last assigned to a name of a store, in a past with the latest event first. -/
def lastAssigned (store name : String) (past : List (Event α)) : Option (Constant α) :=
  past.findSome? (Event.assigned? store name)

/-- The store of the latest scope that has not been left. The number is that of the scopes
that have been left and whose entry lies further back. -/
def currentStore : Nat → List (Event α) → Option String
  | _, [] => none
  | closed, .left :: past => currentStore (closed + 1) past
  | 0, .entered store :: _ => some store
  | closed + 1, .entered _ :: past => currentStore closed past
  | closed, _ :: past => currentStore closed past

/-- The precision set last outside the precision scopes that have been left. -/
def currentPrecision (start : Precision) : Nat → List (Event α) → Precision
  | _, [] => start
  | closed, .leftPrecision :: past => currentPrecision start (closed + 1) past
  | 0, .enteredPrecision p :: _ => p
  | closed + 1, .enteredPrecision _ :: past => currentPrecision start closed past
  | 0, .setPrecision p :: _ => p
  | closed, _ :: past => currentPrecision start closed past

variable [Scalar α]

/-- The constant under a name of a store, or of the default store if none is named. -/
def constantAfter (store : Option String) (name : String) (past : List (Event α)) :
    Option (Constant α) :=
  (store.bind fun store => lastAssigned store name past).or
    ((Quantity.ofName? name).map Quantity.default)

/-- What a read of a store gives. Under a reserved name no constant is found. -/
def readAfter (store : Option String) (name : AttributeName) (past : List (Event α)) :
    Except Fault α :=
  if name.isReserved then .error (.unknownConstant name.text)
  else match constantAfter store name.text past with
    | some c => .ok c.value
    | none => .error (.unknownConstant name.text)

/-- A read gives what the past says. It is of the current store if it names none. -/
def Event.Agrees (start : Precision) (past : List (Event α)) : Event α → Prop
  | read store name outcome => outcome = readAfter (store.or (currentStore 0 past)) name past
  | gotPrecision p => p = currentPrecision start 0 past
  | _ => True

def AllAgree (start : Precision) : List (Event α) → List (Event α) → Prop
  | _, [] => True
  | past, event :: events => event.Agrees start past ∧ AllAgree start (event :: past) events

theorem allAgree_append {start : Precision} {past events events' : List (Event α)} :
    AllAgree start past (events ++ events') ↔
      AllAgree start past events ∧ AllAgree start (events.reverse ++ past) events' := by
  induction events generalizing past with
  | nil => simp [AllAgree]
  | cons event events ih => simp [AllAgree, ih, and_assoc]

omit [Scalar α] in
theorem lastAssigned_append (store name : String) (events past : List (Event α)) :
    lastAssigned store name (events ++ past) =
      (lastAssigned store name events).or (lastAssigned store name past) :=
  List.findSome?_append

omit [Scalar α] in
theorem lastAssigned_singleton (store name : String) (event : Event α) :
    lastAssigned store name [event] = event.assigned? store name := by
  rw [lastAssigned, List.findSome?_cons]
  cases event.assigned? store name <;> rfl

omit [Scalar α] in
/-- The ends of a scope assign nothing. -/
theorem lastAssigned_between {store name : String} {first last : Event α}
    (hfirst : first.assigned? store name = none) (hlast : last.assigned? store name = none)
    (events : List (Event α)) : lastAssigned store name (first :: events ++ [last]).reverse =
      lastAssigned store name events.reverse := by
  rw [List.cons_append, List.reverse_cons, List.reverse_append, List.reverse_singleton,
    lastAssigned_append, lastAssigned_append, lastAssigned_singleton, lastAssigned_singleton,
    hfirst, hlast, Option.none_or, Option.or_none]

/-- Events that open and close scopes in pairs show nothing of themselves outside. -/
structure Balanced (events : List (Event α)) : Prop where
  currentStore_eq : ∀ closed past,
    currentStore closed (events.reverse ++ past) = currentStore closed past
  /-- Seen from behind the end of a precision scope. -/
  currentPrecision_eq : ∀ start closed past,
    currentPrecision start (closed + 1) (events.reverse ++ past) =
      currentPrecision start (closed + 1) past

namespace Session

/-- A session is as the past of a program says that started with a precision. -/
structure Follows (start : Precision) (past : List (Event α)) (s : Session α) : Prop where
  scopes : s.scopes.head? = (currentStore 0 past).map .named
  precision : s.precision = currentPrecision start 0 past
  base : ∀ name, s.base.find? name = constantAfter none name past
  store : ∀ store name, (s.store store).find? name = constantAfter (some store) name past

namespace Does
variable {s s' : Session α} {events : List (Event α)}

theorem balanced (h : s.Does events s') : Balanced events := by
  induction h with
  | nil s => exact ⟨fun _ _ => rfl, fun _ _ _ => rfl⟩
  | append h h' ih ih' =>
    constructor
    · intro closed past
      rw [List.reverse_append, List.append_assoc, ih'.currentStore_eq, ih.currentStore_eq]
    · intro start closed past
      rw [List.reverse_append, List.append_assoc, ih'.currentPrecision_eq,
        ih.currentPrecision_eq]
  | assigned s store name c => constructor <;> simp [currentStore, currentPrecision]
  | read s store name => constructor <;> simp [currentStore, currentPrecision]
  | setPrecision s p => constructor <;> simp [currentStore, currentPrecision]
  | gotPrecision s => constructor <;> simp [currentStore, currentPrecision]
  | scope store h ih =>
    constructor
    · simp [currentStore, ih.currentStore_eq]
    · simp [currentPrecision, ih.currentPrecision_eq]
  | precisionScope p h ih =>
    constructor
    · simp [currentStore, ih.currentStore_eq]
    · simp [currentPrecision, ih.currentPrecision_eq]

/-- Every scope that was entered has been left. -/
theorem keeps_scopes (h : s.Does events s') : s'.scopes = s.scopes ∧ s'.outer = s.outer := by
  induction h with
  | nil s => exact ⟨rfl, rfl⟩
  | append h h' ih ih' => exact ⟨ih'.1.trans ih.1, ih'.2.trans ih.2⟩
  | assigned s store name c => exact ⟨rfl, rfl⟩
  | read s store name => exact ⟨rfl, rfl⟩
  | setPrecision s p => exact ⟨rfl, rfl⟩
  | gotPrecision s => exact ⟨rfl, rfl⟩
  | scope store h ih => exact ⟨rfl, ih.2⟩
  | precisionScope p h ih => exact ⟨ih.1, rfl⟩

/-- The store outside every scope has no name to assign to it by. -/
theorem keeps_base (h : s.Does events s') : s'.base = s.base := by
  induction h with
  | append h h' ih ih' => exact ih'.trans ih
  | scope store h ih => exact ih
  | precisionScope p h ih => exact ih
  | _ => rfl

/-- A store holds what was assigned to it last, and else what it held before. -/
theorem find?_store (h : s.Does events s') (store name : String) :
    (s'.store store).find? name =
      (lastAssigned store name events.reverse).or ((s.store store).find? name) := by
  induction h with
  | nil s => rfl
  | append h h' ih ih' =>
    rw [ih', ih, List.reverse_append, lastAssigned_append, Option.or_assoc]
  | assigned s store' name' c =>
    rw [List.reverse_singleton, lastAssigned_singleton, Event.assigned?, store_putStore]
    by_cases hstore : store = store'
    · subst hstore
      rw [if_pos rfl, Constants.find?_assign]
      by_cases hname : name = name'
      · simp [hname]
      · simp [hname, Ne.symm hname]
    · simp [hstore, Ne.symm hstore]
  | read s store' name' => rfl
  | setPrecision s p => rfl
  | gotPrecision s => rfl
  | scope store' h ih =>
    rw [lastAssigned_between rfl rfl]
    exact ih
  | precisionScope p h ih =>
    rw [lastAssigned_between rfl rfl]
    exact ih

theorem precision_eq {start : Precision} (h : s.Does events s') {past : List (Event α)}
    (hs : s.precision = currentPrecision start 0 past) :
    s'.precision = currentPrecision start 0 (events.reverse ++ past) := by
  induction h generalizing past with
  | nil s => exact hs
  | append h h' ih ih' =>
    rw [List.reverse_append, List.append_assoc]
    exact ih' (ih hs)
  | assigned s store name c => exact hs
  | read s store name => exact hs
  | setPrecision s p => rfl
  | gotPrecision s => exact hs
  | scope store h ih =>
    have hentered : currentPrecision start 0 (.entered store :: past) =
        currentPrecision start 0 past := rfl
    simpa [currentPrecision] using ih (hs.trans hentered.symm)
  | precisionScope p h ih =>
    simpa [currentPrecision, h.balanced.currentPrecision_eq] using hs

end Does

namespace Follows
variable {start : Precision} {past events : List (Event α)} {s s' : Session α}

theorem does (hs : s.Follows start past) (h : s.Does events s') :
    s'.Follows start (events.reverse ++ past) where
  scopes := by rw [h.keeps_scopes.1, h.balanced.currentStore_eq, hs.scopes]
  precision := h.precision_eq hs.precision
  base name := by
    rw [h.keeps_base]
    exact hs.base name
  store store name := by
    rw [h.find?_store, hs.store, constantAfter, constantAfter, Option.bind_some,
      Option.bind_some, lastAssigned_append, Option.or_assoc]

theorem enter (hs : s.Follows start past) (store : String) :
    (s.enter (.named store)).Follows start (.entered store :: past) where
  scopes := rfl
  precision := hs.precision
  base := hs.base
  store := hs.store

theorem enterPrecision (hs : s.Follows start past) (p : Precision) :
    (s.enterPrecision p).Follows start (.enteredPrecision p :: past) where
  scopes := hs.scopes
  precision := rfl
  base := hs.base
  store := hs.store

/-- The current store is the one that the past makes current. -/
theorem find?_constants (hs : s.Follows start past) (name : String) :
    s.constants.find? name = constantAfter (currentStore 0 past) name past := by
  have hscopes := hs.scopes
  unfold constants
  cases hcurrent : currentStore 0 past with
  | none =>
    rw [hcurrent, Option.map_none, List.head?_eq_none_iff] at hscopes
    rw [hscopes]
    exact hs.base name
  | some store =>
    rw [hcurrent, Option.map_some, List.head?_eq_some_iff] at hscopes
    obtain ⟨rest, hscopes⟩ := hscopes
    rw [hscopes]
    exact hs.store store name

theorem read_eq (hs : s.Follows start past) (store : Option String) (name : AttributeName) :
    s.read store name = readAfter (store.or (currentStore 0 past)) name past := by
  have hfind : (store.elim s.constants s.store).find? name.text =
      constantAfter (store.or (currentStore 0 past)) name.text past := by
    cases store with
    | none => exact hs.find?_constants name.text
    | some store => exact hs.store store name.text
  rw [read, Constants.read, hfind]
  rfl

end Follows

/-- What a program reads is what its past says. -/
theorem Does.allAgree {start : Precision} {past events : List (Event α)} {s s' : Session α}
    (h : s.Does events s') (hs : s.Follows start past) : AllAgree start past events := by
  induction h generalizing past with
  | nil s => trivial
  | append h h' ih ih' => exact allAgree_append.mpr ⟨ih hs, ih' (hs.does h)⟩
  | assigned s store name c => exact ⟨trivial, trivial⟩
  | read s store name => exact ⟨hs.read_eq store name, trivial⟩
  | setPrecision s p => exact ⟨trivial, trivial⟩
  | gotPrecision s => exact ⟨hs.precision, trivial⟩
  | scope store h ih =>
    exact ⟨trivial, allAgree_append.mpr ⟨ih (hs.enter store), trivial, trivial⟩⟩
  | precisionScope p h ih =>
    exact ⟨trivial, allAgree_append.mpr ⟨ih (hs.enterPrecision p), trivial, trivial⟩⟩

theorem follows_start (start : Precision) :
    Follows start [] ({ precision := start } : Session α) where
  scopes := rfl
  precision := rfl
  base _ := rfl
  store _ _ := rfl

end Session

namespace Program

/-- A program reads what its past says, and whatever it does inside a scope, and however the
scope is left, what was current at the entry is current again. -/
structure Unwinds (p : Program α) : Prop where
  reads : ∀ start, AllAgree start [] (p.run { precision := start }).1.events
  /-- A constant of one store depends on the assignments to this store alone. -/
  store : ∀ (s : Session α) (store name : String), ((p.run s).2.store store).find? name =
    (lastAssigned store name (p.run s).1.events.reverse).or ((s.store store).find? name)
  /-- A scope brings back the store. The precision stays as its body left it. -/
  scope : ∀ (s : Session α) (store : String),
    ((scope store p).run s).1.outcome = (p.run (s.enter (.named store))).1.outcome ∧
      ((scope store p).run s).2 = (p.run (s.enter (.named store))).2.leave ∧
      ((scope store p).run s).2.scopes = s.scopes ∧
      ((scope store p).run s).2.precision = (p.run (s.enter (.named store))).2.precision
  /-- A precision scope brings back the precision. It does not touch the stores. -/
  precisionScope : ∀ (s : Session α) (q : Precision),
    ((precisionScope q p).run s).1.outcome = (p.run (s.enterPrecision q)).1.outcome ∧
      ((precisionScope q p).run s).2 = (p.run (s.enterPrecision q)).2.leavePrecision ∧
      ((precisionScope q p).run s).2.precision = s.precision ∧
      ((precisionScope q p).run s).2.scopes = s.scopes

theorem unwinds (p : Program α) : p.Unwinds where
  reads start := (p.does _).allAgree (Session.follows_start start)
  store s := (p.does s).find?_store
  scope s store := by
    have hscopes := (p.does (s.enter (.named store))).keeps_scopes.1
    refine ⟨rfl, ?_, rfl, rfl⟩
    rw [Session.leave, hscopes]
    rfl
  precisionScope s q := by
    obtain ⟨hscopes, houter⟩ := (p.does (s.enterPrecision q)).keeps_scopes
    refine ⟨rfl, ?_, rfl, hscopes⟩
    rw [Session.leavePrecision, houter]
    rfl

/-- A constant may be stored under a reserved name, but no read gives it. -/
theorem not_forall_read_eq_lastAssigned : ¬∀ (p : Program Exact)
    (before after : List (Event Exact)) (store : String) (name : AttributeName)
    (outcome : Except Fault Exact) (c : Constant Exact),
    (p.run {}).1.events = before ++ .read none name outcome :: after →
      currentStore 0 before.reverse = some store →
      lastAssigned store name.text before.reverse = some c → outcome = .ok c.value := by
  intro h
  let name : AttributeName := ⟨"_x", by decide +kernel⟩
  have hreserved : name.isReserved := by decide +kernel
  have hevents : (Program.run (.andThen (.assignItem "s" "_x" { value := .value 1 })
      (.scope "s" (.read none name fun _ => .done))) ({} : Session Exact)).1.events =
      [.assigned "s" "_x" { value := .value 1 }, .entered "s"] ++
        .read none name (.error (.unknownConstant "_x")) :: [.left] := by
    simp [run, after, between, Session.within, Session.read, Constants.read, hreserved]
    rfl
  cases h _ _ _ "s" name _ _ hevents rfl rfl

end Program
end BlackOil
