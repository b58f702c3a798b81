/-!
# Phases and components

The three fluid phases and the three pseudo-components of the black-oil model,
and values given for each of them in the order water, oil, gas.
-/
namespace BlackOil

inductive Phase where
  | water | oil | gas
  deriving DecidableEq, Repr

inductive Component where
  | water | oil | gas
  deriving DecidableEq, Repr

def Phase.all : List Phase := [.water, .oil, .gas]

def Component.all : List Component := [.water, .oil, .gas]

def Phase.name : Phase → String
  | .water => "WATER"
  | .oil => "OIL"
  | .gas => "GAS"

def Component.name : Component → String
  | .water => "WATER"
  | .oil => "OIL"
  | .gas => "GAS"

/-- The position of a component in storage order. -/
def Component.position : Component → Nat
  | .water => 0
  | .oil => 1
  | .gas => 2

structure PerPhase (β : Type) where
  water : β
  oil : β
  gas : β
  deriving DecidableEq, Repr

structure PerComponent (β : Type) where
  water : β
  oil : β
  gas : β
  deriving DecidableEq, Repr

namespace PerPhase
variable {β γ : Type}

def get (v : PerPhase β) : Phase → β
  | .water => v.water
  | .oil => v.oil
  | .gas => v.gas

def map (f : β → γ) (v : PerPhase β) : PerPhase γ := ⟨f v.water, f v.oil, f v.gas⟩

def toList (v : PerPhase β) : List β := [v.water, v.oil, v.gas]

/-- The phases without a value. -/
def missing (v : PerPhase (Option β)) : List Phase :=
  Phase.all.filter fun p => (v.get p).isNone

/-- All three values, if there are three. -/
def all? (v : PerPhase (Option β)) : Option (PerPhase β) :=
  match v with
  | ⟨some water, some oil, some gas⟩ => some ⟨water, oil, gas⟩
  | _ => none

def set (v : PerPhase β) (p : Phase) (b : β) : PerPhase β :=
  match p with
  | .water => { v with water := b }
  | .oil => { v with oil := b }
  | .gas => { v with gas := b }

@[simp] theorem get_map (f : β → γ) (v : PerPhase β) (p : Phase) :
    (v.map f).get p = f (v.get p) := by cases p <;> rfl

end PerPhase

namespace PerComponent
variable {β γ : Type}

def get (v : PerComponent β) : Component → β
  | .water => v.water
  | .oil => v.oil
  | .gas => v.gas

def map (f : β → γ) (v : PerComponent β) : PerComponent γ := ⟨f v.water, f v.oil, f v.gas⟩

def toList (v : PerComponent β) : List β := [v.water, v.oil, v.gas]

/-- The components without a value. -/
def missing (v : PerComponent (Option β)) : List Component :=
  Component.all.filter fun k => (v.get k).isNone

/-- All three values, if there are three. -/
def all? (v : PerComponent (Option β)) : Option (PerComponent β) :=
  match v with
  | ⟨some water, some oil, some gas⟩ => some ⟨water, oil, gas⟩
  | _ => none

def set (v : PerComponent β) (k : Component) (b : β) : PerComponent β :=
  match k with
  | .water => { v with water := b }
  | .oil => { v with oil := b }
  | .gas => { v with gas := b }

@[simp] theorem get_map (f : β → γ) (v : PerComponent β) (k : Component) :
    (v.map f).get k = f (v.get k) := by cases k <;> rfl

end PerComponent

end BlackOil
