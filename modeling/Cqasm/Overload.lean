import Cqasm.Table
import Cqasm.Text.CasePolicy
import Cqasm.Value.Promotion

/-! Overloaded names. A name stands for a list of overloads in order of registration, and the first one that
all arguments promote to is meant. -/
namespace Cqasm

structure Overload (α : Type) where
  tag : α
  params : List Ty

namespace Overload

def promoted? {α : Type} (o : Overload α) (args : List Value) : Option (List Value) :=
  Value.promoteAll args o.params

def firstMatch? {α : Type} (overloads : List (Overload α)) (args : List Value) : Option (α × List Value) :=
  overloads.findSome? fun o => (o.promoted? args).map (o.tag, ·)

end Overload

structure OverloadedName (α : Type) where
  name : String
  overloads : List (Overload α)

structure OverloadTable (α : Type) where
  policy : CasePolicy
  names : Table (OverloadedName α)

namespace OverloadTable

def empty {α : Type} (policy : CasePolicy) : OverloadTable α := ⟨policy, .empty⟩

def find? {α : Type} (t : OverloadTable α) (name : String) : Option (OverloadedName α) :=
  t.names.find? (t.policy.key name)

def contains {α : Type} (t : OverloadTable α) (name : String) : Bool := t.names.contains (t.policy.key name)

/-- Nothing is checked against earlier overloads: a later one with the same parameters is never reached. -/
def add {α : Type} (t : OverloadTable α) (name : String) (tag : α) (params : List Ty) : OverloadTable α :=
  { t with
    names := t.names.alter (t.policy.key name) fun
      | none => ⟨name, [⟨tag, params⟩]⟩
      | some entry => { entry with overloads := entry.overloads ++ [⟨tag, params⟩] } }

def resolve {α : Type} (t : OverloadTable α) (name : String) (args : List Value) :
    Except Fault (α × List Value) :=
  match t.find? name with
  | none => .error (.unknownName name)
  | some entry =>
    match Overload.firstMatch? entry.overloads args with
    | some found => .ok found
    | none => .error (.noOverload name (args.map Value.type))

def toList {α : Type} (t : OverloadTable α) : List (OverloadedName α) := t.names.values

def tags {α : Type} (t : OverloadTable α) : List α :=
  t.toList.flatMap fun entry => entry.overloads.map Overload.tag

end OverloadTable

end Cqasm
