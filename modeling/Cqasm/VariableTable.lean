import Cqasm.Table
import Cqasm.Text.CasePolicy
import Cqasm.Value.Basic

/-! Values bound to names. A later binding of a name replaces the earlier one. -/
namespace Cqasm

structure VariableTable where
  policy : CasePolicy
  bindings : Table Value

namespace VariableTable

def empty (policy : CasePolicy) : VariableTable := ⟨policy, .empty⟩

def find? (t : VariableTable) (name : String) : Option Value := t.bindings.find? (t.policy.key name)

def contains (t : VariableTable) (name : String) : Bool := (t.find? name).isSome

def add (t : VariableTable) (name : String) (v : Value) : VariableTable :=
  { t with bindings := t.bindings.insert (t.policy.key name) v }

def resolve (t : VariableTable) (name : String) : Except Fault Value :=
  match t.find? name with
  | some v => .ok v
  | none => .error (.unknownVariable name)

def size (t : VariableTable) : Nat := t.bindings.size

end VariableTable

end Cqasm
