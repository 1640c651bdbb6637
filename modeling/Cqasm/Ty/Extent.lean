import Cqasm.Fault

/-! Element types and sizes where a type must have them. -/
namespace Cqasm.Ty

def elementType (t : Ty) : Except Fault Ty :=
  match t.element? with
  | some element => .ok element
  | none => .error (.notArray t)

def extent (t : Ty) : Except Fault Int :=
  if t.size < 0 then .error (.unconstrainedSize t) else .ok t.size

end Cqasm.Ty
