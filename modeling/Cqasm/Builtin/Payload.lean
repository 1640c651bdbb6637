import Cqasm.Value.Basic

/-! Functions on scalar payloads, lifted to functions on constants. -/
namespace Cqasm

abbrev Native := List Value → Except Fault Value

class Payload (α : Type) where
  kind : Scalar
  ofValue? : Value → Option α
  toConstant : α → Constant

instance : Payload Bool := ⟨.bool, Value.bool?, .bool⟩

instance : Payload Int64 := ⟨.int, Value.int?, .int⟩

instance : Payload Float := ⟨.float, Value.float?, .float⟩

instance : Payload Complex := ⟨.complex, Value.complex?, .complex⟩

namespace Payload

def type (α : Type) [Payload α] : Ty := .ofScalar (kind α)

def read (α : Type) [Payload α] (v : Value) : Except Fault α :=
  match ofValue? v with
  | some a => .ok a
  | none => .error (.argumentKind (kind α) v.type)

def toValue {α : Type} [Payload α] (a : α) : Value := .const (toConstant a)

end Payload

namespace Native

/- Arguments are checked in this order: all constant, the right number, each of the right kind. -/
def unary {α β : Type} [Payload α] [Payload β] (f : α → Except Fault β) : Native := fun args => do
  Value.requireConstants args
  match args with
  | [a] =>
    let result ← f (← Payload.read α a)
    return Payload.toValue result
  | _ => .error (.argumentCount 1 args.length)

def binary {α β : Type} [Payload α] [Payload β] (f : α → α → Except Fault β) : Native := fun args => do
  Value.requireConstants args
  match args with
  | [a, b] =>
    let x ← Payload.read α a
    let y ← Payload.read α b
    return Payload.toValue (← f x y)
  | _ => .error (.argumentCount 2 args.length)

def branch : Native
  | [condition, yes, no] => do
    Value.requireConstants [condition, yes, no]
    let b ← Payload.read Bool condition
    return if b then yes else no
  | _ => .error .branchCount

end Native

end Cqasm
