import Cqasm.Builtin.Integer
import Cqasm.Builtin.Payload
import Cqasm.Number.Power

/-! The functions and operators of the language, in order of registration. Each can be evaluated during
analysis, and called at run time where it cannot. Operators are functions named `operator` and their
symbol. -/
namespace Cqasm

structure Builtin where
  name : String
  params : List Ty
  result : Ty
  native : Native

namespace Builtin

def runtime (b : Builtin) : RuntimeFunction := ⟨b.name, b.params, b.result⟩

def unary {α β : Type} [Payload α] [Payload β] (name : String) (f : α → Except Fault β) : Builtin :=
  ⟨name, [Payload.type α], Payload.type β, .unary f⟩

def binary {α β : Type} [Payload α] [Payload β] (name : String) (f : α → α → Except Fault β) : Builtin :=
  ⟨name, [Payload.type α, Payload.type α], Payload.type β, .binary f⟩

def total {α β : Type} [Payload α] [Payload β] (name : String) (f : α → β) : Builtin :=
  unary name fun a => .ok (f a)

def total₂ {α β : Type} [Payload α] [Payload β] (name : String) (f : α → α → β) : Builtin :=
  binary name fun a b => .ok (f a b)

def comparison (symbol : String) (onBool : Bool → Bool → Bool) (onInt : Int64 → Int64 → Bool)
    (onFloat : Float → Float → Bool) : List Builtin :=
  [total₂ ("operator" ++ symbol) onBool, total₂ ("operator" ++ symbol) onInt,
    total₂ ("operator" ++ symbol) onFloat]

def choice (type : Ty) : Builtin := ⟨"operator?:", [.bool, type, type], type, .branch⟩

def arithmetic : List Builtin :=
  [unary "operator-" negate,
    total "operator-" (fun x : Float => -x),
    total "operator~" (fun a : Int64 => ~~~a),
    total "operator!" (fun a : Bool => !a),
    binary "operator+" add,
    total₂ "operator+" (fun x y : Float => x + y),
    binary "operator-" subtract,
    total₂ "operator-" (fun x y : Float => x - y),
    binary "operator*" multiply,
    total₂ "operator*" (fun x y : Float => x * y),
    binary "operator/" divide,
    total₂ "operator/" (fun x y : Float => x / y),
    binary "operator%" remainder,
    total₂ "operator**" Number.pow]

def comparisons : List Builtin :=
  comparison "==" (· == ·) (· == ·) (· == ·) ++
  comparison "!=" (· != ·) (· != ·) (· != ·) ++
  comparison ">=" (fun a b => a || !b) (fun a b => decide (b ≤ a)) (fun x y => decide (y ≤ x)) ++
  comparison ">" (fun a b => a && !b) (fun a b => decide (b < a)) (fun x y => decide (y < x)) ++
  comparison "<=" (fun a b => !a || b) (fun a b => decide (a ≤ b)) (fun x y => decide (x ≤ y)) ++
  comparison "<" (fun a b => !a && b) (fun a b => decide (a < b)) (fun x y => decide (x < y))

def bitwise : List Builtin :=
  [total₂ "operator&" (fun a b : Int64 => a &&& b),
    total₂ "operator^" (fun a b : Int64 => a ^^^ b),
    total₂ "operator|" (fun a b : Int64 => a ||| b),
    binary "operator<<" shiftLeft,
    binary "operator>>" shiftRight]

def logical : List Builtin :=
  [total₂ "operator&&" (fun a b : Bool => a && b),
    total₂ "operator^^" (fun a b : Bool => a != b),
    total₂ "operator||" (fun a b : Bool => a || b),
    choice .bool, choice .int, choice .float]

def mathematics : List Builtin :=
  [total "sqrt" Float.sqrt, total "exp" Number.exp, total "log" Number.log, total "sin" Number.sin,
    total "cos" Number.cos, total "tan" Number.tan, total "sinh" Number.sinh, total "cosh" Number.cosh,
    total "tanh" Number.tanh, total "asin" Number.asin, total "acos" Number.acos, total "atan" Number.atan,
    total "asinh" Number.asinh, total "acosh" Number.acosh, total "atanh" Number.atanh,
    unary "abs" absolute, total "abs" Float.abs]

def complexNumbers : List Builtin :=
  [total₂ "complex" Complex.mk, total "real" Complex.re, total "imag" Complex.im]

def all : List Builtin := arithmetic ++ comparisons ++ bitwise ++ logical ++ mathematics ++ complexNumbers

def constants : List (String × Constant) :=
  [("true", .bool true), ("false", .bool false), ("pi", .float 3.141592653589793),
    ("eu", .float 2.718281828459045), ("tau", .float 6.283185307179586), ("im", .complex ⟨0.0, 1.0⟩)]

end Builtin

end Cqasm
