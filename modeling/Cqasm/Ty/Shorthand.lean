import Cqasm.Number.Integer
import Cqasm.Ty.Basic

/-! Types written as strings of one-letter codes. -/
namespace Cqasm

inductive ShorthandError where
  | unknownCode (code : Char)
  | lowercaseQubit
  | tooManyQubits (count : Nat)
  deriving DecidableEq, Repr

def ShorthandError.message : ShorthandError → String
  | .unknownCode code => "unknown type code '" ++ code.toString ++ "' encountered"
  | .lowercaseQubit => "use uppercase Q for qubits"
  | .tooManyQubits count => "unitary over " ++ toString count ++ " qubits is too large"

namespace Ty

def ofCode : Char → Except ShorthandError Ty
  | 'Q' => .ok ⟨.scalar .qubit, true⟩
  | 'B' => .ok ⟨.scalar .bit, true⟩
  | 'V' => .ok ⟨.array .qubit unconstrained, true⟩
  | 'W' => .ok ⟨.array .bit unconstrained, true⟩
  | 'b' => .ok .bool
  | 'i' => .ok .int
  | 'f' => .ok .float
  | code => .error (.unknownCode code)

def ofCodesWith (read : Char → Except ShorthandError Ty) : List Char → Except ShorthandError (List Ty)
  | [] => .ok []
  | code :: rest => do
    let type ← read code
    let types ← ofCodesWith read rest
    return type :: types

def ofCodes (spec : String) : Except ShorthandError (List Ty) := ofCodesWith ofCode spec.toList

def unitarySide (n : Nat) : Except ShorthandError Int :=
  let side := Int.pow 2 n
  if (Number.int64? side).isSome ∧ (Number.int64? (side * side)).isSome then .ok side
  else .error (.tooManyQubits n)

def ofCodeV1 (n : Nat) (code : Char) : Except ShorthandError Ty :=
  let typed (shape : Shape) : Except ShorthandError Ty := .ok ⟨shape, code.isUpper⟩
  match code.toLower with
  | 'q' => if code.isUpper then typed (.scalar .qubit) else .error .lowercaseQubit
  | 'a' => typed (.scalar .axis)
  | 'b' => typed (.scalar .bool)
  | 'i' => typed (.scalar .int)
  | 'r' => typed (.scalar .float)
  | 'c' => typed (.scalar .complex)
  | 'u' => do
    let side ← unitarySide n
    typed (.matrix .complex side side)
  | 'm' => typed (.matrix .real unconstrained unconstrained)
  | 'n' => typed (.matrix .complex unconstrained unconstrained)
  | 's' => typed (.scalar .string)
  | 'j' => typed (.scalar .json)
  | _ => .error (.unknownCode code)

def ofCodesV1 (spec : String) : Except ShorthandError (List Ty) :=
  ofCodesWith (ofCodeV1 (spec.toList.count 'Q')) spec.toList

end Ty

end Cqasm
