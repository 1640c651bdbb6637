import Cqasm.Analysis.Expression
import Cqasm.Analysis.Outcome
import Cqasm.Gate.Rules

/-! Analysis of annotations, gates, instructions and assignments. A faulty operand of an annotation is left out and
noted; it stops nothing. -/
namespace Cqasm.Analysis

open Cqasm.Tree (Expr)

def annotationOperands (scopes : ScopeStack) (location : Option Location) :
    List Expr → List Value × List Diagnostic
  | [] => ([], [])
  | e :: rest =>
    let (values, noted) := annotationOperands scopes location rest
    match expression scopes e with
    | .ok value => (value :: values, noted)
    | .error d => (values, d.within location :: noted)

def annotationItem (scopes : ScopeStack) (a : AnnotationItem Expr) : AnnotationItem Value × List Diagnostic :=
  let (operands, noted) := annotationOperands scopes a.location a.operands
  (⟨a.interface, a.operation, operands, a.location⟩, noted)

def annotations (scopes : ScopeStack) (as : List (AnnotationItem Expr)) :
    Outcome (List (AnnotationItem Value)) :=
  ⟨as.flatMap fun a => (annotationItem scopes a).2, .ok (as.map fun a => (annotationItem scopes a).1)⟩

def optionalExpression (scopes : ScopeStack) : Option Expr → Except Diagnostic (Option Value)
  | none => .ok none
  | some e => (expression scopes e).map some

def namedParameter (set : InstructionSet) (scopes : ScopeStack) (node : GateNode Expr) :
    Except Diagnostic (Option Value) := placed node.location do
  let parameter ← optionalExpression scopes node.parameter
  unplaced (set.resolveParameter? node.name parameter)

def modifierParameter (scopes : ScopeStack) (node : GateNode Expr) : Except Diagnostic (Option Value) :=
  placed node.location do
    let parameter ← optionalExpression scopes node.parameter
    let (_, promoted) ← unplaced (scopes.resolveModifier node.name parameter.toList)
    return promoted.head?

def gateNode (scopes : ScopeStack) (node : GateNode Expr) (parameter : Option Value) :
    Outcome (GateNode Value) := do
  let annotations ← annotations scopes node.annotations
  return ⟨node.name, parameter, annotations, node.location⟩

def gate (set : InstructionSet) (scopes : ScopeStack) : Gate Expr → Outcome (Gate Value)
  | .named node => do
    let parameter ← .ofExcept (namedParameter set scopes node)
    return .named (← gateNode scopes node parameter)
  | .modified node inner => do
    let inner ← gate set scopes inner
    let parameter ← .ofExcept (modifierParameter scopes node)
    let result := Gate.modified (← gateNode scopes node parameter) inner
    Outcome.ofExcept (placed node.location (unplaced (result.requireModifiable set)))
    return result

def gateInstruction (set : InstructionSet) (scopes : ScopeStack) (i : Tree.GateInstruction) :
    Outcome Graph.GateInstruction := do
  let gate ← gate set scopes i.gate
  let operands ← .ofExcept (expressions scopes i.operands)
  let (instruction, promoted) ←
    .ofExcept (unplaced (scopes.resolveInstruction (gate.resolutionName set) operands))
  Outcome.ofExcept (unplaced (Value.requireUniformQubits promoted))
  let annotations ← annotations scopes i.annotations
  return ⟨instruction, gate, promoted, annotations, i.location⟩

def requirePairing (set : InstructionSet) (instruction : Instruction) (operands : List Value) :
    Except Fault Unit :=
  if set.isMeasure instruction.name then Value.requirePairedBits operands else .ok ()

def nonGateInstruction (set : InstructionSet) (scopes : ScopeStack) (i : Tree.NonGateInstruction) :
    Outcome Graph.NonGateInstruction := do
  let given ← .ofExcept (optionalExpression scopes i.parameter)
  let operands ← .ofExcept (expressions scopes i.operands)
  let (instruction, promoted) ← .ofExcept (unplaced (scopes.resolveInstruction i.name operands))
  let parameter ← .ofExcept (unplaced (set.resolveParameter? i.name given))
  Outcome.ofExcept (unplaced (requirePairing set instruction promoted))
  let annotations ← annotations scopes i.annotations
  return ⟨instruction, promoted, parameter, annotations, i.location⟩

def requireAssignable (t : Ty) : Except Fault Unit := if t.assignable then .ok () else .error .notAssignable

def coerce (v : Value) (target : Ty) : Except Fault Value :=
  match v.promote target.toRvalue with
  | some promoted => .ok promoted
  | none => .error (.notCoercible v.type target)

def assignTo (scopes : ScopeStack) (target : Value) (value : Expr) (as : List (AnnotationItem Expr))
    (location : Option Location) : Outcome Graph.Assignment := do
  Outcome.ofExcept (unplaced (requireAssignable target.type))
  let value ← .ofExcept (expression scopes value)
  let promoted ← .ofExcept (unplaced (coerce value target.type))
  let annotations ← annotations scopes as
  return ⟨target, promoted, annotations, location⟩

def assignment (scopes : ScopeStack) (a : Tree.Assignment) : Outcome Graph.Assignment := do
  let target ← .ofExcept (expression scopes a.target)
  assignTo scopes target a.value a.annotations a.location

end Cqasm.Analysis
