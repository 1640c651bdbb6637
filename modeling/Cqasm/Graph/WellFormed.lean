import Cqasm.Graph.Basic

/-! Well-formed programs: every variable exists, every index is in range, and every instruction has as many
operands as its description. -/
namespace Cqasm.Graph

inductive Malformed where
  | danglingVariable (id : Nat)
  | indexOutOfRange (name : String) (index size : Int)
  | operandCount (name : String) (expected actual : Nat)
  deriving DecidableEq, Repr

def Malformed.message : Malformed → String
  | .danglingVariable id => "variable handle " ++ toString id ++ " is not in the variable table"
  | .indexOutOfRange name index size =>
    "index " ++ toString index ++ " out of range for variable '" ++ name ++ "' of size " ++ toString size
  | .operandCount name expected actual =>
    "instruction '" ++ name ++ "' expects " ++ toString expected ++ " operand(s), found " ++ toString actual

def checkEach {α : Type} (check : α → Except Malformed Unit) : List α → Except Malformed Unit
  | [] => .ok ()
  | a :: rest => do
    check a
    checkEach check rest

def checkVariable (vars : List Variable) (id : Nat) : Except Malformed Unit :=
  if id < vars.length then .ok () else .error (.danglingVariable id)

def checkSelection (vars : List Variable) (s : Selection) : Except Malformed Unit :=
  match vars[s.id]? with
  | none => .error (.danglingVariable s.id)
  | some v =>
    match s.indices.find? fun i => i < 0 || v.type.size ≤ i with
    | some index => .error (.indexOutOfRange v.name index v.type.size)
    | none => .ok ()

mutual

def checkValue (vars : List Variable) : Value → Except Malformed Unit
  | .const _ => .ok ()
  | .reference id _ => checkVariable vars id
  | .selection s => checkSelection vars s
  | .call _ arguments => checkValues vars arguments

def checkValues (vars : List Variable) : List Value → Except Malformed Unit
  | [] => .ok ()
  | v :: vs => do
    checkValue vars v
    checkValues vars vs

end

def checkAnnotations (vars : List Variable) (annotations : List (AnnotationItem Value)) :
    Except Malformed Unit :=
  checkEach (fun a => checkValues vars a.operands) annotations

def checkNode (vars : List Variable) (node : GateNode Value) : Except Malformed Unit := do
  checkValues vars node.parameter.toList
  checkAnnotations vars node.annotations

def checkGate (vars : List Variable) : Gate Value → Except Malformed Unit
  | .named node => checkNode vars node
  | .modified node inner => do
    checkNode vars node
    checkGate vars inner

def checkOperandCount (instruction : Instruction) (operands : List Value) : Except Malformed Unit :=
  if instruction.operands.length = operands.length then .ok ()
  else .error (.operandCount instruction.name instruction.operands.length operands.length)

mutual

def checkStatement (vars : List Variable) : Statement → Except Malformed Unit
  | .gate g => do
    checkOperandCount g.instruction g.operands
    checkGate vars g.gate
    checkValues vars g.operands
    checkAnnotations vars g.annotations
  | .nonGate i => do
    checkOperandCount i.instruction i.operands
    checkValues vars i.operands
    checkValues vars i.parameter.toList
    checkAnnotations vars i.annotations
  | .assign a => do
    checkValue vars a.target
    checkValue vars a.value
    checkAnnotations vars a.annotations
  | .block ids statements _ => do
    checkEach (checkVariable vars) ids
    checkStatements vars statements

def checkStatements (vars : List Variable) : List Statement → Except Malformed Unit
  | [] => .ok ()
  | s :: rest => do
    checkStatement vars s
    checkStatements vars rest

end

def Program.check (p : Program) : Except Malformed Unit := do
  checkEach (fun v : Variable => checkAnnotations p.vars v.annotations) p.vars
  checkStatement p.vars p.block.toStatement

end Cqasm.Graph
