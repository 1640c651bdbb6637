import Cqasm.Analysis.Instruction

/-! Analysis of statements. A faulty statement is left out and reported, and analysis goes on after it. -/
namespace Cqasm.Analysis

open Cqasm.Graph (Variable)

structure State where
  scopes : ScopeStack
  vars : List Variable
  diagnostics : List Diagnostic

namespace State

def note (s : State) (ds : List Diagnostic) : State := { s with diagnostics := s.diagnostics ++ ds }

def report (s : State) (d : Diagnostic) (location : Option Location) : State := s.note [d.within location]

def addStatement (s : State) (statement : Graph.Statement) : State :=
  { s with scopes := s.scopes.addStatement statement }

def commit (s : State) (location : Option Location) (outcome : Outcome Graph.Statement) : State :=
  let noted := s.note outcome.noted
  match outcome.result with
  | .ok statement => noted.addStatement statement
  | .error d => noted.report d location

def declares (s : State) (name : String) : Bool :=
  let key := s.scopes.policy.key
  s.scopes.current.block.vars.any fun id =>
    match s.vars[id]? with
    | some v => key v.name == key name
    | none => false

def addVariable (s : State) (v : Variable) : State :=
  let id := s.vars.length
  { s with
    scopes := (s.scopes.addBlockVariable id).addVariable v.name (.reference id v.type)
    vars := s.vars ++ [v] }

def openBlock (s : State) : State := { s with scopes := s.scopes.push }

def closeBlock (s : State) : State :=
  match s.scopes.pop? with
  | some (inner, outer) => { s with scopes := outer.addStatement inner.block.toStatement }
  | none => s

end State

def declaredType (d : Tree.Declaration) : Except Fault Ty :=
  match d.size with
  | none => .ok ⟨.scalar d.element.scalar, true⟩
  | some size => if size ≤ 0 then .error (.arraySize d.element) else .ok ⟨.array d.element size, true⟩

def declaredVariable (s : State) (d : Tree.Declaration) : Outcome Variable := do
  let type ← .ofExcept (unplaced (declaredType d))
  if s.declares d.name then .ofExcept (unplaced (.error (.redeclared d.name)))
  let annotations ← annotations s.scopes d.annotations
  return ⟨d.name, type, annotations, d.nameLocation.or d.location⟩

/-- An initializer is an assignment right after the declaration. Where it is faulty, the variable stays. -/
def assignInitial (s : State) (d : Tree.Declaration) (target : Value) : State :=
  match d.initializer with
  | none => s
  | some value => s.commit d.location ((assignTo s.scopes target value [] d.location).map .assign)

def declare (s : State) (d : Tree.Declaration) : State :=
  let outcome := declaredVariable s d
  let noted := s.note outcome.noted
  match outcome.result with
  | .error diagnostic => noted.report diagnostic d.location
  | .ok v => assignInitial (noted.addVariable v) d (.reference s.vars.length v.type)

mutual

def statement (set : InstructionSet) (s : State) : Tree.Statement → State
  | .declare d => declare s d
  | .gate g => s.commit g.location ((gateInstruction set s.scopes g).map .gate)
  | .nonGate i => s.commit i.location ((nonGateInstruction set s.scopes i).map .nonGate)
  | .assign a => s.commit a.location ((assignment s.scopes a).map .assign)
  | .block body _ => (statements set s.openBlock body).closeBlock

def statements (set : InstructionSet) (s : State) : List Tree.Statement → State
  | [] => s
  | first :: rest => statements set (statement set s first) rest

end

end Cqasm.Analysis
