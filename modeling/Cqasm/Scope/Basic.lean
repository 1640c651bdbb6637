import Cqasm.Builtin.Payload
import Cqasm.Graph.Basic
import Cqasm.Overload
import Cqasm.VariableTable

/-! A scope: what names stand for, and the block of statements analysed in it. -/
namespace Cqasm

structure Scope where
  vars : VariableTable
  natives : OverloadTable Native
  functions : OverloadTable RuntimeFunction
  instructions : OverloadTable Instruction
  modifiers : OverloadTable GateModifier
  block : Graph.Block

namespace Scope

def empty (policy : CasePolicy) : Scope :=
  ⟨.empty policy, .empty policy, .empty policy, .empty policy, .empty policy, .empty⟩

def addVariable (s : Scope) (name : String) (v : Value) : Scope :=
  { s with vars := s.vars.add name v }

def addNative (s : Scope) (name : String) (params : List Ty) (native : Native) : Scope :=
  { s with natives := s.natives.add name native params }

def addFunction (s : Scope) (f : RuntimeFunction) : Scope :=
  { s with functions := s.functions.add f.name f f.params }

def addInstruction (s : Scope) (i : Instruction) : Scope :=
  { s with instructions := s.instructions.add i.name i i.operands }

def addModifier (s : Scope) (m : GateModifier) : Scope :=
  { s with modifiers := s.modifiers.add m.name m m.params }

def addBlockVariable (s : Scope) (id : Nat) : Scope := { s with block := s.block.addVariable id }

def addStatement (s : Scope) (statement : Graph.Statement) : Scope :=
  { s with block := s.block.addStatement statement }

def evaluate (s : Scope) (name : String) (args : List Value) : Except Fault Value := do
  let (native, promoted) ← s.natives.resolve name args
  native promoted

def call (s : Scope) (name : String) (args : List Value) : Except Fault Value := do
  let (function, promoted) ← s.functions.resolve name args
  return .call function promoted

def defersToCall (fault : Fault) : Bool :=
  match fault.kind with
  | .nameResolution | .overloadResolution | .constantRequired => true
  | .structural | .typing | .evaluation => false

/-- Evaluation comes first. A call is built where nothing can be evaluated, unless the name is only known to
evaluation. -/
def resolveFunction (s : Scope) (name : String) (args : List Value) : Except Fault Value :=
  match s.evaluate name args with
  | .ok v => .ok v
  | .error fault =>
    if defersToCall fault && (s.functions.contains name || !s.natives.contains name) then s.call name args
    else .error fault

end Scope

end Cqasm
