import Cqasm.Scope.Basic

/-! Nested scopes. Variables and instructions are declared in the innermost scope and looked up from there
outward; functions and gate modifiers live in the global scope. -/
namespace Cqasm

structure ScopeStack where
  policy : CasePolicy
  nested : List Scope
  global : Scope

namespace ScopeStack

def ofGlobal (global : Scope) (policy : CasePolicy) : ScopeStack := ⟨policy, [], global⟩

def depth (s : ScopeStack) : Nat := s.nested.length

def scopes (s : ScopeStack) : List Scope := s.nested ++ [s.global]

def current (s : ScopeStack) : Scope :=
  match s.nested with
  | [] => s.global
  | inner :: _ => inner

def modifyCurrent (s : ScopeStack) (f : Scope → Scope) : ScopeStack :=
  match s.nested with
  | [] => { s with global := f s.global }
  | inner :: outer => { s with nested := f inner :: outer }

def modifyGlobal (s : ScopeStack) (f : Scope → Scope) : ScopeStack := { s with global := f s.global }

def push (s : ScopeStack) : ScopeStack := { s with nested := .empty s.policy :: s.nested }

def pop? (s : ScopeStack) : Option (Scope × ScopeStack) :=
  match s.nested with
  | [] => none
  | inner :: outer => some (inner, { s with nested := outer })

def addVariable (s : ScopeStack) (name : String) (v : Value) : ScopeStack :=
  s.modifyCurrent (·.addVariable name v)

def addInstruction (s : ScopeStack) (i : Instruction) : ScopeStack := s.modifyCurrent (·.addInstruction i)

def addBlockVariable (s : ScopeStack) (id : Nat) : ScopeStack := s.modifyCurrent (·.addBlockVariable id)

def addStatement (s : ScopeStack) (statement : Graph.Statement) : ScopeStack :=
  s.modifyCurrent (·.addStatement statement)

def addNative (s : ScopeStack) (name : String) (params : List Ty) (native : Native) : ScopeStack :=
  s.modifyGlobal (·.addNative name params native)

def addFunction (s : ScopeStack) (f : RuntimeFunction) : ScopeStack := s.modifyGlobal (·.addFunction f)

def addModifier (s : ScopeStack) (m : GateModifier) : ScopeStack := s.modifyGlobal (·.addModifier m)

def resolveVariable (s : ScopeStack) (name : String) : Except Fault Value :=
  match s.scopes.findSome? fun scope => scope.vars.find? name with
  | some v => .ok v
  | none => .error (.unknownVariable name)

def bindsHere (s : ScopeStack) (name : String) : Bool := s.current.vars.contains name

def resolveFunction (s : ScopeStack) (name : String) (args : List Value) : Except Fault Value :=
  s.global.resolveFunction name args

def resolveInstruction (s : ScopeStack) (name : String) (args : List Value) :
    Except Fault (Instruction × List Value) :=
  match s.scopes.findSome? fun scope => (scope.instructions.resolve name args).toOption with
  | some found => .ok found
  | none =>
    .error (.noInstruction (s.scopes.any fun scope => scope.instructions.contains name) name
      (args.map Value.type))

def resolveModifier (s : ScopeStack) (name : String) (args : List Value) :
    Except Fault (GateModifier × List Value) :=
  s.global.modifiers.resolve name args

end ScopeStack

end Cqasm
