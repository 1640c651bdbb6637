import Cqasm.Analysis.Program
import Cqasm.Builtin.Functions
import Cqasm.InstructionSet.Standard

/-! Analyzers: a global scope, set up once and used for any number of programs. -/
namespace Cqasm

structure Analyzer where
  apiVersion : Version
  policy : CasePolicy
  instructionSet : InstructionSet
  global : Scope

namespace Analyzer

def empty (apiVersion : Version) (policy : CasePolicy) (set : InstructionSet) : Analyzer where
  apiVersion := apiVersion
  policy := policy
  instructionSet := if set.policy = policy then set else set.withPolicy policy
  global := .empty policy

def modifyGlobal (a : Analyzer) (f : Scope → Scope) : Analyzer := { a with global := f a.global }

def addVariable (a : Analyzer) (name : String) (v : Value) : Analyzer := a.modifyGlobal (·.addVariable name v)

def addNative (a : Analyzer) (name : String) (params : List Ty) (native : Native) : Analyzer :=
  a.modifyGlobal (·.addNative name params native)

def addFunction (a : Analyzer) (f : RuntimeFunction) : Analyzer := a.modifyGlobal (·.addFunction f)

def addInstruction (a : Analyzer) (i : Instruction) : Analyzer := a.modifyGlobal (·.addInstruction i)

def addModifier (a : Analyzer) (m : GateModifier) : Analyzer := a.modifyGlobal (·.addModifier m)

def addInstructionCodes (a : Analyzer) (name spec : String) : Except ShorthandError Analyzer := do
  let instruction ← Instruction.ofCodes name spec (a.instructionSet.kindOf name)
  return a.addInstruction instruction

def addBuiltin (s : Scope) (b : Builtin) : Scope := (s.addNative b.name b.params b.native).addFunction b.runtime

def addBuiltins (s : Scope) : Scope :=
  let withConstants := Builtin.constants.foldl (fun s (name, c) => s.addVariable name (.const c)) s
  Builtin.all.foldl addBuiltin withConstants

/-- Adds the constants and functions of the language, then the modifiers and the instructions of the set. A
faulty code in the set stops at the group it is in; what was added before stays. -/
def addDefaults (a : Analyzer) : Analyzer × Except ShorthandError Unit :=
  let withBuiltins := a.modifyGlobal addBuiltins
  match a.instructionSet.gateModifiers with
  | .error e => (withBuiltins, .error e)
  | .ok modifiers =>
    let withModifiers := modifiers.foldl addModifier withBuiltins
    match a.instructionSet.instructions with
    | .error e => (withModifiers, .error e)
    | .ok instructions => (instructions.foldl addInstruction withModifiers, .ok ())

def standard : Analyzer := (empty ⟨[3, 0]⟩ .sensitive .standard).addDefaults.1

def resolveFunction (a : Analyzer) (name : String) (args : List Value) : Except Fault Value :=
  a.global.resolveFunction name args

def elaborate (a : Analyzer) (p : Tree.Program) : Analysis :=
  .ofProgram a.instructionSet a.apiVersion (.ofGlobal a.global a.policy) p

/-- The analysis of a program. A clean analysis vouches for its program; that the program is malformed all
the same is an error of the analyzer, not of the program. -/
def analyze (a : Analyzer) (p : Tree.Program) : Except Graph.Malformed Analysis := do
  let analysis := a.elaborate p
  if analysis.isClean then analysis.program.check
  return analysis

end Analyzer

end Cqasm
