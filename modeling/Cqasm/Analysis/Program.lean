import Cqasm.Analysis.Statement
import Cqasm.Graph.WellFormed

/-! Analysis of whole programs. -/
namespace Cqasm

structure Analysis where
  program : Graph.Program
  diagnostics : List Diagnostic

namespace Analysis

def isClean (a : Analysis) : Bool := a.diagnostics.isEmpty

def report (a : Analysis) : String := String.join (a.diagnostics.map fun d => d.text ++ "\n")

def failureMessage : String := "cQASM analysis failed"

def program? (a : Analysis) : Option Graph.Program := if a.isClean then some a.program else none

def checkVersion (supported given : Version) : Except Fault Unit :=
  if given.items.any (· < 0) then .error .versionComponent
  else if given.items ≠ supported.items then .error (.versionMismatch supported given)
  else .ok ()

/-- Only one version is supported; with any other, analysis goes on as if that one had been given. -/
def versionDiagnostics (supported : Version) (p : Tree.Program) : List Diagnostic :=
  match checkVersion supported p.version with
  | .ok () => []
  | .error fault => [⟨fault, p.versionLocation⟩]

def ofProgram (set : InstructionSet) (supported : Version) (scopes : ScopeStack) (p : Tree.Program) :
    Analysis :=
  let final := statements set ⟨scopes, [], versionDiagnostics supported p⟩ p.statements
  ⟨⟨supported, supported, final.scopes.global.block, final.vars⟩, final.diagnostics⟩

end Analysis

end Cqasm
