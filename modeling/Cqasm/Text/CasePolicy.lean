/-! Whether the case of ASCII letters tells names apart. -/
namespace Cqasm

inductive CasePolicy where
  | sensitive
  | insensitive
  deriving DecidableEq, Repr

def CasePolicy.key : CasePolicy → String → String
  | .sensitive, name => name
  | .insensitive, name => String.ofList (name.toList.map Char.toLower)

@[simp] theorem CasePolicy.keySensitive (name : String) : CasePolicy.sensitive.key name = name := rfl

end Cqasm
