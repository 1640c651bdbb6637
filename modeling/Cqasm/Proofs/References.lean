import Cqasm.Proofs.Bindings
import Cqasm.Proofs.Builtin
import Cqasm.Proofs.Standard

/-! References. Where no value and no function of the global scope brings references of its own, every reference
in an analysed program is to a variable in scope, carries the type of that variable and selects elements that it
has. -/
namespace Cqasm

open Cqasm.Graph (Variable)

def Native.Closed (native : Native) : Prop :=
  ∀ {args : List Value} {v : Value}, native args = .ok v → ∀ r ∈ v.references, r ∈ Value.referencesIn args

namespace Scope

/- Nothing registered brings references of its own, and instructions are found by the operands that they describe. -/
structure Closed (s : Scope) : Prop where
  vars {name : String} {v : Value} : s.vars.find? name = some v → v.references = []
  natives {name : String} {o : Overload Native} : o ∈ s.natives.overloads name → Native.Closed o.tag
  instructions {name : String} {o : Overload Instruction} :
    o ∈ s.instructions.overloads name → o.params = o.tag.operands
  block : s.block = .empty

theorem promotedReferences {args ws : List Value} {params : List Ty}
    (promoted : Value.promoteAll args params = some ws) :
    ∀ r ∈ Value.referencesIn ws, r ∈ Value.referencesIn args := by
  have given : ∀ a ∈ args, ∀ r ∈ a.references, r ∈ Value.referencesIn args := fun a member r found =>
    Value.memReferencesIn.mpr ⟨a, member, found⟩
  have kept := Value.promotedAllKeeps (fun c r found => by cases found) promoted given
  intro r member
  obtain ⟨w, inside, found⟩ := Value.memReferencesIn.mp member
  exact kept w inside r found

theorem Closed.function {s : Scope} (closed : s.Closed) {name : String} {args : List Value} {v : Value}
    (resolved : s.resolveFunction name args = .ok v) : ∀ r ∈ v.references, r ∈ Value.referencesIn args := by
  unfold resolveFunction at resolved
  split at resolved
  case h_1 evaluated =>
    cases resolved
    obtain ⟨⟨native, ws⟩, found, done⟩ := bindOk.mp evaluated
    obtain ⟨o, registered, rfl, promoted⟩ := OverloadTable.resolvedOverload found
    exact fun r inside => promotedReferences promoted r (closed.natives registered done r inside)
  case h_2 =>
    split at resolved
    · obtain ⟨⟨f, ws⟩, found, made⟩ := bindOk.mp resolved
      cases pureOk.mp made
      obtain ⟨o, _, _, promoted⟩ := OverloadTable.resolvedOverload found
      exact promotedReferences promoted
    · cases resolved

end Scope

theorem constantsFound (cs : List (String × Constant)) {t : VariableTable}
    (constants : ∀ {name v}, t.find? name = some v → v.isConstant = true) {name : String} {v : Value}
    (found : (cs.foldl (fun t (name, c) => t.add name (.const c)) t).find? name = some v) : v.isConstant = true := by
  induction cs generalizing t with
  | nil => exact constants found
  | cons c cs ih =>
    refine ih (fun here => ?_) found
    rcases VariableTable.addFound here with rfl | old
    · rfl
    · exact constants old

theorem Value.constantReferences {v : Value} (constant : v.isConstant = true) : v.references = [] := by
  cases v with
  | const => rfl
  | reference | selection | call => cases constant

namespace Analyzer

theorem standardConstants {name : String} {v : Value} (found : standard.global.vars.find? name = some v) :
    v.isConstant = true := by
  obtain ⟨ms, is, _, _, same⟩ := standardGlobal
  rw [same] at found
  exact constantsFound Builtin.constants (fun none => by cases none) found

theorem standardClosed : standard.global.Closed := by
  obtain ⟨ms, is, _, _, same⟩ := standardGlobal
  refine ⟨fun found => Value.constantReferences (standardConstants found), ?_, ?_, same ▸ rfl⟩
  · intro name o registered args v done r inside
    rw [same] at registered
    obtain ⟨b, member, _, rfl⟩ := OverloadTable.registeredOverload _ _ _ registered
    rw [Value.constantReferences ((Builtin.allSound b member).constant done)] at inside
    cases inside
  · intro name o registered
    rw [same] at registered
    obtain ⟨i, _, _, rfl⟩ := OverloadTable.registeredOverload _ _ _ registered
    rfl

end Analyzer

namespace Analysis

structure Means (vars : List Variable) (around : List Nat) (r : Value) (id : Nat) (v : Variable) : Prop where
  handle : r.id? = some id
  inScope : id ∈ around
  found : vars[id]? = some v
  type : r.storageType? = some v.type
  inRange : ∀ i ∈ r.indices, 0 ≤ i ∧ i < v.type.size

def Bound (vars : List Variable) (around : List Nat) (v : Value) : Prop :=
  ∀ r ∈ v.references, ∃ id w, Means vars around r id w

theorem foundLater {vars more : List Variable} {id : Nat} {v : Variable} (longer : vars <+: more)
    (found : vars[id]? = some v) : more[id]? = some v := by
  obtain ⟨inside, rfl⟩ := List.getElem?_eq_some_iff.mp found
  exact List.prefix_iff_getElem?.mp longer id inside

theorem Means.mono {vars more : List Variable} {inner outer : List Nat} {r : Value} {id : Nat} {v : Variable}
    (means : Means vars inner r id v) (longer : vars <+: more) (wider : inner ⊆ outer) :
    Means more outer r id v :=
  { means with inScope := wider means.inScope, found := foundLater longer means.found }

theorem indexableOk {base : Value} {selection : Selection} {size : Int}
    (done : indexable base = .ok (selection, size)) :
    base = .reference selection.id selection.arrayType ∧ size = selection.size := by
  unfold indexable at done
  split at done
  case h_3 => cases done
  all_goals
    obtain ⟨n, extent, same⟩ := bindOk.mp done
    cases pureOk.mp same
    refine ⟨rfl, ?_⟩
    unfold Ty.extent at extent
    split at extent
    · cases extent
    · cases extent
      rfl

theorem boundRule {global : Scope} (closed : global.Closed) : Rule Bound global where
  mono longer wider bound r inside := by
    obtain ⟨id, v, means⟩ := bound r inside
    exact ⟨id, v, means.mono longer wider⟩
  bound found r inside := by
    rw [closed.vars found] at inside
    cases inside
  constant vars around c r inside := by cases inside
  reference found inScope r inside := by
    cases List.mem_singleton.mp inside
    exact ⟨_, _, rfl, inScope, found, rfl, by simp [Value.indices]⟩
  function given resolved r inside := by
    obtain ⟨a, member, found⟩ := Value.memReferencesIn.mp (closed.function resolved r inside)
    exact given a member r found
  selection base taken inRange r inside := by
    cases List.mem_singleton.mp inside
    obtain ⟨rfl, rfl⟩ := indexableOk taken
    obtain ⟨id, v, means⟩ := base _ (List.mem_singleton.mpr rfl)
    have type := Option.some.inj means.type
    refine ⟨id, v, means.handle, means.inScope, means.found, means.type, ?_⟩
    rw [← type]
    exact inRange

end Analysis

theorem Analyzer.resolvedOperands {a : Analyzer} (closed : a.global.Closed) {p : Tree.Program} {t : Analysis.State}
    (reached : Analysis.Reaches a.instructionSet (a.start p) t) {name : String} {args ws : List Value}
    {i : Instruction} (resolved : t.scopes.resolveInstruction name args = .ok (i, ws)) :
    Value.promoteAll args i.operands = some ws := by
  obtain ⟨o, registered, rfl, promoted⟩ := OverloadTable.resolvedOverload (reachedInstruction reached resolved)
  rwa [closed.instructions registered] at promoted

end Cqasm
