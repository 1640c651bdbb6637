import Mathlib.Algebra.GroupWithZero.Nat
import Cqasm.Proofs.FunctionResolution
import Cqasm.Proofs.References

/-! Types of analysed programs. Every operand is of the type that its instruction asks for, parameters and
assigned values fit where they are used, and every call is to a function of the language on arguments that fit. -/
namespace Cqasm

open Cqasm.Graph (Variable)

structure CallTyped (function : RuntimeFunction) (arguments : List Value) : Prop where
  known : ∃ b ∈ Builtin.all, function = b.runtime
  fits : List.Forall₂ Value.Fits arguments function.params
  dynamic : ∃ a ∈ arguments, a.isConstant = false

def Value.CallsTyped (v : Value) : Prop := ∀ c ∈ v.calls, CallTyped c.1 c.2

structure ParameterFits (set : InstructionSet) (name : String) (parameter : Option Value) : Prop where
  declared : parameter.isSome = (set.paramType? name).isSome
  fits {v t} : parameter = some v → set.paramType? name = some t → v.Fits t

def OperandsAccepted (operands : List Value) (types : List Ty) : Prop :=
  List.Forall₂ (fun v (t : Ty) => t.accepts v.type = true) operands types

def totalAddressed (kind : Ty → Bool) (operands : List Value) : Nat :=
  ((operands.filter fun v => kind v.type).map fun v => v.addressed.toNat).sum

namespace Graph

inductive Statement.WellTyped (set : InstructionSet) : Statement → Prop where
  | gate {g : GateInstruction} (operands : OperandsAccepted g.operands g.instruction.operands)
      (uniform : ∀ v ∈ g.operands, ∀ w ∈ g.operands, v.type.isQuantum = true → w.type.isQuantum = true →
        v.addressed = w.addressed)
      (parameters : ∀ node ∈ g.gate.nodes, ParameterFits set node.name node.parameter) : WellTyped set (.gate g)
  | nonGate {i : NonGateInstruction} (operands : OperandsAccepted i.operands i.instruction.operands)
      (paired : set.isMeasure i.instruction.name = true →
        totalAddressed Ty.isQuantum i.operands = totalAddressed Ty.isBitLike i.operands)
      (parameter : ParameterFits set i.instruction.name i.parameter) : WellTyped set (.nonGate i)
  | assign {a : Assignment} (target : a.target.id?.isSome = true) (assignable : a.target.type.assignable = true)
      (value : a.value.Fits a.target.type.toRvalue) : WellTyped set (.assign a)
  | block {ids ss location} : WellTyped set (.block ids ss location)

structure Program.WellTyped (set : InstructionSet) (p : Program) : Prop where
  statements {around s} : p.Has around s → s.WellTyped set
  calls {around s} : p.Has around s → ∀ v ∈ s.values, v.CallsTyped
  annotations : ∀ x ∈ p.vars, ∀ v ∈ annotationValues x.annotations, v.CallsTyped

end Graph

theorem builtinResults : ∀ b ∈ Builtin.all,
    b.result.assignable = false ∧ b.result.isQuantum = false ∧ b.result.isBitLike = false := by
  decide +kernel

namespace Value

theorem callTypedResult {f : RuntimeFunction} {args : List Value} (typed : (Value.call f args).CallsTyped) :
    f.result.assignable = false ∧ f.result.isQuantum = false ∧ f.result.isBitLike = false := by
  obtain ⟨b, member, rfl⟩ := (typed (f, args) List.mem_cons_self).known
  exact builtinResults b member

theorem storageOfAssignable {v : Value} (typed : v.CallsTyped) (assignable : v.type.assignable = true) :
    v.id?.isSome = true := by
  cases v with
  | const => cases assignable
  | reference | selection => rfl
  | call f args => cases assignable.symm.trans (callTypedResult typed).1

theorem selectionKind (s : Selection) :
    s.arrayType.isQuantum = s.type.isQuantum ∧ s.arrayType.isBitLike = s.type.isBitLike := by
  obtain ⟨id, element, size, assignable, indices⟩ := s
  simp only [Selection.type, Selection.arrayType]
  split <;> cases element <;> exact ⟨rfl, rfl⟩

theorem storageKind {v : Value} (typed : v.CallsTyped) :
    v.storageType?.any Ty.isQuantum = v.type.isQuantum ∧ v.storageType?.any Ty.isBitLike = v.type.isBitLike := by
  cases v with
  | const c => cases c <;> exact ⟨rfl, rfl⟩
  | reference => exact ⟨rfl, rfl⟩
  | call f args => exact ⟨(callTypedResult typed).2.1.symm, (callTypedResult typed).2.2.symm⟩
  | selection s => exact selectionKind s

theorem acceptedOfFits {v : Value} {t : Ty} (fits : v.Fits t) (assignable : t.assignable = true) :
    t.accepts v.type = true := by
  simpa [Ty.promotesTo, assignable] using fits.1

end Value

theorem operandsAccepted {ws : List Value} {types : List Ty} (fits : List.Forall₂ Value.Fits ws types)
    (assignable : ∀ t ∈ types, t.assignable = true) : OperandsAccepted ws types := by
  induction fits with
  | nil => exact .nil
  | cons here _ ih =>
    obtain ⟨first, rest⟩ := List.forall_mem_cons.mp assignable
    exact .cons (Value.acceptedOfFits here first) (ih rest)

theorem uniformCounts {operands : List Value} :
    Value.requireUniformQubits operands = .ok () ↔
      ∀ m ∈ Value.qubitCounts operands, ∀ n ∈ Value.qubitCounts operands, m = n := by
  unfold Value.requireUniformQubits
  split
  case h_1 none => simp [none]
  case h_2 first rest counts =>
    rw [counts]
    split
    case h_1 other found =>
      refine iff_of_false nofun fun all => ?_
      have member : other ∈ first :: rest := List.mem_cons_of_mem first (List.mem_of_find?_eq_some found)
      have different := List.find?_some found
      simp [all other member first List.mem_cons_self] at different
    case h_2 none =>
      have same : ∀ n ∈ first :: rest, n = first := List.forall_mem_cons.mpr ⟨rfl, by simpa using none⟩
      exact iff_of_true rfl fun m left n right => (same m left).trans (same n right).symm

theorem uniformQubits {operands : List Value} :
    Value.requireUniformQubits operands = .ok () ↔
      ∀ v ∈ operands, ∀ w ∈ operands, v.type.isQuantum = true → w.type.isQuantum = true →
        v.addressed = w.addressed := by
  have counted (n : UInt64) :
      n ∈ Value.qubitCounts operands ↔ ∃ v ∈ operands, v.type.isQuantum = true ∧ v.addressed = n := by
    simp [Value.qubitCounts, and_assoc]
  simp only [uniformCounts, counted]
  constructor
  · intro all v left w right first second
    exact all _ ⟨v, left, first, rfl⟩ _ ⟨w, right, second, rfl⟩
  · rintro all _ ⟨v, left, first, rfl⟩ _ ⟨w, right, second, rfl⟩
    exact all v left w right first second

theorem pairedBits {operands : List Value} :
    Value.requirePairedBits operands = .ok () ↔
      Value.addressedIn Ty.isQuantum operands = Value.addressedIn Ty.isBitLike operands := by
  unfold Value.requirePairedBits
  split
  case isTrue same => exact iff_of_true rfl same
  case isFalse different => exact iff_of_false nofun different

theorem acceptedKind {t u : Ty} (accepted : t.accepts u = true) :
    u.isQuantum = t.isQuantum ∧ u.isBitLike = t.isBitLike := by
  obtain ⟨expected, _⟩ := t
  obtain ⟨actual, _⟩ := u
  have shapes : expected.accepts actual = true := ((Bool.and_eq_true _ _).mp accepted).2
  cases expected with
  | scalar kind =>
    cases actual with
    | scalar other =>
      cases eq_of_beq shapes
      cases kind <;> exact ⟨rfl, rfl⟩
    | array | matrix => cases shapes
  | array element n =>
    cases actual with
    | array other m =>
      cases eq_of_beq ((Bool.and_eq_true _ _).mp shapes).1
      cases element <;> exact ⟨rfl, rfl⟩
    | scalar | matrix => cases shapes
  | matrix =>
    cases actual with
    | matrix => exact ⟨rfl, rfl⟩
    | scalar | array => cases shapes

theorem acceptedKinds {ws : List Value} {types : List Ty} (accepted : OperandsAccepted ws types) :
    ws.map (·.type.isQuantum) = types.map Ty.isQuantum ∧ ws.map (·.type.isBitLike) = types.map Ty.isBitLike := by
  induction accepted with
  | nil => exact ⟨rfl, rfl⟩
  | cons here _ ih =>
    obtain ⟨quantum, bits⟩ := acceptedKind here
    simp only [List.map_cons, quantum, bits, ih, and_self]

/- A measurement of one operand into another. There is nothing to add up, so no sum wraps. -/
def Instruction.Measures (i : Instruction) : Prop :=
  i.operands.map Ty.isQuantum = [false, true] ∧ i.operands.map Ty.isBitLike = [true, false]

instance (i : Instruction) : Decidable i.Measures := inferInstanceAs (Decidable (_ ∧ _))

theorem pairedTotals {operands : List Value} {i : Instruction} (done : Value.requirePairedBits operands = .ok ())
    (measures : i.Measures) (accepted : OperandsAccepted operands i.operands) (typed : ∀ v ∈ operands, v.CallsTyped) :
    totalAddressed Ty.isQuantum operands = totalAddressed Ty.isBitLike operands := by
  obtain ⟨quantum, bits⟩ := acceptedKinds accepted
  rw [measures.1] at quantum
  rw [measures.2] at bits
  obtain ⟨v, rest, rfl, classical, others⟩ := List.map_eq_cons_iff.mp quantum
  obtain ⟨w, more, rfl, measured, none⟩ := List.map_eq_cons_iff.mp others
  obtain rfl := List.map_eq_nil_iff.mp none
  simp only [List.map_cons, List.map_nil, List.cons.injEq, and_true] at bits
  have first := typed v List.mem_cons_self
  have second := typed w (List.mem_cons_of_mem v List.mem_cons_self)
  have same := pairedBits.mp done
  simp [Value.addressedIn, Value.storageKind first, Value.storageKind second, classical, measured, bits] at same
  simp [totalAddressed, classical, measured, bits, same]

theorem resolvedParameterFits {set : InstructionSet} {name : String} {given parameter : Option Value}
    (done : set.resolveParameter? name given = .ok parameter) : ParameterFits set name parameter := by
  cases given with
  | none =>
    simp only [InstructionSet.resolveParameter?] at done
    split at done
    · cases done
    · cases done
      exact ⟨by simp_all, by simp⟩
  | some v =>
    obtain ⟨promoted, resolved, same⟩ := bindOk.mp done
    cases pureOk.mp same
    unfold InstructionSet.resolveParameter at resolved
    split at resolved
    · cases resolved
    case h_2 type declared =>
      split at resolved
      · split at resolved
        case h_1 result made =>
          cases resolved
          refine ⟨by simp [declared], fun first second => ?_⟩
          cases first
          cases declared.symm.trans second
          exact Value.promotedFits made
        case h_2 => cases resolved
      · cases resolved

theorem modifierParameterFits {set : InstructionSet} {m : GateModifier} {given promoted : List Value}
    (made : Value.promoteAll given m.params = some promoted) (declared : set.paramType? m.name = m.param) :
    ParameterFits set m.name promoted.head? := by
  have fits := (Value.promotedAll made).1
  rw [GateModifier.params] at fits
  cases param : m.param with
  | none =>
    rw [param, Option.toList_none, List.forall₂_nil_right_iff] at fits
    exact ⟨by simp [fits, declared, param], by simp [fits]⟩
  | some type =>
    rw [param, Option.toList_some, List.forall₂_cons_right_iff] at fits
    obtain ⟨w, rest, here, _, rfl⟩ := fits
    refine ⟨by simp [declared, param], fun first second => ?_⟩
    cases first
    rw [declared, param] at second
    cases second
    exact here

namespace Analyzer

open Analysis

theorem callsRule : Rule (fun _ _ v => v.CallsTyped) standard.global where
  mono _ _ typed := typed
  bound {name v} found := by
    cases v with
    | const c => simp [Value.CallsTyped, Value.calls]
    | reference | selection | call => cases standardConstants found
  constant _ _ c := by simp [Value.CallsTyped, Value.calls]
  reference _ _ := by simp [Value.CallsTyped, Value.calls]
  function {vars around name args v} given resolved := by
    obtain ⟨b, selected, _, ⟨c, rfl⟩ | ⟨ws, promoted, dynamic, rfl⟩⟩ :=
      Scope.resolvedFunction standardBuiltins resolved
    · simp [Value.CallsTyped, Value.calls]
    · have inner := Value.promotedAllKeeps (by simp [Value.CallsTyped, Value.calls]) promoted given
      rw [← Value.promotedAllIsConstant promoted] at dynamic
      have here : CallTyped b.runtime ws :=
        ⟨⟨b, Builtin.selectedRegistered selected, rfl⟩, (Value.promotedAll promoted).1, by simpa using dynamic⟩
      intro c inside
      rcases List.mem_cons.mp inside with rfl | deeper
      · exact here
      · obtain ⟨w, member, found⟩ := Value.memCallsIn.mp deeper
        exact inner w member c found
  selection _ _ _ := by simp [Value.CallsTyped, Value.calls]

theorem standardModifier {name : String} {o : Overload GateModifier}
    (registered : o ∈ standard.global.modifiers.overloads name) :
    o.tag.name = name ∧ o.params = o.tag.params ∧ standard.instructionSet.paramType? name = o.tag.param := by
  have declared : InstructionSet.standard.gateModifiers.toOption.all
      (·.all fun m => InstructionSet.standard.paramType? m.name = m.param) = true := by decide +kernel
  obtain ⟨ms, is, read, _, same⟩ := standardGlobal
  rw [same] at registered
  obtain ⟨m, member, rfl, rfl⟩ := OverloadTable.registeredOverload _ _ _ registered
  rw [read] at declared
  rw [standardSet]
  exact ⟨rfl, rfl, by simpa using List.all_eq_true.mp declared m member⟩

theorem standardInstruction {name : String} {o : Overload Instruction}
    (registered : o ∈ standard.global.instructions.overloads name) :
    o.tag.name = name ∧ ∀ t ∈ o.tag.operands, t.assignable = true := by
  have storage : InstructionSet.standard.instructions.toOption.all
      (·.all fun i => i.operands.all fun t => t.assignable) = true := by decide +kernel
  obtain ⟨ms, is, _, read, same⟩ := standardGlobal
  rw [same] at registered
  obtain ⟨i, member, rfl, rfl⟩ := OverloadTable.registeredOverload _ _ _ registered
  rw [read] at storage
  exact ⟨rfl, List.all_eq_true.mp (List.all_eq_true.mp storage i member)⟩

theorem standardMeasure {name : String} {o : Overload Instruction}
    (registered : o ∈ standard.global.instructions.overloads name)
    (measure : standard.instructionSet.isMeasure o.tag.name = true) : o.tag.Measures := by
  have measures : InstructionSet.standard.instructions.toOption.all
      (·.all fun i => InstructionSet.standard.isMeasure i.name = true → i.Measures) = true := by decide +kernel
  obtain ⟨ms, is, _, read, same⟩ := standardGlobal
  rw [same] at registered
  obtain ⟨i, member, _, rfl⟩ := OverloadTable.registeredOverload _ _ _ registered
  rw [read] at measures
  rw [standardSet] at measure
  exact of_decide_eq_true (List.all_eq_true.mp measures i member) measure

section Reached

variable {p : Tree.Program} {t : State}

theorem standardResolved (reached : Reaches standard.instructionSet (standard.start p) t) {name : String}
    {args ws : List Value} {i : Instruction} (resolved : t.scopes.resolveInstruction name args = .ok (i, ws)) :
    i.name = name ∧ OperandsAccepted ws i.operands := by
  have promoted := resolvedOperands standardClosed reached resolved
  obtain ⟨o, registered, rfl, _⟩ := OverloadTable.resolvedOverload (reachedInstruction reached resolved)
  obtain ⟨name, assignable⟩ := standardInstruction registered
  exact ⟨name, operandsAccepted (Value.promotedAll promoted).1 assignable⟩

theorem reachedMeasure (reached : Reaches standard.instructionSet (standard.start p) t) {name : String}
    {args ws : List Value} {i : Instruction} (resolved : t.scopes.resolveInstruction name args = .ok (i, ws))
    (measure : standard.instructionSet.isMeasure i.name = true) : i.Measures := by
  obtain ⟨o, registered, rfl, _⟩ := OverloadTable.resolvedOverload (reachedInstruction reached resolved)
  exact standardMeasure registered measure

theorem gateParametersFit (reached : Reaches standard.instructionSet (standard.start p) t) {tree : Gate Tree.Expr}
    {g : Gate Value} (origin : GateFrom standard.instructionSet t.scopes tree g) :
    ∀ node ∈ g.nodes, ParameterFits standard.instructionSet node.name node.parameter := by
  induction origin with
  | named made =>
    obtain ⟨given, _, resolved⟩ := namedParameterOk made.parameter
    simp only [Gate.nodes, List.forall_mem_singleton, made.name]
    exact resolvedParameterFits resolved
  | modified made _ _ ih =>
    obtain ⟨given, m, promoted, _, resolved, same⟩ := modifierParameterOk made.parameter
    rw [reachedModifier reached] at resolved
    obtain ⟨o, registered, rfl, fits⟩ := OverloadTable.resolvedOverload resolved
    obtain ⟨name, params, declared⟩ := standardModifier registered
    rw [params] at fits
    rw [← name] at declared
    refine List.forall_mem_cons.mpr ⟨?_, ih⟩
    rw [made.name, same, ← name]
    exact modifierParameterFits fits declared

end Reached

theorem standardStatement {p : Tree.Program} {around : List Nat} {st : Graph.Statement}
    (has : (standard.elaborate p).program.Has around st) : st.WellTyped standard.instructionSet := by
  have typed := statementValues callsRule standardClosed.block has
  cases keptStatement standardClosed.block has with
  | block => exact .block
  | made reached _ _ origin =>
    cases origin with
    | gate origin =>
      exact .gate (standardResolved reached origin.resolved).2 (uniformQubits.mp origin.uniform)
        (gateParametersFit reached origin.gate)
    | @nonGate i g given args origin =>
      obtain ⟨name, operands⟩ := standardResolved reached origin.resolved
      have operandsTyped : ∀ v ∈ g.operands, v.CallsTyped := fun v member =>
        typed v (List.mem_append_left _ (List.mem_append_left _ member))
      refine .nonGate operands (fun measure => ?_) ?_
      · have paired := origin.paired
        rw [requirePairing, if_pos measure] at paired
        exact pairedTotals paired (reachedMeasure reached origin.resolved measure) operands operandsTyped
      rw [name]
      exact resolvedParameterFits origin.parameter
    | assign origin =>
      have target := Value.storageOfAssignable (typed _ List.mem_cons_self) origin.assignable
      exact .assign target origin.assignable (Value.promotedFits origin.coerced)

theorem standardTypeSoundness (p : Tree.Program) :
    (standard.elaborate p).program.WellTyped standard.instructionSet where
  statements := standardStatement
  calls has := statementValues callsRule standardClosed.block has
  annotations x member := by
    obtain ⟨_, typed⟩ := annotationsHold callsRule member
    exact typed

end Analyzer

end Cqasm
