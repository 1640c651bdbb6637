import Cqasm.Proofs.WellFormed

/-! The check of a program against all values that occur in it. It lets a program pass where none of them, none of the
blocks and no instruction is at fault, and what it reports of any other program is wrong with that program. -/
namespace Cqasm.Graph

open Statement (At)

inductive Program.Mentions (p : Program) : Value → Prop where
  | annotated {x v} (known : x ∈ p.vars) (operand : v ∈ annotationValues x.annotations) : Mentions p v
  | statement {around s v} (has : p.Has around s) (part : v ∈ s.values) : Mentions p v
  | argument {function arguments v} (call : Mentions p (.call function arguments))
      (given : v ∈ arguments) : Mentions p v

inductive Program.Violates (p : Program) : Malformed → Prop where
  | reference {id type} (mentioned : p.Mentions (.reference id type)) (missing : p.vars.length ≤ id) :
      Violates p (.danglingVariable id)
  | selection {s} (mentioned : p.Mentions (.selection s)) (missing : p.vars.length ≤ s.id) :
      Violates p (.danglingVariable s.id)
  | index {s w i} (mentioned : p.Mentions (.selection s)) (found : p.vars[s.id]? = some w) (selected : i ∈ s.indices)
      (outside : i < 0 ∨ w.type.size ≤ i) : Violates p (.indexOutOfRange w.name i w.type.size)
  | block {around ids ss location id} (has : p.Has around (.block ids ss location)) (declared : id ∈ ids)
      (missing : p.vars.length ≤ id) : Violates p (.danglingVariable id)
  | gate {around g} (has : p.Has around (.gate g)) (count : g.operands.length ≠ g.instruction.operands.length) :
      Violates p (.operandCount g.instruction.name g.instruction.operands.length g.operands.length)
  | nonGate {around i} (has : p.Has around (.nonGate i)) (count : i.operands.length ≠ i.instruction.operands.length) :
      Violates p (.operandCount i.instruction.name i.instruction.operands.length i.operands.length)

section Program

variable {p : Program}

end Program

def Reports (P : Malformed → Prop) (check : Except Malformed Unit) : Prop := ∀ m, check = .error m → P m

section Reports

variable {P : Malformed → Prop}

theorem reportsOk : Reports P (.ok ()) := nofun

theorem Reports.then {x y : Except Malformed Unit} (first : Reports P x) (second : Reports P y) :
    Reports P (do x; y) := by
  intro m failed
  cases x with
  | error e => exact first m failed
  | ok _ => exact second m failed

theorem reportsEach {α : Type} {check : α → Except Malformed Unit} {xs : List α}
    (each : ∀ x ∈ xs, Reports P (check x)) : Reports P (checkEach check xs) := by
  induction xs with
  | nil => exact reportsOk
  | cons x xs ih =>
    obtain ⟨here, others⟩ := List.forall_mem_cons.mp each
    exact here.then (ih others)

theorem variableReports {vars : List Variable} {id : Nat} (dangling : vars.length ≤ id → P (.danglingVariable id)) :
    Reports P (checkVariable vars id) := by
  unfold checkVariable
  split
  case isTrue => exact reportsOk
  case isFalse missing =>
    intro m failed
    cases failed
    exact dangling (Nat.not_lt.mp missing)

theorem operandCountReports {instruction : Instruction} {operands : List Value}
    (uneven : operands.length ≠ instruction.operands.length →
      P (.operandCount instruction.name instruction.operands.length operands.length)) :
    Reports P (checkOperandCount instruction operands) := by
  unfold checkOperandCount
  split
  case isTrue => exact reportsOk
  case isFalse count =>
    intro m failed
    cases failed
    exact uneven (Ne.symm count)

end Reports

theorem Statement.At.member {visible around : List Nat} {root : Statement} {ids : List Nat} {ss : List Statement}
    {location : Option Location} (occurs : At visible root around (.block ids ss location)) {s : Statement}
    (inside : s ∈ ss) : At visible root (ids ++ around) s := by
  generalize block : Statement.block ids ss location = b at occurs
  induction occurs with
  | here =>
    subst block
    exact .inside inside .here
  | inside found _ ih => exact .inside found (ih block)

section Program

variable {p : Program}

theorem selectionReports {s : Selection} (mentioned : p.Mentions (.selection s)) :
    Reports p.Violates (checkSelection p.vars s) := by
  intro m failed
  unfold checkSelection at failed
  split at failed
  case h_1 missing =>
    cases failed
    exact .selection mentioned (List.getElem?_eq_none_iff.mp missing)
  case h_2 w found =>
    split at failed
    case h_1 index first =>
      cases failed
      have outside := List.find?_some first
      simp only [Bool.or_eq_true, decide_eq_true_eq] at outside
      exact .index mentioned found (List.mem_of_find?_eq_some first) outside
    case h_2 => cases failed

mutual

theorem valueReports : (v : Value) → p.Mentions v → Reports p.Violates (checkValue p.vars v)
  | .const _, _ => reportsOk
  | .reference _ _, mentioned => variableReports (.reference mentioned)
  | .selection _, mentioned => by
    rw [checkValue]
    exact selectionReports mentioned
  | .call _ arguments, mentioned => by
    rw [checkValue]
    exact valuesReport arguments fun _ given => .argument mentioned given

theorem valuesReport : (vs : List Value) → (∀ v ∈ vs, p.Mentions v) → Reports p.Violates (checkValues p.vars vs)
  | [], _ => reportsOk
  | v :: vs, mentioned => by
    obtain ⟨first, others⟩ := List.forall_mem_cons.mp mentioned
    rw [checkValues]
    exact (valueReports v first).then (valuesReport vs others)

end

theorem annotationsReport {as : List (AnnotationItem Value)} (mentioned : ∀ v ∈ annotationValues as, p.Mentions v) :
    Reports p.Violates (checkAnnotations p.vars as) :=
  reportsEach fun a member =>
    valuesReport a.operands fun v operand => mentioned v (List.mem_flatMap.mpr ⟨a, member, operand⟩)

theorem nodeReports {node : GateNode Value}
    (mentioned : ∀ v ∈ node.parameter.toList ++ annotationValues node.annotations, p.Mentions v) :
    Reports p.Violates (checkNode p.vars node) := by
  obtain ⟨parameter, annotations⟩ := List.forall_mem_append.mp mentioned
  exact (valuesReport _ parameter).then (annotationsReport annotations)

theorem gateReports {g : Gate Value} (mentioned : ∀ v ∈ g.values, p.Mentions v) :
    Reports p.Violates (checkGate p.vars g) := by
  induction g with
  | named node => exact nodeReports (by simpa [Gate.values, Gate.nodes] using mentioned)
  | modified node inner ih =>
    obtain ⟨here, below⟩ := List.forall_mem_append.mp
      (show ∀ v ∈ _ ++ inner.values, p.Mentions v from mentioned)
    exact (nodeReports here).then (ih below)

theorem gateInstructionReports {around : List Nat} {g : GateInstruction} (has : p.Has around (.gate g)) :
    Reports p.Violates (checkStatement p.vars (.gate g)) := by
  have mentioned : ∀ v ∈ g.values, p.Mentions v := fun _ part => .statement has part
  simp only [GateInstruction.values, List.forall_mem_append] at mentioned
  obtain ⟨⟨gate, operands⟩, annotations⟩ := mentioned
  rw [checkStatement]
  exact (operandCountReports (.gate has)).then
    ((gateReports gate).then ((valuesReport _ operands).then (annotationsReport annotations)))

theorem nonGateInstructionReports {around : List Nat} {i : NonGateInstruction} (has : p.Has around (.nonGate i)) :
    Reports p.Violates (checkStatement p.vars (.nonGate i)) := by
  have mentioned : ∀ v ∈ i.values, p.Mentions v := fun _ part => .statement has part
  simp only [NonGateInstruction.values, List.forall_mem_append] at mentioned
  obtain ⟨⟨operands, parameter⟩, annotations⟩ := mentioned
  rw [checkStatement]
  exact (operandCountReports (.nonGate has)).then
    ((valuesReport _ operands).then ((valuesReport _ parameter).then (annotationsReport annotations)))

theorem assignmentReports {around : List Nat} {a : Assignment} (has : p.Has around (.assign a)) :
    Reports p.Violates (checkStatement p.vars (.assign a)) := by
  have mentioned : ∀ v ∈ a.values, p.Mentions v := fun _ part => .statement has part
  simp only [Assignment.values, List.forall_mem_cons] at mentioned
  obtain ⟨target, value, annotations⟩ := mentioned
  rw [checkStatement]
  exact (valueReports _ target).then ((valueReports _ value).then (annotationsReport annotations))

mutual

theorem statementReports {around : List Nat} :
    (s : Statement) → p.Has around s → Reports p.Violates (checkStatement p.vars s)
  | .gate _, has => gateInstructionReports has
  | .nonGate _, has => nonGateInstructionReports has
  | .assign _, has => assignmentReports has
  | .block ids ss location, has => by
    rw [checkStatement]
    exact (reportsEach fun _ declared => variableReports (.block has declared)).then
      (statementsReport ss fun _ inside => At.member has inside)

theorem statementsReport {around : List Nat} :
    (ss : List Statement) → (∀ s ∈ ss, p.Has around s) → Reports p.Violates (checkStatements p.vars ss)
  | [], _ => reportsOk
  | s :: rest, has => by
    obtain ⟨first, others⟩ := List.forall_mem_cons.mp has
    rw [checkStatements]
    exact (statementReports s first).then (statementsReport rest others)

end

end Program

end Cqasm.Graph
