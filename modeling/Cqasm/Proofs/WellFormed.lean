import Cqasm.Proofs.Scoping

/-! Well-formed programs. The check of a program accepts exactly the well-formed ones, and analysis produces no
others, whatever was registered on top of the language. -/
namespace Cqasm

open Cqasm.Graph (Variable)

namespace Graph

def Grounded (vars : List Variable) (v : Value) : Prop :=
  ∀ r ∈ v.references, ∃ id w, r.id? = some id ∧ vars[id]? = some w ∧ ∀ i ∈ r.indices, 0 ≤ i ∧ i < w.type.size

inductive Statement.Proper (vars : List Variable) : Statement → Prop where
  | gate {g} (count : g.operands.length = g.instruction.operands.length) (values : ∀ v ∈ g.values, Grounded vars v) :
      Proper vars (.gate g)
  | nonGate {i} (count : i.operands.length = i.instruction.operands.length)
      (values : ∀ v ∈ i.values, Grounded vars v) : Proper vars (.nonGate i)
  | assign {a} (values : ∀ v ∈ a.values, Grounded vars v) : Proper vars (.assign a)
  | block {ids ss location} (known : ∀ id ∈ ids, id < vars.length) : Proper vars (.block ids ss location)

structure Program.WellFormed (p : Program) : Prop where
  annotations : ∀ x ∈ p.vars, ∀ v ∈ annotationValues x.annotations, Grounded p.vars v
  statements {around s} : p.Has around s → s.Proper p.vars

section Check

variable {vars : List Variable}

theorem thenOk {x y : Except Malformed Unit} : (do x; y) = .ok () ↔ x = .ok () ∧ y = .ok () := by
  constructor
  · intro done
    obtain ⟨_, first, second⟩ := bindOk.mp done
    exact ⟨first, second⟩
  · rintro ⟨first, second⟩
    exact bindOk.mpr ⟨(), first, second⟩

theorem checkEachOk {α : Type} {check : α → Except Malformed Unit} {xs : List α} :
    checkEach check xs = .ok () ↔ ∀ x ∈ xs, check x = .ok () := by
  induction xs with
  | nil => simp [checkEach]
  | cons x xs ih => rw [checkEach, thenOk, ih, List.forall_mem_cons]

theorem checkVariableOk {id : Nat} : checkVariable vars id = .ok () ↔ id < vars.length := by
  unfold checkVariable
  split <;> simp_all

theorem checkSelectionOk {s : Selection} :
    checkSelection vars s = .ok () ↔ ∃ w, vars[s.id]? = some w ∧ ∀ i ∈ s.indices, 0 ≤ i ∧ i < w.type.size := by
  have range (size i : Int) : ¬ (i < 0 || size ≤ i) = true ↔ 0 ≤ i ∧ i < size := by
    simp only [Bool.or_eq_true, decide_eq_true_eq]
    omega
  unfold checkSelection
  cases vars[s.id]? with
  | none => simp
  | some w =>
    simp only [Option.some.injEq, exists_eq_left', ← range, ← List.find?_eq_none]
    split <;> simp_all

mutual

theorem checkValueOk : (v : Value) → (checkValue vars v = .ok () ↔ Grounded vars v)
  | .const _ => by simp [checkValue, Grounded, Value.references]
  | .reference id type => by
    simp [checkValue, checkVariableOk, Grounded, Value.references, Value.id?, Value.indices,
      List.getElem?_eq_some_iff]
  | .selection s => by
    simp [checkValue, checkSelectionOk, Grounded, Value.references, Value.id?, Value.indices]
  | .call _ arguments => by
    rw [checkValue, checkValuesOk arguments]
    simp only [Grounded, Value.references, Value.memReferencesIn]
    exact ⟨fun all r ⟨v, member, inside⟩ => all v member r inside,
      fun all v member r inside => all r ⟨v, member, inside⟩⟩

theorem checkValuesOk : (vs : List Value) → (checkValues vars vs = .ok () ↔ ∀ v ∈ vs, Grounded vars v)
  | [] => by simp [checkValues]
  | v :: vs => by rw [checkValues, thenOk, checkValueOk v, checkValuesOk vs, List.forall_mem_cons]

end

theorem checkAnnotationsOk {as : List (AnnotationItem Value)} :
    checkAnnotations vars as = .ok () ↔ ∀ v ∈ annotationValues as, Grounded vars v := by
  simp only [checkAnnotations, checkEachOk, checkValuesOk, annotationValues, List.mem_flatMap]
  exact ⟨fun all v ⟨a, member, inside⟩ => all a member v inside, fun all a member v inside => all v ⟨a, member, inside⟩⟩

theorem checkNodeOk {node : GateNode Value} :
    checkNode vars node = .ok () ↔
      ∀ v ∈ node.parameter.toList ++ annotationValues node.annotations, Grounded vars v := by
  rw [checkNode, thenOk, checkValuesOk, checkAnnotationsOk, List.forall_mem_append]

theorem checkGateOk {g : Gate Value} : checkGate vars g = .ok () ↔ ∀ v ∈ g.values, Grounded vars v := by
  induction g with
  | named node =>
    rw [checkGate, checkNodeOk]
    simp [Gate.values, Gate.nodes]
  | modified node inner ih =>
    rw [checkGate, thenOk, checkNodeOk, ih, ← List.forall_mem_append]
    rfl

theorem checkOperandCountOk {instruction : Instruction} {operands : List Value} :
    checkOperandCount instruction operands = .ok () ↔ operands.length = instruction.operands.length := by
  unfold checkOperandCount
  split <;> simp_all [eq_comm]

theorem checkGateInstructionOk {g : GateInstruction} :
    checkStatement vars (.gate g) = .ok () ↔ Statement.Proper vars (.gate g) := by
  simp only [checkStatement, thenOk, checkOperandCountOk, checkGateOk, checkValuesOk, checkAnnotationsOk]
  constructor
  · rintro ⟨count, gate, operands, annotations⟩
    refine .gate count ?_
    simp only [GateInstruction.values, List.forall_mem_append]
    exact ⟨⟨gate, operands⟩, annotations⟩
  · intro proper
    cases proper with
    | gate count values =>
      simp only [GateInstruction.values, List.forall_mem_append] at values
      exact ⟨count, values.1.1, values.1.2, values.2⟩

theorem checkNonGateInstructionOk {i : NonGateInstruction} :
    checkStatement vars (.nonGate i) = .ok () ↔ Statement.Proper vars (.nonGate i) := by
  simp only [checkStatement, thenOk, checkOperandCountOk, checkValuesOk, checkAnnotationsOk]
  constructor
  · rintro ⟨count, operands, parameter, annotations⟩
    refine .nonGate count ?_
    simp only [NonGateInstruction.values, List.forall_mem_append]
    exact ⟨⟨operands, parameter⟩, annotations⟩
  · intro proper
    cases proper with
    | nonGate count values =>
      simp only [NonGateInstruction.values, List.forall_mem_append] at values
      exact ⟨count, values.1.1, values.1.2, values.2⟩

theorem checkAssignmentOk {a : Assignment} :
    checkStatement vars (.assign a) = .ok () ↔ Statement.Proper vars (.assign a) := by
  simp only [checkStatement, thenOk, checkValueOk, checkAnnotationsOk]
  constructor
  · rintro ⟨target, value, annotations⟩
    refine .assign ?_
    simp only [Assignment.values, List.forall_mem_cons]
    exact ⟨target, value, annotations⟩
  · intro proper
    cases proper with
    | assign values => simpa only [Assignment.values, List.forall_mem_cons] using values

mutual

theorem checkStatementOk (visible : List Nat) :
    (s : Statement) → (checkStatement vars s = .ok () ↔ s.Everywhere (fun _ => Statement.Proper vars) visible)
  | .gate g => by rw [checkGateInstructionOk, Statement.everywhereGate]
  | .nonGate i => by rw [checkNonGateInstructionOk, Statement.everywhereNonGate]
  | .assign a => by rw [checkAssignmentOk, Statement.everywhereAssign]
  | .block ids ss location => by
    simp only [checkStatement, thenOk, checkEachOk, checkVariableOk, checkStatementsOk (ids ++ visible) ss,
      Statement.everywhereBlock]
    refine and_congr_left fun _ => ⟨.block, fun proper => ?_⟩
    cases proper with
    | block known => exact known

theorem checkStatementsOk (visible : List Nat) : (ss : List Statement) →
    (checkStatements vars ss = .ok () ↔ ∀ s ∈ ss, s.Everywhere (fun _ => Statement.Proper vars) visible)
  | [] => by simp [checkStatements]
  | s :: rest => by
    rw [checkStatements, thenOk, checkStatementOk visible s, checkStatementsOk visible rest, List.forall_mem_cons]

end

theorem checkOk {p : Program} : p.check = .ok () ↔ p.WellFormed := by
  rw [Program.check, thenOk, checkEachOk, checkStatementOk []]
  simp only [checkAnnotationsOk]
  exact ⟨fun ⟨annotations, statements⟩ => ⟨annotations, statements _ _⟩,
    fun ⟨annotations, statements⟩ => ⟨annotations, fun _ _ => statements⟩⟩

end Check

end Graph

namespace Analyzer

open Analysis

inductive Registration where
  | value (name : String) (v : Value)
  | native (name : String) (params : List Ty) (f : Native)
  | function (f : RuntimeFunction)
  | instruction (i : Instruction)
  | modifier (m : GateModifier)

def register (a : Analyzer) : Registration → Analyzer
  | .value name v => a.addVariable name v
  | .native name params f => a.addNative name params f
  | .function f => a.addFunction f
  | .instruction i => a.addInstruction i
  | .modifier m => a.addModifier m

def Registration.Closed : Registration → Prop
  | .value _ v => v.references = []
  | .native _ _ f => f.Closed
  | .function _ | .instruction _ | .modifier _ => True

theorem registerClosed {a : Analyzer} (closed : a.global.Closed) {r : Registration} (free : r.Closed) :
    (a.register r).global.Closed := by
  cases r with
  | value name v =>
    refine { closed with vars := fun found => ?_ }
    rcases VariableTable.addFound found with rfl | old
    · exact free
    · exact closed.vars old
  | native name params f =>
    refine { closed with natives := fun registered => ?_ }
    rcases OverloadTable.addedOverload registered with rfl | old
    · exact free
    · exact closed.natives old
  | instruction i =>
    refine { closed with instructions := fun registered => ?_ }
    rcases OverloadTable.addedOverload registered with rfl | old
    · rfl
    · exact closed.instructions old
  | function | modifier => exact { closed with }

theorem registerAllClosed {a : Analyzer} (closed : a.global.Closed) {rs : List Registration}
    (free : ∀ r ∈ rs, r.Closed) : (rs.foldl register a).global.Closed := by
  induction rs generalizing a with
  | nil => exact closed
  | cons r rs ih =>
    obtain ⟨here, others⟩ := List.forall_mem_cons.mp free
    exact ih (registerClosed closed here) others

section Closed

variable {a : Analyzer} {p : Tree.Program}

theorem boundGrounded {vars : List Variable} {around : List Nat} {v : Value} (bound : Bound vars around v) :
    Graph.Grounded vars v := fun r inside =>
  have ⟨id, w, means⟩ := bound r inside
  ⟨id, w, means.handle, means.found, means.inRange⟩

theorem programProper (closed : a.global.Closed) {around : List Nat} {st : Graph.Statement}
    (has : (a.elaborate p).program.Has around st) : st.Proper (a.elaborate p).program.vars := by
  have values : ∀ v ∈ st.values, Graph.Grounded (a.elaborate p).program.vars v := fun v member =>
    boundGrounded (statementValues (boundRule closed) closed.block has v member)
  cases st with
  | assign => exact .assign values
  | block => exact .block (programBlock closed.block has).known
  | gate g =>
    cases keptStatement closed.block has with
    | made reached _ _ origin =>
      cases origin with
      | gate origin =>
        have promoted := resolvedOperands closed reached origin.resolved
        exact .gate (Value.promotedAllLength promoted) values
  | nonGate i =>
    cases keptStatement closed.block has with
    | made reached _ _ origin =>
      cases origin with
      | nonGate origin =>
        have promoted := resolvedOperands closed reached origin.resolved
        exact .nonGate (Value.promotedAllLength promoted) values

theorem programWellFormed (closed : a.global.Closed) : (a.elaborate p).program.WellFormed := by
  refine ⟨fun x member v inside => ?_, programProper closed⟩
  obtain ⟨around, bound⟩ := annotationsHold (boundRule closed) member
  exact boundGrounded (bound v inside)

theorem analyzeChecked (checked : (a.elaborate p).program.check = .ok ()) : a.analyze p = .ok (a.elaborate p) := by
  simp only [analyze]
  split
  · rw [checked]
    rfl
  · rfl

end Closed

theorem registeredNeverMalformed (rs : List Registration) (free : ∀ r ∈ rs, r.Closed) (p : Tree.Program) :
    ((rs.foldl register standard).elaborate p).program.WellFormed ∧
      ((rs.foldl register standard).elaborate p).program.check = .ok () ∧
      (rs.foldl register standard).analyze p = .ok ((rs.foldl register standard).elaborate p) := by
  have wellFormed := programWellFormed (p := p) (registerAllClosed standardClosed free)
  have checked := Graph.checkOk.mpr wellFormed
  exact ⟨wellFormed, checked, analyzeChecked checked⟩

def extension : List Registration :=
  [.value "half" (.const (.float 0.5)),
    .native "whole" [⟨.array .qubit unconstrained, true⟩] fun
      | [v] => .ok v
      | _ => .error .dynamicValue,
    .function ⟨"random", [.int], .int⟩,
    .instruction ⟨"flip", [⟨.scalar .qubit, true⟩], .custom⟩,
    .modifier ⟨"twice", none, false⟩]

def extensionUse : Tree.Program where
  version := ⟨[3, 0]⟩
  versionLocation := none
  statements :=
    [.declare ⟨"q", none, .qubit, some 2, none, [], none⟩,
      .nonGate ⟨"flip", none, [.index (.name "q" none) [.item (.literal (.int 1) none)] none], [], none⟩,
      .block [.declare ⟨"b", none, .bool, none, some (.literal (.bool true) none),
        [⟨"layout", "uses", [.apply "whole" [.name "q" none] none], none⟩], none⟩] none]

theorem extensionClosed : ∀ r ∈ extension, r.Closed := by
  simp only [extension, List.forall_mem_cons, Registration.Closed, List.not_mem_nil, false_implies, implies_true,
    and_true]
  refine ⟨rfl, fun {args v} done r inside => ?_⟩
  cases args with
  | nil => cases done
  | cons first rest =>
    cases rest with
    | nil =>
      cases done
      exact Value.memReferencesIn.mpr ⟨_, List.mem_singleton.mpr rfl, inside⟩
    | cons => cases done

theorem extensionNeverMalformed :
    (∀ r ∈ extension, r.Closed) ∧ ((extension.foldl register standard).elaborate extensionUse).isClean = true ∧
      ((extension.foldl register standard).elaborate extensionUse).program.WellFormed ∧
      (extension.foldl register standard).analyze extensionUse =
        .ok ((extension.foldl register standard).elaborate extensionUse) :=
  have ⟨wellFormed, _, analyzed⟩ := registeredNeverMalformed extension extensionClosed extensionUse
  ⟨extensionClosed, by decide +kernel, wellFormed, analyzed⟩

end Analyzer

end Cqasm
