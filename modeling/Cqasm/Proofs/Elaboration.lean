import Cqasm.Analysis.Statement
import Cqasm.Proofs.Fallible
import Cqasm.Proofs.Occurrence
import Cqasm.Proofs.Overload

/-! How each construct came out of its analysis, and which properties of values pass through it. A property of
values that constants, looked up names, functions and selections have is one that every analysed value has. -/
namespace Cqasm.Analysis

open Cqasm.Tree (Expr IndexEntry Literal)

theorem singleIndexRange {size index : Int} {indices : List Int} (done : singleIndex size index = .ok indices) :
    ∀ i ∈ indices, 0 ≤ i ∧ i < size := by
  unfold singleIndex at done
  split at done
  · cases done
  · cases done
    simp only [List.mem_singleton, forall_eq]
    omega

theorem indexRangeRange {size first last : Int} {indices : List Int}
    (done : indexRange size first last = .ok indices) : ∀ i ∈ indices, 0 ≤ i ∧ i < size := by
  unfold indexRange at done
  split at done
  · cases done
  split at done
  · cases done
  split at done
  · cases done
  cases done
  intro i member
  obtain ⟨k, inRange, rfl⟩ := List.mem_map.mp member
  have bound := List.mem_range.mp inRange
  omega

theorem indexEntryRange {scopes : ScopeStack} {size : Int} {entry : IndexEntry Expr} {indices : List Int}
    (done : indexEntry scopes size entry = .ok indices) : ∀ i ∈ indices, 0 ≤ i ∧ i < size := by
  cases entry with
  | item e =>
    simp only [indexEntry, bindOk, unplacedOk] at done
    obtain ⟨_, _, _, _, single⟩ := done
    exact singleIndexRange single
  | range first last =>
    simp only [indexEntry, bindOk, unplacedOk] at done
    obtain ⟨_, _, _, _, _, _, _, _, range⟩ := done
    exact indexRangeRange range

theorem indexEntriesRange {scopes : ScopeStack} {size : Int} {entries : List (IndexEntry Expr)} {indices : List Int}
    (done : indexEntries scopes size entries = .ok indices) : ∀ i ∈ indices, 0 ≤ i ∧ i < size := by
  induction entries generalizing indices with
  | nil =>
    cases done
    simp
  | cons entry rest ih =>
    simp only [indexEntries, bindOk, pureOk] at done
    obtain ⟨here, first, others, tail, rfl⟩ := done
    intro i member
    rcases List.mem_append.mp member with found | found
    · exact indexEntryRange first i found
    · exact ih tail i found

structure Closed (P : Value → Prop) (scopes : ScopeStack) : Prop where
  constant (c : Constant) : P (.const c)
  named {name : String} {v : Value} : scopes.resolveVariable name = .ok v → P v
  function {name : String} {args : List Value} {v : Value} :
    (∀ a ∈ args, P a) → scopes.resolveFunction name args = .ok v → P v
  selection {base : Value} {selection : Selection} {size : Int} {indices : List Int} :
    P base → indexable base = .ok (selection, size) → (∀ i ∈ indices, 0 ≤ i ∧ i < size) →
      P (.selection { selection with indices })

section Keeps

variable {P : Value → Prop} {scopes : ScopeStack}

theorem initializationListKeeps (closed : Closed P scopes) {values : List Value} {v : Value}
    (done : initializationList values = .ok v) : P v := by
  obtain ⟨items, _, same⟩ := bindOk.mp done
  cases pureOk.mp same
  exact closed.constant _

mutual

theorem expressionKeeps (closed : Closed P scopes) : (e : Expr) → {v : Value} → expression scopes e = .ok v → P v
  | .literal l _, v, done => by
    simp only [expression, Except.ok.injEq] at done
    subst done
    exact closed.constant _
  | .name name location, v, done => by
    rw [expression, placedOk, unplacedOk] at done
    exact closed.named done
  | .index base entries location, v, done => by
    simp only [expression, placedOk, unplacedOk, bindOk, pureOk] at done
    obtain ⟨value, analysed, ⟨selection, size⟩, taken, indices, inRange, rfl⟩ := done
    exact closed.selection (expressionKeeps closed base analysed) taken (indexEntriesRange inRange)
  | .apply function arguments location, v, done => by
    simp only [expression, placedOk, unplacedOk, bindOk] at done
    obtain ⟨values, analysed, resolved⟩ := done
    exact closed.function (expressionsKeep closed arguments analysed) resolved
  | .list items location, v, done => by
    simp only [expression, placedOk, unplacedOk, bindOk] at done
    obtain ⟨values, _, made⟩ := done
    exact initializationListKeeps closed made

theorem expressionsKeep (closed : Closed P scopes) :
    (es : List Expr) → {vs : List Value} → expressions scopes es = .ok vs → ∀ v ∈ vs, P v
  | [], vs, done => by
    cases done
    simp
  | e :: rest, vs, done => by
    simp only [expressions, bindOk, pureOk] at done
    obtain ⟨value, first, values, others, rfl⟩ := done
    simp only [List.forall_mem_cons]
    exact ⟨expressionKeeps closed e first, expressionsKeep closed rest others⟩

end

theorem optionalExpressionKeeps (closed : Closed P scopes) {e : Option Expr} {v : Option Value}
    (done : optionalExpression scopes e = .ok v) : ∀ x ∈ v.toList, P x := by
  cases e with
  | none =>
    cases done
    simp
  | some e =>
    obtain ⟨value, analysed, rfl⟩ := mapOk.mp done
    simpa using expressionKeeps closed e analysed

theorem annotationOperandsKeep (closed : Closed P scopes) (location : Option Location) (es : List Expr) :
    ∀ v ∈ (annotationOperands scopes location es).1, P v := by
  induction es with
  | nil => simp [annotationOperands]
  | cons e rest ih =>
    simp only [annotationOperands]
    split
    case h_1 value analysed =>
      simp only [List.forall_mem_cons]
      exact ⟨expressionKeeps closed e analysed, ih⟩
    case h_2 => exact ih

theorem annotationsKeep (closed : Closed P scopes) {as : List (AnnotationItem Expr)}
    {items : List (AnnotationItem Value)} (done : (annotations scopes as).result = .ok items) :
    ∀ v ∈ annotationValues items, P v := by
  cases done
  intro v member
  obtain ⟨item, found, operand⟩ := List.mem_flatMap.mp member
  obtain ⟨a, _, rfl⟩ := List.mem_map.mp found
  exact annotationOperandsKeep closed a.location a.operands v operand

theorem resolveParameterKeeps (constant : ∀ c, P (.const c)) {set : InstructionSet} {name : String}
    {given promoted : Value} (done : set.resolveParameter name given = .ok promoted) (holds : P given) :
    P promoted := by
  unfold InstructionSet.resolveParameter at done
  split at done
  · cases done
  split at done
  · split at done
    case h_1 made =>
      cases done
      exact Value.promotedKeeps constant made holds
    case h_2 => cases done
  · cases done

theorem resolveOptionalParameterKeeps (constant : ∀ c, P (.const c)) {set : InstructionSet} {name : String}
    {given promoted : Option Value} (done : set.resolveParameter? name given = .ok promoted)
    (holds : ∀ v ∈ given.toList, P v) : ∀ v ∈ promoted.toList, P v := by
  cases given with
  | some given =>
    obtain ⟨value, resolved, same⟩ := bindOk.mp done
    cases pureOk.mp same
    simpa using resolveParameterKeeps constant resolved (holds given (by simp))
  | none =>
    simp only [InstructionSet.resolveParameter?] at done
    split at done
    · cases done
    · cases done
      simp

theorem resolveOverloadKeeps (constant : ∀ c, P (.const c)) {α : Type} {t : OverloadTable α} {name : String}
    {args ws : List Value} {tag : α} (resolved : t.resolve name args = .ok (tag, ws)) (holds : ∀ a ∈ args, P a) :
    ∀ w ∈ ws, P w := by
  obtain ⟨o, _, _, promoted⟩ := OverloadTable.resolvedOverload resolved
  exact Value.promotedAllKeeps constant promoted holds

end Keeps

section Gates

variable {set : InstructionSet} {scopes : ScopeStack}

theorem namedParameterOk {node : GateNode Expr} {parameter : Option Value}
    (done : namedParameter set scopes node = .ok parameter) :
    ∃ given, optionalExpression scopes node.parameter = .ok given ∧
      set.resolveParameter? node.name given = .ok parameter := by
  simpa only [namedParameter, placedOk, unplacedOk, bindOk] using done

theorem modifierParameterOk {node : GateNode Expr} {parameter : Option Value}
    (done : modifierParameter scopes node = .ok parameter) :
    ∃ given m promoted, optionalExpression scopes node.parameter = .ok given ∧
      scopes.resolveModifier node.name given.toList = .ok (m, promoted) ∧ parameter = promoted.head? := by
  simp only [modifierParameter, placedOk, unplacedOk, bindOk, pureOk] at done
  obtain ⟨given, analysed, ⟨m, promoted⟩, resolved, same⟩ := done
  exact ⟨given, m, promoted, analysed, resolved, same.symm⟩

theorem gateNodeOk {node : GateNode Expr} {parameter : Option Value} {n : GateNode Value}
    (done : (gateNode scopes node parameter).result = .ok n) :
    n.name = node.name ∧ n.parameter = parameter ∧ n.location = node.location ∧
      (annotations scopes node.annotations).result = .ok n.annotations := by
  obtain ⟨items, analysed, same⟩ := Outcome.resultBind.mp done
  cases Outcome.resultPure.mp same
  exact ⟨rfl, rfl, rfl, analysed⟩

structure NodeFrom (scopes : ScopeStack) (resolve : GateNode Expr → Except Diagnostic (Option Value))
    (node : GateNode Expr) (n : GateNode Value) : Prop where
  name : n.name = node.name
  location : n.location = node.location
  parameter : resolve node = .ok n.parameter
  annotations : (annotations scopes node.annotations).result = .ok n.annotations

inductive GateFrom (set : InstructionSet) (scopes : ScopeStack) : Gate Expr → Gate Value → Prop where
  | named {node n} (made : NodeFrom scopes (namedParameter set scopes) node n) :
      GateFrom set scopes (.named node) (.named n)
  | modified {node n inner g} (made : NodeFrom scopes (modifierParameter scopes) node n)
      (below : GateFrom set scopes inner g) (modifiable : (Gate.modified n g).requireModifiable set = .ok ()) :
      GateFrom set scopes (.modified node inner) (.modified n g)

theorem gateOk {tree : Gate Expr} {g : Gate Value} (done : (gate set scopes tree).result = .ok g) :
    GateFrom set scopes tree g := by
  induction tree generalizing g with
  | named node =>
    simp only [gate, Outcome.resultBind, Outcome.resultOfExcept, Outcome.resultPure] at done
    obtain ⟨parameter, resolved, n, made, rfl⟩ := done
    obtain ⟨name, rfl, location, analysed⟩ := gateNodeOk made
    exact .named ⟨name, location, resolved, analysed⟩
  | modified node inner ih =>
    simp only [gate, Outcome.resultBind, Outcome.resultOfExcept, Outcome.resultPure, placedOk, unplacedOk] at done
    obtain ⟨below, analysedBelow, parameter, resolved, n, made, _, modifiable, rfl⟩ := done
    obtain ⟨name, rfl, location, analysed⟩ := gateNodeOk made
    exact .modified ⟨name, location, resolved, analysed⟩ (ih analysedBelow) modifiable

theorem namedNodeKeeps {P : Value → Prop} (closed : Closed P scopes) {node : GateNode Expr} {n : GateNode Value}
    (made : NodeFrom scopes (namedParameter set scopes) node n) :
    ∀ v ∈ n.parameter.toList ++ annotationValues n.annotations, P v := by
  obtain ⟨given, analysed, resolved⟩ := namedParameterOk made.parameter
  simp only [List.forall_mem_append]
  exact ⟨resolveOptionalParameterKeeps closed.constant resolved (optionalExpressionKeeps closed analysed),
    annotationsKeep closed made.annotations⟩

theorem modifierNodeKeeps {P : Value → Prop} (closed : Closed P scopes) {node : GateNode Expr} {n : GateNode Value}
    (made : NodeFrom scopes (modifierParameter scopes) node n) :
    ∀ v ∈ n.parameter.toList ++ annotationValues n.annotations, P v := by
  obtain ⟨given, m, promoted, analysed, resolved, same⟩ := modifierParameterOk made.parameter
  have all := resolveOverloadKeeps closed.constant resolved (optionalExpressionKeeps closed analysed)
  simp only [List.forall_mem_append]
  refine ⟨?_, annotationsKeep closed made.annotations⟩
  intro v member
  rw [same, Option.mem_toList] at member
  exact all v (List.mem_of_mem_head? member)

theorem gateKeeps {P : Value → Prop} (closed : Closed P scopes) {tree : Gate Expr} {g : Gate Value}
    (made : GateFrom set scopes tree g) : ∀ v ∈ g.values, P v := by
  induction made with
  | named here => simpa [Gate.values, Gate.nodes] using namedNodeKeeps closed here
  | modified here _ _ ih =>
    intro v member
    rcases List.mem_append.mp (by simpa only [Gate.values, Gate.nodes, List.flatMap_cons] using member) with
      found | found
    · exact modifierNodeKeeps closed here v found
    · exact ih v found

end Gates

section Statements

variable {set : InstructionSet} {scopes : ScopeStack}

structure GateInstructionFrom (set : InstructionSet) (scopes : ScopeStack) (i : Tree.GateInstruction)
    (g : Graph.GateInstruction) (args : List Value) : Prop where
  gate : GateFrom set scopes i.gate g.gate
  operands : expressions scopes i.operands = .ok args
  resolved : scopes.resolveInstruction (g.gate.resolutionName set) args = .ok (g.instruction, g.operands)
  uniform : Value.requireUniformQubits g.operands = .ok ()
  annotations : (annotations scopes i.annotations).result = .ok g.annotations
  location : g.location = i.location

theorem gateInstructionOk {i : Tree.GateInstruction} {g : Graph.GateInstruction}
    (done : (gateInstruction set scopes i).result = .ok g) :
    ∃ args, GateInstructionFrom set scopes i g args := by
  simp only [gateInstruction, Outcome.resultBind, Outcome.resultOfExcept, Outcome.resultPure, unplacedOk] at done
  obtain ⟨made, gate, operands, analysed, ⟨instruction, promoted⟩, resolved, _, uniform, items, annotated, rfl⟩ := done
  exact ⟨operands, gateOk gate, analysed, resolved, uniform, annotated, rfl⟩

structure NonGateInstructionFrom (set : InstructionSet) (scopes : ScopeStack) (i : Tree.NonGateInstruction)
    (g : Graph.NonGateInstruction) (given : Option Value) (args : List Value) : Prop where
  analysed : optionalExpression scopes i.parameter = .ok given
  operands : expressions scopes i.operands = .ok args
  resolved : scopes.resolveInstruction i.name args = .ok (g.instruction, g.operands)
  parameter : set.resolveParameter? i.name given = .ok g.parameter
  paired : requirePairing set g.instruction g.operands = .ok ()
  annotations : (annotations scopes i.annotations).result = .ok g.annotations
  location : g.location = i.location

theorem nonGateInstructionOk {i : Tree.NonGateInstruction} {g : Graph.NonGateInstruction}
    (done : (nonGateInstruction set scopes i).result = .ok g) :
    ∃ given args, NonGateInstructionFrom set scopes i g given args := by
  simp only [nonGateInstruction, Outcome.resultBind, Outcome.resultOfExcept, Outcome.resultPure, unplacedOk] at done
  obtain ⟨given, analysedGiven, operands, analysed, ⟨instruction, promoted⟩, resolved, parameter, fits, _, paired,
    items, annotated, rfl⟩ := done
  exact ⟨given, operands, analysedGiven, analysed, resolved, fits, paired, annotated, rfl⟩

structure AssignmentFrom (scopes : ScopeStack) (a : Tree.Assignment) (g : Graph.Assignment) (given : Value) :
    Prop where
  target : expression scopes a.target = .ok g.target
  assignable : g.target.type.assignable = true
  analysed : expression scopes a.value = .ok given
  coerced : given.promote g.target.type.toRvalue = some g.value
  annotations : (annotations scopes a.annotations).result = .ok g.annotations
  location : g.location = a.location

theorem coerceOk {v w : Value} {target : Ty} (done : coerce v target = .ok w) : v.promote target.toRvalue = some w := by
  unfold coerce at done
  split at done
  case h_1 promoted =>
    cases done
    exact promoted
  case h_2 => cases done

theorem requireAssignableOk {t : Ty} {u : Unit} (done : requireAssignable t = .ok u) : t.assignable = true := by
  unfold requireAssignable at done
  split at done
  · assumption
  · cases done

theorem assignmentOk {a : Tree.Assignment} {g : Graph.Assignment} (done : (assignment scopes a).result = .ok g) :
    ∃ given, AssignmentFrom scopes a g given := by
  simp only [assignment, assignTo, Outcome.resultBind, Outcome.resultOfExcept, Outcome.resultPure, unplacedOk] at done
  obtain ⟨target, found, _, assignable, value, analysed, promoted, coerced, items, annotated, rfl⟩ := done
  exact ⟨value, found, requireAssignableOk assignable, analysed, coerceOk coerced, annotated, rfl⟩

structure VariableFrom (s : State) (d : Tree.Declaration) (v : Graph.Variable) : Prop where
  name : v.name = d.name
  type : declaredType d = .ok v.type
  fresh : s.declares d.name = false
  annotations : (annotations s.scopes d.annotations).result = .ok v.annotations
  location : v.location = d.nameLocation.or d.location

theorem declaredVariableOk {s : State} {d : Tree.Declaration} {v : Graph.Variable}
    (done : (declaredVariable s d).result = .ok v) : VariableFrom s d v := by
  obtain ⟨type, declared, done⟩ := Outcome.resultBind.mp done
  cases taken : s.declares d.name with
  | true =>
    simp only [taken, if_true] at done
    obtain ⟨_, refused, _⟩ := Outcome.resultBind.mp done
    cases refused
  | false =>
    simp only [taken, Bool.false_eq_true, if_false] at done
    obtain ⟨items, annotated, same⟩ := Outcome.resultBind.mp done
    cases Outcome.resultPure.mp same
    exact ⟨rfl, unplacedOk.mp declared, taken, annotated, rfl⟩

end Statements

end Cqasm.Analysis
