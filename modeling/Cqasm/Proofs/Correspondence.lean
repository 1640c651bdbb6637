import Cqasm.Proofs.Clean
import Cqasm.Proofs.WellFormed

/-! Programs and what becomes of them. Where nothing is wrong, every statement comes out once, in its place and with
all its parts; declarations become the variables of their block, and initializers become assignments. -/
namespace Cqasm

open Cqasm.Graph (Variable)
open Cqasm.Tree (Expr)

structure AnnotationMirrored (a : AnnotationItem Expr) (item : AnnotationItem Value) : Prop where
  interface : item.interface = a.interface
  operation : item.operation = a.operation
  operands : item.operands.length = a.operands.length
  location : item.location = a.location

def AnnotationsMirrored : List (AnnotationItem Expr) → List (AnnotationItem Value) → Prop :=
  List.Forall₂ AnnotationMirrored

structure NodeMirrored (node : GateNode Expr) (n : GateNode Value) : Prop where
  name : n.name = node.name
  parameter : n.parameter.isSome = node.parameter.isSome
  annotations : AnnotationsMirrored node.annotations n.annotations
  location : n.location = node.location

structure GateInstructionMirrored (i : Tree.GateInstruction) (g : Graph.GateInstruction) : Prop where
  gate : List.Forall₂ NodeMirrored i.gate.nodes g.gate.nodes
  operands : g.operands.length = i.operands.length
  annotations : AnnotationsMirrored i.annotations g.annotations
  location : g.location = i.location

structure NonGateInstructionMirrored (i : Tree.NonGateInstruction) (g : Graph.NonGateInstruction) : Prop where
  parameter : g.parameter.isSome = i.parameter.isSome
  operands : g.operands.length = i.operands.length
  annotations : AnnotationsMirrored i.annotations g.annotations
  location : g.location = i.location

structure AssignmentMirrored (a : Tree.Assignment) (g : Graph.Assignment) : Prop where
  annotations : AnnotationsMirrored a.annotations g.annotations
  location : g.location = a.location

def Tree.Declaration.type (d : Tree.Declaration) : Ty :=
  match d.size with
  | none => ⟨.scalar d.element.scalar, true⟩
  | some size => ⟨.array d.element size, true⟩

structure VariableMirrored (d : Tree.Declaration) (v : Variable) : Prop where
  name : v.name = d.name
  type : v.type = d.type
  annotations : AnnotationsMirrored d.annotations v.annotations
  location : v.location = d.nameLocation.or d.location

inductive InitializerMirrored (id : Nat) (d : Tree.Declaration) : List Graph.Statement → Prop where
  | absent (none : d.initializer = none) : InitializerMirrored id d []
  | given {e a} (some : d.initializer = some e) (target : a.target = .reference id d.type)
      (annotations : a.annotations = []) (location : a.location = d.location) :
      InitializerMirrored id d [.assign a]

mutual

/- `StatementMirrored vars n tree ids ss m` says that, of the variables `vars` of a program, those from `n` up to
`m` are declared in `tree`, which adds the variables `ids` and the statements `ss` to the block that it stands in. -/
inductive StatementMirrored (vars : List Variable) :
    Nat → Tree.Statement → List Nat → List Graph.Statement → Nat → Prop where
  | declare {id d v ss} (found : vars[id]? = some v) (declared : VariableMirrored d v)
      (initializer : InitializerMirrored id d ss) : StatementMirrored vars id (.declare d) [id] ss (id + 1)
  | gate {n i g} (same : GateInstructionMirrored i g) : StatementMirrored vars n (.gate i) [] [.gate g] n
  | nonGate {n i g} (same : NonGateInstructionMirrored i g) : StatementMirrored vars n (.nonGate i) [] [.nonGate g] n
  | assign {n a g} (same : AssignmentMirrored a g) : StatementMirrored vars n (.assign a) [] [.assign g] n
  | block {n body ids ss m} {written covered : Option Location} (inside : StatementsMirrored vars n body ids ss m) :
      StatementMirrored vars n (.block body written) [] [.block ids ss covered] m

inductive StatementsMirrored (vars : List Variable) :
    Nat → List Tree.Statement → List Nat → List Graph.Statement → Nat → Prop where
  | nil {n} : StatementsMirrored vars n [] [] [] n
  | cons {n tree ids ss k trees others more m} (first : StatementMirrored vars n tree ids ss k)
      (rest : StatementsMirrored vars k trees others more m) :
      StatementsMirrored vars n (tree :: trees) (ids ++ others) (ss ++ more) m

end

namespace Analysis

section Constructs

variable {set : InstructionSet} {scopes : ScopeStack}

theorem annotationsMirrored {as : List (AnnotationItem Expr)} {items : List (AnnotationItem Value)}
    (made : AnnotationsFrom scopes as items) : AnnotationsMirrored as items :=
  List.Forall₂.imp (fun _ _ here => ⟨here.interface, here.operation, expressionsLength here.operands, here.location⟩)
    made

theorem resolvedLength {name : String} {es : List Expr} {args ws : List Value} {i : Instruction}
    (analysed : expressions scopes es = .ok args) (resolved : scopes.resolveInstruction name args = .ok (i, ws)) :
    ws.length = es.length := by
  obtain ⟨scope, _, here⟩ := ScopeStack.resolvedInstruction resolved
  obtain ⟨o, _, _, promoted⟩ := OverloadTable.resolvedOverload here
  rw [← expressionsLength analysed, (Value.promotedAll promoted).2.length_eq]

theorem gateInstructionMirrored {i : Tree.GateInstruction} {g : Graph.GateInstruction}
    (clean : gateInstruction set scopes i = .ok g) : GateInstructionMirrored i g := by
  obtain ⟨nodes, annotated⟩ := cleanGateInstruction clean
  obtain ⟨args, origin⟩ := gateInstructionOk (congrArg Outcome.result clean)
  have mirrored : List.Forall₂ NodeMirrored i.gate.nodes g.gate.nodes :=
    List.Forall₂.imp (fun _ _ here => ⟨here.name, here.parameter, annotationsMirrored here.annotations, here.location⟩)
      nodes
  exact ⟨mirrored, resolvedLength origin.operands origin.resolved, annotationsMirrored annotated, origin.location⟩

theorem nonGateInstructionMirrored {i : Tree.NonGateInstruction} {g : Graph.NonGateInstruction}
    (clean : nonGateInstruction set scopes i = .ok g) : NonGateInstructionMirrored i g := by
  obtain ⟨given, args, origin⟩ := nonGateInstructionOk (congrArg Outcome.result clean)
  have parameter := (resolvedGiven origin.parameter).trans (optionalGiven origin.analysed)
  exact ⟨parameter, resolvedLength origin.operands origin.resolved,
    annotationsMirrored (cleanNonGateInstruction clean), origin.location⟩

theorem assignmentMirrored {a : Tree.Assignment} {g : Graph.Assignment} (clean : assignment scopes a = .ok g) :
    AssignmentMirrored a g :=
  have ⟨annotated, location⟩ := cleanAssignment clean
  ⟨annotationsMirrored annotated, location⟩

theorem declaredTypeOk {d : Tree.Declaration} {t : Ty} (done : declaredType d = .ok t) : t = d.type := by
  unfold declaredType at done
  unfold Tree.Declaration.type
  cases size : d.size with
  | none =>
    simp only [size, Except.ok.injEq] at done
    exact done.symm
  | some n =>
    simp only [size] at done
    split at done
    · cases done
    · cases done
      rfl

theorem variableMirrored {s : State} {d : Tree.Declaration} {v : Variable} (clean : declaredVariable s d = .ok v) :
    VariableMirrored d v :=
  have origin := declaredVariableOk (congrArg Outcome.result clean)
  ⟨origin.name, declaredTypeOk origin.type, annotationsMirrored (cleanVariable clean), origin.location⟩

end Constructs

end Analysis

theorem ScopeStack.currentModify (s : ScopeStack) (f : Scope → Scope) : (s.modifyCurrent f).current = f s.current := by
  obtain ⟨policy, nested, global⟩ := s
  cases nested <;> rfl

theorem ScopeStack.modifyKept (s : ScopeStack) : (s.modifyCurrent fun _ => s.current) = s := by
  obtain ⟨policy, nested, global⟩ := s
  cases nested <;> rfl

namespace Analysis

structure Adds (s t : State) (ids : List Nat) (ss : List Graph.Statement) : Prop where
  outside : t.scopes = s.scopes.modifyCurrent fun _ => t.scopes.current
  vars : t.scopes.current.block.vars = s.scopes.current.block.vars ++ ids
  statements : t.scopes.current.block.statements = s.scopes.current.block.statements ++ ss
  earlier : s.vars <+: t.vars

section Adds

variable {s t u : State} {ids others : List Nat} {ss more : List Graph.Statement}

theorem Adds.none (s : State) : Adds s s [] [] :=
  ⟨s.scopes.modifyKept.symm, (List.append_nil _).symm, (List.append_nil _).symm, List.prefix_rfl⟩

theorem Adds.trans (first : Adds s t ids ss) (second : Adds t u others more) :
    Adds s u (ids ++ others) (ss ++ more) where
  outside := by
    have after := second.outside
    rw [first.outside, ScopeStack.modifyModify] at after
    exact after
  vars := by rw [second.vars, first.vars, List.append_assoc]
  statements := by rw [second.statements, first.statements, List.append_assoc]
  earlier := first.earlier.trans second.earlier

theorem Adds.modify {f : Scope → Scope} (scopes : t.scopes = s.scopes.modifyCurrent f) (earlier : s.vars <+: t.vars)
    (vars : (f s.scopes.current).block.vars = s.scopes.current.block.vars ++ ids)
    (statements : (f s.scopes.current).block.statements = s.scopes.current.block.statements ++ ss) :
    Adds s t ids ss := by
  have current : t.scopes.current = f s.scopes.current := by rw [scopes, ScopeStack.currentModify]
  refine ⟨?_, current ▸ vars, current ▸ statements, earlier⟩
  rw [current, scopes]
  obtain ⟨⟨policy, nested, global⟩, _, _⟩ := s
  cases nested <;> rfl

theorem Adds.statement (s : State) (st : Graph.Statement) : Adds s (s.addStatement st) [] [st] :=
  .modify (f := (·.addStatement st)) rfl List.prefix_rfl (List.append_nil _).symm rfl

theorem Adds.variable (s : State) (v : Variable) : Adds s (s.addVariable v) [s.vars.length] [] :=
  .modify (s.addVariableScopes v) (List.prefix_append _ _) rfl (List.append_nil _).symm

theorem Adds.block (inside : Adds s.openBlock t ids ss) :
    ∃ location, Adds s t.closeBlock [] [.block ids ss location] := by
  have scopes : t.scopes = { s.scopes with nested := t.scopes.current :: s.scopes.nested } := inside.outside
  have popped : t.scopes.pop? = some (t.scopes.current, s.scopes) := by
    rw [scopes]
    rfl
  have closed : t.closeBlock = { t with scopes := s.scopes.addStatement t.scopes.current.block.toStatement } := by
    unfold State.closeBlock
    rw [popped]
  have whole : t.scopes.current.block.toStatement = .block ids ss t.scopes.current.block.location := by
    rw [Graph.Block.toStatement, inside.vars, inside.statements]
    rfl
  refine ⟨t.scopes.current.block.location, ?_⟩
  rw [closed, whole]
  exact .modify (f := (·.addStatement _)) rfl inside.earlier (List.append_nil _).symm rfl

end Adds

theorem closeBlockVars (s : State) : s.closeBlock.vars = s.vars := by
  unfold State.closeBlock
  cases s.scopes.pop? <;> rfl

mutual

theorem statementMirrored (set : InstructionSet) (s : State) {vars : List Variable} : (tree : Tree.Statement) →
    Clean s (statement set s tree) → (statement set s tree).vars <+: vars →
      ∃ ids ss, Adds s (statement set s tree) ids ss ∧
        StatementMirrored vars s.vars.length tree ids ss (statement set s tree).vars.length
  | .declare d, clean, later => by
    obtain ⟨v, declared, same⟩ := cleanDeclare clean
    have mirrored := variableMirrored declared
    rw [statement] at clean later ⊢
    rw [same] at clean later ⊢
    have added := Adds.variable s v
    have last : (s.addVariable v).vars[s.vars.length]? = some v := List.getElem?_concat_length ..
    have count : (s.addVariable v).vars.length = s.vars.length + 1 := List.length_append
    rcases cleanInitial clean with ⟨none, stays⟩ | ⟨value, a, given, assigned, adds⟩
    · rw [stays] at later ⊢
      refine ⟨_, _, added, ?_⟩
      rw [count]
      exact .declare (foundLater later last) mirrored (.absent none)
    · obtain ⟨target, annotated, location⟩ := cleanAssignTo assigned
      rw [mirrored.type] at target
      rw [adds] at later ⊢
      refine ⟨_, _, added.trans (.statement _ (.assign a)), ?_⟩
      rw [show ((s.addVariable v).addStatement (.assign a)).vars.length = s.vars.length + 1 from count]
      exact .declare (foundLater later last) mirrored
        (.given given target (List.forall₂_nil_left_iff.mp annotated) location)
  | .gate i, clean, later => by
    obtain ⟨g, analysed, same⟩ := cleanCommit clean
    rw [statement, same]
    exact ⟨[], _, .statement s _, .gate (gateInstructionMirrored analysed)⟩
  | .nonGate i, clean, later => by
    obtain ⟨g, analysed, same⟩ := cleanCommit clean
    rw [statement, same]
    exact ⟨[], _, .statement s _, .nonGate (nonGateInstructionMirrored analysed)⟩
  | .assign a, clean, later => by
    obtain ⟨g, analysed, same⟩ := cleanCommit clean
    rw [statement, same]
    exact ⟨[], _, .statement s _, .assign (assignmentMirrored analysed)⟩
  | .block body location, clean, later => by
    rw [statement, closeBlockVars] at later ⊢
    obtain ⟨ids, ss, inside, mirrored⟩ := statementsMirrored set s.openBlock body (cleanBlock clean) later
    obtain ⟨covered, outside⟩ := inside.block
    exact ⟨_, _, outside, .block mirrored⟩

theorem statementsMirrored (set : InstructionSet) (s : State) {vars : List Variable} : (trees : List Tree.Statement) →
    Clean s (statements set s trees) → (statements set s trees).vars <+: vars →
      ∃ ids ss, Adds s (statements set s trees) ids ss ∧
        StatementsMirrored vars s.vars.length trees ids ss (statements set s trees).vars.length
  | [], _, _ => ⟨[], [], .none s, .nil⟩
  | first :: rest, clean, later => by
    obtain ⟨here, after⟩ := cleanFirst clean
    obtain ⟨others, more, addsRest, restMirrored⟩ := statementsMirrored set (statement set s first) rest after later
    obtain ⟨ids, ss, addsFirst, firstMirrored⟩ := statementMirrored set s first here (addsRest.earlier.trans later)
    exact ⟨_, _, addsFirst.trans addsRest, .cons firstMirrored restMirrored⟩

end

end Analysis

structure ProgramMirrored (p : Tree.Program) (g : Graph.Program) : Prop where
  version : g.version = p.version
  statements : StatementsMirrored g.vars 0 p.statements g.block.vars g.block.statements g.vars.length

namespace Analyzer

open Analysis

/- The analyzers there are: an empty one to begin with, and what can be registered. -/
inductive Configured : Analyzer → Prop where
  | empty (apiVersion : Version) (policy : CasePolicy) (set : InstructionSet) :
      Configured (.empty apiVersion policy set)
  | register {a : Analyzer} (r : Registration) (before : Configured a) : Configured (a.register r)
  | defaults {a : Analyzer} (before : Configured a) : Configured a.addDefaults.1

theorem defaultsBlock (a : Analyzer) : a.addDefaults.1.global.block = a.global.block := by
  obtain ⟨ms, is, same, _⟩ := addDefaultsEq a
  rw [same]
  rfl

theorem Configured.block {a : Analyzer} (configured : a.Configured) : a.global.block = .empty := by
  induction configured with
  | empty => rfl
  | register r _ ih => cases r <;> exact ih
  | defaults _ ih => rw [defaultsBlock, ih]

theorem cleanAnalysisMirrors {a : Analyzer} (configured : a.Configured) {p : Tree.Program}
    (clean : (a.elaborate p).diagnostics = []) : ProgramMirrored p (a.elaborate p).program := by
  obtain ⟨version, quiet⟩ := elaborateClean.mp clean
  obtain ⟨ids, ss, adds, mirrored⟩ := statementsMirrored a.instructionSet (a.start p) p.statements quiet List.prefix_rfl
  have innermost : (a.finish p).scopes.global = (a.finish p).scopes.current := congrArg ScopeStack.global adds.outside
  have blank : (a.start p).scopes.current.block = .empty := configured.block
  have vars : (a.elaborate p).program.block.vars = ids := by
    change (a.finish p).scopes.global.block.vars = ids
    rw [innermost, finish, adds.vars, blank]
    rfl
  have statements : (a.elaborate p).program.block.statements = ss := by
    change (a.finish p).scopes.global.block.statements = ss
    rw [innermost, finish, adds.statements, blank]
    rfl
  exact ⟨(versionMatches.mp version).1.symm, vars ▸ statements ▸ mirrored⟩

def countedMeasurement : Tree.Program where
  version := ⟨[3, 0]⟩
  versionLocation := none
  statements :=
    [.declare ⟨"q", none, .qubit, some 2, none, [], none⟩,
      .declare ⟨"n", none, .int, none, some (.literal (.bool true) none), [], none⟩,
      .gate ⟨.modified ⟨"inv", none, [], none⟩ (.named ⟨"X", none, [⟨"layout", "uses", [.name "n" none], none⟩], none⟩),
        [.name "q" none], [], none⟩,
      .block [.declare ⟨"b", none, .bit, some 2, none, [], none⟩,
        .nonGate ⟨"measure", none, [.name "b" none, .name "q" none], [], none⟩,
        .assign ⟨.name "n" none, .binary .add (.name "n" none) (.literal (.int 1) none) none, [], none⟩] none]

theorem countedMeasurementMirrored :
    standard.Configured ∧ (standard.elaborate countedMeasurement).diagnostics = [] ∧
      ProgramMirrored countedMeasurement (standard.elaborate countedMeasurement).program :=
  have configured : standard.Configured := .defaults (.empty _ _ _)
  have clean : (standard.elaborate countedMeasurement).diagnostics = [] := by decide +kernel
  ⟨configured, clean, cleanAnalysisMirrors configured clean⟩

end Analyzer

end Cqasm
