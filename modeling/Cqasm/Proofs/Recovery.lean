import Cqasm.Proofs.Clean

/-! Recovery from faults. An analysis that meets faults ends where the analysis of the program without the faulty
parts ends, and that one meets none. Whether a part is faulty depends on the state in which the analysis comes to it,
so the state is carried along. -/
namespace Cqasm

open Cqasm.Graph (Variable)
open Cqasm.Tree (Expr)

namespace Analysis

def analysable (scopes : ScopeStack) (e : Expr) : Bool := (expression scopes e).isOk

def annotationsLeft (scopes : ScopeStack) (as : List (AnnotationItem Expr)) : List (AnnotationItem Expr) :=
  as.map fun a => { a with operands := a.operands.filter (analysable scopes) }

def nodeLeft (scopes : ScopeStack) (node : GateNode Expr) : GateNode Expr :=
  { node with annotations := annotationsLeft scopes node.annotations }

def gateLeft (scopes : ScopeStack) : Gate Expr → Gate Expr
  | .named node => .named (nodeLeft scopes node)
  | .modified node inner => .modified (nodeLeft scopes node) (gateLeft scopes inner)

def gateInstructionLeft (scopes : ScopeStack) (i : Tree.GateInstruction) : Tree.GateInstruction :=
  { i with gate := gateLeft scopes i.gate, annotations := annotationsLeft scopes i.annotations }

def nonGateInstructionLeft (scopes : ScopeStack) (i : Tree.NonGateInstruction) : Tree.NonGateInstruction :=
  { i with annotations := annotationsLeft scopes i.annotations }

def assignmentLeft (scopes : ScopeStack) (a : Tree.Assignment) : Tree.Assignment :=
  { a with annotations := annotationsLeft scopes a.annotations }

def initializerLeft (s : State) (d : Tree.Declaration) (target : Value) : Option Expr :=
  d.initializer.filter fun value => (assignTo s.scopes target value [] d.location).result.isOk

def declarationLeft (s : State) (d : Tree.Declaration) : Option Tree.Declaration :=
  match (declaredVariable s d).result with
  | .error _ => none
  | .ok v => some { d with
      initializer := initializerLeft (s.addVariable v) d (.reference s.vars.length v.type)
      annotations := annotationsLeft s.scopes d.annotations }

def keptIf {α : Type} (r : Except Diagnostic α) (st : Tree.Statement) : Option Tree.Statement :=
  if r.isOk then some st else none

mutual

def statementLeft (set : InstructionSet) (s : State) : Tree.Statement → Option Tree.Statement
  | .declare d => (declarationLeft s d).map .declare
  | .gate i => keptIf (gateInstruction set s.scopes i).result (.gate (gateInstructionLeft s.scopes i))
  | .nonGate i => keptIf (nonGateInstruction set s.scopes i).result (.nonGate (nonGateInstructionLeft s.scopes i))
  | .assign a => keptIf (assignment s.scopes a).result (.assign (assignmentLeft s.scopes a))
  | .block body location => some (.block (statementsLeft set s.openBlock body) location)

def statementsLeft (set : InstructionSet) (s : State) : List Tree.Statement → List Tree.Statement
  | [] => []
  | first :: rest => (statementLeft set s first).toList ++ statementsLeft set (statement set s first) rest

end

namespace Outcome

variable {α β : Type}

def quiet (x : Outcome α) : Outcome α := ofExcept x.result

theorem quietOfExcept (r : Except Diagnostic α) : (ofExcept r).quiet = ofExcept r := rfl

theorem quietPure (a : α) : (pure a : Outcome α).quiet = pure a := rfl

theorem quietBind (x : Outcome α) (f : α → Outcome β) : (x >>= f).quiet = x.quiet >>= fun a => (f a).quiet := by
  obtain ⟨noted, result⟩ := x
  cases result <;> rfl

theorem quietMap (x : Outcome α) (f : α → β) : (x.map f).quiet = x.quiet.map f := quietBind x fun a => ok (f a)

end Outcome

section Constructs

variable {set : InstructionSet} {scopes : ScopeStack}

theorem operandsLeftNoted (location : Option Location) (es : List Expr) :
    annotationOperands scopes location (es.filter (analysable scopes)) =
      ((annotationOperands scopes location es).1, []) := by
  induction es with
  | nil => rfl
  | cons e rest ih =>
    cases analysed : expression scopes e <;>
      simp [analysable, analysed, Except.isOk, Except.toBool, annotationOperands, ih]

theorem annotationsLeftQuiet (as : List (AnnotationItem Expr)) :
    annotations scopes (annotationsLeft scopes as) = (annotations scopes as).quiet := by
  simp [annotations, annotationsLeft, annotationItem, operandsLeftNoted, Outcome.quiet, Outcome.ofExcept,
    List.flatMap_map, Function.comp_def]

theorem gateNodeLeftQuiet (node : GateNode Expr) (parameter : Option Value) :
    gateNode scopes (nodeLeft scopes node) parameter = (gateNode scopes node parameter).quiet := by
  simp only [gateNode, nodeLeft, Outcome.quietBind, Outcome.quietPure, annotationsLeftQuiet]

theorem gateLeftQuiet (g : Gate Expr) : gate set scopes (gateLeft scopes g) = (gate set scopes g).quiet := by
  induction g with
  | named node =>
    simp only [gate, gateLeft, Outcome.quietBind, Outcome.quietOfExcept, Outcome.quietPure, gateNodeLeftQuiet]
    rfl
  | modified node inner ih =>
    simp only [gate, gateLeft, Outcome.quietBind, Outcome.quietOfExcept, Outcome.quietPure, gateNodeLeftQuiet, ih]
    rfl

theorem gateInstructionLeftQuiet (i : Tree.GateInstruction) :
    gateInstruction set scopes (gateInstructionLeft scopes i) = (gateInstruction set scopes i).quiet := by
  simp only [gateInstruction, gateInstructionLeft, Outcome.quietBind, Outcome.quietOfExcept, Outcome.quietPure,
    gateLeftQuiet, annotationsLeftQuiet]

theorem nonGateInstructionLeftQuiet (i : Tree.NonGateInstruction) :
    nonGateInstruction set scopes (nonGateInstructionLeft scopes i) = (nonGateInstruction set scopes i).quiet := by
  simp only [nonGateInstruction, nonGateInstructionLeft, Outcome.quietBind, Outcome.quietOfExcept, Outcome.quietPure,
    annotationsLeftQuiet]

theorem assignmentLeftQuiet (a : Tree.Assignment) :
    assignment scopes (assignmentLeft scopes a) = (assignment scopes a).quiet := by
  simp only [assignment, assignTo, assignmentLeft, Outcome.quietBind, Outcome.quietOfExcept, Outcome.quietPure,
    annotationsLeftQuiet]

end Constructs

def State.withDiagnostics (s : State) (ds : List Diagnostic) : State := { s with diagnostics := ds }

section Runs

variable {set : InstructionSet}

theorem commitLeft {α : Type} (s : State) (ds : List Diagnostic) (x : Outcome α) (make : α → Graph.Statement)
    (location : Option Location) :
    (if x.result.isOk then (s.withDiagnostics ds).commit location (x.map make).quiet else s.withDiagnostics ds) =
      (s.commit location (x.map make)).withDiagnostics ds := by
  cases result : x.result with
  | ok a =>
    have done : (x.map make).result = .ok (make a) := Outcome.resultMap.mpr ⟨a, result, rfl⟩
    simp [Except.isOk, Except.toBool, State.commit, Outcome.quiet, Outcome.ofExcept, done, State.note,
      State.addStatement,
      State.withDiagnostics]
  | error d =>
    have failed : (x.map make).result = .error d := by simp [Outcome.map, Outcome.bind, result]
    simp [Except.isOk, Except.toBool, State.commit, failed, State.note, State.report, State.withDiagnostics]

/- Statements of the forms that add at most themselves: `left` is what the analysis makes of the rest of one. -/
theorem keptIfRuns {α : Type} (s : State) (ds : List Diagnostic) {x left : Outcome α} (quiet : left = x.quiet)
    (make : α → Graph.Statement) (location : Option Location) {st : Tree.Statement}
    (runs : statement set (s.withDiagnostics ds) st = (s.withDiagnostics ds).commit location (left.map make)) :
    statements set (s.withDiagnostics ds) (keptIf x.result st).toList =
      (s.commit location (x.map make)).withDiagnostics ds := by
  rw [← commitLeft, Outcome.quietMap, ← quiet, ← runs]
  unfold keptIf
  split <;> rfl

theorem statementsAppend (s : State) (front back : List Tree.Statement) :
    statements set s (front ++ back) = statements set (statements set s front) back := by
  induction front generalizing s with
  | nil => rfl
  | cons first rest ih => exact ih (statement set s first)

theorem closeBlockLeft (s : State) (ds : List Diagnostic) :
    (s.withDiagnostics ds).closeBlock = s.closeBlock.withDiagnostics ds := by
  simp only [State.closeBlock, State.withDiagnostics]
  cases s.scopes.pop? <;> rfl

theorem assignInitialLeft (s : State) (ds : List Diagnostic) (d : Tree.Declaration) (target : Value) :
    assignInitial (s.withDiagnostics ds) { d with initializer := initializerLeft s d target } target =
      (assignInitial s d target).withDiagnostics ds := by
  unfold assignInitial initializerLeft
  cases d.initializer with
  | none => rfl
  | some value =>
    have quiet : (assignTo s.scopes target value [] d.location).quiet =
        assignTo s.scopes target value [] d.location := by
      simp only [assignTo, Outcome.quietBind, Outcome.quietOfExcept, Outcome.quietPure]
      rfl
    have kept := commitLeft s ds (assignTo s.scopes target value [] d.location) .assign d.location
    rw [Outcome.quietMap, quiet] at kept
    rw [← kept, Option.filter_some]
    cases (assignTo s.scopes target value [] d.location).result <;> rfl

theorem declaredVariableLeft (s : State) (ds : List Diagnostic) (d : Tree.Declaration) (initializer : Option Expr) :
    declaredVariable (s.withDiagnostics ds)
        { d with initializer, annotations := annotationsLeft s.scopes d.annotations } =
      (declaredVariable s d).quiet := by
  have same : (s.withDiagnostics ds).declares d.name = s.declares d.name := rfl
  cases taken : s.declares d.name <;>
    simp only [declaredVariable, same, taken, if_true, Bool.false_eq_true, if_false, Outcome.quietBind,
      Outcome.quietOfExcept, Outcome.quietPure, ← annotationsLeftQuiet] <;>
    rfl

theorem declareLeft (s : State) (ds : List Diagnostic) (d : Tree.Declaration) :
    statements set (s.withDiagnostics ds) (statementLeft set s (.declare d)).toList =
      (declare s d).withDiagnostics ds := by
  simp only [statementLeft, declarationLeft]
  cases result : (declaredVariable s d).result with
  | error diagnostic =>
    simp only [declare, result]
    rfl
  | ok v =>
    have quiet (initializer : Option Expr) : declaredVariable (s.withDiagnostics ds)
        { d with initializer, annotations := annotationsLeft s.scopes d.annotations } = .ok v := by
      rw [declaredVariableLeft, Outcome.quiet, result]
      rfl
    have silent : (s.withDiagnostics ds).note [] = s.withDiagnostics ds := by simp [State.note]
    simp only [Option.map_some, Option.toList_some, statements, statement, declare, quiet, result]
    rw [← assignInitialLeft]
    simp only [Outcome.ok, silent]
    rfl

mutual

theorem statementLeftRuns (set : InstructionSet) (s : State) (ds : List Diagnostic) : (tree : Tree.Statement) →
    statements set (s.withDiagnostics ds) (statementLeft set s tree).toList = (statement set s tree).withDiagnostics ds
  | .declare d => declareLeft s ds d
  | .gate i => keptIfRuns s ds (gateInstructionLeftQuiet i) .gate i.location rfl
  | .nonGate i => keptIfRuns s ds (nonGateInstructionLeftQuiet i) .nonGate i.location rfl
  | .assign a => keptIfRuns s ds (assignmentLeftQuiet a) .assign a.location rfl
  | .block body location => by
    have inside := statementsLeftRun set s.openBlock ds body
    simp only [statementLeft, Option.toList_some, statements, statement]
    rw [← closeBlockLeft, ← inside]
    rfl

theorem statementsLeftRun (set : InstructionSet) (s : State) (ds : List Diagnostic) : (trees : List Tree.Statement) →
    statements set (s.withDiagnostics ds) (statementsLeft set s trees) = (statements set s trees).withDiagnostics ds
  | [] => rfl
  | first :: rest => by
    rw [statementsLeft, statementsAppend, statementLeftRuns set s ds first]
    exact statementsLeftRun set (statement set s first) ds rest

end

end Runs

section Clean

variable {set : InstructionSet} {scopes : ScopeStack} {s : State}

theorem analysableAll {es : List Expr} {vs : List Value} (done : expressions scopes es = .ok vs) :
    ∀ e ∈ es, analysable scopes e = true := by
  induction es generalizing vs with
  | nil => simp
  | cons e rest ih =>
    simp only [expressions, bindOk] at done
    obtain ⟨value, analysed, values, others, _⟩ := done
    refine List.forall_mem_cons.mpr ⟨?_, ih others⟩
    rw [analysable, analysed]
    rfl

theorem annotationsLeftClean {as : List (AnnotationItem Expr)} {items : List (AnnotationItem Value)}
    (made : AnnotationsFrom scopes as items) : annotationsLeft scopes as = as := by
  induction made with
  | nil => rfl
  | @cons a _ _ _ here _ ih =>
    have all : a.operands.filter (analysable scopes) = a.operands :=
      List.filter_eq_self.mpr (analysableAll here.operands)
    unfold annotationsLeft at ih ⊢
    rw [List.map_cons, ih, all]

theorem gateLeftClean {tree : Gate Expr} {ns : List (GateNode Value)}
    (made : List.Forall₂ (CleanNode scopes) tree.nodes ns) : gateLeft scopes tree = tree := by
  have kept {node : GateNode Expr} {n : GateNode Value} (here : CleanNode scopes node n) :
      nodeLeft scopes node = node := by
    rw [nodeLeft, annotationsLeftClean here.annotations]
  induction tree generalizing ns with
  | named node =>
    obtain ⟨_, _, here, _⟩ := List.forall₂_cons_left_iff.mp made
    rw [gateLeft, kept here]
  | modified node inner ih =>
    obtain ⟨_, _, here, below, _⟩ := List.forall₂_cons_left_iff.mp made
    rw [gateLeft, kept here, ih below]

theorem keptIfClean {α : Type} {x : Outcome α} {a : α} {st : Tree.Statement} (clean : x = .ok a) :
    keptIf x.result st = some st := by
  rw [clean]
  rfl

theorem declarationLeftClean {d : Tree.Declaration} (clean : Clean s (declare s d)) : declarationLeft s d = some d := by
  obtain ⟨v, declared, same⟩ := cleanDeclare clean
  have annotated := cleanVariable declared
  have initial : initializerLeft (s.addVariable v) d (.reference s.vars.length v.type) = d.initializer := by
    rw [same] at clean
    rcases cleanInitial clean with ⟨none, _⟩ | ⟨value, a, given, assigned, _⟩
    · rw [initializerLeft, none]
      rfl
    · rw [initializerLeft, given, Option.filter_some, assigned]
      rfl
  rw [declarationLeft, declared]
  simp only [Outcome.ok, initial, annotationsLeftClean annotated]

mutual

theorem statementLeftClean (set : InstructionSet) (s : State) : (tree : Tree.Statement) →
    Clean s (statement set s tree) → statementLeft set s tree = some tree
  | .declare d, clean => by rw [statementLeft, declarationLeftClean clean, Option.map_some]
  | .gate i, clean => by
    obtain ⟨g, analysed, _⟩ := cleanCommit clean
    obtain ⟨nodes, annotated⟩ := cleanGateInstruction analysed
    rw [statementLeft, keptIfClean analysed, gateInstructionLeft, gateLeftClean nodes, annotationsLeftClean annotated]
  | .nonGate i, clean => by
    obtain ⟨g, analysed, _⟩ := cleanCommit clean
    rw [statementLeft, keptIfClean analysed, nonGateInstructionLeft,
      annotationsLeftClean (cleanNonGateInstruction analysed)]
  | .assign a, clean => by
    obtain ⟨g, analysed, _⟩ := cleanCommit clean
    rw [statementLeft, keptIfClean analysed, assignmentLeft, annotationsLeftClean (cleanAssignment analysed).1]
  | .block body location, clean => by
    rw [statementLeft, statementsLeftClean set s.openBlock body (cleanBlock clean)]

theorem statementsLeftClean (set : InstructionSet) (s : State) : (trees : List Tree.Statement) →
    Clean s (statements set s trees) → statementsLeft set s trees = trees
  | [], _ => rfl
  | first :: rest, clean => by
    obtain ⟨here, after⟩ := cleanFirst clean
    rw [statementsLeft, statementLeftClean set s first here, statementsLeftClean set (statement set s first) rest after]
    rfl

end

theorem cleanIffAllLeft (trees : List Tree.Statement) :
    Clean s (statements set s trees) ↔ statementsLeft set s trees = trees := by
  refine ⟨statementsLeftClean set s trees, fun all => ?_⟩
  have run := statementsLeftRun set s s.diagnostics trees
  rw [all] at run
  have same := congrArg State.diagnostics run
  exact same

end Clean

end Analysis

namespace Analyzer

open Analysis

def programLeft (a : Analyzer) (p : Tree.Program) : Tree.Program where
  version := a.apiVersion
  versionLocation := p.versionLocation
  statements := statementsLeft a.instructionSet (a.start p) p.statements

variable {a : Analyzer} {p : Tree.Program}

theorem finishLeft : a.finish (a.programLeft p) =
    (a.finish p).withDiagnostics (versionDiagnostics a.apiVersion (a.programLeft p)) :=
  statementsLeftRun a.instructionSet (a.start p) _ p.statements

theorem versionLeft : versionDiagnostics a.apiVersion (a.programLeft p) =
    if a.apiVersion.NonNegative then [] else [⟨.versionComponent, p.versionLocation⟩] := by
  simp only [versionDiagnostics, checkVersion, programLeft, Version.negativeItem]
  by_cases proper : a.apiVersion.NonNegative <;> simp [proper]

theorem programLeftEq : a.programLeft p = p ↔
    p.version = a.apiVersion ∧ statementsLeft a.instructionSet (a.start p) p.statements = p.statements := by
  obtain ⟨given, location, trees⟩ := p
  simp [programLeft, eq_comm]

theorem recoveryDeletes (a : Analyzer) (p : Tree.Program) :
    (a.elaborate (a.programLeft p)).program = (a.elaborate p).program ∧
      (a.elaborate (a.programLeft p)).diagnostics =
        (if a.apiVersion.NonNegative then [] else [⟨.versionComponent, p.versionLocation⟩]) ∧
      ((a.elaborate p).diagnostics = [] ↔ a.programLeft p = p ∧ a.apiVersion.NonNegative) := by
  refine ⟨?_, ?_, ?_⟩
  · change Graph.Program.mk _ _ (a.finish (a.programLeft p)).scopes.global.block (a.finish (a.programLeft p)).vars = _
    rw [finishLeft]
    rfl
  · change (a.finish (a.programLeft p)).diagnostics = _
    rw [finishLeft, ← versionLeft]
    rfl
  · rw [elaborateClean, versionMatches, programLeftEq, ← cleanIffAllLeft]
    exact and_right_comm

theorem negativeVersionNeverClean :
    ¬ ∀ (a : Analyzer) (p : Tree.Program), (a.elaborate (a.programLeft p)).diagnostics = [] ∧
      (a.elaborate (a.programLeft p)).program = (a.elaborate p).program ∧
      ((a.elaborate p).diagnostics = [] ↔ a.programLeft p = p) := by
  intro all
  have clean := (all (.empty ⟨[-1]⟩ .sensitive .standard) ⟨⟨[-1]⟩, none, []⟩).1
  exact absurd clean (by decide)

end Analyzer

end Cqasm
