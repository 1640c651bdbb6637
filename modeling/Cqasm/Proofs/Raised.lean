import Cqasm.Proofs.Clean

/-! The diagnostics of a program in the order in which they are raised, construct by construct. Those of annotations
are told apart from all others: each of them is the fault of an operand of some annotation of the program. -/
namespace Cqasm

open Cqasm.Graph (Variable)
open Cqasm.Tree (Expr)

def Gate.annotations {ν : Type} (g : Gate ν) : List (AnnotationItem ν) := g.nodes.flatMap GateNode.annotations

namespace Tree

mutual

def Statement.annotations : Statement → List (AnnotationItem Expr)
  | .declare d => d.annotations
  | .gate i => i.gate.annotations ++ i.annotations
  | .nonGate i => i.annotations
  | .assign a => a.annotations
  | .block body _ => annotationsIn body

def annotationsIn : List Statement → List (AnnotationItem Expr)
  | [] => []
  | first :: rest => first.annotations ++ annotationsIn rest

end

end Tree

namespace Analysis

structure Raised where
  diagnostic : Diagnostic
  inAnnotation : Bool

def Outcome.raised {α : Type} (x : Outcome α) (location : Option Location) : List Raised :=
  x.noted.map (⟨·, true⟩) ++
    match x.result with
    | .ok _ => []
    | .error d => [⟨d.within location, false⟩]

def initialRaised (s : State) (d : Tree.Declaration) (target : Value) : List Raised :=
  match d.initializer with
  | none => []
  | some value => (assignTo s.scopes target value [] d.location).raised d.location

def declareRaised (s : State) (d : Tree.Declaration) : List Raised :=
  (declaredVariable s d).raised d.location ++
    match (declaredVariable s d).result with
    | .ok v => initialRaised (s.addVariable v) d (.reference s.vars.length v.type)
    | .error _ => []

mutual

def statementRaised (set : InstructionSet) (s : State) : Tree.Statement → List Raised
  | .declare d => declareRaised s d
  | .gate i => (gateInstruction set s.scopes i).raised i.location
  | .nonGate i => (nonGateInstruction set s.scopes i).raised i.location
  | .assign a => (assignment s.scopes a).raised a.location
  | .block body _ => statementsRaised set s.openBlock body

def statementsRaised (set : InstructionSet) (s : State) : List Tree.Statement → List Raised
  | [] => []
  | first :: rest => statementRaised set s first ++ statementsRaised set (statement set s first) rest

end

section Diagnostics

variable {α β : Type}

theorem raisedMap (x : Outcome α) (f : α → β) (location : Option Location) :
    (x.map f).raised location = x.raised location := by
  obtain ⟨noted, result⟩ := x
  cases result <;> simp [Outcome.map, Outcome.bind, Outcome.ok, Outcome.raised]

theorem commitDiagnostics (s : State) (location : Option Location) (x : Outcome α) (make : α → Graph.Statement) :
    (s.commit location (x.map make)).diagnostics = s.diagnostics ++ (x.raised location).map Raised.diagnostic := by
  rw [← raisedMap x make]
  generalize x.map make = y
  obtain ⟨noted, result⟩ := y
  cases result <;>
    simp [State.commit, Outcome.raised, State.note, State.report, State.addStatement, Function.comp_def]

theorem initialDiagnostics (s : State) (d : Tree.Declaration) (target : Value) :
    (assignInitial s d target).diagnostics = s.diagnostics ++ (initialRaised s d target).map Raised.diagnostic := by
  unfold assignInitial initialRaised
  cases d.initializer with
  | none => exact (List.append_nil _).symm
  | some value => exact commitDiagnostics s d.location _ .assign

theorem declareDiagnostics (s : State) (d : Tree.Declaration) :
    (declare s d).diagnostics = s.diagnostics ++ (declareRaised s d).map Raised.diagnostic := by
  simp only [declare, declareRaised, Outcome.raised]
  cases (declaredVariable s d).result with
  | error diagnostic => simp [State.report, State.note, Function.comp_def]
  | ok v =>
    have later : initialRaised ((s.note (declaredVariable s d).noted).addVariable v) d
        (.reference s.vars.length v.type) = initialRaised (s.addVariable v) d (.reference s.vars.length v.type) := rfl
    have noted : ((s.note (declaredVariable s d).noted).addVariable v).diagnostics =
        s.diagnostics ++ (declaredVariable s d).noted := rfl
    simp only [initialDiagnostics, later, noted, List.append_nil, List.map_append, List.map_map, Function.comp_def,
      List.map_id', List.append_assoc]

mutual

theorem statementDiagnostics (set : InstructionSet) (s : State) : (tree : Tree.Statement) →
    (statement set s tree).diagnostics = s.diagnostics ++ (statementRaised set s tree).map Raised.diagnostic
  | .declare d => by rw [statement, statementRaised, declareDiagnostics]
  | .gate i => by rw [statement, statementRaised, commitDiagnostics]
  | .nonGate i => by rw [statement, statementRaised, commitDiagnostics]
  | .assign a => by rw [statement, statementRaised, commitDiagnostics]
  | .block body location => by
    rw [statement, statementRaised, closeBlockDiagnostics, statementsDiagnostics set s.openBlock body]
    rfl

theorem statementsDiagnostics (set : InstructionSet) (s : State) : (trees : List Tree.Statement) →
    (statements set s trees).diagnostics = s.diagnostics ++ (statementsRaised set s trees).map Raised.diagnostic
  | [] => by rw [statements, statementsRaised, List.map_nil, List.append_nil]
  | first :: rest => by
    rw [statements, statementsRaised, statementsDiagnostics set (statement set s first) rest,
      statementDiagnostics set s first, List.map_append, List.append_assoc]

end

end Diagnostics

def OperandFault (scopes : ScopeStack) (as : List (AnnotationItem Expr)) (d : Diagnostic) : Prop :=
  ∃ a ∈ as, ∃ e ∈ a.operands, ∃ found, expression scopes e = .error found ∧ d = found.within a.location

def Outcome.Noting {α : Type} (P : Diagnostic → Prop) (x : Outcome α) : Prop := ∀ d ∈ x.noted, P d

section Noting

variable {P Q : Diagnostic → Prop} {α β : Type}

theorem Outcome.Noting.mono {x : Outcome α} (noting : x.Noting P) (weaker : ∀ {d}, P d → Q d) : x.Noting Q :=
  fun d member => weaker (noting d member)

theorem Outcome.Noting.bind {x : Outcome α} {f : α → Outcome β} (first : x.Noting P) (next : ∀ a, (f a).Noting P) :
    (x >>= f).Noting P := by
  obtain ⟨noted, result⟩ := x
  cases result with
  | error d => exact first
  | ok a => exact fun d member => (List.mem_append.mp member).elim (first d) (next a d)

theorem Outcome.notingOfExcept (x : Except Diagnostic α) : (Outcome.ofExcept x).Noting P :=
  fun _ member => absurd member List.not_mem_nil

theorem Outcome.notingPure (a : α) : (Pure.pure a : Outcome α).Noting P := Outcome.notingOfExcept (.ok a)

end Noting

section Annotations

variable {set : InstructionSet} {scopes : ScopeStack}

theorem OperandFault.mono {as bs : List (AnnotationItem Expr)} {d : Diagnostic} (fault : OperandFault scopes as d)
    (more : as ⊆ bs) : OperandFault scopes bs d :=
  have ⟨a, member, rest⟩ := fault
  ⟨a, more member, rest⟩

theorem operandsRaise {location : Option Location} {es : List Expr} {d : Diagnostic}
    (raised : d ∈ (annotationOperands scopes location es).2) :
    ∃ e ∈ es, ∃ found, expression scopes e = .error found ∧ d = found.within location := by
  induction es with
  | nil => cases raised
  | cons e rest ih =>
    simp only [annotationOperands] at raised
    cases analysed : expression scopes e with
    | ok value =>
      rw [analysed] at raised
      obtain ⟨other, member, fault⟩ := ih raised
      exact ⟨other, List.mem_cons_of_mem _ member, fault⟩
    | error found =>
      rw [analysed] at raised
      rcases List.mem_cons.mp raised with rfl | later
      · exact ⟨e, List.mem_cons_self, found, analysed, rfl⟩
      · obtain ⟨other, member, fault⟩ := ih later
        exact ⟨other, List.mem_cons_of_mem _ member, fault⟩

theorem annotationsRaise (as : List (AnnotationItem Expr)) :
    (annotations scopes as).Noting (OperandFault scopes as) := by
  intro d member
  obtain ⟨a, found, raised⟩ := List.mem_flatMap.mp member
  exact ⟨a, found, operandsRaise raised⟩

theorem gateNodeRaises (node : GateNode Expr) (parameter : Option Value) :
    (gateNode scopes node parameter).Noting (OperandFault scopes node.annotations) :=
  (annotationsRaise node.annotations).bind fun _ => Outcome.notingPure _

theorem gateRaises (g : Gate Expr) : (gate set scopes g).Noting (OperandFault scopes g.annotations) := by
  induction g with
  | named node =>
    have own : node.annotations ⊆ (Gate.named node).annotations := by simp [Gate.annotations, Gate.nodes]
    refine (Outcome.notingOfExcept _).bind fun parameter => ?_
    exact ((gateNodeRaises node parameter).mono (·.mono own)).bind fun _ => Outcome.notingPure _
  | modified node inner ih =>
    have own : node.annotations ⊆ (Gate.modified node inner).annotations := by simp [Gate.annotations, Gate.nodes]
    have below : inner.annotations ⊆ (Gate.modified node inner).annotations := by simp [Gate.annotations, Gate.nodes]
    refine (ih.mono (·.mono below)).bind fun _ => ?_
    refine (Outcome.notingOfExcept _).bind fun parameter => ?_
    refine ((gateNodeRaises node parameter).mono (·.mono own)).bind fun _ => ?_
    exact (Outcome.notingOfExcept _).bind fun _ => Outcome.notingPure _

theorem gateInstructionRaises (i : Tree.GateInstruction) :
    (gateInstruction set scopes i).Noting (OperandFault scopes (i.gate.annotations ++ i.annotations)) := by
  refine ((gateRaises i.gate).mono (·.mono (List.subset_append_left _ _))).bind fun _ => ?_
  refine (Outcome.notingOfExcept _).bind fun _ => (Outcome.notingOfExcept _).bind fun _ => ?_
  refine (Outcome.notingOfExcept _).bind fun _ => ?_
  refine ((annotationsRaise i.annotations).mono (·.mono (List.subset_append_right _ _))).bind fun _ => ?_
  exact Outcome.notingPure _

theorem nonGateInstructionRaises (i : Tree.NonGateInstruction) :
    (nonGateInstruction set scopes i).Noting (OperandFault scopes i.annotations) := by
  refine (Outcome.notingOfExcept _).bind fun _ => (Outcome.notingOfExcept _).bind fun _ => ?_
  refine (Outcome.notingOfExcept _).bind fun _ => (Outcome.notingOfExcept _).bind fun _ => ?_
  exact (Outcome.notingOfExcept _).bind fun _ => (annotationsRaise i.annotations).bind fun _ => Outcome.notingPure _

theorem assignToRaises (target : Value) (value : Expr) (as : List (AnnotationItem Expr)) (location : Option Location) :
    (assignTo scopes target value as location).Noting (OperandFault scopes as) := by
  refine (Outcome.notingOfExcept _).bind fun _ => (Outcome.notingOfExcept _).bind fun _ => ?_
  exact (Outcome.notingOfExcept _).bind fun _ => (annotationsRaise as).bind fun _ => Outcome.notingPure _

theorem assignmentRaises (a : Tree.Assignment) : (assignment scopes a).Noting (OperandFault scopes a.annotations) :=
  (Outcome.notingOfExcept _).bind fun target => assignToRaises target a.value a.annotations a.location

theorem declaredVariableRaises (s : State) (d : Tree.Declaration) :
    (declaredVariable s d).Noting (OperandFault s.scopes d.annotations) := by
  refine (Outcome.notingOfExcept _).bind fun _ => ?_
  split
  · exact (Outcome.notingOfExcept _).bind fun _ => (annotationsRaise d.annotations).bind fun _ => Outcome.notingPure _
  · exact (annotationsRaise d.annotations).bind fun _ => Outcome.notingPure _

def RaisedOnTheWay (set : InstructionSet) (s : State) (as : List (AnnotationItem Expr)) (x : Raised) : Prop :=
  x.inAnnotation = true → ∃ t, Reaches set s t ∧ OperandFault t.scopes as x.diagnostic

theorem raisedHere {α : Type} {s : State} {y : Outcome α} {as : List (AnnotationItem Expr)}
    (noting : y.Noting (OperandFault s.scopes as)) (location : Option Location) :
    ∀ x ∈ y.raised location, RaisedOnTheWay set s as x := by
  intro x member annotated
  rcases List.mem_append.mp member with noted | failed
  · obtain ⟨d, found, rfl⟩ := List.mem_map.mp noted
    exact ⟨s, .refl, noting d found⟩
  · cases result : y.result with
    | ok a => simp [result] at failed
    | error d =>
      rw [result] at failed
      cases List.mem_singleton.mp failed
      cases annotated

theorem RaisedOnTheWay.later {s t : State} {as bs : List (AnnotationItem Expr)} {x : Raised}
    (raised : RaisedOnTheWay set t as x) (reached : Reaches set s t) (more : as ⊆ bs) : RaisedOnTheWay set s bs x := by
  intro annotated
  obtain ⟨u, onward, fault⟩ := raised annotated
  exact ⟨u, reached.trans onward, fault.mono more⟩

theorem declareRaisedHere (s : State) (d : Tree.Declaration) :
    ∀ x ∈ declareRaised s d, RaisedOnTheWay set s d.annotations x := by
  intro x member
  rcases List.mem_append.mp member with here | initial
  · exact raisedHere (declaredVariableRaises s d) d.location x here
  · cases result : (declaredVariable s d).result with
    | error diagnostic => simp [result] at initial
    | ok v =>
      rw [result] at initial
      dsimp only [initialRaised] at initial
      cases given : d.initializer with
      | none => simp [given] at initial
      | some value =>
        rw [given] at initial
        have plain : RaisedOnTheWay set (s.addVariable v) [] x :=
          raisedHere (assignToRaises _ value [] d.location) d.location x initial
        intro annotated
        obtain ⟨_, _, a, member, _⟩ := plain annotated
        cases member

mutual

theorem statementRaisedOnTheWay (set : InstructionSet) (s : State) : (tree : Tree.Statement) →
    ∀ x ∈ statementRaised set s tree, RaisedOnTheWay set s tree.annotations x
  | .declare d, x, member => by
    rw [statementRaised] at member
    exact declareRaisedHere s d x member
  | .gate i, x, member => by
    rw [statementRaised] at member
    exact raisedHere (gateInstructionRaises i) i.location x member
  | .nonGate i, x, member => by
    rw [statementRaised] at member
    exact raisedHere (nonGateInstructionRaises i) i.location x member
  | .assign a, x, member => by
    rw [statementRaised] at member
    exact raisedHere (assignmentRaises a) a.location x member
  | .block body location, x, member => by
    rw [statementRaised] at member
    exact (statementsRaisedOnTheWay set s.openBlock body x member).later (.single (.openBlock s)) (List.Subset.refl _)

theorem statementsRaisedOnTheWay (set : InstructionSet) (s : State) : (trees : List Tree.Statement) →
    ∀ x ∈ statementsRaised set s trees, RaisedOnTheWay set s (Tree.annotationsIn trees) x
  | [], x, member => by
    rw [statementsRaised] at member
    cases member
  | first :: rest, x, member => by
    rw [statementsRaised] at member
    rcases List.mem_append.mp member with here | later
    · exact (statementRaisedOnTheWay set s first x here).later .refl (List.subset_append_left _ _)
    · exact (statementsRaisedOnTheWay set (statement set s first) rest x later).later (statementReaches s first)
        (List.subset_append_right _ _)

end

end Annotations

end Analysis

namespace Analyzer

open Analysis

def raised (a : Analyzer) (p : Tree.Program) : List Raised :=
  (versionDiagnostics a.apiVersion p).map (⟨·, false⟩) ++ statementsRaised a.instructionSet (a.start p) p.statements

theorem elaborateDiagnostics (a : Analyzer) (p : Tree.Program) :
    (a.elaborate p).diagnostics = (a.raised p).map Raised.diagnostic := by
  have run := statementsDiagnostics a.instructionSet (a.start p) p.statements
  rw [raised, List.map_append, List.map_map]
  exact run.trans (by simp [start, Function.comp_def])

end Analyzer

end Cqasm
