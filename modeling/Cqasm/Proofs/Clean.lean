import Cqasm.Proofs.Provenance

/-! Runs that find nothing wrong. Diagnostics are only ever added, so a run that ends with the diagnostics it began
with brought a result for every construct on its way and noted nothing. -/
namespace Cqasm

open Cqasm.Graph (Variable)
open Cqasm.Tree (Expr)

namespace Analysis

namespace Outcome

variable {α β : Type}

theorem cleanBind {x : Outcome α} {f : α → Outcome β} {b : β} :
    (x >>= f) = ok b ↔ ∃ a, x = ok a ∧ f a = ok b := by
  obtain ⟨noted, result⟩ := x
  change Outcome.bind ⟨noted, result⟩ f = ok b ↔ _
  cases result with
  | error d => simp [Outcome.bind, ok]
  | ok a =>
    cases made : f a with
    | mk later last => simp [Outcome.bind, ok, made, and_assoc]

theorem cleanOfExcept {r : Except Diagnostic α} {a : α} : ofExcept r = ok a ↔ r = .ok a := by
  simp [ofExcept, ok]

theorem cleanPure {a b : α} : (pure a : Outcome α) = ok b ↔ a = b := by
  change ok a = ok b ↔ a = b
  simp [ok]

theorem cleanMap {x : Outcome α} {f : α → β} {b : β} : x.map f = ok b ↔ ∃ a, x = ok a ∧ f a = b :=
  cleanBind.trans (exists_congr fun _ => and_congr_right fun _ => cleanPure)

end Outcome

section Constructs

variable {set : InstructionSet} {scopes : ScopeStack}

theorem expressionsLength {es : List Expr} {vs : List Value} (done : expressions scopes es = .ok vs) :
    vs.length = es.length := by
  induction es generalizing vs with
  | nil =>
    cases done
    rfl
  | cons e rest ih =>
    simp only [expressions, bindOk, pureOk] at done
    obtain ⟨value, _, values, others, rfl⟩ := done
    simp [ih others]

theorem cleanOperands {location : Option Location} {es : List Expr}
    (none : (annotationOperands scopes location es).2 = []) :
    expressions scopes es = .ok (annotationOperands scopes location es).1 := by
  induction es with
  | nil => rfl
  | cons e rest ih =>
    simp only [annotationOperands] at none ⊢
    cases analysed : expression scopes e with
    | error d => simp [analysed] at none
    | ok value =>
      simp only [analysed] at none ⊢
      simp only [expressions, bindOk, pureOk]
      exact ⟨value, analysed, _, ih none, rfl⟩

structure AnnotationFrom (scopes : ScopeStack) (a : AnnotationItem Expr) (item : AnnotationItem Value) : Prop where
  interface : item.interface = a.interface
  operation : item.operation = a.operation
  operands : expressions scopes a.operands = .ok item.operands
  location : item.location = a.location

def AnnotationsFrom (scopes : ScopeStack) : List (AnnotationItem Expr) → List (AnnotationItem Value) → Prop :=
  List.Forall₂ (AnnotationFrom scopes)

theorem cleanAnnotations {as : List (AnnotationItem Expr)} {items : List (AnnotationItem Value)}
    (clean : annotations scopes as = .ok items) : AnnotationsFrom scopes as items := by
  simp only [annotations, Outcome.ok, Outcome.mk.injEq, Except.ok.injEq] at clean
  obtain ⟨none, rfl⟩ := clean
  rw [List.flatMap_eq_nil_iff] at none
  rw [AnnotationsFrom, List.forall₂_map_right_iff, List.forall₂_same]
  exact fun a member => ⟨rfl, rfl, cleanOperands (none a member), rfl⟩

structure CleanNode (scopes : ScopeStack) (node : GateNode Expr) (n : GateNode Value) : Prop where
  name : n.name = node.name
  parameter : n.parameter.isSome = node.parameter.isSome
  annotations : AnnotationsFrom scopes node.annotations n.annotations
  location : n.location = node.location

theorem optionalGiven {e : Option Expr} {v : Option Value} (done : optionalExpression scopes e = .ok v) :
    v.isSome = e.isSome := by
  cases e with
  | none =>
    cases done
    rfl
  | some e =>
    obtain ⟨value, _, rfl⟩ := mapOk.mp done
    rfl

theorem resolvedGiven {name : String} {given parameter : Option Value}
    (done : set.resolveParameter? name given = .ok parameter) : parameter.isSome = given.isSome := by
  cases given with
  | some v =>
    obtain ⟨promoted, _, same⟩ := bindOk.mp done
    cases pureOk.mp same
    rfl
  | none =>
    simp only [InstructionSet.resolveParameter?] at done
    split at done
    · cases done
    · cases done
      rfl

theorem namedGiven {node : GateNode Expr} {parameter : Option Value}
    (done : namedParameter set scopes node = .ok parameter) : parameter.isSome = node.parameter.isSome := by
  obtain ⟨given, analysed, resolved⟩ := namedParameterOk done
  rw [resolvedGiven resolved, optionalGiven analysed]

theorem modifierGiven {node : GateNode Expr} {parameter : Option Value}
    (done : modifierParameter scopes node = .ok parameter) : parameter.isSome = node.parameter.isSome := by
  obtain ⟨given, m, promoted, analysed, resolved, rfl⟩ := modifierParameterOk done
  obtain ⟨o, _, _, fits⟩ := OverloadTable.resolvedOverload resolved
  have count : given.toList.length = promoted.length := (Value.promotedAll fits).2.length_eq
  rw [← optionalGiven analysed]
  cases given <;> cases promoted <;> simp_all

theorem cleanNode {node : GateNode Expr} {parameter : Option Value} {n : GateNode Value}
    (clean : gateNode scopes node parameter = .ok n) (given : parameter.isSome = node.parameter.isSome) :
    CleanNode scopes node n := by
  simp only [gateNode, Outcome.cleanBind, Outcome.cleanPure] at clean
  obtain ⟨items, annotated, rfl⟩ := clean
  exact ⟨rfl, given, cleanAnnotations annotated, rfl⟩

theorem cleanGate {tree : Gate Expr} {g : Gate Value} (clean : gate set scopes tree = .ok g) :
    List.Forall₂ (CleanNode scopes) tree.nodes g.nodes := by
  induction tree generalizing g with
  | named node =>
    simp only [gate, Outcome.cleanBind, Outcome.cleanOfExcept, Outcome.cleanPure] at clean
    obtain ⟨parameter, resolved, n, made, rfl⟩ := clean
    exact .cons (cleanNode made (namedGiven resolved)) .nil
  | modified node inner ih =>
    simp only [gate, Outcome.cleanBind, Outcome.cleanOfExcept, Outcome.cleanPure] at clean
    obtain ⟨below, analysed, parameter, resolved, n, made, _, _, rfl⟩ := clean
    exact .cons (cleanNode made (modifierGiven resolved)) (ih analysed)

theorem cleanGateInstruction {i : Tree.GateInstruction} {g : Graph.GateInstruction}
    (clean : gateInstruction set scopes i = .ok g) :
    List.Forall₂ (CleanNode scopes) i.gate.nodes g.gate.nodes ∧ AnnotationsFrom scopes i.annotations g.annotations := by
  simp only [gateInstruction, Outcome.cleanBind, Outcome.cleanPure] at clean
  obtain ⟨made, analysed, _, _, _, _, _, _, items, annotated, rfl⟩ := clean
  exact ⟨cleanGate analysed, cleanAnnotations annotated⟩

theorem cleanNonGateInstruction {i : Tree.NonGateInstruction} {g : Graph.NonGateInstruction}
    (clean : nonGateInstruction set scopes i = .ok g) : AnnotationsFrom scopes i.annotations g.annotations := by
  simp only [nonGateInstruction, Outcome.cleanBind, Outcome.cleanPure] at clean
  obtain ⟨_, _, _, _, _, _, _, _, _, _, items, annotated, rfl⟩ := clean
  exact cleanAnnotations annotated

theorem cleanAssignTo {target : Value} {value : Expr} {as : List (AnnotationItem Expr)} {location : Option Location}
    {g : Graph.Assignment} (clean : assignTo scopes target value as location = .ok g) :
    g.target = target ∧ AnnotationsFrom scopes as g.annotations ∧ g.location = location := by
  simp only [assignTo, Outcome.cleanBind, Outcome.cleanPure] at clean
  obtain ⟨_, _, _, _, _, _, items, annotated, rfl⟩ := clean
  exact ⟨rfl, cleanAnnotations annotated, rfl⟩

theorem cleanAssignment {a : Tree.Assignment} {g : Graph.Assignment} (clean : assignment scopes a = .ok g) :
    AnnotationsFrom scopes a.annotations g.annotations ∧ g.location = a.location := by
  obtain ⟨target, _, assigned⟩ := Outcome.cleanBind.mp clean
  exact (cleanAssignTo assigned).2

theorem cleanVariable {s : State} {d : Tree.Declaration} {v : Variable} (clean : declaredVariable s d = .ok v) :
    AnnotationsFrom s.scopes d.annotations v.annotations := by
  obtain ⟨type, _, clean⟩ := Outcome.cleanBind.mp clean
  cases taken : s.declares d.name with
  | true =>
    simp only [taken, if_true] at clean
    obtain ⟨_, refused, _⟩ := Outcome.cleanBind.mp clean
    cases Outcome.cleanOfExcept.mp refused
  | false =>
    simp only [taken, Bool.false_eq_true, if_false] at clean
    obtain ⟨items, annotated, same⟩ := Outcome.cleanBind.mp clean
    cases Outcome.cleanPure.mp same
    exact cleanAnnotations annotated

end Constructs

section Runs

variable {set : InstructionSet} {s t : State}

theorem diagnosticsStep (step : Step set s t) : s.diagnostics <+: t.diagnostics := by
  cases step with
  | note => exact List.prefix_append _ _
  | add | declare | openBlock | closeBlock => exact List.prefix_rfl

theorem diagnosticsReached (reached : Reaches set s t) : s.diagnostics <+: t.diagnostics :=
  invariantReached (I := fun u => s.diagnostics <+: u.diagnostics) List.prefix_rfl
    (fun _ held step => held.trans (diagnosticsStep step)) reached

def Clean (s t : State) : Prop := t.diagnostics = s.diagnostics

theorem cleanCommit {α : Type} {location : Option Location} {x : Outcome α} {make : α → Graph.Statement}
    (clean : Clean s (s.commit location (x.map make))) :
    ∃ a, x = .ok a ∧ s.commit location (x.map make) = s.addStatement (make a) := by
  have made : ∃ st, x.map make = .ok st ∧ s.commit location (x.map make) = s.addStatement st := by
    generalize x.map make = outcome at clean ⊢
    obtain ⟨noted, result⟩ := outcome
    cases result with
    | error d => simp [Clean, State.commit, State.report, State.note] at clean
    | ok st =>
      have none : noted = [] := by simpa [Clean, State.commit, State.addStatement, State.note] using clean
      subst none
      exact ⟨st, rfl, by simp [State.commit, State.note]⟩
  obtain ⟨st, mapped, same⟩ := made
  obtain ⟨a, done, rfl⟩ := Outcome.cleanMap.mp mapped
  exact ⟨a, done, same⟩

theorem cleanInitial {d : Tree.Declaration} {target : Value} (clean : Clean s (assignInitial s d target)) :
    (d.initializer = none ∧ assignInitial s d target = s) ∨
      ∃ value a, d.initializer = some value ∧ assignTo s.scopes target value [] d.location = .ok a ∧
        assignInitial s d target = s.addStatement (.assign a) := by
  unfold assignInitial at clean ⊢
  cases given : d.initializer with
  | none => exact .inl ⟨rfl, rfl⟩
  | some value =>
    simp only [given] at clean
    obtain ⟨a, assigned, same⟩ := cleanCommit clean
    exact .inr ⟨value, a, rfl, assigned, same⟩

theorem cleanDeclare {d : Tree.Declaration} (clean : Clean s (declare s d)) :
    ∃ v, declaredVariable s d = .ok v ∧
      declare s d = assignInitial (s.addVariable v) d (.reference s.vars.length v.type) := by
  simp only [Clean, declare] at clean ⊢
  cases made : declaredVariable s d with
  | mk noted result =>
    simp only [made] at clean ⊢
    cases result with
    | error diagnostic => simp [State.report, State.note] at clean
    | ok v =>
      -- what the declaration notes stands before anything that its initializer adds
      have reached : Reaches .empty _ _ := assignInitialReaches (s.note noted) v d
      have early : (s.diagnostics ++ noted).length ≤ s.diagnostics.length :=
        Nat.le_trans (diagnosticsReached reached).length_le (Nat.le_of_eq (congrArg List.length clean))
      have none : noted = [] := by
        rw [List.length_append] at early
        exact List.eq_nil_of_length_eq_zero (by omega)
      subst none
      exact ⟨v, rfl, by simp [State.note]⟩

theorem cleanFirst {first : Tree.Statement} {rest : List Tree.Statement}
    (clean : Clean s (statements set s (first :: rest))) :
    Clean s (statement set s first) ∧ Clean (statement set s first) (statements set (statement set s first) rest) := by
  have before : s.diagnostics <+: (statement set s first).diagnostics := diagnosticsReached (statementReaches s first)
  have after : (statement set s first).diagnostics <+: s.diagnostics :=
    clean ▸ diagnosticsReached (statementsReach (statement set s first) rest)
  have same : Clean s (statement set s first) := after.eq_of_length (Nat.le_antisymm after.length_le before.length_le)
  exact ⟨same, clean.trans same.symm⟩

theorem closeBlockDiagnostics (s : State) : s.closeBlock.diagnostics = s.diagnostics := by
  unfold State.closeBlock
  cases s.scopes.pop? <;> rfl

theorem cleanBlock {body : List Tree.Statement} {location : Option Location}
    (clean : Clean s (statement set s (.block body location))) :
    Clean s.openBlock (statements set s.openBlock body) := by
  rw [Clean, statement, closeBlockDiagnostics] at clean
  exact clean

end Runs

end Analysis

def Version.NonNegative (v : Version) : Prop := ∀ n ∈ v.items, 0 ≤ n

instance (v : Version) : Decidable v.NonNegative := List.decidableBAll (fun n => 0 ≤ n) v.items

theorem Version.negativeItem {v : Version} : v.items.any (· < 0) = true ↔ ¬ v.NonNegative := by
  simp only [NonNegative, List.any_eq_true, decide_eq_true_eq, Classical.not_forall, Int64.not_le, exists_prop]

namespace Analyzer

open Analysis

variable {a : Analyzer} {p : Tree.Program}

theorem versionMatches {supported : Version} :
    versionDiagnostics supported p = [] ↔ p.version = supported ∧ supported.NonNegative := by
  obtain ⟨given, location, statements⟩ := p
  simp only [versionDiagnostics, checkVersion, Version.negativeItem]
  by_cases same : given = supported
  · subst same
    by_cases proper : given.NonNegative <;> simp [proper]
  · have items : given.items ≠ supported.items := fun e => same (congrArg Version.mk e)
    by_cases proper : given.NonNegative <;> simp [proper, same, items]

theorem elaborateClean : (a.elaborate p).diagnostics = [] ↔
    versionDiagnostics a.apiVersion p = [] ∧ Clean (a.start p) (a.finish p) := by
  have grown : versionDiagnostics a.apiVersion p <+: (a.elaborate p).diagnostics := diagnosticsReached reachesFinish
  constructor
  · intro clean
    have none : versionDiagnostics a.apiVersion p = [] := List.prefix_nil.mp (clean ▸ grown)
    exact ⟨none, clean.trans none.symm⟩
  · rintro ⟨none, same⟩
    exact same.trans none

end Analyzer

end Cqasm
