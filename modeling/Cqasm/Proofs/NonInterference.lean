import Cqasm.Proofs.Blame
import Cqasm.Proofs.Keyed
import Cqasm.Proofs.Letters
import Cqasm.Proofs.RevisedRun

/-! What the analysis of a program does not depend on: where things stand in the text, which annotations they carry
and, when case tells no names apart, how names are written. -/
namespace Cqasm

open Cqasm.Graph (Variable Malformed)
open Cqasm.Tree (Expr)

def Graph.Malformed.revised (r : Revision) : Malformed → Malformed
  | .indexOutOfRange name index size => .indexOutOfRange (r.spelling name) index size
  | malformed => malformed

def SameCheck (r : Revision) : Except Malformed Unit → Except Malformed Unit → Prop :=
  Agree (fun found again => again = found.revised r) Eq

namespace Graph

section Checks

variable {r : Revision} (vars : List Variable)

theorem checkEachRevised {α : Type} {check recheck : α → Except Malformed Unit} {f : α → α}
    (each : ∀ a, SameCheck r (check a) (recheck (f a))) (as : List α) :
    SameCheck r (checkEach check as) (checkEach recheck (as.map f)) := by
  induction as with
  | nil => exact .ok rfl
  | cons a rest ih => exact (each a).bindEq fun _ => ih

theorem checkVariableRevised (id : Nat) :
    SameCheck r (checkVariable vars id) (checkVariable (vars.map (Variable.revised r)) id) := by
  rw [checkVariable, checkVariable, List.length_map]
  split
  · exact .ok rfl
  · exact .error rfl

theorem checkSelectionRevised (s : Selection) :
    SameCheck r (checkSelection vars s) (checkSelection (vars.map (Variable.revised r)) s) := by
  rw [checkSelection, checkSelection, List.getElem?_map]
  cases vars[s.id]? with
  | none => exact .error rfl
  | some v =>
    simp only [Option.map_some, Variable.revised]
    cases s.indices.find? fun i => i < 0 || v.type.size ≤ i with
    | none => exact .ok rfl
    | some index => exact .error rfl

mutual

theorem checkValueRevised : (v : Value) →
    SameCheck r (checkValue vars v) (checkValue (vars.map (Variable.revised r)) v)
  | .const _ => by
    rw [checkValue, checkValue]
    exact .ok rfl
  | .reference id _ => by
    rw [checkValue, checkValue]
    exact checkVariableRevised vars id
  | .selection s => by
    rw [checkValue, checkValue]
    exact checkSelectionRevised vars s
  | .call _ arguments => by
    rw [checkValue, checkValue]
    exact checkValuesRevised arguments

theorem checkValuesRevised : (vs : List Value) →
    SameCheck r (checkValues vars vs) (checkValues (vars.map (Variable.revised r)) vs)
  | [] => by
    rw [checkValues, checkValues]
    exact .ok rfl
  | v :: vs => by
    rw [checkValues, checkValues]
    exact (checkValueRevised v).bindEq fun _ => checkValuesRevised vs

end

theorem checkAnnotationsRevised (annotated : r.annotated = true) (as : List (AnnotationItem Value)) :
    SameCheck r (checkAnnotations vars as)
      (checkAnnotations (vars.map (Variable.revised r)) (annotationsRevised r id as)) := by
  rw [annotationsRevised, if_pos annotated]
  refine checkEachRevised (fun a => ?_) as
  rw [AnnotationItem.revised, List.map_id]
  exact checkValuesRevised vars a.operands

theorem checkNodeRevised (annotated : r.annotated = true) (node : GateNode Value) :
    SameCheck r (checkNode vars node) (checkNode (vars.map (Variable.revised r)) (node.revised r id)) := by
  have parameter : (node.revised r id).parameter = node.parameter := Option.map_id_apply
  rw [checkNode, checkNode, parameter]
  exact (checkValuesRevised vars _).bindEq fun _ => checkAnnotationsRevised vars annotated node.annotations

theorem checkGateRevised (annotated : r.annotated = true) (g : Gate Value) :
    SameCheck r (checkGate vars g) (checkGate (vars.map (Variable.revised r)) (g.revised r id)) := by
  induction g with
  | named node => exact checkNodeRevised vars annotated node
  | modified node inner ih => exact (checkNodeRevised vars annotated node).bindEq fun _ => ih

theorem checkOperandCountSame (instruction : Instruction) (operands : List Value) :
    SameCheck r (checkOperandCount instruction operands) (checkOperandCount instruction operands) := by
  unfold checkOperandCount
  split
  · exact .ok rfl
  · exact .error rfl

mutual

theorem checkStatementRevised (annotated : r.annotated = true) : (st : Statement) →
    SameCheck r (checkStatement vars st) (checkStatement (vars.map (Variable.revised r)) (st.revised r))
  | .gate g => by
    rw [checkStatement, Statement.revised, checkStatement]
    exact (checkOperandCountSame ..).bindEq fun _ => (checkGateRevised vars annotated g.gate).bindEq fun _ =>
      (checkValuesRevised vars g.operands).bindEq fun _ => checkAnnotationsRevised vars annotated g.annotations
  | .nonGate i => by
    rw [checkStatement, Statement.revised, checkStatement]
    exact (checkOperandCountSame ..).bindEq fun _ => (checkValuesRevised vars i.operands).bindEq fun _ =>
      (checkValuesRevised vars i.parameter.toList).bindEq fun _ => checkAnnotationsRevised vars annotated i.annotations
  | .assign a => by
    rw [checkStatement, Statement.revised, checkStatement]
    exact (checkValueRevised vars a.target).bindEq fun _ => (checkValueRevised vars a.value).bindEq fun _ =>
      checkAnnotationsRevised vars annotated a.annotations
  | .block ids statements location => by
    rw [checkStatement, Statement.revised, checkStatement]
    refine Agree.bindEq ?_ fun _ => checkStatementsRevised annotated statements
    have each := checkEachRevised (f := id) (fun id => checkVariableRevised (r := r) vars id) ids
    rwa [List.map_id] at each

theorem checkStatementsRevised (annotated : r.annotated = true) : (ss : List Statement) →
    SameCheck r (checkStatements vars ss) (checkStatements (vars.map (Variable.revised r)) (statementsRevised r ss))
  | [] => by
    rw [checkStatements, statementsRevised, checkStatements]
    exact .ok rfl
  | first :: rest => by
    rw [checkStatements, statementsRevised, checkStatements]
    exact (checkStatementRevised annotated first).bindEq fun _ => checkStatementsRevised annotated rest

end

omit vars in
theorem checkRevised (annotated : r.annotated = true) (p : Program) : SameCheck r p.check (p.revised r).check := by
  rw [Program.check, Program.check]
  refine Agree.bindEq (checkEachRevised (fun v => ?_) p.vars) fun _ => ?_
  · exact checkAnnotationsRevised p.vars annotated v.annotations
  · have whole : (p.revised r).block.toStatement = p.block.toStatement.revised r := p.block.toStatementRevised r
    rw [whole]
    exact checkStatementRevised p.vars annotated _

end Checks

end Graph

structure Analysis.Revised (r : Revision) (x y : Analysis) : Prop where
  program : y.program = x.program.revised r
  diagnostics : List.Forall₂ (Diagnostic.Revised r) x.diagnostics y.diagnostics

theorem Analysis.Revised.isClean {r : Revision} {x y : Analysis} (revised : x.Revised r y) : y.isClean = x.isClean := by
  have count := revised.diagnostics.length_eq
  rw [Bool.eq_iff_iff, Analysis.isClean, Analysis.isClean, List.isEmpty_iff_length_eq_zero,
    List.isEmpty_iff_length_eq_zero, count]

theorem Revision.heardAll {r : Revision} (annotated : r.annotated = true) (xs : List Analysis.Raised) :
    r.heard xs = xs.map Analysis.Raised.diagnostic := by
  simp [heard, annotated]

namespace Analyzer

open Analysis

theorem constantsPolicy (cs : List (String × Constant)) (t : VariableTable) :
    (cs.foldl (fun t c => t.add c.1 (.const c.2)) t).policy = t.policy := by
  induction cs generalizing t with
  | nil => rfl
  | cons c cs ih => exact ih (t.add c.1 (.const c.2))

theorem defaultsUnder {s : Scope} {policy : CasePolicy} (under : s.Under policy) (ms : List GateModifier)
    (is : List Instruction) : (defaults s ms is).Under policy where
  vars := (constantsPolicy ..).trans under.vars
  natives := (OverloadTable.policyAddAll ..).trans under.natives
  functions := (OverloadTable.policyAddAll ..).trans under.functions
  instructions := (OverloadTable.policyAddAll ..).trans under.instructions
  modifiers := (OverloadTable.policyAddAll ..).trans under.modifiers

theorem Configured.under {a : Analyzer} (configured : a.Configured) : a.global.Under a.policy := by
  induction configured with
  | empty apiVersion policy set => exact Scope.emptyUnder policy
  | register r _ ih =>
    obtain ⟨vars, natives, functions, instructions, modifiers⟩ := ih
    cases r <;> exact ⟨vars, natives, functions, instructions, modifiers⟩
  | @defaults a _ ih =>
    obtain ⟨ms, is, same, _⟩ := addDefaultsEq a
    rw [same]
    exact defaultsUnder ih ms is

theorem Configured.setPolicy {a : Analyzer} (configured : a.Configured) : a.instructionSet.policy = a.policy := by
  induction configured with
  | empty apiVersion policy set =>
    unfold Analyzer.empty
    dsimp only
    split
    · assumption
    · rfl
  | register r _ ih => cases r <;> exact ih
  | @defaults a _ ih =>
    obtain ⟨ms, is, same, _⟩ := addDefaultsEq a
    rw [same]
    exact ih

section Revised

variable {a : Analyzer} {r : Revision} (configured : a.Configured) (p : Tree.Program)

theorem versionRevised : List.Forall₂ (Diagnostic.Revised r) (versionDiagnostics a.apiVersion p)
    (versionDiagnostics a.apiVersion (p.revised r)) := by
  unfold versionDiagnostics
  rw [show (p.revised r).version = p.version from rfl]
  cases checked : checkVersion a.apiVersion p.version with
  | ok _ => exact .nil
  | error fault =>
    have own := checkVersionPlaceless a.apiVersion p.version fault checked
    exact .cons ⟨.untouched fault, fun brought => (nomatch own.symm.trans brought), fun _ => rfl⟩ .nil

include configured

theorem startRevised : Follows r (versionDiagnostics a.apiVersion p) (a.start p) (a.start (p.revised r)) := by
  refine ⟨?_, rfl, versionRevised p⟩
  -- A revision would also change what the analyzer itself had in its block, but there is nothing in it.
  simp only [start, ScopeStack.ofGlobal, ScopeStack.revised, Scope.revised, List.map_nil, configured.block,
    Graph.Block.emptyRevised]
  rw [← configured.block]

variable (keeps : r.Keeps a.policy)
include keeps

theorem elaborateRevised :
    (a.elaborate (p.revised r)).program = (a.elaborate p).program.revised r ∧
      List.Forall₂ (Diagnostic.Revised r) (r.heard (a.raised p)) (a.elaborate (p.revised r)).diagnostics := by
  have under : (a.start p).scopes.Under a.policy := ⟨rfl, List.forall_mem_nil _, configured.under⟩
  have kept : r.Keeps a.instructionSet.policy := configured.setPolicy ▸ keeps
  have run := statementsRevised keeps kept p.statements (startRevised configured p) under
  refine ⟨?_, ?_⟩
  · have vars := run.vars
    have block := congrArg (fun scopes => scopes.global.block) run.scopes
    simp only [elaborate, ofProgram, Graph.Program.revised, Graph.Program.mk.injEq, true_and]
    exact ⟨block, vars⟩
  · rw [raised, r.heardAppend, r.heardOther]
    exact run.diagnostics

theorem elaborateFollows (annotated : r.annotated = true) : (a.elaborate p).Revised r (a.elaborate (p.revised r)) := by
  obtain ⟨program, diagnostics⟩ := elaborateRevised configured p keeps
  rw [r.heardAll annotated, ← elaborateDiagnostics] at diagnostics
  exact ⟨program, diagnostics⟩

theorem analyzeFollows (annotated : r.annotated = true) :
    Agree (fun found again => again = found.revised r) (Analysis.Revised r) (a.analyze p)
      (a.analyze (p.revised r)) := by
  have follows := elaborateFollows configured p keeps annotated
  have checked := Graph.checkRevised annotated (a.elaborate p).program
  rw [← follows.program] at checked
  -- Both programs are checked, or neither is.
  simp only [analyze, follows.isClean]
  split
  · exact checked.bindEq fun _ => .pure follows
  · exact .ok follows

end Revised

end Analyzer

namespace Revision

def verbatim : Revision where
  spelling := id
  place := id
  annotated := true
  composed _ _ := rfl
  nowhere := rfl
  innermost _ _ := rfl
  hull _ _ := rfl

def unlocated : Revision :=
  { verbatim with
    place := fun _ => none
    nowhere := rfl
    innermost := fun _ _ => rfl
    hull := fun _ _ => rfl }

end Revision

theorem Fault.revisedVerbatim {r : Revision} (spelling : r.spelling = id) {f g : Fault} (revised : f.Revised r g) :
    g = f := by
  cases revised with
  | untouched => rfl
  | spelled => cases f <;> simp only [Fault.revised, spelling, id]

def Diagnostic.unlocated (d : Diagnostic) : Diagnostic := ⟨d.fault, d.fault.place⟩

theorem Diagnostic.unlocatedEq {d e : Diagnostic} (revised : d.Revised .unlocated e) : d.unlocated = e := by
  have location : e.location = d.fault.place := by
    cases own : d.fault.place with
    | none => exact revised.moved own
    | some l => exact (revised.brought own).2
  rw [unlocated, ← location, ← Fault.revisedVerbatim rfl revised.fault]

def Analysis.unlocated (x : Analysis) : Analysis :=
  ⟨x.program.revised .unlocated, x.diagnostics.map Diagnostic.unlocated⟩

theorem Analysis.unlocatedEq {x y : Analysis} (revised : x.Revised .unlocated y) : y = x.unlocated := by
  have each : List.Forall₂ (fun d e => d.unlocated = e) x.diagnostics y.diagnostics :=
    revised.diagnostics.imp fun _ _ => Diagnostic.unlocatedEq
  have diagnostics := List.forall₂_eq_eq_eq ▸ List.forall₂_map_left_iff.mpr each
  rw [unlocated, diagnostics, ← revised.program]

namespace Analyzer

theorem locationsImmaterial {a : Analyzer} (configured : a.Configured) (p : Tree.Program) :
    a.elaborate (p.revised .unlocated) = (a.elaborate p).unlocated ∧
      a.analyze (p.revised .unlocated) = (a.analyze p).map Analysis.unlocated ∧
      ∀ d ∈ (a.elaborate (p.revised .unlocated)).diagnostics, ∀ l, d.location = some l →
        d.fault.place = some l ∧ a.global.natives.Raises d.fault := by
  have keeps : Revision.unlocated.Keeps a.policy := fun _ => rfl
  have elaborated := Analysis.unlocatedEq (elaborateFollows configured p keeps rfl)
  refine ⟨elaborated, ?_, fun d member l located => ?_⟩
  case refine_2 =>
    rw [elaborated] at member
    obtain ⟨found, given, rfl⟩ := List.mem_map.mp member
    have own : found.fault.place = some l := located
    have raised := elaborateRaises a p given own
    exact ⟨own, raised⟩
  rcases (analyzeFollows configured p keeps rfl).ends with ⟨x, y, first, again, same⟩ | ⟨e, f, first, again, same⟩
  · rw [first, again, Analysis.unlocatedEq same]
    rfl
  · have unchanged : e.revised .unlocated = e := by cases e <;> rfl
    rw [first, again, same, unchanged]
    rfl

def line (n : Nat) : Option Location := some ⟨some "pair.cq", ⟨n, 1⟩, ⟨n, 20⟩⟩

def faultyPair : Tree.Program where
  version := ⟨[3, 0]⟩
  versionLocation := line 1
  statements :=
    [.declare ⟨"q", line 2, .qubit, some 2, none, [⟨"layout", "at", [.literal (.int 4) none], line 2⟩], line 2⟩,
      .gate ⟨.named ⟨"H", none, [⟨"sampler", "repeat", [.name "shots" none], line 3⟩], line 4⟩,
        [.index (.name "q" (line 4)) [.item (.literal (.int 0) (line 4))] (line 4)], [], line 4⟩,
      .block [.gate ⟨.named ⟨"CNOT", none, [], line 5⟩, [.name "p" (line 5), .name "q" (line 5)], [], line 5⟩,
        .gate ⟨.modified ⟨"inv", none, [], line 6⟩ (.named ⟨"S", none, [], line 6⟩), [.name "q" none], [], line 6⟩]
        (line 7)]

theorem faultyPairUnlocated :
    standard.Configured ∧
      (standard.elaborate faultyPair).diagnostics =
        [⟨.unknownVariable "shots", line 3⟩, ⟨.unknownVariable "p", line 5⟩] ∧
      standard.elaborate (faultyPair.revised .unlocated) = (standard.elaborate faultyPair).unlocated ∧
      standard.analyze (faultyPair.revised .unlocated) = (standard.analyze faultyPair).map Analysis.unlocated :=
  have configured : standard.Configured := .defaults (.empty _ _ _)
  have immaterial := locationsImmaterial configured faultyPair
  ⟨configured, by decide +kernel, immaterial.1, immaterial.2.1⟩

theorem refusedCheckStillPlaced :
    refusing.Configured ∧
      (refusing.elaborate (refusedCheck.revised .unlocated)).diagnostics =
        [⟨.other .evaluation "refused" (cell 9 9), cell 9 9⟩] :=
  ⟨.register _ (.empty _ _ _), by decide⟩

end Analyzer

def Revision.unannotated : Revision := { verbatim with annotated := false }

theorem Diagnostic.revisedUnannotated {d e : Diagnostic} (revised : d.Revised .unannotated e) : d = e := by
  have fault := Fault.revisedVerbatim rfl revised.fault
  have location := revised.stays rfl
  cases d
  cases e
  simp_all only

namespace Analyzer

open Analysis

theorem annotationsImmaterial {a : Analyzer} (configured : a.Configured) (p : Tree.Program) :
    (a.elaborate (p.revised .unannotated)).program = (a.elaborate p).program.revised .unannotated ∧
      (a.elaborate p).diagnostics = (a.raised p).map Raised.diagnostic ∧
      (a.elaborate (p.revised .unannotated)).diagnostics =
        ((a.raised p).filter fun x => !x.inAnnotation).map Raised.diagnostic ∧
      ∀ x ∈ a.raised p, x.inAnnotation = true →
        ∃ t, Reaches a.instructionSet (a.start p) t ∧
          OperandFault t.scopes (Tree.annotationsIn p.statements) x.diagnostic := by
  have keeps : Revision.unannotated.Keeps a.policy := fun _ => rfl
  obtain ⟨program, diagnostics⟩ := elaborateRevised configured p keeps
  refine ⟨program, elaborateDiagnostics a p, ?_, fun x member annotated => ?_⟩
  · have same := diagnostics.imp fun _ _ => Diagnostic.revisedUnannotated
    exact (List.forall₂_eq_eq_eq ▸ same).symm
  · rcases List.mem_append.mp member with version | run
    · obtain ⟨d, _, rfl⟩ := List.mem_map.mp version
      cases annotated
    · exact statementsRaisedOnTheWay a.instructionSet (a.start p) p.statements x run annotated

theorem faultyPairUnannotated :
    standard.Configured ∧
      (standard.raised faultyPair).map Raised.inAnnotation = [true, false] ∧
      (standard.elaborate (faultyPair.revised .unannotated)).program =
        (standard.elaborate faultyPair).program.revised .unannotated ∧
      (standard.elaborate (faultyPair.revised .unannotated)).diagnostics = [⟨.unknownVariable "p", line 5⟩] :=
  have configured : standard.Configured := .defaults (.empty _ _ _)
  have ⟨program, _, diagnostics, _⟩ := annotationsImmaterial configured faultyPair
  have others : ((standard.raised faultyPair).filter fun x => !x.inAnnotation).map Raised.diagnostic =
      [⟨.unknownVariable "p", line 5⟩] := by decide +kernel
  ⟨configured, by decide +kernel, program, diagnostics.trans others⟩

end Analyzer

namespace CasePolicy

theorem keyKey (policy : CasePolicy) (s : String) : policy.key (policy.key s) = policy.key s := by
  cases policy with
  | sensitive => rfl
  | insensitive =>
    simp only [key, String.toList_ofList, List.map_map]
    congr 2
    funext c
    exact Letter.lowerLower c

end CasePolicy

def Revision.caseless : Revision :=
  { verbatim with
    spelling := CasePolicy.insensitive.key
    composed := CasePolicy.insensitive.keyComposed }

theorem Fault.messageCaseless {f g : Fault} (revised : f.Revised .caseless g) :
    CasePolicy.insensitive.key g.message = CasePolicy.insensitive.key f.message := by
  cases revised with
  | untouched => rfl
  | spelled =>
    have spelled (name : String) : CasePolicy.insensitive.key (Revision.caseless.spelling name) =
        CasePolicy.insensitive.key name := CasePolicy.insensitive.keyKey name
    cases f with
    | unknownName _ | unknownVariable _ | noOverload _ _ | noInstruction _ _ _ | badParameter _ _ | redeclared _ =>
      unfold message
      simp only [Fault.revised, CasePolicy.keyAppend, spelled]
    | _ => rfl

structure Diagnostic.SameButCase (d e : Diagnostic) : Prop where
  kind : d.fault.kind = e.fault.kind
  location : d.location = e.location
  message : CasePolicy.insensitive.key d.fault.message = CasePolicy.insensitive.key e.fault.message

structure Analysis.SameButCase (x y : Analysis) : Prop where
  program : x.program.revised .caseless = y.program.revised .caseless
  diagnostics : List.Forall₂ Diagnostic.SameButCase x.diagnostics y.diagnostics

theorem Diagnostic.sameButCase {d e f : Diagnostic} (first : d.Revised .caseless f) (second : e.Revised .caseless f) :
    d.SameButCase e where
  kind := (Fault.kindRevised first.fault).symm.trans (Fault.kindRevised second.fault)
  location := (first.stays rfl).symm.trans (second.stays rfl)
  message := (Fault.messageCaseless first.fault).symm.trans (Fault.messageCaseless second.fault)

theorem Diagnostic.sameButCaseEach {ds es fs : List Diagnostic}
    (first : List.Forall₂ (Diagnostic.Revised .caseless) ds fs)
    (second : List.Forall₂ (Diagnostic.Revised .caseless) es fs) : List.Forall₂ SameButCase ds es := by
  induction first generalizing es with
  | nil =>
    cases second
    exact .nil
  | cons here _ ih =>
    cases second with
    | cons there rest => exact .cons (sameButCase here there) (ih rest)

theorem Analysis.sameButCase {x y z : Analysis} (first : x.Revised .caseless z) (second : y.Revised .caseless z) :
    x.SameButCase y where
  program := first.program.symm.trans second.program
  diagnostics := Diagnostic.sameButCaseEach first.diagnostics second.diagnostics

namespace Analyzer

theorem caseImmaterial {a : Analyzer} (configured : a.Configured) (insensitive : a.policy = .insensitive)
    {p q : Tree.Program} (same : p.revised .caseless = q.revised .caseless) :
    (a.elaborate p).SameButCase (a.elaborate q) ∧
      Agree (fun found again => found.revised .caseless = again.revised .caseless) Analysis.SameButCase
        (a.analyze p) (a.analyze q) := by
  have keeps : Revision.caseless.Keeps a.policy := insensitive ▸ CasePolicy.insensitive.keyKey
  have first := elaborateFollows configured p keeps rfl
  have second := elaborateFollows configured q keeps rfl
  rw [same] at first
  refine ⟨Analysis.sameButCase first second, ?_⟩
  have checked := analyzeFollows configured p keeps rfl
  have again := analyzeFollows configured q keeps rfl
  rw [same] at checked
  exact checked.meet again (fun left right => left.symm.trans right) Analysis.sameButCase

def caseBlind : Analyzer :=
  ((empty ⟨[3, 0]⟩ .insensitive .standard).addDefaults.1).register (.value "Turns" (.const (.int 2)))

def turned (written : String → String) : Tree.Program where
  version := ⟨[3, 0]⟩
  versionLocation := none
  statements :=
    [.declare ⟨written "Reg", none, .qubit, some 2, none, [], none⟩,
      .declare ⟨written "Out", none, .bit, some 2, none, [], none⟩,
      .gate ⟨.modified ⟨written "inv", none, [], none⟩
        (.named ⟨written "Rx", some (.apply (written "sin") [.name (written "Turns") none] none),
          [⟨"layout", "at", [.name (written "Turns") none], none⟩], none⟩),
        [.name (written "Reg") none], [], none⟩,
      .nonGate ⟨written "measure", none, [.name (written "Out") none, .name (written "Reg") none], [], none⟩,
      .assign ⟨.name (written "Absent") none, .name (written "Out") none, [], none⟩]

def inCapitals (name : String) : String := String.ofList (name.toList.map Char.toUpper)

theorem keyInCapitals (name : String) :
    CasePolicy.insensitive.key (inCapitals name) = CasePolicy.insensitive.key name := by
  simp only [CasePolicy.key, inCapitals, String.toList_ofList, List.map_map]
  congr 2
  funext c
  exact Letter.lowerUpper c

theorem turnedInCapitals :
    caseBlind.Configured ∧ caseBlind.policy = .insensitive ∧
      (turned id).revised .caseless = (turned inCapitals).revised .caseless ∧
      (caseBlind.elaborate (turned id)).SameButCase (caseBlind.elaborate (turned inCapitals)) :=
  have configured : caseBlind.Configured := .register _ (.defaults (.empty _ _ _))
  have insensitive : caseBlind.policy = .insensitive := by decide +kernel
  have written (f : String → String) : (turned f).revised .caseless = turned (CasePolicy.insensitive.key ∘ f) := rfl
  have names : CasePolicy.insensitive.key ∘ id = CasePolicy.insensitive.key ∘ inCapitals :=
    funext fun name => (keyInCapitals name).symm
  have same : (turned id).revised .caseless = (turned inCapitals).revised .caseless := by
    rw [written, written, names]
  ⟨configured, insensitive, same, (caseImmaterial configured insensitive same).1⟩

end Analyzer

end Cqasm
