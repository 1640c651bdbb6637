import Cqasm.Proofs.Raised
import Cqasm.Proofs.Revision

/-! The analysis of a revised program runs beside that of the original: at every step it stands at the revised
state, and it finds wrong what the original finds wrong, but for what only annotations bring up. -/
namespace Cqasm

open Cqasm.Graph (Variable)
open Cqasm.Tree (Expr IndexEntry exprsRevised entriesRevised entryRevised)

namespace Analysis

section Expressions

variable {r : Revision} {policy : CasePolicy} {scopes : ScopeStack}

mutual

theorem expressionRevised (under : scopes.Under policy) (keeps : r.Keeps policy) : (e : Expr) →
    Agree (Diagnostic.Revised r) Eq (expression scopes e) (expression (scopes.revised r) (e.revised r))
  | .literal l location => by
    rw [expression, Expr.revised, expression]
    exact .ok rfl
  | .name name location => by
    rw [expression, Expr.revised, expression]
    exact placedRevised location (unplacedRevised (ScopeStack.resolveVariableRevised under keeps name))
  | .index base entries location => by
    rw [expression, Expr.revised, expression]
    refine placedRevised location ((expressionRevised under keeps base).bindEq fun value => ?_)
    refine (unplacedSame (indexable value)).bindEq fun ⟨selection, size⟩ => ?_
    exact (indexEntriesRevised under keeps size entries).bindEq fun indices => .pure rfl
  | .apply function arguments location => by
    rw [expression, Expr.revised, expression]
    refine placedRevised location ((expressionsRevised under keeps arguments).bindEq fun values => ?_)
    exact unplacedRevised (ScopeStack.resolveFunctionRevised under keeps function values)
  | .list items location => by
    rw [expression, Expr.revised, expression]
    refine placedRevised location ((expressionsRevised under keeps items).bindEq fun values => ?_)
    exact unplacedSame (initializationList values)

theorem expressionsRevised (under : scopes.Under policy) (keeps : r.Keeps policy) : (es : List Expr) →
    Agree (Diagnostic.Revised r) Eq (expressions scopes es) (expressions (scopes.revised r) (exprsRevised r es))
  | [] => by
    rw [expressions, exprsRevised, expressions]
    exact .ok rfl
  | e :: rest => by
    rw [expressions, exprsRevised, expressions]
    refine (expressionRevised under keeps e).bindEq fun value => ?_
    exact (expressionsRevised under keeps rest).bindEq fun values => .pure rfl

theorem indexEntryRevised (under : scopes.Under policy) (keeps : r.Keeps policy) (size : Int) :
    (entry : IndexEntry Expr) → Agree (Diagnostic.Revised r) Eq (indexEntry scopes size entry)
      (indexEntry (scopes.revised r) size (entryRevised r entry))
  | .item e => by
    rw [indexEntry, entryRevised, indexEntry, Expr.locationRevised]
    refine (expressionRevised under keeps e).bindEq fun value => ?_
    refine (placedRevised e.location (unplacedSame (constantInt value))).bindEq fun index => ?_
    exact unplacedSame (singleIndex size index)
  | .range first last => by
    rw [indexEntry, entryRevised, indexEntry, Expr.locationRevised, Expr.locationRevised]
    refine (expressionRevised under keeps first).bindEq fun firstValue => ?_
    refine (placedRevised first.location (unplacedSame (constantInt firstValue))).bindEq fun firstIndex => ?_
    refine (expressionRevised under keeps last).bindEq fun lastValue => ?_
    refine (placedRevised last.location (unplacedSame (constantInt lastValue))).bindEq fun lastIndex => ?_
    exact unplacedSame (indexRange size firstIndex lastIndex)

theorem indexEntriesRevised (under : scopes.Under policy) (keeps : r.Keeps policy) (size : Int) :
    (entries : List (IndexEntry Expr)) → Agree (Diagnostic.Revised r) Eq (indexEntries scopes size entries)
      (indexEntries (scopes.revised r) size (entriesRevised r entries))
  | [] => by
    rw [indexEntries, entriesRevised, indexEntries]
    exact .ok rfl
  | entry :: rest => by
    rw [indexEntries, entriesRevised, indexEntries]
    refine (indexEntryRevised under keeps size entry).bindEq fun indices => ?_
    exact (indexEntriesRevised under keeps size rest).bindEq fun others => .pure rfl

end

theorem optionalExpressionRevised (under : scopes.Under policy) (keeps : r.Keeps policy) (e : Option Expr) :
    Agree (Diagnostic.Revised r) Eq (optionalExpression scopes e)
      (optionalExpression (scopes.revised r) (e.map (Expr.revised r))) := by
  cases e with
  | none => exact .ok rfl
  | some e =>
    simp only [Option.map_some, optionalExpression]
    exact (expressionRevised under keeps e).map (congrArg some)

end Expressions

end Analysis

def Revision.noted (r : Revision) (ds : List Diagnostic) : List Diagnostic := if r.annotated then ds else []

theorem Revision.notedAppend (r : Revision) (ds es : List Diagnostic) :
    r.noted (ds ++ es) = r.noted ds ++ r.noted es := by
  unfold noted
  split <;> rfl

theorem Revision.notedNil (r : Revision) : r.noted [] = [] := by
  unfold noted
  split <;> rfl

namespace Analysis

structure Outcome.Agree (r : Revision) {α β : Type} (A : α → β → Prop) (x : Outcome α) (y : Outcome β) : Prop where
  noted : List.Forall₂ (Diagnostic.Revised r) (r.noted x.noted) y.noted
  result : Cqasm.Agree (Diagnostic.Revised r) A x.result y.result

namespace Outcome.Agree

variable {r : Revision} {α β γ κ : Type} {A : α → β → Prop} {B : γ → κ → Prop}

theorem bind {x : Outcome α} {y : Outcome β} {k : α → Outcome γ} {l : β → Outcome κ} (first : Agree r A x y)
    (next : ∀ {a b}, A a b → Agree r B (k a) (l b)) : Agree r B (x >>= k) (y >>= l) := by
  obtain ⟨notedX, resultX⟩ := x
  obtain ⟨notedY, resultY⟩ := y
  obtain ⟨noted, result⟩ := first
  cases result with
  | error same => exact ⟨noted, .error same⟩
  | ok same =>
    refine ⟨?_, (next same).result⟩
    change List.Forall₂ _ (r.noted (notedX ++ _)) (notedY ++ _)
    rw [r.notedAppend]
    exact List.rel_append noted (next same).noted

theorem bindEq {x y : Outcome α} {k : α → Outcome γ} {l : α → Outcome κ} (first : Agree r Eq x y)
    (next : ∀ a, Agree r B (k a) (l a)) : Agree r B (x >>= k) (y >>= l) :=
  first.bind fun same => same ▸ next _

theorem ofExcept {x : Except Diagnostic α} {y : Except Diagnostic β}
    (agree : Cqasm.Agree (Diagnostic.Revised r) A x y) : Agree r A (.ofExcept x) (.ofExcept y) :=
  ⟨r.notedNil.symm ▸ .nil, agree⟩

theorem pure {a : α} {b : β} (same : A a b) : Agree r A (Pure.pure a) (Pure.pure b) := ofExcept (.ok same)

theorem map {x : Outcome α} {y : Outcome β} {f : α → γ} {g : β → κ} (agree : Agree r A x y)
    (next : ∀ {a b}, A a b → B (f a) (g b)) : Agree r B (x.map f) (y.map g) :=
  agree.bind fun same => .pure (next same)

end Outcome.Agree

section Constructs

variable {r : Revision} {policy : CasePolicy} {set : InstructionSet} {scopes : ScopeStack}
  (under : scopes.Under policy) (keeps : r.Keeps policy)
include under keeps

theorem annotationOperandsRevised (location : Option Location) (es : List Expr) :
    (annotationOperands (scopes.revised r) (r.place location) (es.map (Expr.revised r))).1 =
        (annotationOperands scopes location es).1 ∧
      List.Forall₂ (Diagnostic.Revised r) (annotationOperands scopes location es).2
        (annotationOperands (scopes.revised r) (r.place location) (es.map (Expr.revised r))).2 := by
  induction es with
  | nil => exact ⟨rfl, .nil⟩
  | cons e rest ih =>
    have first := expressionRevised under keeps e
    simp only [List.map_cons, annotationOperands]
    rcases first.ends with ⟨v, w, done, again, same⟩ | ⟨d, e, failed, again, same⟩
    · rw [done, again]
      exact ⟨congrArg₂ List.cons same.symm ih.1, ih.2⟩
    · rw [failed, again]
      exact ⟨ih.1, .cons (same.within location) ih.2⟩

theorem annotationsAgree (as : List (AnnotationItem Expr)) :
    Outcome.Agree r (fun items others => others = annotationsRevised r id items) (annotations scopes as)
      (annotations (scopes.revised r) (annotationsRevised r (Expr.revised r) as)) := by
  unfold annotationsRevised
  cases annotated : r.annotated with
  | false =>
    refine ⟨?_, .ok rfl⟩
    rw [Revision.noted, annotated]
    exact .nil
  | true =>
    have operands (a : AnnotationItem Expr) := annotationOperandsRevised under keeps a.location a.operands
    refine ⟨?_, .ok ?_⟩
    · rw [Revision.noted, annotated]
      change List.Forall₂ _ (as.flatMap _) ((as.map _).flatMap _)
      induction as with
      | nil => exact .nil
      | cons a rest ih => exact List.rel_append (operands a).2 ih
    · simp only [if_true, List.map_map]
      refine List.map_congr_left fun a _ => ?_
      simp only [Function.comp_apply, annotationItem, AnnotationItem.revised, (operands a).1, List.map_id]

theorem gateNodeRevised (node : GateNode Expr) (parameter : Option Value) :
    Outcome.Agree r (fun n m => m = n.revised r id) (gateNode scopes node parameter)
      (gateNode (scopes.revised r) (node.revised r (Expr.revised r)) parameter) := by
  refine (annotationsAgree under keeps node.annotations).bind fun same => .pure ?_
  rw [same, GateNode.revised, GateNode.revised, Option.map_id]
  rfl

theorem namedParameterRevised (kept : r.Keeps set.policy) (node : GateNode Expr) :
    Agree (Diagnostic.Revised r) Eq (namedParameter set scopes node)
      (namedParameter set (scopes.revised r) (node.revised r (Expr.revised r))) := by
  refine placedRevised node.location ((optionalExpressionRevised under keeps node.parameter).bindEq fun given => ?_)
  exact unplacedRevised (InstructionSet.resolveParameterSpelled kept node.name given)

theorem modifierParameterRevised (node : GateNode Expr) :
    Agree (Diagnostic.Revised r) Eq (modifierParameter scopes node)
      (modifierParameter (scopes.revised r) (node.revised r (Expr.revised r))) := by
  refine placedRevised node.location ((optionalExpressionRevised under keeps node.parameter).bindEq fun given => ?_)
  refine (unplacedRevised (ScopeStack.resolveModifierRevised under keeps node.name given.toList)).bindEq ?_
  exact fun ⟨_, promoted⟩ => .pure rfl

theorem gateRevised (kept : r.Keeps set.policy) (g : Gate Expr) :
    Outcome.Agree r (fun h k => k = h.revised r id) (gate set scopes g)
      (gate set (scopes.revised r) (g.revised r (Expr.revised r))) := by
  induction g with
  | named node =>
    refine (Outcome.Agree.ofExcept (namedParameterRevised under keeps kept node)).bindEq fun parameter => ?_
    refine (gateNodeRevised under keeps node parameter).bind fun same => .pure ?_
    rw [same]
    rfl
  | modified node inner ih =>
    refine ih.bind fun {h k} same => ?_
    subst same
    refine (Outcome.Agree.ofExcept (modifierParameterRevised under keeps node)).bindEq fun parameter => ?_
    refine (gateNodeRevised under keeps node parameter).bind fun {n m} same => ?_
    subst same
    have whole : Gate.modified (n.revised r id) (h.revised r id) = (Gate.modified n h).revised r id := rfl
    refine Outcome.Agree.bindEq ?_ fun _ => .pure whole
    rw [whole, Gate.requireModifiableRevised kept]
    exact .ofExcept (placedRevised node.location (unplacedSame _))

theorem gateInstructionRevised (kept : r.Keeps set.policy) (i : Tree.GateInstruction) :
    Outcome.Agree r (fun g h => h = g.revised r) (gateInstruction set scopes i)
      (gateInstruction set (scopes.revised r) (i.revised r)) := by
  refine (gateRevised under keeps kept i.gate).bind fun {g h} same => ?_
  subst same
  refine (Outcome.Agree.ofExcept (expressionsRevised under keeps i.operands)).bindEq fun operands => ?_
  rw [Gate.resolutionNameRevised kept]
  have resolved := ScopeStack.resolveInstructionRevised under keeps (g.resolutionName set) operands
  refine (Outcome.Agree.ofExcept (unplacedRevised resolved)).bindEq fun ⟨instruction, promoted⟩ => ?_
  refine (Outcome.Agree.ofExcept (unplacedSame (Value.requireUniformQubits promoted))).bindEq fun _ => ?_
  refine (annotationsAgree under keeps i.annotations).bind fun same => .pure ?_
  rw [same]
  rfl

theorem nonGateInstructionRevised (kept : r.Keeps set.policy) (i : Tree.NonGateInstruction) :
    Outcome.Agree r (fun g h => h = g.revised r) (nonGateInstruction set scopes i)
      (nonGateInstruction set (scopes.revised r) (i.revised r)) := by
  refine (Outcome.Agree.ofExcept (optionalExpressionRevised under keeps i.parameter)).bindEq fun given => ?_
  refine (Outcome.Agree.ofExcept (expressionsRevised under keeps i.operands)).bindEq fun operands => ?_
  have resolved := ScopeStack.resolveInstructionRevised under keeps i.name operands
  refine (Outcome.Agree.ofExcept (unplacedRevised resolved)).bindEq fun ⟨instruction, promoted⟩ => ?_
  have parameter := InstructionSet.resolveParameterSpelled kept i.name given
  refine (Outcome.Agree.ofExcept (unplacedRevised parameter)).bindEq fun parameter => ?_
  refine (Outcome.Agree.ofExcept (unplacedSame (requirePairing set instruction promoted))).bindEq fun _ => ?_
  refine (annotationsAgree under keeps i.annotations).bind fun same => .pure ?_
  rw [same]
  rfl

theorem assignToRevised (target : Value) (value : Expr) (as : List (AnnotationItem Expr)) (location : Option Location) :
    Outcome.Agree r (fun g h => h = g.revised r) (assignTo scopes target value as location)
      (assignTo (scopes.revised r) target (value.revised r) (annotationsRevised r (Expr.revised r) as)
        (r.place location)) := by
  refine (Outcome.Agree.ofExcept (unplacedSame (requireAssignable target.type))).bindEq fun _ => ?_
  refine (Outcome.Agree.ofExcept (expressionRevised under keeps value)).bindEq fun given => ?_
  refine (Outcome.Agree.ofExcept (unplacedSame (coerce given target.type))).bindEq fun promoted => ?_
  refine (annotationsAgree under keeps as).bind fun same => .pure ?_
  rw [same]
  rfl

theorem assignmentRevised (a : Tree.Assignment) :
    Outcome.Agree r (fun g h => h = g.revised r) (assignment scopes a)
      (assignment (scopes.revised r) (a.revised r)) := by
  refine (Outcome.Agree.ofExcept (expressionRevised under keeps a.target)).bindEq fun target => ?_
  exact assignToRevised under keeps target a.value a.annotations a.location

end Constructs

theorem underModify {policy : CasePolicy} {s : ScopeStack} {f : Scope → Scope} (under : s.Under policy)
    (same : ∀ {scope}, scope.Under policy → (f scope).Under policy) : (s.modifyCurrent f).Under policy := by
  obtain ⟨own, nested, global⟩ := s
  cases nested with
  | nil => exact ⟨under.own, under.nested, same under.global⟩
  | cons inner outer =>
    obtain ⟨here, others⟩ := List.forall_mem_cons.mp under.nested
    exact ⟨under.own, List.forall_mem_cons.mpr ⟨same here, others⟩, under.global⟩

theorem underAddStatement {policy : CasePolicy} {s : ScopeStack} (under : s.Under policy) (st : Graph.Statement) :
    (s.addStatement st).Under policy :=
  underModify under fun here => ⟨here.vars, here.natives, here.functions, here.instructions, here.modifiers⟩

theorem underAddVariable {policy : CasePolicy} {s : State} (under : s.scopes.Under policy) (v : Variable) :
    (s.addVariable v).scopes.Under policy := by
  rw [State.addVariableScopes]
  exact underModify under fun here => ⟨here.vars, here.natives, here.functions, here.instructions, here.modifiers⟩

theorem underStep {policy : CasePolicy} {set : InstructionSet} {s t : State} (under : s.scopes.Under policy)
    (step : Step set s t) : t.scopes.Under policy := by
  cases step with
  | note => exact under
  | add => exact underAddStatement under _
  | declare => exact underAddVariable under _
  | openBlock =>
    refine ⟨under.own, List.forall_mem_cons.mpr ⟨?_, under.nested⟩, under.global⟩
    rw [under.own]
    exact Scope.emptyUnder policy
  | @closeBlock inner rest popped =>
    rw [ScopeStack.popOk popped] at under
    have outside : rest.Under policy := ⟨under.own, (List.forall_mem_cons.mp under.nested).2, under.global⟩
    exact underAddStatement outside _

theorem underReached {policy : CasePolicy} {set : InstructionSet} {s t : State} (under : s.scopes.Under policy)
    (reached : Reaches set s t) : t.scopes.Under policy :=
  invariantReached (I := fun u => u.scopes.Under policy) under (fun _ held step => underStep held step) reached

end Analysis

def Revision.heard (r : Revision) (xs : List Analysis.Raised) : List Diagnostic :=
  (xs.filter fun x => r.annotated || !x.inAnnotation).map Analysis.Raised.diagnostic

theorem Revision.heardNil (r : Revision) : r.heard [] = [] := rfl

theorem Revision.heardAppend (r : Revision) (xs ys : List Analysis.Raised) :
    r.heard (xs ++ ys) = r.heard xs ++ r.heard ys := by
  rw [heard, List.filter_append, List.map_append]
  rfl

theorem Revision.heardNoted (r : Revision) (ds : List Diagnostic) : r.heard (ds.map (⟨·, true⟩)) = r.noted ds := by
  unfold heard noted
  cases annotated : r.annotated <;> simp [List.filter_map, Function.comp_def]

theorem Revision.heardOther (r : Revision) (ds : List Diagnostic) : r.heard (ds.map (⟨·, false⟩)) = ds := by
  simp [heard, List.filter_map, Function.comp_def]

section Heard

variable {α : Type} (r : Revision) {x : Analysis.Outcome α} (location : Option Location)

theorem Revision.heardDone {a : α} (done : x.result = .ok a) : r.heard (x.raised location) = r.noted x.noted := by
  rw [Analysis.Outcome.raised, done, List.append_nil, heardNoted]

theorem Revision.heardFailed {d : Diagnostic} (failed : x.result = .error d) :
    r.heard (x.raised location) = r.noted x.noted ++ [d.within location] := by
  rw [Analysis.Outcome.raised, failed, heardAppend, heardNoted]
  exact congrArg (r.noted x.noted ++ ·) (r.heardOther [d.within location])

end Heard

namespace ScopeStack

theorem pushRevised (r : Revision) (s : ScopeStack) : s.push.revised r = (s.revised r).push := by
  simp only [push, revised, List.map_cons, Scope.revised, Scope.empty, Graph.Block.emptyRevised]

theorem popRevised (r : Revision) (s : ScopeStack) :
    (s.revised r).pop? = s.pop?.map fun found => (found.1.revised r, found.2.revised r) := by
  obtain ⟨policy, nested, global⟩ := s
  cases nested <;> rfl

end ScopeStack

namespace Analysis

/- `t` is where the revised run stands when the original stands at `s`, and `heard` is what it should have raised. -/
structure Follows (r : Revision) (heard : List Diagnostic) (s t : State) : Prop where
  scopes : t.scopes = s.scopes.revised r
  vars : t.vars = s.vars.map (Variable.revised r)
  diagnostics : List.Forall₂ (Diagnostic.Revised r) heard t.diagnostics

section Runs

variable {r : Revision} {policy : CasePolicy} {set : InstructionSet} {heard : List Diagnostic} {s t : State}

theorem Follows.note {ds es more : List Diagnostic} (follows : Follows r heard s t)
    (revised : List.Forall₂ (Diagnostic.Revised r) more es) : Follows r (heard ++ more) (s.note ds) (t.note es) :=
  ⟨follows.scopes, follows.vars, List.rel_append follows.diagnostics revised⟩

theorem Follows.addStatement (follows : Follows r heard s t) (st : Graph.Statement) :
    Follows r heard (s.addStatement st) (t.addStatement (st.revised r)) := by
  refine ⟨?_, follows.vars, follows.diagnostics⟩
  simp only [State.addStatement, follows.scopes, ScopeStack.addStatementRevised]

theorem Follows.commit {α β : Type} {A : α → β → Prop} {x : Outcome α} {y : Outcome β} {make : α → Graph.Statement}
    {remake : β → Graph.Statement} (follows : Follows r heard s t) (location : Option Location) (agree : x.Agree r A y)
    (same : ∀ {a b}, A a b → remake b = (make a).revised r) :
    Follows r (heard ++ r.heard (x.raised location)) (s.commit location (x.map make))
      (t.commit (r.place location) (y.map remake)) := by
  rw [← raisedMap x make]
  have mapped : Outcome.Agree r (fun st other => other = st.revised r) (x.map make) (y.map remake) := agree.map same
  generalize x.map make = x at mapped
  generalize y.map remake = y at mapped
  obtain ⟨noted, result⟩ := mapped
  unfold State.commit
  rcases result.ends with ⟨st, other, done, again, eq⟩ | ⟨d, e, failed, again, eq⟩
  · rw [done, again, r.heardDone location done, eq]
    exact (follows.note noted).addStatement st
  · rw [failed, again, r.heardFailed location failed, ← List.append_assoc]
    exact (follows.note noted).note (.cons (eq.within location) .nil)

theorem Follows.openBlock (follows : Follows r heard s t) : Follows r heard s.openBlock t.openBlock := by
  refine ⟨?_, follows.vars, follows.diagnostics⟩
  simp only [State.openBlock, follows.scopes, ScopeStack.pushRevised]

theorem Follows.closeBlock (follows : Follows r heard s t) : Follows r heard s.closeBlock t.closeBlock := by
  unfold State.closeBlock
  rw [follows.scopes, ScopeStack.popRevised]
  cases s.scopes.pop? with
  | none => exact follows
  | some found =>
    refine ⟨?_, follows.vars, follows.diagnostics⟩
    simp only [Option.map_some, ScopeStack.addStatementRevised, ← Graph.Block.toStatementRevised]
    rfl

theorem Follows.addVariable (follows : Follows r heard s t) (under : s.scopes.Under policy) (keeps : r.Keeps policy)
    (v : Variable) : Follows r heard (s.addVariable v) (t.addVariable (v.revised r)) := by
  have count : t.vars.length = s.vars.length := by rw [follows.vars, List.length_map]
  have current : s.scopes.current.Under policy := under.scopes _ (by simp [ScopeStack.scopesEq])
  refine ⟨?_, ?_, follows.diagnostics⟩
  · rw [State.addVariableScopes, State.addVariableScopes, follows.scopes, count]
    refine (s.scopes.modifyRevised r ?_).symm
    simp only [State.withVariable, Scope.revised, Scope.addVariable, Scope.addBlockVariable, Variable.revised,
      VariableTable.addSpelled (current.vars ▸ keeps)]
    rfl
  · change t.vars ++ [_] = (s.vars ++ [v]).map _
    rw [follows.vars, List.map_append]
    rfl

theorem Follows.declares (follows : Follows r heard s t) (under : s.scopes.Under policy) (keeps : r.Keeps policy)
    (name : String) : t.declares (r.spelling name) = s.declares name := by
  have kept : r.Keeps s.scopes.policy := under.own ▸ keeps
  have policies : t.scopes.policy = s.scopes.policy := by rw [follows.scopes]; rfl
  have blocks : t.scopes.current.block.vars = s.scopes.current.block.vars := by
    rw [follows.scopes, ScopeStack.currentRevised]
    rfl
  simp only [State.declares, policies, blocks, follows.vars, List.getElem?_map, kept name]
  congr 1
  funext id
  cases s.vars[id]? with
  | none => rfl
  | some v => exact congrArg (· == _) (kept v.name)

theorem declaredVariableRevised (follows : Follows r heard s t) (under : s.scopes.Under policy) (keeps : r.Keeps policy)
    (d : Tree.Declaration) :
    Outcome.Agree r (fun v w => w = v.revised r) (declaredVariable s d) (declaredVariable t (d.revised r)) := by
  have type : declaredType (d.revised r) = declaredType d := rfl
  have taken : t.declares (d.revised r).name = s.declares d.name := follows.declares under keeps d.name
  have rest (type : Ty) : Outcome.Agree r (fun v w => w = v.revised r)
      (annotations s.scopes d.annotations >>= fun items =>
        pure (⟨d.name, type, items, d.nameLocation.or d.location⟩ : Variable))
      (annotations t.scopes (d.revised r).annotations >>= fun items =>
        pure ⟨(d.revised r).name, type, items, (d.revised r).nameLocation.or (d.revised r).location⟩) := by
    rw [follows.scopes]
    refine (annotationsAgree under keeps d.annotations).bind fun same => .pure ?_
    rw [same, Variable.revised, r.innermost]
    rfl
  rw [declaredVariable, declaredVariable, type, taken]
  refine (Outcome.Agree.ofExcept (unplacedSame (declaredType d))).bindEq fun type => ?_
  split
  · have refused : Agree (Fault.Revised r) Eq (.error (.redeclared d.name) : Except Fault PUnit)
        (.error (.redeclared (d.revised r).name)) := .error (.spelled (.redeclared d.name))
    exact (Outcome.Agree.ofExcept (unplacedRevised refused)).bindEq fun _ => rest type
  · exact rest type

theorem assignInitialRevised (follows : Follows r heard s t) (under : s.scopes.Under policy) (keeps : r.Keeps policy)
    (d : Tree.Declaration) (target : Value) :
    Follows r (heard ++ r.heard (initialRaised s d target)) (assignInitial s d target)
      (assignInitial t (d.revised r) target) := by
  unfold assignInitial initialRaised
  cases given : d.initializer with
  | none =>
    simp only [Tree.Declaration.revised, given, Option.map_none]
    rw [r.heardNil, List.append_nil]
    exact follows
  | some value =>
    simp only [Tree.Declaration.revised, given, Option.map_some]
    have agree := assignToRevised under keeps target value [] d.location
    rw [← follows.scopes, show annotationsRevised r (Expr.revised r) [] = [] by simp [annotationsRevised]] at agree
    exact follows.commit d.location agree fun same => by rw [same, Graph.Statement.revised]

theorem declareRevised (follows : Follows r heard s t) (under : s.scopes.Under policy) (keeps : r.Keeps policy)
    (d : Tree.Declaration) :
    Follows r (heard ++ r.heard (declareRaised s d)) (declare s d) (declare t (d.revised r)) := by
  obtain ⟨noted, result⟩ := declaredVariableRevised follows under keeps d
  have count : t.vars.length = s.vars.length := by rw [follows.vars, List.length_map]
  unfold declare declareRaised
  rcases result.ends with ⟨v, w, done, again, eq⟩ | ⟨e, f, failed, again, eq⟩
  · simp only [done, again, r.heardAppend, r.heardDone d.location done, ← List.append_assoc, count]
    subst eq
    have noting : Follows r _ (s.note (declaredVariable s d).noted) _ := follows.note noted
    exact assignInitialRevised (noting.addVariable under keeps v) (underAddVariable under v) keeps d _
  · simp only [failed, again, List.append_nil, r.heardFailed d.location failed, ← List.append_assoc]
    exact (follows.note noted).note (.cons (eq.within d.location) .nil)

mutual

theorem statementRevised (keeps : r.Keeps policy) (kept : r.Keeps set.policy) {heard : List Diagnostic} {s t : State} :
    (tree : Tree.Statement) → Follows r heard s t → s.scopes.Under policy →
      Follows r (heard ++ r.heard (statementRaised set s tree)) (statement set s tree)
        (statement set t (tree.revised r))
  | .declare d, follows, under => by
    rw [statement, statementRaised, Tree.Statement.revised, statement]
    exact declareRevised follows under keeps d
  | .gate i, follows, under => by
    rw [statement, statementRaised, Tree.Statement.revised, statement, follows.scopes]
    exact follows.commit i.location (gateInstructionRevised under keeps kept i) fun same => by
      rw [same, Graph.Statement.revised]
  | .nonGate i, follows, under => by
    rw [statement, statementRaised, Tree.Statement.revised, statement, follows.scopes]
    exact follows.commit i.location (nonGateInstructionRevised under keeps kept i) fun same => by
      rw [same, Graph.Statement.revised]
  | .assign a, follows, under => by
    rw [statement, statementRaised, Tree.Statement.revised, statement, follows.scopes]
    exact follows.commit a.location (assignmentRevised under keeps a) fun same => by
      rw [same, Graph.Statement.revised]
  | .block body location, follows, under => by
    rw [statement, statementRaised, Tree.Statement.revised, statement]
    have opened : Step set s s.openBlock := .openBlock s
    exact (statementsRevised keeps kept body follows.openBlock (underStep under opened)).closeBlock

theorem statementsRevised (keeps : r.Keeps policy) (kept : r.Keeps set.policy) {heard : List Diagnostic} {s t : State} :
    (trees : List Tree.Statement) → Follows r heard s t → s.scopes.Under policy →
      Follows r (heard ++ r.heard (statementsRaised set s trees)) (statements set s trees)
        (statements set t (Tree.statementsRevised r trees))
  | [], follows, under => by
    rw [statements, statementsRaised, Tree.statementsRevised, statements, r.heardNil, List.append_nil]
    exact follows
  | first :: rest, follows, under => by
    rw [statements, statementsRaised, Tree.statementsRevised, statements, r.heardAppend, ← List.append_assoc]
    exact statementsRevised keeps kept rest (statementRevised keeps kept first follows under)
      (underReached under (statementReaches s first))

end

end Runs

end Analysis

end Cqasm
