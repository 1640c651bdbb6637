import Cqasm.Proofs.Correspondence
import Cqasm.Proofs.Origins
import Cqasm.Proofs.Raised

/-! Where diagnostics point, and in which order they come. The diagnostics of a program are those of its statements, one
statement after the other. Each is placed at a node of its statement, unless a registered function has placed it, and a
statement that is left out of the analysed program ends its own with the one that stopped it. -/
namespace Cqasm

open Cqasm.Graph (Variable)
open Cqasm.Tree (Expr IndexEntry)

namespace Tree

mutual

def Expr.places : Expr → List (Option Location)
  | .literal _ location => [location]
  | .name _ location => [location]
  | .index base entries location => location :: (base.places ++ entryPlacesIn entries)
  | .apply _ arguments location => location :: placesIn arguments
  | .list items location => location :: placesIn items

def placesIn : List Expr → List (Option Location)
  | [] => []
  | e :: rest => e.places ++ placesIn rest

def entryPlaces : IndexEntry Expr → List (Option Location)
  | .item e => e.places
  | .range first last => first.places ++ last.places

def entryPlacesIn : List (IndexEntry Expr) → List (Option Location)
  | [] => []
  | entry :: rest => entryPlaces entry ++ entryPlacesIn rest

end

def annotationPlaces (as : List (AnnotationItem Expr)) : List (Option Location) :=
  as.flatMap fun a => a.location :: placesIn a.operands

def nodePlaces (node : GateNode Expr) : List (Option Location) :=
  node.location :: (placesIn node.parameter.toList ++ annotationPlaces node.annotations)

def gatePlaces (g : Gate Expr) : List (Option Location) := g.nodes.flatMap nodePlaces

mutual

def Statement.places : Statement → List (Option Location)
  | .declare d => d.location :: (placesIn d.initializer.toList ++ annotationPlaces d.annotations)
  | .gate i => i.location :: (gatePlaces i.gate ++ placesIn i.operands ++ annotationPlaces i.annotations)
  | .nonGate i => i.location :: (placesIn i.parameter.toList ++ placesIn i.operands ++ annotationPlaces i.annotations)
  | .assign a => a.location :: (a.target.places ++ a.value.places ++ annotationPlaces a.annotations)
  | .block body location => location :: statementPlacesIn body

def statementPlacesIn : List Statement → List (Option Location)
  | [] => []
  | first :: rest => first.places ++ statementPlacesIn rest

end

def Statement.isBlock : Statement → Bool
  | .block _ _ => true
  | _ => false

def Statement.variableCount : Statement → Nat
  | .declare _ => 1
  | _ => 0

def Statement.statementCount : Statement → Nat
  | .declare d => d.initializer.toList.length
  | _ => 1

def Statement.Dropped (st : Statement) (ids : List Nat) (ss : List Graph.Statement) : Prop :=
  ids.length < st.variableCount ∨ ss.length < st.statementCount

structure Program.Located (p : Program) : Prop where
  version : p.versionLocation.isSome = true
  statements : ∀ l ∈ statementPlacesIn p.statements, l.isSome = true

theorem ownPlace (e : Expr) : e.location ∈ e.places := by
  cases e <;> simp [Expr.location, Expr.places]

theorem memPlacesIn {e : Expr} {es : List Expr} (member : e ∈ es) : e.places ⊆ placesIn es := by
  induction es with
  | nil => cases member
  | cons first rest ih =>
    rcases List.mem_cons.mp member with rfl | later
    · exact List.subset_append_left _ _
    · exact List.Subset.trans (ih later) (List.subset_append_right _ _)

end Tree

namespace Analysis

open Cqasm.Tree (placesIn entryPlaces entryPlacesIn annotationPlaces nodePlaces gatePlaces statementPlacesIn)

/- Placed where the property says. A place that a registered function has given stands. -/
structure Blamed (natives : OverloadTable Native) (P : Option Location → Prop) (d : Diagnostic) : Prop where
  brought {l : Location} : d.fault.place = some l → d.location = some l ∧ natives.Raises d.fault
  found : d.fault.place = none → P d.location

def Blames {α : Type} (natives : OverloadTable Native) (P : Option Location → Prop) (r : Except Diagnostic α) : Prop :=
  ∀ d, r = .error d → Blamed natives P d

def Near (places : List (Option Location)) (l : Option Location) : Prop := l = none ∨ l ∈ places

theorem Near.mono {places more : List (Option Location)} {l : Option Location} (near : Near places l)
    (wider : places ⊆ more) : Near more l := near.imp_right (wider ·)

theorem placesFirst (first second third : List (Option Location)) : first ⊆ first ++ second ++ third := by
  rw [List.append_assoc]
  exact List.subset_append_left _ _

theorem placesSecond (first second third : List (Option Location)) : second ⊆ first ++ second ++ third :=
  List.Subset.trans (List.subset_append_right _ _) (List.subset_append_left _ _)

theorem withinGiven {d : Diagnostic} {l : Location} (given : d.location = some l) (location : Option Location) :
    (d.within location).location = some l := by
  rw [Diagnostic.within, given, Option.some_or]

theorem Blamed.within {natives : OverloadTable Native} {places : List (Option Location)} {d : Diagnostic}
    (near : Blamed natives (Near places) d) (location : Option Location) :
    Blamed natives (· ∈ location :: places) (d.within location) where
  brought own := ⟨withinGiven (near.brought own).1 location, (near.brought own).2⟩
  found own := by
    cases given : d.location with
    | none =>
      rw [Diagnostic.within, given]
      exact List.mem_cons_self
    | some l =>
      have member := near.found own
      rw [given] at member
      rw [withinGiven given]
      rcases member with none | member
      · cases none
      · exact List.mem_cons_of_mem _ member

section Blames

variable {α β : Type} {natives : OverloadTable Native} {P Q : Option Location → Prop}
  {places : List (Option Location)}

theorem Blamed.mono {d : Diagnostic} (blamed : Blamed natives P d) (weaker : ∀ {l}, P l → Q l) : Blamed natives Q d :=
  ⟨blamed.brought, fun own => weaker (blamed.found own)⟩

theorem Blames.mono {r : Except Diagnostic α} (blames : Blames natives P r) (weaker : ∀ {l}, P l → Q l) :
    Blames natives Q r := fun d failed => (blames d failed).mono weaker

theorem blamesOk (a : α) : Blames natives P (.ok a) := by
  intro d failed
  cases failed

theorem blamesUnplaced {r : Except Fault α} (placeless : Placeless r) : Blames natives (Near places) (unplaced r) := by
  intro d failed
  obtain ⟨fault, refused, rfl⟩ := unplacedError.mp failed
  have own := placeless fault refused
  exact ⟨fun brought => (nomatch own.symm.trans brought), fun _ => .inl own⟩

theorem blamesResolved (scopes : ScopeStack) (function : String) (arguments : List Value) :
    Blames scopes.global.natives (Near places) (unplaced (scopes.resolveFunction function arguments)) := by
  intro d failed
  obtain ⟨fault, refused, rfl⟩ := unplacedError.mp failed
  exact ⟨fun brought => ⟨brought, Scope.resolveFunctionRaises refused brought⟩, .inl⟩

theorem Blames.bind {x : Except Diagnostic α} {f : α → Except Diagnostic β} (first : Blames natives P x)
    (next : ∀ a, Blames natives P (f a)) : Blames natives P (x >>= f) := by
  intro d failed
  cases x with
  | error e =>
    cases failed
    exact first d rfl
  | ok a => exact next a d failed

theorem Blames.map {x : Except Diagnostic α} (first : Blames natives P x) (f : α → β) :
    Blames natives P (x.map f) := by
  intro d failed
  cases x with
  | error e =>
    cases failed
    exact first d rfl
  | ok a => cases failed

theorem Blames.placed {r : Except Diagnostic α} (blames : Blames natives (Near places) r)
    (location : Option Location) : Blames natives (· ∈ location :: places) (Analysis.placed location r) := by
  intro d failed
  obtain ⟨own, refused, rfl⟩ := placedError.mp failed
  exact (blames own refused).within location

theorem blamesPlaced {r : Except Fault α} (placeless : Placeless r) (location : Option Location) :
    Blames natives (· = location) (Analysis.placed location (unplaced r)) :=
  ((blamesUnplaced placeless).placed location).mono List.mem_singleton.mp

theorem Blames.near {r : Except Diagnostic α} (blames : Blames natives (· ∈ places) r)
    {more : List (Option Location)} (wider : places ⊆ more) : Blames natives (Near more) r :=
  blames.mono fun member => .inr (wider member)

theorem Outcome.blamesBind {x : Outcome α} {f : α → Outcome β} (first : Blames natives P x.result)
    (next : ∀ a, Blames natives P (f a).result) : Blames natives P (x >>= f).result := by
  obtain ⟨noted, result⟩ := x
  cases result with
  | error e =>
    intro d failed
    cases failed
    exact first e rfl
  | ok a => exact next a

end Blames

section Constructs

variable {set : InstructionSet} {scopes : ScopeStack} {natives : OverloadTable Native}

theorem constantBlames (e : Expr) (value : Value) {places : List (Option Location)} (inside : e.places ⊆ places) :
    Blames natives (Near places) (placed e.location (unplaced (constantInt value))) := by
  refine (blamesPlaced (constantIntPlaceless value) e.location).mono fun here => .inr (inside ?_)
  rw [here]
  exact Tree.ownPlace e

mutual

theorem expressionBlames : (e : Expr) → Blames scopes.global.natives (· ∈ e.places) (expression scopes e)
  | .literal _ _ => blamesOk _
  | .name name location => (blamesUnplaced (scopes.resolveVariablePlaceless name)).placed location
  | .index base entries location => by
    rw [expression, Expr.places]
    refine Blames.placed ?_ location
    refine ((expressionBlames base).near (List.subset_append_left _ _)).bind fun value => ?_
    refine (blamesUnplaced (indexablePlaceless value)).bind fun _ => ?_
    refine ((entriesBlame _ entries).mono (·.mono (List.subset_append_right _ _))).bind fun _ => ?_
    exact blamesOk _
  | .apply function arguments location => by
    rw [expression, Expr.places]
    refine Blames.placed ?_ location
    exact ((expressionsBlame arguments).near (List.Subset.refl _)).bind fun _ => blamesResolved scopes function _
  | .list items location => by
    rw [expression, Expr.places]
    refine Blames.placed ?_ location
    refine ((expressionsBlame items).near (List.Subset.refl _)).bind fun values => ?_
    exact blamesUnplaced (initializationListPlaceless values)

theorem expressionsBlame : (es : List Expr) →
    Blames scopes.global.natives (· ∈ placesIn es) (expressions scopes es)
  | [] => blamesOk _
  | e :: rest => by
    rw [expressions, placesIn]
    refine ((expressionBlames e).mono (List.mem_append_left _ ·)).bind fun _ => ?_
    refine ((expressionsBlame rest).mono (List.mem_append_right _ ·)).bind fun _ => ?_
    exact blamesOk _

theorem entryBlames (size : Int) : (entry : IndexEntry Expr) →
    Blames scopes.global.natives (Near (entryPlaces entry)) (indexEntry scopes size entry)
  | .item e => by
    rw [indexEntry, entryPlaces]
    refine ((expressionBlames e).near (List.Subset.refl _)).bind fun value => ?_
    refine (constantBlames e value (List.Subset.refl _)).bind fun index => ?_
    exact blamesUnplaced (singleIndexPlaceless size index)
  | .range first last => by
    rw [indexEntry, entryPlaces]
    refine ((expressionBlames first).near (List.subset_append_left _ _)).bind fun firstValue => ?_
    refine (constantBlames first firstValue (List.subset_append_left _ _)).bind fun start => ?_
    refine ((expressionBlames last).near (List.subset_append_right _ _)).bind fun lastValue => ?_
    refine (constantBlames last lastValue (List.subset_append_right _ _)).bind fun stop => ?_
    exact blamesUnplaced (indexRangePlaceless size start stop)

theorem entriesBlame (size : Int) : (entries : List (IndexEntry Expr)) →
    Blames scopes.global.natives (Near (entryPlacesIn entries)) (indexEntries scopes size entries)
  | [] => blamesOk _
  | entry :: rest => by
    rw [indexEntries, entryPlacesIn]
    refine ((entryBlames size entry).mono (·.mono (List.subset_append_left _ _))).bind fun _ => ?_
    refine ((entriesBlame size rest).mono (·.mono (List.subset_append_right _ _))).bind fun _ => ?_
    exact blamesOk _

end

theorem optionalBlames (e : Option Expr) :
    Blames scopes.global.natives (· ∈ placesIn e.toList) (optionalExpression scopes e) := by
  cases e with
  | none => exact blamesOk _
  | some e => exact ((expressionBlames e).map some).mono (Tree.memPlacesIn (List.mem_singleton.mpr rfl) ·)

theorem namedParameterBlames (node : GateNode Expr) :
    Blames scopes.global.natives (· ∈ node.location :: placesIn node.parameter.toList)
      (namedParameter set scopes node) := by
  refine Blames.placed ?_ node.location
  refine ((optionalBlames node.parameter).near (List.Subset.refl _)).bind fun parameter => ?_
  exact blamesUnplaced (set.resolveParameterPlaceless node.name parameter)

theorem modifierParameterBlames (node : GateNode Expr) :
    Blames scopes.global.natives (· ∈ node.location :: placesIn node.parameter.toList)
      (modifierParameter scopes node) := by
  refine Blames.placed ?_ node.location
  refine ((optionalBlames node.parameter).near (List.Subset.refl _)).bind fun parameter => ?_
  exact (blamesUnplaced (scopes.global.modifiers.resolvePlaceless _ _)).bind fun _ => blamesOk _

theorem gateNodeBlames {P : Option Location → Prop} (node : GateNode Expr) (parameter : Option Value) :
    Blames natives P (gateNode scopes node parameter).result :=
  Outcome.blamesBind (blamesOk _) fun _ => blamesOk _

theorem parameterPlaces (node : GateNode Expr) : node.location :: placesIn node.parameter.toList ⊆ nodePlaces node :=
  List.cons_subset_cons _ (List.subset_append_left _ _)

theorem gateBlames (g : Gate Expr) :
    Blames scopes.global.natives (Near (gatePlaces g)) (gate set scopes g).result := by
  induction g with
  | named node =>
    have own : nodePlaces node ⊆ gatePlaces (.named node) := by simp [gatePlaces, Gate.nodes]
    refine Outcome.blamesBind ?_ fun parameter => ?_
    · exact (namedParameterBlames node).near (List.Subset.trans (parameterPlaces node) own)
    · exact Outcome.blamesBind (gateNodeBlames node parameter) fun _ => blamesOk _
  | modified node inner ih =>
    have own : nodePlaces node ⊆ gatePlaces (.modified node inner) := by simp [gatePlaces, Gate.nodes]
    have below : gatePlaces inner ⊆ gatePlaces (.modified node inner) := by simp [gatePlaces, Gate.nodes]
    refine Outcome.blamesBind (ih.mono (·.mono below)) fun _ => ?_
    refine Outcome.blamesBind ?_ fun parameter => ?_
    · exact (modifierParameterBlames node).near (List.Subset.trans (parameterPlaces node) own)
    refine Outcome.blamesBind (gateNodeBlames node parameter) fun _ => Outcome.blamesBind ?_ fun _ => blamesOk _
    refine (blamesPlaced (Gate.requireModifiablePlaceless set _) node.location).mono fun here => .inr (own ?_)
    rw [here]
    exact List.mem_cons_self

theorem gateInstructionBlames (i : Tree.GateInstruction) :
    Blames scopes.global.natives (Near (gatePlaces i.gate ++ placesIn i.operands ++ annotationPlaces i.annotations))
      (gateInstruction set scopes i).result := by
  refine Outcome.blamesBind ((gateBlames i.gate).mono (·.mono (placesFirst ..))) fun _ => ?_
  refine Outcome.blamesBind ((expressionsBlame i.operands).near (placesSecond ..)) fun operands => ?_
  refine Outcome.blamesBind (blamesUnplaced (scopes.resolveInstructionPlaceless _ operands)) fun resolved => ?_
  refine Outcome.blamesBind (blamesUnplaced (Value.requireUniformQubitsPlaceless resolved.2)) fun _ => ?_
  exact Outcome.blamesBind (blamesOk _) fun _ => blamesOk _

theorem nonGateInstructionBlames (i : Tree.NonGateInstruction) :
    Blames scopes.global.natives
      (Near (placesIn i.parameter.toList ++ placesIn i.operands ++ annotationPlaces i.annotations))
      (nonGateInstruction set scopes i).result := by
  refine Outcome.blamesBind ((optionalBlames i.parameter).near (placesFirst ..)) fun given => ?_
  refine Outcome.blamesBind ((expressionsBlame i.operands).near (placesSecond ..)) fun operands => ?_
  refine Outcome.blamesBind (blamesUnplaced (scopes.resolveInstructionPlaceless i.name operands)) fun resolved => ?_
  refine Outcome.blamesBind (blamesUnplaced (set.resolveParameterPlaceless i.name given)) fun _ => ?_
  refine Outcome.blamesBind (blamesUnplaced (requirePairingPlaceless set resolved.1 resolved.2)) fun _ => ?_
  exact Outcome.blamesBind (blamesOk _) fun _ => blamesOk _

theorem assignToBlames (target : Value) (value : Expr) (as : List (AnnotationItem Expr)) (location : Option Location) :
    Blames scopes.global.natives (Near value.places) (assignTo scopes target value as location).result := by
  refine Outcome.blamesBind (blamesUnplaced (requireAssignablePlaceless target.type)) fun _ => ?_
  refine Outcome.blamesBind ((expressionBlames value).near (List.Subset.refl _)) fun given => ?_
  refine Outcome.blamesBind (blamesUnplaced (coercePlaceless given target.type)) fun _ => ?_
  exact Outcome.blamesBind (blamesOk _) fun _ => blamesOk _

theorem assignmentBlames (a : Tree.Assignment) :
    Blames scopes.global.natives (Near (a.target.places ++ a.value.places ++ annotationPlaces a.annotations))
      (assignment scopes a).result := by
  refine Outcome.blamesBind ((expressionBlames a.target).near (placesFirst ..)) fun target => ?_
  exact (assignToBlames target a.value a.annotations a.location).mono (·.mono (placesSecond ..))

theorem declaredVariableBlames {places : List (Option Location)} (s : State) (d : Tree.Declaration) :
    Blames natives (Near places) (declaredVariable s d).result := by
  refine Outcome.blamesBind (blamesUnplaced (declaredTypePlaceless d)) fun _ => ?_
  split
  · refine Outcome.blamesBind (blamesUnplaced (placelessError rfl)) fun _ => ?_
    exact Outcome.blamesBind (blamesOk _) fun _ => blamesOk _
  · exact Outcome.blamesBind (blamesOk _) fun _ => blamesOk _

theorem operandPlace {as : List (AnnotationItem Expr)} {d : Diagnostic} (fault : OperandFault scopes as d) :
    Blamed scopes.global.natives (· ∈ annotationPlaces as) d := by
  obtain ⟨a, member, e, operand, found, failed, rfl⟩ := fault
  have near : Blamed scopes.global.natives (Near (placesIn a.operands)) found :=
    (expressionBlames e).near (Tree.memPlacesIn operand) found failed
  exact (near.within a.location).mono fun inside => List.mem_flatMap.mpr ⟨a, member, inside⟩

theorem gateAnnotationPlaces (g : Gate Expr) : annotationPlaces g.annotations ⊆ gatePlaces g := by
  intro l member
  obtain ⟨a, given, here⟩ := List.mem_flatMap.mp member
  obtain ⟨node, inside, own⟩ := List.mem_flatMap.mp given
  have annotated : l ∈ annotationPlaces node.annotations := List.mem_flatMap.mpr ⟨a, own, here⟩
  exact List.mem_flatMap.mpr ⟨node, inside, List.mem_cons_of_mem _ (List.mem_append_right _ annotated)⟩

theorem raisedInside {α : Type} {x : Outcome α} {as : List (AnnotationItem Expr)} {places : List (Option Location)}
    (noting : x.Noting (OperandFault scopes as)) (blames : Blames scopes.global.natives (Near places) x.result)
    (annotated : annotationPlaces as ⊆ places) (location : Option Location) :
    ∀ r ∈ x.raised location, Blamed scopes.global.natives (· ∈ location :: places) r.diagnostic := by
  intro r member
  rcases List.mem_append.mp member with noted | failed
  · obtain ⟨d, found, rfl⟩ := List.mem_map.mp noted
    exact (operandPlace (noting d found)).mono fun inside => List.mem_cons_of_mem _ (annotated inside)
  · cases result : x.result with
    | ok a => simp [result] at failed
    | error d =>
      rw [result] at failed
      cases List.mem_singleton.mp failed
      exact (blames d result).within location

theorem declareRaisedInside (s : State) (d : Tree.Declaration) :
    ∀ r ∈ declareRaised s d,
      Blamed s.scopes.global.natives (· ∈ (Tree.Statement.declare d).places) r.diagnostic := by
  intro r member
  rw [Tree.Statement.places]
  rcases List.mem_append.mp member with here | initial
  · exact raisedInside (declaredVariableRaises s d) (declaredVariableBlames s d) (List.subset_append_right _ _)
      d.location r here
  · cases result : (declaredVariable s d).result with
    | error diagnostic => simp [result] at initial
    | ok v =>
      rw [result] at initial
      dsimp only [initialRaised] at initial
      cases given : d.initializer with
      | none => simp [given] at initial
      | some value =>
        rw [given] at initial
        have inside := raisedInside (assignToRaises _ value [] d.location) (assignToBlames _ value [] d.location)
          (List.nil_subset _) d.location r initial
        rw [nativesComposes.addVariable] at inside
        refine inside.mono fun here => List.cons_subset_cons _ (List.Subset.trans ?_ (List.subset_append_left _ _)) here
        exact Tree.memPlacesIn (List.mem_singleton.mpr rfl)

mutual

theorem statementRaisedInside (s : State) : (tree : Tree.Statement) →
    ∀ r ∈ statementRaised set s tree, Blamed s.scopes.global.natives (· ∈ tree.places) r.diagnostic
  | .declare d, r, member => by
    rw [statementRaised] at member
    exact declareRaisedInside s d r member
  | .gate i, r, member => by
    rw [statementRaised] at member
    refine raisedInside (gateInstructionRaises i) (gateInstructionBlames i) ?_ i.location r member
    rw [annotationPlaces, List.flatMap_append]
    exact List.append_subset.mpr
      ⟨List.Subset.trans (gateAnnotationPlaces i.gate) (placesFirst ..), List.subset_append_right _ _⟩
  | .nonGate i, r, member => by
    rw [statementRaised] at member
    exact raisedInside (nonGateInstructionRaises i) (nonGateInstructionBlames i) (List.subset_append_right _ _)
      i.location r member
  | .assign a, r, member => by
    rw [statementRaised] at member
    exact raisedInside (assignmentRaises a) (assignmentBlames a) (List.subset_append_right _ _) a.location r member
  | .block body location, r, member => by
    rw [statementRaised] at member
    exact (statementsRaisedInside s.openBlock body r member).mono (List.mem_cons_of_mem _ ·)

theorem statementsRaisedInside (s : State) : (trees : List Tree.Statement) →
    ∀ r ∈ statementsRaised set s trees, Blamed s.scopes.global.natives (· ∈ statementPlacesIn trees) r.diagnostic
  | [], r, member => by
    rw [statementsRaised] at member
    cases member
  | first :: rest, r, member => by
    rw [statementsRaised] at member
    rcases List.mem_append.mp member with here | later
    · exact (statementRaisedInside s first r here).mono (List.mem_append_left _ ·)
    · have inside := statementsRaisedInside (statement set s first) rest r later
      rw [nativesComposes.statement] at inside
      exact inside.mono (List.mem_append_right _ ·)

end

end Constructs

section Segments

variable (set : InstructionSet)

def recorded (s : State) (tree : Tree.Statement) : List Diagnostic :=
  (statement set s tree).diagnostics.drop s.diagnostics.length

def segments (s : State) : List Tree.Statement → List (List Diagnostic)
  | [] => []
  | first :: rest => recorded set s first :: segments (statement set s first) rest

theorem recordedEq (s : State) (tree : Tree.Statement) :
    recorded set s tree = (statementRaised set s tree).map Raised.diagnostic := by
  rw [recorded, statementDiagnostics, List.drop_left]

theorem recordedInside (s : State) (tree : Tree.Statement) :
    ∀ d ∈ recorded set s tree, Blamed s.scopes.global.natives (· ∈ tree.places) d := by
  intro d member
  rw [recordedEq] at member
  obtain ⟨r, raised, rfl⟩ := List.mem_map.mp member
  exact statementRaisedInside s tree r raised

theorem segmentsFlatten (s : State) (trees : List Tree.Statement) :
    (segments set s trees).flatten = (statementsRaised set s trees).map Raised.diagnostic := by
  induction trees generalizing s with
  | nil => rfl
  | cons first rest ih =>
    rw [segments, List.flatten_cons, ih, recordedEq, statementsRaised, List.map_append]

theorem segmentsInside (s : State) (trees : List Tree.Statement) :
    List.Forall₂ (fun tree segment => ∀ d ∈ segment, Blamed s.scopes.global.natives (· ∈ tree.places) d) trees
      (segments set s trees) := by
  induction trees generalizing s with
  | nil => exact .nil
  | cons first rest ih =>
    have later := ih (statement set s first)
    rw [nativesComposes.statement] at later
    exact .cons (recordedInside set s first) later

end Segments

section Failures

variable {α : Type}

def Outcome.failure (x : Outcome α) (location : Option Location) : Option Diagnostic :=
  match x.result with
  | .ok _ => none
  | .error d => some (d.within location)

def initialFailure (s : State) (d : Tree.Declaration) (target : Value) : Option Diagnostic :=
  match d.initializer with
  | none => none
  | some value => (assignTo s.scopes target value [] d.location).failure d.location

def declareFailure (s : State) (d : Tree.Declaration) : Option Diagnostic :=
  match (declaredVariable s d).result with
  | .ok v => initialFailure (s.addVariable v) d (.reference s.vars.length v.type)
  | .error found => some (found.within d.location)

/- What stops the analysis of a statement. A declaration is stopped by its initializer too, and then the variable stays
without one. Blocks go on after a fault. -/
def failure (set : InstructionSet) (s : State) : Tree.Statement → Option Diagnostic
  | .declare d => declareFailure s d
  | .gate i => (gateInstruction set s.scopes i).failure i.location
  | .nonGate i => (nonGateInstruction set s.scopes i).failure i.location
  | .assign a => (assignment s.scopes a).failure a.location
  | .block _ _ => none

theorem raisedEnds (x : Outcome α) (location : Option Location) :
    (x.raised location).map Raised.diagnostic = x.noted ++ (x.failure location).toList := by
  obtain ⟨noted, result⟩ := x
  cases result <;> simp [Outcome.raised, Outcome.failure, Function.comp_def]

theorem initialEnds (s : State) (d : Tree.Declaration) (target : Value) :
    ∃ earlier, (initialRaised s d target).map Raised.diagnostic = earlier ++ (initialFailure s d target).toList := by
  unfold initialRaised initialFailure
  cases d.initializer with
  | none => exact ⟨[], rfl⟩
  | some value => exact ⟨_, raisedEnds _ _⟩

theorem declareEnds (s : State) (d : Tree.Declaration) :
    ∃ earlier, (declareRaised s d).map Raised.diagnostic = earlier ++ (declareFailure s d).toList := by
  rw [declareRaised, declareFailure, List.map_append, raisedEnds, Outcome.failure]
  cases (declaredVariable s d).result with
  | error found => exact ⟨(declaredVariable s d).noted, List.append_nil _⟩
  | ok v =>
    obtain ⟨earlier, ends⟩ := initialEnds (s.addVariable v) d (.reference s.vars.length v.type)
    exact ⟨(declaredVariable s d).noted ++ earlier, by simp [ends]⟩

theorem recordedEnds (set : InstructionSet) (s : State) {tree : Tree.Statement} {d : Diagnostic}
    (stopped : failure set s tree = some d) : (recorded set s tree).getLast? = some d := by
  have ends : ∃ earlier, recorded set s tree = earlier ++ (failure set s tree).toList := by
    rw [recordedEq]
    cases tree with
    | declare d => rw [statementRaised]; exact declareEnds s d
    | gate i => rw [statementRaised]; exact ⟨_, raisedEnds _ _⟩
    | nonGate i => rw [statementRaised]; exact ⟨_, raisedEnds _ _⟩
    | assign a => rw [statementRaised]; exact ⟨_, raisedEnds _ _⟩
    | block body location => cases stopped
  obtain ⟨earlier, whole⟩ := ends
  rw [whole, stopped]
  exact List.getLast?_concat

end Failures

section Accounts

variable {set : InstructionSet} {α : Type}

structure Accounted (set : InstructionSet) (s : State) (tree : Tree.Statement) (ids : List Nat)
    (ss : List Graph.Statement) : Prop where
  plain : tree.isBlock = false
  adds : Adds s (statement set s tree) ids ss
  inside : ∀ d ∈ recorded set s tree, Blamed s.scopes.global.natives (· ∈ tree.places) d
  dropped : tree.Dropped ids ss ↔ ∃ d, failure set s tree = some d
  last : ∀ d, failure set s tree = some d → (recorded set s tree).getLast? = some d

mutual

inductive StatementAccounted (set : InstructionSet) :
    State → Tree.Statement → List Nat → List Graph.Statement → Prop where
  | plain {s tree ids ss} (here : Accounted set s tree ids ss) : StatementAccounted set s tree ids ss
  | block {s body ids ss} {written covered : Option Location}
      (inside : StatementsAccounted set s.openBlock body ids ss) :
      StatementAccounted set s (.block body written) [] [.block ids ss covered]

inductive StatementsAccounted (set : InstructionSet) :
    State → List Tree.Statement → List Nat → List Graph.Statement → Prop where
  | nil {s} : StatementsAccounted set s [] [] []
  | cons {s tree trees ids ss others more} (first : StatementAccounted set s tree ids ss)
      (rest : StatementsAccounted set (statement set s tree) trees others more) :
      StatementsAccounted set s (tree :: trees) (ids ++ others) (ss ++ more)

end

theorem Adds.note {s t : State} {ids : List Nat} {ss : List Graph.Statement} (adds : Adds s t ids ss)
    (ds : List Diagnostic) : Adds s (t.note ds) ids ss := ⟨adds.outside, adds.vars, adds.statements, adds.earlier⟩

theorem commitAdds (s : State) (location : Option Location) (x : Outcome α) (make : α → Graph.Statement) :
    Adds s (s.commit location (x.map make)) [] (x.result.toOption.toList.map make) := by
  obtain ⟨noted, result⟩ := x
  cases result with
  | error d => exact ((Adds.none s).note _).note _
  | ok a => exact ((Adds.none s).note _).trans (.statement _ (make a))

theorem failureIff (x : Outcome α) (location : Option Location) (make : α → Graph.Statement) :
    (x.result.toOption.toList.map make).length < 1 ↔ ∃ d, x.failure location = some d := by
  cases result : x.result <;> simp [Outcome.failure, result, Except.toOption]

theorem committed {s : State} {tree : Tree.Statement} {location : Option Location} {x : Outcome α}
    {make : α → Graph.Statement} (plain : tree.isBlock = false) (none : tree.variableCount = 0)
    (single : tree.statementCount = 1) (commits : statement set s tree = s.commit location (x.map make))
    (stops : failure set s tree = x.failure location) :
    Accounted set s tree [] (x.result.toOption.toList.map make) where
  plain := plain
  adds := commits ▸ commitAdds s location x make
  inside := recordedInside set s tree
  dropped := by
    rw [Tree.Statement.Dropped, none, single, stops, ← failureIff x location make]
    simp
  last _ stopped := recordedEnds set s stopped

theorem initialAdds (s : State) (d : Tree.Declaration) (target : Value) :
    ∃ ss, Adds s (assignInitial s d target) [] ss ∧
      (ss.length < d.initializer.toList.length ↔ ∃ found, initialFailure s d target = some found) := by
  unfold assignInitial initialFailure
  cases d.initializer with
  | none => exact ⟨[], .none s, by simp⟩
  | some value => exact ⟨_, commitAdds s d.location _ .assign, failureIff _ d.location .assign⟩

theorem declareAccounted (s : State) (d : Tree.Declaration) : ∃ ids ss, Accounted set s (.declare d) ids ss := by
  have account {ids ss} (adds : Adds s (declare s d) ids ss)
      (dropped : (Tree.Statement.declare d).Dropped ids ss ↔ ∃ found, declareFailure s d = some found) :
      Accounted set s (.declare d) ids ss :=
    ⟨rfl, by rwa [statement], recordedInside set s _, dropped, fun _ stopped => recordedEnds set s stopped⟩
  cases result : (declaredVariable s d).result with
  | error found =>
    refine ⟨[], [], account ?_ ?_⟩
    · rw [declare, result]
      exact ((Adds.none s).note _).note _
    · simp [Tree.Statement.Dropped, Tree.Statement.variableCount, declareFailure, result]
  | ok v =>
    have added := ((Adds.none s).note (declaredVariable s d).noted).trans (.variable _ v)
    obtain ⟨ss, adds, dropped⟩ := initialAdds ((s.note (declaredVariable s d).noted).addVariable v) d
      (.reference s.vars.length v.type)
    refine ⟨[s.vars.length], ss, account ?_ ?_⟩
    · rw [declare, result]
      exact added.trans adds
    · have whole : (Tree.Statement.declare d).Dropped [s.vars.length] ss ↔ ss.length < d.initializer.toList.length := by
        simp [Tree.Statement.Dropped, Tree.Statement.variableCount, Tree.Statement.statementCount]
      rw [whole, declareFailure, result]
      exact dropped

mutual

theorem statementAccounted (set : InstructionSet) (s : State) : (tree : Tree.Statement) →
    ∃ ids ss, Adds s (statement set s tree) ids ss ∧ StatementAccounted set s tree ids ss
  | .declare d =>
    have ⟨ids, ss, here⟩ := declareAccounted s d
    ⟨ids, ss, here.adds, .plain here⟩
  | .gate i =>
    have here : Accounted set s (.gate i) _ _ := committed rfl rfl rfl (by rw [statement]) rfl
    ⟨_, _, here.adds, .plain here⟩
  | .nonGate i =>
    have here : Accounted set s (.nonGate i) _ _ := committed rfl rfl rfl (by rw [statement]) rfl
    ⟨_, _, here.adds, .plain here⟩
  | .assign a =>
    have here : Accounted set s (.assign a) _ _ := committed rfl rfl rfl (by rw [statement]) rfl
    ⟨_, _, here.adds, .plain here⟩
  | .block body location => by
    obtain ⟨ids, ss, adds, inside⟩ := statementsAccounted set s.openBlock body
    obtain ⟨covered, closed⟩ := adds.block
    rw [statement]
    exact ⟨_, _, closed, .block inside⟩

theorem statementsAccounted (set : InstructionSet) (s : State) : (trees : List Tree.Statement) →
    ∃ ids ss, Adds s (statements set s trees) ids ss ∧ StatementsAccounted set s trees ids ss
  | [] => ⟨[], [], .none s, .nil⟩
  | first :: rest => by
    obtain ⟨ids, ss, adds, here⟩ := statementAccounted set s first
    obtain ⟨others, more, addsRest, later⟩ := statementsAccounted set (statement set s first) rest
    exact ⟨_, _, adds.trans addsRest, .cons here later⟩

end

end Accounts

end Analysis

namespace Analyzer

open Analysis

theorem versionPlaceless (supported : Version) (p : Tree.Program) :
    ∀ d ∈ versionDiagnostics supported p, d.fault.place = none := by
  unfold versionDiagnostics
  cases checked : checkVersion supported p.version with
  | ok _ => exact List.forall_mem_nil _
  | error fault => exact List.forall_mem_singleton.mpr (checkVersionPlaceless supported p.version fault checked)

theorem versionRecorded (supported : Version) (p : Tree.Program) :
    (versionDiagnostics supported p).length ≤ 1 ∧
      ∀ d ∈ versionDiagnostics supported p, d.location = p.versionLocation := by
  unfold versionDiagnostics
  split <;> simp

theorem elaborateSegments (a : Analyzer) (p : Tree.Program) :
    (a.elaborate p).diagnostics =
      versionDiagnostics a.apiVersion p ++ (segments a.instructionSet (a.start p) p.statements).flatten := by
  rw [elaborateDiagnostics, raised, List.map_append, List.map_map, segmentsFlatten]
  simp [Function.comp_def]

theorem segmentsPlaced {set : InstructionSet} {s : State} {trees : List Tree.Statement} {d : Diagnostic}
    (member : d ∈ (segments set s trees).flatten) :
    Blamed s.scopes.global.natives (· ∈ Tree.statementPlacesIn trees) d := by
  rw [segmentsFlatten] at member
  obtain ⟨r, raised, rfl⟩ := List.mem_map.mp member
  exact statementsRaisedInside s trees r raised

theorem elaborateRaises (a : Analyzer) (p : Tree.Program) {d : Diagnostic} (member : d ∈ (a.elaborate p).diagnostics)
    {l : Location} (own : d.fault.place = some l) : a.global.natives.Raises d.fault := by
  rw [elaborateSegments] at member
  rcases List.mem_append.mp member with version | inside
  · cases (versionPlaceless a.apiVersion p d version).symm.trans own
  · exact ((segmentsPlaced inside).brought own).2

theorem elaborateBlock {a : Analyzer} {p : Tree.Program} {ids : List Nat} {ss : List Graph.Statement}
    (adds : Adds (a.start p) (a.finish p) ids ss) :
    (a.elaborate p).program.block.vars = a.global.block.vars ++ ids ∧
      (a.elaborate p).program.block.statements = a.global.block.statements ++ ss := by
  have innermost : (a.finish p).scopes.global = (a.finish p).scopes.current := congrArg ScopeStack.global adds.outside
  constructor
  · change (a.finish p).scopes.global.block.vars = _
    rw [innermost, adds.vars]
    rfl
  · change (a.finish p).scopes.global.block.statements = _
    rw [innermost, adds.statements]
    rfl

theorem diagnosticsLocated (a : Analyzer) {p : Tree.Program} (located : p.Located) :
    (∀ d ∈ (a.elaborate p).diagnostics, d.location.isSome = true) ∧
    (a.elaborate p).diagnostics =
      versionDiagnostics a.apiVersion p ++ (segments a.instructionSet (a.start p) p.statements).flatten ∧
    ((versionDiagnostics a.apiVersion p).length ≤ 1 ∧
      ∀ d ∈ versionDiagnostics a.apiVersion p, d.location = p.versionLocation) ∧
    List.Forall₂ (fun tree segment => ∀ d ∈ segment, Blamed a.global.natives (· ∈ tree.places) d) p.statements
      (segments a.instructionSet (a.start p) p.statements) ∧
    ∃ ids ss, StatementsAccounted a.instructionSet (a.start p) p.statements ids ss ∧
      (a.elaborate p).program.block.vars = a.global.block.vars ++ ids ∧
      (a.elaborate p).program.block.statements = a.global.block.statements ++ ss := by
  have version := versionRecorded a.apiVersion p
  refine ⟨?_, elaborateSegments a p, version, segmentsInside _ (a.start p) _, ?_⟩
  · intro d member
    rw [elaborateSegments] at member
    rcases List.mem_append.mp member with own | inside
    · rw [version.2 d own]
      exact located.version
    · have blamed := segmentsPlaced inside
      cases own : d.fault.place with
      | none => exact located.statements _ (blamed.found own)
      | some l => rw [(blamed.brought own).1, Option.isSome_some]
  · obtain ⟨ids, ss, adds, accounted⟩ := statementsAccounted a.instructionSet (a.start p) p.statements
    exact ⟨ids, ss, accounted, elaborateBlock adds⟩

def cell (line column : Nat) : Option Location := some ⟨none, ⟨line, column⟩, ⟨line, column⟩⟩

def faultySection : Tree.Program where
  version := ⟨[2, 0]⟩
  versionLocation := cell 1 9
  statements :=
    [.declare ⟨"q", cell 2 10, .qubit, some 2, none, [], cell 2 1⟩,
      .gate ⟨.named ⟨"H", none, [⟨"sampler", "repeat", [.name "shots" (cell 3 17)], cell 3 1⟩], cell 4 1⟩,
        [.index (.name "q" (cell 4 3)) [.item (.literal (.int 5) (cell 4 5))] (cell 4 4)], [], cell 4 1⟩,
      .block [.declare ⟨"n", cell 6 5, .int, none, some (.name "q" (cell 6 9)), [], cell 6 1⟩,
        .declare ⟨"n", cell 7 5, .int, none, none, [], cell 7 1⟩] (cell 5 1)]

theorem faultySectionLocated :
    faultySection.Located ∧
      versionDiagnostics standard.apiVersion faultySection = [⟨.versionMismatch ⟨[3, 0]⟩ ⟨[2, 0]⟩, cell 1 9⟩] ∧
      (segments standard.instructionSet (standard.start faultySection) faultySection.statements).map
        (·.map Diagnostic.location) = [[], [cell 3 17, cell 4 4], [cell 6 1, cell 7 1]] ∧
      (∀ d ∈ (standard.elaborate faultySection).diagnostics, d.location.isSome = true) ∧
      ∃ ids ss, StatementsAccounted standard.instructionSet (standard.start faultySection)
          faultySection.statements ids ss ∧
        (standard.elaborate faultySection).program.block.vars = standard.global.block.vars ++ ids ∧
        (standard.elaborate faultySection).program.block.statements = standard.global.block.statements ++ ss :=
  have located : faultySection.Located := ⟨rfl, by decide⟩
  have ⟨placed, _, _, _, accounted⟩ := diagnosticsLocated standard located
  ⟨located, by decide +kernel, by decide +kernel, placed, accounted⟩

/- A function that places what it finds wrong in a text of its own. -/
def refuse : Native := fun _ => .error (.other .evaluation "refused" (cell 9 9))

def refusing : Analyzer := (empty ⟨[3, 0]⟩ .sensitive .empty).register (.native "check" [] refuse)

def refusedCheck : Tree.Program where
  version := ⟨[3, 0]⟩
  versionLocation := cell 1 9
  statements := [.assign ⟨.apply "check" [] (cell 2 1), .literal (.int 1) (cell 2 11), [], cell 2 1⟩]

theorem refusedCheckElsewhere :
    refusing.Configured ∧ refusedCheck.Located ∧
      (refusing.elaborate refusedCheck).diagnostics = [⟨.other .evaluation "refused" (cell 9 9), cell 9 9⟩] ∧
      cell 9 9 ∉ Tree.statementPlacesIn refusedCheck.statements :=
  ⟨.register _ (.empty _ _ _), ⟨rfl, by decide⟩, by decide, by decide⟩

end Analyzer

end Cqasm
