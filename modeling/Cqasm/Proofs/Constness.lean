import Cqasm.Proofs.FunctionResolution
import Cqasm.Proofs.References

/-! Which expressions are constant. With the functions of the language, an analysed expression is a constant exactly
where every name in it stands for one: nothing constant is left to run time, and nothing that is known at run time only
is taken for a constant. -/
namespace Cqasm

open Cqasm.Tree (Expr IndexEntry)

namespace Tree

mutual

def Expr.names : Expr → List String
  | .literal _ _ => []
  | .name name _ => [name]
  | .index base entries _ => base.names ++ entryNamesIn entries
  | .apply _ arguments _ => namesIn arguments
  | .list items _ => namesIn items

def namesIn : List Expr → List String
  | [] => []
  | e :: rest => e.names ++ namesIn rest

def entryNames : IndexEntry Expr → List String
  | .item e => e.names
  | .range first last => first.names ++ last.names

def entryNamesIn : List (IndexEntry Expr) → List String
  | [] => []
  | entry :: rest => entryNames entry ++ entryNamesIn rest

end

end Tree

open Cqasm.Tree (namesIn entryNames entryNamesIn)

def ScopeStack.NamesConstant (scopes : ScopeStack) (name : String) : Prop :=
  ∃ c, scopes.resolveVariable name = .ok (.const c)

theorem Value.constantIff {v : Value} : v.isConstant = true ↔ ∃ c, v = .const c := by
  cases v <;> simp [isConstant]

namespace Analysis

theorem itemsConstant {values : List Value} {items : List ListItem} (done : ListItem.ofValues values = .ok items) :
    values.all Value.isConstant = true := by
  induction values generalizing items with
  | nil => rfl
  | cons v vs ih =>
    simp only [ListItem.ofValues, bindOk, pureOk] at done
    obtain ⟨item, first, others, rest, _⟩ := done
    have here : v.isConstant = true := by
      unfold ListItem.ofValue at first
      split at first
      · rfl
      · rfl
      · rfl
      · cases first
    rw [List.all_cons, here, ih rest, Bool.and_self]

theorem listConstant {values : List Value} {v : Value} (done : initializationList values = .ok v) :
    v.isConstant = true ∧ values.all Value.isConstant = true := by
  obtain ⟨items, read, same⟩ := bindOk.mp done
  cases pureOk.mp same
  exact ⟨rfl, itemsConstant read⟩

theorem integerConstant {v : Value} {i : Int} (done : constantInt v = .ok i) : v.isConstant = true := by
  unfold constantInt at done
  split at done
  case h_1 => cases done
  case h_2 promoted made =>
    split at done
    case h_1 known =>
      rw [← Value.promotedIsConstant made]
      cases promoted with
      | const => rfl
      | reference | selection | call => cases known
    case h_2 => cases done

section Expressions

variable {policy : CasePolicy} {scopes : ScopeStack}

mutual

theorem expressionConstant (builtins : scopes.global.HasBuiltins policy) : (e : Expr) → {v : Value} →
    expression scopes e = .ok v → (v.isConstant = true ↔ ∀ name ∈ e.names, scopes.NamesConstant name)
  | .literal l _, v, done => by
    simp only [expression, Except.ok.injEq] at done
    subst done
    simp [Expr.names, Value.isConstant]
  | .name name location, v, done => by
    rw [expression, placedOk, unplacedOk] at done
    simp [Expr.names, ScopeStack.NamesConstant, done, Value.constantIff]
  | .index base entries location, v, done => by
    simp only [expression, placedOk, unplacedOk, bindOk, pureOk] at done
    obtain ⟨value, analysed, ⟨selection, size⟩, taken, _, _, rfl⟩ := done
    -- elements are only taken of a variable, and the base says which
    have dynamic : value.isConstant = false := by
      rw [(indexableOk taken).1]
      rfl
    have known := expressionConstant builtins base analysed
    rw [dynamic] at known
    simp only [Expr.names, List.forall_mem_append]
    constructor
    · intro constant
      cases constant
    · intro constants
      cases known.mpr constants.1
  | .apply function arguments location, v, done => by
    simp only [expression, placedOk, unplacedOk, bindOk] at done
    obtain ⟨values, analysed, resolved⟩ := done
    rw [Scope.resolvedConstant builtins resolved, Expr.names]
    exact expressionsConstant builtins arguments analysed
  | .list items location, v, done => by
    simp only [expression, placedOk, unplacedOk, bindOk] at done
    obtain ⟨values, analysed, made⟩ := done
    obtain ⟨constant, all⟩ := listConstant made
    have known := expressionsConstant builtins items analysed
    rw [Expr.names]
    exact ⟨fun _ => known.mp all, fun _ => constant⟩

theorem expressionsConstant (builtins : scopes.global.HasBuiltins policy) : (es : List Expr) → {vs : List Value} →
    expressions scopes es = .ok vs → (vs.all Value.isConstant = true ↔ ∀ name ∈ namesIn es, scopes.NamesConstant name)
  | [], vs, done => by
    cases done
    simp [namesIn]
  | e :: rest, vs, done => by
    simp only [expressions, bindOk, pureOk] at done
    obtain ⟨value, first, values, others, rfl⟩ := done
    rw [List.all_cons, Bool.and_eq_true, namesIn, List.forall_mem_append, expressionConstant builtins e first,
      expressionsConstant builtins rest others]

end

theorem indexConstant (builtins : scopes.global.HasBuiltins policy) {size : Int} {entry : IndexEntry Expr}
    {indices : List Int} (done : indexEntry scopes size entry = .ok indices) :
    ∀ name ∈ entryNames entry, scopes.NamesConstant name := by
  cases entry with
  | item e =>
    simp only [indexEntry, bindOk, placedOk, unplacedOk] at done
    obtain ⟨value, analysed, index, known, _⟩ := done
    rw [entryNames]
    exact (expressionConstant builtins e analysed).mp (integerConstant known)
  | range first last =>
    simp only [indexEntry, bindOk, placedOk, unplacedOk] at done
    obtain ⟨firstValue, analysedFirst, _, knownFirst, lastValue, analysedLast, _, knownLast, _⟩ := done
    rw [entryNames, List.forall_mem_append]
    exact ⟨(expressionConstant builtins first analysedFirst).mp (integerConstant knownFirst),
      (expressionConstant builtins last analysedLast).mp (integerConstant knownLast)⟩

theorem indicesConstant (builtins : scopes.global.HasBuiltins policy) {size : Int} {entries : List (IndexEntry Expr)}
    {indices : List Int} (done : indexEntries scopes size entries = .ok indices) :
    ∀ name ∈ entryNamesIn entries, scopes.NamesConstant name := by
  induction entries generalizing indices with
  | nil => simp [entryNamesIn]
  | cons entry rest ih =>
    simp only [indexEntries, bindOk, pureOk] at done
    obtain ⟨here, first, others, tail, _⟩ := done
    rw [entryNamesIn, List.forall_mem_append]
    exact ⟨indexConstant builtins first, ih tail⟩

end Expressions

def Whole (v : Value) : Prop := v.isConstant = true ∨ ∃ id type, v = .reference id type

def NamesWhole (scopes : List Scope) : Prop :=
  ∀ scope ∈ scopes, ∀ name v, scope.vars.find? name = some v → Whole v

section Runs

variable {set : InstructionSet} {s t : State}

theorem namesWholeStep (whole : NamesWhole s.stack) (step : Step set s t) : NamesWhole t.stack := by
  rw [s.stackEq] at whole
  obtain ⟨here, others⟩ := List.forall_mem_cons.mp whole
  cases step with
  | note => exact s.stackEq ▸ whole
  | @add st =>
    rw [s.addStatementStack]
    exact List.forall_mem_cons.mpr ⟨here, others⟩
  | @declare d v =>
    rw [s.addVariableStack]
    refine List.forall_mem_cons.mpr ⟨fun name w found => ?_, others⟩
    rcases VariableTable.addFound found with rfl | old
    · exact .inr ⟨_, _, rfl⟩
    · exact here name w old
  | openBlock =>
    rw [← s.stackEq] at whole
    exact List.forall_mem_cons.mpr ⟨fun name w found => (by cases found), whole⟩
  | @closeBlock inner rest popped =>
    rw [← s.stackEq, State.popStack popped] at whole
    obtain ⟨_, outside⟩ := List.forall_mem_cons.mp whole
    obtain ⟨current, outer⟩ := List.forall_mem_cons.mp outside
    rw [State.stack, rest.scopesAddStatement]
    exact List.forall_mem_cons.mpr ⟨current, outer⟩

theorem namesWholeReached (whole : NamesWhole s.stack) (reached : Reaches set s t) : NamesWhole t.stack :=
  invariantReached (I := fun u => NamesWhole u.stack) whole (fun _ held step => namesWholeStep held step) reached

theorem NamesWhole.resolved {scopes : ScopeStack} (whole : NamesWhole scopes.scopes) {name : String} {v : Value}
    (resolved : scopes.resolveVariable name = .ok v) : Whole v := by
  unfold ScopeStack.resolveVariable at resolved
  split at resolved
  case h_1 found =>
    cases resolved
    obtain ⟨scope, member, here⟩ := List.exists_of_findSome?_eq_some found
    exact whole scope member name _ here
  case h_2 => cases resolved

end Runs

inductive Dynamic : Expr → Value → Prop where
  | variable {name location id type} : Dynamic (.name name location) (.reference id type)
  | elements {base entries location selection} : Dynamic (.index base entries location) (.selection selection)
  | call {name arguments location function args} : Dynamic (.apply name arguments location) (.call function args)

theorem expressionDynamic {policy : CasePolicy} {scopes : ScopeStack} (builtins : scopes.global.HasBuiltins policy)
    (whole : NamesWhole scopes.scopes) {e : Expr} {v : Value} (analysed : expression scopes e = .ok v)
    (dynamic : v.isConstant = false) : Dynamic e v := by
  cases e with
  | literal l location =>
    simp only [expression, Except.ok.injEq] at analysed
    subst analysed
    cases dynamic
  | name name location =>
    rw [expression, placedOk, unplacedOk] at analysed
    rcases whole.resolved analysed with constant | ⟨id, type, rfl⟩
    · cases constant.symm.trans dynamic
    · exact .variable
  | index base entries location =>
    simp only [expression, placedOk, unplacedOk, bindOk, pureOk] at analysed
    obtain ⟨_, _, _, _, _, _, rfl⟩ := analysed
    exact .elements
  | apply name arguments location =>
    simp only [expression, placedOk, unplacedOk, bindOk] at analysed
    obtain ⟨values, _, resolved⟩ := analysed
    obtain ⟨b, _, _, ⟨c, rfl⟩ | ⟨ws, _, _, rfl⟩⟩ := Scope.resolvedFunction builtins resolved
    · cases dynamic
    · exact .call
  | list items location =>
    simp only [expression, placedOk, unplacedOk, bindOk] at analysed
    obtain ⟨values, _, made⟩ := analysed
    cases (listConstant made).1.symm.trans dynamic

end Analysis

namespace Analyzer

open Analysis

section Reached

variable {a : Analyzer} {p : Tree.Program} {t : State} (reached : Reaches a.instructionSet (a.start p) t)
include reached

theorem reachedBuiltins {policy : CasePolicy} (builtins : a.global.HasBuiltins policy) :
    t.scopes.global.HasBuiltins policy :=
  have same := (reachedTables reached).global
  ⟨same.natives.trans builtins.natives, same.functions.trans builtins.functions⟩

theorem reachedNames (constants : ∀ name v, a.global.vars.find? name = some v → v.isConstant = true) :
    NamesWhole t.scopes.scopes := by
  have initial : NamesWhole (a.start p).stack := by
    intro scope member name v found
    cases List.mem_singleton.mp member
    exact .inl (constants name v found)
  exact namesWholeReached initial reached

end Reached

theorem constantWhereNamesAre {p : Tree.Program} {t : State}
    (reached : Reaches standard.instructionSet (standard.start p) t) {e : Expr} {v : Value}
    (analysed : expression t.scopes e = .ok v) :
    (v.isConstant = true ↔ ∀ name ∈ e.names, t.scopes.NamesConstant name) ∧
      (v.isConstant = false → Dynamic e v) ∧
      ∀ base entries location, e = .index base entries location →
        ∀ name ∈ entryNamesIn entries, t.scopes.NamesConstant name := by
  have builtins := reachedBuiltins reached standardBuiltins
  have whole := reachedNames reached fun _ _ => standardConstants
  refine ⟨expressionConstant builtins e analysed, expressionDynamic builtins whole analysed, ?_⟩
  rintro base entries location rfl
  simp only [expression, placedOk, unplacedOk, bindOk, pureOk] at analysed
  obtain ⟨_, _, _, _, _, indices, _⟩ := analysed
  exact indicesConstant builtins indices

def halfKnownChoice : Expr :=
  .ternary (.name "true" none) (.literal (.int 1) none) (.name "n" none) none

def countProgram : Tree.Program where
  version := ⟨[3, 0]⟩
  versionLocation := none
  statements := [.declare ⟨"n", none, .int, none, none, [], none⟩]

theorem halfKnownChoiceLeft :
    ∃ v, expression (standard.finish countProgram).scopes halfKnownChoice = .ok v ∧ v.isConstant = false ∧
      (¬ ∀ name ∈ halfKnownChoice.names, (standard.finish countProgram).scopes.NamesConstant name) ∧
      Dynamic halfKnownChoice v := by
  have left : (expression (standard.finish countProgram).scopes halfKnownChoice).toOption.map Value.isConstant =
      some false := by decide +kernel
  cases analysed : expression (standard.finish countProgram).scopes halfKnownChoice with
  | error d => simp [analysed, Except.toOption] at left
  | ok v =>
    have dynamic : v.isConstant = false := by simpa [analysed, Except.toOption] using left
    obtain ⟨constant, other, _⟩ := constantWhereNamesAre reachesFinish analysed
    refine ⟨v, rfl, dynamic, fun known => ?_, other dynamic⟩
    cases dynamic.symm.trans (constant.mpr known)

end Analyzer

end Cqasm
