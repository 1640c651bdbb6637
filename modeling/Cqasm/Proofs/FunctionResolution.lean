import Cqasm.Proofs.Builtin
import Cqasm.Proofs.Standard

/-! Functions of the language, evaluated or called. Each is registered twice, once with its evaluation and once
with its signature, and both tables select the same overload. -/
namespace Cqasm

namespace Builtin

def named (policy : CasePolicy) (name : String) : List Builtin :=
  all.filter fun b => policy.key b.name = policy.key name

def selected? (policy : CasePolicy) (name : String) (args : List Value) : Option Builtin :=
  (named policy name).find? fun b => Value.AllPromote args b.params

theorem selectedMem {policy : CasePolicy} {name : String} {args : List Value} {b : Builtin}
    (selected : selected? policy name args = some b) : b ∈ named policy name ∧ Value.AllPromote args b.params := by
  have found := List.find?_some selected
  exact ⟨List.mem_of_find?_eq_some selected, by simpa using found⟩

theorem selectedRegistered {policy : CasePolicy} {name : String} {args : List Value} {b : Builtin}
    (selected : selected? policy name args = some b) : b ∈ all := (List.mem_filter.mp (selectedMem selected).1).1

theorem selectedPromotes {policy : CasePolicy} {name : String} {args : List Value} {b : Builtin}
    (selected : selected? policy name args = some b) : ∃ ws, Value.promoteAll args b.params = some ws :=
  Option.isSome_iff_exists.mp (Value.promoteAllIsSome.mpr (selectedMem selected).2)

theorem selectedByTypes {args others : List Value} (types : others.map Value.type = args.map Value.type)
    (policy : CasePolicy) (name : String) : selected? policy name others = selected? policy name args := by
  unfold selected?
  congr 1
  funext b
  rw [decide_eq_decide]
  exact Value.allPromoteTypes types b.params

theorem namedSound {policy : CasePolicy} {name : String} {b : Builtin} (member : b ∈ named policy name) : b.Sound :=
  allSound b (List.mem_filter.mp member).1

def table {α : Type} (policy : CasePolicy) (tag : Builtin → α) : OverloadTable α :=
  (OverloadTable.empty policy).addAll name tag params all

section Table

variable {α : Type} {policy : CasePolicy} {tag : Builtin → α} {name : String} {args : List Value}

theorem tableOverloads : (table policy tag).overloads name = (named policy name).map fun b => ⟨tag b, b.params⟩ := by
  rw [table, OverloadTable.overloadsAddAll]
  rfl

theorem tableContains : (table policy tag).contains name = true ↔ named policy name ≠ [] := by
  have any : (table policy tag).contains name = all.any fun b => policy.key b.name = policy.key name := by
    rw [table, OverloadTable.containsAddAll]
    rfl
  rw [any, List.any_eq_true, named, Ne, List.filter_eq_nil_iff]
  simp

theorem tableResolve {b : Builtin} {ws : List Value} (selected : selected? policy name args = some b)
    (promoted : Value.promoteAll args b.params = some ws) :
    (table policy tag).resolve name args = .ok (tag b, ws) := by
  refine OverloadTable.resolveOk.mpr ⟨⟨tag b, b.params⟩, ?_, rfl, promoted⟩
  rw [tableOverloads, List.find?_map]
  exact congrArg (Option.map fun b => (⟨tag b, b.params⟩ : Overload α)) selected

theorem tableRefuses (known : named policy name ≠ []) (refused : selected? policy name args = none) :
    (table policy tag).resolve name args = .error (.noOverload name (args.map Value.type)) := by
  refine OverloadTable.resolveRefused (tableContains.mpr known) ?_
  intro o member
  rw [tableOverloads] at member
  obtain ⟨b, inNamed, rfl⟩ := List.mem_map.mp member
  have refuses := List.find?_eq_none.mp refused b inNamed
  exact fun takes => refuses (decide_eq_true takes)

end Table

end Builtin

namespace Scope

structure HasBuiltins (policy : CasePolicy) (s : Scope) : Prop where
  natives : s.natives = Builtin.table policy Builtin.native
  functions : s.functions = Builtin.table policy Builtin.runtime

section Resolution

variable {policy : CasePolicy} {s : Scope} {name : String} {args : List Value}

theorem resolveUnknownFunction (builtins : s.HasBuiltins policy) (unknown : Builtin.named policy name = []) :
    s.resolveFunction name args = .error (.unknownName name) := by
  have missing {α : Type} (tag : Builtin → α) : (Builtin.table policy tag).contains name = false := by
    rw [← Bool.not_eq_true, Builtin.tableContains]
    exact not_not.mpr unknown
  simp [resolveFunction, evaluate, call, builtins.natives, builtins.functions, missing,
    OverloadTable.resolveUnknown, bind, Except.bind, defersToCall, Fault.kind]

theorem resolveRefusedFunction (builtins : s.HasBuiltins policy) (known : Builtin.named policy name ≠ [])
    (refused : Builtin.selected? policy name args = none) :
    s.resolveFunction name args = .error (.noOverload name (args.map Value.type)) := by
  have present : (Builtin.table policy Builtin.runtime).contains name = true := Builtin.tableContains.mpr known
  simp [resolveFunction, evaluate, call, builtins.natives, builtins.functions, present,
    Builtin.tableRefuses known refused, bind, Except.bind, defersToCall, Fault.kind]

theorem resolveDynamicFunction (builtins : s.HasBuiltins policy) {b : Builtin} {ws : List Value}
    (selected : Builtin.selected? policy name args = some b)
    (promoted : Value.promoteAll args b.params = some ws) (dynamic : args.all Value.isConstant = false) :
    s.resolveFunction name args = .ok (.call b.runtime ws) := by
  have member := (Builtin.selectedMem selected).1
  have present : (Builtin.table policy Builtin.runtime).contains name = true :=
    Builtin.tableContains.mpr (List.ne_nil_of_mem member)
  have stopped : b.native ws = .error .dynamicValue :=
    (Builtin.namedSound member).dynamic (Value.promotedAllLength promoted)
      (by rw [Value.promotedAllIsConstant promoted, dynamic])
  simp [resolveFunction, evaluate, call, builtins.natives, builtins.functions, present,
    Builtin.tableResolve selected promoted, bind, Except.bind, pure, Except.pure, stopped, defersToCall, Fault.kind]

theorem resolveNative (builtins : s.HasBuiltins policy) {b : Builtin} {ws : List Value}
    (selected : Builtin.selected? policy name args = some b)
    (promoted : Value.promoteAll args b.params = some ws) (constant : args.all Value.isConstant = true) :
    s.resolveFunction name args = b.native ws ∧
      ((∃ c, b.native ws = .ok (.const c) ∧ c.type = b.result) ∨
        ∃ fault, b.native ws = .error fault ∧ fault.kind = .evaluation) := by
  have native : s.evaluate name args = b.native ws := by
    simp [evaluate, builtins.natives, Builtin.tableResolve selected promoted, bind, Except.bind]
  have folded : Folded ws b.params := foldedOfFits (Value.promotedAll promoted).1
    (by rw [Value.promotedAllIsConstant promoted, constant])
  rcases (Builtin.namedSound (Builtin.selectedMem selected).1).folded folded with
    ⟨c, done, type⟩ | ⟨fault, failed, kind⟩
  · exact ⟨by simp [resolveFunction, native, done], .inl ⟨c, done, type⟩⟩
  · exact ⟨by simp [resolveFunction, native, failed, defersToCall, kind], .inr ⟨fault, failed, kind⟩⟩

theorem resolveConstantFunction (builtins : s.HasBuiltins policy) {b : Builtin} {ws : List Value}
    (selected : Builtin.selected? policy name args = some b)
    (promoted : Value.promoteAll args b.params = some ws) (constant : args.all Value.isConstant = true) :
    (∃ c, s.resolveFunction name args = .ok (.const c) ∧ c.type = b.result) ∨
      ∃ fault, s.resolveFunction name args = .error fault ∧ fault.kind = .evaluation := by
  obtain ⟨native, outcome⟩ := resolveNative builtins selected promoted constant
  rwa [native]

theorem resolvedFunction (builtins : s.HasBuiltins policy) {v : Value}
    (resolved : s.resolveFunction name args = .ok v) :
    ∃ b, Builtin.selected? policy name args = some b ∧ v.type = b.result ∧
      ((∃ c, v = .const c) ∨
        ∃ ws, Value.promoteAll args b.params = some ws ∧ args.all Value.isConstant = false ∧
          v = .call b.runtime ws) := by
  by_cases unknown : Builtin.named policy name = []
  · rw [resolveUnknownFunction builtins unknown] at resolved
    cases resolved
  cases selected : Builtin.selected? policy name args with
  | none =>
    rw [resolveRefusedFunction builtins unknown selected] at resolved
    cases resolved
  | some b =>
    obtain ⟨ws, promoted⟩ := Builtin.selectedPromotes selected
    cases constant : args.all Value.isConstant with
    | true =>
      rcases resolveConstantFunction builtins selected promoted constant with ⟨c, done, type⟩ | ⟨fault, failed, _⟩
      · cases done.symm.trans resolved
        exact ⟨b, rfl, type, .inl ⟨c, rfl⟩⟩
      · cases failed.symm.trans resolved
    | false =>
      have called := resolveDynamicFunction builtins selected promoted constant
      cases called.symm.trans resolved
      exact ⟨b, rfl, rfl, .inr ⟨ws, promoted, rfl, rfl⟩⟩

theorem resolvedConstant (builtins : s.HasBuiltins policy) {v : Value}
    (resolved : s.resolveFunction name args = .ok v) : v.isConstant = args.all Value.isConstant := by
  obtain ⟨b, selected, _, ⟨c, rfl⟩ | ⟨ws, _, dynamic, rfl⟩⟩ := resolvedFunction builtins resolved
  · cases constant : args.all Value.isConstant with
    | true => rfl
    | false =>
      obtain ⟨ws, promoted⟩ := Builtin.selectedPromotes selected
      have called := resolveDynamicFunction builtins selected promoted constant
      cases called.symm.trans resolved
  · exact dynamic.symm

theorem failedFunction (builtins : s.HasBuiltins policy) {fault : Fault}
    (failed : s.resolveFunction name args = .error fault) :
    fault.kind = .nameResolution ∨ fault.kind = .overloadResolution ∨ fault.kind = .evaluation := by
  by_cases unknown : Builtin.named policy name = []
  · rw [resolveUnknownFunction builtins unknown] at failed
    cases failed
    exact .inl rfl
  cases selected : Builtin.selected? policy name args with
  | none =>
    rw [resolveRefusedFunction builtins unknown selected] at failed
    cases failed
    exact .inr (.inl rfl)
  | some b =>
    obtain ⟨ws, promoted⟩ := Builtin.selectedPromotes selected
    cases constant : args.all Value.isConstant with
    | true =>
      rcases resolveConstantFunction builtins selected promoted constant with ⟨c, done, _⟩ | ⟨other, stopped, kind⟩
      · cases done.symm.trans failed
      · cases stopped.symm.trans failed
        exact .inr (.inr kind)
    | false =>
      have called := resolveDynamicFunction builtins selected promoted constant
      cases called.symm.trans failed

end Resolution

end Scope

namespace Analyzer

theorem standardBuiltins : standard.global.HasBuiltins .sensitive := by
  obtain ⟨ms, is, _, _, global⟩ := standardGlobal
  exact ⟨by rw [global]; rfl, by rw [global]; rfl⟩

/- The last three parts follow from the first three; a reader of results relies on them. -/
theorem foldingAgreesWithCalls (name : String) (args : List Value) :
    (Builtin.named .sensitive name = [] →
      ∃ fault, standard.resolveFunction name args = .error fault ∧ fault.kind = .nameResolution) ∧
    (Builtin.named .sensitive name ≠ [] → Builtin.selected? .sensitive name args = none →
      ∃ fault, standard.resolveFunction name args = .error fault ∧ fault.kind = .overloadResolution) ∧
    (∀ b, Builtin.selected? .sensitive name args = some b →
      ((∃ a ∈ args, a.isConstant = false) →
        ∃ promoted, List.zipWith Value.promote args b.params = promoted.map some ∧
          standard.resolveFunction name args = .ok (.call b.runtime promoted)) ∧
      ((∀ a ∈ args, a.isConstant = true) →
        (∃ c, standard.resolveFunction name args = .ok (.const c) ∧ c.type = b.result) ∨
          ∃ fault, standard.resolveFunction name args = .error fault ∧ fault.kind = .evaluation)) ∧
    (∀ fault, standard.resolveFunction name args = .error fault →
      fault.kind ≠ .constantRequired ∧ fault.kind ≠ .typing) ∧
    (∀ function arguments, standard.resolveFunction name args = .ok (.call function arguments) →
      ∃ a ∈ arguments, a.isConstant = false) ∧
    (∀ others v w, others.map Value.type = args.map Value.type →
      standard.resolveFunction name args = .ok v → standard.resolveFunction name others = .ok w →
        v.type = w.type) := by
  refine ⟨fun unknown => ⟨_, Scope.resolveUnknownFunction standardBuiltins unknown, rfl⟩,
    fun known refused => ⟨_, Scope.resolveRefusedFunction standardBuiltins known refused, rfl⟩, ?_, ?_, ?_, ?_⟩
  · intro b selected
    obtain ⟨ws, promoted⟩ := Builtin.selectedPromotes selected
    refine ⟨fun dynamic => ?_, fun constant => ?_⟩
    · have called := Scope.resolveDynamicFunction standardBuiltins selected promoted
        (by simpa using dynamic)
      exact ⟨ws, (Value.promoteAllEqSome.mp promoted).2, called⟩
    · exact Scope.resolveConstantFunction standardBuiltins selected promoted (List.all_eq_true.mpr constant)
  · intro fault failed
    rcases Scope.failedFunction standardBuiltins failed with kind | kind | kind <;> simp [kind]
  · intro function arguments called
    obtain ⟨b, _, _, ⟨c, constant⟩ | ⟨ws, promoted, dynamic, same⟩⟩ := Scope.resolvedFunction standardBuiltins called
    · cases constant
    · cases same
      rw [← Value.promotedAllIsConstant promoted] at dynamic
      simpa using dynamic
  · intro others v w types left right
    obtain ⟨b, selected, type, _⟩ := Scope.resolvedFunction standardBuiltins left
    obtain ⟨d, selectedToo, typeToo, _⟩ := Scope.resolvedFunction standardBuiltins right
    rw [Builtin.selectedByTypes types, selected] at selectedToo
    cases selectedToo
    rw [type, typeToo]

end Analyzer

end Cqasm
