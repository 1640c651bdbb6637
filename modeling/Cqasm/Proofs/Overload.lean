import Cqasm.Overload
import Cqasm.Proofs.Promotion

/-! Overloaded names against the history of their registration. What a name resolves to depends only on the
registrations under its key: the first of them that takes the arguments, in order. -/
namespace Cqasm

namespace Overload

variable {α : Type}

def Takes (args : List Value) (o : Overload α) : Prop := Value.AllPromote args o.params

instance (args : List Value) (o : Overload α) : Decidable (o.Takes args) :=
  inferInstanceAs (Decidable (Value.AllPromote args o.params))

theorem promotedIsSome {o : Overload α} {args : List Value} :
    (o.promoted? args).isSome = true ↔ o.Takes args := Value.promoteAllIsSome

theorem firstMatchNone {overloads : List (Overload α)} {args : List Value} :
    firstMatch? overloads args = none ↔ ∀ o ∈ overloads, ¬ o.Takes args := by
  simp only [firstMatch?, List.findSome?_eq_none_iff, Option.map_eq_none_iff]
  refine forall₂_congr fun o _ => ?_
  rw [← promotedIsSome, Option.not_isSome_iff_eq_none]

theorem firstMatchSome {overloads : List (Overload α)} {args : List Value} {tag : α} {ws : List Value} :
    firstMatch? overloads args = some (tag, ws) ↔
      ∃ o, overloads.find? (fun o => decide (o.Takes args)) = some o ∧ o.tag = tag ∧
        o.promoted? args = some ws := by
  induction overloads with
  | nil => simp [firstMatch?]
  | cons o rest ih =>
    unfold firstMatch? at ih ⊢
    rw [List.findSome?_cons, List.find?_cons]
    cases promoted : o.promoted? args with
    | none =>
      have refuses : ¬ o.Takes args := by rw [← promotedIsSome, promoted]; simp
      simpa [refuses] using ih
    | some vs =>
      have takes : o.Takes args := by rw [← promotedIsSome, promoted]; rfl
      simp [takes, promoted]

end Overload

namespace OverloadTable

variable {α : Type}

def overloads (t : OverloadTable α) (name : String) : List (Overload α) :=
  match t.find? name with
  | none => []
  | some entry => entry.overloads

theorem resolveUnknown {t : OverloadTable α} {name : String} {args : List Value}
    (unknown : t.contains name = false) : t.resolve name args = .error (.unknownName name) := by
  have missing : t.find? name = none := by simpa [contains, find?, Table.contains] using unknown
  simp [resolve, missing]

theorem resolveRefused {t : OverloadTable α} {name : String} {args : List Value}
    (known : t.contains name = true) (refused : ∀ o ∈ t.overloads name, ¬ o.Takes args) :
    t.resolve name args = .error (.noOverload name (args.map Value.type)) := by
  obtain ⟨entry, found⟩ : ∃ entry, t.find? name = some entry := Option.isSome_iff_exists.mp known
  simp only [overloads, found] at refused
  simp [resolve, found, Overload.firstMatchNone.mpr refused]

theorem resolveOk {t : OverloadTable α} {name : String} {args : List Value} {tag : α} {ws : List Value} :
    t.resolve name args = .ok (tag, ws) ↔
      ∃ o, (t.overloads name).find? (fun o => decide (o.Takes args)) = some o ∧ o.tag = tag ∧
        o.promoted? args = some ws := by
  rw [← Overload.firstMatchSome]
  cases found : t.find? name with
  | none => simp [resolve, overloads, found, Overload.firstMatch?]
  | some entry =>
    cases first : Overload.firstMatch? entry.overloads args <;> simp [resolve, overloads, found, first]

theorem resolvedOverload {t : OverloadTable α} {name : String} {args : List Value} {tag : α} {ws : List Value}
    (resolved : t.resolve name args = .ok (tag, ws)) :
    ∃ o ∈ t.overloads name, o.tag = tag ∧ Value.promoteAll args o.params = some ws := by
  obtain ⟨o, first, same, promoted⟩ := resolveOk.mp resolved
  exact ⟨o, List.mem_of_find?_eq_some first, same, promoted⟩

theorem resolveSome {t : OverloadTable α} {name : String} {args : List Value} :
    (∃ found, t.resolve name args = .ok found) ↔ ∃ o ∈ t.overloads name, o.Takes args := by
  constructor
  · rintro ⟨⟨tag, ws⟩, resolved⟩
    obtain ⟨o, registered, _, promoted⟩ := resolvedOverload resolved
    exact ⟨o, registered, Value.promoteAllIsSome.mp (Option.isSome_of_eq_some promoted)⟩
  · rintro ⟨o, registered, takes⟩
    have some : ((t.overloads name).find? fun o => decide (o.Takes args)).isSome = true :=
      List.find?_isSome.mpr ⟨o, registered, decide_eq_true takes⟩
    obtain ⟨first, chosen⟩ := Option.isSome_iff_exists.mp some
    have accepts : first.Takes args := by simpa using List.find?_some chosen
    obtain ⟨ws, promoted⟩ := Option.isSome_iff_exists.mp (Overload.promotedIsSome.mpr accepts)
    exact ⟨(first.tag, ws), resolveOk.mpr ⟨first, chosen, rfl, promoted⟩⟩

@[simp] theorem overloadsEmpty (policy : CasePolicy) (name : String) :
    (empty policy : OverloadTable α).overloads name = [] := rfl

theorem policyAdd (t : OverloadTable α) (name : String) (tag : α) (params : List Ty) :
    (t.add name tag params).policy = t.policy := rfl

theorem overloadsAdd (t : OverloadTable α) (name : String) (tag : α) (params : List Ty) (other : String) :
    (t.add name tag params).overloads other =
      t.overloads other ++ if t.policy.key name = t.policy.key other then [⟨tag, params⟩] else [] := by
  simp only [overloads, find?, add, Table.findAlter]
  by_cases same : t.policy.key other = t.policy.key name
  · cases found : t.names.find? (t.policy.key name) <;> simp [same, found]
  · simp [same, Ne.symm same]

theorem addedOverload {t : OverloadTable α} {name other : String} {tag : α} {params : List Ty} {o : Overload α}
    (registered : o ∈ (t.add name tag params).overloads other) : o = ⟨tag, params⟩ ∨ o ∈ t.overloads other := by
  rw [overloadsAdd, List.mem_append] at registered
  rcases registered with old | new
  · exact .inr old
  · split at new
    · exact .inl (List.mem_singleton.mp new)
    · cases new

theorem containsAdd (t : OverloadTable α) (name : String) (tag : α) (params : List Ty) (other : String) :
    (t.add name tag params).contains other =
      (t.contains other || decide (t.policy.key name = t.policy.key other)) := by
  simp only [contains, Table.contains, add, Table.findAlter]
  by_cases same : t.policy.key other = t.policy.key name
  · simp [same]
  · simp [same, Ne.symm same]

section History

variable {β : Type} (name : β → String) (tag : β → α) (params : β → List Ty)

def addAll (t : OverloadTable α) (xs : List β) : OverloadTable α :=
  xs.foldl (fun t x => t.add (name x) (tag x) (params x)) t

theorem policyAddAll (t : OverloadTable α) (xs : List β) : (t.addAll name tag params xs).policy = t.policy := by
  induction xs generalizing t with
  | nil => rfl
  | cons x xs ih => exact ih (t.add (name x) (tag x) (params x))

theorem overloadsAddAll (t : OverloadTable α) (xs : List β) (other : String) :
    (t.addAll name tag params xs).overloads other =
      t.overloads other ++
        (xs.filter fun x => t.policy.key (name x) = t.policy.key other).map fun x => ⟨tag x, params x⟩ := by
  induction xs generalizing t with
  | nil => simp [addAll]
  | cons x xs ih =>
    have step := ih (t.add (name x) (tag x) (params x))
    rw [overloadsAdd, policyAdd] at step
    change (addAll name tag params (t.add (name x) (tag x) (params x)) xs).overloads other = _
    rw [step]
    by_cases same : t.policy.key (name x) = t.policy.key other <;> simp [same]

theorem registeredOverload {policy : CasePolicy} {xs : List β} {other : String} {o : Overload α}
    (registered : o ∈ ((empty policy).addAll name tag params xs).overloads other) :
    ∃ x ∈ xs, policy.key (name x) = policy.key other ∧ o = ⟨tag x, params x⟩ := by
  rw [overloadsAddAll, overloadsEmpty, List.nil_append] at registered
  obtain ⟨x, kept, rfl⟩ := List.mem_map.mp registered
  obtain ⟨member, same⟩ := List.mem_filter.mp kept
  exact ⟨x, member, of_decide_eq_true same, rfl⟩

theorem containsAddAll (t : OverloadTable α) (xs : List β) (other : String) :
    (t.addAll name tag params xs).contains other =
      (t.contains other || xs.any fun x => t.policy.key (name x) = t.policy.key other) := by
  induction xs generalizing t with
  | nil => simp [addAll]
  | cons x xs ih =>
    have step := ih (t.add (name x) (tag x) (params x))
    rw [containsAdd] at step
    change (addAll name tag params (t.add (name x) (tag x) (params x)) xs).contains other = _
    rw [step, List.any_cons, Bool.or_assoc]
    rfl

end History

structure Registered (α : Type) where
  name : String
  overload : Overload α

def ofHistory (policy : CasePolicy) (history : List (Registered α)) : OverloadTable α :=
  (empty policy).addAll Registered.name (·.overload.tag) (·.overload.params) history

def about (policy : CasePolicy) (name : String) (history : List (Registered α)) : List (Overload α) :=
  (history.filter fun r => policy.key r.name = policy.key name).map Registered.overload

theorem aboutAppend (policy : CasePolicy) (name : String) (history more : List (Registered α)) :
    about policy name (history ++ more) = about policy name history ++ about policy name more := by
  rw [about, List.filter_append, List.map_append]
  rfl

theorem historyOverloads (policy : CasePolicy) (history : List (Registered α)) (name : String) :
    (ofHistory policy history).overloads name = about policy name history := by
  rw [ofHistory, overloadsAddAll, overloadsEmpty, List.nil_append]
  rfl

theorem historyContains (policy : CasePolicy) (history : List (Registered α)) (name : String) :
    (ofHistory policy history).contains name = true ↔ about policy name history ≠ [] := by
  have any : (ofHistory policy history).contains name =
      history.any fun r => policy.key r.name = policy.key name := by
    rw [ofHistory, containsAddAll]
    rfl
  rw [any, List.any_eq_true, about, Ne, List.map_eq_nil_iff, List.filter_eq_nil_iff]
  simp

structure FirstOf (own : List (Overload α)) (args : List Value) (result : Except Fault (α × List Value)) : Prop where
  unknown : (∃ fault, result = .error fault ∧ fault.kind = .nameResolution) ↔ own = []
  found {before after : List (Overload α)} {o : Overload α} : own = before ++ o :: after →
    (∀ earlier ∈ before, ¬ earlier.Takes args) → o.Takes args →
      ∃ ws, result = .ok (o.tag, ws) ∧ List.zipWith Value.promote args o.params = ws.map some
  refused : (∃ fault, result = .error fault ∧ fault.kind = .overloadResolution) ↔
    own ≠ [] ∧ ∀ o ∈ own, ¬ o.Takes args

theorem resolveEq (t : OverloadTable α) (name : String) (args : List Value) :
    t.resolve name args = if t.contains name then
      (Overload.firstMatch? (t.overloads name) args).elim (.error (.noOverload name (args.map Value.type))) .ok
    else .error (.unknownName name) := by
  cases found : t.find? name with
  | none =>
    have unknown : t.contains name = false := by
      rw [contains, Table.contains, show t.names.find? _ = none from found]
      rfl
    simp [resolveUnknown unknown, unknown]
  | some entry =>
    have known : t.contains name = true := by
      rw [contains, Table.contains, show t.names.find? _ = some entry from found]
      rfl
    cases first : Overload.firstMatch? entry.overloads args <;> simp [resolve, overloads, found, first, known]

theorem resolveFailed {t : OverloadTable α} {name : String} {args : List Value} {fault : Fault}
    (failed : t.resolve name args = .error fault) :
    (t.contains name = false ∧ fault.kind = .nameResolution) ∨
      (t.contains name = true ∧ (∀ o ∈ t.overloads name, ¬ o.Takes args) ∧ fault.kind = .overloadResolution) := by
  cases known : t.contains name with
  | false =>
    rw [resolveUnknown known] at failed
    cases failed
    exact .inl ⟨rfl, rfl⟩
  | true =>
    rw [resolveEq, if_pos known] at failed
    cases first : Overload.firstMatch? (t.overloads name) args with
    | none =>
      rw [first] at failed
      cases failed
      exact .inr ⟨rfl, Overload.firstMatchNone.mp first, rfl⟩
    | some found =>
      rw [first] at failed
      cases failed

theorem resolveFirst (t : OverloadTable α) (name : String) (args : List Value)
    (known : t.contains name = true ↔ t.overloads name ≠ []) :
    FirstOf (t.overloads name) args (t.resolve name args) where
  unknown := by
    constructor
    · rintro ⟨fault, failed, kind⟩
      rcases resolveFailed failed with ⟨unknown, _⟩ | ⟨_, _, other⟩
      · simpa [unknown] using known
      · rw [other] at kind
        cases kind
    · intro none
      have unknown : t.contains name = false := by simpa [none] using known
      exact ⟨_, resolveUnknown unknown, rfl⟩
  found := by
    intro before after o split earlier takes
    have chosen : (t.overloads name).find? (fun o => decide (o.Takes args)) = some o := by
      have skipped : before.find? (fun o => decide (o.Takes args)) = none := by simpa using earlier
      rw [split, List.find?_append, skipped, List.find?_cons, decide_eq_true takes]
      rfl
    obtain ⟨ws, promoted⟩ := Option.isSome_iff_exists.mp (Overload.promotedIsSome.mpr takes)
    exact ⟨ws, resolveOk.mpr ⟨o, chosen, rfl, promoted⟩, (Value.promoteAllEqSome.mp promoted).2⟩
  refused := by
    constructor
    · rintro ⟨fault, failed, kind⟩
      rcases resolveFailed failed with ⟨_, other⟩ | ⟨contained, none, _⟩
      · rw [other] at kind
        cases kind
      · exact ⟨known.mp contained, none⟩
    · rintro ⟨some, none⟩
      exact ⟨_, resolveRefused (known.mpr some) none, rfl⟩

theorem resolvedByHistory (policy : CasePolicy) (history : List (Registered α)) (name : String) (args : List Value) :
    FirstOf (about policy name history) args ((ofHistory policy history).resolve name args) ∧
      (∀ other, about policy name other = about policy name history →
        (ofHistory policy other).resolve name args = (ofHistory policy history).resolve name args) ∧
      ∀ more found, (ofHistory policy history).resolve name args = .ok found →
        (ofHistory policy (history ++ more)).resolve name args = .ok found := by
  refine ⟨?_, fun other same => ?_, fun more found resolved => ?_⟩
  · rw [← historyOverloads]
    exact resolveFirst _ name args (by rw [historyContains, historyOverloads])
  · have contains : (ofHistory policy other).contains name = (ofHistory policy history).contains name := by
      rw [Bool.eq_iff_iff, historyContains, historyContains, same]
    rw [resolveEq, resolveEq, historyOverloads, historyOverloads, contains, same]
  · obtain ⟨tag, ws⟩ := found
    obtain ⟨o, chosen, here⟩ := resolveOk.mp resolved
    rw [historyOverloads] at chosen
    refine resolveOk.mpr ⟨o, ?_, here⟩
    rw [historyOverloads, aboutAppend, List.find?_append, chosen, Option.some_or]

def mixedHistory : List (Registered Nat) :=
  [⟨"Half", ⟨1, [.int, .int]⟩⟩, ⟨"third", ⟨2, [.int]⟩⟩, ⟨"half", ⟨3, [.int]⟩⟩]

theorem mixedHistoryResolved :
    (ofHistory .insensitive mixedHistory).resolve "HALF" [.const (.bool true)] = .ok (3, [.const (.int 1)]) ∧
      (ofHistory .insensitive (mixedHistory ++ [⟨"half", ⟨4, [.bool]⟩⟩])).resolve "HALF" [.const (.bool true)] =
        .ok (3, [.const (.int 1)]) :=
  have resolved : (ofHistory .insensitive mixedHistory).resolve "HALF" [.const (.bool true)] =
      .ok (3, [.const (.int 1)]) := by rfl
  ⟨resolved, (resolvedByHistory .insensitive mixedHistory "HALF" [.const (.bool true)]).2.2 _ _ resolved⟩

end OverloadTable

end Cqasm
