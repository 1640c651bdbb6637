import Cqasm.Proofs.Modifiers

/-! Where the sort of a modifier is read from. A modifier is looked up in a table, and how many qubits it asks for is
read from the instruction set by its name. The two agree unless the entry of the table was registered by hand. -/
namespace Cqasm

def GateModifier.composition (m : GateModifier) : Composition := if m.twoQubit then .twoQubit else .singleQubit

namespace InstructionSet

variable {set : InstructionSet}

theorem compositionKey {name other : String} (same : set.key name = set.key other) :
    set.compositionBy name = set.compositionBy other := by
  have sort : set.isSingleQubitModifier name = set.isSingleQubitModifier other := by
    simp only [isSingleQubitModifier, modifier?, same]
  rw [compositionBy, compositionBy, sort]

theorem signatureOfModifier (keyed : set.Keyed) {all : List GateModifier} (read : set.gateModifiers = .ok all)
    {m : GateModifier} (listed : m ∈ all) : ∃ sig, set.modifier? m.name = some sig ∧ gateModifier sig = .ok m := by
  obtain ⟨sig, entered, made⟩ := (memMapM read).mp listed
  exact ⟨sig, keyed.modifiers.find.mpr ⟨entered, by rw [(gateModifierOk made).1]⟩, made⟩

theorem compositionOfSignature {sig : ModifierSignature} {m : GateModifier} (found : set.modifier? m.name = some sig)
    (made : gateModifier sig = .ok m) : m.composition = set.compositionBy m.name := by
  have sort : set.isSingleQubitModifier m.name = !sig.twoQubit := by
    rw [isSingleQubitModifier, found]
    rfl
  rw [GateModifier.composition, (gateModifierOk made).2.1, compositionBy, sort]
  cases sig.twoQubit <;> rfl

end InstructionSet

namespace Analyzer

open Analysis

def Registration.modifiers : Registration → List GateModifier
  | .modifier m => [m]
  | .value _ _ | .native _ _ _ | .function _ | .instruction _ => []

inductive Assembled : Analyzer → List GateModifier → Prop where
  | empty (apiVersion : Version) (policy : CasePolicy) (edits : List InstructionSet.Edit) :
      Assembled (.empty apiVersion policy (.ofEdits edits)) []
  | register {a ms} (r : Registration) (before : Assembled a ms) : Assembled (a.register r) (ms ++ r.modifiers)
  | defaults {a ms} (before : Assembled a ms) : Assembled a.addDefaults.1 ms

structure ModifiersFrom (a : Analyzer) (byHand : List GateModifier) : Prop where
  keyed : a.instructionSet.Keyed
  table : ∃ ms, a.global.modifiers =
      (OverloadTable.empty a.instructionSet.policy).addAll GateModifier.name id GateModifier.params ms ∧
    ∀ m ∈ ms, m ∈ byHand ∨ ∃ all, a.instructionSet.gateModifiers = .ok all ∧ m ∈ all

theorem modifiersRegistered {a : Analyzer} {byHand : List GateModifier} (before : a.ModifiersFrom byHand)
    (r : Registration) : (a.register r).ModifiersFrom (byHand ++ r.modifiers) := by
  obtain ⟨keyed, ms, table, origin⟩ := before
  cases r with
  | modifier m =>
    refine ⟨keyed, ms ++ [m], ?_, ?_⟩
    · change a.global.modifiers.add m.name m m.params = _
      rw [table, OverloadTable.addAll, OverloadTable.addAll, List.foldl_append]
      rfl
    · intro x member
      rcases List.mem_append.mp member with old | new
      · exact (origin x old).imp_left (List.mem_append_left _)
      · exact .inl (List.mem_append_right _ new)
  | value | native | function | instruction =>
    exact ⟨keyed, ms, table, fun x old => (origin x old).imp_left (List.mem_append_left _)⟩

theorem modifiersDefaults {a : Analyzer} {byHand : List GateModifier} (before : a.ModifiersFrom byHand) :
    a.addDefaults.1.ModifiersFrom byHand := by
  obtain ⟨keyed, ms, table, origin⟩ := before
  obtain ⟨more, is, same, known, _⟩ := addDefaultsEq a
  rw [same]
  refine ⟨keyed, ms ++ more, ?_, List.forall_mem_append.mpr ⟨origin, fun x new => .inr (known x new)⟩⟩
  rw [modifyGlobal, defaults, table]
  exact List.foldl_append.symm

theorem Assembled.modifiersFrom {a : Analyzer} {byHand : List GateModifier} (assembled : a.Assembled byHand) :
    a.ModifiersFrom byHand := by
  induction assembled with
  | empty apiVersion policy edits =>
    obtain ⟨keyed, ⟨ms, table, known⟩, _⟩ := fromSetEmpty apiVersion policy edits
    exact ⟨keyed, ms, table, fun m member => .inr (known m member)⟩
  | register r _ ih => exact modifiersRegistered ih r
  | defaults _ ih => exact modifiersDefaults ih

theorem ModifiersFrom.found {a : Analyzer} {byHand : List GateModifier} (origin : a.ModifiersFrom byHand)
    {name : String}
    {args ws : List Value} {m : GateModifier} (resolved : a.global.modifiers.resolve name args = .ok (m, ws)) :
    a.instructionSet.key m.name = a.instructionSet.key name ∧ Value.promoteAll args m.params = some ws ∧
      (m ∈ byHand ∨ ∃ sig, a.instructionSet.modifier? m.name = some sig ∧ InstructionSet.gateModifier sig = .ok m) := by
  obtain ⟨keyed, ms, table, entries⟩ := origin
  obtain ⟨o, registered, tag, promoted⟩ := OverloadTable.resolvedOverload resolved
  rw [table] at registered
  obtain ⟨own, member, same, rfl⟩ := OverloadTable.registeredOverload _ _ _ registered
  cases tag
  refine ⟨same, promoted, (entries own member).imp_right fun listed => ?_⟩
  obtain ⟨all, read, inside⟩ := listed
  exact InstructionSet.signatureOfModifier keyed read inside

/- The set decides under which name a gate with modifiers is looked up. The entry that was found for the outermost
modifier decides it too, but for an entry registered by hand whose sort is not the one that the set gives its name. -/
theorem compositionByDescriptor {a : Analyzer} {byHand : List GateModifier} (assembled : a.Assembled byHand)
    {p : Tree.Program} {t : State} (reached : Reaches a.instructionSet (a.start p) t) {node : GateNode Tree.Expr}
    {tree : Gate Tree.Expr} {g : Gate Value}
    (accepted : (gate a.instructionSet t.scopes (.modified node tree)).result = .ok g) :
    ∃ given m ws, optionalExpression t.scopes node.parameter = .ok given ∧
      t.scopes.resolveModifier node.name given.toList = .ok (m, ws) ∧
      g.resolutionName a.instructionSet = (a.instructionSet.compositionBy node.name).nameOf g.terminalName ∧
      (g.resolutionName a.instructionSet = m.composition.nameOf g.terminalName ↔
        m.composition = a.instructionSet.compositionBy m.name) ∧
      (m ∈ byHand ∨ m.composition = a.instructionSet.compositionBy m.name) := by
  cases gateOk accepted with
  | @modified _ n _ inner here =>
    obtain ⟨given, m, ws, analysed, resolved, _⟩ := modifierParameterOk here.parameter
    have found := resolved
    rw [reachedModifier reached] at found
    obtain ⟨key, _, origin⟩ := assembled.modifiersFrom.found found
    have bySet : (Gate.modified n inner).resolutionName a.instructionSet =
        (a.instructionSet.compositionBy node.name).nameOf (Gate.modified n inner).terminalName := by
      rw [InstructionSet.resolutionNameModified, here.name]
      rfl
    refine ⟨given, m, ws, analysed, resolved, bySet, ?_, origin.imp_right fun fromSet => ?_⟩
    · rw [bySet, ← InstructionSet.compositionKey key]
      constructor
      · intro same
        exact (Composition.nameOfEq same).1.symm
      · intro same
        rw [same]
    · obtain ⟨sig, entered, made⟩ := fromSet
      exact InstructionSet.compositionOfSignature entered made

def blank : Tree.Program := ⟨⟨[3, 0]⟩, none, []⟩

def countedControl : Analyzer := standard.register (.modifier ⟨"ctrl", some ⟨.scalar .int, false⟩, true⟩)

theorem standardAssembled : standard.Assembled [] :=
  .defaults (InstructionSet.standardOfEdits ▸ .empty _ _ InstructionSet.standardEdits)

def twoControls : GateNode Tree.Expr := ⟨"ctrl", some (.literal (.int 2) none), [], none⟩

def bareX : Gate Tree.Expr := .named ⟨"X", none, [], none⟩

theorem countedControlComposed :
    countedControl.Assembled [⟨"ctrl", some ⟨.scalar .int, false⟩, true⟩] ∧
      ∃ g, (gate countedControl.instructionSet (countedControl.start blank).scopes
          (.modified twoControls bareX)).result = .ok g ∧
        g.resolutionName countedControl.instructionSet = "2q_X" ∧
        ∃ given m ws, optionalExpression (countedControl.start blank).scopes twoControls.parameter = .ok given ∧
          (countedControl.start blank).scopes.resolveModifier "ctrl" given.toList = .ok (m, ws) ∧
          (g.resolutionName countedControl.instructionSet = m.composition.nameOf g.terminalName ↔
            m.composition = countedControl.instructionSet.compositionBy m.name) := by
  have assembled : countedControl.Assembled [⟨"ctrl", some ⟨.scalar .int, false⟩, true⟩] :=
    .register _ standardAssembled
  have named : (gate countedControl.instructionSet (countedControl.start blank).scopes
      (.modified twoControls bareX)).result.toOption.map (·.resolutionName countedControl.instructionSet) =
        some "2q_X" := by decide +kernel
  cases accepted : (gate countedControl.instructionSet (countedControl.start blank).scopes
      (.modified twoControls bareX)).result with
  | error d =>
    rw [accepted] at named
    cases named
  | ok g =>
    rw [accepted] at named
    obtain ⟨given, m, ws, analysed, resolved, _, agrees, _⟩ := compositionByDescriptor assembled .refl accepted
    exact ⟨assembled, g, rfl, Option.some.inj named, given, m, ws, analysed, resolved, agrees⟩

def adjoint : Analyzer := standard.register (.modifier ⟨"adj", none, false⟩)

theorem adjointComposed :
    adjoint.Assembled [⟨"adj", none, false⟩] ∧
      ((adjoint.start blank).scopes.resolveModifier "adj" []).toOption.map (fun found => found.1.twoQubit) =
        some false ∧
      (gate adjoint.instructionSet (adjoint.start blank).scopes
        (.modified ⟨"adj", none, [], none⟩ bareX)).result.toOption.map
          (·.resolutionName adjoint.instructionSet) = some "2q_X" :=
  ⟨.register _ standardAssembled, by decide +kernel, by decide +kernel⟩

end Analyzer

end Cqasm
