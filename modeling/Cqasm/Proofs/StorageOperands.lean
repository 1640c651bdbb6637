import Cqasm.Proofs.Coherence
import Cqasm.Proofs.Composition
import Cqasm.Proofs.Selection
import Cqasm.Proofs.Standard

/-! Instructions on qubits and bits. Operands that are storage are never converted, and at most one list of storage
types takes them, so it does not matter in which order the overloads of an instruction are registered. -/
namespace Cqasm

namespace Ty

inductive Storage : Ty → Prop where
  | single (kind : Scalar) : Storage ⟨.scalar kind, true⟩
  | register (element : Element) : Storage ⟨.array element unconstrained, true⟩

def storageCodes : List Char := ['Q', 'B', 'V', 'W']

theorem codeStorage {code : Char} (listed : code ∈ storageCodes) : ∃ t, ofCode code = .ok t ∧ Storage t := by
  simp only [storageCodes, List.mem_cons, List.not_mem_nil, or_false] at listed
  rcases listed with qubit | bit | qubits | bits
  · subst qubit
    exact ⟨_, rfl, .single .qubit⟩
  · subst bit
    exact ⟨_, rfl, .single .bit⟩
  · subst qubits
    exact ⟨_, rfl, .register .qubit⟩
  · subst bits
    exact ⟨_, rfl, .register .bit⟩

theorem codesStorage {codes : List Char} (listed : ∀ code ∈ codes, code ∈ storageCodes) :
    ∃ ts, ofCodesWith ofCode codes = .ok ts ∧ ∀ t ∈ ts, Storage t := by
  induction codes with
  | nil => exact ⟨[], rfl, by simp⟩
  | cons code rest ih =>
    obtain ⟨here, others⟩ := List.forall_mem_cons.mp listed
    obtain ⟨t, read, storage⟩ := codeStorage here
    obtain ⟨ts, tail, each⟩ := ih others
    refine ⟨t :: ts, ?_, List.forall_mem_cons.mpr ⟨storage, each⟩⟩
    rw [ofCodesWith, read, tail]
    rfl

variable {s t u : Ty}

theorem storageAssignable (storage : Storage t) : t.assignable = true := by
  cases storage <;> rfl

theorem storageCovers (storage : Storage t) (promotes : s.promotesTo t = true) :
    s.assignable = true ∧ t.shape.Covers s.shape := by
  rcases promotesIff.mp promotes with ⟨asked, covers⟩ | ⟨rvalue, _⟩
  · exact ⟨asked (storageAssignable storage), covers⟩
  · cases rvalue.symm.trans (storageAssignable storage)

theorem storageOnce (first : Storage t) (second : Storage u) (left : s.promotesTo t = true)
    (right : s.promotesTo u = true) : t = u := by
  obtain ⟨_, covers⟩ := storageCovers first left
  obtain ⟨_, coversToo⟩ := storageCovers second right
  generalize s.shape = shape at covers coversToo
  cases first with
  | single kind =>
    cases covers
    cases second with
    | single other =>
      cases coversToo
      rfl
    | register => cases coversToo
  | register element =>
    cases covers
    cases second with
    | single => cases coversToo
    | register other =>
      cases coversToo
      rfl

end Ty

namespace Value

variable {vs ws : List Value} {ts us : List Ty}

theorem allStorageOnce (first : ∀ t ∈ ts, Ty.Storage t) (second : ∀ u ∈ us, Ty.Storage u) (left : AllPromote vs ts)
    (right : AllPromote vs us) : ts = us := by
  induction left generalizing us with
  | nil => exact (List.forall₂_nil_left_iff.mp right).symm
  | cons promotes _ ih =>
    obtain ⟨u, rest, promotesToo, others, same⟩ := List.forall₂_cons_left_iff.mp right
    subst same
    obtain ⟨here, there⟩ := List.forall_mem_cons.mp first
    obtain ⟨hereToo, thereToo⟩ := List.forall_mem_cons.mp second
    rw [Ty.storageOnce here hereToo promotes promotesToo, ih there thereToo others]

theorem promoteStorage {v w : Value} {t : Ty} (storage : Ty.Storage t) (promoted : v.promote t = some w) : w = v := by
  rcases promoteCases promoted with ⟨same, _⟩ | ⟨c, d, _, _, rvalue, _⟩
  · exact same
  · cases rvalue.symm.trans (Ty.storageAssignable storage)

theorem promoteAllStorage (storage : ∀ t ∈ ts, Ty.Storage t) (promoted : promoteAll vs ts = some ws) : ws = vs := by
  induction vs generalizing ts ws with
  | nil =>
    cases ts with
    | nil =>
      cases promoted
      rfl
    | cons => cases promoted
  | cons v vs ih =>
    cases ts with
    | nil => cases promoted
    | cons t ts =>
      obtain ⟨w, first, rest, others, rfl⟩ := promoteAllCons.mp promoted
      obtain ⟨here, there⟩ := List.forall_mem_cons.mp storage
      rw [promoteStorage here first, ih there others]

theorem operandsAssignable (storage : ∀ t ∈ ts, Ty.Storage t) (takes : AllPromote vs ts) :
    ∀ v ∈ vs, v.type.assignable = true ∧ v.isConstant = false := by
  induction takes with
  | nil => simp
  | @cons v t _ _ promotes _ ih =>
    obtain ⟨here, there⟩ := List.forall_mem_cons.mp storage
    have assignable := (Ty.storageCovers here promotes).1
    refine List.forall_mem_cons.mpr ⟨⟨assignable, ?_⟩, ih there⟩
    cases v with
    | const c => cases assignable
    | reference | selection | call => rfl

end Value

namespace InstructionSet

open OverloadTable (ofInstructions memOfInstructions)

variable {set : InstructionSet}

def StorageCodes (set : InstructionSet) : Prop :=
  ∀ s ∈ set.signatures, ∀ spec ∈ s.operands, ∀ code ∈ spec.toList, code ∈ Ty.storageCodes

theorem storageCodesIff : set.StorageCodes ↔
    (set.signatures.all fun s => s.operands.all fun spec => spec.toList.all Ty.storageCodes.contains) = true := by
  simp only [StorageCodes, List.all_eq_true, List.contains_iff_mem]

instance (set : InstructionSet) : Decidable set.StorageCodes := decidable_of_iff _ storageCodesIff.symm

theorem registersStorage (storage : set.StorageCodes) {name spec : String} {kind : InstructionKind}
    (registers : set.Registers name spec kind) : ∀ code ∈ spec.toList, code ∈ Ty.storageCodes := by
  cases registers with
  | named gate operands => exact storage _ (List.mem_append_left _ gate) _ operands
  | nonGate other operands => exact storage _ (List.mem_append_right _ other) _ operands
  | composed c gate operands =>
    cases c with
    | singleQubit => exact storage _ (memSignatures gate) _ operands
    | twoQubit =>
      obtain ⟨control, listed, own, given, rfl⟩ := Signature.memControlled.mp operands
      have front : ∀ code ∈ control.toList, code ∈ Ty.storageCodes := by
        simp only [controlCodes, List.mem_cons, List.not_mem_nil, or_false] at listed
        rcases listed with qubit | register
        · subst qubit
          simp [Ty.storageCodes]
        · subst register
          simp [Ty.storageCodes]
      rw [String.toList_append]
      exact List.forall_mem_append.mpr ⟨front, storage _ (memSignatures gate) _ given⟩

theorem storageInstructions (storage : set.StorageCodes) :
    ∃ is, set.instructions = .ok is ∧ ∀ i ∈ is, ∀ t ∈ i.operands, Ty.Storage t := by
  have readable : set.Readable := by
    intro s listed spec operands
    obtain ⟨ts, read, _⟩ := Ty.codesStorage (storage s listed spec operands)
    exact ⟨ts, read⟩
  obtain ⟨is, read⟩ := instructionsReadable readable
  refine ⟨is, read, ?_⟩
  intro i member
  obtain ⟨spec, registers, operands⟩ := (memInstructions read).mp member
  obtain ⟨ts, codes, each⟩ := Ty.codesStorage (registersStorage storage registers)
  cases codes.symm.trans operands
  exact each

section Table

variable {policy : CasePolicy} {is : List Instruction} {name : String} {args ws : List Value} {i : Instruction}

theorem resolvedAmong (resolved : (ofInstructions policy is).resolve name args = .ok (i, ws)) :
    i ∈ is ∧ policy.key i.name = policy.key name ∧ Value.promoteAll args i.operands = some ws := by
  obtain ⟨o, registered, tag, promoted⟩ := OverloadTable.resolvedOverload resolved
  obtain ⟨own, member, key, rfl⟩ := memOfInstructions.mp registered
  cases tag
  exact ⟨member, key, promoted⟩

theorem resolvedInAnyOrder (storage : ∀ i ∈ is, ∀ t ∈ i.operands, Ty.Storage t)
    (resolved : (ofInstructions policy is).resolve name args = .ok (i, ws)) {order : List Instruction}
    (same : order.Perm is) :
    ∃ j, (ofInstructions policy order).resolve name args = .ok (j, args) ∧ j.operands = i.operands := by
  obtain ⟨member, key, promoted⟩ := resolvedAmong resolved
  have takes : Value.AllPromote args i.operands := Value.promoteAllSome.mp ⟨ws, promoted⟩
  have listed : (⟨i, i.operands⟩ : Overload Instruction) ∈ (ofInstructions policy order).overloads name :=
    memOfInstructions.mpr ⟨i, same.mem_iff.mpr member, key, rfl⟩
  obtain ⟨⟨j, xs⟩, again⟩ := OverloadTable.resolveSome.mpr ⟨_, listed, takes⟩
  obtain ⟨memberToo, _, promotedToo⟩ := resolvedAmong again
  have storageToo := storage j (same.mem_iff.mp memberToo)
  have takesToo : Value.AllPromote args j.operands := Value.promoteAllSome.mp ⟨xs, promotedToo⟩
  refine ⟨j, ?_, Value.allStorageOnce storageToo (storage i member) takesToo takes⟩
  rw [again, Value.promoteAllStorage storageToo promotedToo]

end Table

theorem defaultInstructions {ms : List GateModifier} {is : List Instruction} (apiVersion : Version)
    (modifiers : set.gateModifiers = .ok ms) (read : set.instructions = .ok is) :
    (Analyzer.empty apiVersion set.policy set).addDefaults.1.global.instructions = ofInstructions set.policy is := by
  have own : (Analyzer.empty apiVersion set.policy set).instructionSet = set := if_pos rfl
  rw [Analyzer.addDefaultsOk (by rw [own, modifiers]) (by rw [own, read])]
  rfl

theorem storageUnambiguous (set : InstructionSet) (storage : set.StorageCodes) :
    ∃ is, set.instructions = .ok is ∧
      (∀ apiVersion ms, set.gateModifiers = .ok ms →
        (Analyzer.empty apiVersion set.policy set).addDefaults.1.global.instructions = ofInstructions set.policy is) ∧
      ∀ (policy : CasePolicy) (name : String) (args : List Value),
        (∀ o ∈ (ofInstructions policy is).overloads name, ∀ p ∈ (ofInstructions policy is).overloads name,
          o.Takes args → p.Takes args → o.params = p.params) ∧
        (∀ i ws, (ofInstructions policy is).resolve name args = .ok (i, ws) →
          ws = args ∧ ∀ order, order.Perm is →
            ∃ j, (ofInstructions policy order).resolve name args = .ok (j, args) ∧ j.operands = i.operands) ∧
        ∀ o ∈ (ofInstructions policy is).overloads name, o.Takes args →
          ∀ a ∈ args, a.type.assignable = true ∧ a.isConstant = false := by
  obtain ⟨is, read, each⟩ := storageInstructions storage
  have params {policy : CasePolicy} {name : String} {o : Overload Instruction}
      (registered : o ∈ (ofInstructions policy is).overloads name) : ∀ t ∈ o.params, Ty.Storage t := by
    obtain ⟨i, member, _, rfl⟩ := memOfInstructions.mp registered
    exact each i member
  refine ⟨is, read, fun apiVersion ms modifiers => defaultInstructions apiVersion modifiers read, ?_⟩
  intro policy name args
  refine ⟨?_, ?_, ?_⟩
  · intro o first p second takes takesToo
    exact Value.allStorageOnce (params first) (params second) takes takesToo
  · intro i ws resolved
    obtain ⟨member, _, promoted⟩ := resolvedAmong resolved
    exact ⟨Value.promoteAllStorage (each i member) promoted, fun order same => resolvedInAnyOrder each resolved same⟩
  · intro o registered takes
    exact Value.operandsAssignable (params registered) takes

theorem standardUnambiguous :
    standard.StorageCodes ∧ ∃ is, standard.instructions = .ok is ∧ ∀ order, order.Perm is →
      ∃ j, (ofInstructions .sensitive order).resolve "2q_X" controlAndTarget = .ok (j, controlAndTarget) ∧
        j.operands = [⟨.scalar .qubit, true⟩, ⟨.array .qubit unconstrained, true⟩] := by
  have storage : standard.StorageCodes := by decide +kernel
  obtain ⟨is, read, _, unambiguous⟩ := storageUnambiguous standard storage
  obtain ⟨_, resolved, _⟩ := unambiguous .sensitive "2q_X" controlAndTarget
  have operands : standard.instructions.toOption.bind (fun is =>
      ((ofInstructions .sensitive is).resolve "2q_X" controlAndTarget).toOption.map fun found => found.1.operands) =
        some [⟨.scalar .qubit, true⟩, ⟨.array .qubit unconstrained, true⟩] := by decide +kernel
  rw [read] at operands
  cases found : (ofInstructions .sensitive is).resolve "2q_X" controlAndTarget with
  | error fault => simp [Except.toOption, found] at operands
  | ok pair =>
    have types : pair.1.operands = [⟨.scalar .qubit, true⟩, ⟨.array .qubit unconstrained, true⟩] := by
      simpa [Except.toOption, found] using operands
    refine ⟨storage, is, read, fun order same => ?_⟩
    rw [← types]
    exact (resolved pair.1 pair.2 found).2 order same

end InstructionSet

end Cqasm
