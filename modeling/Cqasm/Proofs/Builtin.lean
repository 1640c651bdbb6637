import Cqasm.Builtin.Functions
import Cqasm.Proofs.Fallible
import Cqasm.Proofs.Promotion

/-! What the native side of a function of the language promises to its declared signature: constants of the
parameter types give a constant of the result type or an evaluation fault, and nothing else is evaluated. -/
namespace Cqasm

namespace Payload

class Lawful (α : Type) [Payload α] : Prop where
  shape (a : α) : (toConstant a).shape = .scalar (kind α)
  read (c : Constant) : c.shape = .scalar (kind α) → ∃ a : α, ofValue? (.const c) = some a

instance : Lawful Bool where
  shape _ := rfl
  read c same := by
    cases c <;> cases same
    exact ⟨_, rfl⟩

instance : Lawful Int64 where
  shape _ := rfl
  read c same := by
    cases c <;> cases same
    exact ⟨_, rfl⟩

instance : Lawful Float where
  shape _ := rfl
  read c same := by
    cases c <;> cases same
    exact ⟨_, rfl⟩

instance : Lawful Complex where
  shape _ := rfl
  read c same := by
    cases c <;> cases same
    exact ⟨_, rfl⟩

theorem shapeOfAccepted {kind : Scalar} {c : Constant}
    (accepted : (Ty.ofScalar kind).accepts c.type = true) : c.shape = .scalar kind := by
  have same : Shape.accepts (.scalar kind) c.shape = true := by
    simpa [Ty.accepts, Ty.ofScalar, Constant.type] using accepted
  cases shape : c.shape with
  | scalar other =>
    have eq : kind = other := by simpa [shape, Shape.accepts] using same
    rw [eq]
  | array | matrix => simp [shape, Shape.accepts] at same

theorem readAccepted {α : Type} [Payload α] [Lawful α] {c : Constant}
    (accepted : (type α).accepts c.type = true) : ∃ a, read α (.const c) = .ok a := by
  obtain ⟨a, found⟩ := Lawful.read (α := α) c (shapeOfAccepted accepted)
  exact ⟨a, by simp [read, found]⟩

theorem typeToConstant {α : Type} [Payload α] [Lawful α] (a : α) : (toConstant a).type = type α := by
  simp [Constant.type, Lawful.shape, type, Ty.ofScalar]

end Payload

def Evaluates {β : Type} (r : Except Fault β) : Prop := ∀ fault, r = .error fault → fault.kind = .evaluation

theorem evaluatesOk {β : Type} (b : β) : Evaluates (.ok b) := fun _ failed => by cases failed

def Folded (args : List Value) (params : List Ty) : Prop :=
  List.Forall₂ (fun v t => ∃ c, v = .const c ∧ t.accepts c.type = true) args params

theorem foldedOfFits {args : List Value} {params : List Ty} (fit : List.Forall₂ Value.Fits args params)
    (constant : args.all Value.isConstant = true) : Folded args params := by
  induction fit with
  | nil => exact .nil
  | @cons v t vs ts fits _ ih =>
    simp only [List.all_cons, Bool.and_eq_true] at constant
    cases v with
    | const c => exact .cons ⟨c, rfl, fits.2 rfl⟩ (ih constant.2)
    | reference | selection | call => cases constant.1

namespace Builtin

structure Sound (b : Builtin) : Prop where
  folded {args : List Value} : Folded args b.params →
    (∃ c, b.native args = .ok (.const c) ∧ c.type = b.result) ∨
      ∃ fault, b.native args = .error fault ∧ fault.kind = .evaluation
  dynamic {args : List Value} : args.length = b.params.length → args.all Value.isConstant = false →
    b.native args = .error .dynamicValue
  constant {args : List Value} {v : Value} : b.native args = .ok v → v.isConstant = true

theorem requireConstantsOk (args : List Value) (constant : args.all Value.isConstant = true) :
    Value.requireConstants args = .ok () := by simp [Value.requireConstants, constant]

theorem requireConstantsFails {args : List Value} (dynamic : args.all Value.isConstant = false) :
    Value.requireConstants args = .error .dynamicValue := by simp [Value.requireConstants, dynamic]

theorem returned {β : Type} [Payload β] [Payload.Lawful β] {r : Except Fault β} (evaluates : Evaluates r) :
    (∃ c, r.map Payload.toValue = .ok (.const c) ∧ c.type = Payload.type β) ∨
      ∃ fault, r.map Payload.toValue = .error fault ∧ fault.kind = .evaluation := by
  cases result : r with
  | ok b => exact .inl ⟨Payload.toConstant b, rfl, Payload.typeToConstant b⟩
  | error fault => exact .inr ⟨fault, rfl, evaluates fault result⟩

section Lifted

variable {α β : Type} [Payload α] [Payload β]

theorem unaryNative (name : String) (f : α → Except Fault β) {c : Constant} {a : α}
    (read : Payload.read α (.const c) = .ok a) : (unary name f).native [.const c] = (f a).map Payload.toValue := by
  simp only [unary, Native.unary, requireConstantsOk [.const c] rfl, read, bind, Except.bind]
  cases f a <;> rfl

theorem binaryNative (name : String) (f : α → α → Except Fault β) {c d : Constant} {a b : α}
    (left : Payload.read α (.const c) = .ok a) (right : Payload.read α (.const d) = .ok b) :
    (binary name f).native [.const c, .const d] = (f a b).map Payload.toValue := by
  simp only [binary, Native.binary, requireConstantsOk [.const c, .const d] rfl, left, right, bind, Except.bind]
  cases f a b <;> rfl

variable [Payload.Lawful α] [Payload.Lawful β]

theorem unarySound (name : String) {f : α → Except Fault β} (evaluates : ∀ a, Evaluates (f a)) :
    (unary name f).Sound where
  folded {args} folded := by
    obtain ⟨v, rest, ⟨c, rfl, accepted⟩, none, rfl⟩ := List.forall₂_cons_right_iff.mp folded
    cases List.forall₂_nil_right_iff.mp none
    obtain ⟨a, read⟩ := Payload.readAccepted accepted
    rw [unaryNative name f read]
    exact returned (evaluates a)
  dynamic {args} _ dynamic := by
    simp only [unary, Native.unary, requireConstantsFails dynamic]
    rfl
  constant {args v} done := by
    obtain ⟨_, _, done⟩ := bindOk.mp done
    split at done
    · obtain ⟨x, _, done⟩ := bindOk.mp done
      obtain ⟨y, _, done⟩ := bindOk.mp done
      cases pureOk.mp done
      rfl
    · cases done

theorem binarySound (name : String) {f : α → α → Except Fault β} (evaluates : ∀ a b, Evaluates (f a b)) :
    (binary name f).Sound where
  folded {args} folded := by
    obtain ⟨v, rest, ⟨c, rfl, accepted⟩, others, rfl⟩ := List.forall₂_cons_right_iff.mp folded
    obtain ⟨w, rest, ⟨d, rfl, acceptedToo⟩, none, rfl⟩ := List.forall₂_cons_right_iff.mp others
    cases List.forall₂_nil_right_iff.mp none
    obtain ⟨a, read⟩ := Payload.readAccepted accepted
    obtain ⟨b, readToo⟩ := Payload.readAccepted acceptedToo
    rw [binaryNative name f read readToo]
    exact returned (evaluates a b)
  dynamic {args} _ dynamic := by
    simp only [binary, Native.binary, requireConstantsFails dynamic]
    rfl
  constant {args v} done := by
    obtain ⟨_, _, done⟩ := bindOk.mp done
    split at done
    · obtain ⟨x, _, done⟩ := bindOk.mp done
      obtain ⟨y, _, done⟩ := bindOk.mp done
      obtain ⟨z, _, done⟩ := bindOk.mp done
      cases pureOk.mp done
      rfl
    · cases done

theorem totalSound (name : String) (f : α → β) : (total name f).Sound :=
  unarySound name fun a => evaluatesOk (f a)

theorem total₂Sound (name : String) (f : α → α → β) : (total₂ name f).Sound :=
  binarySound name fun a b => evaluatesOk (f a b)

end Lifted

theorem branchOk {condition yes no v : Value} (done : Native.branch [condition, yes, no] = .ok v) :
    [condition, yes, no].all Value.isConstant = true ∧ (v = yes ∨ v = no) := by
  obtain ⟨_, constant, done⟩ := bindOk.mp done
  obtain ⟨b, _, done⟩ := bindOk.mp done
  cases pureOk.mp done
  refine ⟨?_, by cases b <;> simp⟩
  cases all : [condition, yes, no].all Value.isConstant with
  | true => rfl
  | false => simp [requireConstantsFails all] at constant

theorem choiceSound (kind : Scalar) : (choice (.ofScalar kind)).Sound where
  folded {args} folded := by
    obtain ⟨v, rest, ⟨c, rfl, accepted⟩, others, rfl⟩ := List.forall₂_cons_right_iff.mp folded
    obtain ⟨v, rest, ⟨d, rfl, yes⟩, last, rfl⟩ := List.forall₂_cons_right_iff.mp others
    obtain ⟨v, rest, ⟨e, rfl, no⟩, none, rfl⟩ := List.forall₂_cons_right_iff.mp last
    cases List.forall₂_nil_right_iff.mp none
    obtain ⟨b, read⟩ := Payload.readAccepted (α := Bool) accepted
    have native : (choice (.ofScalar kind)).native [.const c, .const d, .const e] =
        .ok (.const (if b then d else e)) := by
      simp only [choice, Native.branch, requireConstantsOk [.const c, .const d, .const e] rfl, read,
        bind, Except.bind]
      cases b <;> rfl
    refine .inl ⟨_, native, ?_⟩
    cases b with
    | true => simp [Constant.type, choice, Ty.ofScalar, Payload.shapeOfAccepted yes]
    | false => simp [Constant.type, choice, Ty.ofScalar, Payload.shapeOfAccepted no]
  dynamic {args} length dynamic := by
    obtain ⟨condition, yes, no, rfl⟩ := List.length_eq_three.mp length
    simp only [choice, Native.branch, requireConstantsFails dynamic]
    rfl
  constant {args v} done := by
    simp only [choice] at done
    unfold Native.branch at done
    split at done
    case h_1 condition yes no =>
      obtain ⟨constant, taken⟩ := branchOk done
      simp only [List.all_cons, List.all_nil, Bool.and_true, Bool.and_eq_true] at constant
      rcases taken with rfl | rfl
      · exact constant.2.1
      · exact constant.2.2
    case h_2 => cases done

theorem evaluatesInRange (operation : String) (n : Int) : Evaluates (inRange operation n) := by
  intro fault failed
  unfold inRange at failed
  split at failed
  · cases failed
  · cases failed
    rfl

theorem evaluatesDivide (a b : Int64) : Evaluates (divide a b) := by
  intro fault failed
  unfold divide at failed
  split at failed
  · cases failed
    rfl
  · exact evaluatesInRange _ _ fault failed

theorem evaluatesRemainder (a b : Int64) : Evaluates (remainder a b) := by
  intro fault failed
  unfold remainder at failed
  split at failed
  · cases failed
    rfl
  · split at failed
    · cases failed
      rfl
    · exact evaluatesInRange _ _ fault failed

theorem evaluatesShift (b : Int64) (shift : Int64 → Int64) : Evaluates (shiftBy b shift) := by
  intro fault failed
  unfold shiftBy at failed
  split at failed
  · cases failed
  · cases failed
    rfl

theorem arithmeticSound : ∀ b ∈ arithmetic, b.Sound := by
  simp only [arithmetic, List.forall_mem_cons, List.not_mem_nil, false_implies, implies_true, and_true]
  refine ⟨unarySound _ fun a => evaluatesInRange _ _, totalSound _ _, totalSound _ _, totalSound _ _,
    binarySound _ fun a b => evaluatesInRange _ _, total₂Sound _ _, binarySound _ fun a b => evaluatesInRange _ _,
    total₂Sound _ _, binarySound _ fun a b => evaluatesInRange _ _, total₂Sound _ _,
    binarySound _ evaluatesDivide, total₂Sound _ _, binarySound _ evaluatesRemainder, total₂Sound _ _⟩

theorem comparisonSound (symbol : String) (onBool : Bool → Bool → Bool) (onInt : Int64 → Int64 → Bool)
    (onFloat : Float → Float → Bool) : ∀ b ∈ comparison symbol onBool onInt onFloat, b.Sound := by
  simp only [comparison, List.forall_mem_cons, List.not_mem_nil, false_implies, implies_true, and_true]
  exact ⟨total₂Sound _ _, total₂Sound _ _, total₂Sound _ _⟩

theorem comparisonsSound : ∀ b ∈ comparisons, b.Sound := by
  simp only [comparisons, List.forall_mem_append]
  exact ⟨⟨⟨⟨⟨comparisonSound _ _ _ _, comparisonSound _ _ _ _⟩, comparisonSound _ _ _ _⟩,
    comparisonSound _ _ _ _⟩, comparisonSound _ _ _ _⟩, comparisonSound _ _ _ _⟩

theorem bitwiseSound : ∀ b ∈ bitwise, b.Sound := by
  simp only [bitwise, List.forall_mem_cons, List.not_mem_nil, false_implies, implies_true, and_true]
  exact ⟨total₂Sound _ _, total₂Sound _ _, total₂Sound _ _, binarySound _ fun a b => evaluatesShift _ _,
    binarySound _ fun a b => evaluatesShift _ _⟩

theorem logicalSound : ∀ b ∈ logical, b.Sound := by
  simp only [logical, List.forall_mem_cons, List.not_mem_nil, false_implies, implies_true, and_true]
  exact ⟨total₂Sound _ _, total₂Sound _ _, total₂Sound _ _, choiceSound _, choiceSound _, choiceSound _⟩

theorem mathematicsSound : ∀ b ∈ mathematics, b.Sound := by
  simp only [mathematics, List.forall_mem_cons, List.not_mem_nil, false_implies, implies_true, and_true]
  exact ⟨totalSound _ _, totalSound _ _, totalSound _ _, totalSound _ _, totalSound _ _, totalSound _ _,
    totalSound _ _, totalSound _ _, totalSound _ _, totalSound _ _, totalSound _ _, totalSound _ _,
    totalSound _ _, totalSound _ _, totalSound _ _, unarySound _ fun a => evaluatesInRange _ _, totalSound _ _⟩

theorem complexSound : ∀ b ∈ complexNumbers, b.Sound := by
  simp only [complexNumbers, List.forall_mem_cons, List.not_mem_nil, false_implies, implies_true, and_true]
  exact ⟨total₂Sound _ _, totalSound _ _, totalSound _ _⟩

theorem allSound : ∀ b ∈ all, b.Sound := by
  simp only [all, List.forall_mem_append]
  exact ⟨⟨⟨⟨⟨arithmeticSound, comparisonsSound⟩, bitwiseSound⟩, logicalSound⟩, mathematicsSound⟩, complexSound⟩

end Builtin

end Cqasm
