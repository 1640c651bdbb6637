import Cqasm.Gate.Rules
import Cqasm.InstructionSet.Standard
import Cqasm.Proofs.Promotion

/-! Promotion as an order. The widenings are listed one by one and never chained, and still promotion is reflexive
and transitive on types, and a constant comes out the same whichever types it was promoted through on the way. -/
namespace Cqasm

theorem sizeAcceptsRefl (n : Int) : sizeAccepts n n = true := by simp [sizeAccepts]

theorem sizeAcceptsTrans {n m k : Int} (first : sizeAccepts m n = true) (second : sizeAccepts k m = true) :
    sizeAccepts k n = true := by
  simp only [sizeAccepts, Bool.or_eq_true, decide_eq_true_eq, beq_iff_eq] at first second ⊢
  omega

namespace Scalar

def width? : Scalar → Option Nat
  | .bool => some 0
  | .int => some 1
  | .float => some 2
  | .complex => some 3
  | .axis | .string | .json | .qubit | .bit => none

def Below (k l : Scalar) : Prop := ∃ i j, k.width? = some i ∧ l.width? = some j ∧ i < j

theorem belowTrans {k l m : Scalar} (first : k.Below l) (second : l.Below m) : k.Below m := by
  obtain ⟨i, j, narrow, middle, less⟩ := first
  obtain ⟨_, n, again, wide, more⟩ := second
  cases middle.symm.trans again
  exact ⟨i, n, narrow, wide, Nat.lt_trans less more⟩

theorem notBelowSelf (k : Scalar) : ¬ k.Below k := by
  rintro ⟨i, j, left, right, less⟩
  cases left.symm.trans right
  exact Nat.lt_irrefl i less

end Scalar

namespace Shape

inductive Covers : Shape → Shape → Prop where
  | scalar (kind : Scalar) : Covers (.scalar kind) (.scalar kind)
  | array (element : Element) {n m : Int} (size : sizeAccepts n m = true) :
      Covers (.array element n) (.array element m)
  | matrix (entry : Entry) {r c s d : Int} (rows : sizeAccepts r s = true) (cols : sizeAccepts c d = true) :
      Covers (.matrix entry r c) (.matrix entry s d)

/- Whatever is below the complex numbers can be a component of an axis. -/
inductive Widens : Shape → Shape → Prop where
  | scalar {k l : Scalar} (wider : k.Below l) : Widens (.scalar k) (.scalar l)
  | array {e f : Element} {n m : Int} (wider : e.scalar.Below f.scalar) (size : sizeAccepts m n = true) :
      Widens (.array e n) (.array f m)
  | axis {e : Element} (number : e.scalar.Below .complex) : Widens (.array e 3) (.scalar .axis)
  | matrix {r c s d : Int} (rows : sizeAccepts s r = true) (cols : sizeAccepts d c = true) :
      Widens (.matrix .real r c) (.matrix .complex s d)

theorem acceptsIff {expected actual : Shape} : expected.accepts actual = true ↔ expected.Covers actual := by
  constructor
  · intro accepted
    fun_cases accepts expected actual
    case case1 k l =>
      cases beq_iff_eq.mp accepted
      exact .scalar k
    case case2 e n f m =>
      obtain ⟨same, size⟩ := (Bool.and_eq_true _ _).mp accepted
      cases beq_iff_eq.mp same
      exact .array e size
    case case3 e r c f s d =>
      simp only [accepts, Bool.and_eq_true, beq_iff_eq] at accepted
      obtain ⟨⟨rfl, rows⟩, cols⟩ := accepted
      exact .matrix e rows cols
    case case4 => simp_all [accepts]
  · intro covers
    cases covers with
    | scalar kind => simp [accepts]
    | array element size => simp [accepts, size]
    | matrix entry rows cols => simp [accepts, rows, cols]

theorem widensIff {source target : Shape} : source.widensTo target = true ↔ source.Widens target := by
  constructor
  · intro widens
    fun_cases widensTo source target
    case case1 | case2 | case3 | case4 | case5 | case6 => exact .scalar ⟨_, _, rfl, rfl, by decide⟩
    case case7 | case8 | case9 => exact .array ⟨_, _, rfl, rfl, by decide⟩ widens
    case case10 | case11 | case12 =>
      cases beq_iff_eq.mp widens
      exact .axis ⟨_, _, rfl, rfl, by decide⟩
    case case13 =>
      obtain ⟨rows, cols⟩ := (Bool.and_eq_true _ _).mp widens
      exact .matrix rows cols
    case case14 => simp_all [widensTo]
  · intro widens
    cases widens with
    | @scalar k l wider => cases k <;> cases l <;> simp_all [Scalar.Below, Scalar.width?, widensTo]
    | @array e f n m wider size =>
      cases e <;> cases f <;> simp_all [Scalar.Below, Scalar.width?, Element.scalar, widensTo]
    | @axis e number => cases e <;> simp_all [Scalar.Below, Scalar.width?, Element.scalar, widensTo]
    | matrix rows cols => simp [widensTo, rows, cols]

theorem Covers.refl (shape : Shape) : shape.Covers shape := by
  cases shape with
  | scalar kind => exact .scalar kind
  | array element n => exact .array element (sizeAcceptsRefl n)
  | matrix entry r c => exact .matrix entry (sizeAcceptsRefl r) (sizeAcceptsRefl c)

section Composition

variable {s t u : Shape}

theorem coversTrans (first : t.Covers s) (second : u.Covers t) : u.Covers s := by
  cases first with
  | scalar kind => exact second
  | array element size =>
    cases second with
    | array _ wider => exact .array element (sizeAcceptsTrans size wider)
  | matrix entry rows cols =>
    cases second with
    | matrix _ moreRows moreCols =>
      exact .matrix entry (sizeAcceptsTrans rows moreRows) (sizeAcceptsTrans cols moreCols)

theorem widensCovered (first : s.Widens t) (second : u.Covers t) : s.Widens u := by
  cases first with
  | scalar wider =>
    cases second with
    | scalar => exact .scalar wider
  | array wider size =>
    cases second with
    | array _ more => exact .array wider (sizeAcceptsTrans size more)
  | axis number =>
    cases second with
    | scalar => exact .axis number
  | matrix rows cols =>
    cases second with
    | matrix _ moreRows moreCols => exact .matrix (sizeAcceptsTrans rows moreRows) (sizeAcceptsTrans cols moreCols)

theorem sizeOfThree {n : Int} (size : sizeAccepts 3 n = true) : n = 3 := by
  simp only [sizeAccepts, Bool.or_eq_true, decide_eq_true_eq, beq_iff_eq] at size
  omega

theorem coveredWidens (first : t.Covers s) (second : t.Widens u) : s.Widens u := by
  cases first with
  | scalar kind => exact second
  | array element size =>
    cases second with
    | array wider more => exact .array wider (sizeAcceptsTrans size more)
    | axis number =>
      cases sizeOfThree size
      exact .axis number
  | matrix entry rows cols =>
    cases second with
    | matrix moreRows moreCols => exact .matrix (sizeAcceptsTrans rows moreRows) (sizeAcceptsTrans cols moreCols)

theorem widensTrans (first : s.Widens t) (second : t.Widens u) : s.Widens u := by
  cases first with
  | scalar wider =>
    cases second with
    | scalar more => exact .scalar (Scalar.belowTrans wider more)
  | array wider size =>
    cases second with
    | array more others => exact .array (Scalar.belowTrans wider more) (sizeAcceptsTrans size others)
    | axis number =>
      cases sizeOfThree size
      exact .axis (Scalar.belowTrans wider number)
  | axis number =>
    cases second with
    | scalar more =>
      obtain ⟨_, _, none, _⟩ := more
      cases none
  | matrix => cases second

theorem widensUncovered (widens : s.Widens t) : t.accepts s = false := by
  rw [Bool.eq_false_iff, Ne, acceptsIff]
  intro covers
  cases widens with
  | scalar wider =>
    cases covers
    exact Scalar.notBelowSelf _ wider
  | array wider size =>
    cases covers
    exact Scalar.notBelowSelf _ wider
  | axis | matrix => cases covers

end Composition

end Shape

namespace Ty

theorem promotesIff {s t : Ty} : s.promotesTo t = true ↔
    ((t.assignable = true → s.assignable = true) ∧ t.shape.Covers s.shape) ∨
      (t.assignable = false ∧ s.shape.Widens t.shape) := by
  simp only [promotesTo, accepts, Bool.or_eq_true, Bool.and_eq_true, Bool.not_eq_true',
    Shape.acceptsIff, Shape.widensIff]
  cases t.assignable <;> simp

theorem promotesRefl (t : Ty) : t.promotesTo t = true := promotesIff.mpr (.inl ⟨id, .refl t.shape⟩)

theorem promotesTrans {s t u : Ty} (first : s.promotesTo t = true) (second : t.promotesTo u = true) :
    s.promotesTo u = true := by
  rw [promotesIff] at first second ⊢
  rcases first with ⟨storage, covers⟩ | ⟨rvalue, widens⟩ <;> rcases second with ⟨asked, more⟩ | ⟨target, more⟩
  · exact .inl ⟨fun assignable => storage (asked assignable), Shape.coversTrans covers more⟩
  · exact .inr ⟨target, Shape.coveredWidens covers more⟩
  · have target : u.assignable = false := by
      rw [Bool.eq_false_iff]
      intro assignable
      cases rvalue.symm.trans (asked assignable)
    exact .inr ⟨target, Shape.widensCovered widens more⟩
  · exact .inr ⟨target, Shape.widensTrans widens more⟩

end Ty

namespace Constant

variable {c d e : Constant} {t u : Shape}

theorem convertedCovered (converts : c.Converts t d) (covers : u.Covers d.shape) : c.Converts u d := by
  cases converts with
  | intsOfBools =>
    cases covers with
    | array _ size => exact .intsOfBools (by simpa using size)
  | floatsOfBools =>
    cases covers with
    | array _ size => exact .floatsOfBools (by simpa using size)
  | floatsOfInts =>
    cases covers with
    | array _ size => exact .floatsOfInts (by simpa using size)
  | complexMatrix =>
    cases covers with
    | matrix _ rows cols => exact .complexMatrix rows cols
  | axisOfBools three =>
    cases covers
    exact .axisOfBools three
  | axisOfInts three =>
    cases covers
    exact .axisOfInts three
  | axisOfFloats three =>
    cases covers
    exact .axisOfFloats three
  | _ =>
    cases covers
    constructor

theorem floatOfIntOfBool : Number.floatOfInt ∘ Number.intOfBool = Number.floatOfBool :=
  funext Number.floatOfIntOfBool

theorem convertedTwice (first : c.Converts t d) (second : d.Converts u e) : c.Converts u e := by
  cases first with
  | intOfBool b =>
    cases second with
    | floatOfInt =>
      rw [Number.floatOfIntOfBool]
      exact .floatOfBool b
    | complexOfInt =>
      rw [Number.floatOfIntOfBool]
      exact .complexOfBool b
  | floatOfBool b =>
    cases second with
    | complexOfFloat => exact .complexOfBool b
  | floatOfInt i =>
    cases second with
    | complexOfFloat => exact .complexOfInt i
  | intsOfBools =>
    cases second with
    | floatsOfInts size =>
      rw [List.map_map, floatOfIntOfBool]
      exact .floatsOfBools (by simpa using size)
    | axisOfInts three =>
      rw [List.map_map, floatOfIntOfBool] at three
      exact .axisOfBools three
  | floatsOfBools =>
    cases second with
    | axisOfFloats three => exact .axisOfBools three
  | floatsOfInts =>
    cases second with
    | axisOfFloats three => exact .axisOfInts three
  | complexOfBool | complexOfInt | complexOfFloat | axisOfBools | axisOfInts | axisOfFloats | complexMatrix =>
    cases second

theorem convertedCount (converts : c.Converts t d) : d.count = c.count := by
  cases converts with
  | axisOfBools three | axisOfInts three =>
    obtain ⟨x, y, z, rfl, _⟩ := mappedThree three
    rfl
  | axisOfFloats three =>
    subst three
    rfl
  | _ => simp [count, Matrix.map]

end Constant

namespace Value

theorem promoteConverted {c d : Constant} {t : Ty} (rvalue : t.assignable = false)
    (converted : c.convert t.shape = some d) : (Value.const c).promote t = some (.const d) := by
  have refused : t.accepts (Value.const c).type = false := by
    have uncovered := Shape.widensUncovered (Shape.widensIff.mp (Constant.convertedShape converted).1)
    simp [Ty.accepts, Value.type, Constant.type, uncovered]
  simp [promote, refused, rvalue, converted]

theorem promotedTwice {v w x : Value} {t u : Ty} (first : v.promote t = some w) (second : w.promote u = some x) :
    v.promote u = some x := by
  rcases promoteCases first with ⟨rfl, _⟩ | ⟨c, d, rfl, rfl, _, converted⟩
  · exact second
  rcases promoteCases second with ⟨rfl, _, accepted⟩ | ⟨_, e, same, rfl, rvalue, again⟩
  · have accepts := accepted rfl
    simp only [Ty.accepts, Value.type, Constant.type, Bool.or_false, Bool.and_eq_true, Bool.not_eq_true'] at accepts
    obtain ⟨rvalue, covered⟩ := accepts
    have still := Constant.convertedCovered (Constant.convertIff.mp converted) (Shape.acceptsIff.mp covered)
    exact promoteConverted rvalue (Constant.convertIff.mpr still)
  · cases same
    have direct := Constant.convertedTwice (Constant.convertIff.mp converted) (Constant.convertIff.mp again)
    exact promoteConverted rvalue (Constant.convertIff.mpr direct)

theorem promotedCount {v w : Value} {t : Ty} (promoted : v.promote t = some w) : w.count = v.count := by
  rcases promoteCases promoted with ⟨rfl, _⟩ | ⟨c, d, rfl, rfl, _, converted⟩
  · rfl
  · exact Constant.convertedCount (Constant.convertIff.mp converted)

theorem promotedAgain {v w : Value} {t : Ty} (promoted : v.promote t = some w) : w.promote t = some w := by
  have accepted := (promotedFits promoted).2
  rcases promoteCases promoted with ⟨rfl, _⟩ | ⟨c, d, rfl, rfl, _⟩
  · exact promoted
  · simp [promote, accepted rfl]

structure Promoted (t : Ty) (v w : Value) : Prop where
  dynamic : v.isConstant = false → w = v
  constant : v.isConstant = true → w.isConstant = true ∧ t.accepts w.type = true
  count : w.count = v.count
  settled : w.promote t = some w

theorem promotedIs {v w : Value} {t : Ty} (promoted : v.promote t = some w) : Promoted t v w where
  dynamic unknown := by
    rcases promoteCases promoted with ⟨same, _⟩ | ⟨c, d, rfl, _⟩
    · exact same
    · cases unknown
  constant known := by
    have constant : w.isConstant = true := (promotedIsConstant promoted).trans known
    exact ⟨constant, (promotedFits promoted).2 constant⟩
  count := promotedCount promoted
  settled := promotedAgain promoted

theorem promoteSome {v : Value} {t : Ty} : (∃ w, v.promote t = some w) ↔ v.type.promotesTo t = true := by
  rw [← promoteIsSome, Option.isSome_iff_exists]

theorem resolvedPromotion {set : InstructionSet} {name : String} {v w : Value} {t : Ty}
    (declared : set.paramType? name = some t) (promoted : v.promote t = some w) :
    set.resolveParameter name v = .ok w := by
  have promotes : v.type.promotesTo t = true := promoteSome.mp ⟨w, promoted⟩
  simp [InstructionSet.resolveParameter, declared, promotes, promoted]

theorem promotionAgrees (v : Value) (t : Ty) :
    ((∃ w, v.promote t = some w) ↔ v.type.promotesTo t = true) ∧
      (∀ w, v.promote t = some w → Promoted t v w) ∧
      ∀ (set : InstructionSet) (name : String), set.paramType? name = some t → v.type.promotesTo t = true →
        ∃ w, v.promote t = some w ∧ set.resolveParameter name v = .ok w := by
  refine ⟨promoteSome, fun _ promoted => promotedIs promoted, fun set name declared promotes => ?_⟩
  obtain ⟨w, promoted⟩ := promoteSome.mpr promotes
  exact ⟨w, promoted, resolvedPromotion declared promoted⟩

theorem angleOfBool :
    InstructionSet.standard.paramType? "Rx" = some .float ∧ (Value.const (.bool true)).type.promotesTo .float = true ∧
      Promoted .float (.const (.bool true)) (.const (.float 1.0)) ∧
      ∃ w, (Value.const (.bool true)).promote .float = some w ∧
        InstructionSet.standard.resolveParameter "Rx" (.const (.bool true)) = .ok w :=
  have agrees := promotionAgrees (.const (.bool true)) .float
  have declared : InstructionSet.standard.paramType? "Rx" = some .float := by decide +kernel
  ⟨declared, rfl, agrees.2.1 _ rfl, agrees.2.2 .standard "Rx" declared rfl⟩

theorem promotionCoherent :
    (∀ t : Ty, t.promotesTo t = true) ∧
      (∀ s t u : Ty, s.promotesTo t = true → t.promotesTo u = true → s.promotesTo u = true) ∧
      (∀ (v w x : Value) (t u : Ty), v.promote t = some w → w.promote u = some x → v.promote u = some x) ∧
      ∀ (v w₁ w₂ x₁ x₂ : Value) (t₁ t₂ u : Ty), v.promote t₁ = some w₁ → w₁.promote u = some x₁ →
        v.promote t₂ = some w₂ → w₂.promote u = some x₂ → x₁ = x₂ := by
  refine ⟨Ty.promotesRefl, fun _ _ _ => Ty.promotesTrans, fun _ _ _ _ _ => promotedTwice, ?_⟩
  intro v w₁ w₂ x₁ x₂ t₁ t₂ u to₁ from₁ to₂ from₂
  have direct := promotedTwice to₁ from₁
  rw [promotedTwice to₂ from₂] at direct
  exact (Option.some.inj direct).symm

theorem axisByWayOfIntegers :
    (Value.const (.boolArray [true, false, true])).promote ⟨.array .int unconstrained, false⟩ =
        some (.const (.intArray [1, 0, 1])) ∧
      (Value.const (.intArray [1, 0, 1])).promote ⟨.scalar .axis, false⟩ =
        (Value.const (.boolArray [true, false, true])).promote ⟨.scalar .axis, false⟩ :=
  have first : (Value.const (.boolArray [true, false, true])).promote ⟨.array .int unconstrained, false⟩ =
      some (.const (.intArray [1, 0, 1])) := rfl
  ⟨first, (promotionCoherent.2.2.1 _ _ _ _ _ first rfl).symm⟩

end Value

end Cqasm
