import Mathlib.Algebra.Order.BigOperators.Group.List
import Mathlib.Algebra.Order.Group.Int
import Cqasm.Proofs.Shorthand
import Cqasm.Proofs.Typing

/-! How many elements a value has. The count that is taken off the value is the size of its type, so a check on
operands that counts what they address compares the sizes of their types. Totals are compared as machine words, which
tells them apart as long as both fit into one. -/
namespace Cqasm

structure Matrix.Bounded {α : Type} (m : Matrix α) : Prop where
  rows : Representable m.rows
  cols : Representable m.cols
  entries : Representable (m.rows * m.cols : Nat)

def Constant.Bounded : Constant → Prop
  | .realMatrix m => m.Bounded
  | .complexMatrix m => m.Bounded
  | _ => True

namespace Value

def Bounded : Value → Prop
  | .const c => c.Bounded
  | .reference _ type => Representable type.shape.elements
  | .selection s => Representable s.indices.length
  | .call function _ => Representable function.result.shape.elements

end Value

theorem lengthKept {n : Nat} (bounded : Representable n) : Number.ofLength n = n := by
  apply Int64.toInt_ofNat_of_lt
  have below := bounded.2
  omega

theorem Matrix.Bounded.size {α : Type} {m : Matrix α} (bounded : m.Bounded) (entry : Entry) :
    (Shape.matrix entry (Number.ofLength m.rows) (Number.ofLength m.cols)).size =
      Number.ofLength (m.rows * m.cols) := by
  have elements : (Shape.matrix entry m.rows m.cols).elements = (m.rows * m.cols : Nat) := by
    rw [Shape.elements, if_neg (by omega), Int.natCast_mul]
  rw [lengthKept bounded.rows, lengthKept bounded.cols, lengthKept bounded.entries, ← elements]
  exact Shape.sizeExact (elements ▸ bounded.entries)

theorem Constant.countEq {c : Constant} (bounded : c.Bounded) : c.count = c.shape.size := by
  cases c with
  | realMatrix m | complexMatrix m => exact (Matrix.Bounded.size bounded _).symm
  | _ => rfl

/- One row more than there are 64-bit integers for, and the size of the type reads as if it were left open. With 2^32
rows and columns it is that of a matrix without entries. -/
example : (Constant.realMatrix ⟨9223372036854775808, 0, [], rfl⟩).count = 0 ∧
    (Constant.realMatrix ⟨9223372036854775808, 0, [], rfl⟩).type.size = unconstrained ∧
    (Shape.matrix .real 4294967296 4294967296).size = 0 := by decide

theorem Selection.countEq (s : Selection) : (s.indices.length : Int) = s.type.size := by
  rw [Selection.type]
  split
  case isTrue one =>
    rw [one]
    cases s.element <;> rfl
  case isFalse => rfl

namespace Value

theorem dynamicCountEq {v : Value} (dynamic : v.isConstant = false) : v.count = v.type.size := by
  cases v with
  | const => cases dynamic
  | selection s => exact s.countEq
  | reference | call => rfl

theorem countEq {v : Value} (bounded : v.Bounded) : v.count = v.type.size := by
  cases v with
  | const c => exact Constant.countEq bounded
  | reference | selection | call => exact dynamicCountEq rfl

end Value

end Cqasm
