import Cqasm.Diagnostic
import Cqasm.Scope.Stack
import Cqasm.Tree.Basic
import Cqasm.Ty.Extent

/-! Analysis of expressions: names are looked up, functions of constants evaluated, and every fault is placed
at the innermost expression with a location. -/
namespace Cqasm.Analysis

open Cqasm.Tree (Expr IndexEntry Literal)

def unplaced {α : Type} (r : Except Fault α) : Except Diagnostic α := r.mapError fun fault => ⟨fault, fault.place⟩

def placed {α : Type} (location : Option Location) (r : Except Diagnostic α) : Except Diagnostic α :=
  r.mapError (·.within location)

def literal : Literal → Constant
  | .bool b => .bool b
  | .int i => .int i
  | .float x => .float x
  | .string text => .string text
  | .json text => .json text

inductive ListItem where
  | bool (b : Bool)
  | int (i : Int64)
  | float (x : Float)
  deriving DecidableEq

namespace ListItem

def ofValue (v : Value) : Except Fault ListItem :=
  match v with
  | .const (.bool b) => .ok (.bool b)
  | .const (.int i) => .ok (.int i)
  | .const (.float x) => .ok (.float x)
  | _ => .error (.notListItem v.type)

def ofValues : List Value → Except Fault (List ListItem)
  | [] => .ok []
  | v :: vs => do
    let item ← ofValue v
    let items ← ofValues vs
    return item :: items

def isFloat : ListItem → Bool
  | .float _ => true
  | _ => false

def isInt : ListItem → Bool
  | .int _ => true
  | _ => false

def toFloat : ListItem → Float
  | .bool b => Number.floatOfBool b
  | .int i => Number.floatOfInt i
  | .float x => x

def toInt : ListItem → Int64
  | .bool b => Number.intOfBool b
  | .int i => i
  | .float _ => 0

def toBool : ListItem → Bool
  | .bool b => b
  | _ => false

def array (items : List ListItem) : Constant :=
  if items.any isFloat then .floatArray (items.map toFloat)
  else if items.any isInt then .intArray (items.map toInt)
  else .boolArray (items.map toBool)

end ListItem

def initializationList (values : List Value) : Except Fault Value := do
  let items ← ListItem.ofValues values
  return .const (ListItem.array items)

def indexable (base : Value) : Except Fault (Selection × Int) :=
  match base with
  | .reference id ⟨.array .qubit size, assignable⟩ => do
    let n ← (⟨.array .qubit size, assignable⟩ : Ty).extent
    return (⟨id, .qubit, size, assignable, []⟩, n)
  | .reference id ⟨.array .bit size, assignable⟩ => do
    let n ← (⟨.array .bit size, assignable⟩ : Ty).extent
    return (⟨id, .bit, size, assignable, []⟩, n)
  | _ => .error (.notIndexable base.type)

def constantInt (v : Value) : Except Fault Int :=
  match v.promote .int with
  | none => .error .notInteger
  | some promoted =>
    match promoted.int? with
    | some i => .ok i.toInt
    | none => .error .dynamicIndex

def singleIndex (size index : Int) : Except Fault (List Int) :=
  if index < 0 ∨ size ≤ index then .error (.indexOutOfRange index size) else .ok [index]

/-- All indices from the first to the last. A range that ends past the array is reported at the first index
that is missing. -/
def indexRange (size first last : Int) : Except Fault (List Int) :=
  if last < first then .error .reversedRange
  else if first < 0 ∨ size ≤ first then .error (.indexOutOfRange first size)
  else if size ≤ last then .error (.indexOutOfRange size size)
  else .ok ((List.range (last - first + 1).toNat).map fun (k : Nat) => first + k)

mutual

def expression (scopes : ScopeStack) : Expr → Except Diagnostic Value
  | .literal l _ => .ok (.const (literal l))
  | .name name location => placed location (unplaced (scopes.resolveVariable name))
  | .index base entries location => placed location do
    let value ← expression scopes base
    let (selection, size) ← unplaced (indexable value)
    let indices ← indexEntries scopes size entries
    return .selection { selection with indices }
  | .apply function arguments location => placed location do
    let values ← expressions scopes arguments
    unplaced (scopes.resolveFunction function values)
  | .list items location => placed location do
    let values ← expressions scopes items
    unplaced (initializationList values)

def expressions (scopes : ScopeStack) : List Expr → Except Diagnostic (List Value)
  | [] => .ok []
  | e :: rest => do
    let value ← expression scopes e
    let values ← expressions scopes rest
    return value :: values

def indexEntry (scopes : ScopeStack) (size : Int) : IndexEntry Expr → Except Diagnostic (List Int)
  | .item e => do
    let value ← expression scopes e
    let index ← placed e.location (unplaced (constantInt value))
    unplaced (singleIndex size index)
  | .range first last => do
    let firstValue ← expression scopes first
    let firstIndex ← placed first.location (unplaced (constantInt firstValue))
    let lastValue ← expression scopes last
    let lastIndex ← placed last.location (unplaced (constantInt lastValue))
    unplaced (indexRange size firstIndex lastIndex)

def indexEntries (scopes : ScopeStack) (size : Int) : List (IndexEntry Expr) → Except Diagnostic (List Int)
  | [] => .ok []
  | entry :: rest => do
    let indices ← indexEntry scopes size entry
    let others ← indexEntries scopes size rest
    return indices ++ others

end

end Cqasm.Analysis
