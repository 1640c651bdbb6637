import Mathlib.Data.List.Forall2
import Cqasm.Value.Promotion

/-! Promotion of values beside promotion of types. A value can be promoted exactly where its type can; a
constant is then of a type that is accepted as it stands, and any other value is left alone. -/
namespace Cqasm

namespace Constant

open Number (floatOfInt intOfBool floatOfBool ofLength)

inductive Converts : Constant → Shape → Constant → Prop where
  | intOfBool (b : Bool) : Converts (.bool b) (.scalar .int) (.int (intOfBool b))
  | floatOfBool (b : Bool) : Converts (.bool b) (.scalar .float) (.float (floatOfBool b))
  | complexOfBool (b : Bool) : Converts (.bool b) (.scalar .complex) (.complex (.ofFloat (floatOfBool b)))
  | floatOfInt (i : Int64) : Converts (.int i) (.scalar .float) (.float (floatOfInt i))
  | complexOfInt (i : Int64) : Converts (.int i) (.scalar .complex) (.complex (.ofFloat (floatOfInt i)))
  | complexOfFloat (x : Float) : Converts (.float x) (.scalar .complex) (.complex (.ofFloat x))
  | intsOfBools {items : List Bool} {n : Int} (size : sizeAccepts n items.length = true) :
      Converts (.boolArray items) (.array .int n) (.intArray (items.map intOfBool))
  | floatsOfBools {items : List Bool} {n : Int} (size : sizeAccepts n items.length = true) :
      Converts (.boolArray items) (.array .float n) (.floatArray (items.map floatOfBool))
  | floatsOfInts {items : List Int64} {n : Int} (size : sizeAccepts n items.length = true) :
      Converts (.intArray items) (.array .float n) (.floatArray (items.map floatOfInt))
  | axisOfBools {items : List Bool} {x y z : Float} (three : items.map floatOfBool = [x, y, z]) :
      Converts (.boolArray items) (.scalar .axis) (.axis x y z)
  | axisOfInts {items : List Int64} {x y z : Float} (three : items.map floatOfInt = [x, y, z]) :
      Converts (.intArray items) (.scalar .axis) (.axis x y z)
  | axisOfFloats {items : List Float} {x y z : Float} (three : items = [x, y, z]) :
      Converts (.floatArray items) (.scalar .axis) (.axis x y z)
  | complexMatrix {m : Matrix Float} {r c : Int} (rows : sizeAccepts r (ofLength m.rows) = true)
      (cols : sizeAccepts c (ofLength m.cols) = true) :
      Converts (.realMatrix m) (.matrix .complex r c) (.complexMatrix (m.map .ofFloat))

theorem mappedThree {α : Type} {f : α → Float} {items : List α} {x y z : Float} (three : items.map f = [x, y, z]) :
    ∃ a b c, items = [a, b, c] ∧ f a = x ∧ f b = y ∧ f c = z := by
  obtain ⟨a, b, c, rfl⟩ : ∃ a b c, items = [a, b, c] := by
    apply List.length_eq_three.mp
    simpa using congrArg List.length three
  simp_all

theorem convertIff {c d : Constant} {shape : Shape} : c.convert shape = some d ↔ c.Converts shape d := by
  constructor
  · intro converted
    fun_cases convert c shape <;>
      simp only [convert, ↓reduceIte, reduceCtorEq, Option.some.injEq, Bool.false_eq_true, *] at converted
    all_goals subst converted
    case case7 size => exact .intsOfBools size
    case case9 size => exact .floatsOfBools size
    case case11 size => exact .floatsOfInts size
    case case16 fits =>
      obtain ⟨rows, cols⟩ := (Bool.and_eq_true _ _).mp fits
      exact .complexMatrix rows cols
    -- the scalars and the axes, which ask for nothing more
    all_goals constructor
    all_goals rfl
  · intro converts
    cases converts with
    | intsOfBools size | floatsOfBools size | floatsOfInts size => exact if_pos size
    | complexMatrix rows cols => exact if_pos ((Bool.and_eq_true _ _).mpr ⟨rows, cols⟩)
    | axisOfBools three | axisOfInts three =>
      obtain ⟨a, b, c, rfl, rfl, rfl, rfl⟩ := mappedThree three
      rfl
    | axisOfFloats three =>
      subst three
      rfl
    | _ => rfl

theorem convertedShape {c d : Constant} {shape : Shape} (converted : c.convert shape = some d) :
    c.shape.widensTo shape = true ∧ shape.accepts d.shape = true := by
  cases convertIff.mp converted with
  | intsOfBools size | floatsOfBools size | floatsOfInts size =>
    exact ⟨size, by simpa [Constant.shape, Shape.accepts] using size⟩
  | complexMatrix rows cols =>
    exact ⟨(Bool.and_eq_true _ _).mpr ⟨rows, cols⟩, by simp [Constant.shape, Shape.accepts, Matrix.map, rows, cols]⟩
  | axisOfBools three | axisOfInts three =>
    obtain ⟨a, b, c, rfl, _⟩ := mappedThree three
    exact ⟨rfl, rfl⟩
  | axisOfFloats three =>
    subst three
    exact ⟨rfl, rfl⟩
  | _ => exact ⟨rfl, rfl⟩

theorem listOfThree {α : Type} {items : List α} (three : ((items.length : Int) == 3) = true) :
    ∃ x y z, items = [x, y, z] := by
  have count : (items.length : Int) = 3 := by simpa using three
  exact List.length_eq_three.mp (by omega)

theorem convertOfWidens {c : Constant} {shape : Shape} (widens : c.shape.widensTo shape = true) :
    ∃ d, c.convert shape = some d := by
  cases c with
  | bool | int | float =>
    rcases shape with kind | _ | _ 
    · cases kind <;> cases widens <;> exact ⟨_, rfl⟩
    · cases widens
    · cases widens
  | boolArray items =>
    rcases shape with kind | ⟨element, n⟩ | _
    · cases kind
      case axis =>
        obtain ⟨x, y, z, rfl⟩ := listOfThree widens
        exact ⟨_, rfl⟩
      all_goals cases widens
    · cases element
      case int => exact ⟨_, if_pos widens⟩
      case float => exact ⟨_, if_pos widens⟩
      all_goals cases widens
    · cases widens
  | intArray items =>
    rcases shape with kind | ⟨element, n⟩ | _
    · cases kind
      case axis =>
        obtain ⟨x, y, z, rfl⟩ := listOfThree widens
        exact ⟨_, rfl⟩
      all_goals cases widens
    · cases element
      case float => exact ⟨_, if_pos widens⟩
      all_goals cases widens
    · cases widens
  | floatArray items =>
    rcases shape with kind | ⟨element, n⟩ | _
    · cases kind
      case axis =>
        obtain ⟨x, y, z, rfl⟩ := listOfThree widens
        exact ⟨_, rfl⟩
      all_goals cases widens
    · cases element <;> cases widens
    · cases widens
  | realMatrix m =>
    rcases shape with _ | _ | ⟨entry, r, c⟩
    · cases widens
    · cases widens
    · cases entry
      case complex => exact ⟨_, if_pos widens⟩
      case real => cases widens
  | complex | axis | string | json | complexMatrix => cases widens

end Constant

namespace Value

theorem promoteCases {v w : Value} {t : Ty} (promoted : v.promote t = some w) :
    (w = v ∧ v.type.promotesTo t = true ∧ (v.isConstant = true → t.accepts v.type = true)) ∨
      ∃ c d, v = .const c ∧ w = .const d ∧ t.assignable = false ∧ c.convert t.shape = some d := by
  unfold promote at promoted
  split at promoted
  case isTrue accepted =>
    cases promoted
    exact .inl ⟨rfl, by simp [Ty.promotesTo, accepted], fun _ => accepted⟩
  case isFalse refused =>
    split at promoted
    case h_1 c =>
      obtain ⟨rvalue, folded⟩ := Option.ite_none_left_eq_some.mp promoted
      obtain ⟨d, converted, same⟩ := Option.map_eq_some_iff.mp folded
      exact .inr ⟨c, d, rfl, same.symm, by simpa using rvalue, converted⟩
    case h_2 dynamic =>
      obtain ⟨widens, same⟩ := Option.ite_none_right_eq_some.mp promoted
      cases same
      refine .inl ⟨rfl, widens, fun constant => ?_⟩
      cases v with
      | const c => exact absurd rfl (dynamic c)
      | reference | selection | call => cases constant

/- What a value has to be where a type is asked for: a constant is of the type already, since it was folded;
any other value is converted at run time. -/
def Fits (v : Value) (t : Ty) : Prop :=
  v.type.promotesTo t = true ∧ (v.isConstant = true → t.accepts v.type = true)

theorem promotedFits {v w : Value} {t : Ty} (promoted : v.promote t = some w) : w.Fits t := by
  rcases promoteCases promoted with ⟨rfl, promotes, accepted⟩ | ⟨c, d, rfl, rfl, rvalue, converted⟩
  · exact ⟨promotes, accepted⟩
  · have accepted : t.accepts (Value.const d).type = true := by
      simp [Ty.accepts, rvalue, Value.type, Constant.type, (Constant.convertedShape converted).2]
    exact ⟨by simp [Ty.promotesTo, accepted], fun _ => accepted⟩

theorem promotedIsConstant {v w : Value} {t : Ty} (promoted : v.promote t = some w) :
    w.isConstant = v.isConstant := by
  rcases promoteCases promoted with ⟨rfl, _⟩ | ⟨c, d, rfl, rfl, _⟩ <;> rfl

theorem promotedKeeps {P : Value → Prop} (constant : ∀ c, P (.const c)) {v w : Value} {t : Ty}
    (promoted : v.promote t = some w) (holds : P v) : P w := by
  rcases promoteCases promoted with ⟨rfl, _⟩ | ⟨c, d, rfl, rfl, _⟩
  · exact holds
  · exact constant d

theorem promoteIsSome (v : Value) (t : Ty) : (v.promote t).isSome = v.type.promotesTo t := by
  rw [Bool.eq_iff_iff, Option.isSome_iff_exists]
  constructor
  · rintro ⟨w, promoted⟩
    rcases promoteCases promoted with ⟨_, promotes, _⟩ | ⟨c, d, rfl, _, rvalue, converted⟩
    · exact promotes
    · simp [Ty.promotesTo, rvalue, Value.type, Constant.type, (Constant.convertedShape converted).1]
  · intro promotes
    cases accepted : t.accepts v.type with
    | true => exact ⟨v, by simp [promote, accepted]⟩
    | false =>
      cases v with
      | const c =>
        simp only [Ty.promotesTo, accepted, Bool.false_or, Bool.and_eq_true, Bool.not_eq_true'] at promotes
        obtain ⟨rvalue, widens⟩ : t.assignable = false ∧ c.shape.widensTo t.shape = true := promotes
        obtain ⟨d, converted⟩ := Constant.convertOfWidens widens
        exact ⟨.const d, by simp [promote, accepted, rvalue, converted]⟩
      | reference | selection | call =>
        unfold promote
        exact ⟨_, by rw [if_neg (by simp [accepted]), if_pos promotes]⟩

def AllPromote (vs : List Value) (ts : List Ty) : Prop :=
  List.Forall₂ (fun v t => v.type.promotesTo t = true) vs ts

instance (vs : List Value) (ts : List Ty) : Decidable (AllPromote vs ts) :=
  inferInstanceAs (Decidable (List.Forall₂ _ vs ts))

theorem allPromoteTypes {vs ws : List Value} (types : vs.map type = ws.map type) (ts : List Ty) :
    AllPromote vs ts ↔ AllPromote ws ts := by
  have onTypes (us : List Value) : AllPromote us ts ↔
      List.Forall₂ (fun (s t : Ty) => s.promotesTo t = true) (us.map type) ts := by
    rw [List.forall₂_map_left_iff, AllPromote]
  rw [onTypes, onTypes, types]

theorem promoteAllEqSome {vs ws : List Value} {ts : List Ty} :
    promoteAll vs ts = some ws ↔ vs.length = ts.length ∧ List.zipWith promote vs ts = ws.map some := by
  induction vs generalizing ts ws with
  | nil => cases ts <;> cases ws <;> simp [promoteAll]
  | cons v vs ih =>
    cases ts with
    | nil => simp [promoteAll]
    | cons t ts =>
      cases ws with
      | nil => simp [promoteAll, Option.bind_eq_some_iff]
      | cons w ws => simp [promoteAll, Option.bind_eq_some_iff, ih, and_left_comm]

theorem promotedAll {vs ws : List Value} {ts : List Ty} (promoted : promoteAll vs ts = some ws) :
    List.Forall₂ Fits ws ts ∧ List.Forall₂ (fun v w => ∃ t, v.promote t = some w) vs ws := by
  induction vs generalizing ts ws with
  | nil =>
    cases ts with
    | nil =>
      cases promoted
      exact ⟨.nil, .nil⟩
    | cons t ts => simp [promoteAll] at promoted
  | cons v vs ih =>
    cases ts with
    | nil => simp [promoteAll] at promoted
    | cons t ts =>
      simp only [promoteAll, Option.bind_eq_bind, Option.bind_eq_some_iff] at promoted
      obtain ⟨w, first, rest, others, last⟩ := promoted
      cases Option.some.inj last
      obtain ⟨fit, sources⟩ := ih others
      exact ⟨.cons (promotedFits first) fit, .cons ⟨t, first⟩ sources⟩

theorem promotedAllLength {vs ws : List Value} {ts : List Ty} (promoted : promoteAll vs ts = some ws) :
    ws.length = ts.length := (promotedAll promoted).1.length_eq

theorem promotedAllIsConstant {vs ws : List Value} {ts : List Ty} (promoted : promoteAll vs ts = some ws) :
    ws.all isConstant = vs.all isConstant := by
  have sources := (promotedAll promoted).2
  clear promoted
  induction sources with
  | nil => rfl
  | cons head _ ih =>
    obtain ⟨t, one⟩ := head
    rw [List.all_cons, List.all_cons, promotedIsConstant one, ih]

theorem promotedAllKeeps {P : Value → Prop} (constant : ∀ c, P (.const c)) {vs ws : List Value} {ts : List Ty}
    (promoted : promoteAll vs ts = some ws) (holds : ∀ v ∈ vs, P v) : ∀ w ∈ ws, P w := by
  have sources := (promotedAll promoted).2
  clear promoted
  induction sources with
  | nil => exact holds
  | cons head _ ih =>
    obtain ⟨t, one⟩ := head
    simp only [List.forall_mem_cons] at holds ⊢
    exact ⟨promotedKeeps constant one holds.1, ih holds.2⟩

theorem promoteAllIsSome {vs : List Value} {ts : List Ty} :
    (promoteAll vs ts).isSome = true ↔ AllPromote vs ts := by
  induction vs generalizing ts with
  | nil => cases ts <;> simp [promoteAll, AllPromote]
  | cons v vs ih =>
    cases ts with
    | nil => simp [promoteAll, AllPromote]
    | cons t ts =>
      have head := promoteIsSome v t
      have tail := @ih ts
      cases first : v.promote t <;> cases others : promoteAll vs ts <;>
        simp_all [promoteAll, AllPromote]

theorem promoteAllSome {vs : List Value} {ts : List Ty} :
    (∃ ws, promoteAll vs ts = some ws) ↔ AllPromote vs ts := by
  rw [← Option.isSome_iff_exists, promoteAllIsSome]

end Value

end Cqasm
