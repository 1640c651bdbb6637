import Cqasm.Proofs.Confinement
import Cqasm.Proofs.Ranges

/-! Where the blocks of an analysed program are. A block is grown statement by statement, while the blocks inside it are
complete before they are added, and ends up exactly around its statements: nowhere if none of them is anywhere, and
else from the first beginning to the last end. -/
namespace Cqasm

open Cqasm.Location (hullOf Hull Around)

namespace Tree

mutual

def Statement.written : Statement → List (Option Location)
  | .declare d => [d.location]
  | .gate i => [i.location]
  | .nonGate i => [i.location]
  | .assign a => [a.location]
  | .block body _ => writtenIn body

def writtenIn : List Statement → List (Option Location)
  | [] => []
  | first :: rest => first.written ++ writtenIn rest

end

def Program.Ordered (p : Program) : Prop := ∀ l, some l ∈ writtenIn p.statements → l.Ordered

end Tree

namespace Graph

inductive Statement.Hulled : Statement → Prop where
  | gate {g} (ordered : ∀ l, g.location = some l → l.Ordered) : Hulled (.gate g)
  | nonGate {i} (ordered : ∀ l, i.location = some l → l.Ordered) : Hulled (.nonGate i)
  | assign {a} (ordered : ∀ l, a.location = some l → l.Ordered) : Hulled (.assign a)
  | block {ids ss} (inside : ∀ s ∈ ss, Hulled s) : Hulled (.block ids ss (hullOf (ss.map location)))

structure ExactHull (ss : List Statement) (location : Option Location) : Prop where
  absent : location = none ↔ ∀ s ∈ ss, s.location = none
  hull : ∀ l, location = some l → Hull (ss.filterMap Statement.location) l
  least : ∀ l, location = some l → ∀ r : Location, (∀ s ∈ ss, ∀ m, s.location = some m → r.Covers m) → r.Covers l
  -- also what stands in the blocks among the statements, at any depth
  inside : ∀ s ∈ ss, ∀ visible around deeper, s.At visible around deeper →
    ∀ m, deeper.location = some m → ∃ l, location = some l ∧ l.Covers m
  anyOrder : ∀ others : List Statement, others.Perm ss →
    (others.foldl Block.addStatement .empty).location.map Location.range = location.map Location.range

variable {s root : Statement} {ss : List Statement}

theorem placesOrdered (ordered : ∀ s ∈ ss, ∀ l, s.location = some l → l.Ordered) :
    ∀ m, some m ∈ ss.map Statement.location → m.Ordered := by
  intro m member
  obtain ⟨s, found, placed⟩ := List.mem_map.mp member
  exact ordered s found m placed

theorem placesAround (ordered : ∀ s ∈ ss, ∀ l, s.location = some l → l.Ordered) :
    Around (ss.filterMap Statement.location) (hullOf (ss.map Statement.location)) := by
  have places : (ss.map Statement.location).reduceOption = ss.filterMap Statement.location := by
    rw [List.reduceOption, List.filterMap_map]
    rfl
  rw [← places]
  exact Location.aroundAll (placesOrdered ordered)

theorem addedLocation (ss : List Statement) (b : Block) :
    (ss.foldl Block.addStatement b).location =
      ss.foldl (fun covered st => Block.hull covered st.location) b.location := by
  induction ss generalizing b with
  | nil => rfl
  | cons s ss ih => exact ih (b.addStatement s)

namespace Statement

theorem Hulled.ordered (hulled : s.Hulled) : ∀ l, s.location = some l → l.Ordered := by
  induction hulled with
  | gate ordered | nonGate ordered | assign ordered => exact ordered
  | @block ids ss inside ih =>
    intro l grown
    have around := placesAround ih
    rw [show hullOf (ss.map location) = some l from grown] at around
    refine Hull.ordered around fun m member => ?_
    obtain ⟨s, found, placed⟩ := List.mem_filterMap.mp member
    exact ih s found m placed

theorem hulledAround (inside : ∀ s ∈ ss, s.Hulled) : Around (ss.filterMap location) (hullOf (ss.map location)) :=
  placesAround fun s found => (inside s found).ordered

theorem Hulled.covers (hulled : root.Hulled) {visible around : List Nat} (occurs : root.At visible around s)
    {m : Location} (placed : s.location = some m) : ∃ l, root.location = some l ∧ l.Covers m := by
  induction occurs with
  | here => exact ⟨m, placed, .refl m⟩
  | inside found deeper ih =>
    cases hulled with
    | block inside =>
      obtain ⟨l, here, covers⟩ := ih (inside _ found) placed
      obtain ⟨whole, grown, outer⟩ := (hulledAround inside).covers (List.mem_filterMap.mpr ⟨_, found, here⟩)
      exact ⟨whole, grown, outer.trans covers⟩

theorem Hulled.inside (hulled : root.Hulled) {visible around : List Nat} (occurs : root.At visible around s) :
    s.Hulled := by
  induction occurs with
  | here => exact hulled
  | inside found deeper ih =>
    cases hulled with
    | block inside => exact ih (inside _ found)

end Statement

theorem exactHull (inside : ∀ s ∈ ss, s.Hulled) : ExactHull ss (hullOf (ss.map Statement.location)) := by
  have around := Statement.hulledAround inside
  have whole {l} (grown : hullOf (ss.map Statement.location) = some l) : Hull (ss.filterMap Statement.location) l := by
    rwa [grown] at around
  constructor
  case absent => rw [around.absent, List.filterMap_eq_nil_iff]
  case hull => exact fun l => whole
  case least =>
    intro l grown r outer
    refine (whole grown).least fun m member => ?_
    obtain ⟨s, found, placed⟩ := List.mem_filterMap.mp member
    exact outer s found m placed
  case inside =>
    -- the variables that a block declares have no part in where it is
    intro s found visible around deeper occurs m placed
    have block : (Statement.block [] ss (hullOf (ss.map Statement.location))).Hulled := .block inside
    exact block.covers (.inside found occurs) placed
  case anyOrder =>
    intro others same
    have grown : (others.foldl Block.addStatement .empty).location = hullOf (others.map Statement.location) := by
      rw [addedLocation, hullOf, List.foldl_map]
      rfl
    rw [grown]
    exact Location.hullAnyOrder (placesOrdered fun s found => (inside s found).ordered) (same.map _)

end Graph

namespace Analysis

theorem assignToLocation {scopes : ScopeStack} {target : Value} {value : Tree.Expr}
    {as : List (AnnotationItem Tree.Expr)} {location : Option Location} {g : Graph.Assignment}
    (done : (assignTo scopes target value as location).result = .ok g) : g.location = location := by
  simp only [assignTo, Outcome.resultBind, Outcome.resultOfExcept, Outcome.resultPure] at done
  obtain ⟨_, _, _, _, _, _, _, _, rfl⟩ := done
  rfl

theorem commitExtends (s : State) (location : Option Location) (x : Outcome Graph.Statement) :
    ∃ ss, Extends s (s.commit location x) [] ss ∧ ∀ st ∈ ss, x.result = .ok st := by
  have noted := Extends.note s x.noted
  unfold State.commit
  cases result : x.result with
  | ok st => exact ⟨[st], noted.trans (.statement _ st), by simp⟩
  | error d => exact ⟨[], noted.trans (.note _ _), by simp⟩

theorem extendedHulled {ss : List Graph.Statement} (inside : ∀ st ∈ ss, st.Hulled) {scope : Scope}
    (blank : scope.block = .empty) (declared : List (Nat × Graph.Variable)) :
    (scope.extended declared ss).block.toStatement.Hulled := by
  have location : (scope.extended declared ss).block.location = hullOf (ss.map Graph.Statement.location) := by
    rw [hullOf, List.foldl_map]
    simp only [Scope.extended, blank]
    rfl
  have statements : (scope.extended declared ss).block.statements = ss := by
    simp only [Scope.extended, blank]
    rfl
  rw [Graph.Block.toStatement, location, statements]
  exact .block inside

def AddsHulled (s t : State) : Prop := ∃ declared ss, Extends s t declared ss ∧ ∀ st ∈ ss, st.Hulled

theorem AddsHulled.trans {s t u : State} (first : AddsHulled s t) (second : AddsHulled t u) : AddsHulled s u := by
  obtain ⟨declared, ss, grown, hulled⟩ := first
  obtain ⟨others, more, grownMore, hulledMore⟩ := second
  exact ⟨_, _, grown.trans grownMore, List.forall_mem_append.mpr ⟨hulled, hulledMore⟩⟩

theorem commitHulled (s : State) {location : Option Location} {x : Outcome Graph.Statement}
    (made : ∀ st, x.result = .ok st → st.Hulled) : AddsHulled s (s.commit location x) := by
  obtain ⟨ss, grown, results⟩ := commitExtends s location x
  exact ⟨_, _, grown, fun st member => made st (results st member)⟩

theorem declareHulled (s : State) {d : Tree.Declaration} (ordered : ∀ l, d.location = some l → l.Ordered) :
    AddsHulled s (declare s d) := by
  have noted : AddsHulled s (s.note (declaredVariable s d).noted) := ⟨_, _, .note s _, by simp⟩
  simp only [declare]
  cases (declaredVariable s d).result with
  | error found => exact noted.trans ⟨_, _, .note _ _, by simp⟩
  | ok v =>
    have added := noted.trans ⟨_, _, .variable _ v, by simp⟩
    unfold assignInitial
    cases d.initializer with
    | none => exact added
    | some value =>
      refine added.trans (commitHulled _ fun st done => ?_)
      obtain ⟨g, assigned, rfl⟩ := Outcome.resultMap.mp done
      exact .assign (by rwa [assignToLocation assigned])

mutual

theorem statementHulled (set : InstructionSet) (s : State) : (tree : Tree.Statement) →
    (∀ l, some l ∈ tree.written → l.Ordered) → AddsHulled s (statement set s tree)
  | .declare d, ordered => declareHulled s fun l placed => ordered l (by simp [Tree.Statement.written, placed])
  | .gate i, ordered => by
    refine commitHulled s fun st done => ?_
    obtain ⟨g, analysed, rfl⟩ := Outcome.resultMap.mp done
    obtain ⟨args, origin⟩ := gateInstructionOk analysed
    exact .gate fun l placed => ordered l (by simp [Tree.Statement.written, ← origin.location, placed])
  | .nonGate i, ordered => by
    refine commitHulled s fun st done => ?_
    obtain ⟨g, analysed, rfl⟩ := Outcome.resultMap.mp done
    obtain ⟨given, args, origin⟩ := nonGateInstructionOk analysed
    exact .nonGate fun l placed => ordered l (by simp [Tree.Statement.written, ← origin.location, placed])
  | .assign a, ordered => by
    refine commitHulled s fun st done => ?_
    obtain ⟨g, analysed, rfl⟩ := Outcome.resultMap.mp done
    obtain ⟨given, origin⟩ := assignmentOk analysed
    exact .assign fun l placed => ordered l (by simp [Tree.Statement.written, ← origin.location, placed])
  | .block body _, ordered => by
    obtain ⟨declared, ss, inside, hulled⟩ := statementsHulled set s.openBlock body ordered
    exact ⟨_, _, inside.block, List.forall_mem_singleton.mpr (extendedHulled hulled rfl declared)⟩

theorem statementsHulled (set : InstructionSet) (s : State) : (trees : List Tree.Statement) →
    (∀ l, some l ∈ Tree.writtenIn trees → l.Ordered) → AddsHulled s (statements set s trees)
  | [], _ => ⟨_, _, .none s, by simp⟩
  | first :: rest, ordered =>
    have here := statementHulled set s first fun l member => ordered l (List.mem_append_left _ member)
    have later := statementsHulled set _ rest fun l member => ordered l (List.mem_append_right _ member)
    here.trans later

end

end Analysis

namespace Analyzer

open Analysis

theorem programHulled {a : Analyzer} (blank : a.global.block = .empty) {p : Tree.Program} (ordered : p.Ordered) :
    (a.elaborate p).program.block.toStatement.Hulled := by
  obtain ⟨declared, ss, grown, hulled⟩ := statementsHulled a.instructionSet (a.start p) p.statements ordered
  have final : (a.finish p).scopes.global = a.global.extended declared ss := congrArg ScopeStack.global grown.scopes
  change (a.finish p).scopes.global.block.toStatement.Hulled
  rw [final]
  exact extendedHulled hulled blank declared

theorem blocksExactlyCovered {a : Analyzer} (configured : a.Configured) {p : Tree.Program} (ordered : p.Ordered)
    {around ids : List Nat} {ss : List Graph.Statement} {location : Option Location}
    (has : (a.elaborate p).program.Has around (.block ids ss location)) : Graph.ExactHull ss location := by
  cases (programHulled configured.block ordered).inside has with
  | block inside => exact Graph.exactHull inside

def row (n : Nat) : Option Location := some ⟨none, ⟨n, 1⟩, ⟨n, 9⟩⟩

def scattered : Tree.Program where
  version := ⟨[3, 0]⟩
  versionLocation := none
  statements :=
    [.declare ⟨"q", none, .qubit, none, none, [], row 1⟩,
      .gate ⟨.named ⟨"X", none, [], none⟩, [.name "q" none], [], row 7⟩,
      .gate ⟨.named ⟨"H", none, [], none⟩, [.name "r" none], [], row 9⟩,
      .block
        [.gate ⟨.named ⟨"Y", none, [], none⟩, [.name "q" none], [], row 4⟩,
          .gate ⟨.named ⟨"Z", none, [], none⟩, [.name "q" none], [], none⟩,
          .declare ⟨"n", none, .int, none, some (.literal (.int 1) none), [], row 3⟩] (row 2)]

theorem scatteredCovered :
    standard.Configured ∧ scattered.Ordered ∧
      (standard.elaborate scattered).program.block.location = some ⟨none, ⟨3, 1⟩, ⟨7, 9⟩⟩ ∧
      (standard.elaborate scattered).diagnostics.length = 1 ∧
      Graph.ExactHull (standard.elaborate scattered).program.block.statements
        (standard.elaborate scattered).program.block.location :=
  have configured : standard.Configured := .defaults (.empty _ _ _)
  have ordered : scattered.Ordered := fun l member => by
    obtain ⟨n, here⟩ : ∃ n, some l = row n := by
      simp only [scattered, Tree.writtenIn, Tree.Statement.written, List.cons_append, List.nil_append, List.append_nil,
        List.mem_cons, List.not_mem_nil, or_false, reduceCtorEq, false_or] at member
      rcases member with here | here | here | here | here <;> exact ⟨_, here⟩
    cases here
    exact Position.leIff.mpr (.inr ⟨rfl, by dsimp only; omega⟩)
  ⟨configured, ordered, by decide +kernel, by decide +kernel, blocksExactlyCovered configured ordered .here⟩

end Analyzer

end Cqasm
