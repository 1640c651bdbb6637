import Cqasm.Proofs.References

/-! Lexical scope. Every block declares variables of its own, in order and under different names, and all blocks
together declare each variable once. Every reference is to a variable in scope and carries its type. -/
namespace Cqasm

open Cqasm.Graph (Variable)

namespace Analysis

structure BlockDeclares (policy : CasePolicy) (vars : List Variable) (ids : List Nat) : Prop where
  increasing : ids.Pairwise (· < ·)
  known : ∀ id ∈ ids, id < vars.length
  distinct : ∀ i ∈ ids, ∀ j ∈ ids, ∀ {v w}, vars[i]? = some v → vars[j]? = some w →
    policy.key v.name = policy.key w.name → i = j

section Blocks

variable {set : InstructionSet} {policy : CasePolicy} {base : ScopeStack} {s t : State}

theorem BlockDeclares.none (policy : CasePolicy) (vars : List Variable) : BlockDeclares policy vars [] :=
  ⟨.nil, by simp, by simp⟩

theorem BlockDeclares.later {vars more : List Variable} {ids : List Nat} (block : BlockDeclares policy vars ids)
    (longer : vars <+: more) : BlockDeclares policy more ids := by
  -- what a block declares is found among the earlier variables already
  have back {i : Nat} {v : Variable} (member : i ∈ ids) (found : more[i]? = some v) : vars[i]? = some v := by
    have here := List.getElem?_eq_getElem (block.known i member)
    rw [here, ← foundLater longer here, found]
  exact ⟨block.increasing, fun id member => Nat.lt_of_lt_of_le (block.known id member) longer.length_le,
    fun i left j right v w first second => block.distinct i left j right (back left first) (back right second)⟩

theorem freshName {name : String} (fresh : s.declares name = false) {id : Nat} {v : Variable}
    (member : id ∈ s.scopes.current.block.vars) (found : s.vars[id]? = some v) :
    s.scopes.policy.key v.name ≠ s.scopes.policy.key name := by
  have here := List.any_eq_false.mp fresh id member
  simpa [found] using here

theorem BlockDeclares.add {vars : List Variable} {ids : List Nat} {new : Variable}
    (block : BlockDeclares policy vars ids)
    (fresh : ∀ id ∈ ids, ∀ {v}, vars[id]? = some v → policy.key v.name ≠ policy.key new.name) :
    BlockDeclares policy (vars ++ [new]) (ids ++ [vars.length]) := by
  have old := block.later (List.prefix_append vars [new])
  have last : (vars ++ [new])[vars.length]? = some new := List.getElem?_concat_length ..
  have apart {i : Nat} {v : Variable} (member : i ∈ ids) (found : (vars ++ [new])[i]? = some v) :
      policy.key v.name ≠ policy.key new.name := by
    rw [List.getElem?_append_left (block.known i member)] at found
    exact fresh i member found
  refine ⟨?_, ?_, ?_⟩
  · refine List.pairwise_append.mpr ⟨block.increasing, List.pairwise_singleton _ _, fun i member j single => ?_⟩
    rw [List.mem_singleton.mp single]
    exact block.known i member
  · simp only [List.forall_mem_append, List.forall_mem_singleton, List.length_append, List.length_singleton]
    exact ⟨fun id member => Nat.lt_succ_of_lt (block.known id member), Nat.lt_succ_self _⟩
  · intro i left j right v w first second same
    rcases List.mem_append.mp left with i_old | i_new <;> rcases List.mem_append.mp right with j_old | j_new
    · exact old.distinct i i_old j j_old first second same
    · rw [List.mem_singleton.mp j_new, last] at second
      cases second
      exact absurd same (apart i_old first)
    · rw [List.mem_singleton.mp i_new, last] at first
      cases first
      exact absurd same.symm (apart j_old second)
    · rw [List.mem_singleton.mp i_new, List.mem_singleton.mp j_new]

theorem blocksStep (same : s.scopes.policy = policy)
    (blocks : ∀ scope ∈ s.stack, BlockDeclares policy s.vars scope.block.vars) (step : Step set s t) :
    ∀ scope ∈ t.stack, BlockDeclares policy t.vars scope.block.vars := by
  have current := blocks s.scopes.current (by simp [s.stackEq])
  have outer : ∀ scope ∈ s.scopes.outer, BlockDeclares policy s.vars scope.block.vars := fun scope member =>
    blocks scope (by simp [s.stackEq, member])
  cases step with
  | note => exact blocks
  | add =>
    rw [s.addStatementStack]
    exact List.forall_mem_cons.mpr ⟨current, outer⟩
  | @declare d v origin =>
    rw [s.addVariableStack]
    refine List.forall_mem_cons.mpr ⟨current.add fun id member w found => ?_, fun scope member => ?_⟩
    · rw [← same, origin.name]
      exact freshName origin.fresh member found
    · exact (outer scope member).later (List.prefix_append _ _)
  | openBlock => exact List.forall_mem_cons.mpr ⟨.none _ _, blocks⟩
  | @closeBlock inner rest popped =>
    rw [State.popStack popped] at blocks
    obtain ⟨_, here, others⟩ : _ ∧ _ ∧ _ := by simpa only [List.forall_mem_cons] using blocks
    rw [State.stack, rest.scopesAddStatement]
    exact List.forall_mem_cons.mpr ⟨here, others⟩

theorem blocksReached (tables : TablesOf base s.scopes)
    (blocks : ∀ scope ∈ s.stack, BlockDeclares base.policy s.vars scope.block.vars) (reached : Reaches set s t) :
    ∀ scope ∈ t.stack, BlockDeclares base.policy t.vars scope.block.vars :=
  invariantReached (I := fun u => ∀ scope ∈ u.stack, BlockDeclares base.policy u.vars scope.block.vars) blocks
    (fun before held step => blocksStep (tables.reached before).policy held step) reached

end Blocks

def declaredBy (scopes : List Scope) : List Nat := scopes.flatMap (·.block.toStatement.declared)

section Partition

open scoped List

variable {set : InstructionSet} {s t : State}

theorem declaredAddStatement (b : Graph.Block) (st : Graph.Statement) :
    (b.addStatement st).toStatement.declared = b.toStatement.declared ++ st.declared := by
  simp [Graph.Block.toStatement, Graph.Block.addStatement, Graph.Statement.declared, Graph.Statement.declaredInAppend,
    Graph.Statement.declaredIn]

theorem declaredAddVariable (b : Graph.Block) (id : Nat) :
    (b.addVariable id).toStatement.declared.Perm (id :: b.toStatement.declared) := by
  simp only [Graph.Block.toStatement, Graph.Block.addVariable, Graph.Statement.declared, List.append_assoc,
    List.singleton_append]
  exact List.perm_middle

theorem madeDeclares {scopes : ScopeStack} {st : Graph.Statement} (made : Made set scopes st) : st.declared = [] := by
  cases made <;> rfl

theorem partitionStep (partition : (declaredBy s.stack).Perm (List.range s.vars.length)) (step : Step set s t) :
    (declaredBy t.stack).Perm (List.range t.vars.length) := by
  cases step with
  | note => exact partition
  | @add st made =>
    rw [s.stackEq] at partition
    rw [s.addStatementStack]
    simpa [declaredBy, State.addStatement, Scope.addStatement, declaredAddStatement, madeDeclares made] using partition
  | @declare d v =>
    rw [s.stackEq] at partition
    rw [s.addVariableStack]
    have added := declaredAddVariable s.scopes.current.block s.vars.length
    calc declaredBy (State.withVariable s.scopes.current s.vars.length v :: s.scopes.outer)
        _ = (s.scopes.current.block.addVariable s.vars.length).toStatement.declared ++ declaredBy s.scopes.outer := rfl
        _ ~ s.vars.length :: declaredBy (s.scopes.current :: s.scopes.outer) := added.append_right _
        _ ~ s.vars.length :: List.range s.vars.length := partition.cons _
        _ ~ List.range s.vars.length ++ [s.vars.length] := (List.perm_append_singleton _ _).symm
        _ = List.range (s.vars ++ [v]).length := by rw [List.length_append, List.length_singleton, List.range_succ]
  | openBlock => exact partition
  | @closeBlock inner rest popped =>
    rw [State.popStack popped] at partition
    rw [State.stack, rest.scopesAddStatement]
    refine List.Perm.trans ?_ partition
    simp only [declaredBy, List.flatMap_cons, Scope.addStatement, declaredAddStatement, List.append_assoc]
    exact List.perm_append_comm_assoc _ _ _

theorem partitionReached (partition : (declaredBy s.stack).Perm (List.range s.vars.length))
    (reached : Reaches set s t) : (declaredBy t.stack).Perm (List.range t.vars.length) :=
  invariantReached (I := fun u => (declaredBy u.stack).Perm (List.range u.vars.length)) partition
    (fun _ held step => partitionStep held step) reached

end Partition

end Analysis

namespace Graph

structure Program.LexicallyScoped (p : Program) (policy : CasePolicy) : Prop where
  increasing {around ids ss location} : p.Has around (.block ids ss location) → ids.Pairwise (· < ·)
  partition : p.block.toStatement.declared.Perm (List.range p.vars.length)
  distinct {around ids ss location} : p.Has around (.block ids ss location) →
    ∀ i ∈ ids, ∀ j ∈ ids, ∀ {v w}, p.vars[i]? = some v → p.vars[j]? = some w →
      policy.key v.name = policy.key w.name → i = j
  inScope {around st} : p.Has around st → ∀ v ∈ st.values, ∀ r ∈ v.references,
    ∃ id w, r.id? = some id ∧ id ∈ around ∧ p.vars[id]? = some w ∧ r.storageType? = some w.type
  earlier {i x} : p.vars[i]? = some x → ∀ v ∈ annotationValues x.annotations, ∀ r ∈ v.references,
    ∃ id w, r.id? = some id ∧ id < i ∧ p.vars[id]? = some w ∧ r.storageType? = some w.type

end Graph

namespace Analyzer

open Analysis

section Closed

variable {a : Analyzer} {p : Tree.Program}

theorem programBlock (blank : a.global.block = .empty) {around ids : List Nat} {ss : List Graph.Statement}
    {location : Option Location} (has : (a.elaborate p).program.Has around (.block ids ss location)) :
    BlockDeclares a.policy (a.elaborate p).program.vars ids := by
  have initial : ∀ scope ∈ (a.start p).stack, BlockDeclares a.policy (a.start p).vars scope.block.vars := by
    refine List.forall_mem_singleton.mpr ?_
    rw [start, ScopeStack.ofGlobal, blank]
    exact .none _ _
  generalize whole : Graph.Statement.block ids ss location = st at has
  cases keptStatement blank has with
  | made _ _ _ origin =>
    subst whole
    cases origin
  | block reached earlier current =>
    cases whole
    exact (blocksReached startTables initial reached _ current).later earlier

theorem programPartition (blank : a.global.block = .empty) :
    (a.elaborate p).program.block.toStatement.declared.Perm (List.range (a.elaborate p).program.vars.length) := by
  have initial : declaredBy (a.start p).stack = [] := by
    simp [declaredBy, State.stack, start, ScopeStack.ofGlobal, ScopeStack.scopes, blank, Graph.Block.empty,
      Graph.Block.toStatement, Graph.Statement.declared, Graph.Statement.declaredIn]
  have final := partitionReached (initial ▸ List.Perm.nil) (reachesFinish (a := a) (p := p))
  rw [finishStack, declaredBy, List.flatMap_singleton] at final
  exact final

end Closed

theorem standardLexicalScope (p : Tree.Program) :
    (standard.elaborate p).program.LexicallyScoped standard.policy where
  increasing has := (programBlock standardClosed.block has).increasing
  partition := programPartition standardClosed.block
  distinct has := (programBlock standardClosed.block has).distinct
  inScope has v member r inside := by
    obtain ⟨id, w, means⟩ := statementValues (boundRule standardClosed) standardClosed.block has v member r inside
    exact ⟨id, w, means.handle, means.inScope, means.found, means.type⟩
  earlier {i x} found v member r inside := by
    obtain ⟨around, bound⟩ := variableValues (boundRule standardClosed) found
    obtain ⟨id, w, means⟩ := bound v member r inside
    have before : id < i := by
      have := (List.getElem?_eq_some_iff.mp means.found).1
      exact Nat.lt_of_lt_of_le this (List.length_take_le _ _)
    exact ⟨id, w, means.handle, before, foundLater (List.take_prefix _ _) means.found, means.type⟩

end Analyzer

end Cqasm
