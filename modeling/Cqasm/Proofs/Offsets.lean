import Mathlib.Data.List.TakeWhile
import Cqasm.Location.Span
import Cqasm.Proofs.Ranges

/-! Lines and columns against offsets. Every character, and the end of the text, has a line and a column, and they lead
back to it. Later positions never have smaller offsets, also where a column is past the end of its line or a line past
the end of the text, and the span of a location is never empty and stays in the text. -/
namespace Cqasm.Span

def positionAt (source : List Char) (k : Nat) : Position where
  line := (source.take k).count '\n' + 1
  column := ((source.take k).reverse.takeWhile (· != '\n')).length + 1

def past (c : Char) (p : Position) : Option Position :=
  if c = '\n' then
    if p.line ≤ 1 then none else some ⟨p.line - 1, p.column⟩
  else if p.line ≤ 1 then
    if p.column ≤ 1 then none else some ⟨1, p.column - 1⟩
  else some p

theorem offsetOnFirst (source : List Char) {line : Nat} (first : line ≤ 1) (column : Nat) :
    offset source ⟨line, column⟩ = min (column - 1) (lineBody ((lines source).headD [])).length := by
  rw [offset]
  cases lines source with
  | nil => simp [offsetIn, lineBody]
  | cons head others =>
    match line, first with
    | 0, _ | 1, _ => rfl

theorem offsetNewline (rest : List Char) (p : Position) :
    offset ('\n' :: rest) p = if p.line ≤ 1 then 0 else offset rest ⟨p.line - 1, p.column⟩ + 1 := by
  obtain ⟨line, column⟩ := p
  match line with
  | 0 | 1 => simp [offsetOnFirst, lines, lineBody]
  | n + 2 => simp [offset, lines, offsetIn, Nat.add_comm]

theorem offsetOther {c : Char} (other : c ≠ '\n') (rest : List Char) (p : Position) :
    offset (c :: rest) p =
      if p.line ≤ 1 then if p.column ≤ 1 then 0 else offset rest ⟨1, p.column - 1⟩ + 1 else offset rest p + 1 := by
  obtain ⟨line, column⟩ := p
  dsimp only
  by_cases first : line ≤ 1
  · have body : (lineBody ((lines (c :: rest)).headD [])).length = (lineBody ((lines rest).headD [])).length + 1 := by
      rw [lines, if_neg other]
      cases lines rest <;> simp [lineBody, other]
    rw [if_pos first, offsetOnFirst _ first, offsetOnFirst rest (Nat.le_refl 1), body]
    split <;> omega
  · obtain ⟨n, rfl⟩ := Nat.exists_eq_add_of_le' (Nat.lt_of_not_le first)
    simp only [if_neg first, offset, lines, if_neg other]
    cases lines rest with
    | nil => rfl
    | cons line others => simp only [offsetIn, List.length_cons, Nat.add_right_comm]

theorem offsetCons (c : Char) (rest : List Char) (p : Position) :
    offset (c :: rest) p = (past c p).elim 0 fun q => offset rest q + 1 := by
  unfold past
  by_cases newline : c = '\n'
  · rw [newline, offsetNewline]
    split <;> rfl
  · rw [offsetOther newline, if_neg newline]
    split
    · split <;> rfl
    · rfl

theorem lineEndCons (c : Char) (text : List Char) :
    ((c :: text).reverse.takeWhile (· != '\n')).length =
      (text.reverse.takeWhile (· != '\n')).length + if c = '\n' ∨ '\n' ∈ text then 0 else 1 := by
  rw [List.reverse_cons, List.takeWhile_append]
  split
  case isTrue whole =>
    have all : text.reverse.takeWhile (· != '\n') = text.reverse := (List.takeWhile_prefix _).eq_of_length whole
    have none : '\n' ∉ text := fun member => by
      simpa using List.takeWhile_eq_self_iff.mp all '\n' (List.mem_reverse.mpr member)
    rw [List.length_append, whole]
    by_cases newline : c = '\n' <;> simp [none, newline]
  case isFalse part =>
    have some : '\n' ∈ text := by
      by_contra none
      refine part (congrArg List.length (List.takeWhile_eq_self_iff.mpr fun x member => ?_))
      simpa using ne_of_mem_of_not_mem (List.mem_reverse.mp member) none
    simp [some]

theorem pastPosition (c : Char) (rest : List Char) (k : Nat) :
    past c (positionAt (c :: rest) (k + 1)) = some (positionAt rest k) := by
  simp only [past, positionAt, List.take_succ_cons, lineEndCons]
  by_cases newline : c = '\n'
  · simp [newline]
  · by_cases later : '\n' ∈ rest.take k
    · have line : ¬ (rest.take k).count '\n' = 0 := by simpa [List.count_eq_zero] using later
      simp [newline, List.count_cons_of_ne newline, later, line]
    · simp [newline, List.count_cons_of_ne newline, later, List.count_eq_zero.mpr later]

theorem pastMono {c : Char} {p q p' : Position} (known : 1 ≤ p.line) (le : p ≤ q) (on : past c p = some p') :
    ∃ q', past c q = some q' ∧ 1 ≤ p'.line ∧ p' ≤ q' := by
  have order := Position.leIff.mp le
  unfold past at on ⊢
  by_cases newline : c = '\n'
  · rw [if_pos newline, Option.ite_none_left_eq_some] at on
    obtain ⟨later, same⟩ := on
    cases same
    refine ⟨_, by rw [if_pos newline, if_neg (by omega)], by dsimp only; omega, Position.leIff.mpr ?_⟩
    dsimp only
    omega
  · rw [if_neg newline] at on
    simp only [if_neg newline]
    by_cases first : p.line ≤ 1
    · rw [if_pos first, Option.ite_none_left_eq_some] at on
      obtain ⟨inside, same⟩ := on
      cases same
      -- the later position need not be on the first line, and then keeps its column
      by_cases firstToo : q.line ≤ 1
      · refine ⟨_, by rw [if_pos firstToo, if_neg (by omega)], Nat.le_refl 1, Position.leIff.mpr ?_⟩
        dsimp only
        omega
      · refine ⟨_, if_neg firstToo, Nat.le_refl 1, Position.leIff.mpr ?_⟩
        dsimp only
        omega
    · rw [if_neg first, Option.some.injEq] at on
      subst on
      exact ⟨q, if_neg (by omega), known, le⟩

theorem offsetPosition {source : List Char} {k : Nat} (inside : k ≤ source.length) :
    offset source (positionAt source k) = k := by
  induction source generalizing k with
  | nil => exact (Nat.le_zero.mp inside).symm
  | cons c rest ih =>
    cases k with
    | zero => simp [offsetCons, positionAt, past]
    | succ k => rw [offsetCons, pastPosition, Option.elim_some, ih (Nat.le_of_succ_le_succ inside)]

theorem offsetBounded (source : List Char) (p : Position) : offset source p ≤ source.length := by
  induction source generalizing p with
  | nil => exact Nat.le_refl 0
  | cons c rest ih =>
    rw [offsetCons]
    cases past c p with
    | none => exact Nat.zero_le _
    | some q => exact Nat.succ_le_succ (ih q)

theorem offsetMono (source : List Char) {p q : Position} (known : 1 ≤ p.line) (le : p ≤ q) :
    offset source p ≤ offset source q := by
  -- both positions move along with the text, and stay in order as long as the earlier one is in it
  induction source generalizing p q with
  | nil => exact Nat.le_refl 0
  | cons c rest ih =>
    rw [offsetCons, offsetCons]
    cases on : past c p with
    | none => exact Nat.zero_le _
    | some p' =>
      obtain ⟨q', further, known', le'⟩ := pastMono known le on
      rw [further]
      exact Nat.succ_le_succ (ih known' le')

structure Inside (source : List Char) (span : Span) : Prop where
  nonempty : span.start < span.stop
  start : span.start ≤ source.length
  stop : span.stop ≤ source.length + 1

theorem spanInside (location : Option Location) (source : List Char) : Inside source (ofLocation location source) := by
  have first : Inside source ⟨0, 1⟩ := ⟨Nat.zero_lt_one, Nat.zero_le _, Nat.le_add_left 1 _⟩
  unfold ofLocation
  cases location with
  | none => exact first
  | some l =>
    dsimp only
    split
    case isTrue => exact first
    case isFalse =>
      have last := offsetBounded source l.last
      exact ⟨by dsimp only; omega, Nat.min_le_right _ _, by dsimp only; omega⟩

theorem spanBetween {source : List Char} {i j : Nat} (ordered : i ≤ j) (existing : j < source.length)
    (file : Option String) :
    ofLocation (some ⟨file, positionAt source i, positionAt source j⟩) source = ⟨i, j + 1⟩ := by
  have known : (positionAt source i).line ≠ 0 := Nat.succ_ne_zero _
  have start : offset source (positionAt source i) = i := offsetPosition (by omega)
  have stop : offset source (positionAt source j) = j := offsetPosition (by omega)
  simp only [ofLocation, if_neg known, start, stop]
  rw [Nat.min_eq_left (by omega), Nat.max_eq_left (by omega)]

theorem offsetsExact (source : List Char) :
    (∀ k ≤ source.length, offset source (positionAt source k) = k) ∧
    (∀ p q : Position, 1 ≤ p.line → p ≤ q → offset source p ≤ offset source q) ∧
    (∀ location, Inside source (ofLocation location source)) ∧
    ∀ i j file, i ≤ j → j < source.length →
      ofLocation (some ⟨file, positionAt source i, positionAt source j⟩) source = ⟨i, j + 1⟩ :=
  ⟨fun _ => offsetPosition, fun _ _ => offsetMono source, fun location => spanInside location source,
    fun _ _ file ordered existing => spanBetween ordered existing file⟩

example : positionAt ['a', '\n', '\n', 'b'] 3 = ⟨3, 1⟩ ∧ offset ['a', '\n', '\n', 'b'] ⟨1, 9⟩ = 1 := by decide

end Cqasm.Span
