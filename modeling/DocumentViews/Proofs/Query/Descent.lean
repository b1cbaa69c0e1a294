import DocumentViews.Proofs.Query.Restoring
import Mathlib.Data.List.Chain

-- A call without a check goes down in rank and a check takes one of the levels that are left, so
-- these bound the stack, however many tokens there are.

set_option autoImplicit false

namespace DocumentViews.Grammar

variable {context : Context} {tokens : List Lexeme} {started routine : Routine} {start entry : Cursor} {bound : Nat}

section

variable (context : Context) (tokens : List Lexeme) (start : Cursor)

-- Each routine on the stack goes on as it owes its caller, whichever way it gets its answer.
def Stack.Keeps : {callee : Routine} → Stack started callee → Cursor → Prop
  | _, .bottom, entry => entry = start
  | callee, .push caller checks resume below, inner =>
      ∃ entry bound, Stands entry.depth checks inner.depth ∧ (checks = 0 → callee.rank < caller.rank) ∧
        (∀ result left, Meets tokens inner (callee.read context tokens inner) result left →
          (resume result left).Keeps context tokens entry bound checks (caller.read context tokens entry)) ∧
        below.Keeps entry

structure Machine.Sound (entry : Cursor) (bound : Nat) (machine : Machine started) : Prop where
  bounded : machine.checks = 0 ∨ entry.depth + machine.checks ≤ maxDepth
  task : machine.task.Keeps context tokens entry bound machine.checks (machine.routine.read context tokens entry)
  below : machine.below.Keeps context tokens start entry

end

namespace Machine

theorem Sound.entered (context : Context) (tokens : List Lexeme) (started : Routine) (cursor : Cursor) :
    (enter context tokens started cursor).Sound context tokens cursor cursor (cursor.ahead tokens).length :=
  ⟨.inl rfl, routine_keeps context tokens started cursor, rfl⟩

theorem Sound.step {machine next : Machine started} (sound : machine.Sound context tokens start entry bound)
    (moves : machine.step context tokens = some next) :
    ∃ entry bound, next.Sound context tokens start entry bound := by
  obtain ⟨routine, checks, task, below⟩ := machine
  obtain ⟨bounded, keeps, outer⟩ := sound
  cases task with
  | call callee cursor resume =>
      obtain rfl := Option.some.inj moves
      obtain ⟨stands, ranked, goes⟩ := keeps
      exact ⟨cursor, _, .inl rfl, routine_keeps context tokens callee cursor, entry, bound, stands, ranked, goes, outer⟩
  | descend cursor resume =>
      obtain ⟨stands, refused, goes⟩ := keeps
      by_cases room : cursor.depth < maxDepth
      · obtain rfl := Option.some.inj ((if_pos room).symm.trans moves)
        refine ⟨entry, bound, .inr ?_, goes room, outer⟩
        rw [stands.raised] at room
        exact room
      · obtain rfl := Option.some.inj ((if_neg room).symm.trans moves)
        exact ⟨entry, bound, bounded, refused (Nat.le_of_not_lt room), outer⟩
  | again round cursor =>
      obtain rfl := Option.some.inj moves
      obtain ⟨stands, sameScope, within, fewer, continues⟩ := keeps
      exact ⟨entry, _, bounded, round_keeps context tokens round stands sameScope within continues, outer⟩
  | done result cursor =>
      cases below with
      | bottom => cases moves
      | push caller checks resume below =>
          obtain rfl := Option.some.inj moves
          obtain ⟨entry, bound, stands, ranked, goes, outer⟩ := outer
          refine ⟨entry, bound, ?_, goes _ _ keeps, outer⟩
          have := stands.raised
          exact stands.bounded.imp_right fun within => by dsimp only; omega

theorem Sound.run {machine later : Machine started} (sound : machine.Sound context tokens start entry bound)
    (reached : machine.Reaches context tokens later) : ∃ entry bound, later.Sound context tokens start entry bound := by
  induction reached with
  | refl => exact ⟨entry, bound, sound⟩
  | tail _ moves ih =>
      obtain ⟨entry, bound, sound⟩ := ih
      exact sound.step moves

end Machine

theorem Stack.Keeps.raised {below : Stack started routine} (keeps : below.Keeps context tokens start entry) :
    entry.depth = start.depth + levelsOf below.calls ∧
      (levelsOf below.calls = 0 ∨ entry.depth ≤ maxDepth) := by
  induction below generalizing entry with
  | bottom =>
      obtain rfl : entry = start := keeps
      exact ⟨rfl, .inl rfl⟩
  | push caller checks resume below ih =>
      obtain ⟨outer, bound, ⟨raised, bounded⟩, ranked, goes, keeps⟩ := keeps
      obtain ⟨outerRaised, outerBounded⟩ := ih keeps
      simp only [Stack.calls, levelsOf]
      omega

-- A routine that waits without a check stands above the one that it waits for.
def Checked (inner outer : Routine × Nat) : Prop := outer.2 = 0 → inner.1.rank < outer.1.rank

theorem Stack.Keeps.checked {below : Stack started routine} (keeps : below.Keeps context tokens start entry)
    (checks : Nat) : ((routine, checks) :: below.calls).IsChain Checked := by
  induction below generalizing entry checks with
  | bottom => exact .singleton _
  | push caller passed resume below ih =>
      obtain ⟨outer, bound, stands, ranked, goes, keeps⟩ := keeps
      exact .cons_cons ranked (ih keeps passed)

theorem checked_rank {callee caller : Routine} {checks passed : Nat} {between outer : List (Routine × Nat)}
    (chain : ((callee, checks) :: (between ++ (caller, passed) :: outer)).IsChain Checked)
    (none : passed + levelsOf between = 0) : callee.rank < caller.rank := by
  induction between generalizing callee checks with
  | nil => exact (List.isChain_cons_cons.mp chain).1 (by simpa [levelsOf] using none)
  | cons next between ih =>
      obtain ⟨first, rest⟩ := List.isChain_cons_cons.mp chain
      simp only [levelsOf] at none
      exact Nat.lt_trans (first (by omega)) (ih rest (by omega))

theorem checked_length {routine : Routine} {checks : Nat} {calls : List (Routine × Nat)}
    (chain : ((routine, checks) :: calls).IsChain Checked) :
    calls.length + routine.rank ≤ 13 * levelsOf calls + 12 := by
  induction calls generalizing routine checks with
  | nil => exact Nat.le_trans (Nat.le_of_eq (Nat.zero_add _)) routine.rank_le
  | cons caller calls ih =>
      obtain ⟨first, rest⟩ := List.isChain_cons_cons.mp chain
      obtain ⟨caller, passed⟩ := caller
      have shorter := ih rest
      have low := routine.rank_le
      simp only [List.length_cons, levelsOf]
      by_cases none : passed = 0
      · have lower : routine.rank < caller.rank := first none
        omega
      · omega

-- How far the stack and the depth go at most, and that a routine does not come to be active
-- a second time without a check.
structure Machine.Bounded (start : Cursor) (machine : Machine started) : Prop where
  levels : machine.levels ≤ maxDepth - start.depth
  calls : machine.calls.length ≤ 13 * (maxDepth - start.depth + 1)
  floor : start.depth ≤ machine.cursor.depth
  ceiling : machine.cursor.depth ≤ max start.depth maxDepth + 1
  cycles : ∀ inner between outer routine checks passed,
    machine.calls = inner ++ (routine, checks) :: (between ++ (routine, passed) :: outer) →
      0 < passed + levelsOf between

namespace Machine

theorem Sound.depth {machine : Machine started} (sound : machine.Sound context tokens start entry bound) :
    entry.depth ≤ machine.cursor.depth ∧ machine.cursor.depth ≤ max entry.depth maxDepth + 1 := by
  obtain ⟨routine, checks, task, below⟩ := machine
  obtain ⟨bounded, keeps, -⟩ := sound
  have stood : ∀ {depth : Nat}, Stands entry.depth checks depth →
      entry.depth ≤ depth ∧ depth ≤ max entry.depth maxDepth + 1 := by
    rintro depth ⟨raised, bounded⟩
    omega
  cases task with
  | call => exact stood keeps.1
  | descend => exact stood keeps.1
  | again => exact stood keeps.1
  | done result cursor =>
      dsimp only [Task.Keeps] at keeps
      generalize routine.read context tokens entry = parsed at keeps
      cases keeps with
      | ok => exact ⟨Nat.le_refl _, by dsimp only [Machine.cursor]; omega⟩
      | error near => exact ⟨near.above, near.below⟩

theorem Sound.isBounded {machine : Machine started} (sound : machine.Sound context tokens start entry bound) :
    machine.Bounded start := by
  obtain ⟨raised, bounded⟩ := sound.below.raised
  have chain := sound.below.checked machine.checks
  have levels : machine.levels ≤ maxDepth - start.depth := by
    have := sound.bounded
    simp only [Machine.levels, Machine.calls, levelsOf]
    omega
  have total : machine.levels = machine.checks + levelsOf machine.below.calls := rfl
  obtain ⟨low, high⟩ := sound.depth
  refine ⟨levels, ?_, by omega, by omega, ?_⟩
  · have := checked_length chain
    simp only [Machine.calls, List.length_cons]
    omega
  · intro inner between outer routine checks passed split
    refine Nat.pos_of_ne_zero fun none => ?_
    rw [← Machine.calls, split] at chain
    exact absurd (checked_rank chain.right_of_append none) (Nat.lt_irrefl _)

def Settles (context : Context) (tokens : List Lexeme) (entry : Cursor) (checks : Nat) (task : Task routine) : Prop :=
  ∃ result left passed, Meets tokens entry (routine.read context tokens entry) result left ∧
    ∀ (started : Routine) (below : Stack started routine),
      Reaches context tokens ⟨routine, checks, task, below⟩ ⟨routine, passed, .done result left, below⟩

-- By induction on the tokens ahead of the next round, then on the task. The routines that it
-- calls have fewer levels left, or as many and a lower rank.
theorem task_settles
    (callees : ∀ (callee : Routine) (inner : Cursor), Prod.Lex (· < ·) (· < ·) (maxDepth - inner.depth, callee.rank)
      (maxDepth - entry.depth, routine.rank) →
        Settles context tokens inner 0 ((callee.code context tokens).task inner)) {task : Task routine} {checks : Nat}
    (keeps : task.Keeps context tokens entry bound checks (routine.read context tokens entry)) :
    Settles context tokens entry checks task := by
  induction bound using Nat.strong_induction_on generalizing task checks with
  | _ bound rounds =>
    induction task generalizing checks with
    | done result left => exact ⟨result, left, checks, keeps, fun _ _ => .refl⟩
    | call callee inner resume ih =>
        obtain ⟨stands, ranked, goes⟩ := keeps
        have lower : Prod.Lex (· < ·) (· < ·) (maxDepth - inner.depth, callee.rank)
            (maxDepth - entry.depth, routine.rank) := by
          obtain ⟨raised, bounded⟩ := stands
          rcases Nat.eq_zero_or_pos checks with rfl | some
          · rw [raised]
            exact .right _ (ranked rfl)
          · exact .left _ _ (by omega)
        obtain ⟨answer, behind, passed, meets, called⟩ := callees callee inner lower
        obtain ⟨result, left, passed, answers, resumed⟩ := ih answer behind (goes answer behind meets)
        refine ⟨result, left, passed, answers, fun started below => ?_⟩
        exact .head rfl ((called started (.push routine checks resume below)).trans (.head rfl (resumed started below)))
    | descend cursor resume ih =>
        obtain ⟨stands, refused, goes⟩ := keeps
        by_cases room : cursor.depth < maxDepth
        · obtain ⟨result, left, passed, answers, resumed⟩ := ih cursor.sink (goes room)
          exact ⟨result, left, passed, answers, fun started below => .head (if_pos room) (resumed started below)⟩
        · exact ⟨_, _, checks, refused (Nat.le_of_not_lt room), fun started below => .single (if_neg room)⟩
    | again round cursor =>
        obtain ⟨stands, sameScope, within, fewer, continues⟩ := keeps
        obtain ⟨result, left, passed, answers, resumed⟩ :=
          rounds _ fewer (round_keeps context tokens round stands sameScope within continues)
        exact ⟨result, left, passed, answers, fun started below => .head rfl (resumed started below)⟩

theorem routine_settles (context : Context) (tokens : List Lexeme) (routine : Routine) (entry : Cursor) :
    Settles context tokens entry 0 ((routine.code context tokens).task entry) :=
  task_settles (fun callee inner _ => routine_settles context tokens callee inner)
    (routine_keeps context tokens routine entry)
termination_by (maxDepth - entry.depth, routine.rank)
decreasing_by assumption

-- There is one run only, so whatever it has reached is on the way to where it ends.
theorem reaches_end {first now final : Machine started} (ended : first.Reaches context tokens final)
    (stuck : final.step context tokens = none) (reached : first.Reaches context tokens now) :
    now.Reaches context tokens final := by
  have unique : Relator.RightUnique fun now next : Machine started => now.step context tokens = some next :=
    fun _ _ _ one other => Option.some.inj (one.symm.trans other)
  rcases Relation.ReflTransGen.total_of_right_unique unique reached ended with onward | back
  · exact onward
  · rcases Relation.ReflTransGen.cases_head back with rfl | ⟨next, moves, _⟩
    · exact .refl
    · rw [stuck] at moves
      cases moves

end Machine

theorem meets_read {input : List Lexeme} {α : Type} {parsed : Except QueryError (Parsed input α)}
    {result : Except QueryError α} {left : Cursor} (meets : Meets tokens entry parsed result left) :
    result = parsed.map Parsed.value ∧
      ∀ answer, result = .ok answer → parsed.map Parsed.rest = .ok (left.ahead tokens) ∧
        (left.ahead tokens).length < input.length ∧ left.index ≤ tokens.length ∧ left.scope = entry.scope ∧
          left.depth = entry.depth := by
  cases meets with
  | @ok _ _ shorter within => exact ⟨rfl, fun _ _ => ⟨rfl, shorter, within, rfl, rfl⟩⟩
  | error => exact ⟨rfl, fun _ answered => by cases answered⟩

/-- A routine that is started on any tokens, at any cursor, comes to an end on top of any stack,
and a machine that was started with it gets there whatever it has done so far. The answer is
that of the grammar of stages. Behind an answer some tokens are taken, just those that the
grammar takes, and the scope and the depth are those that the routine was started with. While
the machine runs, no more levels are active than were left at the start, a routine does not
come to be active again without a check in between, and so the height of the stack is bounded
whatever the tokens are. At depth zero the answer for expressions is that of their reader. -/
theorem started_routine_settles (context : Context) (tokens : List Lexeme) (routine : Routine) (start : Cursor) :
    (∃ result finish checks,
      (∀ (started : Routine) (below : Stack started routine),
        (⟨routine, 0, (routine.code context tokens).task start, below⟩ : Machine started).Reaches context tokens
          ⟨routine, checks, .done result finish, below⟩) ∧
      (∀ machine, (Machine.enter context tokens routine start).Reaches context tokens machine →
        machine.Reaches context tokens ⟨routine, checks, .done result finish, .bottom⟩) ∧
      result = (routine.read context tokens start).map Parsed.value ∧
      ∀ answer, result = .ok answer →
        (routine.read context tokens start).map Parsed.rest = .ok (finish.ahead tokens) ∧
          start.index < finish.index ∧ finish.index ≤ tokens.length ∧ finish.scope = start.scope ∧
            finish.depth = start.depth) ∧
    (∀ machine, (Machine.enter context tokens routine start).Reaches context tokens machine →
      machine.Bounded start) ∧
    Routine.expression.read context tokens { start with depth := 0 } =
      expression context start.scope (start.ahead tokens) := by
  refine ⟨?_, fun machine reached => ?_, ?_⟩
  · obtain ⟨result, finish, checks, meets, settles⟩ := Machine.routine_settles context tokens routine start
    obtain ⟨agrees, restores⟩ := meets_read meets
    refine ⟨result, finish, checks, settles, fun machine => Machine.reaches_end (settles routine .bottom) rfl, agrees,
      fun answer answered => ?_⟩
    obtain ⟨sameRest, shorter, within, sameScope, sameDepth⟩ := restores answer answered
    simp only [List.length_drop] at shorter
    exact ⟨sameRest, by omega, within, sameScope, sameDepth⟩
  · obtain ⟨entry, bound, sound⟩ := (Machine.Sound.entered context tokens routine start).run reached
    exact sound.isBounded
  · rw [expression, stage_eq_staged]
    rfl

end DocumentViews.Grammar
