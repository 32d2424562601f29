/-
  ShiftReduce.Proofs.StackAdjacency
  ────────────────────────────────
  **NEIGHBOURS ON THE STACK OF A LIVING BRANCH.**

  Only a reduction has its outcome compared with the adjacency relation of the
  table.  A token that is shifted meets the hint of the move, or is a lookahead of
  its item, and either way it can open the symbol that comes next in the rule.
  Since a proposed item has its dot on the top of the stack, the token may sit
  there.  The first token is shifted by no move at all, so nothing is known of it
  until it is reduced.

  Main statement: `neighbours_adjoin`.
-/
import Mathlib.Data.List.Chain
import ShiftReduce.Proofs.Branch.Reachable
import ShiftReduce.Proofs.ExactPrediction

namespace ShiftReduce

open Relation

variable {S : Type} [DecidableEq S] [GrammarSymbol S]

namespace Problem

variable {problem : Problem S} {branch : Branch S}

/-! ## §1. Branches that proposed moves lead to. -/

/-- The branches that looking for moves and making those that are proposed lead
to, whether in the branch that has looked for them or in one that has not. -/
inductive Prompted (problem : Problem S) : Branch S → Prop where
  | start : Prompted problem problem.start
  | looked {branch : Branch S} (prompted : Prompted problem branch) :
      Prompted problem (problem.nextMoves branch).2
  | moved {branch : Branch S} {move : Move S} (prompted : Prompted problem branch)
      (proposed : move ∈ (problem.nextMoves branch).1) :
      Prompted problem (problem.apply move (problem.nextMoves branch).2).branch
  | replayed {branch : Branch S} {move : Move S} (prompted : Prompted problem branch)
      (proposed : move ∈ (problem.nextMoves branch).1) :
      Prompted problem (problem.apply move branch).branch

theorem Prompted.reachable (prompted : problem.Prompted branch) : problem.Reachable branch := by
  induction prompted with
  | start => exact .start
  | looked _ ih => exact ih.looked
  | moved _ proposed ih => exact ih.looked.moved (ih.knows proposed)
  | replayed _ proposed ih => exact ih.moved (ih.knows proposed)

/-! ## §2. Stacks whose neighbours adjoin. -/

/-- Of the trees, top first, each may sit on the one below it; the last one is the
first token, or may sit at the bottom. -/
structure Adjoined (problem : Problem S) (trees : List (Token S)) : Prop where
  chain : trees.IsChain fun upper lower => problem.table.canFollow (some lower.kind) upper.kind = true
  bottom : ∃ bottom, trees.getLast? = some bottom ∧
    (problem.stream.get? 0 = some bottom ∨ problem.table.canFollow none bottom.kind = true)

/-- A token that meets the hint of an item, or is one of its lookaheads, may sit
on the symbol under the dot. -/
theorem canFollow_of_hint {rule : Rule S} {position : Nat} {below next kind : S}
    (hrule : rule ∈ problem.table.rules.toList) (here : rule.rhs[position]? = some below)
    (hnext : rule.rhs[position + 1]? = some next)
    (met : kind = next ∨ kind ∈ (problem.table.rules.itemAt rule position).lookaheads) :
    problem.table.canFollow (some below) kind = true := by
  refine DecisionTable.canFollow_some_iff.2 ⟨next, ⟨rule, hrule, position, here, hnext⟩, ?_⟩
  rcases met with rfl | mem
  · exact .refl
  · rw [RuleSet.lookaheads_itemAt _ hnext] at mem
    exact RuleSet.reflTransGen_of_mem_first mem

/-- A transition for an item with its dot on the top of the stack keeps
neighbours adjoined, if the hint is met. -/
theorem Adjoined.transition {rule : Rule S} {position : Nat} {top : Token S}
    {rest trees : List (Token S)} {cursor cursor' : Nat} (adjoined : problem.Adjoined (top :: rest))
    (hrule : rule ∈ problem.table.rules.toList) (here : rule.rhs[position]? = some top.kind)
    (transition : problem.Transition (problem.table.rules.itemAt rule position) (top :: rest) cursor
      trees cursor')
    (met : (Move.ofItem (problem.table.rules.itemAt rule position)).HintMet trees) :
    problem.Adjoined trees := by
  generalize hbefore : top :: rest = before at transition adjoined
  cases transition with
  | @shift _ _ token action next =>
    have before : position + 1 < rule.rhs.length := RuleSet.action_itemAt_eq_shift.1 action
    have after : rule.rhs[position + 1]? = some rule.rhs[position + 1] := List.getElem?_eq_getElem before
    obtain ⟨_, shown, hint⟩ := met _ after
    cases shown
    subst hbefore
    -- The bottom stays what it is, and the new neighbours are the token and the top.
    refine ⟨List.isChain_cons_cons.2 ⟨canFollow_of_hint hrule here after hint, adjoined.chain⟩, ?_⟩
    obtain ⟨bottom, last, fits⟩ := adjoined.bottom
    exact ⟨bottom, last, fits⟩
  | @contract children rest' _ action kinds follows consumed =>
    -- What lies below the node has been adjoined before, and the node has been checked.
    have below := adjoined.chain.right_of_append
    cases rest' with
    | nil => exact ⟨List.IsChain.singleton _, _, rfl, .inr follows⟩
    | cons lower rest' =>
      refine ⟨List.isChain_cons_cons.2 ⟨follows, below⟩, ?_⟩
      obtain ⟨bottom, last, fits⟩ := adjoined.bottom
      rw [List.getLast?_append_of_ne_nil _ (List.cons_ne_nil _ _)] at last
      exact ⟨bottom, last, fits⟩

/-! ## §3. Branches that have not failed. -/

/-- The first token is the bottom of the stack, and there is nothing above it. -/
theorem adjoined_start (alive : problem.start.error = none) : problem.Adjoined problem.start.stack.items := by
  rcases start_cases problem with ⟨token, first, moved, hstart, stands⟩ | ⟨_, failed⟩
  · rw [hstart, stack_complete, stands.stack]
    exact ⟨List.IsChain.singleton _, token, rfl, .inl first⟩
  · rw [alive] at failed
    cases failed

/-- A look that finds no failure has found none in the branch before. -/
theorem alive_of_nextMoves (alive : (problem.nextMoves branch).2.error = none) :
    branch.error = none := by
  cases going : branch.isOver with
  | true => rwa [nextMoves_of_isOver going] at alive
  | false => exact (Branch.isOver_eq_false_iff.1 going).2

/-- Nor does a move that leaves no failure begin in a branch that has one. -/
theorem alive_of_apply {move : Move S} (alive : (problem.apply move branch).branch.error = none) :
    branch.error = none := by
  cases failed : branch.error with
  | none => rfl
  | some error =>
    rw [apply_of_failed problem move failed] at alive
    exact failed.symm.trans alive

/-- A move that is proposed and leaves no failure keeps neighbours adjoined. -/
theorem Adjoined.apply {move : Move S} (clean : branch.stack.popped = [])
    (adjoined : branch.error = none → problem.Adjoined branch.stack.items)
    (proposed : move ∈ (problem.nextMoves branch).1)
    (alive : (problem.apply move branch).branch.error = none) :
    problem.Adjoined (problem.apply move branch).branch.stack.items := by
  have before := alive_of_apply alive
  have through := applyWith_eq_success_of_alive problem.checkAdjacency alive
  obtain ⟨trees, cursor, transition, met, hafter⟩ := (apply_eq_success clean before).1 through
  -- What is proposed follows an item with its dot on the top of the stack.
  obtain ⟨top, rest, items, rule, hrule, position, here, rfl, _⟩ := of_mem_nextMoves clean proposed
  have adjoined := adjoined before
  rw [items] at adjoined transition
  have stack : (problem.apply (.ofItem (problem.table.rules.itemAt rule position)) branch).branch.stack =
      ⟨trees, []⟩ := by
    refine (congrArg Branch.stack hafter).trans ?_
    rw [stack_complete, Branch.stack_moved]
  rw [stack]
  exact adjoined.transition hrule here transition met

/-- The neighbours on the stack of a branch that proposed moves lead to are
adjoined, unless it has failed. -/
theorem Prompted.adjoined (prompted : problem.Prompted branch) (alive : branch.error = none) :
    problem.Adjoined branch.stack.items := by
  induction prompted with
  | start => exact adjoined_start alive
  | looked prompted ih =>
    have clean := prompted.reachable.clean
    rw [(Branch.standing_eq_iff.1 (standing_nextMoves problem clean)).1]
    exact ih (alive_of_nextMoves alive)
  | @moved before move prompted proposed ih =>
    have clean := prompted.reachable.clean
    -- The move does in the branch that has looked for it what it does in the one before.
    have looked : problem.apply move (problem.nextMoves before).2 = problem.apply move before :=
      applyWith_nextMoves problem.checkAdjacency move clean (List.ne_nil_of_mem proposed)
    rw [looked] at alive ⊢
    exact Adjoined.apply clean ih proposed alive
  | replayed prompted proposed ih => exact Adjoined.apply prompted.reachable.clean ih proposed alive

end Problem

/-- On the stack of a branch that proposed moves lead to and that has not failed,
every tree may sit on the one below it.  At the bottom is the first token of the
stream itself, or a tree that may sit there. -/
theorem neighbours_adjoin {problem : Problem S} {branch : Branch S}
    (prompted : problem.Prompted branch) (alive : branch.error = none) :
    (∃ bottom, branch.stack.toList.head? = some bottom ∧
      (problem.stream.get? 0 = some bottom ∨ problem.table.canFollow none bottom.kind = true)) ∧
    ∀ index lower upper, branch.stack.toList[index]? = some lower →
      branch.stack.toList[index + 1]? = some upper →
        problem.table.canFollow (some lower.kind) upper.kind = true := by
  have adjoined := prompted.adjoined alive
  constructor
  · obtain ⟨bottom, last, fits⟩ := adjoined.bottom
    refine ⟨bottom, ?_, fits⟩
    rw [UndoStack.toList, List.head?_reverse, last]
  · intro index lower upper hlower hupper
    obtain ⟨_, rfl⟩ := List.getElem?_eq_some_iff.1 hlower
    obtain ⟨within, rfl⟩ := List.getElem?_eq_some_iff.1 hupper
    exact List.isChain_iff_getElem.1 (List.isChain_reverse.2 adjoined.chain) index within

/-- The sum of two numbers after `T => n`, `E => T` and a shift: `E` may sit at the
bottom, and `+` on `E`. -/
theorem neighbours_adjoin_sum :
    ∃ branch, Problem.Prompted ⟨sumTable, sumStream⟩ branch ∧ branch.error = none ∧
      branch.stackKinds = [.nonTerminal "E", .terminal "+"] ∧
      sumTable.canFollow none (.nonTerminal "E") = true ∧
      sumTable.canFollow (some (.nonTerminal "E")) (.terminal "+") = true := by
  -- Every move of the list is proposed by the branch that the ones before it lead to.
  have one : Problem.Prompted ⟨sumTable, sumStream⟩ ((Problem.machine ⟨sumTable, sumStream⟩).replay
      (sumMoves.take 1)) :=
    .replayed .start (by decide +kernel)
  have two : Problem.Prompted ⟨sumTable, sumStream⟩ ((Problem.machine ⟨sumTable, sumStream⟩).replay
      (sumMoves.take 2)) :=
    .replayed one (by decide +kernel)
  have three : Problem.Prompted ⟨sumTable, sumStream⟩ ((Problem.machine ⟨sumTable, sumStream⟩).replay
      (sumMoves.take 3)) :=
    .replayed two (by decide +kernel)
  have alive : ((Problem.machine ⟨sumTable, sumStream⟩).replay (sumMoves.take 3)).error = none := by
    decide +kernel
  have kinds : ((Problem.machine ⟨sumTable, sumStream⟩).replay (sumMoves.take 3)).stackKinds =
      [.nonTerminal "E", .terminal "+"] := by
    decide +kernel
  obtain ⟨⟨bottom, hbottom, fits⟩, neighbours⟩ := neighbours_adjoin three alive
  refine ⟨_, three, alive, kinds, ?_, ?_⟩
  · obtain ⟨lower, rest, trees, kind, _⟩ := List.map_eq_cons_iff.1 kinds
    rw [trees] at hbottom
    cases hbottom
    rw [← kind]
    refine fits.resolve_left fun first => ?_
    -- The first token is a number, and the bottom of the stack is not.
    have number : (sumStream.get? 0).map Token.kind = some (.terminal "n") := rfl
    rw [show sumStream.get? 0 = some bottom from first, Option.map_some, kind] at number
    cases number
  · obtain ⟨lower, _, trees, kind, above⟩ := List.map_eq_cons_iff.1 kinds
    obtain ⟨upper, _, rfl, kind', _⟩ := List.map_eq_cons_iff.1 above
    rw [← kind, ← kind']
    exact neighbours 0 lower upper (by rw [trees]; rfl) (by rw [trees]; rfl)

end ShiftReduce
