/-
  ShiftReduce.Proofs.PurePrediction
  ────────────────────────────────
  **LOOKING FOR MOVES IS ONLY LOOKING.**

  A prediction pops as many trees as it needs to tell its items apart, and notes
  which items it has considered.  What has been popped is put back, whether or
  not a move has been found, and nothing that is noted plays a part in the next
  prediction.  So it can be made again with the same outcome, and it fails
  wherever it finds nothing: no branch stops without being accepted or failing.

  Main statement: `prediction_only_looks`.
-/
import Mathlib.Logic.Function.Iterate
import ShiftReduce.Proofs.EndedBranches
import ShiftReduce.Proofs.ExactPrediction
import ShiftReduce.Proofs.Search.Driver

namespace ShiftReduce

variable {S : Type} [DecidableEq S] [GrammarSymbol S]

namespace Problem

variable {problem : Problem S} {branch : Branch S}

/-! ## §1. Predicting again. -/

/-- What a prediction comes to does not depend on the items noted before. -/
theorem predict_consider (problem : Problem S) (branch : Branch S) (considered : List (Item S)) :
    (problem.predict (branch.consider considered)).2 = (problem.predict branch).2 := by
  unfold predict
  dsimp only [Branch.stack_consider]
  split
  · rfl
  · split
    · rfl
    · -- Here the candidates are noted over what has been noted before.
      rfl

/-- Nor do the proposals depend on what has been noted to find them. -/
theorem nextMoves_noted (clean : branch.stack.popped = []) (considered : List (Item S)) :
    (problem.nextMoves ((branch.enter .predict).consider considered)).1 = (problem.nextMoves branch).1 := by
  generalize hnoted : (branch.enter .predict).consider considered = noted
  have same : noted.isOver = branch.isOver := by
    rw [← hnoted]
    rfl
  have clean' : noted.stack.popped = [] := by
    rw [← hnoted]
    exact clean
  have outcome : (problem.predict (noted.enter .predict)).2 = (problem.predict (branch.enter .predict)).2 := by
    rw [← hnoted]
    exact predict_consider problem (branch.enter .predict) considered
  cases going : branch.isOver with
  | true => rw [nextMoves_of_isOver going, nextMoves_of_isOver (same.trans going)]
  | false =>
    obtain ⟨_, looked⟩ := nextMoves_of_going problem clean going
    obtain ⟨_, again⟩ := nextMoves_of_going problem clean' (same.trans going)
    rw [looked, again, outcome]
    split
    · rfl
    · rfl

/-- The branch after the given number of looks for moves. -/
def afterLooks (problem : Problem S) (times : Nat) (branch : Branch S) : Branch S :=
  (fun before => (problem.nextMoves before).2)^[times] branch

/-- Where moves are proposed, they are proposed however often one looks. -/
theorem nextMoves_afterLooks (clean : branch.stack.popped = [])
    (some : (problem.nextMoves branch).1 ≠ []) (times : Nat) :
    (problem.nextMoves (problem.afterLooks times branch)).1 = (problem.nextMoves branch).1 := by
  have kept : (problem.afterLooks times branch).stack.popped = [] ∧
      (problem.nextMoves (problem.afterLooks times branch)).1 = (problem.nextMoves branch).1 := by
    induction times with
    | zero => exact ⟨clean, rfl⟩
    | succ times ih =>
      obtain ⟨clean, same⟩ := ih
      have step : problem.afterLooks (times + 1) branch =
          (problem.nextMoves (problem.afterLooks times branch)).2 :=
        Function.iterate_succ_apply' _ times branch
      -- A look that proposes something leaves nothing but notes behind.
      obtain ⟨⟨considered, noted⟩, _⟩ := nextMoves_of_ne_nil clean (same ▸ some)
      rw [step, noted]
      exact ⟨clean, (nextMoves_noted clean considered).trans same⟩
  exact kept.2

/-! ## §2. What a look leaves behind. -/

/-- No move is made. -/
theorem steps_nextMoves (problem : Problem S) (clean : branch.stack.popped = []) :
    (problem.nextMoves branch).2.steps = branch.steps := by
  cases going : branch.isOver with
  | true => rw [nextMoves_of_isOver going]
  | false =>
    obtain ⟨considered, hnext⟩ := nextMoves_of_going problem clean going
    rw [hnext]
    split
    · rfl
    · rfl

/-- Where moves are proposed, no failure is noted. -/
theorem error_nextMoves (clean : branch.stack.popped = []) (some : (problem.nextMoves branch).1 ≠ []) :
    (problem.nextMoves branch).2.error = branch.error := by
  obtain ⟨⟨considered, noted⟩, _⟩ := nextMoves_of_ne_nil clean some
  rw [noted]
  rfl

/-! ## §3. Branches that stop. -/

/-- What runs of the search lead to, they lead to in an orderly way. -/
theorem Orderly.of_run {maxSteps : Option Nat} {history : List (Move S)} {final : Branch S}
    (run : problem.machine.Run maxSteps 0 problem.machine.start history final) :
    problem.Orderly final := by
  refine run.invariant problem.Orderly ?_ .start
  intro branch move orderly going proposed
  have unfinished := (Branch.isOver_eq_false_iff.1 going).1
  obtain ⟨_, _, mem, rfl⟩ := exists_item_of_mem_nextMoves orderly.reachable.clean proposed
  exact orderly.moved unfinished mem

/-- A branch that a search stops in is over, and orderly. -/
theorem orderly_of_stopsIn {maxSteps : Option Nat} {stopped : Branch S}
    (stops : problem.machine.StopsIn maxSteps stopped) :
    problem.Orderly stopped ∧ stopped.isOver = true := by
  obtain ⟨history, final, run, stop⟩ := stops
  have orderly := Orderly.of_run run
  cases stop with
  | finished ended => exact ⟨orderly, ended⟩
  | cut going _ => exact ⟨orderly.interrupted, Branch.isOver_of_failed (error_interrupt going)⟩
  | stuck going _ nothing =>
    have failed := isOver_of_nextMoves_eq_nil orderly.reachable.clean nothing
    rw [show final.isOver = false from going] at failed
    exact ⟨orderly.looked, Branch.isOver_of_failed (failed.resolve_left Bool.false_ne_true)⟩

/-- The result of a branch that is over is accepted if and only if the branch is. -/
theorem Orderly.isAccepted_iff (orderly : problem.Orderly branch) (ended : branch.isOver = true) :
    branch.result.isAccepted = true ↔ branch.done = true := by
  cases alive : branch.error with
  | none =>
    have kept : branch.result.isAccepted = true := by
      show branch.error.isNone = true
      rw [alive]
      rfl
    exact iff_of_true kept (Branch.done_of_isOver ended alive)
  | some error =>
    have refused : branch.result.isAccepted = false := isAccepted_of_failed (by rw [alive]; rfl)
    rw [refused, orderly.unfinished alive]

end Problem

/-! ## §4. What looking for moves comes to. -/

/-- Looking for moves in a branch that operations lead to leaves its stack, with
all there is to undo, its cursor, its number of moves and its end as they are.
In a branch that is not over either moves are proposed, without a failure, and
the same ones however often one looks again, or none is, and the branch has failed
while predicting.  So every branch in which a search stops is accepted or has
failed, and each result that the search hands out is that of such a branch, which
is accepted if and only if the result is. -/
theorem prediction_only_looks (problem : Problem S) :
    (∀ branch, problem.Reachable branch →
      (problem.nextMoves branch).2.stack = branch.stack ∧
      (problem.nextMoves branch).2.cursor = branch.cursor ∧
      (problem.nextMoves branch).2.steps = branch.steps ∧
      (problem.nextMoves branch).2.done = branch.done ∧
      (branch.isOver = false →
        ((problem.nextMoves branch).1 ≠ [] ∧ (problem.nextMoves branch).2.error = none ∧
          ∀ times, (problem.nextMoves (problem.afterLooks times branch)).1 =
            (problem.nextMoves branch).1) ∨
        ((problem.nextMoves branch).1 = [] ∧
          ∃ error, (problem.nextMoves branch).2.error = some error ∧ error.phase = .predict))) ∧
    (∀ maxSteps stopped, problem.machine.StopsIn maxSteps stopped →
      (stopped.done = true ∨ stopped.error.isSome = true) ∧
      (stopped.result.isAccepted = true ↔ stopped.done = true)) ∧
    (∀ options fuel search after result, Search.Reachable problem.machine options search →
      Search.next? problem.machine options fuel search = some (some result, after) →
      ∃ stopped, problem.machine.StopsIn options.maxSteps stopped ∧ result = stopped.result) := by
  refine ⟨?_, ?_, ?_⟩
  · intro branch reachable
    -- Nothing is left to undo between operations, so putting back restores the stack.
    have clean := reachable.clean
    obtain ⟨stack, cursor, done⟩ := Branch.standing_eq_iff.1 (Problem.standing_nextMoves problem clean)
    refine ⟨stack, cursor, Problem.steps_nextMoves problem clean, done, ?_⟩
    intro going
    by_cases nothing : (problem.nextMoves branch).1 = []
    · exact .inr ⟨nothing, Problem.phase_of_nextMoves clean going nothing⟩
    · refine .inl ⟨nothing, ?_, Problem.nextMoves_afterLooks clean nothing⟩
      exact (Problem.error_nextMoves clean nothing).trans (Branch.isOver_eq_false_iff.1 going).2
  · intro maxSteps stopped stops
    obtain ⟨orderly, ended⟩ := Problem.orderly_of_stopsIn stops
    exact ⟨Bool.or_eq_true_iff.1 ended, orderly.isAccepted_iff ended⟩
  · -- What is handed out is what some run of the machine ends in.
    intro options fuel search after result reachable handed
    have ends := Search.endsIn_of_next? problem.machine_lawful reachable handed
    obtain ⟨stopped, stops, same⟩ := ends.exists_stopsIn
    exact ⟨stopped, stops, same.symm⟩

/-- With `E + T` on the stack the same two moves are proposed whenever one looks,
and the stack is left alone; the first result of the whole search is that of a
branch that has failed. -/
theorem prediction_only_looks_sum :
    ∃ branch stopped, Problem.Reachable ⟨sumTable, sumStream⟩ branch ∧
      branch.stackKinds = [.nonTerminal "E", .terminal "+", .nonTerminal "T"] ∧
      (Problem.nextMoves ⟨sumTable, sumStream⟩ branch).1.length = 2 ∧
      (Problem.nextMoves ⟨sumTable, sumStream⟩ branch).2.stack = branch.stack ∧
      (∀ times, (Problem.nextMoves ⟨sumTable, sumStream⟩
        (Problem.afterLooks ⟨sumTable, sumStream⟩ times branch)).1 =
          (Problem.nextMoves ⟨sumTable, sumStream⟩ branch).1) ∧
      (Problem.machine ⟨sumTable, sumStream⟩).StopsIn none stopped ∧
      stopped.error.isSome = true ∧
      ((Search.next? (Problem.machine ⟨sumTable, sumStream⟩) {} 20 .initial).map fun handed =>
        handed.1.map ParseResult.forest) = some (some stopped.result.forest) := by
  obtain ⟨looks, stops, results⟩ := prediction_only_looks ⟨sumTable, sumStream⟩
  have known : ∀ move ∈ sumMoves, Problem.Knows ⟨sumTable, sumStream⟩ move := by
    decide +kernel
  have reachable := Problem.Reachable.replay known
  have going : ((Problem.machine ⟨sumTable, sumStream⟩).replay sumMoves).isOver = false := by
    decide +kernel
  have two : (Problem.nextMoves ⟨sumTable, sumStream⟩
      ((Problem.machine ⟨sumTable, sumStream⟩).replay sumMoves)).1.length = 2 := by
    decide +kernel
  have first : ((Search.next? (Problem.machine ⟨sumTable, sumStream⟩) {} 20 .initial).map fun handed =>
      handed.1.map ParseResult.isAccepted) = some (some false) := by
    decide +kernel
  obtain ⟨stack, _, _, _, outcome⟩ := looks _ reachable
  obtain ⟨⟨handed, after⟩, hnext, hhanded⟩ := Option.map_eq_some_iff.1 first
  obtain ⟨result, rfl, refused⟩ := Option.map_eq_some_iff.1 hhanded
  obtain ⟨stopped, hstops, rfl⟩ := results {} 20 .initial after result .initial hnext
  obtain ⟨ended, acceptedIff⟩ := stops none stopped hstops
  rw [refused] at acceptedIff
  refine ⟨_, stopped, reachable, by decide +kernel, two, stack, ?_, hstops,
    ended.resolve_left fun done => Bool.false_ne_true (acceptedIff.2 done), by rw [hnext]; rfl⟩
  rcases outcome going with ⟨_, _, again⟩ | ⟨nothing, _⟩
  · exact again
  · rw [nothing] at two
    cases two

end ShiftReduce
