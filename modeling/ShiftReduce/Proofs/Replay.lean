/-
  ShiftReduce.Proofs.Replay
  ────────────────────────────────
  **A BRANCH IS WHAT ITS HISTORY SAYS.**

  A search keeps a branch as the moves that lead to it.  Making them again
  looks for no moves in between, and gives the same branch to the last note, as
  long as the looking has never failed: whatever it notes is overwritten by the
  move that follows.  A move that fails ends the history, whatever comes after it.

  Main statement: `replay_eq_live`.
-/
import ShiftReduce.Proofs.Branch.Reachable
import ShiftReduce.Symbol.Named

namespace ShiftReduce

variable {S : Type} [DecidableEq S] [GrammarSymbol S]

/-! ## §1. Live branches and their histories. -/

/-- The branches of a run that looks for moves and makes some in any order, with
the moves made so far.  A move need not be proposed and may fail; looking must
not have noted a failure. -/
inductive Problem.Live (problem : Problem S) : List (Move S) → Branch S → Prop where
  | start : Live problem [] problem.start
  | looked {history : List (Move S)} {branch : Branch S} (live : Live problem history branch)
      (quiet : (problem.nextMoves branch).2.error = branch.error) :
      Live problem history (problem.nextMoves branch).2
  | moved {history : List (Move S)} {branch : Branch S} (live : Live problem history branch)
      (move : Move S) : Live problem (history ++ [move]) (problem.apply move branch).branch

namespace Problem

variable {problem : Problem S} {branch : Branch S} {history : List (Move S)}

/-- Looking that notes no failure changes nothing for the next move. -/
theorem apply_looked (move : Move S) (clean : branch.stack.popped = [])
    (quiet : (problem.nextMoves branch).2.error = branch.error) :
    problem.apply move (problem.nextMoves branch).2 = problem.apply move branch := by
  cases going : branch.isOver with
  | true => rw [nextMoves_of_isOver going]
  | false =>
    have alive := (Branch.isOver_eq_false_iff.1 going).2
    obtain ⟨considered, hnext⟩ := nextMoves_of_going problem clean going
    rw [hnext] at quiet ⊢
    cases hpredict : (problem.predict (branch.enter .predict)).2 with
    | ok moves => exact applyWith_noted problem.checkAdjacency move considered alive
    | error error =>
      rw [hpredict] at quiet
      have failed := Branch.isSome_error_fail ((branch.enter .predict).consider considered) error
      rw [quiet, alive] at failed
      cases failed

/-! ## §2. Making a history again. -/

/-- In a branch that has failed all further moves are refused. -/
theorem resume_of_failed (failed : branch.error.isSome = true) (moves : List (Move S)) :
    problem.machine.resume branch moves = branch := by
  obtain ⟨error, herror⟩ := Option.isSome_iff_exists.1 failed
  cases moves with
  | nil => rfl
  | cons move rest =>
    have play : problem.machine.play branch move = (branch, true) := by
      simp only [machine, apply_of_failed problem move herror, Option.isSome_some]
    simp only [Machine.resume, play]

/-- The moves left are made from where the first one has led, be it refused or not. -/
theorem resume_cons (move : Move S) (rest : List (Move S)) :
    problem.machine.resume branch (move :: rest) =
      problem.machine.resume (problem.apply move branch).branch rest := by
  cases refused : (problem.apply move branch).error with
  | none =>
    have play : problem.machine.play branch move = ((problem.apply move branch).branch, false) := by
      simp only [machine, refused, Option.isSome_none]
    simp only [Machine.resume, play]
  | some error =>
    have play : problem.machine.play branch move = ((problem.apply move branch).branch, true) := by
      simp only [machine, refused, Option.isSome_some]
    simp only [Machine.resume, play]
    exact (resume_of_failed (error_of_applyWith refused) rest).symm

theorem resume_append (history rest : List (Move S)) :
    problem.machine.resume branch (history ++ rest) =
      problem.machine.resume (problem.machine.resume branch history) rest := by
  induction history generalizing branch with
  | nil => rfl
  | cons move history ih => rw [List.cons_append, resume_cons, resume_cons, ih]

theorem replay_snoc (problem : Problem S) (history : List (Move S)) (move : Move S) :
    problem.machine.replay (history ++ [move]) =
      (problem.apply move (problem.machine.replay history)).branch := by
  rw [Machine.replay, resume_append, resume_cons]
  rfl

/-- After a move that is refused the rest of the history does not matter. -/
theorem replay_of_refused {move : Move S} (rest : List (Move S))
    (refused : (problem.apply move (problem.machine.replay history)).error.isSome = true) :
    problem.machine.replay (history ++ move :: rest) = problem.machine.replay (history ++ [move]) := by
  obtain ⟨error, herror⟩ := Option.isSome_iff_exists.1 refused
  rw [replay_snoc, Machine.replay, resume_append, resume_cons]
  exact resume_of_failed (error_of_applyWith herror) rest

/-! ## §3. Live branches are those replayed. -/

/-- A live branch may differ from the one replayed in what it has noted, but not
in what any move comes to. -/
theorem Live.apply_eq (live : problem.Live history branch) :
    branch.stack.popped = [] ∧
      ∀ move, problem.apply move branch = problem.apply move (problem.machine.replay history) := by
  induction live with
  | start => exact ⟨clean_start problem, fun _ => rfl⟩
  | @looked history branch _ quiet ih =>
    obtain ⟨clean, same⟩ := ih
    have stack : (problem.nextMoves branch).2.stack = branch.stack :=
      (Branch.standing_eq_iff.1 (standing_nextMoves problem clean)).1
    exact ⟨by rw [stack, clean], fun move => (apply_looked move clean quiet).trans (same move)⟩
  | @moved history branch _ move ih =>
    obtain ⟨clean, same⟩ := ih
    refine ⟨clean_apply problem move clean, fun next => ?_⟩
    rw [replay_snoc, ← same move]

end Problem

/-- Just after a move a live branch is, in every part of it, what making its
history again from the beginning leads to, also if that move has failed; and
what follows a failed move in a history changes nothing. -/
theorem replay_eq_live (problem : Problem S) :
    (∀ history branch move, problem.Live history branch →
      problem.machine.replay (history ++ [move]) = (problem.apply move branch).branch) ∧
    ∀ history move rest, (problem.apply move (problem.machine.replay history)).error.isSome = true →
      problem.machine.replay (history ++ move :: rest) = problem.machine.replay (history ++ [move]) := by
  constructor
  · intro history branch move live
    rw [Problem.replay_snoc, live.apply_eq.2 move]
  · intro history move rest refused
    exact Problem.replay_of_refused rest refused

/-- The rules `S => a b` and `S => a c`. -/
def choiceRules : List (Rule Symbol) :=
  [⟨0, .nonTerminal "S", [.terminal "a", .terminal "b"]⟩,
    ⟨1, .nonTerminal "S", [.terminal "a", .terminal "c"]⟩]

/-- The table of these rules. -/
def choiceTable : DecisionTable Symbol :=
  .ofRuleSet ⟨choiceRules, by decide, by decide, by decide⟩

/-- The tokens `a b`. -/
def choiceStream : TokenStream Symbol :=
  .ofKinds [.terminal "a", .terminal "b"]

/-- The shift after the `a` of the second rule, which announces a `c`. -/
def choiceMove : Move Symbol :=
  .ofItem (choiceTable.rules.itemAt ⟨1, .nonTerminal "S", [.terminal "a", .terminal "c"]⟩ 0)

/-- Looking for the moves at `a` notes the items considered, which the beginning
does not.  Shifting a `b` for a `c` fails and leaves the same branch either way;
doing it again does not matter. -/
theorem replay_eq_live_choice :
    ∃ branch, Problem.Live ⟨choiceTable, choiceStream⟩ [] branch ∧
      branch ≠ (Problem.machine ⟨choiceTable, choiceStream⟩).replay [] ∧
      ((Problem.machine ⟨choiceTable, choiceStream⟩).replay [choiceMove]).error.isSome = true ∧
      (Problem.machine ⟨choiceTable, choiceStream⟩).replay [choiceMove] =
        (Problem.apply ⟨choiceTable, choiceStream⟩ choiceMove branch).branch ∧
      (Problem.machine ⟨choiceTable, choiceStream⟩).replay [choiceMove, choiceMove] =
        (Problem.machine ⟨choiceTable, choiceStream⟩).replay [choiceMove] := by
  have live : Problem.Live ⟨choiceTable, choiceStream⟩ [] _ :=
    .looked .start (by decide +kernel)
  obtain ⟨same, stops⟩ := replay_eq_live (⟨choiceTable, choiceStream⟩ : Problem Symbol)
  refine ⟨_, live, by decide +kernel, by decide +kernel, same [] _ choiceMove live, ?_⟩
  exact stops [] choiceMove [choiceMove] (by decide +kernel)

end ShiftReduce
