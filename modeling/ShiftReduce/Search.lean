/-
  ShiftReduce.Search
  ────────────────────────────────
  **THE SEARCH THROUGH ALL BRANCHES.**

  The search goes depth first and leftmost alternative first.  Branches still
  to explore are kept as the moves that lead to them and are made again from
  the beginning when their turn comes.  Each call of `next?` explores branches
  until one of them ends, and hands out its result.

  Branches of a cyclic grammar need not end, so exploring takes a bound on its
  steps: `none` says that the bound was too small, and any other answer does
  not depend on it.
-/
import ShiftReduce.Search.Machine
import ShiftReduce.Search.Options
import ShiftReduce.Search.Verdict

namespace ShiftReduce

/-! ## §1. Exploring one branch. -/

/-- How the exploration of a branch ends: with a result, or with several ways to go on. -/
inductive Exploration (S : Type) [GrammarSymbol S] (μ : Type) where
  | ended (result : ParseResult S)
  | forked (histories : List (List μ))

section
variable {S : Type} [GrammarSymbol S] {σ μ : Type}

/-- Runs a branch with the given history until it ends or forks.  The branch is
interrupted where it would exceed `maxSteps` moves. -/
def Machine.explore (machine : Machine S σ μ) (maxSteps : Option Nat) :
    Nat → List μ → σ → Option (Exploration S μ)
  | 0, _, _ => none
  | fuel + 1, history, state =>
    if machine.isOver state then some (.ended (machine.result state))
    else if maxSteps.any (· ≤ history.length) then
      some (.ended (machine.result (machine.interrupt state)))
    else
      match machine.moves state with
      | ([], state) => some (.ended (machine.result state))
      | ([move], state) => machine.explore maxSteps fuel (history ++ [move]) (machine.play state move).1
      | (moves, _) => some (.forked (moves.map fun move => history ++ [move]))

/-! ## §2. The search. -/

/-- The state of a search. -/
structure Search (S : Type) [GrammarSymbol S] (μ : Type) where
  /-- The branches left to explore, the next one first. -/
  pending : List (List μ)
  /-- The accepted forests handed out so far, if repetitions are to be skipped. -/
  emitted : List (List (ParseTree S))
  /-- The number of branches that have ended. -/
  explored : Nat
  /-- The number of forks. -/
  forks : Nat

namespace Search

/-- The search before its first step: one branch, without any move. -/
def initial : Search S μ :=
  { pending := [[]], emitted := [], explored := 0, forks := 0 }

/-- Drops every branch left to explore. -/
def stop (search : Search S μ) : Search S μ :=
  { search with pending := [] }

variable [DecidableEq S]

/-- The next result and the search after it; there is no result once all
branches have been explored. -/
def next? (machine : Machine S σ μ) (options : SearchOptions) :
    Nat → Search S μ → Option (Option (ParseResult S) × Search S μ)
  | 0, _ => none
  | fuel + 1, search =>
    match search.pending with
    | [] => some (none, search)
    | history :: pending =>
      match machine.explore options.maxSteps fuel history (machine.replay history) with
      | none => none
      | some (.forked histories) =>
        next? machine options fuel
          { search with pending := histories ++ pending, forks := search.forks + 1 }
      | some (.ended result) =>
        let ended := { search with pending, explored := search.explored + 1 }
        if options.deduplicate && result.isAccepted then
          if result.forest ∈ search.emitted then next? machine options fuel ended
          else some (some result, { ended with emitted := search.emitted ++ [result.forest] })
        else some (some result, ended)

/-- All the results that are left, and the search after the last one. -/
def collect? (machine : Machine S σ μ) (options : SearchOptions) :
    Nat → Search S μ → Option (List (ParseResult S) × Search S μ)
  | 0, _ => none
  | fuel + 1, search =>
    match next? machine options fuel search with
    | none => none
    | some (none, search) => some ([], search)
    | some (some result, search) =>
      (collect? machine options fuel search).map fun rest => (result :: rest.1, rest.2)

/-- The verdict on all the results that are left. -/
def verdict? (machine : Machine S σ μ) (options : SearchOptions) (fuel : Nat) (search : Search S μ) :
    Option (Verdict S) :=
  (collect? machine options fuel search).map fun collected => Verdict.ofResults collected.1

end Search
end

end ShiftReduce
