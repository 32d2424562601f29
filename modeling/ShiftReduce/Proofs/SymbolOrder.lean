/-
  ShiftReduce.Proofs.SymbolOrder
  ────────────────────────────────
  **THE ORDER OF THE SYMBOLS MEANS NOTHING.**

  Tables are sorted by symbol and sets of expected symbols are listed in order,
  so the order of the symbols is everywhere.  It decides nothing: a renaming
  that turns it round changes neither which grammars are refused, nor which
  results there are, nor when each of them is found.

  Main statement: `symbol_order_immaterial`.
-/
import ShiftReduce.Proofs.Renaming.Prediction
import ShiftReduce.Proofs.Renaming.Search
import ShiftReduce.Symbol.Ranked

namespace ShiftReduce

variable {S T : Type} [GrammarSymbol S] [GrammarSymbol T]

/-! ## §1. What a search shows. -/

/-- What one call of `next?` shows: the result, if there is one, and the
counters of the search afterwards. -/
structure Answer (S : Type) [GrammarSymbol S] where
  result : Option (ParseResult S)
  explored : Nat
  /-- The number of branches left to explore. -/
  pending : Nat
  forks : Nat
  deriving DecidableEq

namespace Answer

/-- What has been found, and the search that has found it. -/
def of {μ : Type} (found : Option (ParseResult S) × Search S μ) : Answer S :=
  { result := found.1
    explored := found.2.explored
    pending := found.2.pending.length
    forks := found.2.forks }

/-- The same counters with the result renamed. -/
def rename (f : Renaming S T) (answer : Answer S) : Answer T :=
  { answer with result := answer.result.map (ParseResult.rename f) }

theorem of_renameAnswer {μ ν : Type} (f : Renaming S T) (move : μ → ν)
    (found : Option (ParseResult S) × Search S μ) :
    of (Search.renameAnswer f move found) = (of found).rename f := by
  unfold of rename Search.renameAnswer Search.rename
  rw [List.length_map]

/-- The symbols that are listed as expected, if the result has a failure. -/
def expected (answer : Answer S) : List S :=
  ((answer.result.bind ParseResult.error).map fun error => error.kind.expected).getD []

/-- The images are listed in their own order. -/
theorem expected_rename (f : Renaming S T) (answer : Answer S) :
    (answer.rename f).expected = (SymbolSet.ofList (answer.expected.map f)).toList := by
  obtain ⟨result, explored, pending, forks⟩ := answer
  cases result with
  | none => rfl
  | some result =>
    obtain ⟨forest, error⟩ := result
    cases error with
    | none => rfl
    | some error => exact error.kind.expected_rename f

end Answer

variable [DecidableEq S] [DecidableEq T]

/-- What the given number of calls of `next?` show, one after the other. -/
def Search.answers? {σ μ : Type} (machine : Machine S σ μ) (options : SearchOptions) (fuel : Nat) :
    Nat → Search S μ → Option (List (Answer S))
  | 0, _ => some []
  | calls + 1, search =>
    match next? machine options fuel search with
    | none => none
    | some found => (answers? machine options fuel calls found.2).map fun rest => .of found :: rest

/-- Searches of a machine and of its renaming show the same, renamed. -/
theorem Machine.Renames.answers? {σ τ μ ν : Type} {f : Renaming S T} {machine : Machine S σ μ}
    {image : Machine T τ ν} {state : σ → τ} {move : μ → ν} (renames : machine.Renames f image state move)
    (options : SearchOptions) (fuel calls : Nat) (search : Search S μ) :
    Search.answers? image options fuel calls (search.rename f move) =
      (Search.answers? machine options fuel calls search).map (List.map (Answer.rename f)) := by
  induction calls generalizing search with
  | zero => rfl
  | succ calls ih =>
    rw [Search.answers?, Search.answers?, renames.next?]
    cases Search.next? machine options fuel search with
    | none => rfl
    | some found =>
      show (Search.answers? image options fuel calls (found.2.rename f move)).map _ = _
      rw [ih, Option.map_map, Option.map_map, Answer.of_renameAnswer]
      rfl

/-! ## §2. Problems with renamed symbols. -/

/-- The branches of a renamed problem are the renamed branches. -/
theorem Problem.renames_machine (f : Renaming S T) (problem : Problem S) :
    problem.machine.Renames f (problem.rename f).machine (Branch.rename f) (Move.rename f) where
  start := problem.start_rename f
  isOver branch := branch.isOver_rename f
  moves branch := problem.nextMoves_rename f branch
  play branch move := by
    show (((problem.rename f).apply (move.rename f) (branch.rename f)).branch,
      ((problem.rename f).apply (move.rename f) (branch.rename f)).error.isSome) = _
    rw [problem.apply_rename f branch move]
    exact congrArg (Prod.mk _) Option.isSome_map
  interrupt branch := branch.interrupt_rename f
  result branch := branch.result_rename f

/-- The order of the symbols carries no meaning.  When symbols are renamed, terminals to
terminals and end-markers to end-markers but in any order, then rules are refused for the same
reason or make the renamed table; every call of `next?` gives the renamed result, where a set of
expected symbols becomes the set of their images, with the same counters; and the verdict is the
renamed one. -/
theorem symbol_order_immaterial (f : Renaming S T) :
    (∀ rules : List (Rule S),
      DecisionTable.build (rules.map (Rule.rename f)) =
        (DecisionTable.build rules).map (DecisionTable.rename f)) ∧
    ∀ (table : DecisionTable S) (stream : TokenStream S) (options : SearchOptions) (fuel : Nat),
      (∀ calls, Search.answers? (Problem.mk (table.rename f) (stream.rename f)).machine options fuel calls
          .initial =
        (Search.answers? (Problem.mk table stream).machine options fuel calls .initial).map
          (List.map (Answer.rename f))) ∧
      Search.verdict? (Problem.mk (table.rename f) (stream.rename f)).machine options fuel .initial =
        (Search.verdict? (Problem.mk table stream).machine options fuel .initial).map
          (Verdict.rename f) := by
  refine ⟨DecisionTable.build_rename f, fun table stream options fuel => ?_⟩
  have renames := (Problem.mk table stream).renames_machine f
  exact ⟨fun calls => renames.answers? options fuel calls .initial, renames.verdict? options fuel .initial⟩

/-- Exchanges the two lowest ranks, and with them the order of the symbols that have them. -/
def RankedSymbol.exchange : Renaming RankedSymbol RankedSymbol where
  toFun symbol := { symbol with rank := if symbol.rank = 0 then 1 else if symbol.rank = 1 then 0 else symbol.rank }
  bijective := by
    refine Function.Involutive.bijective fun symbol => ?_
    obtain ⟨rank, role, name⟩ := symbol
    match rank with
    | 0 => rfl
    | 1 => rfl
    | rank + 2 => rfl
  isTerminal_toFun _ := rfl
  isEndMarker_toFun _ := rfl

/-- The rules `S => A a`, `S => A b` and `A => c`, where `a` and `b` have the two lowest ranks. -/
def refusingRules : List (Rule RankedSymbol) :=
  [⟨0, ⟨3, .nonTerminal, "S"⟩, [⟨4, .nonTerminal, "A"⟩, ⟨0, .terminal, "a"⟩]⟩,
    ⟨1, ⟨3, .nonTerminal, "S"⟩, [⟨4, .nonTerminal, "A"⟩, ⟨1, .terminal, "b"⟩]⟩,
    ⟨2, ⟨4, .nonTerminal, "A"⟩, [⟨2, .terminal, "c"⟩]⟩]

/-- The table of these rules. -/
def refusingTable : DecisionTable RankedSymbol :=
  .ofRuleSet ⟨refusingRules, by decide, by decide, by decide⟩

/-- The tokens `c d`; there is no `d` in the rules. -/
def refusedStream : TokenStream RankedSymbol :=
  .ofKinds [⟨2, .terminal, "c"⟩, ⟨5, .terminal, "d"⟩]

open RankedSymbol in
/-- The failure at `d` lists `a` before `b`; the images are listed the other way round. -/
theorem symbol_order_immaterial_exchange :
    DecisionTable.build (refusingRules.map (Rule.rename exchange)) = .ok (refusingTable.rename exchange) ∧
      (Search.answers? (Problem.mk refusingTable refusedStream).machine {} 10 1 .initial).map
          (List.map Answer.expected) =
        some [[⟨0, .terminal, "a"⟩, ⟨1, .terminal, "b"⟩]] ∧
      (Search.answers?
          (Problem.mk (refusingTable.rename exchange) (refusedStream.rename exchange)).machine {} 10 1
          .initial).map (List.map Answer.expected) =
        some [[exchange ⟨1, .terminal, "b"⟩, exchange ⟨0, .terminal, "a"⟩]] := by
  have immaterial := symbol_order_immaterial exchange
  have listed : (Search.answers? (Problem.mk refusingTable refusedStream).machine {} 10 1 .initial).map
      (List.map Answer.expected) = some [[⟨0, .terminal, "a"⟩, ⟨1, .terminal, "b"⟩]] := by
    decide +kernel
  refine ⟨?_, listed, ?_⟩
  · rw [immaterial.1, show DecisionTable.build refusingRules = .ok refusingTable from refusingTable.build_rules]
    rfl
  · obtain ⟨answers, run, lists⟩ := Option.map_eq_some_iff.1 listed
    obtain ⟨answer, rfl, expected⟩ := List.map_eq_singleton_iff.1 lists
    rw [(immaterial.2 refusingTable refusedStream {} 10).1 1, run]
    show some [(answer.rename exchange).expected] = _
    rw [Answer.expected_rename, expected]
    decide

end ShiftReduce
