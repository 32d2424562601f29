/-
  ShiftReduce.Proofs.ExactPrediction
  ────────────────────────────────
  **WHAT PREDICTION PROPOSES, EXACTLY.**

  In every branch that goes on, however it was reached, the moves proposed are
  those of the items that pass all checks: the stack is deep enough and shows
  the rule up to the dot, acceptance covers the whole stack at the end of the
  input, and a shift has the next token among its lookaheads.  The one exception
  is a sole proposal where no item passes them.

  Main statement: `prediction_exact`.
-/
import ShiftReduce.Proofs.Branch.DeadEnds
import ShiftReduce.Proofs.Branch.Reachable
import ShiftReduce.Proofs.Branch.Verified
import ShiftReduce.Symbol.Named

namespace ShiftReduce

variable {S : Type} [DecidableEq S] [GrammarSymbol S]

namespace Problem

variable {problem : Problem S} {branch : Branch S}

/-! ## §1. Branches that go on. -/

/-- Unless a branch is done, the top of its stack knows which token comes next. -/
theorem linked_invariant (problem : Problem S) :
    problem.Invariant fun trees cursor done => done = false → problem.Linked trees cursor where
  blank := by
    intro _ top none
    cases none
  first := by
    intro token next _ top htop
    cases htop
    obtain ⟨_, _, _, hnext⟩ := TokenStream.get?_eq_some next
    exact hnext
  rewrite := by
    intro symbol item trees trees' cursor cursor' done done' hitem linked rewrites later going
    obtain ⟨rule, hrule, position, _, rfl⟩ := DecisionTable.mem_items.1 hitem
    rcases later with same | ⟨_, ended⟩
    · exact (linked (same.symm.trans going)).rewrites hrule rewrites
    · rw [ended] at going
      cases going
  complete := by
    intro _ _ _ _ _ _ ended
    cases ended

/-! ## §2. The moves of such a branch. -/

/-- Of an item that the table lists for the top of the stack, the checks say
that it matches. -/
theorem matches_iff_verifies {top : Token S} {item : Item S} (peek : branch.stack.peek? = some top) :
    problem.Matches branch item ↔
      item ∈ problem.table.items top.kind ∧ problem.verifies branch item = true := by
  rw [← mem_verifiedItems, verifiedItems, peek, List.mem_insertionSort, List.mem_filter]

/-- All that is proposed announces the symbol after the dot of its item. -/
theorem hint_of_mem_nextMoves {move : Move S} (clean : branch.stack.popped = [])
    (h : move ∈ (problem.nextMoves branch).1) : move.hint = move.item.next? := by
  obtain ⟨_, _, _, rfl⟩ := exists_item_of_mem_nextMoves clean h
  rfl

end Problem

/-- In a branch that goes on, whatever operations led there, prediction proposes
all the items of the top of the stack that pass the checks.  If it proposes two
moves or more, these are the moves of just those items, each once, the smaller
spans first and then the smaller rule numbers; if it proposes one, no other item
passes them; if it proposes none, no item does.  Every move announces the symbol
after the dot. -/
theorem prediction_exact {problem : Problem S} {branch : Branch S} {top : Token S}
    (reachable : problem.Reachable branch) (going : branch.isOver = false)
    (peek : branch.stack.peek? = some top) :
    (∀ item ∈ problem.table.items top.kind, problem.verifies branch item = true →
      Move.ofItem item ∈ (problem.nextMoves branch).1) ∧
    (2 ≤ (problem.nextMoves branch).1.length →
      ∃ items : List (Item S), (problem.nextMoves branch).1 = items.map Move.ofItem ∧
        (∀ item, item ∈ items ↔
          item ∈ problem.table.items top.kind ∧ problem.verifies branch item = true) ∧
        items.Nodup ∧ items.Pairwise Item.Before) ∧
    (∀ move, (problem.nextMoves branch).1 = [move] →
      ∀ item ∈ problem.table.items top.kind, problem.verifies branch item = true → item = move.item) ∧
    ((problem.nextMoves branch).1 = [] →
      ∀ item ∈ problem.table.items top.kind, problem.verifies branch item = false) ∧
    ∀ move ∈ (problem.nextMoves branch).1, move.hint = move.item.next? := by
  have clean := reachable.clean
  have linked := problem.linked_invariant.of_reachable reachable (Branch.isOver_eq_false_iff.1 going).1
  have proposed : ∀ item ∈ problem.table.items top.kind, problem.verifies branch item = true →
      Move.ofItem item ∈ (problem.nextMoves branch).1 := by
    intro item mem passes
    exact Problem.ofItem_mem_nextMoves clean going linked
      ((Problem.matches_iff_verifies peek).2 ⟨mem, passes⟩)
  refine ⟨proposed, ?_, ?_, ?_, fun move => Problem.hint_of_mem_nextMoves clean⟩
  · intro several
    have ordered := Problem.pairwise_verifiedItems problem branch
    refine ⟨problem.verifiedItems branch, ?_, ?_, ?_, ordered⟩
    · exact Problem.nextMoves_eq_verified clean going linked
        (Problem.verifiedItems_ne_nil going clean linked several)
    · intro item
      exact Problem.mem_verifiedItems.trans (Problem.matches_iff_verifies peek)
    · refine ordered.imp ?_
      rintro first _ before rfl
      exact first.not_before_self before
  · intro move one item mem passes
    have h := proposed item mem passes
    rw [one] at h
    exact congrArg Move.item (List.mem_singleton.1 h)
  · intro none item mem
    rw [← Bool.not_eq_true]
    intro passes
    have h := proposed item mem passes
    rw [none] at h
    cases h

/-- The rules `E => E + T`, `E => T` and `T => n`. -/
def sumRules : List (Rule Symbol) :=
  [⟨0, .nonTerminal "E", [.nonTerminal "E", .terminal "+", .nonTerminal "T"]⟩,
    ⟨1, .nonTerminal "E", [.nonTerminal "T"]⟩, ⟨2, .nonTerminal "T", [.terminal "n"]⟩]

/-- The table of these rules. -/
def sumTable : DecisionTable Symbol :=
  .ofRuleSet ⟨sumRules, by decide, by decide, by decide⟩

/-- The tokens `n + n`. -/
def sumStream : TokenStream Symbol :=
  .ofKinds [.terminal "n", .terminal "+", .terminal "n"]

/-- The moves `T => n` and `E => T`, two shifts, and `T => n` again. -/
def sumMoves : List (Move Symbol) :=
  [(2, 0), (1, 0), (0, 0), (0, 1), (2, 0)].filterMap fun place =>
    sumRules[place.1]?.map fun rule => .ofItem (sumTable.rules.itemAt rule place.2)

/-- With `E + T` on the stack two items pass the checks, and `E => T`, which
spans less, is proposed before `E => E + T`. -/
theorem prediction_exact_sum :
    ∃ branch top, ∃ items : List (Item Symbol),
      Problem.Reachable ⟨sumTable, sumStream⟩ branch ∧ branch.isOver = false ∧
      branch.stack.peek? = some top ∧
      branch.stackKinds = [.nonTerminal "E", .terminal "+", .nonTerminal "T"] ∧
      (Problem.nextMoves ⟨sumTable, sumStream⟩ branch).1 = items.map Move.ofItem ∧
      items.map (fun item => (item.span, item.rule.id)) = [(1, 1), (3, 0)] ∧
      ∀ item, item ∈ items ↔ item ∈ sumTable.items top.kind ∧
        Problem.verifies ⟨sumTable, sumStream⟩ branch item = true := by
  have known : ∀ move ∈ sumMoves, Problem.Knows ⟨sumTable, sumStream⟩ move := by
    decide +kernel
  have reachable := Problem.Reachable.replay known
  have going : ((Problem.machine ⟨sumTable, sumStream⟩).replay sumMoves).isOver = false := by
    decide +kernel
  have nonempty : ((Problem.machine ⟨sumTable, sumStream⟩).replay sumMoves).stack.peek?.isSome = true := by
    decide +kernel
  obtain ⟨top, peek⟩ := Option.isSome_iff_exists.1 nonempty
  have places : (Problem.nextMoves ⟨sumTable, sumStream⟩
      ((Problem.machine ⟨sumTable, sumStream⟩).replay sumMoves)).1.map
        (fun move => (move.item.span, move.item.rule.id)) = [(1, 1), (3, 0)] := by
    decide +kernel
  obtain ⟨_, exactly, _⟩ := prediction_exact reachable going peek
  obtain ⟨items, moves, each, _⟩ := exactly (by decide +kernel)
  refine ⟨_, top, items, reachable, going, peek, by decide +kernel, moves, ?_, each⟩
  rw [moves, List.map_map] at places
  exact places

end ShiftReduce
