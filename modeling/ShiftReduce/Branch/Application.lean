/-
  ShiftReduce.Branch.Application
  ────────────────────────────────
  **MAKING A MOVE.**

  A shift takes the next token, a reduction replaces the right-hand side of a
  rule on top of the stack by a node, an acceptance reduces once the input is
  used up.  After a reduction the new node must be allowed above its
  neighbour; after every move the hint of the move must be on top.  In a
  grammar without end-markers a branch is accepted as soon as the start symbol
  is alone on the stack and the input is settled.
-/
import ShiftReduce.Branch

namespace ShiftReduce

variable {S : Type} [DecidableEq S] [GrammarSymbol S]

/-! ## §1. Shifts. -/

namespace Problem

/-- Puts the next token of the stream on the stack. -/
def shift (problem : Problem S) (branch : Branch S) : Attempt S :=
  let branch := branch.enter .shift
  match problem.stream.get? branch.cursor with
  | none => .refusal branch .endOfStream none
  | some token =>
    .success { branch with stack := branch.stack.push token, cursor := branch.cursor + 1 }

end Problem

/-! ## §2. Reductions. -/

/-- Pops the symbols one by one.  If the stack disagrees, the symbol expected
and the tree found in its place, if any, come with it. -/
def popSymbols : List S → UndoStack (Token S) → UndoStack (Token S) × Option (S × Option (Token S))
  | [], stack => (stack, none)
  | symbol :: rest, stack =>
    match stack.pop? with
    | none => (stack, some (symbol, none))
    | some (top, popped) =>
      if top.kind = symbol then popSymbols rest popped else (popped, some (symbol, some top))

namespace Problem

/-- Replaces the right-hand side of the rule on top of the stack, read from the
right to the left, by a node for the left-hand side. -/
def contract (problem : Problem S) (rule : Rule S) (branch : Branch S) : Attempt S :=
  let branch := branch.enter .reduce
  match popSymbols rule.rhs.reverse branch.stack with
  | (stack, some (symbol, found)) =>
    .refusal { branch with stack := stack.rollback }
      (.reductionMismatch ((problem.table.first symbol).insert symbol) (found.map Token.kind))
      (found.map Token.position)
  | (stack, none) =>
    let (popped, stack) := stack.commit
    .success { branch with stack := stack.push (Token.reduce rule.lhs popped.reverse) }

/-- Refuses a tree on top of the stack that may not sit on the one below. -/
def checkAdjacency (problem : Problem S) (branch : Branch S) : Attempt S :=
  match branch.stack.items with
  | [] => .success branch
  | top :: rest =>
    let below := rest.head?.map Token.kind
    if problem.table.canFollow below top.kind then .success branch
    else
      .refusal (branch.enter .checkBranch)
        (.noApplicableRule (some top.kind) (problem.table.followers below)) (some top.position)

/-- Contracts the right-hand side of a rule, if the node may sit there. -/
def reduce (problem : Problem S) (rule : Rule S) (branch : Branch S) : Attempt S :=
  (problem.contract rule branch).andThen problem.checkAdjacency

/-! ## §3. Moves. -/

/-- Reduces by the last rule, once no token is left. -/
def accept (problem : Problem S) (rule : Rule S) (branch : Branch S) : Attempt S :=
  ((problem.checkConsumed (branch.enter .accept)).andThen (problem.reduce rule)).andThen
    fun reduced => .success { reduced.enter .accept with done := true }

/-- Refuses a branch whose top of the stack is neither the hint of the move nor
a lookahead of its item. -/
def checkHint (move : Move S) (branch : Branch S) : Attempt S :=
  match move.hint with
  | none => .success branch
  | some expected =>
    let branch := branch.enter .checkBranch
    let refused (found : Option (Token S)) : Attempt S :=
      .refusal branch (.hintMismatch expected (found.map Token.kind)) (found.map Token.position)
    match branch.stack.peek? with
    | none => refused none
    | some top =>
      if top.kind = expected ∨ top.kind ∈ move.item.lookaheads then .success branch
      else refused (some top)

/-- Does what the item of the move calls for, then looks at the hint. -/
def step (problem : Problem S) (move : Move S) (branch : Branch S) : Attempt S :=
  let acted :=
    match move.item.action with
    | .shift => problem.shift branch
    | .reduce => problem.reduce move.item.rule branch
    | .accept => problem.accept move.item.rule branch
  acted.andThen (checkHint move)

/-- Accepts the branch if the grammar has no end-marker rule, the start symbol
is alone on the stack and nothing but an end-marker is left. -/
def complete (problem : Problem S) (branch : Branch S) : Branch S :=
  if branch.isOver || problem.table.acceptsExplicitly then branch
  else if branch.stack.items.map Token.kind = [problem.table.start] && problem.isSettled branch then
    { branch.enter .accept with cursor := problem.stream.size, done := true }
  else branch

/-- Makes a move.  A branch that has failed refuses it with the same failure;
a refusal is noted in the branch. -/
def apply (problem : Problem S) (move : Move S) (branch : Branch S) : Attempt S :=
  match branch.error with
  | some error => ⟨branch, some error⟩
  | none =>
    let attempt := problem.step move ({ branch with steps := branch.steps + 1 }.consider [move.item])
    match attempt.error with
    | none => .success (problem.complete attempt.branch)
    | some error => ⟨attempt.branch.fail error, some error⟩

/-! ## §4. The beginning. -/

/-- The branch at its beginning, with the first token shifted. -/
def start (problem : Problem S) : Branch S :=
  let attempt := problem.shift Branch.blank
  match attempt.error with
  | none => problem.complete attempt.branch
  | some error => attempt.branch.fail error

end Problem

end ShiftReduce
