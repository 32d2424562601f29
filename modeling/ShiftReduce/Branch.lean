/-
  ShiftReduce.Branch
  ────────────────────────────────
  **ONE BRANCH OF A PARSE.**

  A branch is a cursor into the token stream and a stack of trees, with the
  number of moves made, the outcome if there is one, and a record of what the
  branch last did.  Nothing here looks at the table or at the stream; that is
  left to prediction and application.
-/
import ShiftReduce.DecisionTable
import ShiftReduce.Move
import ShiftReduce.ParseResult
import ShiftReduce.UndoStack

namespace ShiftReduce

variable {S : Type}

/-! ## §1. Branches. -/

/-- What the branch was doing when it last stopped. -/
structure Diagnostics (S : Type) [GrammarSymbol S] where
  phase : Phase
  /-- The items of the last prediction, or the one of the last move. -/
  considered : List (Item S)
  expected : List S
  actual : Option S
  deriving DecidableEq

/-- A branch of a parse. -/
structure Branch (S : Type) [GrammarSymbol S] where
  /-- The index of the next token to shift. -/
  cursor : Nat
  stack : UndoStack (Token S)
  /-- The number of moves made. -/
  steps : Nat
  /-- The branch has been accepted. -/
  done : Bool
  error : Option (ParseError S)
  diagnostics : Diagnostics S
  deriving DecidableEq

namespace Branch

variable [GrammarSymbol S]

/-- The branch before its first token is shifted. -/
def blank : Branch S :=
  { cursor := 0
    stack := .empty
    steps := 0
    done := false
    error := none
    diagnostics := { phase := .init, considered := [], expected := [], actual := none } }

/-- The branch is accepted or has failed. -/
def isOver (branch : Branch S) : Bool :=
  branch.done || branch.error.isSome

/-- The kinds of the trees on the stack, bottom first. -/
def stackKinds (branch : Branch S) : List S :=
  branch.stack.toList.map Token.kind

/-- The position of the tree on top of the stack. -/
def topPosition? (branch : Branch S) : Option Nat :=
  branch.stack.peek?.map Token.position

/-- The stack from the top down, and the failure if there is one. -/
def result (branch : Branch S) : ParseResult S :=
  { forest := branch.stack.drain.map Token.erase
    error := branch.error }

/-! ## §2. Phases and failures. -/

/-- Notes what the branch is about to do. -/
def enter (branch : Branch S) (phase : Phase) : Branch S :=
  { branch with diagnostics := { branch.diagnostics with phase } }

/-- Notes which items the branch looks at. -/
def consider (branch : Branch S) (items : List (Item S)) : Branch S :=
  { branch with diagnostics := { branch.diagnostics with considered := items } }

/-- The failure of the branch for the given cause, in its present phase. -/
def errorAt (branch : Branch S) (kind : ErrorKind S) (position : Option Nat) : ParseError S :=
  { kind, phase := branch.diagnostics.phase, position }

/-- Notes a failure; the first one noted is the one that stays. -/
def fail (branch : Branch S) (error : ParseError S) : Branch S :=
  { branch with
    diagnostics := { branch.diagnostics with expected := error.kind.expected, actual := error.kind.actual }
    error := branch.error.or (some error) }

/-- Ends the branch where it stands, unless it is over. -/
def interrupt (branch : Branch S) : Branch S :=
  if branch.isOver then branch
  else
    let stopped := branch.enter .complete
    stopped.fail (stopped.errorAt (.unfinishedParse stopped.stackKinds) stopped.topPosition?)

end Branch

/-! ## §3. Attempts. -/

/-- What comes of an operation on a branch: the branch afterwards, and the
failure if the operation was refused. -/
structure Attempt (S : Type) [GrammarSymbol S] where
  branch : Branch S
  error : Option (ParseError S)

namespace Attempt

variable [GrammarSymbol S]

/-- The operation went through. -/
def success (branch : Branch S) : Attempt S :=
  ⟨branch, none⟩

/-- The operation was refused for the given cause. -/
def refusal (branch : Branch S) (kind : ErrorKind S) (position : Option Nat) : Attempt S :=
  ⟨branch, some (branch.errorAt kind position)⟩

/-- Goes on with the next operation if this one went through. -/
def andThen (attempt : Attempt S) (next : Branch S → Attempt S) : Attempt S :=
  match attempt.error with
  | none => next attempt.branch
  | some _ => attempt

@[simp]
theorem success_andThen (branch : Branch S) (next : Branch S → Attempt S) :
    (success branch).andThen next = next branch := rfl

@[simp]
theorem refusal_andThen (branch : Branch S) (kind : ErrorKind S) (position : Option Nat)
    (next : Branch S → Attempt S) :
    (refusal branch kind position).andThen next = refusal branch kind position := rfl

end Attempt

/-! ## §4. What is parsed. -/

/-- A table, and the stream to parse by it. -/
structure Problem (S : Type) [DecidableEq S] [GrammarSymbol S] where
  table : DecisionTable S
  stream : TokenStream S

namespace Problem

variable [DecidableEq S] [GrammarSymbol S]

/-- Nothing but an end-marker is left to shift. -/
def isSettled (problem : Problem S) (branch : Branch S) : Bool :=
  match problem.stream.lexemes.drop branch.cursor with
  | [] => true
  | [last] => GrammarSymbol.isEndMarker last.kind
  | _ => false

/-- Refuses to go on while there are tokens to shift. -/
def checkConsumed (problem : Problem S) (branch : Branch S) : Attempt S :=
  match problem.stream.lexemes[branch.cursor]? with
  | none => .success branch
  | some lexeme => .refusal branch (.noApplicableRule (some lexeme.kind) ∅) (some lexeme.position)

end Problem

end ShiftReduce
