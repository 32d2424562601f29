/-
  ShiftReduce.ParseError
  ────────────────────────────────
  **WHY A BRANCH FAILED.**

  A cause, the phase the branch was in, and the position of the offending token
  if there is one.  Lists of expected symbols are sets, shown in ascending order.
-/
import ShiftReduce.Symbol.Set

namespace ShiftReduce

variable {S : Type}

/-! ## §1. Phases. -/

/-- What a branch was doing. -/
inductive Phase where
  | init
  | predict
  | shift
  | reduce
  | accept
  | checkBranch
  | complete
  deriving DecidableEq

/-- The word for a phase. -/
def Phase.text : Phase → String
  | init => "init"
  | predict => "predict"
  | shift => "shift"
  | reduce => "reduce"
  | accept => "accept"
  | checkBranch => "check-branch"
  | complete => "complete"

/-! ## §2. Causes. -/

/-- What went wrong. -/
inductive ErrorKind (S : Type) [GrammarSymbol S] where
  /-- A shift found no token left. -/
  | endOfStream
  /-- A reduction found another symbol on the stack, or none. -/
  | reductionMismatch (expected : SymbolSet S) (actual : Option S)
  /-- The top of the stack is not what the move announced. -/
  | hintMismatch (expected : S) (actual : Option S)
  /-- Nothing can be done with the symbol, or with an empty stack. -/
  | noApplicableRule (symbol : Option S) (expected : SymbolSet S)
  /-- The input is used up and the stack, bottom first, is no finished parse. -/
  | unfinishedParse (stack : List S)
  deriving DecidableEq

/-- The symbols of a list, or a word if there is none. -/
def showExpected [GrammarSymbol S] (symbols : List S) : String :=
  if symbols.isEmpty then "nothing" else showSymbols ", " symbols

/-- The symbol that was found, or a word if none was. -/
def showFound [GrammarSymbol S] : Option S → String
  | none => "nothing"
  | some symbol => GrammarSymbol.text symbol

namespace ErrorKind

variable [GrammarSymbol S]

/-- The wording of a cause. -/
def message : ErrorKind S → String
  | endOfStream => "unexpected end of stream"
  | reductionMismatch expected actual =>
    "cannot reduce, expecting " ++ showExpected expected.toList ++ ", got " ++ showFound actual
  | hintMismatch expected actual =>
    "branch check failed, expecting " ++ GrammarSymbol.text expected ++ ", got " ++ showFound actual
  | noApplicableRule symbol expected =>
    "no applicable rule for " ++ showFound symbol ++ ", expecting " ++ showExpected expected.toList
  | unfinishedParse stack =>
    "unfinished parse, stack settled on [" ++ showSymbols " " stack ++ "]"

/-- The symbols that the cause says were expected. -/
def expected : ErrorKind S → List S
  | endOfStream => []
  | reductionMismatch expected _ => expected.toList
  | hintMismatch expected _ => [expected]
  | noApplicableRule _ expected => expected.toList
  | unfinishedParse _ => []

/-- The symbol that the cause says was found. -/
def actual : ErrorKind S → Option S
  | endOfStream => none
  | reductionMismatch _ actual => actual
  | hintMismatch _ actual => actual
  | noApplicableRule symbol _ => symbol
  | unfinishedParse _ => none

end ErrorKind

/-! ## §3. Errors. -/

/-- The failure of a branch. -/
structure ParseError (S : Type) [GrammarSymbol S] where
  kind : ErrorKind S
  phase : Phase
  position : Option Nat
  deriving DecidableEq

/-- The failure as it is shown: the phase, then the cause. -/
def ParseError.message [GrammarSymbol S] (error : ParseError S) : String :=
  "[" ++ error.phase.text ++ "] " ++ error.kind.message

end ShiftReduce
