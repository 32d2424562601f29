/-
  ShiftReduce.Branch.Prediction
  ────────────────────────────────
  **WHICH MOVES A BRANCH CAN MAKE.**

  The candidates are the items of the symbol on top of the stack that fit the
  depth of the stack.  A sole candidate is proposed as it is.  Several are
  narrowed down by the next token, and then by an inspection of the stack,
  deeper and deeper, until they are told apart: an item is settled once the
  whole part of its rule before the dot has been found on the stack.
-/
import ShiftReduce.Branch

namespace ShiftReduce

variable {S : Type} [DecidableEq S] [GrammarSymbol S]

/-! ## §1. Inspecting the stack. -/

/-- An inspection under way, before it looks at the stack entry `distance`
places from the top. -/
structure Inspection (S : Type) [GrammarSymbol S] where
  distance : Nat
  /-- The items that have agreed with the stack so far and go deeper. -/
  live : List (Item S)
  /-- The items found on the stack completely, the shortest ones first. -/
  settled : List (Item S)
  /-- The symbols looked for in the last entry. -/
  wanted : SymbolSet S

namespace Inspection

/-- The inspection of several items, whose dots sit on the top of the stack. -/
def ofItems (items : List (Item S)) : Inspection S :=
  { distance := 2, live := items, settled := [], wanted := ∅ }

/-- Moves the items that expect nothing any deeper to the settled ones. -/
def settle (inspection : Inspection S) : Inspection S :=
  { inspection with
    live := inspection.live.filter fun item => (item.symbolAt? inspection.distance).isSome
    settled := inspection.settled ++
      inspection.live.filter fun item => (item.symbolAt? inspection.distance).isNone }

/-- There is nothing left to tell apart. -/
def isDecided (inspection : Inspection S) : Bool :=
  inspection.live.isEmpty || (inspection.live.length = 1 && inspection.settled.isEmpty)

/-- Keeps the items that expect the symbol `kind` at this distance, and goes deeper. -/
def descend (inspection : Inspection S) (kind : S) : Inspection S :=
  { inspection with
    distance := inspection.distance + 1
    live := inspection.live.filter fun item => item.symbolAt? inspection.distance = some kind
    wanted := SymbolSet.ofList
      (inspection.live.filterMap fun item => item.symbolAt? inspection.distance) }

/-- Pops entry after entry until the inspection is decided; if the stack ends
first, the items that go deeper are dropped. -/
def run (inspection : Inspection S) : (items popped : List (Token S)) → Inspection S × UndoStack (Token S)
  | [], popped =>
    let settled := inspection.settle
    (if settled.isDecided then settled else { settled with live := [] }, ⟨[], popped⟩)
  | top :: items, popped =>
    let settled := inspection.settle
    if settled.isDecided then (settled, ⟨top :: items, popped⟩)
    else (settled.descend top.kind).run items (top :: popped)

/-- The items that the inspection leaves, the settled ones first. -/
def solutions (inspection : Inspection S) : List (Item S) :=
  inspection.settled ++ inspection.live

end Inspection

/-! ## §2. Predicting. -/

namespace Problem

/-- What an item misses on a stack of the given depth: an item that is too deep
the first terminals of the symbol right under the stack, an accepting one that
is too shallow its own first symbol. -/
def lacking (problem : Problem S) (item : Item S) (depth : Nat) : List S :=
  if depth < item.span then
    ((item.symbolAt? (depth + 1)).map fun symbol => (problem.table.first symbol).toList).getD []
  else (item.symbolAt? item.span).toList

/-- The items that fit a stack of the given depth; an accepting one has to
cover the whole stack, with all input consumed. -/
def candidates (problem : Problem S) (branch : Branch S) (depth : Nat) (items : List (Item S)) :
    List (Item S) :=
  items.filter fun item =>
    item.span ≤ depth &&
      (!item.isAccept || (item.span = depth && branch.cursor = problem.stream.size))

/-- Tells several candidates apart, by the token after `top` and then by the
stack under it. -/
def disambiguate (branch : Branch S) (top : Token S) (lookahead : Option S)
    (candidates : List (Item S)) : Branch S × Except (ParseError S) (List (Move S)) :=
  let live := candidates.filter fun item => item.admits lookahead
  if live.isEmpty then
    let expected := SymbolSet.ofList (candidates.flatMap fun item => item.lookaheads.toList)
    (branch, .error (branch.errorAt (.noApplicableRule lookahead expected) (some (nextPosition top.position))))
  else
    let (inspection, stack) := (Inspection.ofItems live).run branch.stack.items branch.stack.popped
    let branch := { branch with stack }
    let solutions := inspection.solutions
    if solutions.isEmpty then
      (branch, .error
        (branch.errorAt (.noApplicableRule (some top.kind) inspection.wanted) (some top.position)))
    else (branch.consider solutions, .ok (solutions.map Move.ofItem))

/-- The moves of the items that fit the stack, or why none does.  What has been
popped to find out is still in the undo log of the stack. -/
def predict (problem : Problem S) (branch : Branch S) :
    Branch S × Except (ParseError S) (List (Move S)) :=
  let depth := branch.stack.size
  match branch.stack.pop? with
  | none => (branch, .error (branch.errorAt (.noApplicableRule none ∅) none))
  | some (top, stack) =>
    let inspected := { branch with stack }
    let items := problem.table.items top.kind
    if items.isEmpty then
      let kind :=
        if problem.isSettled branch then .unfinishedParse branch.stackKinds
        else .noApplicableRule (some top.kind) ∅
      (inspected, .error (inspected.errorAt kind (some top.position)))
    else
      let candidates := problem.candidates branch depth items
      let inspected := inspected.consider candidates
      match candidates with
      | [] =>
        let accepting := items.any fun item => item.isAccept && item.span = depth
        match if accepting then (problem.checkConsumed inspected).error else none with
        | some error => (inspected, .error error)
        | none =>
          let expected := SymbolSet.ofList (items.flatMap fun item => problem.lacking item depth)
          (inspected, .error
            (inspected.errorAt (.noApplicableRule (some top.kind) expected) (some top.position)))
      | [item] => (inspected, .ok [Move.ofItem item])
      | several => disambiguate inspected top (top.lookaheadKind? problem.stream) several

/-- The moves that the branch can make next.  The stack is left as it was; if
there is no move, the branch is over. -/
def nextMoves (problem : Problem S) (branch : Branch S) : List (Move S) × Branch S :=
  if branch.isOver then ([], branch)
  else
    let (inspected, outcome) := problem.predict (branch.enter .predict)
    let restored := { inspected with stack := inspected.stack.rollback }
    match outcome with
    | .ok moves => (moves, restored)
    | .error error => ([], restored.fail error)

end Problem

end ShiftReduce
