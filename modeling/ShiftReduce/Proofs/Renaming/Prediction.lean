/-
  ShiftReduce.Proofs.Renaming.Prediction
  ────────────────────────────────
  **RENAMED BRANCHES PROPOSE RENAMED MOVES.**

  The candidates come in the order of the rules, and an inspection filters
  them by comparing symbols, so a renamed branch proposes the renamed moves in
  the same order, or fails for the renamed reason.

  Main statements: `Inspection.run_rename` and `Problem.nextMoves_rename`.
-/
import ShiftReduce.Branch.Prediction
import ShiftReduce.Proofs.Renaming.Branch

namespace ShiftReduce

variable {S T : Type} [GrammarSymbol S] [GrammarSymbol T] (f : Renaming S T)

/-! ## §1. Inspecting the stack. -/

namespace Inspection

/-- The inspection of the renamed items. -/
def rename (inspection : Inspection S) : Inspection T :=
  { distance := inspection.distance
    live := inspection.live.map (Item.rename f)
    settled := inspection.settled.map (Item.rename f)
    wanted := inspection.wanted.rename f }

variable (inspection : Inspection S)

@[simp]
theorem settle_rename : (inspection.rename f).settle = inspection.settle.rename f := by
  have deeper : (fun item : Item T => (item.symbolAt? inspection.distance).isSome) ∘ Item.rename f =
      fun item : Item S => (item.symbolAt? inspection.distance).isSome := by
    funext item
    rw [Function.comp, Item.symbolAt?_rename, Option.isSome_map]
  have found : (fun item : Item T => (item.symbolAt? inspection.distance).isNone) ∘ Item.rename f =
      fun item : Item S => (item.symbolAt? inspection.distance).isNone := by
    funext item
    rw [Function.comp, Item.symbolAt?_rename, Option.isNone_map]
  unfold settle rename
  dsimp only
  rw [List.filter_map, deeper, List.filter_map, found, List.map_append]

@[simp]
theorem isDecided_rename : (inspection.rename f).isDecided = inspection.isDecided := by
  unfold isDecided rename
  rw [List.isEmpty_map, List.isEmpty_map, List.length_map]

theorem solutions_rename : (inspection.rename f).solutions = inspection.solutions.map (Item.rename f) := by
  unfold solutions
  rw [List.map_append]
  rfl

section
variable [DecidableEq S] [DecidableEq T]

@[simp]
theorem descend_rename (kind : S) :
    (inspection.rename f).descend (f kind) = (inspection.descend kind).rename f := by
  have expects : (fun item : Item T => decide (item.symbolAt? inspection.distance = some (f kind))) ∘
      Item.rename f = fun item : Item S => decide (item.symbolAt? inspection.distance = some kind) := by
    funext item
    rw [Function.comp, Item.symbolAt?_rename]
    exact decide_eq_decide.2 f.map_eq_some_apply
  have wants : (fun item : Item T => item.symbolAt? inspection.distance) ∘ Item.rename f =
      fun item : Item S => (item.symbolAt? inspection.distance).map f :=
    funext fun item => item.symbolAt?_rename f inspection.distance
  unfold descend rename
  dsimp only
  rw [List.filter_map, expects, SymbolSet.rename_ofList, List.filterMap_map, wants, List.map_filterMap]

/-- Inspecting a renamed stack comes to the renamed inspection, after the same pops. -/
theorem run_rename (items popped : List (Token S)) :
    (inspection.rename f).run (items.map (Token.rename f)) (popped.map (Token.rename f)) =
      ((inspection.run items popped).1.rename f, (inspection.run items popped).2.map (Token.rename f)) := by
  induction items generalizing inspection popped with
  | nil =>
    rw [List.map_nil, run, run, settle_rename, isDecided_rename]
    split <;> rfl
  | cons top items ih =>
    rw [List.map_cons, run, run, settle_rename, isDecided_rename]
    by_cases decided : inspection.settle.isDecided = true
    · rw [if_pos decided, if_pos decided]
      rfl
    · rw [if_neg decided, if_neg decided, Token.kind_rename, descend_rename, ← List.map_cons, ih]

end

end Inspection

/-! ## §2. What prediction looks for. -/

theorem Move.map_ofItem_rename (items : List (Item S)) :
    (items.map (Item.rename f)).map ofItem = (items.map ofItem).map (Move.rename f) := by
  rw [List.map_map, List.map_map]
  exact List.map_congr_left fun item _ => Move.ofItem_rename f item

/-- The proposed moves or the reason why there is none, renamed. -/
def renameOutcome : Except (ParseError S) (List (Move S)) → Except (ParseError T) (List (Move T))
  | .ok moves => .ok (moves.map (Move.rename f))
  | .error error => .error (error.rename f)

/-- An item accepts on a stack if and only if its image does. -/
theorem any_accepts_rename (items : List (Item S)) (depth : Nat) :
    ((items.map (Item.rename f)).any fun item => item.isAccept && item.span = depth) =
      items.any fun item => item.isAccept && item.span = depth :=
  List.any_map

variable [DecidableEq S] [DecidableEq T]

namespace Problem

variable (problem : Problem S) (branch : Branch S)

/-- What a renamed item misses are the images of what the item misses, in some order. -/
theorem mem_lacking_rename (item : Item S) (depth : Nat) (image : T) :
    image ∈ (problem.rename f).lacking (item.rename f) depth ↔
      image ∈ (problem.lacking item depth).map f := by
  unfold lacking
  rw [Item.span_rename, Item.symbolAt?_rename, Item.symbolAt?_rename]
  by_cases deep : depth < item.span
  · rw [if_pos deep, if_pos deep]
    cases item.symbolAt? (depth + 1) with
    | none => simp
    | some symbol =>
      show image ∈ ((problem.table.rename f).first (f symbol)).toList ↔ _
      rw [DecisionTable.first_rename, SymbolSet.mem_toList_rename]
      rfl
  · rw [if_neg deep, if_neg deep]
    cases item.symbolAt? item.span with
    | none => simp
    | some symbol => rfl

theorem candidates_rename (depth : Nat) (items : List (Item S)) :
    (problem.rename f).candidates (branch.rename f) depth (items.map (Item.rename f)) =
      (problem.candidates branch depth items).map (Item.rename f) := by
  have size : (problem.rename f).stream.size = problem.stream.size := problem.stream.size_rename f
  unfold candidates
  rw [size, List.filter_map]
  rfl

/-- What some items miss is renamed as a set, whatever order each of them lists it in. -/
theorem missing_rename (items : List (Item S)) (depth : Nat) :
    SymbolSet.ofList ((items.map (Item.rename f)).flatMap fun item => (problem.rename f).lacking item depth) =
      (SymbolSet.ofList (items.flatMap fun item => problem.lacking item depth)).rename f := by
  refine SymbolSet.ofList_flatMap_map f (fun item image => ?_) items
  exact problem.mem_lacking_rename f item depth image

/-! ## §3. Predicting. -/

/-- Candidates are told apart in the same way. -/
theorem disambiguate_rename (top : Token S) (lookahead : Option S) (candidates : List (Item S)) :
    disambiguate (branch.rename f) (top.rename f) (lookahead.map f) (candidates.map (Item.rename f)) =
      Prod.map (Branch.rename f) (renameOutcome f) (disambiguate branch top lookahead candidates) := by
  have admits : (fun item : Item T => item.admits (lookahead.map f)) ∘ Item.rename f =
      fun item : Item S => item.admits lookahead :=
    funext fun item => item.admits_rename f lookahead
  have expected : SymbolSet.ofList
      ((candidates.map (Item.rename f)).flatMap fun item => item.lookaheads.toList) =
      (SymbolSet.ofList (candidates.flatMap fun item => item.lookaheads.toList)).rename f := by
    refine SymbolSet.ofList_flatMap_map f (fun item image => ?_) candidates
    exact SymbolSet.mem_toList_rename f
  unfold disambiguate
  dsimp only
  rw [List.filter_map, admits, List.isEmpty_map, expected, Token.position_rename, Token.kind_rename]
  generalize candidates.filter (fun item => item.admits lookahead) = live
  by_cases none : live.isEmpty = true
  · rw [if_pos none, if_pos none]
    rfl
  · rw [if_neg none, if_neg none]
    have inspected : (Inspection.ofItems (live.map (Item.rename f))).run (branch.rename f).stack.items
        (branch.rename f).stack.popped = _ :=
      (Inspection.ofItems live).run_rename f branch.stack.items branch.stack.popped
    rw [inspected]
    obtain ⟨inspection, stack⟩ := (Inspection.ofItems live).run branch.stack.items branch.stack.popped
    dsimp only
    rw [Inspection.solutions_rename, List.isEmpty_map, Move.map_ofItem_rename]
    by_cases lost : inspection.solutions.isEmpty = true
    · rw [if_pos lost, if_pos lost]
      rfl
    · rw [if_neg lost, if_neg lost]
      rfl

/-- A renamed branch predicts the renamed moves, or fails to for the renamed reason. -/
theorem predict_rename :
    (problem.rename f).predict (branch.rename f) =
      Prod.map (Branch.rename f) (renameOutcome f) (problem.predict branch) := by
  have pop : (branch.rename f).stack.pop? =
      branch.stack.pop?.map fun popped => (popped.1.rename f, popped.2.map (Token.rename f)) :=
    branch.stack.pop?_map (Token.rename f)
  rw [predict, predict, pop]
  cases branch.stack.pop? with
  | none => rfl
  | some popped =>
    obtain ⟨top, stack⟩ := popped
    have sameItems : (problem.rename f).table.items (top.rename f).kind =
        (problem.table.items top.kind).map (Item.rename f) := by
      rw [Token.kind_rename]
      exact problem.table.items_rename f top.kind
    have depth : (branch.rename f).stack.size = branch.stack.size := branch.stack.size_map (Token.rename f)
    dsimp only [Option.map_some]
    rw [sameItems, List.isEmpty_map, depth, candidates_rename, isSettled_rename, Branch.stackKinds_rename,
      Token.position_rename, Token.kind_rename]
    by_cases unknown : (problem.table.items top.kind).isEmpty = true
    · rw [if_pos unknown, if_pos unknown]
      cases problem.isSettled branch <;> rfl
    · rw [if_neg unknown, if_neg unknown]
      cases problem.candidates branch branch.stack.size (problem.table.items top.kind) with
      | nil =>
        -- No item fits: either there is input left for one that accepts, or the items
        -- say what they miss.
        have looked : { branch.rename f with stack := stack.map (Token.rename f) }.consider [] =
            ({ branch with stack }.consider []).rename f := rfl
        rw [List.map_nil]
        dsimp only
        rw [any_accepts_rename, missing_rename, looked, checkConsumed_rename]
        by_cases accepts : ((problem.table.items top.kind).any fun item =>
            item.isAccept && item.span = branch.stack.size) = true
        · rw [if_pos accepts, if_pos accepts]
          obtain ⟨_, refused⟩ := problem.checkConsumed (Branch.consider
            ⟨branch.cursor, stack, branch.steps, branch.done, branch.error, branch.diagnostics⟩ [])
          cases refused <;> rfl
        · rw [if_neg accepts, if_neg accepts]
          rfl
      | cons first others =>
        cases others with
        | nil =>
          show (_, Except.ok [Move.ofItem (first.rename f)]) = _
          rw [Move.ofItem_rename]
          rfl
        | cons second others =>
          have lookahead := top.lookaheadKind?_rename f problem.stream
          show disambiguate _ _ ((top.rename f).lookaheadKind? (problem.stream.rename f)) _ = _
          rw [lookahead]
          exact disambiguate_rename f ({ branch with stack }.consider (first :: second :: others)) top
            (top.lookaheadKind? problem.stream) (first :: second :: others)

/-- A renamed branch proposes the renamed moves, in the same order. -/
theorem nextMoves_rename :
    (problem.rename f).nextMoves (branch.rename f) =
      Prod.map (List.map (Move.rename f)) (Branch.rename f) (problem.nextMoves branch) := by
  unfold nextMoves
  rw [Branch.isOver_rename]
  by_cases isOver : branch.isOver = true
  · rw [if_pos isOver, if_pos isOver]
    rfl
  · rw [if_neg isOver, if_neg isOver]
    have predicted : (problem.rename f).predict ((branch.rename f).enter .predict) = _ :=
      problem.predict_rename f (branch.enter .predict)
    rw [predicted]
    obtain ⟨inspected, outcome⟩ := problem.predict (branch.enter .predict)
    have restored : Branch.mk inspected.cursor (inspected.stack.map (Token.rename f)).rollback inspected.steps
        inspected.done (inspected.error.map (ParseError.rename f)) (inspected.diagnostics.rename f) =
        Branch.rename f { inspected with stack := inspected.stack.rollback } := by
      rw [UndoStack.rollback_map]
      rfl
    cases outcome with
    | ok moves => exact congrArg (Prod.mk (moves.map (Move.rename f))) restored
    | error error =>
      refine congrArg (Prod.mk []) ?_
      exact (congrArg (Branch.fail · (error.rename f)) restored).trans (Branch.fail_rename f _ error)

end Problem

end ShiftReduce
